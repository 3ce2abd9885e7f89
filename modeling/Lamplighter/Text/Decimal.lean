/-! The decimal text of an integer. An integer of too many digits has none. -/

namespace Lamplighter.Text

/-- Where integers are read or written they have at most this many digits. -/
def maxDigits : Nat := 4300

def digits (n : Nat) : List Char := Nat.toDigits 10 n

/-- Short enough to be written. The sign does not count. -/
def Convertible (value : Int) : Prop := (digits value.natAbs).length ≤ maxDigits

instance (value : Int) : Decidable (Convertible value) :=
  inferInstanceAs (Decidable ((digits value.natAbs).length ≤ maxDigits))

/-- The text of an integer, if it has one. -/
def decimal? (value : Int) : Option String :=
  if Convertible value then some (toString value) else none

/-- What is said when an integer has no text. -/
def unwritable : String :=
  "Exceeds the limit (4300 digits) for integer string conversion; " ++
    "use sys.set_int_max_str_digits() to increase the limit"

end Lamplighter.Text
