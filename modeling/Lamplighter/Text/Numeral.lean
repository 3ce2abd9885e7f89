/-! Decimal integers: an optional sign and at least one ASCII digit.

Every integer is the value of its written form, and only that form has a value. -/

namespace Lamplighter.Text

structure Numeral where
  negative : Bool
  digits : List Char
  deriving Repr, DecidableEq

def isDigit (c : Char) : Bool := '0' ≤ c && c ≤ '9'

/-- A sign without digits is no numeral. -/
def Numeral.unsigned? (negative : Bool) (digits : List Char) : Option Numeral :=
  if !digits.isEmpty && digits.all isDigit then some ⟨negative, digits⟩ else none

def Numeral.ofChars? : List Char → Option Numeral
  | '-' :: rest => unsigned? true rest
  | '+' :: rest => unsigned? false rest
  | rest => unsigned? false rest

def natOfDigits (digits : List Char) : Nat :=
  digits.foldl (fun value c => 10 * value + (c.toNat - '0'.toNat)) 0

/-- The sign does not count, leading zeros do. -/
def Numeral.size (numeral : Numeral) : Nat := numeral.digits.length

def Numeral.value (numeral : Numeral) : Int :=
  if numeral.negative then -(natOfDigits numeral.digits : Int) else natOfDigits numeral.digits

end Lamplighter.Text
