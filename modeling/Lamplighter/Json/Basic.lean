/-! JSON values, with integers for numbers and members in the order given. -/

namespace Lamplighter

inductive Json where
  | null
  | bool (value : Bool)
  | number (value : Int)
  | text (value : String)
  | array (items : List Json)
  | object (members : List (String × Json))
  deriving Repr

namespace Json

def nat (value : Nat) : Json := number value

/-- Null where there is no value. -/
def ofOption {α : Type} (encode : α → Json) : Option α → Json
  | none => null
  | some value => encode value

end Json
end Lamplighter
