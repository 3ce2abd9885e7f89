import Lamplighter.Json.Basic
import Lamplighter.Text.Decimal
import Lamplighter.Text.Hex

/-! JSON text in ASCII, one item a line, two more blanks of margin a level.

A value with a number that has no text has none either. -/

namespace Lamplighter.Json

/-- A unit of sixteen bits as four digits. -/
def unit (n : Nat) : List Char := '\\' :: 'u' :: Text.hex 4 n

/-- Printable ASCII stands for itself, quote and backslash apart. What does not
fit one unit is written as a surrogate pair. -/
def escape (c : Char) : List Char :=
  match c with
  | '"' => ['\\', '"']
  | '\\' => ['\\', '\\']
  | '\n' => ['\\', 'n']
  | '\r' => ['\\', 'r']
  | '\t' => ['\\', 't']
  | '\x08' => ['\\', 'b']
  | '\x0c' => ['\\', 'f']
  | c =>
    let n := c.toNat
    if 0x20 ≤ n ∧ n < 0x7F then [c]
    else if n < 0x10000 then unit n
    else unit (0xD800 + (n - 0x10000) / 0x400) ++ unit (0xDC00 + (n - 0x10000) % 0x400)

def quoted (text : String) : List Char := '"' :: text.toList.flatMap escape ++ ['"']

def newline (depth : Nat) : List Char := '\n' :: List.replicate (2 * depth) ' '

mutual

/-- The text of a value whose own margin is that of `depth`. -/
def chars (depth : Nat) : Json → List Char
  | null => "null".toList
  | bool true => "true".toList
  | bool false => "false".toList
  | number value => (toString value).toList
  | text value => quoted value
  | array [] => ['[', ']']
  | array (item :: items) =>
    '[' :: newline (depth + 1) ++ chars (depth + 1) item ++ itemChars (depth + 1) items ++
      newline depth ++ [']']
  | object [] => ['\x7b', '\x7d']
  | object ((key, value) :: members) =>
    '\x7b' :: newline (depth + 1) ++ quoted key ++ [':', ' '] ++ chars (depth + 1) value ++
      memberChars (depth + 1) members ++ newline depth ++ ['\x7d']

def itemChars (depth : Nat) : List Json → List Char
  | [] => []
  | item :: items => ',' :: newline depth ++ chars depth item ++ itemChars depth items

def memberChars (depth : Nat) : List (String × Json) → List Char
  | [] => []
  | (key, value) :: members =>
    ',' :: newline depth ++ quoted key ++ [':', ' '] ++ chars depth value ++
      memberChars depth members

end

/-- The text of a value, however long its numbers are. -/
def write (value : Json) : String := String.ofList (value.chars 0)

mutual

/-- The numbers that come up in a value, at every depth. -/
def numbers : Json → List Int
  | null | bool _ | text _ => []
  | number value => [value]
  | array items => itemNumbers items
  | object members => memberNumbers members

def itemNumbers : List Json → List Int
  | [] => []
  | item :: items => item.numbers ++ itemNumbers items

def memberNumbers : List (String × Json) → List Int
  | [] => []
  | (_, value) :: members => value.numbers ++ memberNumbers members

end

/-- The text of a value whose numbers all have one. -/
def write? (value : Json) : Option String :=
  if ∀ number ∈ value.numbers, Text.Convertible number then some value.write else none

end Lamplighter.Json
