import Lamplighter.Json.Basic
import Lamplighter.Table
import Lamplighter.Text.Numeral

/-! A reader of JSON text.

It takes JSON in any layout: white space between the parts of a value, every escape in a string,
hexadecimal digits of both cases, and characters written as surrogate pairs. A number with a
fraction or an exponent is no integer, and half of a pair no character; neither is read. Of two
members with one key the later value stays, at the earlier place. -/

namespace Lamplighter.Json

def isSpace (c : Char) : Bool := [' ', '\t', '\n', '\r'].contains c

def skip (cs : List Char) : List Char := cs.dropWhile isSpace

def hexValue? (c : Char) : Option Nat :=
  if '0' ≤ c ∧ c ≤ '9' then some (c.toNat - '0'.toNat)
  else if 'a' ≤ c ∧ c ≤ 'f' then some (c.toNat - 'a'.toNat + 10)
  else if 'A' ≤ c ∧ c ≤ 'F' then some (c.toNat - 'A'.toNat + 10)
  else none

/-- A unit of sixteen bits, from its four digits. -/
def unit? : List Char → Option (Nat × List Char)
  | a :: b :: c :: d :: rest => do
    let a ← hexValue? a
    let b ← hexValue? b
    let c ← hexValue? c
    let d ← hexValue? d
    return (((a * 16 + b) * 16 + c) * 16 + d, rest)
  | _ => none

/-- The character that begins with this unit. A high surrogate takes the low one after it along. -/
def ofUnit? (first : Nat) (rest : List Char) : Option (Char × List Char) :=
  if first < 0xD800 ∨ 0xDFFF < first then some (Char.ofNat first, rest)
  else
    match rest with
    | '\\' :: 'u' :: rest => do
      let (second, rest) ← unit? rest
      if first < 0xDC00 ∧ 0xDC00 ≤ second ∧ second ≤ 0xDFFF then
        some (Char.ofNat (0x10000 + (first - 0xD800) * 0x400 + (second - 0xDC00)), rest)
      else none
    | _ => none

/-- What may follow a backslash alone, and the character that is meant. -/
def shortEscapes : List (Char × Char) :=
  [('"', '"'), ('\\', '\\'), ('/', '/'), ('b', '\x08'), ('f', '\x0c'), ('n', '\n'), ('r', '\r'),
   ('t', '\t')]

def escaped? : List Char → Option (Char × List Char)
  | [] => none
  | c :: rest =>
    if c = 'u' then do
      let (first, rest) ← unit? rest
      ofUnit? first rest
    else (shortEscapes.lookup c).map fun meant => (meant, rest)

/-- One character of a string. Control characters are only read from escapes. -/
def char? : List Char → Option (Char × List Char)
  | [] => none
  | c :: rest =>
    if c = '\\' then escaped? rest
    else if c = '"' ∨ c.toNat < 0x20 then none
    else some (c, rest)

/-- The rest of a string, up to the quote that ends it. -/
def string? : Nat → List Char → Option (List Char × List Char)
  | 0, _ => none
  | fuel + 1, cs =>
    if cs.head? = some '"' then some ([], cs.tail)
    else do
      let (c, rest) ← char? cs
      let (content, rest) ← string? fuel rest
      return (c :: content, rest)

def text? : List Char → Option (String × List Char)
  | '"' :: rest =>
    (string? rest.length rest).map fun (content, rest) => (String.ofList content, rest)
  | _ => none

/-- Digits without a zero in front, where neither a fraction nor an exponent follows. -/
def digits? (cs : List Char) : Option (List Char × List Char) :=
  let digits := cs.takeWhile Text.isDigit
  let rest := cs.dropWhile Text.isDigit
  if digits = [] ∨ (digits.head? = some '0' ∧ digits ≠ ['0']) then none
  else if rest.head? = some '.' ∨ rest.head? = some 'e' ∨ rest.head? = some 'E' then none
  else some (digits, rest)

def number? (cs : List Char) : Option (Int × List Char) :=
  let negative := cs.head? = some '-'
  (digits? (if negative then cs.tail else cs)).map fun (digits, rest) =>
    ((⟨negative, digits⟩ : Text.Numeral).value, rest)

def words : List (String × Json) := [("null", .null), ("true", .bool true), ("false", .bool false)]

def word? (cs : List Char) : Option (Json × List Char) :=
  words.findSome? fun (word, value) => (word.toList.isPrefixOf? cs).map fun rest => (value, rest)

/-- A value without parts. -/
def scalar? (cs : List Char) : Option (Json × List Char) :=
  ((text? cs).map fun (value, rest) => (.text value, rest)).or
    (((number? cs).map fun (value, rest) => (.number value, rest)).or (word? cs))

section Series

variable {α : Type}

/-- Further parts of a value, a comma in front of each, up to the bracket that closes it. -/
def further? (part? : List Char → Option (α × List Char)) (closer : Char) :
    Nat → List Char → Option (List α × List Char)
  | 0, _ => none
  | fuel + 1, cs =>
    match skip cs with
    | [] => none
    | c :: rest =>
      if c = closer then some ([], rest)
      else if c = ',' then do
        let (part, rest) ← part? rest
        let (parts, rest) ← further? part? closer fuel rest
        return (part :: parts, rest)
      else none

/-- The parts of a value, from behind the bracket that opens it. -/
def series? (part? : List Char → Option (α × List Char)) (closer : Char) (cs : List Char) :
    Option (List α × List Char) :=
  match skip cs with
  | [] => none
  | c :: rest =>
    if c = closer then some ([], rest)
    else do
      let (part, rest) ← part? cs
      let (parts, rest) ← further? part? closer rest.length rest
      return (part :: parts, rest)

end Series

def member? (value? : List Char → Option (Json × List Char)) (cs : List Char) :
    Option ((String × Json) × List Char) := do
  let (key, rest) ← text? (skip cs)
  match skip rest with
  | ':' :: rest => do
    let (value, rest) ← value? rest
    return ((key, value), rest)
  | _ => none

/-- A value that is nested less deep than the number says, and what is left of the text. -/
def value? : Nat → List Char → Option (Json × List Char)
  | 0, _ => none
  | depth + 1, cs =>
    match skip cs with
    | [] => none
    | c :: rest =>
      if c = '[' then
        (series? (value? depth) ']' rest).map fun (items, rest) => (.array items, rest)
      else if c = '\x7b' then
        (series? (member? (value? depth)) '\x7d' rest).map fun (members, rest) =>
          (.object (Table.ofList members).entries, rest)
      else scalar? (c :: rest)

/-- The value of a text that holds one value and nothing else. -/
def read? (text : String) : Option Json := do
  let (value, rest) ← value? (text.toList.length + 1) text.toList
  if skip rest = [] then some value else none

end Lamplighter.Json
