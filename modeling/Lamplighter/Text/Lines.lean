/-! Cutting a text into lines.

A line ends at any of the eleven terminators, or at the end of the text. A
terminator that closes the text opens no further line. -/

namespace Lamplighter.Text

/-- The characters that end a line. A carriage return and the line feed right
after it are one terminator. -/
def breaks : List Char :=
  ['\n', '\x0b', '\x0c', '\r', '\x1c', '\x1d', '\x1e', '\u0085', '\u2028', '\u2029']

def isBreak (c : Char) : Bool := breaks.contains c

/-- Puts a character in front of the first line. -/
def extendFirst (c : Char) : List (List Char) → List (List Char)
  | [] => [[c]]
  | line :: lines => (c :: line) :: lines

def splitLines : List Char → List (List Char)
  | [] => []
  | '\r' :: '\n' :: rest => [] :: splitLines rest
  | c :: rest => if isBreak c then [] :: splitLines rest else extendFirst c (splitLines rest)

def lines (text : String) : List String := (splitLines text.toList).map String.ofList

/-- Both `\r\n` and a lone `\r` become `\n`, as in a file that is read as text. -/
def unifyNewlines : List Char → List Char
  | [] => []
  | '\r' :: '\n' :: rest => '\n' :: unifyNewlines rest
  | '\r' :: rest => '\n' :: unifyNewlines rest
  | c :: rest => c :: unifyNewlines rest

/-- Program and map texts come whole or already cut into pieces. -/
inductive Source where
  | text (body : String)
  | pieces (items : List String)
  deriving Repr, DecidableEq

/-- A piece is cut further where it holds terminators; an empty piece counts as
one empty line. -/
def Source.lines : Source → List String
  | .text body => Text.lines body
  | .pieces items => items.flatMap fun item => if item.isEmpty then [""] else Text.lines item

end Lamplighter.Text
