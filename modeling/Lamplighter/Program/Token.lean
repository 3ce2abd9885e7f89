import Lamplighter.Program.Basic
import Lamplighter.Text.Blank
import Lamplighter.Text.Lines

/-! Program lines, one token for each line that is not blank. -/

namespace Lamplighter

/-- A line's first word decides its kind. Only the five keywords are told apart;
every other line is carried as it stands. -/
inductive Token.Kind where
  | loop
  | endLoop
  | define
  | endDefine
  | call
  | line
  deriving Repr, DecidableEq

def Token.Kind.name : Token.Kind → String
  | loop => "REPEAT"
  | endLoop => "ENDREPEAT"
  | define => "FUNCTION"
  | endDefine => "ENDFUNCTION"
  | call => "CALL"
  | line => "OPCODE"

def Token.Kind.ofWord (word : String) : Token.Kind :=
  if word = "REPEAT" then loop
  else if word = "ENDREPEAT" then endLoop
  else if word = "FUNCTION" then define
  else if word = "ENDFUNCTION" then endDefine
  else if word = "CALL" then call
  else line

/-- The value of a keyword line is what follows the keyword, trimmed. That of any
other line is the whole statement. -/
structure Token where
  kind : Token.Kind
  value : String
  line : Nat
  column : Nat
  statement : String
  deriving Repr, DecidableEq

namespace Token

def location (file : String) (token : Token) : Location :=
  ⟨file, token.line, token.column, token.statement⟩

/-- Reads one trimmed line that is not empty. -/
def ofStatement (line column : Nat) (statement : List Char) : Token :=
  let (word, rest) := Text.splitWord statement
  let kind := Kind.ofWord (String.ofList word)
  let value := if kind = .line then statement else Text.trim rest
  ⟨kind, String.ofList value, line, column, String.ofList statement⟩

/-- A blank line gives no token. -/
def ofLine? (line : Nat) (raw : List Char) : Option Token :=
  match Text.trim raw with
  | [] => none
  | statement => some (ofStatement line (Text.indent raw + 1) statement)

/-- Blank lines count, though they give nothing. -/
def ofLines (lines : List String) : List Token :=
  (lines.zipIdx 1).filterMap fun (raw, line) => ofLine? line raw.toList

def ofSource (source : Text.Source) : List Token := ofLines source.lines

end Token
end Lamplighter
