import Lamplighter.Table

/-! The language: instructions, functions and programs.

Source text only gives trees made of acts, loops and calls over literals and
names. A tree built by hand may hold the two `unknown` forms as well; running one
is a fault. -/

namespace Lamplighter

/-- Where an instruction stands. Lines and columns count from one, and the
statement is the trimmed line. -/
structure Location where
  file : String
  line : Nat
  column : Nat
  statement : String
  deriving Repr, DecidableEq

/-- What one line asks of the robot. -/
inductive Opcode where
  | forward
  | left
  | right
  | light
  | noop
  deriving Repr, DecidableEq

namespace Opcode

def name : Opcode → String
  | forward => "FORWARD"
  | left => "LEFT"
  | right => "RIGHT"
  | light => "LIGHT"
  | noop => "NOOP"

/-- A line that is not exactly one of the four words does nothing, and the word
for doing nothing is such a line too. -/
def ofStatement (statement : String) : Opcode :=
  if statement = "FORWARD" then forward
  else if statement = "LEFT" then left
  else if statement = "RIGHT" then right
  else if statement = "LIGHT" then light
  else noop

theorem ofStatement_name (opcode : Opcode) : ofStatement opcode.name = opcode := by
  cases opcode <;> decide

end Opcode

/-- An expression has no place of its own: in source text and in trees alike it stands where the
instruction does that holds it, and there a fault is located that comes up in it. -/
inductive Expr where
  | literal (value : Int)
  | identifier (name : String)
  | unknown
  deriving Repr, DecidableEq

inductive Instr where
  | act (opcode : Opcode) (text : String) (location : Option Location)
  | loop (count : Expr) (body : List Instr) (location : Option Location)
  | call (name : String) (args : List Expr) (location : Option Location)
  | unknown (location : Option Location)
  deriving Repr

def Instr.location : Instr → Option Location
  | act _ _ location | loop _ _ location | call _ _ location | unknown location => location

/-- Parameters may repeat; the later argument then wins. -/
structure FunDef where
  name : String
  params : List String
  body : List Instr
  location : Option Location
  deriving Repr

structure Program where
  file : String
  functions : Table FunDef
  statements : List Instr
  deriving Repr

end Lamplighter
