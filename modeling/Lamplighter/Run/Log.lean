import Lamplighter.World.Basic

/-! The record of a run, one step for each instruction that was reached. -/

namespace Lamplighter

/-- The kind of instruction a step belongs to. -/
inductive Rule where
  | act (opcode : Opcode)
  | loop
  | call
  deriving Repr, DecidableEq

def Rule.name : Rule → String
  | act opcode => opcode.name
  | loop => "REPEAT"
  | call => "CALL"

/-- The pose is the one before the instruction had its effect. -/
structure Step where
  index : Nat
  rule : Rule
  location : Option Location
  pose : Pose
  deriving Repr, DecidableEq

/-- A quiet log counts steps and keeps the last one; a verbose one keeps all. -/
structure Log where
  verbose : Bool
  steps : Array Step
  count : Nat
  last : Option Step
  deriving Repr, DecidableEq

namespace Log

def start (verbose : Bool) : Log := ⟨verbose, #[], 0, none⟩

def add (log : Log) (step : Step) : Log where
  verbose := log.verbose
  steps := if log.verbose then log.steps.push step else log.steps
  count := log.count + 1
  last := some step

end Log
end Lamplighter
