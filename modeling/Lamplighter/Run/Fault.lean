import Lamplighter.Run.Log
import Lamplighter.Run.Scope

/-! What can end a run early, and the calls that were active then. -/

namespace Lamplighter

/-- An active call. The main program is the outermost one and has no call site. -/
structure Frame where
  name : String
  scope : Scope
  callSite : Option Location
  last : Option Step
  deriving Repr, DecidableEq

def Frame.top : Frame := ⟨"<top-level>", .root, none, none⟩

/-- Where the frame has got to: its last step, or else the line that called it. -/
def Frame.location (frame : Frame) : Option Location :=
  match frame.last with
  | some step => step.location
  | none => frame.callSite

inductive Cause where
  | unresolved (reference : String)
  | unknownExpr
  | unknownInstr
  | other (message : String) (rule : Option String)
  deriving Repr, DecidableEq

namespace Cause

/-- The name under which a fault is reported. -/
def kind : Cause → String
  | unresolved _ => "UnresolvedReference"
  | _ => "LightBotRuntimeError"

def message : Cause → String
  | unresolved reference => s!"Unresolved reference '{reference}'"
  | unknownExpr => "Unsupported expression Expression"
  | unknownInstr => "Unsupported instruction Instruction"
  | other message _ => message

/-- The part of the run that the fault is charged to. -/
def rule : Cause → Option String
  | unresolved _ | unknownExpr => some "EVAL"
  | unknownInstr => some "internal"
  | other _ rule => rule

end Cause

/-- A fault of a run holds the index of the last step and the active calls,
outermost first. One that was raised by other means holds neither. -/
structure Fault where
  cause : Cause
  location : Option Location
  step : Option Nat
  stack : Option (List Frame)
  deriving Repr, DecidableEq

end Lamplighter
