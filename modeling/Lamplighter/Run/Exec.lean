import Lamplighter.Run.Fault

/-! Running a program.

Blocks and loops are run by recursion on the tree. A call is handed to `enter`,
which recurses on the number of calls that may still be nested; a run that needs
more is `tooDeep`, and every other outcome stays the same when more are allowed. -/

namespace Lamplighter

namespace Scope

def eval (scope : Scope) : Expr → Except Cause Int
  | .literal value => .ok value
  | .identifier name =>
    match scope.find? name with
    | some value => .ok value
    | none => .error (.unresolved name)
  | .unknown => .error .unknownExpr

/-- The leftmost fault is the one that counts. -/
def evalAll (scope : Scope) : List Expr → Except Cause (List Int)
  | [] => .ok []
  | expr :: exprs => do
    let value ← scope.eval expr
    let values ← scope.evalAll exprs
    return value :: values

end Scope

/-- The world, the active calls from the innermost on, and the record so far. -/
structure Machine where
  world : World
  stack : List Frame
  log : Log
  deriving Repr, DecidableEq

inductive Status where
  | finished
  | failed (fault : Fault)
  | tooDeep
  deriving Repr, DecidableEq

/-- How a run ended, and what it left behind. -/
structure Outcome where
  machine : Machine
  status : Status
  deriving Repr, DecidableEq

namespace Machine

/-- Logs the instruction that is up next, also in the frame that runs it. -/
def record (machine : Machine) (rule : Rule) (location : Option Location) : Machine :=
  let step := ⟨machine.log.count, rule, location, machine.world.robot⟩
  { machine with
    stack := machine.stack.modifyHead fun frame => { frame with last := some step }
    log := machine.log.add step }

def push (machine : Machine) (frame : Frame) : Machine :=
  { machine with stack := frame :: machine.stack }

def perform (machine : Machine) (opcode : Opcode) : Machine :=
  { machine with world := machine.world.perform opcode }

def finish (machine : Machine) : Outcome := ⟨machine, .finished⟩

def fail (machine : Machine) (cause : Cause) (location : Option Location) : Outcome :=
  ⟨machine, .failed ⟨cause, location, machine.log.last.map Step.index, some machine.stack.reverse⟩⟩

end Machine

namespace Outcome

/-- Goes on with the machine of a run that finished. -/
@[inline] def andThen (outcome : Outcome) (next : Machine → Outcome) : Outcome :=
  match outcome.status with
  | .finished => next outcome.machine
  | _ => outcome

/-- Leaves the innermost call, however it ended. -/
def pop (outcome : Outcome) : Outcome :=
  { outcome with machine := { outcome.machine with stack := outcome.machine.stack.tail } }

end Outcome

/-- Runs the same thing again and again, until it has run so many times or has
not finished. -/
def iterate (run : Machine → Outcome) : Nat → Machine → Outcome
  | 0, machine => machine.finish
  | count + 1, machine => (run machine).andThen (iterate run count)

/-- What a call does once its arguments have their values. -/
abbrev Enter := FunDef → List Int → Scope → Option Location → Machine → Outcome

mutual

/-- Every instruction is logged before anything else happens. A loop's count is
fixed on entry, and below one it runs nothing. A call of an undefined function
does nothing, whatever its arguments. -/
def Instr.exec (functions : Table FunDef) (enter : Enter) (scope : Scope) :
    Instr → Machine → Outcome
  | .act opcode _ location, machine =>
    ((machine.record (.act opcode) location).perform opcode).finish
  | .loop count body location, machine =>
    let machine := machine.record .loop location
    match scope.eval count with
    | .error cause => machine.fail cause location
    | .ok count => iterate (fun machine => execBlock functions enter scope body machine) count.toNat machine
  | .call name args location, machine =>
    let machine := machine.record .call location
    match functions.get? name with
    | none => machine.finish
    | some function =>
      match scope.evalAll args with
      | .error cause => machine.fail cause location
      | .ok values => enter function values scope location machine
  | .unknown location, machine => machine.fail .unknownInstr location

def execBlock (functions : Table FunDef) (enter : Enter) (scope : Scope) :
    List Instr → Machine → Outcome
  | [], machine => machine.finish
  | instr :: instrs, machine =>
    (instr.exec functions enter scope machine).andThen fun machine =>
      execBlock functions enter scope instrs machine

end

/-- Runs a function's body in a frame of its own, with so many calls left. -/
def enter (functions : Table FunDef) : Nat → Enter
  | 0, _, _, _, _, machine => ⟨machine, .tooDeep⟩
  | depth + 1, function, args, caller, callSite, machine =>
    let scope := caller.enter function.params args
    let frame := ⟨function.name, scope, callSite, none⟩
    (execBlock functions (enter functions depth) scope function.body (machine.push frame)).pop

/-- Runs the main statements on a world as it is, with a fresh record. -/
def Program.run (limit : Nat) (verbose : Bool) (program : Program) (world : World) : Outcome :=
  let machine := ⟨world, [.top], .start verbose⟩
  (execBlock program.functions (enter program.functions limit) .root program.statements machine).pop

end Lamplighter
