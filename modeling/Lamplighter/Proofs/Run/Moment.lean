import Mathlib.Logic.Relation
import Lamplighter.Run.Exec

/-! A run, one moment after the other.

A moment is a machine together with what is left to do. An instruction takes two
moves: it is logged, then it has its effect. The moments of a run are those that
can be reached from its start, and a run ends at one that cannot go on. -/

namespace Lamplighter

/-- The kind of step an instruction is logged as. The unknown one is never logged. -/
def Instr.rule? : Instr → Option Rule
  | .act opcode _ _ => some (.act opcode)
  | .loop _ _ _ => some .loop
  | .call _ _ _ => some .call
  | .unknown _ => none

inductive Task where
  | instr (instr : Instr)
  | effect (instr : Instr)
  | again (count : Nat) (body : List Instr)
  | leave

/-- The tasks that run a block. -/
def tasks (instrs : List Instr) : List Task := instrs.map .instr

namespace Machine

/-- The names that the innermost frame sees. -/
def scope (machine : Machine) : Scope :=
  match machine.stack with
  | [] => .root
  | frame :: _ => frame.scope

def pop (machine : Machine) : Machine := { machine with stack := machine.stack.tail }

/-- The fault with which the instruction that is up now ends the run. -/
def fault (machine : Machine) (cause : Cause) (location : Option Location) : Fault :=
  ⟨cause, location, machine.log.last.map Step.index, some machine.stack.reverse⟩

end Machine

structure Moment where
  agenda : List Task
  machine : Machine

namespace Moment

/-- One move. Only `enter` and `leave` touch the number of frames. -/
inductive Next (functions : Table FunDef) : Moment → Moment → Prop where
  | log {instr : Instr} {rule : Rule} {agenda : List Task} {machine : Machine}
      (logged : instr.rule? = some rule) :
      Next functions ⟨.instr instr :: agenda, machine⟩
        ⟨.effect instr :: agenda, machine.record rule instr.location⟩
  | act {opcode : Opcode} {text : String} {location : Option Location} {agenda : List Task}
      {machine : Machine} :
      Next functions ⟨.effect (.act opcode text location) :: agenda, machine⟩
        ⟨agenda, machine.perform opcode⟩
  | loop {count : Expr} {body : List Instr} {location : Option Location} {agenda : List Task}
      {machine : Machine} {value : Int} (evaluated : machine.scope.eval count = .ok value) :
      Next functions ⟨.effect (.loop count body location) :: agenda, machine⟩
        ⟨.again value.toNat body :: agenda, machine⟩
  | again {count : Nat} {body : List Instr} {agenda : List Task} {machine : Machine} :
      Next functions ⟨.again (count + 1) body :: agenda, machine⟩
        ⟨tasks body ++ .again count body :: agenda, machine⟩
  | through {body : List Instr} {agenda : List Task} {machine : Machine} :
      Next functions ⟨.again 0 body :: agenda, machine⟩ ⟨agenda, machine⟩
  | skip {name : String} {args : List Expr} {location : Option Location} {agenda : List Task}
      {machine : Machine} (undefined : functions.get? name = none) :
      Next functions ⟨.effect (.call name args location) :: agenda, machine⟩ ⟨agenda, machine⟩
  | enter {name : String} {args : List Expr} {location : Option Location} {agenda : List Task}
      {machine : Machine} {function : FunDef} {values : List Int}
      (defined : functions.get? name = some function)
      (evaluated : machine.scope.evalAll args = .ok values) :
      Next functions ⟨.effect (.call name args location) :: agenda, machine⟩
        ⟨tasks function.body ++ .leave :: agenda,
          machine.push ⟨function.name, machine.scope.enter function.params values, location, none⟩⟩
  | leave {agenda : List Task} {machine : Machine} :
      Next functions ⟨.leave :: agenda, machine⟩ ⟨agenda, machine.pop⟩

/-- How a run that has come to this moment ends here, if so many calls may be
nested: nothing is left, or the next task fails, or a call would go too deep. -/
inductive Ends (functions : Table FunDef) (limit : Nat) : Moment → Status → Prop where
  | finished {machine : Machine} : Ends functions limit ⟨[], machine⟩ .finished
  | unknown {location : Option Location} {agenda : List Task} {machine : Machine} :
      Ends functions limit ⟨.instr (.unknown location) :: agenda, machine⟩
        (.failed (machine.fault .unknownInstr location))
  | loop {count : Expr} {body : List Instr} {location : Option Location} {agenda : List Task}
      {machine : Machine} {cause : Cause} (unresolved : machine.scope.eval count = .error cause) :
      Ends functions limit ⟨.effect (.loop count body location) :: agenda, machine⟩
        (.failed (machine.fault cause location))
  | call {name : String} {args : List Expr} {location : Option Location} {agenda : List Task}
      {machine : Machine} {function : FunDef} {cause : Cause}
      (defined : functions.get? name = some function)
      (unresolved : machine.scope.evalAll args = .error cause) :
      Ends functions limit ⟨.effect (.call name args location) :: agenda, machine⟩
        (.failed (machine.fault cause location))
  | tooDeep {name : String} {args : List Expr} {location : Option Location} {agenda : List Task}
      {machine : Machine} {function : FunDef} {values : List Int}
      (defined : functions.get? name = some function)
      (evaluated : machine.scope.evalAll args = .ok values)
      (full : machine.stack.length = limit + 1) :
      Ends functions limit ⟨.effect (.call name args location) :: agenda, machine⟩ .tooDeep

abbrev Reaches (functions : Table FunDef) : Moment → Moment → Prop :=
  Relation.ReflTransGen (Next functions)

end Moment

/-- Nothing has been done yet, and only the main program is active. -/
def Program.start (program : Program) (verbose : Bool) (world : World) : Moment :=
  ⟨tasks program.statements, ⟨world, [.top], .start verbose⟩⟩

/-- The moments that a run comes to. They are the same for every limit on nested
calls; the limit only decides where the run is cut off. -/
def Program.Visits (program : Program) (verbose : Bool) (world : World) (moment : Moment) : Prop :=
  Moment.Reaches program.functions (program.start verbose world) moment

/-- What holds at the start and is kept by every move holds at every moment. -/
theorem Program.Visits.invariant {program : Program} {verbose : Bool} {world : World}
    {moment : Moment} (visited : program.Visits verbose world moment) (holds : Moment → Prop)
    (first : holds (program.start verbose world))
    (kept : ∀ before after, program.Visits verbose world before →
      Moment.Next program.functions before after → holds before → holds after) :
    holds moment := by
  induction visited with
  | refl => exact first
  | tail path move ih => exact kept _ _ path move ih

end Lamplighter
