import Lamplighter.Proofs.Program.Labels
import Lamplighter.Run.Exec

/-! Runs of trees whose instructions are located elsewhere.

Where an instruction stands is logged, and kept in frames and faults, and nothing hangs on it.
So a relabelled program runs as it did, with the labels in place of the locations. Main
statement: `Program.run_relabelled`. -/

namespace Lamplighter

section Relabelled

variable (label : Location → Location)

def Step.relabelled (step : Step) : Step := { step with location := step.location.map label }

def Frame.relabelled (frame : Frame) : Frame :=
  { frame with
    callSite := frame.callSite.map label
    last := frame.last.map (Step.relabelled label) }

def Log.relabelled (log : Log) : Log :=
  { log with
    steps := log.steps.map (Step.relabelled label)
    last := log.last.map (Step.relabelled label) }

def Fault.relabelled (fault : Fault) : Fault :=
  { fault with
    location := fault.location.map label
    stack := fault.stack.map (List.map (Frame.relabelled label)) }

def Machine.relabelled (machine : Machine) : Machine :=
  { machine with
    stack := machine.stack.map (Frame.relabelled label)
    log := machine.log.relabelled label }

def Status.relabelled : Status → Status
  | .finished => .finished
  | .failed fault => .failed (fault.relabelled label)
  | .tooDeep => .tooDeep

def Outcome.relabelled (outcome : Outcome) : Outcome :=
  ⟨outcome.machine.relabelled label, outcome.status.relabelled label⟩

end Relabelled

variable {label : Location → Location}

theorem Frame.location_relabelled (frame : Frame) :
    (frame.relabelled label).location = frame.location.map label := by
  rcases frame with ⟨name, scope, callSite, last⟩
  cases last <;> rfl

theorem Log.relabelled_add (log : Log) (step : Step) :
    (log.add step).relabelled label = (log.relabelled label).add (step.relabelled label) := by
  rcases log with ⟨verbose, steps, count, last⟩
  cases verbose with
  | false => rfl
  | true => simp [Log.relabelled, Log.add]

namespace Machine

theorem relabelled_record (machine : Machine) (rule : Rule) (location : Option Location) :
    (machine.record rule location).relabelled label =
      (machine.relabelled label).record rule (location.map label) := by
  rcases machine with ⟨world, stack, log⟩
  simp only [record, relabelled, Log.relabelled_add]
  cases stack <;> rfl

theorem relabelled_fail (machine : Machine) (cause : Cause) (location : Option Location) :
    (machine.fail cause location).relabelled label =
      (machine.relabelled label).fail cause (location.map label) := by
  have index : (machine.log.last.map (Step.relabelled label)).map Step.index =
      machine.log.last.map Step.index := by
    rw [Option.map_map]
    rfl
  simp only [fail, Outcome.relabelled, Status.relabelled, Fault.relabelled, relabelled,
    Log.relabelled, index, Option.map_some, List.map_reverse]

end Machine

namespace Outcome

theorem relabelled_andThen (outcome : Outcome) {first second : Machine → Outcome}
    (same : ∀ machine, second (machine.relabelled label) = (first machine).relabelled label) :
    (outcome.relabelled label).andThen second = (outcome.andThen first).relabelled label := by
  rcases outcome with ⟨machine, status⟩
  cases status with
  | finished => exact same machine
  | failed | tooDeep => rfl

theorem relabelled_pop (outcome : Outcome) :
    (outcome.relabelled label).pop = outcome.pop.relabelled label := by
  simp only [pop, relabelled, Machine.relabelled, List.map_tail]

theorem relabelled_iterate {first second : Machine → Outcome}
    (same : ∀ machine, second (machine.relabelled label) = (first machine).relabelled label)
    (count : Nat) (machine : Machine) :
    iterate second count (machine.relabelled label) =
      (iterate first count machine).relabelled label := by
  induction count generalizing machine with
  | zero => rfl
  | succ count ih => rw [iterate, iterate, same, relabelled_andThen _ ih]

end Outcome

/-- Calls of a function and of its relabelled form go together. -/
def EntersRelabelled (label : Location → Location) (plain other : Enter) : Prop :=
  ∀ function args scope location machine,
    other (function.relabelled label) args scope (location.map label) (machine.relabelled label) =
      (plain function args scope location machine).relabelled label

section Tree

variable {functions : Table FunDef} {plain other : Enter} {scope : Scope}

mutual

theorem exec_relabelled (enters : EntersRelabelled label plain other) (instr : Instr)
    (machine : Machine) :
    (instr.relabelled label).exec (functions.mapValues (FunDef.relabelled label)) other scope
        (machine.relabelled label) =
      (instr.exec functions plain scope machine).relabelled label := by
  cases instr with
  | act opcode text location =>
      rw [Instr.relabelled, Instr.exec, Instr.exec, ← Machine.relabelled_record]
      rfl
  | unknown location => exact (machine.relabelled_fail _ _).symm
  | loop count body location =>
      rw [Instr.relabelled, Instr.exec, Instr.exec, ← Machine.relabelled_record]
      cases scope.eval count with
      | error cause => exact (Machine.relabelled_fail _ _ _).symm
      | ok value =>
          exact Outcome.relabelled_iterate (execBlock_relabelled enters body) value.toNat _
  | call name args location =>
      rw [Instr.relabelled, Instr.exec, Instr.exec, ← Machine.relabelled_record,
        Table.get?_mapValues]
      cases functions.get? name with
      | none => rfl
      | some function =>
          cases evaluated : scope.evalAll args with
          | error cause =>
              simp only [Option.map_some]
              exact (Machine.relabelled_fail _ _ _).symm
          | ok values =>
              simp only [Option.map_some]
              exact enters function values scope location _
termination_by structural instr

theorem execBlock_relabelled (enters : EntersRelabelled label plain other) (instrs : List Instr)
    (machine : Machine) :
    execBlock (functions.mapValues (FunDef.relabelled label)) other scope
        (relabelledBlock label instrs) (machine.relabelled label) =
      (execBlock functions plain scope instrs machine).relabelled label := by
  cases instrs with
  | nil => rfl
  | cons instr instrs =>
      rw [relabelledBlock, execBlock, execBlock, exec_relabelled enters instr machine]
      exact Outcome.relabelled_andThen _ (execBlock_relabelled enters instrs)
termination_by structural instrs

end

end Tree

/-- On the calls that are left, as both runs go down them. -/
theorem enter_relabelled (functions : Table FunDef) (depth : Nat) :
    EntersRelabelled label (enter functions depth)
      (enter (functions.mapValues (FunDef.relabelled label)) depth) := by
  induction depth with
  | zero => exact fun _ _ _ _ _ => rfl
  | succ depth ih =>
      intro function args scope location machine
      rw [enter, enter, ← Outcome.relabelled_pop]
      exact congrArg Outcome.pop (execBlock_relabelled ih function.body
        (machine.push ⟨function.name, scope.enter function.params args, location, none⟩))

theorem Machine.relabelled_start (world : World) (verbose : Bool) :
    Machine.relabelled label ⟨world, [.top], .start verbose⟩ =
      ⟨world, [.top], .start verbose⟩ := by
  simp only [relabelled, Log.relabelled, Log.start, List.map_cons, List.map_nil,
    List.map_toArray, Option.map_none]
  rfl

theorem Program.run_relabelled (program : Program) (limit : Nat) (verbose : Bool) (world : World) :
    (program.relabelled label).run limit verbose world =
      (program.run limit verbose world).relabelled label := by
  rw [Program.run, Program.run, ← Outcome.relabelled_pop,
    ← execBlock_relabelled (enter_relabelled program.functions limit), Machine.relabelled_start]
  rfl

end Lamplighter
