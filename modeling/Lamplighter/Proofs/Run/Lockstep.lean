import Lamplighter.Proofs.Run.Moment

/-! Two runs of one program, instruction by instruction.

The runner asks a machine for nothing but its log and its frames when it fails. Machines
that are alike, in a sense that every effect of an instruction keeps, therefore run
alike. Main statement: `Lockstep.run`. -/

namespace Lamplighter

/-- Both ended the same way, and with faults that compare. -/
inductive Status.Alike (faults : Fault → Fault → Prop) : Status → Status → Prop where
  | finished : Alike faults .finished .finished
  | failed {one two : Fault} (faulty : faults one two) : Alike faults (.failed one) (.failed two)
  | tooDeep : Alike faults .tooDeep .tooDeep

/-- A comparison of machines that survives whatever an instruction does to both. -/
structure Lockstep where
  machines : Machine → Machine → Prop
  faults : Fault → Fault → Prop
  record : ∀ {one two : Machine}, machines one two → ∀ rule location,
    machines (one.record rule location) (two.record rule location)
  perform : ∀ {one two : Machine}, machines one two → ∀ opcode,
    machines (one.perform opcode) (two.perform opcode)
  push : ∀ {one two : Machine}, machines one two → ∀ name scope callSite,
    machines (one.push ⟨name, scope, callSite, none⟩) (two.push ⟨name, scope, callSite, none⟩)
  pop : ∀ {one two : Machine}, machines one two → machines one.pop two.pop
  fault : ∀ {one two : Machine}, machines one two → ∀ cause location,
    faults (one.fault cause location) (two.fault cause location)

namespace Lockstep

variable {lock : Lockstep}

structure Outcomes (lock : Lockstep) (one two : Outcome) : Prop where
  machine : lock.machines one.machine two.machine
  status : Status.Alike lock.faults one.status two.status

theorem finish {one two : Machine} (alike : lock.machines one two) :
    lock.Outcomes one.finish two.finish := ⟨alike, .finished⟩

theorem fail {one two : Machine} (alike : lock.machines one two) (cause : Cause)
    (location : Option Location) :
    lock.Outcomes (one.fail cause location) (two.fail cause location) :=
  ⟨alike, .failed (lock.fault alike cause location)⟩

theorem Outcomes.andThen {one two : Outcome} (alike : lock.Outcomes one two)
    {first second : Machine → Outcome}
    (next : ∀ one two, lock.machines one two → lock.Outcomes (first one) (second two)) :
    lock.Outcomes (one.andThen first) (two.andThen second) := by
  rcases one with ⟨one, status⟩
  rcases two with ⟨two, other⟩
  obtain ⟨machine, ended⟩ := alike
  cases ended with
  | finished => exact next one two machine
  | failed faulty => exact ⟨machine, .failed faulty⟩
  | tooDeep => exact ⟨machine, .tooDeep⟩

theorem Outcomes.pop {one two : Outcome} (alike : lock.Outcomes one two) :
    lock.Outcomes one.pop two.pop := ⟨lock.pop alike.machine, alike.status⟩

theorem iterate {first second : Machine → Outcome} (count : Nat) {one two : Machine}
    (alike : lock.machines one two)
    (once : ∀ one two, lock.machines one two → lock.Outcomes (first one) (second two)) :
    lock.Outcomes (Lamplighter.iterate first count one) (Lamplighter.iterate second count two) := by
  induction count generalizing one two with
  | zero => exact finish alike
  | succ count ih => exact (once one two alike).andThen fun _ _ alike => ih alike

/-- Calls of the one function with the one list of arguments keep machines alike. -/
def Enters (lock : Lockstep) (enter : Enter) : Prop :=
  ∀ function args scope location (one two : Machine), lock.machines one two →
    lock.Outcomes (enter function args scope location one) (enter function args scope location two)

section Tree

variable {functions : Table FunDef} {enter : Enter} {scope : Scope}

mutual

theorem exec (enters : lock.Enters enter) (instr : Instr) {one two : Machine}
    (alike : lock.machines one two) :
    lock.Outcomes (instr.exec functions enter scope one) (instr.exec functions enter scope two) := by
  cases instr with
  | act opcode text location => exact finish (lock.perform (lock.record alike _ _) opcode)
  | unknown location => exact fail alike _ _
  | loop count body location =>
      have logged := lock.record alike .loop location
      simp only [Instr.exec]
      cases scope.eval count with
      | error cause => exact fail logged cause location
      | ok value =>
          exact iterate value.toNat logged fun _ _ alike => execBlock enters body alike
  | call name args location =>
      have logged := lock.record alike .call location
      simp only [Instr.exec]
      cases functions.get? name with
      | none => exact finish logged
      | some function =>
          cases scope.evalAll args with
          | error cause => exact fail logged cause location
          | ok values => exact enters function values scope location _ _ logged
termination_by structural instr

theorem execBlock (enters : lock.Enters enter) (instrs : List Instr) {one two : Machine}
    (alike : lock.machines one two) :
    lock.Outcomes (execBlock functions enter scope instrs one)
      (execBlock functions enter scope instrs two) := by
  cases instrs with
  | nil => exact finish alike
  | cons instr instrs =>
      exact (exec enters instr alike).andThen fun _ _ alike => execBlock enters instrs alike
termination_by structural instrs

end

end Tree

/-- On the calls that are left, as the runner goes down them. -/
theorem enter (functions : Table FunDef) (depth : Nat) :
    lock.Enters (Lamplighter.enter functions depth) := by
  induction depth with
  | zero => exact fun _ _ _ _ _ _ alike => ⟨alike, .tooDeep⟩
  | succ depth ih =>
      intro function args scope location one two alike
      exact (execBlock ih function.body (lock.push alike ..)).pop

theorem run (lock : Lockstep) (program : Program) (limit : Nat) {verbose loud : Bool}
    {one two : World}
    (alike : lock.machines ⟨one, [.top], .start verbose⟩ ⟨two, [.top], .start loud⟩) :
    lock.Outcomes (program.run limit verbose one) (program.run limit loud two) :=
  (execBlock (enter program.functions limit) program.statements alike).pop

end Lockstep
end Lamplighter
