import Mathlib.Data.List.Forall2
import Mathlib.Data.List.Induction
import Lamplighter.Proofs.Run.Lockstep

/-! Loops against their bodies written out.

Once it has logged itself, a loop runs what its body says so many times over. A machine that
has logged one step more does all that a machine without it does, at steps that are one later.
Main statement: `loop_unrolls`. -/

namespace Lamplighter

/-- The step at the index after its own. -/
def Step.later (step : Step) : Step := { step with index := step.index + 1 }

namespace Log

def addAll (log : Log) (steps : List Step) : Log := steps.foldl add log

theorem addAll_concat (log : Log) (steps : List Step) (step : Step) :
    log.addAll (steps ++ [step]) = (log.addAll steps).add step :=
  List.foldl_concat ..

theorem count_addAll (log : Log) (steps : List Step) :
    (log.addAll steps).count = log.count + steps.length := by
  induction steps using List.reverseRecOn with
  | nil => rfl
  | append_singleton steps step ih =>
      rw [addAll_concat, List.length_append, List.length_singleton, ← Nat.add_assoc, ← ih]
      rfl

/-- A log that was empty at the start keeps all steps or none of them. -/
theorem addAll_start (verbose : Bool) (steps : List Step) :
    (start verbose).addAll steps =
      ⟨verbose, if verbose then steps.toArray else #[], steps.length, steps.getLast?⟩ := by
  induction steps using List.reverseRecOn with
  | nil => cases verbose <;> rfl
  | append_singleton steps step ih =>
      rw [addAll_concat, ih, List.getLast?_concat, List.length_append, List.length_singleton]
      cases verbose <;> simp [add]

end Log

theorem Outcome.andThen_assoc (outcome : Outcome) (first second : Machine → Outcome) :
    (outcome.andThen first).andThen second =
      outcome.andThen fun machine => (first machine).andThen second := by
  rcases outcome with ⟨machine, status⟩
  cases status <;> rfl

section Repetition

variable (functions : Table FunDef) (enter : Enter) (scope : Scope)

theorem execBlock_append (first second : List Instr) (machine : Machine) :
    execBlock functions enter scope (first ++ second) machine =
      (execBlock functions enter scope first machine).andThen
        (execBlock functions enter scope second) := by
  induction first generalizing machine with
  | nil => rfl
  | cons instr first ih =>
      rw [List.cons_append, execBlock, execBlock, Outcome.andThen_assoc]
      exact congrArg _ (funext ih)

/-- A block of one instruction. -/
theorem execBlock_single (instr : Instr) (machine : Machine) :
    execBlock functions enter scope [instr] machine = instr.exec functions enter scope machine := by
  rw [execBlock]
  rcases instr.exec functions enter scope machine with ⟨left, status⟩
  cases status <;> rfl

/-- Repeating a block is running its repetition. -/
theorem iterate_execBlock (body : List Instr) (count : Nat) (machine : Machine) :
    iterate (execBlock functions enter scope body) count machine =
      execBlock functions enter scope (List.replicate count body).flatten machine := by
  induction count generalizing machine with
  | zero => rfl
  | succ count ih =>
      rw [List.replicate_succ, List.flatten_cons, execBlock_append, iterate]
      exact congrArg _ (funext ih)

end Repetition

/-- The last step of a run, and that of a run which has logged `entry` before it: both have
come to one step since, at its two indices, or both to none. -/
inductive Step.Lately (entry : Step) (before : Option Step) : Option Step → Option Step → Prop where
  | entry : Lately entry before before (some entry)
  | later (step : Step) (since : entry.index ≤ step.index) :
      Lately entry before (some step) (some step.later)

/-- The same call, with the same names bound, come to the same step or, on one side, to `entry`
where the other is still at the step before. -/
structure Frame.Delayed (entry : Step) (before : Option Step) (one two : Frame) : Prop where
  name : one.name = two.name
  scope : one.scope = two.scope
  callSite : one.callSite = two.callSite
  last : one.last = two.last ∨ Step.Lately entry before one.last two.last

namespace Machine

/-- The last step of the innermost frame. -/
def latest (machine : Machine) : Option Step := machine.stack.head?.bind Frame.last

/-- The step that is logged if this is what comes next. -/
def upcoming (machine : Machine) (rule : Rule) (location : Option Location) : Step :=
  ⟨machine.log.count, rule, location, machine.world.robot⟩

end Machine

/-- The same fault, with the calls that were active, at a step one later. -/
structure Fault.Delayed (entry : Step) (machine : Machine) (one two : Fault) : Prop where
  cause : one.cause = two.cause
  location : one.location = two.location
  step : ∃ first second, Step.Lately entry machine.log.last first second ∧
    one.step = first.map Step.index ∧ two.step = second.map Step.index
  stack : Option.Rel (List.Forall₂ (Frame.Delayed entry machine.latest)) one.stack two.stack

/-- What has become of a machine, and of the machine that had logged `entry` first. -/
structure Machine.Delayed (entry : Step) (machine : Machine) (one two : Machine) : Prop where
  world : one.world = two.world
  stack : List.Forall₂ (Frame.Delayed entry machine.latest) one.stack two.stack
  log : ∃ steps, one.log = machine.log.addAll steps ∧
    two.log = (machine.log.add entry).addAll (steps.map Step.later)
  last : Step.Lately entry machine.log.last one.log.last two.log.last

theorem Frame.delayed_self (entry : Step) (before : Option Step) (frame : Frame) :
    frame.Delayed entry before frame :=
  ⟨rfl, rfl, rfl, .inl rfl⟩

namespace Machine.Delayed

variable {machine one two : Machine} {entry : Step}

theorem of_record (machine : Machine) (rule : Rule) (location : Option Location) :
    Delayed (machine.upcoming rule location) machine machine (machine.record rule location) where
  world := rfl
  stack := by
    rcases machine with ⟨world, stack, log⟩
    cases stack with
    | nil => exact .nil
    | cons inner outer =>
        refine .cons ⟨rfl, rfl, rfl, .inr .entry⟩ ?_
        exact List.forall₂_same.mpr fun frame _ => frame.delayed_self _ _
  log := ⟨[], rfl, rfl⟩
  last := .entry

/-- What both log next is one step, but for its index. -/
theorem upcoming (delayed : Delayed entry machine one two) (rule : Rule)
    (location : Option Location) :
    two.upcoming rule location = (one.upcoming rule location).later := by
  obtain ⟨steps, plain, late⟩ := delayed.log
  have count : two.log.count = one.log.count + 1 := by
    rw [plain, late, Log.count_addAll, Log.count_addAll, List.length_map]
    exact Nat.add_right_comm ..
  rw [Machine.upcoming, Machine.upcoming, Step.later, count, delayed.world]

theorem lately (delayed : Delayed entry machine one two) (index : entry.index = machine.log.count)
    (rule : Rule) (location : Option Location) (before : Option Step) :
    Step.Lately entry before (some (one.upcoming rule location))
      (some (two.upcoming rule location)) := by
  rw [delayed.upcoming]
  apply Step.Lately.later
  obtain ⟨steps, plain, _⟩ := delayed.log
  rw [index, Machine.upcoming, plain, Log.count_addAll]
  exact Nat.le_add_right ..

theorem record (delayed : Delayed entry machine one two) (index : entry.index = machine.log.count)
    (rule : Rule) (location : Option Location) :
    Delayed entry machine (one.record rule location) (two.record rule location) where
  world := delayed.world
  stack := by
    have last := delayed.lately index rule location machine.latest
    have stack := delayed.stack
    rcases one with ⟨_, frames, _⟩
    rcases two with ⟨_, others, _⟩
    cases stack with
    | nil => exact .nil
    | cons inner outer =>
        exact .cons ⟨inner.name, inner.scope, inner.callSite, .inr last⟩ outer
  log := by
    obtain ⟨steps, plain, late⟩ := delayed.log
    refine ⟨steps ++ [one.upcoming rule location], ?_, ?_⟩
    · rw [Log.addAll_concat, ← plain]
      rfl
    · rw [List.map_append, List.map_singleton, Log.addAll_concat, ← late, ← delayed.upcoming]
      rfl
  last := delayed.lately index rule location machine.log.last

theorem pop (delayed : Delayed entry machine one two) : Delayed entry machine one.pop two.pop where
  world := delayed.world
  stack := by
    simp only [Machine.pop, ← List.drop_one]
    exact List.forall₂_drop 1 delayed.stack
  log := delayed.log
  last := delayed.last

theorem fault (delayed : Delayed entry machine one two) (cause : Cause)
    (location : Option Location) :
    Fault.Delayed entry machine (one.fault cause location) (two.fault cause location) where
  cause := rfl
  location := rfl
  step := ⟨_, _, delayed.last, rfl, rfl⟩
  stack := .some (List.rel_reverse delayed.stack)

end Machine.Delayed

/-- One step more in the log, whatever it is, changes nothing but the indices after it. -/
def Lockstep.delayed (machine : Machine) (rule : Rule) (location : Option Location) : Lockstep where
  machines := Machine.Delayed (machine.upcoming rule location) machine
  faults := Fault.Delayed (machine.upcoming rule location) machine
  record := fun delayed => delayed.record rfl
  perform := fun delayed opcode =>
    ⟨congrArg (World.perform · opcode) delayed.world, delayed.stack, delayed.log, delayed.last⟩
  push := fun delayed _ _ _ =>
    ⟨delayed.world, .cons (Frame.delayed_self ..) delayed.stack, delayed.log, delayed.last⟩
  pop := Machine.Delayed.pop
  fault := Machine.Delayed.fault

/-- A loop whose count comes to `n` does what its body does when written out `n` times, or not
at all for an `n` below one: it leaves the same world and the same names bound, and ends in the
same way, with the same fault if any. It has logged itself and then the steps of the body, each
at an index one higher. -/
theorem loop_unrolls (functions : Table FunDef) (limit : Nat) (scope : Scope) (machine : Machine)
    (count : Expr) (body : List Instr) (location : Option Location) (n : Int)
    (evaluated : scope.eval count = .ok n) :
    let looped :=
      (Instr.loop count body location).exec functions (enter functions limit) scope machine
    let unrolled := execBlock functions (enter functions limit) scope
      (List.replicate n.toNat body).flatten machine
    let entry : Step := ⟨machine.log.count, .loop, location, machine.world.robot⟩
    unrolled.machine.world = looped.machine.world ∧
    List.Forall₂ (Frame.Delayed entry machine.latest) unrolled.machine.stack
      looped.machine.stack ∧
    Status.Alike (Fault.Delayed entry machine) unrolled.status looped.status ∧
    ∃ steps, unrolled.machine.log = machine.log.addAll steps ∧
      looped.machine.log = (machine.log.add entry).addAll (steps.map Step.later) := by
  intro looped unrolled entry
  -- The loop logs itself, and then it is the repetition itself that runs.
  have written : looped = execBlock functions (enter functions limit) scope
      (List.replicate n.toNat body).flatten (machine.record .loop location) := by
    simp only [looped, Instr.exec, evaluated]
    exact iterate_execBlock ..
  obtain ⟨left, ended⟩ : (Lockstep.delayed machine .loop location).Outcomes unrolled looped := by
    rw [written]
    exact Lockstep.execBlock (Lockstep.enter functions limit) _ (Machine.Delayed.of_record ..)
  exact ⟨left.world, left.stack, ended, left.log⟩

/-- Two columns with a lamp in the first, and a frame in which `n` is two. -/
def bench : Machine where
  world := ⟨⟨2, 1, [[.lampOff, .empty]]⟩, ⟨1, 0, .east⟩⟩
  stack := [⟨"G", Scope.root.enter ["n"] [2], none, none⟩, .top]
  log := .start true

/-- A step, a call and a loop inside the loop. -/
def drill : List Instr :=
  [.act .forward "FORWARD" none, .call "F" [.identifier "n"] none,
    .loop (.literal 2) [.act .light "LIGHT" none] none]

/-- A function that turns as often as it is told. -/
def turning : Table FunDef :=
  ⟨[("F", ⟨"F", ["k"], [.loop (.identifier "k") [.act .left "LEFT" none] none], none⟩)]⟩

theorem loop_unrolls_of_drill : bench.scope.eval (.identifier "n") = .ok 2 ∧
    let looped :=
      (Instr.loop (.identifier "n") drill none).exec turning (enter turning 5) bench.scope bench
    let unrolled := execBlock turning (enter turning 5) bench.scope
      (List.replicate (2 : Int).toNat drill).flatten bench
    let entry : Step := ⟨0, .loop, none, ⟨1, 0, .east⟩⟩
    unrolled.machine.log.count = 16 ∧ looped.machine.log.count = 17 ∧
    unrolled.machine.world = looped.machine.world ∧
    List.Forall₂ (Frame.Delayed entry bench.latest) unrolled.machine.stack
      looped.machine.stack ∧
    Status.Alike (Fault.Delayed entry bench) unrolled.status looped.status ∧
    ∃ steps, unrolled.machine.log = bench.log.addAll steps ∧
      looped.machine.log = (bench.log.add entry).addAll (steps.map Step.later) := by
  have two : bench.scope.eval (.identifier "n") = .ok 2 := by decide
  exact ⟨two, by decide, by decide, loop_unrolls turning 5 bench.scope bench _ drill none 2 two⟩

end Lamplighter
