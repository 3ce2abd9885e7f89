import Mathlib.Data.List.Forall2
import Lamplighter.Proofs.Run.Lockstep

/-! Runs of one program on two worlds.

What a run evaluates, calls and logs hangs on its scopes alone; of the world only poses
show, and no instruction reads them back. Main statement: `run_ignores_world`. -/

namespace Lamplighter

/-- Two steps of which only the poses may differ, and these as stated. -/
structure Step.Alike (poses : Pose → Pose → Prop) (one two : Step) : Prop where
  index : one.index = two.index
  rule : one.rule = two.rule
  location : one.location = two.location
  pose : poses one.pose two.pose

/-- The same call, with the same names bound, come to the same line. -/
structure Frame.Alike (poses : Pose → Pose → Prop) (one two : Frame) : Prop where
  name : one.name = two.name
  scope : one.scope = two.scope
  callSite : one.callSite = two.callSite
  last : Option.Rel (Step.Alike poses) one.last two.last

structure Log.Alike (poses : Pose → Pose → Prop) (one two : Log) : Prop where
  verbose : one.verbose = two.verbose
  steps : List.Forall₂ (Step.Alike poses) one.steps.toList two.steps.toList
  count : one.count = two.count
  last : Option.Rel (Step.Alike poses) one.last two.last

structure Fault.Alike (poses : Pose → Pose → Prop) (one two : Fault) : Prop where
  cause : one.cause = two.cause
  location : one.location = two.location
  step : one.step = two.step
  stack : Option.Rel (List.Forall₂ (Frame.Alike poses)) one.stack two.stack

/-- A comparison of worlds that every opcode keeps, and what it says of their robots. -/
structure Pairing where
  worlds : World → World → Prop
  poses : Pose → Pose → Prop
  robot : ∀ {one two : World}, worlds one two → poses one.robot two.robot
  perform : ∀ {one two : World}, worlds one two → ∀ opcode,
    worlds (one.perform opcode) (two.perform opcode)

theorem Log.Alike.add {poses : Pose → Pose → Prop} {one two : Log} (alike : Log.Alike poses one two)
    {first second : Step} (same : Step.Alike poses first second) :
    Log.Alike poses (one.add first) (two.add second) where
  verbose := alike.verbose
  steps := by
    simp only [Log.add, alike.verbose]
    split
    · simp only [Array.toList_push]
      exact List.rel_append alike.steps (.cons same .nil)
    · exact alike.steps
  count := congrArg Nat.succ alike.count
  last := .some same

theorem Frame.alike_entered (poses : Pose → Pose → Prop) (name : String) (scope : Scope)
    (callSite : Option Location) :
    Frame.Alike poses ⟨name, scope, callSite, none⟩ ⟨name, scope, callSite, none⟩ :=
  ⟨rfl, rfl, rfl, .none⟩

theorem Step.map_index_eq {poses : Pose → Pose → Prop} {one two : Option Step}
    (alike : Option.Rel (Step.Alike poses) one two) : one.map Step.index = two.map Step.index := by
  cases alike with
  | none => rfl
  | some same => exact congrArg some same.index

namespace Pairing

variable (pairing : Pairing)

structure Machines (one two : Machine) : Prop where
  world : pairing.worlds one.world two.world
  stack : List.Forall₂ (Frame.Alike pairing.poses) one.stack two.stack
  log : Log.Alike pairing.poses one.log two.log

variable {pairing} {one two : Machine}

theorem Machines.record (alike : pairing.Machines one two) (rule : Rule)
    (location : Option Location) :
    pairing.Machines (one.record rule location) (two.record rule location) := by
  rcases one with ⟨world, stack, log⟩
  rcases two with ⟨other, frames, notes⟩
  obtain ⟨worlds, calls, logs⟩ := alike
  have step : Step.Alike pairing.poses ⟨log.count, rule, location, world.robot⟩
      ⟨notes.count, rule, location, other.robot⟩ :=
    ⟨logs.count, rfl, rfl, pairing.robot worlds⟩
  refine ⟨worlds, ?_, logs.add step⟩
  cases calls with
  | nil => exact .nil
  | cons inner outer => exact .cons ⟨inner.name, inner.scope, inner.callSite, .some step⟩ outer

theorem Machines.fault (alike : pairing.Machines one two) (cause : Cause)
    (location : Option Location) :
    Fault.Alike pairing.poses (one.fault cause location) (two.fault cause location) where
  cause := rfl
  location := rfl
  step := Step.map_index_eq alike.log.last
  stack := .some (List.rel_reverse alike.stack)

theorem Machines.start (verbose : Bool) {one two : World} (alike : pairing.worlds one two) :
    pairing.Machines ⟨one, [.top], .start verbose⟩ ⟨two, [.top], .start verbose⟩ where
  world := alike
  stack := .cons (Frame.alike_entered ..) .nil
  log := ⟨rfl, .nil, rfl, .none⟩

theorem Machines.pop (alike : pairing.Machines one two) : pairing.Machines one.pop two.pop where
  world := alike.world
  stack := by
    simp only [Machine.pop, ← List.drop_one]
    exact List.forall₂_drop 1 alike.stack
  log := alike.log

/-- To the runner paired worlds are as good as one. -/
def lockstep (pairing : Pairing) : Lockstep where
  machines := pairing.Machines
  faults := Fault.Alike pairing.poses
  record := Machines.record
  perform := fun alike opcode => ⟨pairing.perform alike.world opcode, alike.stack, alike.log⟩
  push := fun alike name scope callSite =>
    ⟨alike.world, .cons (Frame.alike_entered _ name scope callSite) alike.stack, alike.log⟩
  pop := Machines.pop
  fault := Machines.fault

/-- Runs on paired worlds leave paired worlds, and differ in nothing but the poses
that they logged. -/
theorem run (pairing : Pairing) (program : Program) (limit : Nat) (verbose : Bool)
    {one two : World} (alike : pairing.worlds one two) :
    pairing.worlds (program.run limit verbose one).machine.world
        (program.run limit verbose two).machine.world ∧
      Log.Alike pairing.poses (program.run limit verbose one).machine.log
        (program.run limit verbose two).machine.log ∧
      Status.Alike (Fault.Alike pairing.poses) (program.run limit verbose one).status
        (program.run limit verbose two).status := by
  obtain ⟨machines, statuses⟩ := pairing.lockstep.run program limit (Machines.start verbose alike)
  exact ⟨machines.world, machines.log, statuses⟩

/-- Any two worlds. -/
def any : Pairing where
  worlds := fun _ _ => True
  poses := fun _ _ => True
  robot := fun _ => trivial
  perform := fun _ _ => trivial

end Pairing

/-- The run comes to an end, with a fault or without, if only enough calls may be
nested. -/
def Program.Finishes (program : Program) (verbose : Bool) (world : World) : Prop :=
  ∃ limit, (program.run limit verbose world).status ≠ .tooDeep

theorem Status.Alike.tooDeep_iff {faults : Fault → Fault → Prop} {one two : Status}
    (alike : Alike faults one two) : one = .tooDeep ↔ two = .tooDeep := by
  cases alike <;> simp

/-- Runs of one program on any two worlds log the same steps, one by one, and end in
the same way with the same fault, up to the poses of the robot; and either both runs
come to an end or neither does. -/
theorem run_ignores_world (program : Program) (verbose : Bool) (one two : World) :
    (∀ limit, Log.Alike (fun _ _ => True) (program.run limit verbose one).machine.log
        (program.run limit verbose two).machine.log ∧
      Status.Alike (Fault.Alike fun _ _ => True) (program.run limit verbose one).status
        (program.run limit verbose two).status) ∧
    (program.Finishes verbose one ↔ program.Finishes verbose two) := by
  have paired : Pairing.any.worlds one two := trivial
  have alike (limit : Nat) := (Pairing.any.run program limit verbose paired).2
  refine ⟨alike, exists_congr fun limit => ?_⟩
  exact not_congr (alike limit).2.tooDeep_iff

end Lamplighter
