import Lamplighter.Proofs.Run.Lockstep

/-! Quiet runs and verbose ones.

A verbose log keeps the steps that a quiet one only counts, and no instruction reads
them. Main statement: `Program.run_verbosity`. -/

namespace Lamplighter

/-- Logs that tell the same, but for how many of the steps they keep. -/
structure Log.Tallies (one two : Log) : Prop where
  count : one.count = two.count
  last : one.last = two.last

theorem Log.Tallies.add {one two : Log} (tallies : one.Tallies two) (step : Step) :
    (one.add step).Tallies (two.add step) :=
  ⟨congrArg Nat.succ tallies.count, rfl⟩

namespace Machine

/-- Machines that differ in nothing but the steps that their logs keep. -/
structure Tallies (one two : Machine) : Prop where
  world : one.world = two.world
  stack : one.stack = two.stack
  log : one.log.Tallies two.log

variable {one two : Machine}

theorem Tallies.record (tallies : one.Tallies two) (rule : Rule) (location : Option Location) :
    (one.record rule location).Tallies (two.record rule location) := by
  obtain ⟨world, stack, log⟩ := tallies
  simp only [Machine.record, world, stack, log.count]
  exact ⟨rfl, rfl, log.add _⟩

theorem Tallies.fault_eq (tallies : one.Tallies two) (cause : Cause) (location : Option Location) :
    one.fault cause location = two.fault cause location := by
  rw [fault, fault, tallies.stack, tallies.log.last]

end Machine

/-- What a log keeps is no concern of the runner. -/
def Lockstep.verbosity : Lockstep where
  machines := Machine.Tallies
  faults := Eq
  record := Machine.Tallies.record
  perform := fun tallies opcode =>
    ⟨congrArg (World.perform · opcode) tallies.world, tallies.stack, tallies.log⟩
  push := fun tallies _ _ _ => ⟨tallies.world, congrArg (List.cons _) tallies.stack, tallies.log⟩
  pop := fun tallies => ⟨tallies.world, congrArg List.tail tallies.stack, tallies.log⟩
  fault := Machine.Tallies.fault_eq

/-- A quiet run and a verbose one end in the same way, with the same fault if any. -/
theorem Program.run_verbosity (program : Program) (limit : Nat) (quiet loud : Bool) (world : World) :
    (program.run limit quiet world).machine.Tallies (program.run limit loud world).machine ∧
      Status.Alike Eq (program.run limit quiet world).status (program.run limit loud world).status := by
  have start : Machine.Tallies ⟨world, [.top], .start quiet⟩ ⟨world, [.top], .start loud⟩ :=
    ⟨rfl, rfl, rfl, rfl⟩
  obtain ⟨machine, status⟩ := Lockstep.verbosity.run program limit start
  exact ⟨machine, status⟩

end Lamplighter
