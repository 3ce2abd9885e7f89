import Lamplighter.Proofs.Run.Footing
import Lamplighter.Proofs.Run.Replay
import Lamplighter.Proofs.Run.Verbosity
import Lamplighter.Proofs.World.Lighting

/-! The floor that a run leaves.

It is the floor at the start, lit at the places where the log has a light, whatever the
order and the number of these. Main statement: `Program.run_litAt`. -/

namespace Lamplighter

/-- The place that a step lights. -/
def Step.lit? (step : Step) : Option (Nat × Nat) :=
  if step.rule = .act .light then some (step.pose.x, step.pose.y) else none

/-- The places that were lit, each of them once. -/
def lightPlaces (steps : List Step) : Finset (Nat × Nat) := (steps.filterMap Step.lit?).toFinset

/-- These are the places of the robot at the lights in the log. -/
theorem mem_lightPlaces_iff {steps : List Step} {x y : Nat} :
    (x, y) ∈ lightPlaces steps ↔
      ∃ step ∈ steps, step.rule = .act .light ∧ step.pose.x = x ∧ step.pose.y = y := by
  simp only [lightPlaces, List.mem_toFinset, List.mem_filterMap, Step.lit?, Option.ite_none_right_eq_some,
    Option.some.injEq, Prod.mk.injEq]

theorem lightPlaces_append (first second : List Step) :
    lightPlaces (first ++ second) = lightPlaces first ∪ lightPlaces second := by
  rw [lightPlaces, lightPlaces, lightPlaces, List.filterMap_append, List.toFinset_append]

/-- A log that is faithful up to its last step was faithful before, and the last step
holds the robot that was left then. -/
theorem Faithful.of_snoc {world : World} {steps : List Step} {step : Step}
    (faithful : Faithful world (steps ++ [step])) :
    Faithful world steps ∧ step.pose = (replay world steps).robot := by
  constructor
  · intro k inside
    have longer : k < (steps ++ [step]).length := by
      rw [List.length_append]
      omega
    have told := faithful k longer
    rwa [List.getElem_append_left inside, List.take_append_of_le_length (Nat.le_of_lt inside)] at told
  · have told := (faithful steps.length (by simp)).2
    rwa [List.getElem_concat_length rfl, List.take_left' rfl] at told

theorem Rule.replay_litAt {world : World} (valid : world.Valid) {step : Step}
    (pose : step.pose = world.robot) :
    (step.rule.replay world).Valid ∧
      world.grid.LitAt (lightPlaces [step]) (step.rule.replay world).grid := by
  obtain ⟨index, rule, location, _⟩ := step
  cases pose
  cases rule with
  | loop | call => exact ⟨valid, .refl _⟩
  | act opcode =>
      have lights : lightPlaces [⟨index, .act opcode, location, world.robot⟩] =
          world.lights opcode := by
        cases opcode <;> rfl
      rw [lights]
      exact ⟨valid.perform opcode, World.litAt_perform valid opcode⟩

/-- On the steps from the last one back, as a step lights the floor that those before it
have left. -/
theorem Faithful.replay_litAt {world : World} {steps : List Step} (valid : world.Valid)
    (faithful : Faithful world steps) :
    (replay world steps).Valid ∧
      world.grid.LitAt (lightPlaces steps) (replay world steps).grid := by
  induction steps using List.reverseRecOn with
  | nil => exact ⟨valid, .refl _⟩
  | append_singleton steps step ih =>
      obtain ⟨before, pose⟩ := faithful.of_snoc
      obtain ⟨kept, lit⟩ := ih before
      obtain ⟨last, lights⟩ := Rule.replay_litAt kept pose
      rw [replay_append, lightPlaces_append]
      exact ⟨last, lit.trans lights⟩

/-- The places that a run lights, as its verbose log has them. -/
def Program.lightPlaces (program : Program) (limit : Nat) (world : World) : Finset (Nat × Nat) :=
  Lamplighter.lightPlaces (program.run limit true world).machine.log.steps.toList

theorem Program.run_litAt (program : Program) (limit : Nat) (verbose : Bool) {world : World}
    (valid : world.Valid) :
    world.grid.LitAt (program.lightPlaces limit world)
      (program.run limit verbose world).machine.world.grid := by
  obtain ⟨last, visited, ends, worlds, logs, _⟩ := program.run_visits limit true world
  have recorded := visited.recorded
  have same := (program.run_verbosity limit verbose true world).1.world
  have replayed := recorded.replayed
  rw [ends.foreseen, worlds, logs] at replayed
  have faithful := recorded.faithful
  rw [logs] at faithful
  rw [same, ← replayed]
  exact (faithful.replay_litAt valid).2

/-- A world in order whose floor is that of another one, lit in some places. -/
structure World.LitFrom (world start : World) : Prop where
  valid : world.Valid
  lit : ∃ places, start.grid.LitAt places world.grid

namespace World.LitFrom

variable {world start : World}

theorem refl (valid : world.Valid) : world.LitFrom world := ⟨valid, ∅, .refl _⟩

theorem perform (later : world.LitFrom start) (opcode : Opcode) :
    (world.perform opcode).LitFrom start := by
  obtain ⟨valid, places, lit⟩ := later
  exact ⟨valid.perform opcode, _, lit.trans (litAt_perform valid opcode)⟩

theorem brighter (later : world.LitFrom start) (floor : start.grid.WellFormed) :
    start.Brighter world := by
  obtain ⟨valid, places, lit⟩ := later
  exact brighter_of_litAt lit floor valid.floor

end World.LitFrom

/-- Along any stretch of a run the floor only gets brighter. -/
theorem Moment.Reaches.brighter {functions : Table FunDef} {first last : Moment}
    (path : Moment.Reaches functions first last) (valid : first.machine.world.Valid) :
    first.machine.world.Brighter last.machine.world := by
  have reached : last.machine.world.LitFrom first.machine.world :=
    path.keeps (fun world => world.LitFrom first.machine.world)
      (fun _ opcode held => held.perform opcode) (.refl valid)
  exact reached.brighter valid.floor

end Lamplighter
