import Lamplighter.Proofs.Run.Agreement
import Lamplighter.Proofs.World.Access

/-! The world in the course of a run.

Only acts change it, so whatever every opcode keeps holds from the start of a run to its
end. Main statements: `Program.Visits.keeps` and `Program.run_keeps`. -/

namespace Lamplighter

namespace World

/-- A robot on a floor of this size. -/
structure Spans (world : World) (width height : Nat) : Prop where
  valid : world.Valid
  width : world.grid.width = width
  height : world.grid.height = height

variable {world : World} {width height : Nat}

theorem Valid.spans (valid : world.Valid) : world.Spans world.grid.width world.grid.height :=
  ⟨valid, rfl, rfl⟩

theorem Spans.perform (spans : world.Spans width height) (opcode : Opcode) :
    (world.perform opcode).Spans width height where
  valid := spans.valid.perform opcode
  width := (world.width_perform opcode).trans spans.width
  height := (world.height_perform opcode).trans spans.height

/-- A floor of one size stands in for another under the same robot. -/
theorem Spans.withGrid (spans : world.Spans width height) {grid : Grid} (floor : grid.WellFormed)
    (across : grid.width = width) (down : grid.height = height) :
    World.Spans { world with grid := grid } width height := by
  obtain ⟨⟨_, inside⟩, rfl, rfl⟩ := spans
  refine ⟨⟨floor, ?_⟩, across, down⟩
  simpa only [Inside, across, down] using inside

end World

/-- A move leaves the world as it is, or does the act that is up. -/
theorem Moment.Next.world_eq {functions : Table FunDef} {before after : Moment}
    (move : Moment.Next functions before after) :
    after.machine.world = before.machine.world ∨
    ∃ opcode text location agenda, before.agenda = .effect (.act opcode text location) :: agenda ∧
      after.machine.world = before.machine.world.perform opcode := by
  cases move with
  | act => exact .inr ⟨_, _, _, _, rfl, rfl⟩
  | log | loop | again | through | skip | enter | leave => exact .inl rfl

/-- The robot changes its place only where a step is up, and enters no cell that is not
passable then. -/
theorem Moment.Next.entered {functions : Table FunDef} {before after : Moment}
    (move : Moment.Next functions before after)
    (moved : (after.machine.world.robot.x, after.machine.world.robot.y) ≠
      (before.machine.world.robot.x, before.machine.world.robot.y)) :
    (∃ text location agenda, before.agenda = .effect (.act .forward text location) :: agenda) ∧
    before.machine.world.grid.cell after.machine.world.robot.x after.machine.world.robot.y ≠
      .floorLit := by
  rcases move.world_eq with same | ⟨opcode, text, location, agenda, up, done⟩
  · rw [same] at moved
    exact absurd rfl moved
  · rw [done] at moved ⊢
    obtain ⟨rfl, free⟩ := World.entered_passable moved
    exact ⟨⟨text, location, agenda, up⟩, of_decide_eq_true free⟩

/-- What every opcode keeps is kept along every stretch of a run. -/
theorem Moment.Reaches.keeps {functions : Table FunDef} {first last : Moment}
    (path : Moment.Reaches functions first last) (holds : World → Prop)
    (kept : ∀ world opcode, holds world → holds (World.perform world opcode))
    (held : holds first.machine.world) : holds last.machine.world := by
  induction path with
  | refl => exact held
  | tail _ move ih =>
      rcases move.world_eq with same | ⟨opcode, _, _, _, _, done⟩
      · rwa [same]
      · rw [done]
        exact kept _ opcode ih

theorem Program.Visits.keeps {program : Program} {verbose : Bool} {world : World}
    {moment : Moment} (visited : program.Visits verbose world moment) (holds : World → Prop)
    (kept : ∀ world opcode, holds world → holds (World.perform world opcode)) (held : holds world) :
    holds moment.machine.world :=
  Moment.Reaches.keeps visited holds kept held

theorem Program.run_keeps (program : Program) (limit : Nat) (verbose : Bool) {world : World}
    (holds : World → Prop) (kept : ∀ world opcode, holds world → holds (World.perform world opcode))
    (held : holds world) : holds (program.run limit verbose world).machine.world := by
  obtain ⟨last, visited, _, worlds, _, _⟩ := program.run_visits limit verbose world
  rw [← worlds]
  exact visited.keeps holds kept held

section Spans

variable {program : Program} {verbose : Bool} {world : World} {width height : Nat}

theorem Program.Visits.spans {moment : Moment} (visited : program.Visits verbose world moment)
    (spans : world.Spans width height) : moment.machine.world.Spans width height :=
  visited.keeps (fun world => world.Spans width height) (fun _ opcode held => held.perform opcode)
    spans

theorem Program.run_spans (program : Program) (limit : Nat) (verbose : Bool)
    (spans : world.Spans width height) :
    (program.run limit verbose world).machine.world.Spans width height :=
  program.run_keeps limit verbose (fun world => world.Spans width height)
    (fun _ opcode held => held.perform opcode) spans

end Spans

end Lamplighter
