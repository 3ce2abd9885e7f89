import Lamplighter.Proofs.Program.RoundTrip
import Lamplighter.Proofs.Run.Unrolling
import Lamplighter.Proofs.World.Lane

/-! A loop around one step ahead.

It takes the robot as many cells along its lane as it counts, and no further than to the first
lit one. Main statement: `march_closed_form`. -/

namespace Lamplighter

/-- One step ahead, so many times over. -/
def march (count : Int) (loop step : Option Location) : List Instr :=
  [.loop (.literal count) [.act .forward "FORWARD" step] loop]

/-- Repeating one act does it that often, with one step each time, and cannot fail. -/
theorem iterate_act (functions : Table FunDef) (enter : Enter) (scope : Scope) (opcode : Opcode)
    (text : String) (location : Option Location) (count : Nat) (machine : Machine) :
    let left := iterate (execBlock functions enter scope [.act opcode text location]) count machine
    left.status = .finished ∧
      left.machine.world = (World.perform · opcode)^[count] machine.world ∧
      left.machine.log.count = machine.log.count + count := by
  induction count generalizing machine with
  | zero => exact ⟨rfl, rfl, rfl⟩
  | succ count ih =>
      obtain ⟨finished, world, steps⟩ :=
        ih ((machine.record (.act opcode) location).perform opcode)
      exact ⟨finished, world, steps.trans (Nat.succ_add_eq_add_succ machine.log.count count)⟩

/-- A march is a step for the loop and one for each time that it comes around. -/
theorem execBlock_march (functions : Table FunDef) (enter : Enter) (scope : Scope) (count : Int)
    (loop step : Option Location) (machine : Machine) :
    let left := execBlock functions enter scope (march count loop step) machine
    left.status = .finished ∧
      left.machine.world = World.forward^[count.toNat] machine.world ∧
      left.machine.log.count = machine.log.count + 1 + count.toNat := by
  rw [march, execBlock_single]
  exact iterate_act functions enter scope .forward "FORWARD" step count.toNat
    (machine.record .loop loop)

theorem Program.run_march {program : Program} {count : Int} {loop step : Option Location}
    (main : program.statements = march count loop step) (limit : Nat) (verbose : Bool)
    (world : World) :
    (program.run limit verbose world).status = .finished ∧
      (program.run limit verbose world).machine.world = World.forward^[count.toNat] world := by
  obtain ⟨finished, moved, -⟩ := execBlock_march program.functions
    (enter program.functions limit) .root count loop step ⟨world, [.top], .start verbose⟩
  rw [Program.run, main]
  exact ⟨finished, moved⟩

/-- A block that is the march but for its places. -/
theorem eq_march_of_unplaced {instrs : List Instr} {count : Int}
    (same : unplacedBlock instrs = march count none none) :
    ∃ loop step, instrs = march count loop step := by
  match instrs, same with
  | [.loop (.literal _) [.act .forward _ step] loop], rfl => exact ⟨loop, step, rfl⟩

/-- The three lines of a march are read as one, if the count is not too long to be read. -/
theorem parse_march {count : Int}
    (short : (Text.digits count.natAbs).length ≤ Text.maxDigits) (file : String) :
    ∃ program loop step,
      Program.parse (.pieces ["REPEAT " ++ toString count, "FORWARD", "ENDREPEAT"]) file =
        .ok program ∧ program.statements = march count loop step := by
  have word : Opcode.Says .forward "FORWARD" := by decide
  have printable : PrintableBlock (march count none none) := ⟨⟨short, word, trivial⟩, trivial⟩
  obtain ⟨placed, same, parsed⟩ := parse_printBlock file printable
  obtain ⟨loop, step, rfl⟩ := eq_march_of_unplaced same
  exact ⟨_, loop, step, parsed, rfl⟩

/-- On any floor and from any place on it, a loop around one step ahead leaves the floor as it
is and the robot on its course. It makes as many steps as the loop counts, none for a count
below one; or as many as there are up to the first lit cell in front, if that comes earlier. -/
theorem march_closed_form (count : Int) (world : World) (valid : world.Valid) :
    (∀ file, (Text.digits count.natAbs).length ≤ Text.maxDigits →
      ∃ program loop step,
        Program.parse (.pieces ["REPEAT " ++ toString count, "FORWARD", "ENDREPEAT"]) file =
          .ok program ∧ program.statements = march count loop step) ∧
    ∀ (program : Program) loop step, program.statements = march count loop step → ∀ limit verbose,
      let left := program.run limit verbose world
      left.status = .finished ∧ left.machine.world.grid = world.grid ∧
      (∀ d, IsLeast {k | world.Barred k} d →
        left.machine.world.robot = world.robot.advanced world.grid (min count.toNat d)) ∧
      ((∀ k, ¬ world.Barred k) →
        left.machine.world.robot = world.robot.advanced world.grid count.toNat) := by
  refine ⟨fun file short => parse_march short file, ?_⟩
  intro program loop step main limit verbose left
  obtain ⟨finished, moved⟩ : left.status = .finished ∧
      left.machine.world = World.forward^[count.toNat] world :=
    program.run_march main limit verbose world
  rw [moved]
  refine ⟨finished, ?_, ?_, ?_⟩
  · exact World.grid_forward_iterate world _
  · intro d least
    rw [World.forward_iterate_of_barred valid least]
    rfl
  · intro free
    rw [World.forward_iterate_of_free valid fun k _ => free k]
    rfl

/-- A ring of three cells, with the robot on the one that is lit. -/
def ring : World := ⟨⟨3, 1, [[.floorLit, .empty, .lampOff]]⟩, ⟨0, 0, .east⟩⟩

/-- Once around, the cell where it started is in its way. -/
theorem march_closed_form_of_ring : ring.Valid ∧ IsLeast {k | ring.Barred k} 2 ∧
    ∀ (program : Program) loop step, program.statements = march 1000000 loop step →
      ∀ limit verbose,
        let left := program.run limit verbose ring
        left.status = .finished ∧ left.machine.world = { ring with robot := ⟨2, 0, .east⟩ } := by
  have valid : ring.Valid :=
    ⟨⟨by decide, by decide, by decide, by decide⟩, by decide, by decide⟩
  have early : ∀ k < 2, ¬ ring.Barred k := by decide
  have least : IsLeast {k | ring.Barred k} 2 := by
    constructor
    · change ring.Barred 2
      decide
    · intro k barred
      exact Nat.le_of_not_lt fun less => early k less barred
  refine ⟨valid, least, ?_⟩
  intro program loop step main limit verbose left
  obtain ⟨finished, floor, place, _⟩ :=
    (march_closed_form 1000000 ring valid).2 program loop step main limit verbose
  have robot : left.machine.world.robot = ⟨2, 0, .east⟩ := place 2 least
  refine ⟨finished, ?_⟩
  change left.machine.world = ⟨ring.grid, ⟨2, 0, .east⟩⟩
  rw [← floor, ← robot]

end Lamplighter
