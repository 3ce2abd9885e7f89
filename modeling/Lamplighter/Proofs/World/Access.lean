import Lamplighter.Proofs.Program.Reading
import Lamplighter.Proofs.World.Floor

/-! Where an opcode reaches for the floor.

A step looks at the cell in front and a light at the cell below, and both find one: the
place has a column and a row, counted from the first ones. Main statement:
`World.Valid.serves`. -/

namespace Lamplighter

namespace Grid

/-- Neither before the first column and row nor behind the last ones. -/
structure Holds (grid : Grid) (place : Int × Int) : Prop where
  left : 0 ≤ place.1
  right : place.1 < grid.width
  top : 0 ≤ place.2
  bottom : place.2 < grid.height

/-- Every index from zero to a side fits a signed word of 64 bits. -/
structure Addressable (grid : Grid) : Prop where
  width : grid.width ≤ 0x8000000000000000
  height : grid.height ≤ 0x8000000000000000

theorem wordIndex_of_lt {index : Int} {size : Nat} (low : 0 ≤ index) (high : index < size)
    (fits : size ≤ 0x8000000000000000) : wordIndex index = .ok index := by
  have word : -0x8000000000000000 ≤ index ∧ index < 0x8000000000000000 := by
    constructor <;> omega
  rw [wordIndex, if_pos word]

/-- An index that is not negative is not counted from the end. -/
theorem position_of_lt (axis : Nat) {index : Int} {size : Nat} (low : 0 ≤ index)
    (high : index < size) : position axis size index = .ok index.toNat := by
  rw [position, if_pos ⟨low, high⟩]

variable {grid : Grid} {place : Int × Int}

theorem Holds.place_eq (holds : grid.Holds place) (fits : grid.Addressable) :
    grid.place place.1 place.2 = .ok (place.1.toNat, place.2.toNat) := by
  rw [Grid.place, wordIndex_of_lt holds.top holds.bottom fits.height,
    wordIndex_of_lt holds.left holds.right fits.width]
  simp only [bind, Except.bind, position_of_lt 0 holds.top holds.bottom,
    position_of_lt 1 holds.left holds.right]
  rfl

theorem Holds.cellAt_eq (holds : grid.Holds place) (fits : grid.Addressable) :
    grid.cellAt place.1 place.2 = .ok (grid.cell place.1.toNat place.2.toNat) := by
  rw [cellAt, holds.place_eq fits]
  rfl

theorem Holds.setCell_eq (holds : grid.Holds place) (fits : grid.Addressable) (cell : Cell) :
    grid.setCell place.1 place.2 cell = .ok (grid.set place.1.toNat place.2.toNat cell) := by
  rw [setCell, holds.place_eq fits]
  rfl

theorem holds_wrap (floor : grid.WellFormed) (place : Int × Int) : grid.Holds (grid.wrap place) where
  left := Int.emod_nonneg _ (Int.natCast_ne_zero.mpr (Nat.ne_of_gt floor.width_pos))
  right := Int.emod_lt_of_pos _ (Int.natCast_pos.mpr floor.width_pos)
  top := Int.emod_nonneg _ (Int.natCast_ne_zero.mpr (Nat.ne_of_gt floor.height_pos))
  bottom := Int.emod_lt_of_pos _ (Int.natCast_pos.mpr floor.height_pos)

end Grid

namespace World

/-- The place of the cell that an opcode looks at. -/
def target? (world : World) : Opcode → Option (Int × Int)
  | .forward => some (world.grid.wrap world.robot.ahead)
  | .light => some (world.robot.x, world.robot.y)
  | .left | .right | .noop => none

/-- The opcode with each cell looked up by its index, which is refused where the index
names no cell. -/
def attempt (world : World) : Opcode → Except BadIndex World
  | .forward => do
    let (x, y) := world.grid.wrap world.robot.ahead
    let cell ← world.grid.cellAt x y
    return if cell.passable then world.moveTo x.toNat y.toNat else world
  | .light => do
    let cell ← world.grid.cellAt world.robot.x world.robot.y
    let grid ← world.grid.setCell world.robot.x world.robot.y cell.lit
    return { world with grid := grid }
  | opcode => return world.perform opcode

/-- The floor has what the opcode asks for: sides to divide by, and a cell at the place
that it looks at. So nothing is refused, if only indices fit their words. -/
structure Serves (world : World) (opcode : Opcode) : Prop where
  width_pos : 0 < world.grid.width
  height_pos : 0 < world.grid.height
  target : ∀ place ∈ world.target? opcode, world.grid.Holds place
  attempt : world.grid.Addressable → world.attempt opcode = .ok (world.perform opcode)

theorem Inside.holds {world : World} (inside : world.Inside) :
    world.grid.Holds (world.robot.x, world.robot.y) where
  left := Int.natCast_nonneg _
  right := Int.ofNat_lt.mpr inside.1
  top := Int.natCast_nonneg _
  bottom := Int.ofNat_lt.mpr inside.2

theorem Valid.serves {world : World} (valid : world.Valid) (opcode : Opcode) :
    world.Serves opcode := by
  have ahead : world.grid.Holds (world.grid.wrap world.robot.ahead) :=
    Grid.holds_wrap valid.floor world.robot.ahead
  have below : world.grid.Holds (world.robot.x, world.robot.y) := valid.inside.holds
  refine ⟨valid.floor.width_pos, valid.floor.height_pos, ?_, ?_⟩
  · intro place asked
    cases opcode with
    | forward =>
        cases asked
        exact ahead
    | light =>
        cases asked
        exact below
    | left | right | noop => cases asked
  · intro fits
    cases opcode with
    | forward =>
        rw [World.attempt, bind_eq_ok]
        exact ⟨_, ahead.cellAt_eq fits, rfl⟩
    | light =>
        simp only [World.attempt, bind_eq_ok]
        exact ⟨_, below.cellAt_eq fits, _, below.setCell_eq fits _, rfl⟩
    | left | right | noop => rfl

/-- The robot changes its place only by a step onto a passable cell. -/
theorem entered_passable {world : World} {opcode : Opcode}
    (moved : ((world.perform opcode).robot.x, (world.perform opcode).robot.y) ≠
      (world.robot.x, world.robot.y)) :
    opcode = .forward ∧
      (world.grid.cell (world.perform opcode).robot.x (world.perform opcode).robot.y).passable := by
  cases opcode with
  | left | right | light | noop => exact absurd rfl moved
  | forward =>
      refine ⟨rfl, ?_⟩
      simp only [World.perform, forward_eq] at moved ⊢
      split at moved
      case isTrue free =>
        rw [if_pos free]
        exact free
      case isFalse => exact absurd rfl moved

end World
end Lamplighter
