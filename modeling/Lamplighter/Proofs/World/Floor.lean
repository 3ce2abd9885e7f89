import Mathlib.Data.List.Basic
import Lamplighter.World.Basic

/-! The floor, cell by cell, and the worlds that every opcode keeps in order.

A floor is known by its size and its cells. The robot never leaves it, as each step
ends within its edges. -/

namespace Lamplighter

namespace Grid

theorem WellFormed.row {grid : Grid} (floor : grid.WellFormed) {y : Nat} (inside : y < grid.height) :
    ∃ row, grid.cells[y]? = some row ∧ row.length = grid.width := by
  rw [← floor.length_cells] at inside
  exact ⟨_, List.getElem?_eq_getElem inside, floor.length_row _ (List.getElem_mem inside)⟩

theorem cell_eq {grid : Grid} {y : Nat} {row : List Cell} (found : grid.cells[y]? = some row)
    (x : Nat) : grid.cell x y = row.getD x .empty := by
  simp only [cell, List.getD_eq_getElem?_getD, found, Option.getD_some]

theorem cell_set {grid : Grid} (floor : grid.WellFormed) {x y : Nat} (column : x < grid.width)
    (row : y < grid.height) (cell : Cell) (i j : Nat) :
    (grid.set x y cell).cell i j = if i = x ∧ j = y then cell else grid.cell i j := by
  obtain ⟨cells, found, length⟩ := floor.row row
  by_cases same : j = y
  · subst same
    have changed : (grid.set x j cell).cells[j]? = some (cells.set x cell) := by
      simp only [set, List.getElem?_modify, if_true, found]
      rfl
    rw [cell_eq changed, cell_eq found, List.getD_eq_getElem?_getD, List.getElem?_set, length,
      List.getD_eq_getElem?_getD]
    by_cases here : i = x
    · simp [here, column]
    · simp [here, Ne.symm here]
  · have kept : (grid.set x y cell).cells[j]? = grid.cells[j]? := by
      simp [set, Ne.symm same]
    simp only [Grid.cell, List.getD_eq_getElem?_getD, kept, same, and_false, if_false]

/-- Floors of one size that agree in each cell are equal. -/
theorem ext_cell {one two : Grid} (first : one.WellFormed) (second : two.WellFormed)
    (width : one.width = two.width) (height : one.height = two.height)
    (cells : ∀ x < one.width, ∀ y < one.height, one.cell x y = two.cell x y) : one = two := by
  have rows : one.cells = two.cells := by
    apply List.ext_getElem?
    intro y
    by_cases inside : y < one.height
    · obtain ⟨row, found, length⟩ := first.row inside
      obtain ⟨other, foundOther, lengthOther⟩ := second.row (height ▸ inside)
      rw [found, foundOther, Option.some.injEq]
      apply List.ext_getElem (by rw [length, lengthOther, width])
      intro x left right
      have same := cells x (length ▸ left) y inside
      rw [cell_eq found, cell_eq foundOther] at same
      simpa only [List.getD_eq_getElem?_getD, List.getElem?_eq_getElem left,
        List.getElem?_eq_getElem right, Option.getD_some] using same
    · have outside : one.cells.length ≤ y := by
        rw [first.length_cells]
        exact Nat.le_of_not_lt inside
      have outsideOther : two.cells.length ≤ y := by
        rw [second.length_cells, ← height]
        exact Nat.le_of_not_lt inside
      rw [List.getElem?_eq_none outside, List.getElem?_eq_none outsideOther]
  cases one
  cases two
  simp_all

/-- The floor of this size with the given cells. -/
def tabulate (width height : Nat) (cells : Nat → Nat → Cell) : Grid :=
  ⟨width, height, (List.range height).map fun y => (List.range width).map fun x => cells x y⟩

variable {width height : Nat}

theorem wellFormed_tabulate (across : 0 < width) (down : 0 < height) (cells : Nat → Nat → Cell) :
    (tabulate width height cells).WellFormed where
  width_pos := across
  height_pos := down
  length_cells := by simp [tabulate]
  length_row := by
    intro row member
    obtain ⟨y, _, rfl⟩ := List.mem_map.mp member
    simp [tabulate]

theorem cell_tabulate (cells : Nat → Nat → Cell) {x y : Nat} (column : x < width)
    (row : y < height) : (tabulate width height cells).cell x y = cells x y := by
  have found : (tabulate width height cells).cells[y]? =
      some ((List.range width).map fun x => cells x y) := by
    simp [tabulate, row]
  rw [cell_eq found]
  simp [column]

/-- The place that a robot looks at, around the edge where need be. -/
def front (grid : Grid) (pose : Pose) : Nat × Nat :=
  ((grid.wrap pose.ahead).1.toNat, (grid.wrap pose.ahead).2.toNat)

theorem front_inside {grid : Grid} (floor : grid.WellFormed) (pose : Pose) :
    (grid.front pose).1 < grid.width ∧ (grid.front pose).2 < grid.height := by
  have across := floor.width_pos
  have down := floor.height_pos
  have column := Int.emod_lt_of_pos pose.ahead.1 (Int.natCast_pos.mpr across)
  have row := Int.emod_lt_of_pos pose.ahead.2 (Int.natCast_pos.mpr down)
  simp only [front, wrap]
  omega

end Grid

namespace World

/-- A robot on a floor with edges. -/
structure Valid (world : World) : Prop where
  floor : world.grid.WellFormed
  inside : world.Inside

theorem forward_eq (world : World) :
    world.forward =
      if (world.grid.cell (world.grid.front world.robot).1 (world.grid.front world.robot).2).passable
      then world.moveTo (world.grid.front world.robot).1 (world.grid.front world.robot).2
      else world := rfl

theorem width_perform (world : World) (opcode : Opcode) :
    (world.perform opcode).grid.width = world.grid.width := by
  cases opcode with
  | forward =>
      rw [perform, forward_eq]
      split <;> rfl
  | left | right | light | noop => rfl

theorem height_perform (world : World) (opcode : Opcode) :
    (world.perform opcode).grid.height = world.grid.height := by
  cases opcode with
  | forward =>
      rw [perform, forward_eq]
      split <;> rfl
  | left | right | light | noop => rfl

theorem Valid.perform {world : World} (valid : world.Valid) (opcode : Opcode) :
    (world.perform opcode).Valid := by
  obtain ⟨floor, inside⟩ := valid
  cases opcode with
  | left | right | noop => exact ⟨floor, inside⟩
  | light => exact ⟨Grid.set_wellFormed floor .., inside⟩
  | forward =>
      rw [World.perform, forward_eq]
      split
      · exact ⟨floor, Grid.front_inside floor world.robot⟩
      · exact ⟨floor, inside⟩

end World
end Lamplighter
