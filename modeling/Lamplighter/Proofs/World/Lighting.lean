import Mathlib.Algebra.BigOperators.Group.Finset.Piecewise
import Mathlib.Algebra.BigOperators.Group.Finset.Sigma
import Mathlib.Data.Finset.Prod
import Lamplighter.Proofs.World.Floor

/-! What lighting makes of a floor.

A cell that has been lit is not changed by lighting it again, so of any number of lights
only the set of their places counts. Main statements: `LitAt.count_lampOff_add_card` and
`brighter_of_litAt`. -/

namespace Lamplighter

namespace Grid

/-- The places of the floor. -/
def places (grid : Grid) : Finset (Nat × Nat) :=
  Finset.range grid.width ×ˢ Finset.range grid.height

/-- The places where the cell is in one of these states. -/
def whereCell (grid : Grid) (state : Cell → Prop) [DecidablePred state] : Finset (Nat × Nat) :=
  grid.places.filter fun place => state (grid.cell place.1 place.2)

theorem eq_tabulate {grid : Grid} (floor : grid.WellFormed) :
    grid = tabulate grid.width grid.height grid.cell := by
  have other : (tabulate grid.width grid.height grid.cell).WellFormed :=
    wellFormed_tabulate floor.width_pos floor.height_pos grid.cell
  apply ext_cell floor other rfl rfl
  intro x column y row
  exact (cell_tabulate grid.cell column row).symm

theorem count_map_range (cells : Nat → Cell) (cell : Cell) (size : Nat) :
    ((List.range size).map cells).count cell =
      ∑ x ∈ Finset.range size, if cells x = cell then 1 else 0 := by
  induction size with
  | zero => rfl
  | succ size ih =>
      rw [List.range_succ, List.map_append, List.count_append, ih, Finset.sum_range_succ]
      simp [List.count_singleton]

theorem count_tabulate (width height : Nat) (cells : Nat → Nat → Cell) (cell : Cell) :
    (tabulate width height cells).count cell =
      ∑ y ∈ Finset.range height, ∑ x ∈ Finset.range width, if cells x y = cell then 1 else 0 := by
  induction height with
  | zero => rfl
  | succ height ih =>
      simp only [count, tabulate] at ih ⊢
      rw [List.range_succ, List.map_append, List.flatten_append, List.count_append, ih,
        Finset.sum_range_succ, ← count_map_range]
      simp

/-- Cells are counted by their places. -/
theorem count_eq_card {grid : Grid} (floor : grid.WellFormed) (cell : Cell) :
    grid.count cell = (grid.whereCell (· = cell)).card := by
  calc grid.count cell
    _ = (tabulate grid.width grid.height grid.cell).count cell := by rw [← eq_tabulate floor]
    _ = ∑ y ∈ Finset.range grid.height, ∑ x ∈ Finset.range grid.width,
          if grid.cell x y = cell then 1 else 0 := count_tabulate ..
    _ = ∑ place ∈ grid.places, if grid.cell place.1 place.2 = cell then 1 else 0 :=
        by rw [places, Finset.sum_product_right]
    _ = (grid.whereCell (· = cell)).card := (Finset.card_filter _ _).symm

theorem count_add_count {grid : Grid} (floor : grid.WellFormed) {one two : Cell} (apart : one ≠ two) :
    grid.count one + grid.count two = (grid.whereCell fun cell => cell = one ∨ cell = two).card := by
  rw [count_eq_card floor, count_eq_card floor, whereCell, whereCell, whereCell, Finset.filter_or,
    Finset.card_union_of_disjoint]
  apply Finset.disjoint_filter.mpr
  intro place _ first second
  exact apart (first.symm.trans second)

/-- Outside the floor there is nothing but empty floor. -/
theorem mem_places_of_cell_ne {grid : Grid} (floor : grid.WellFormed) {x y : Nat}
    (found : grid.cell x y ≠ .empty) : (x, y) ∈ grid.places := by
  simp only [places, Finset.mem_product, Finset.mem_range]
  have row : y < grid.height := by
    by_contra outside
    have missing : grid.cells[y]? = none := by
      rw [List.getElem?_eq_none_iff, floor.length_cells]
      omega
    apply found
    simp [cell, List.getD_eq_getElem?_getD, missing]
  refine ⟨?_, row⟩
  by_contra outside
  obtain ⟨cells, here, length⟩ := floor.row row
  have missing : cells[x]? = none := by
    rw [List.getElem?_eq_none_iff]
    omega
  apply found
  rw [cell_eq here, List.getD_eq_getElem?_getD, missing, Option.getD_none]

/-- The second floor is the first one with these places lit, and no others. -/
structure LitAt (before : Grid) (places : Finset (Nat × Nat)) (after : Grid) : Prop where
  width : after.width = before.width
  height : after.height = before.height
  cell : ∀ x y, after.cell x y =
    if (x, y) ∈ places then (before.cell x y).lit else before.cell x y

namespace LitAt

variable {before between after : Grid} {first second : Finset (Nat × Nat)}

theorem refl (grid : Grid) : grid.LitAt ∅ grid := ⟨rfl, rfl, fun _ _ => rfl⟩

theorem trans (one : before.LitAt first between) (two : between.LitAt second after) :
    before.LitAt (first ∪ second) after where
  width := two.width.trans one.width
  height := two.height.trans one.height
  cell := by
    intro x y
    rw [two.cell, one.cell]
    by_cases early : (x, y) ∈ first <;> by_cases late : (x, y) ∈ second <;>
      simp [early, late, Cell.lit_lit]

theorem places_eq (lit : before.LitAt first after) : after.places = before.places := by
  rw [places, places, lit.width, lit.height]

/-- States that lighting neither leads to nor away from stay where they are. -/
theorem card_whereCell (lit : before.LitAt first after) {state : Cell → Prop}
    [DecidablePred state] (closed : ∀ cell : Cell, state cell.lit ↔ state cell) :
    (after.whereCell state).card = (before.whereCell state).card := by
  have same : after.whereCell state = before.whereCell state := by
    rw [whereCell, whereCell, lit.places_eq]
    apply Finset.filter_congr
    intro place _
    rw [lit.cell]
    split
    · exact closed _
    · rfl
  rw [same]

/-- The lamps that are still off are the old ones without those that were lit. -/
theorem whereCell_lampOff (lit : before.LitAt first after) :
    after.whereCell (· = .lampOff) = before.whereCell (· = .lampOff) \ first := by
  ext ⟨x, y⟩
  simp only [whereCell, Finset.mem_filter, Finset.mem_sdiff, lit.places_eq, lit.cell]
  have never (cell : Cell) : cell.lit ≠ .lampOff := by cases cell <;> decide
  by_cases here : (x, y) ∈ first <;> simp [here, never]

theorem count_lampOff_add_card (lit : before.LitAt first after) (floor : before.WellFormed)
    (later : after.WellFormed) :
    after.count .lampOff + (first.filter fun place => before.cell place.1 place.2 = .lampOff).card =
      before.count .lampOff := by
  have met : before.whereCell (· = .lampOff) ∩ first =
      first.filter fun place => before.cell place.1 place.2 = .lampOff := by
    ext ⟨x, y⟩
    simp only [whereCell, Finset.mem_inter, Finset.mem_filter]
    constructor
    · rintro ⟨⟨_, off⟩, here⟩
      exact ⟨here, off⟩
    · rintro ⟨here, off⟩
      have shown : before.cell x y ≠ .empty := by
        rw [off]
        decide
      exact ⟨⟨mem_places_of_cell_ne floor shown, off⟩, here⟩
  rw [count_eq_card later, count_eq_card floor, lit.whereCell_lampOff, ← met]
  exact Finset.card_sdiff_add_card_inter _ _

end LitAt
end Grid

namespace World

/-- What can have become of a floor on which lights were made and nothing else. -/
structure Brighter (before after : World) : Prop where
  lamps : after.grid.count .lampOff + after.grid.count .lampOn =
    before.grid.count .lampOff + before.grid.count .lampOn
  floor : after.grid.count .empty + after.grid.count .floorLit =
    before.grid.count .empty + before.grid.count .floorLit
  remaining : after.lampsRemaining ≤ before.lampsRemaining
  solved : before.solved = true → after.solved = true

/-- The places that an opcode lights. -/
def lights (world : World) : Opcode → Finset (Nat × Nat)
  | .light => {(world.robot.x, world.robot.y)}
  | .forward | .left | .right | .noop => ∅

variable {before after : World}

theorem solved_iff (world : World) :
    world.solved = true ↔ world.lampsRemaining = 0 ∧ 0 < world.grid.count .lampOn := by
  simp [solved]

theorem brighter_of_litAt {places : Finset (Nat × Nat)}
    (lit : before.grid.LitAt places after.grid) (floor : before.grid.WellFormed)
    (later : after.grid.WellFormed) : before.Brighter after := by
  have kept (one two : Cell) (apart : one ≠ two)
      (closed : ∀ cell : Cell, cell.lit = one ∨ cell.lit = two ↔ cell = one ∨ cell = two) :
      after.grid.count one + after.grid.count two = before.grid.count one + before.grid.count two := by
    rw [Grid.count_add_count later apart, Grid.count_add_count floor apart,
      lit.card_whereCell closed]
  have lamps := kept .lampOff .lampOn (by decide) fun cell => by cases cell <;> decide
  have plain := kept .empty .floorLit (by decide) fun cell => by cases cell <;> decide
  have fewer := lit.count_lampOff_add_card floor later
  refine ⟨lamps, plain, ?_, ?_⟩
  · simp only [lampsRemaining]
    omega
  · simp only [solved_iff, lampsRemaining]
    omega

theorem litAt_perform {world : World} (valid : world.Valid) (opcode : Opcode) :
    world.grid.LitAt (world.lights opcode) (world.perform opcode).grid := by
  cases opcode with
  | left | right | noop => exact .refl _
  | forward =>
      have same : (world.perform .forward).grid = world.grid := by
        rw [perform, forward_eq]
        split <;> rfl
      rw [same]
      exact .refl _
  | light =>
      refine ⟨rfl, rfl, ?_⟩
      intro x y
      have set := Grid.cell_set valid.floor valid.inside.1 valid.inside.2
        (world.grid.cell world.robot.x world.robot.y).lit x y
      simp only [perform, light, set, lights, Finset.mem_singleton, Prod.mk.injEq]
      split
      case isTrue here => rw [here.1, here.2]
      case isFalse => rfl

end World
end Lamplighter
