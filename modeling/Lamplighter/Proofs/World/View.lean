import Lamplighter.Proofs.World.Floor

/-! The floor seen from elsewhere.

A view says where each place of a floor is seen, and where each direction then points,
so that a step on the floor is a step in the view. Whatever an opcode does to a world is
seen to be done in the view as well. Main statement: `View.world_perform`. -/

namespace Lamplighter

namespace Axis

/-- Where one comes to after so many steps along an axis whose ends touch. -/
def slide (size : Nat) (steps : Int) (n : Nat) : Nat := ((n + steps) % size).toNat

/-- The same place, counted from the other end. -/
def flip (size n : Nat) : Nat := size - 1 - n

variable {size n : Nat}

theorem cast_slide (inside : n < size) (steps : Int) :
    (slide size steps n : Int) = (n + steps) % size := by
  have positive : (size : Int) ≠ 0 := by omega
  exact Int.toNat_of_nonneg (Int.emod_nonneg _ positive)

theorem slide_lt (inside : n < size) (steps : Int) : slide size steps n < size := by
  have below : ((n : Int) + steps) % size < size := Int.emod_lt_of_pos _ (by omega)
  rw [← cast_slide inside] at below
  exact Int.ofNat_lt.mp below

theorem slide_slide (inside : n < size) (first second : Int) :
    slide size second (slide size first n) = slide size (first + second) n := by
  apply Int.ofNat_inj.mp
  rw [cast_slide (slide_lt inside first), cast_slide inside, cast_slide inside,
    Int.emod_add_emod, Int.add_assoc]

theorem slide_comm (inside : n < size) (first second : Int) :
    slide size second (slide size first n) = slide size first (slide size second n) := by
  rw [slide_slide inside, slide_slide inside, Int.add_comm]

theorem slide_zero (inside : n < size) : slide size 0 n = n := by
  apply Int.ofNat_inj.mp
  rw [cast_slide inside, Int.add_zero, Int.emod_eq_of_lt (by omega) (by omega)]

theorem slide_neg_slide (inside : n < size) (steps : Int) :
    slide size (-steps) (slide size steps n) = n := by
  rw [slide_slide inside, Int.add_right_neg, slide_zero inside]

theorem slide_slide_neg (inside : n < size) (steps : Int) :
    slide size steps (slide size (-steps) n) = n := by
  rw [slide_slide inside, Int.add_left_neg, slide_zero inside]

theorem flip_lt (inside : n < size) : flip size n < size := by
  rw [flip]
  omega

theorem flip_flip (inside : n < size) : flip size (flip size n) = n := by
  simp only [flip]
  omega

theorem cast_flip (inside : n < size) : (flip size n : Int) = size - 1 - n := by
  rw [flip]
  omega

/-- From the other end one goes the other way. -/
theorem flip_slide (inside : n < size) (steps : Int) :
    flip size (slide size steps n) = slide size (-steps) (flip size n) := by
  apply Int.ofNat_inj.mp
  rw [cast_flip (slide_lt inside steps), cast_slide inside, cast_slide (flip_lt inside),
    cast_flip inside]
  have split := Int.emod_add_mul_ediv ((n : Int) + steps) size
  have low : 0 ≤ ((n : Int) + steps) % size := Int.emod_nonneg _ (by omega)
  have high : ((n : Int) + steps) % size < size := Int.emod_lt_of_pos _ (by omega)
  have turned : (size - 1 - n + -steps : Int) =
      (size - 1 - (n + steps) % size) + size * -((n + steps) / size) := by
    rw [Int.mul_neg]
    omega
  have within : (size - 1 - (n + steps) % size : Int) % size = size - 1 - (n + steps) % size :=
    Int.emod_eq_of_lt (by omega) (by omega)
  rw [turned, Int.add_mul_emod_self_left, within]

end Axis

theorem Grid.front_eq (grid : Grid) (pose : Pose) :
    grid.front pose = (Axis.slide grid.width pose.direction.delta.1 pose.x,
      Axis.slide grid.height pose.direction.delta.2 pose.y) := rfl

/-- A floor of `width` by `height` cells that is seen as one of `across` by `down`. -/
structure View where
  width : Nat
  height : Nat
  across : Nat
  down : Nat
  place : Nat → Nat → Nat × Nat
  back : Nat → Nat → Nat × Nat
  turn : Direction → Direction
  place_lt : ∀ {x y}, x < width → y < height → (place x y).1 < across ∧ (place x y).2 < down
  back_lt : ∀ {i j}, i < across → j < down → (back i j).1 < width ∧ (back i j).2 < height
  back_place : ∀ {x y}, x < width → y < height → back (place x y).1 (place x y).2 = (x, y)
  place_back : ∀ {i j}, i < across → j < down → place (back i j).1 (back i j).2 = (i, j)
  turn_left : ∀ direction, turn direction.left = (turn direction).left
  turn_right : ∀ direction, turn direction.right = (turn direction).right
  place_ahead : ∀ {x y}, x < width → y < height → ∀ direction,
    place (Axis.slide width direction.delta.1 x) (Axis.slide height direction.delta.2 y) =
      (Axis.slide across (turn direction).delta.1 (place x y).1,
        Axis.slide down (turn direction).delta.2 (place x y).2)

namespace View

def grid (view : View) (grid : Grid) : Grid :=
  .tabulate view.across view.down fun i j => grid.cell (view.back i j).1 (view.back i j).2

def pose (view : View) (pose : Pose) : Pose :=
  ⟨(view.place pose.x pose.y).1, (view.place pose.x pose.y).2, view.turn pose.direction⟩

def world (view : View) (world : World) : World := ⟨view.grid world.grid, view.pose world.robot⟩

/-- The whole floor shifted by so many columns and rows. -/
def shift (width height : Nat) (columns rows : Int) : View where
  width := width
  height := height
  across := width
  down := height
  place := fun x y => (Axis.slide width columns x, Axis.slide height rows y)
  back := fun i j => (Axis.slide width (-columns) i, Axis.slide height (-rows) j)
  turn := id
  place_lt := fun column row => ⟨Axis.slide_lt column _, Axis.slide_lt row _⟩
  back_lt := fun column row => ⟨Axis.slide_lt column _, Axis.slide_lt row _⟩
  back_place := fun column row =>
    Prod.ext (Axis.slide_neg_slide column columns) (Axis.slide_neg_slide row rows)
  place_back := fun column row =>
    Prod.ext (Axis.slide_slide_neg column columns) (Axis.slide_slide_neg row rows)
  turn_left := fun _ => rfl
  turn_right := fun _ => rfl
  place_ahead := fun column row _ =>
    Prod.ext (Axis.slide_comm column ..) (Axis.slide_comm row ..)

/-- A quarter turn clockwise, which makes the lowest row the first column. -/
def quarterTurn (width height : Nat) : View where
  width := width
  height := height
  across := height
  down := width
  place := fun x y => (Axis.flip height y, x)
  back := fun i j => (j, Axis.flip height i)
  turn := Direction.right
  place_lt := fun column row => ⟨Axis.flip_lt row, column⟩
  back_lt := fun column row => ⟨row, Axis.flip_lt column⟩
  back_place := fun _ row => Prod.ext rfl (Axis.flip_flip row)
  place_back := fun column _ => Prod.ext (Axis.flip_flip column) rfl
  turn_left := fun direction => by cases direction <;> rfl
  turn_right := fun _ => rfl
  place_ahead := fun column row direction => by
    rw [Axis.flip_slide row]
    cases direction <;> rfl

/-- The view is one of floors of this size. -/
structure Fits (view : View) (grid : Grid) : Prop where
  floor : grid.WellFormed
  width : grid.width = view.width
  height : grid.height = view.height

variable {view : View} {grid : Grid}

theorem wellFormed_grid (fits : view.Fits grid) : (view.grid grid).WellFormed := by
  have column : 0 < view.width := fits.width ▸ fits.floor.width_pos
  have row : 0 < view.height := fits.height ▸ fits.floor.height_pos
  obtain ⟨across, down⟩ := view.place_lt column row
  exact Grid.wellFormed_tabulate (Nat.zero_lt_of_lt across) (Nat.zero_lt_of_lt down) _

/-- Each cell is seen where its place is. -/
theorem cell_place (fits : view.Fits grid) {x y : Nat} (column : x < grid.width)
    (row : y < grid.height) :
    (view.grid grid).cell (view.place x y).1 (view.place x y).2 = grid.cell x y := by
  rw [fits.width] at column
  rw [fits.height] at row
  obtain ⟨across, down⟩ := view.place_lt column row
  rw [View.grid, Grid.cell_tabulate _ across down, view.back_place column row]

theorem front_pose (fits : view.Fits grid) {pose : Pose} (column : pose.x < grid.width)
    (row : pose.y < grid.height) :
    (view.grid grid).front (view.pose pose) =
      view.place (grid.front pose).1 (grid.front pose).2 := by
  rw [Grid.front_eq grid, fits.width, fits.height,
    view.place_ahead (fits.width ▸ column) (fits.height ▸ row)]
  rfl

theorem grid_set (fits : view.Fits grid) {x y : Nat} (column : x < grid.width)
    (row : y < grid.height) (cell : Cell) :
    view.grid (grid.set x y cell) =
      (view.grid grid).set (view.place x y).1 (view.place x y).2 cell := by
  have fitsSet : view.Fits (grid.set x y cell) :=
    ⟨Grid.set_wellFormed fits.floor .., fits.width, fits.height⟩
  obtain ⟨across, down⟩ := view.place_lt (fits.width ▸ column) (fits.height ▸ row)
  have floor := wellFormed_grid fits
  apply Grid.ext_cell (wellFormed_grid fitsSet) (Grid.set_wellFormed floor ..) rfl rfl
  intro i (below : i < view.across) j (above : j < view.down)
  have same : (view.back i j).1 = x ∧ (view.back i j).2 = y ↔
      i = (view.place x y).1 ∧ j = (view.place x y).2 := by
    constructor
    · rintro ⟨rfl, rfl⟩
      rw [view.place_back below above]
      exact ⟨rfl, rfl⟩
    · rintro ⟨rfl, rfl⟩
      rw [view.back_place (fits.width ▸ column) (fits.height ▸ row)]
      exact ⟨rfl, rfl⟩
  rw [Grid.cell_set floor across down, View.grid, View.grid, Grid.cell_tabulate _ below above,
    Grid.cell_tabulate _ below above, Grid.cell_set fits.floor column row]
  simp only [same]

theorem fits_perform {world : World} (fits : view.Fits world.grid) (valid : world.Valid)
    (opcode : Opcode) : view.Fits (world.perform opcode).grid where
  floor := (valid.perform opcode).floor
  width := (world.width_perform opcode).trans fits.width
  height := (world.height_perform opcode).trans fits.height

theorem world_moveTo (world : World) (x y : Nat) :
    view.world (world.moveTo x y) = (view.world world).moveTo (view.place x y).1 (view.place x y).2 :=
  rfl

/-- An opcode does the same whether before or after one looks. -/
theorem world_perform {world : World} (fits : view.Fits world.grid) (valid : world.Valid)
    (opcode : Opcode) : view.world (world.perform opcode) = (view.world world).perform opcode := by
  obtain ⟨column, row⟩ := valid.inside
  cases opcode with
  | noop => rfl
  | left =>
      simp only [World.perform, World.turnLeft, View.world, View.pose, view.turn_left]
  | right =>
      simp only [World.perform, World.turnRight, View.world, View.pose, view.turn_right]
  | light =>
      simp only [World.perform, World.light, View.world, View.pose, grid_set fits column row,
        cell_place fits column row]
  | forward =>
      obtain ⟨ahead, beyond⟩ := Grid.front_inside fits.floor world.robot
      have front : (view.world world).grid.front (view.world world).robot =
          view.place (world.grid.front world.robot).1 (world.grid.front world.robot).2 :=
        front_pose fits column row
      have cell := cell_place fits ahead beyond
      simp only [World.perform, World.forward_eq, front]
      change _ = if ((view.grid world.grid).cell _ _).passable then _ else _
      rw [cell]
      split
      · exact world_moveTo ..
      · rfl

end View
end Lamplighter
