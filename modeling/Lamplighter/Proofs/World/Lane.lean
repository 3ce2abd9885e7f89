import Mathlib.Logic.Function.Iterate
import Mathlib.Order.Bounds.Basic
import Lamplighter.Proofs.World.View

/-! Straight ahead.

A robot that only goes ahead comes along the cells in front of it, as often around the floor
as it takes, up to the first one that is lit. Main statement: `forward_iterate_of_barred`. -/

namespace Lamplighter

/-- So many steps further on the same course, on a floor of this size with nothing in the way. -/
def Pose.advanced (grid : Grid) (pose : Pose) (steps : Nat) : Pose where
  x := ((pose.x + steps * pose.direction.delta.1) % grid.width).toNat
  y := ((pose.y + steps * pose.direction.delta.2) % grid.height).toNat
  direction := pose.direction

example : (Pose.mk 0 1 .west).advanced ⟨3, 2, []⟩ 5 = ⟨1, 1, .west⟩ := by decide

theorem Pose.advanced_eq (grid : Grid) (pose : Pose) (steps : Nat) :
    pose.advanced grid steps =
      ⟨Axis.slide grid.width (steps * pose.direction.delta.1) pose.x,
        Axis.slide grid.height (steps * pose.direction.delta.2) pose.y, pose.direction⟩ := rfl

namespace World

def advanced (world : World) (steps : Nat) : World :=
  { world with robot := world.robot.advanced world.grid steps }

/-- After so many steps straight ahead the next cell is lit floor. -/
def Barred (world : World) (steps : Nat) : Prop :=
  world.grid.cell (world.robot.advanced world.grid (steps + 1)).x
    (world.robot.advanced world.grid (steps + 1)).y = .floorLit

instance (world : World) (steps : Nat) : Decidable (world.Barred steps) :=
  inferInstanceAs (Decidable (_ = _))

variable {world : World}

theorem advanced_zero (valid : world.Valid) : world.advanced 0 = world := by
  obtain ⟨column, row⟩ := valid.inside
  have same : world.robot.advanced world.grid 0 = world.robot := by
    rw [Pose.advanced_eq, Int.natCast_zero, Int.zero_mul, Int.zero_mul, Axis.slide_zero column,
      Axis.slide_zero row]
  rw [advanced, same]

/-- In front of the cell that is reached stands the next one. -/
theorem front_advanced (valid : world.Valid) (steps : Nat) :
    world.grid.front (world.robot.advanced world.grid steps) =
      ((world.robot.advanced world.grid (steps + 1)).x,
        (world.robot.advanced world.grid (steps + 1)).y) := by
  obtain ⟨column, row⟩ := valid.inside
  have further (side : Int) : (steps : Int) * side + side = ((steps + 1 : Nat) : Int) * side := by
    rw [Int.natCast_add, Int.add_mul, Int.natCast_one, Int.one_mul]
  rw [Grid.front_eq, Pose.advanced_eq, Pose.advanced_eq]
  simp only [Axis.slide_slide column, Axis.slide_slide row, further]

theorem forward_advanced (valid : world.Valid) (steps : Nat) :
    (world.advanced steps).forward =
      if world.Barred steps then world.advanced steps else world.advanced (steps + 1) := by
  have front := front_advanced valid steps
  rw [forward_eq]
  simp only [advanced, front, Cell.passable, decide_eq_true_eq]
  by_cases barred : world.Barred steps
  · rw [if_pos barred]
    exact if_neg fun free => free barred
  · rw [if_neg barred]
    exact if_pos barred

/-- Steps leave the floor as it is. -/
theorem grid_forward_iterate (world : World) (count : Nat) :
    (World.forward^[count] world).grid = world.grid := by
  induction count with
  | zero => rfl
  | succ count ih =>
      rw [Function.iterate_succ_apply', forward_eq]
      split <;> exact ih

/-- With nothing in the way each step is made. -/
theorem forward_iterate_of_free (valid : world.Valid) {count : Nat}
    (free : ∀ k < count, ¬ world.Barred k) : World.forward^[count] world = world.advanced count := by
  induction count with
  | zero => exact (advanced_zero valid).symm
  | succ count ih =>
      have before := ih fun k less => free k (Nat.lt_succ_of_lt less)
      rw [Function.iterate_succ_apply', before, forward_advanced valid,
        if_neg (free count (Nat.lt_succ_self count))]

/-- Up to the first lit cell each step is made, and none from there on. -/
theorem forward_iterate_of_barred (valid : world.Valid) {last : Nat}
    (least : IsLeast {steps | world.Barred steps} last) (count : Nat) :
    World.forward^[count] world = world.advanced (min count last) := by
  have free (k : Nat) (less : k < last) : ¬ world.Barred k := fun barred =>
    absurd (least.2 barred) (Nat.not_le_of_lt less)
  have stuck : (world.advanced last).forward = world.advanced last := by
    have barred : world.Barred last := least.1
    rw [forward_advanced valid, if_pos barred]
  rcases Nat.le_total count last with short | long
  · rw [Nat.min_eq_left short]
    exact forward_iterate_of_free valid fun k less => free k (Nat.lt_of_lt_of_le less short)
  · calc World.forward^[count] world
      _ = World.forward^[count - last] (World.forward^[last] world) := by
          rw [← Function.iterate_add_apply, Nat.sub_add_cancel long]
      _ = World.forward^[count - last] (world.advanced last) := by
          rw [forward_iterate_of_free valid free]
      _ = world.advanced last := Function.iterate_fixed stuck _
      _ = world.advanced (min count last) := by rw [Nat.min_eq_right long]

end World
end Lamplighter
