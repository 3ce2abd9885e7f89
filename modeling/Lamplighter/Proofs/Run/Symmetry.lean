import Lamplighter.Proofs.Run.Pairing
import Lamplighter.Proofs.World.View

/-! Runs on a floor that has been moved.

A floor without edges has no first column and no first row, and none of the directions
stands out. Main statement: `run_on_moved_floor`. -/

namespace Lamplighter

namespace World

/-- Floor and robot shifted by so many columns and rows. -/
def shift (columns rows : Int) (world : World) : World :=
  (View.shift world.grid.width world.grid.height columns rows).world world

/-- Floor and robot turned clockwise by a quarter. -/
def rotate (world : World) : World :=
  (View.quarterTurn world.grid.width world.grid.height).world world

variable {world : World} {width height : Nat}

theorem cell_shift (floor : world.grid.WellFormed) (columns rows : Int) {x y : Nat}
    (column : x < world.grid.width) (row : y < world.grid.height) :
    (world.shift columns rows).grid.cell ((x + columns) % world.grid.width).toNat
      ((y + rows) % world.grid.height).toNat = world.grid.cell x y := by
  have fits : (View.shift world.grid.width world.grid.height columns rows).Fits world.grid :=
    ⟨floor, rfl, rfl⟩
  exact View.cell_place fits column row

theorem cell_rotate (floor : world.grid.WellFormed) {x y : Nat} (column : x < world.grid.width)
    (row : y < world.grid.height) :
    world.rotate.grid.cell (world.grid.height - 1 - y) x = world.grid.cell x y := by
  have fits : (View.quarterTurn world.grid.width world.grid.height).Fits world.grid :=
    ⟨floor, rfl, rfl⟩
  exact View.cell_place fits column row

theorem shift_eq {columns rows : Int} (fits : (View.shift width height columns rows).Fits world.grid) :
    world.shift columns rows = (View.shift width height columns rows).world world := by
  have across : world.grid.width = width := fits.width
  have down : world.grid.height = height := fits.height
  rw [shift, across, down]

theorem rotate_eq (fits : (View.quarterTurn width height).Fits world.grid) :
    world.rotate = (View.quarterTurn width height).world world := by
  have across : world.grid.width = width := fits.width
  have down : world.grid.height = height := fits.height
  rw [rotate, across, down]

end World

namespace Pose

/-- Where a robot on this floor is when the floor has been shifted. -/
def shift (columns rows : Int) (grid : Grid) (pose : Pose) : Pose :=
  (View.shift grid.width grid.height columns rows).pose pose

def rotate (grid : Grid) (pose : Pose) : Pose := (View.quarterTurn grid.width grid.height).pose pose

end Pose

/-- A world in order, and what is seen of it. -/
def View.pairing (view : View) : Pairing where
  worlds := fun one two => one.Valid ∧ view.Fits one.grid ∧ two = view.world one
  poses := fun one two => two = view.pose one
  robot := fun ⟨_, _, seen⟩ => by rw [seen]; rfl
  perform := fun ⟨valid, fits, seen⟩ opcode =>
    ⟨valid.perform opcode, View.fits_perform fits valid opcode,
      by rw [seen, View.world_perform fits valid]⟩

/-- A run in a view is a view of the run, whose robot stands wherever it is seen. -/
theorem View.run (view : View) (program : Program) (limit : Nat) (verbose : Bool) {world : World}
    (valid : world.Valid) (fits : view.Fits world.grid) :
    let plain := program.run limit verbose world
    let seen := program.run limit verbose (view.world world)
    view.Fits plain.machine.world.grid ∧ seen.machine.world = view.world plain.machine.world ∧
      Log.Alike (fun one two => two = view.pose one) plain.machine.log seen.machine.log ∧
      Status.Alike (Fault.Alike fun one two => two = view.pose one) plain.status seen.status := by
  obtain ⟨⟨_, fitsLast, seen⟩, alike⟩ :=
    view.pairing.run program limit verbose ⟨valid, fits, rfl⟩
  exact ⟨fitsLast, seen, alike⟩

/-- On a floor that was shifted or turned, with the robot on it, a program leaves the
floor and the robot of the plain run, shifted or turned likewise; and it ends in the same
way, with a log and a fault that differ in nothing but that the robot was elsewhere. -/
theorem run_on_moved_floor (program : Program) (limit : Nat) (verbose : Bool) (world : World)
    (valid : world.Valid) :
    let plain := program.run limit verbose world
    (∀ columns rows : Int,
      let shifted := program.run limit verbose (world.shift columns rows)
      let moved := fun one two : Pose => two = one.shift columns rows world.grid
      shifted.machine.world = plain.machine.world.shift columns rows ∧
        Log.Alike moved plain.machine.log shifted.machine.log ∧
        Status.Alike (Fault.Alike moved) plain.status shifted.status) ∧
    (let rotated := program.run limit verbose world.rotate
      let moved := fun one two : Pose => two = one.rotate world.grid
      rotated.machine.world = plain.machine.world.rotate ∧
        Log.Alike moved plain.machine.log rotated.machine.log ∧
        Status.Alike (Fault.Alike moved) plain.status rotated.status) := by
  constructor
  · intro columns rows
    let view := View.shift world.grid.width world.grid.height columns rows
    obtain ⟨fits, seen, alike⟩ := view.run program limit verbose valid ⟨valid.floor, rfl, rfl⟩
    exact ⟨seen.trans (World.shift_eq fits).symm, alike⟩
  · let view := View.quarterTurn world.grid.width world.grid.height
    obtain ⟨fits, seen, alike⟩ := view.run program limit verbose valid ⟨valid.floor, rfl, rfl⟩
    exact ⟨seen.trans (World.rotate_eq fits).symm, alike⟩

/-- Three columns and two rows, with a lamp, a lit tile and the robot at an edge. -/
def ledge : World :=
  ⟨⟨3, 2, [[.empty, .lampOff, .empty], [.floorLit, .empty, .lampOn]]⟩, ⟨2, 0, .east⟩⟩

/-- It goes over the right edge, lighting the floor, and fails in a call at the end. -/
def overTheEdge : Program where
  file := "edge"
  functions := ⟨[("F", ⟨"F", ["n"],
    [.loop (.identifier "n") [.act .light "LIGHT" none, .act .forward "FORWARD" none] none,
      .act .right "RIGHT" none, .act .forward "FORWARD" none, .loop (.identifier "m") [] none],
    none⟩)]⟩
  statements := [.call "F" [.literal 2] none]

theorem run_on_moved_floor_of_ledge : ledge.Valid ∧
    let plain := overTheEdge.run 9 true ledge
    plain.machine.world.robot = ⟨1, 1, .south⟩ ∧
    (∀ columns rows : Int,
      let shifted := overTheEdge.run 9 true (ledge.shift columns rows)
      let moved := fun one two : Pose => two = one.shift columns rows ledge.grid
      shifted.machine.world = plain.machine.world.shift columns rows ∧
        Log.Alike moved plain.machine.log shifted.machine.log ∧
        Status.Alike (Fault.Alike moved) plain.status shifted.status) ∧
    (let rotated := overTheEdge.run 9 true ledge.rotate
      let moved := fun one two : Pose => two = one.rotate ledge.grid
      rotated.machine.world = plain.machine.world.rotate ∧
        Log.Alike moved plain.machine.log rotated.machine.log ∧
        Status.Alike (Fault.Alike moved) plain.status rotated.status) := by
  have valid : ledge.Valid :=
    ⟨⟨by decide, by decide, by decide, by decide⟩, by decide, by decide⟩
  obtain ⟨shifts, turns⟩ := run_on_moved_floor overTheEdge 9 true ledge valid
  exact ⟨valid, by decide, shifts, turns⟩

end Lamplighter
