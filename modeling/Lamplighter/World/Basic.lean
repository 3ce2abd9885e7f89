import Lamplighter.Program.Basic
import Lamplighter.World.Grid

/-! The robot, the floor it stands on, and what each opcode does to the two. -/

namespace Lamplighter

inductive Direction where
  | east
  | south
  | west
  | north
  deriving Repr, DecidableEq

namespace Direction

def all : List Direction := [east, south, west, north]

def name : Direction → String
  | east => "EAST"
  | south => "SOUTH"
  | west => "WEST"
  | north => "NORTH"

/-- The sign that stands for the robot on a map. -/
def marker : Direction → Char
  | east => 'R'
  | south => 'D'
  | west => 'L'
  | north => 'U'

def ofMarker? (c : Char) : Option Direction := all.find? fun direction => direction.marker = c

def right : Direction → Direction
  | east => south
  | south => west
  | west => north
  | north => east

def left : Direction → Direction
  | east => north
  | south => east
  | west => south
  | north => west

/-- One step, as columns to the right and rows down. -/
def delta : Direction → Int × Int
  | east => (1, 0)
  | south => (0, 1)
  | west => (-1, 0)
  | north => (0, -1)

theorem ofMarker?_marker (direction : Direction) : ofMarker? direction.marker = some direction := by
  cases direction <;> decide

theorem left_right (direction : Direction) : direction.right.left = direction := by
  cases direction <;> rfl

theorem right_left (direction : Direction) : direction.left.right = direction := by
  cases direction <;> rfl

end Direction

/-- Where the robot stands and where it looks. -/
structure Pose where
  x : Nat
  y : Nat
  direction : Direction
  deriving Repr, DecidableEq

/-- The place in front, which may lie outside the grid. -/
def Pose.ahead (pose : Pose) : Int × Int :=
  (pose.x + pose.direction.delta.1, pose.y + pose.direction.delta.2)

structure World where
  grid : Grid
  robot : Pose
  deriving Repr, DecidableEq

namespace World

/-- The robot stands on the grid. -/
def Inside (world : World) : Prop :=
  world.robot.x < world.grid.width ∧ world.robot.y < world.grid.height

def turnLeft (world : World) : World :=
  { world with robot := { world.robot with direction := world.robot.direction.left } }

def turnRight (world : World) : World :=
  { world with robot := { world.robot with direction := world.robot.direction.right } }

def moveTo (world : World) (x y : Nat) : World :=
  { world with robot := { world.robot with x := x, y := y } }

/-- One step ahead, around the edge where need be. The robot stays where it is
when the cell there is not passable. -/
def forward (world : World) : World :=
  let (x, y) := world.grid.wrap world.robot.ahead
  if (world.grid.cell x.toNat y.toNat).passable then world.moveTo x.toNat y.toNat else world

def light (world : World) : World :=
  let { x, y, .. } := world.robot
  { world with grid := world.grid.set x y (world.grid.cell x y).lit }

def perform (world : World) : Opcode → World
  | .forward => world.forward
  | .left => world.turnLeft
  | .right => world.turnRight
  | .light => world.light
  | .noop => world

def lampsRemaining (world : World) : Nat := world.grid.count .lampOff

/-- A floor without lamps has nothing to solve. -/
def solved (world : World) : Bool := world.lampsRemaining = 0 && 0 < world.grid.count .lampOn

/-- The floor as rows of text, without the robot. -/
def rows (world : World) : List String := world.grid.rows.map String.ofList

/-- The floor as rows of text, with the robot's marker over the cell it is on. -/
def render (world : World) : List String :=
  let { x, y, direction } := world.robot
  (world.grid.rows.modify y fun row => row.set x direction.marker).map String.ofList

end World
end Lamplighter
