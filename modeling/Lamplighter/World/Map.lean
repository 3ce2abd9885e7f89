import Lamplighter.Text.Blank
import Lamplighter.Text.Lines
import Lamplighter.World.Basic

/-! Reading a map.

A map is a rectangle of glyphs with one robot marker in it. White space around a
row and blank rows around the map do not count. -/

namespace Lamplighter

inductive MapError where
  | empty
  | ragged (row length expected : Nat)
  | unknownGlyph (glyph : Char) (column row : Nat)
  | noRobot
  | manyRobots (places : List (Nat × Nat))
  deriving Repr, DecidableEq

def MapError.message : MapError → String
  | empty => "Map is empty"
  | ragged row length expected => s!"Row {row} has length {length}, expected {expected}"
  | unknownGlyph glyph column row =>
    s!"Unknown map glyph '{glyph}' at column {column}, row {row}"
  | noRobot => "No robot marker found in map"
  | manyRobots places =>
    let count := places.length
    let listed := String.intercalate ", " (places.map fun (x, y) => s!"({x}, {y})")
    s!"Map has {count} robot markers at {listed}"

namespace Map

/-- The trimmed rows, less the blank ones before the first and after the last. -/
def rows (source : Text.Source) : List (List Char) :=
  let trimmed := source.lines.map fun line => Text.trim line.toList
  ((trimmed.dropWhile List.isEmpty).reverse.dropWhile List.isEmpty).reverse

/-- Each glyph with its column and row, row by row from the top. -/
def places (rows : List (List Char)) : List (Char × Nat × Nat) :=
  rows.zipIdx.flatMap fun (row, y) => row.zipIdx.map fun (glyph, x) => (glyph, x, y)

/-- The first row whose length is not that of the first one. -/
def ragged? (width : Nat) (rows : List (List Char)) : Option MapError :=
  (rows.zipIdx.find? fun entry => entry.1.length ≠ width).map fun (row, y) =>
    .ragged y row.length width

def known (glyph : Char) : Bool :=
  (Cell.ofGlyph? glyph).isSome || (Direction.ofMarker? glyph).isSome

/-- The first glyph that stands for nothing. -/
def unknown? (rows : List (List Char)) : Option MapError :=
  ((places rows).find? fun entry => !known entry.1).map fun (glyph, x, y) => .unknownGlyph glyph x y

def robots (rows : List (List Char)) : List Pose :=
  (places rows).filterMap fun (glyph, x, y) => (Direction.ofMarker? glyph).map (⟨x, y, ·⟩)

/-- A marker hides plain floor. -/
def cellOf (glyph : Char) : Cell := (Cell.ofGlyph? glyph).getD .empty

def grid (width : Nat) (rows : List (List Char)) : Grid :=
  ⟨width, rows.length, rows.map fun row => row.map cellOf⟩

/-- Shape is checked before glyphs, and glyphs before the number of robots. -/
def ofRows (rows : List (List Char)) : Except MapError World :=
  match rows with
  | [] => .error .empty
  | first :: _ =>
    match ragged? first.length rows, unknown? rows, robots rows with
    | some error, _, _ => .error error
    | none, some error, _ => .error error
    | none, none, [] => .error .noRobot
    | none, none, [robot] => .ok ⟨grid first.length rows, robot⟩
    | none, none, robots => .error (.manyRobots (robots.map fun robot => (robot.x, robot.y)))

def read (source : Text.Source) : Except MapError World := ofRows (rows source)

end Map
end Lamplighter
