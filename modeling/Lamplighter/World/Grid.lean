/-! The floor: a rectangle of cells whose opposite edges touch. -/

namespace Lamplighter

/-- A floor tile without a lamp lights up for good, and so does a lamp. -/
inductive Cell where
  | empty
  | lampOff
  | lampOn
  | floorLit
  deriving Repr, DecidableEq

namespace Cell

def all : List Cell := [empty, lampOff, lampOn, floorLit]

def name : Cell → String
  | empty => "EMPTY"
  | lampOff => "LAMP_OFF"
  | lampOn => "LAMP_ON"
  | floorLit => "FLOOR_LIT"

def glyph : Cell → Char
  | empty => '.'
  | lampOff => 'O'
  | lampOn => 'X'
  | floorLit => 'x'

def ofGlyph? (c : Char) : Option Cell := all.find? fun cell => cell.glyph = c

/-- A lit floor tile stands in the robot's way. -/
def passable (cell : Cell) : Bool := cell ≠ floorLit

/-- What the robot's light does to the cell it stands on. -/
def lit : Cell → Cell
  | empty => floorLit
  | lampOff => lampOn
  | lampOn => lampOn
  | floorLit => floorLit

theorem ofGlyph?_glyph (cell : Cell) : ofGlyph? cell.glyph = some cell := by
  cases cell <;> decide

theorem lit_lit (cell : Cell) : cell.lit.lit = cell.lit := by
  cases cell <;> rfl

end Cell

/-- Why an index names no cell. -/
inductive BadIndex where
  | outOfBounds (index : Int) (axis size : Nat)
  | notAnIndex
  | tooLarge
  deriving Repr, DecidableEq

def BadIndex.message : BadIndex → String
  | outOfBounds index axis size => s!"index {index} is out of bounds for axis {axis} with size {size}"
  | notAnIndex =>
    "only integers, slices (`:`), ellipsis (`...`), numpy.newaxis (`None`) and integer or boolean " ++
      "arrays are valid indices"
  | tooLarge => "index is too large"

/-- Rows run from the top, and cells within a row from the left. -/
structure Grid where
  width : Nat
  height : Nat
  cells : List (List Cell)
  deriving Repr, DecidableEq

namespace Grid

/-- Every row holds as many cells as the grid is wide, there are as many rows as
it is high, and there is at least one of both. -/
structure WellFormed (grid : Grid) : Prop where
  width_pos : 0 < grid.width
  height_pos : 0 < grid.height
  length_cells : grid.cells.length = grid.height
  length_row : ∀ row ∈ grid.cells, row.length = grid.width

/-- Outside the grid there is nothing but empty floor. -/
def cell (grid : Grid) (x y : Nat) : Cell := (grid.cells.getD y []).getD x .empty

def set (grid : Grid) (x y : Nat) (cell : Cell) : Grid :=
  { grid with cells := grid.cells.modify y fun row => row.set x cell }

/-- Brings a place outside the grid back to where the opposite edge continues. -/
def wrap (grid : Grid) (place : Int × Int) : Int × Int :=
  (place.1 % grid.width, place.2 % grid.height)

def count (grid : Grid) (cell : Cell) : Nat := grid.cells.flatten.count cell

def rows (grid : Grid) : List (List Char) := grid.cells.map fun row => row.map Cell.glyph

/-- An index has to fit a signed word of 64 bits. One that fits an unsigned word
only is told apart from the rest. -/
def wordIndex (index : Int) : Except BadIndex Int :=
  if -0x8000000000000000 ≤ index ∧ index < 0x8000000000000000 then .ok index
  else if 0x8000000000000000 ≤ index ∧ index < 0x10000000000000000 then .error .tooLarge
  else .error .notAnIndex

/-- Reads an index along an axis. A negative one counts from the end. -/
def position (axis size : Nat) (index : Int) : Except BadIndex Nat :=
  if 0 ≤ index ∧ index < size then .ok index.toNat
  else if -(size : Int) ≤ index ∧ index < 0 then .ok (index + size).toNat
  else .error (.outOfBounds index axis size)

/-- The row comes first, and bounds are looked at after both indices. -/
def place (grid : Grid) (x y : Int) : Except BadIndex (Nat × Nat) := do
  let y ← wordIndex y
  let x ← wordIndex x
  let row ← position 0 grid.height y
  let column ← position 1 grid.width x
  return (column, row)

def cellAt (grid : Grid) (x y : Int) : Except BadIndex Cell := do
  let (column, row) ← grid.place x y
  return grid.cell column row

def setCell (grid : Grid) (x y : Int) (cell : Cell) : Except BadIndex Grid := do
  let (column, row) ← grid.place x y
  return grid.set column row cell

theorem set_wellFormed {grid : Grid} (h : grid.WellFormed) (x y : Nat) (cell : Cell) :
    (grid.set x y cell).WellFormed where
  width_pos := h.width_pos
  height_pos := h.height_pos
  length_cells := by simp [set, h.length_cells]
  length_row := by
    intro row member
    obtain ⟨n, bound, rfl⟩ := List.mem_iff_getElem.mp member
    have inside : n < grid.cells.length := by simpa [set] using bound
    have old : grid.cells[n].length = grid.width := h.length_row _ (List.getElem_mem inside)
    simp only [set, List.getElem_modify]
    split <;> simp_all

end Grid
end Lamplighter
