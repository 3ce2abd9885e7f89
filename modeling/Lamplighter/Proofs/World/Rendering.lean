import Lamplighter.Proofs.Text.Trimmed
import Lamplighter.Proofs.World.Lighting
import Lamplighter.Proofs.World.MapReading

/-! A map that is shown can be read again.

No glyph is white space or ends a line, so the rows come back as they were drawn, one by one
or as one text. What the robot stands on is not shown: it is read as plain floor. Main
statements: `Map.Draws.read_pieces`, `Map.Draws.read_text` and `World.draws_drawn`. -/

namespace Lamplighter

namespace Map

theorem isBlank_of_mem_glyphs {glyph : Char} (member : glyph ∈ glyphs) :
    Text.isBlank glyph = false := by
  have visible : (glyphs.all fun glyph => !Text.isBlank glyph) = true := by decide
  simpa using List.all_eq_true.mp visible glyph member

theorem isBreak_of_mem_glyphs {glyph : Char} (member : glyph ∈ glyphs) :
    Text.isBreak glyph = false := by
  have unbroken : (glyphs.all fun glyph => !Text.isBreak glyph) = true := by decide
  simpa using List.all_eq_true.mp unbroken glyph member

theorem Known.trim_eq {rows : List (List Char)} (known : Known rows) {row : List Char}
    (member : row ∈ rows) : Text.trim row = row := by
  have trimmed : Text.Trimmed row := by
    constructor
    · intro glyph first
      exact isBlank_of_mem_glyphs (known row member glyph (List.mem_of_head? first))
    · intro glyph last
      exact isBlank_of_mem_glyphs (known row member glyph (List.mem_of_getLast? last))
  exact trimmed.trim_eq

theorem Known.unbroken {rows : List (List Char)} (known : Known rows) :
    ∀ item ∈ rows.map String.ofList, Text.Unbroken item.toList := by
  intro item member
  obtain ⟨row, inside, rfl⟩ := List.mem_map.mp member
  rw [String.toList_ofList]
  intro glyph here
  exact isBreak_of_mem_glyphs (known row inside glyph here)

theorem rows_eq_of_visible {source : Text.Source} {rows : List (List Char)}
    (same : trimmed source = rows) (visible : ∀ row ∈ rows, row ≠ []) : Map.rows source = rows := by
  symm
  rw [← framed_iff]
  refine ⟨⟨[], [], by rw [same, List.nil_append, List.append_nil], by simp, by simp⟩, ?_, ?_⟩
  · intro first
    exact visible [] (List.mem_of_head? first) rfl
  · intro last
    exact visible [] (List.mem_of_getLast? last) rfl

namespace Draws

variable {rows : List (List Char)} {world : World}

theorem visible (draws : Draws rows world) : ∀ row ∈ rows, row ≠ [] := by
  rintro row member rfl
  exact Nat.ne_of_gt draws.floor.width_pos (draws.width [] member)

/-- Lines that show a world are read as that world. -/
theorem read_of_lines (draws : Draws rows world) {source : Text.Source}
    (cut : source.lines = rows.map String.ofList) : Map.read source = .ok world := by
  have same : trimmed source = rows := by
    calc trimmed source
      _ = rows.map fun row => Text.trim row := by
          simp only [trimmed, cut, List.map_map, Function.comp_def, String.toList_ofList]
      _ = rows.map id := List.map_congr_left fun row member => draws.known.trim_eq member
      _ = rows := List.map_id rows
  rw [Map.read, rows_eq_of_visible same draws.visible]
  exact ofRows_eq_ok_iff.mpr draws

theorem read_pieces (draws : Draws rows world) :
    Map.read (.pieces (rows.map String.ofList)) = .ok world :=
  draws.read_of_lines (Text.lines_pieces draws.known.unbroken)

theorem read_text (draws : Draws rows world) :
    Map.read (.text ("\n".intercalate (rows.map String.ofList))) = .ok world := by
  apply draws.read_of_lines
  apply Text.lines_intercalate draws.known.unbroken
  intro last
  obtain ⟨row, member, blank⟩ := List.mem_map.mp (List.mem_of_getLast? last)
  exact draws.visible row member (by simpa using blank)

end Draws
end Map

namespace Grid

variable {grid : Grid} {x y : Nat}

theorem whereCell_set_empty (floor : grid.WellFormed) (column : x < grid.width)
    (row : y < grid.height) {cell : Cell} (shown : cell ≠ .empty) :
    (grid.set x y .empty).whereCell (· = cell) = (grid.whereCell (· = cell)).erase (x, y) := by
  ext ⟨i, j⟩
  have size : (grid.set x y .empty).places = grid.places := rfl
  simp only [whereCell, Finset.mem_filter, Finset.mem_erase, size, cell_set floor column row,
    ne_eq, Prod.mk.injEq]
  by_cases here : i = x ∧ j = y
  · simp [here, Ne.symm shown]
  · simp [here]

/-- Taking one cell off the floor takes it off the count of its kind. -/
theorem count_set_empty (floor : grid.WellFormed) (column : x < grid.width) (row : y < grid.height)
    {cell : Cell} (shown : cell ≠ .empty) :
    (grid.set x y .empty).count cell + (if grid.cell x y = cell then 1 else 0) =
      grid.count cell := by
  have place : (x, y) ∈ grid.places := by
    simp only [places, Finset.mem_product, Finset.mem_range]
    exact ⟨column, row⟩
  rw [count_eq_card (set_wellFormed floor x y .empty), count_eq_card floor,
    whereCell_set_empty floor column row shown]
  split
  case isTrue here =>
    exact Finset.card_erase_add_one (Finset.mem_filter.mpr ⟨place, here⟩)
  case isFalse other =>
    rw [Finset.erase_eq_of_notMem, Nat.add_zero]
    intro member
    exact other (Finset.mem_filter.mp member).2

theorem count_flatten_rows (grid : Grid) (cell : Cell) :
    grid.rows.flatten.count cell.glyph = grid.count cell := by
  have apart (one two : Cell) : (one.glyph == two.glyph) = (one == two) := by
    cases one <;> cases two <;> rfl
  rw [Grid.rows, Grid.count, ← List.map_flatten, List.count, List.count, List.countP_map]
  simp only [Function.comp_def, apart]

end Grid

namespace World

variable {world : World}

/-- The rows with the robot's marker, as they are shown. -/
def drawn (world : World) : List (List Char) :=
  world.grid.rows.modify world.robot.y fun row =>
    row.set world.robot.x world.robot.direction.marker

theorem render_eq (world : World) : world.render = world.drawn.map String.ofList := rfl

/-- Plain floor below the robot. -/
def cleared (world : World) : World :=
  { world with grid := world.grid.set world.robot.x world.robot.y .empty }

/-- What is shown in this column and row. -/
def sign (world : World) (x y : Nat) : Char :=
  if x = world.robot.x ∧ y = world.robot.y then world.robot.direction.marker
  else (world.grid.cell x y).glyph

theorem drawn_eq (valid : world.Valid) :
    world.drawn = (List.range world.grid.height).map fun y =>
      (List.range world.grid.width).map fun x => world.sign x y := by
  have floor : world.grid.rows = (List.range world.grid.height).map fun y =>
      (List.range world.grid.width).map fun x => (world.grid.cell x y).glyph := by
    conv_lhs => rw [Grid.eq_tabulate valid.floor]
    simp only [Grid.rows, Grid.tabulate, List.map_map, Function.comp_def]
  rw [drawn, floor]
  apply List.ext_getElem (by simp)
  intro y _ _
  simp only [List.getElem_modify, List.getElem_map, List.getElem_range]
  split
  case isTrue here =>
    apply List.ext_getElem (by simp)
    intro x _ _
    simp [List.getElem_set, sign, here, eq_comm]
  case isFalse elsewhere => simp [sign, Ne.symm elsewhere]

theorem stands_drawn_iff (valid : world.Valid) {glyph : Char} {x y : Nat} :
    Map.Stands world.drawn glyph x y ↔
      x < world.grid.width ∧ y < world.grid.height ∧ world.sign x y = glyph := by
  simp only [Map.Stands, drawn_eq valid, List.getElem?_map, Option.map_eq_some_iff,
    List.getElem?_eq_some_iff, List.length_range, List.getElem_range]
  constructor
  · rintro ⟨_, ⟨_, ⟨down, rfl⟩, rfl⟩, here⟩
    obtain ⟨across, same⟩ : ∃ _ : x < world.grid.width, world.sign x y = glyph := by
      simpa using here
    exact ⟨across, down, same⟩
  · rintro ⟨across, down, same⟩
    refine ⟨_, ⟨y, ⟨down, rfl⟩, rfl⟩, ?_⟩
    simp [across, same]

theorem draws_drawn (valid : world.Valid) : Map.Draws world.drawn world.cleared := by
  obtain ⟨column, row⟩ := valid.inside
  have cell := Grid.cell_set valid.floor column row .empty
  refine ⟨Grid.set_wellFormed valid.floor .., ?_, ?_, ?_, ?_, ?_⟩
  · rw [drawn_eq valid, List.length_map, List.length_range]
    rfl
  · intro line member
    rw [drawn_eq valid] at member
    obtain ⟨y, _, rfl⟩ := List.mem_map.mp member
    rw [List.length_map, List.length_range]
    rfl
  · rw [stands_drawn_iff valid]
    exact ⟨column, row, if_pos ⟨rfl, rfl⟩⟩
  · exact (cell ..).trans (if_pos ⟨rfl, rfl⟩)
  · intro x y glyph stands elsewhere
    obtain ⟨_, _, rfl⟩ := (stands_drawn_iff valid).mp stands
    have other : ¬(x = world.robot.x ∧ y = world.robot.y) := by
      rintro ⟨rfl, rfl⟩
      exact elsewhere rfl
    rw [sign, if_neg other, cleared, cell, if_neg other]

/-- What is known of a world from what is shown of it: all but the cell below the robot, which
is taken for plain floor. -/
structure Again (world again : World) : Prop where
  robot : again.robot = world.robot
  floor : again.grid.WellFormed
  width : again.grid.width = world.grid.width
  height : again.grid.height = world.grid.height
  cell : ∀ x y, again.grid.cell x y =
    if x = world.robot.x ∧ y = world.robot.y then .empty else world.grid.cell x y

theorem again_cleared (valid : world.Valid) : world.Again world.cleared where
  robot := rfl
  floor := Grid.set_wellFormed valid.floor ..
  width := rfl
  height := rfl
  cell := Grid.cell_set valid.floor valid.inside.1 valid.inside.2 .empty

/-- A lamp below the robot is not shown. -/
theorem count_drawn (valid : world.Valid) :
    world.drawn.flatten.count 'O' +
        (if world.grid.cell world.robot.x world.robot.y = .lampOff then 1 else 0) =
      world.lampsRemaining := by
  have lamp (glyph : Char) : (Map.unmarked glyph == 'O') = (glyph == 'O') := by
    rw [Map.unmarked]
    split
    case isTrue marker =>
      obtain ⟨direction, rfl⟩ := Map.mem_markers_iff.mp (Map.isSome_ofMarker?_iff.mp marker)
      cases direction <;> rfl
    case isFalse => rfl
  have shown : world.drawn.flatten.count 'O' = world.cleared.grid.count .lampOff := by
    calc world.drawn.flatten.count 'O'
      _ = (world.drawn.flatten.map Map.unmarked).count 'O' := by
          simp only [List.count, List.countP_map, Function.comp_def, lamp]
      _ = (world.drawn.map fun row => row.map Map.unmarked).flatten.count 'O' := by
          rw [List.map_flatten]
      _ = world.cleared.grid.rows.flatten.count Cell.lampOff.glyph := by
          rw [(draws_drawn valid).rows_eq]
          rfl
      _ = world.cleared.grid.count .lampOff := Grid.count_flatten_rows _ _
  rw [shown]
  exact Grid.count_set_empty valid.floor valid.inside.1 valid.inside.2 (by decide)

/-- What is shown of a world is a map of it, row by row or as one text, but for the cell that
the robot covers. -/
theorem render_read_back (world : World) (valid : world.Valid) :
    (∃ again, Map.read (.pieces world.render) = .ok again ∧
      Map.read (.text ("\n".intercalate world.render)) = .ok again ∧ world.Again again) ∧
    (world.render.flatMap String.toList).count 'O' +
        (if world.grid.cell world.robot.x world.robot.y = .lampOff then 1 else 0) =
      world.lampsRemaining := by
  have draws := draws_drawn valid
  constructor
  · exact ⟨world.cleared, draws.read_pieces, draws.read_text, again_cleared valid⟩
  · have letters : world.render.flatMap String.toList = world.drawn.flatten := by
      simp only [render_eq, List.flatMap_map, String.toList_ofList, List.flatMap_id']
    rw [letters]
    exact count_drawn valid

/-- The robot stands on one of the two lamps that are off, in the first column. -/
def lampBelow : World :=
  ⟨⟨3, 2, [[.floorLit, .empty, .lampOff], [.lampOff, .lampOn, .empty]]⟩, ⟨0, 1, .north⟩⟩

theorem render_read_back_of_lampBelow : lampBelow.Valid ∧
    (∃ again, Map.read (.pieces ["x.O", "UX."]) = .ok again ∧
      Map.read (.text "x.O\nUX.") = .ok again ∧ again.robot = ⟨0, 1, .north⟩ ∧
      again.grid.cell 0 1 = .empty ∧ again.grid.cell 1 1 = .lampOn) ∧
    ['x', '.', 'O', 'U', 'X', '.'].count 'O' + 1 = lampBelow.lampsRemaining := by
  have valid : lampBelow.Valid :=
    ⟨⟨by decide, by decide, by decide, by decide⟩, by decide, by decide⟩
  obtain ⟨⟨again, pieces, text, same⟩, lamps⟩ := render_read_back lampBelow valid
  refine ⟨valid, ⟨again, pieces, text, same.robot, ?_, ?_⟩, lamps⟩
  · rw [same.cell]
    rfl
  · rw [same.cell]
    rfl

end World
end Lamplighter
