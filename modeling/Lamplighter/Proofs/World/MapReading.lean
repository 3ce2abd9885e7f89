import Lamplighter.Proofs.World.MapPlaces

/-! Which maps are accepted, what is made of them, and why the others are refused.

A map is refused for its size before its glyphs and for its glyphs before the number of its
markers, and of several faults of one kind for the first. What passes the checks is drawn
cell by cell. Main statements: `ofRows_eq_ok_iff`, `exists_ofRows_eq_ok_iff` and
`ofRows_eq_error_iff`. -/

namespace Lamplighter.Map

/-- The rows of a text: its lines without the blank ones above and below. -/
structure Framed (lines rows : List (List Char)) : Prop where
  parts : ∃ above below, lines = above ++ rows ++ below ∧
    (∀ line ∈ above, line = []) ∧ ∀ line ∈ below, line = []
  first : rows.head? ≠ some []
  last : rows.getLast? ≠ some []

/-- The lines of a text, each without the white space around it. -/
def trimmed (source : Text.Source) : List (List Char) :=
  source.lines.map fun line => Text.trim line.toList

/-- All rows are as long as the first one. -/
def Level (rows : List (List Char)) : Prop :=
  ∀ first ∈ rows.head?, ∀ row ∈ rows, row.length = first.length

def Known (rows : List (List Char)) : Prop := ∀ row ∈ rows, ∀ glyph ∈ row, glyph ∈ glyphs

/-- A rectangle of glyphs with one marker. -/
structure Sound (rows : List (List Char)) : Prop where
  drawn : rows ≠ []
  level : Level rows
  known : Known rows
  marker : (rows.flatten.countP fun glyph => glyph ∈ markers) = 1

/-- The rows show this world: the robot by its marker, with plain floor below it, and every
other cell by its own glyph. -/
structure Draws (rows : List (List Char)) (world : World) : Prop where
  floor : world.grid.WellFormed
  height : world.grid.height = rows.length
  width : ∀ row ∈ rows, world.grid.width = row.length
  robot : Stands rows world.robot.direction.marker world.robot.x world.robot.y
  below : world.grid.cell world.robot.x world.robot.y = .empty
  cell : ∀ x y glyph, Stands rows glyph x y → (x, y) ≠ (world.robot.x, world.robot.y) →
    (world.grid.cell x y).glyph = glyph

/-- Why rows are refused. Each fault is reported only where there is none of those before it. -/
inductive Refused (rows : List (List Char)) : MapError → Prop where
  | empty (blank : rows = []) : Refused rows .empty
  | ragged {first row : List Char} {y : Nat} (top : rows.head? = some first)
      (found : rows[y]? = some row) (uneven : row.length ≠ first.length)
      (before : ∀ above < y, ∀ other, rows[above]? = some other → other.length = first.length) :
      Refused rows (.ragged y row.length first.length)
  | unknownGlyph {glyph : Char} {x y : Nat} (drawn : rows ≠ []) (level : Level rows)
      (found : Stands rows glyph x y) (unknown : glyph ∉ glyphs)
      (before : ∀ other i j, Stands rows other i j → Precedes (i, j) (x, y) → other ∈ glyphs) :
      Refused rows (.unknownGlyph glyph x y)
  | noRobot (drawn : rows ≠ []) (level : Level rows) (known : Known rows)
      (bare : ∀ glyph x y, Stands rows glyph x y → glyph ∉ markers) : Refused rows .noRobot
  | manyRobots {places : List (Nat × Nat)} (drawn : rows ≠ []) (level : Level rows)
      (known : Known rows) (ordered : places.Pairwise Precedes)
      (marked : ∀ x y, (x, y) ∈ places ↔ ∃ glyph ∈ markers, Stands rows glyph x y)
      (many : 2 ≤ places.length) : Refused rows (.manyRobots places)

section Frame

theorem framed_rows (source : Text.Source) : Framed (trimmed source) (rows source) where
  parts := by
    let inner := (trimmed source).dropWhile List.isEmpty
    refine ⟨(trimmed source).takeWhile List.isEmpty, inner.rtakeWhile List.isEmpty, ?_, ?_, ?_⟩
    · calc trimmed source
        _ = (trimmed source).takeWhile List.isEmpty ++ inner := List.takeWhile_append_dropWhile.symm
        _ = _ ++ (inner.rdropWhile List.isEmpty ++ inner.rtakeWhile List.isEmpty) := by
            rw [List.rdropWhile_append_rtakeWhile]
        _ = _ ++ rows source ++ inner.rtakeWhile List.isEmpty := (List.append_assoc ..).symm
    · intro line member
      exact List.isEmpty_iff.mp (List.mem_takeWhile_imp member)
    · intro line member
      exact List.isEmpty_iff.mp (List.mem_rtakeWhile_imp member)
  first := by
    intro blank
    obtain ⟨rest, left⟩ := List.head?_eq_some_iff.mp blank
    exact head_rows_ne_nil left rfl
  last := by
    intro blank
    have left : rows source ≠ [] := by
      intro none
      simp [none] at blank
    have visible := List.rdropWhile_last_not List.isEmpty _ left
    rw [List.getLast?_eq_some_getLast left, Option.some.injEq] at blank
    exact visible (List.isEmpty_iff.mpr blank)

theorem rdropWhile_append_of_blank {rows below : List (List Char)}
    (last : rows.getLast? ≠ some []) (blank : ∀ line ∈ below, line = []) :
    (rows ++ below).rdropWhile List.isEmpty = rows := by
  have visible : rows.rdropWhile List.isEmpty = rows := by
    rw [List.rdropWhile_eq_self_iff]
    intro left empty
    apply last
    rw [List.getLast?_eq_some_getLast left, List.isEmpty_iff.mp empty]
  have gone : ∀ line ∈ below.reverse, line.isEmpty = true := by
    intro line member
    exact List.isEmpty_iff.mpr (blank line (List.mem_reverse.mp member))
  calc (rows ++ below).rdropWhile List.isEmpty
    _ = ((below.reverse ++ rows.reverse).dropWhile List.isEmpty).reverse := by
        rw [List.rdropWhile, List.reverse_append]
    _ = rows.rdropWhile List.isEmpty := by rw [List.dropWhile_append_of_pos gone, List.rdropWhile]
    _ = rows := visible

/-- There is one way to leave out the blank lines above and below. -/
theorem framed_iff {source : Text.Source} {left : List (List Char)} :
    Framed (trimmed source) left ↔ left = rows source := by
  constructor
  · rintro ⟨⟨above, below, parts, blank, blankBelow⟩, first, last⟩
    have gone : ∀ line ∈ above, line.isEmpty = true :=
      fun line member => List.isEmpty_iff.mpr (blank line member)
    change left = ((trimmed source).dropWhile List.isEmpty).rdropWhile List.isEmpty
    rw [parts, List.append_assoc, List.dropWhile_append_of_pos gone]
    cases left with
    | nil =>
        have nothing : below.dropWhile List.isEmpty = [] :=
          List.dropWhile_eq_nil_iff.mpr fun line member => List.isEmpty_iff.mpr (blankBelow line member)
        rw [List.nil_append, nothing, List.rdropWhile_nil]
    | cons head rest =>
        have visible : ¬head.isEmpty = true := by
          intro empty
          exact first (by rw [List.isEmpty_iff.mp empty, List.head?_cons])
        rw [List.cons_append, List.dropWhile_cons_of_neg visible, ← List.cons_append,
          rdropWhile_append_of_blank last blankBelow]
  · rintro rfl
    exact framed_rows source

end Frame

section Checks

variable {rows : List (List Char)} {world : World}

theorem level_cons_iff {first : List Char} {rest : List (List Char)} :
    Level (first :: rest) ↔ ragged? first.length (first :: rest) = none := by
  rw [ragged?_eq_none_iff, Level, List.head?_cons]
  simp only [Option.mem_some_iff, forall_eq']

/-- A map is accepted if all its checks are passed, and only then. -/
theorem ofRows_eq_ok_iff_checks : ofRows rows = .ok world ↔
    (∃ first ∈ rows.head?, ragged? first.length rows = none ∧ world.grid = grid first.length rows) ∧
      unknown? rows = none ∧ robots rows = [world.robot] := by
  constructor
  · intro accepted
    obtain ⟨first, rest, rfl, level, floor⟩ := ofRows_eq_ok_cons accepted
    obtain ⟨glyphs, alone, _⟩ := ofRows_eq_ok accepted
    exact ⟨⟨first, rfl, level, floor⟩, glyphs, alone⟩
  · rintro ⟨⟨first, top, level, floor⟩, glyphs, alone⟩
    obtain ⟨rest, rfl⟩ := List.head?_eq_some_iff.mp top
    cases world
    cases floor
    simp only [ofRows, level, glyphs, alone]
    rfl

theorem exists_ofRows_eq_ok_iff : (∃ world, ofRows rows = .ok world) ↔ Sound rows := by
  constructor
  · rintro ⟨world, accepted⟩
    obtain ⟨⟨first, top, level, _⟩, glyphs, alone⟩ := ofRows_eq_ok_iff_checks.mp accepted
    obtain ⟨rest, rfl⟩ := List.head?_eq_some_iff.mp top
    refine ⟨List.cons_ne_nil _ _, level_cons_iff.mpr level, unknown?_eq_none_iff.mp glyphs, ?_⟩
    rw [← length_robots, alone, List.length_singleton]
  · rintro ⟨drawn, level, known, marker⟩
    obtain ⟨first, rest, rfl⟩ := List.exists_cons_of_ne_nil drawn
    rw [← length_robots, List.length_eq_one_iff] at marker
    obtain ⟨robot, alone⟩ := marker
    refine ⟨⟨grid first.length (first :: rest), robot⟩, ofRows_eq_ok_iff_checks.mpr ?_⟩
    exact ⟨⟨first, rfl, level_cons_iff.mp level, rfl⟩, unknown?_eq_none_iff.mpr known, alone⟩

end Checks

section Drawing

variable {rows : List (List Char)} {world : World}

theorem cell_grid {width x y : Nat} {glyph : Char} (stands : Stands rows glyph x y) :
    (grid width rows).cell x y = cellOf glyph := by
  obtain ⟨row, present, inside⟩ := stands
  have found : (grid width rows).cells[y]? = some (row.map cellOf) := by
    simp only [grid, List.getElem?_map, present, Option.map_some]
  rw [Grid.cell_eq found, List.getD_eq_getElem?_getD, List.getElem?_map, inside, Option.map_some,
    Option.getD_some]

theorem draws_of_ofRows (accepted : ofRows rows = .ok world) : Draws rows world := by
  obtain ⟨⟨first, top, level, floor⟩, glyphs, alone⟩ := ofRows_eq_ok_iff_checks.mp accepted
  have even := ragged?_eq_none_iff.mp level
  have only := robots_eq_singleton_iff.mp alone
  have marked : Marked rows world.robot := (only world.robot).mpr rfl
  have inside := inside_of_marked even floor marked
  have down : rows ≠ [] := by
    rintro rfl
    cases top
  refine ⟨?_, ?_, ?_, marked, ?_, ?_⟩
  · have across : 0 < first.length := by
      rw [World.Inside, floor] at inside
      exact Nat.zero_lt_of_lt inside.1
    rw [floor]
    exact wellFormed_grid_of_rows across down even
  · rw [floor, grid]
  · intro row member
    rw [floor, even row member, grid]
  · rw [floor, cell_grid marked, cellOf_marker]
  · intro x y glyph stands elsewhere
    obtain ⟨row, present, here⟩ := stands
    have accepted := known_of_unknown?_eq_none glyphs row (List.mem_of_getElem? present) glyph
      (List.mem_of_getElem? here)
    have plain : glyph ∉ markers := by
      intro marker
      obtain ⟨direction, rfl⟩ := mem_markers_iff.mp marker
      have same : (⟨x, y, direction⟩ : Pose) = world.robot := (only _).mp ⟨row, present, here⟩
      exact elsewhere (by rw [← same])
    calc (world.grid.cell x y).glyph
      _ = (cellOf glyph).glyph := by rw [floor, cell_grid ⟨row, present, here⟩]
      _ = unmarked glyph := glyph_cellOf accepted
      _ = glyph := unmarked_of_not_mem plain

theorem Draws.stands (draws : Draws rows world) {x y : Nat} (column : x < world.grid.width)
    (row : y < world.grid.height) : ∃ glyph, Stands rows glyph x y := by
  rw [draws.height] at row
  have present := List.getElem?_eq_getElem row
  rw [draws.width _ (List.getElem_mem row)] at column
  exact ⟨_, _, present, List.getElem?_eq_getElem column⟩

theorem Draws.known (draws : Draws rows world) : Known rows := by
  intro row member glyph inside
  obtain ⟨y, present⟩ := List.mem_iff_getElem?.mp member
  obtain ⟨x, here⟩ := List.mem_iff_getElem?.mp inside
  have stands : Stands rows glyph x y := ⟨row, present, here⟩
  by_cases robot : (x, y) = (world.robot.x, world.robot.y)
  · cases robot
    rw [stands.unique draws.robot]
    exact List.mem_append_right _ (mem_markers_iff.mpr ⟨_, rfl⟩)
  · rw [← draws.cell x y glyph stands robot]
    exact glyph_mem_glyphs _

/-- A marker is no cell's glyph, so the robot's marker is the only one. -/
theorem Draws.robots_eq (draws : Draws rows world) : robots rows = [world.robot] := by
  rw [robots_eq_singleton_iff]
  intro pose
  constructor
  · intro marked
    by_cases robot : (pose.x, pose.y) = (world.robot.x, world.robot.y)
    · obtain ⟨column, row⟩ := Prod.mk.inj robot
      have stands : Stands rows world.robot.direction.marker pose.x pose.y := by
        rw [column, row]
        exact draws.robot
      have direction := marker_injective (Stands.unique marked stands)
      calc pose
        _ = ⟨pose.x, pose.y, pose.direction⟩ := rfl
        _ = ⟨world.robot.x, world.robot.y, world.robot.direction⟩ := by rw [column, row, direction]
        _ = world.robot := rfl
    · exact absurd (draws.cell _ _ _ marked robot) (glyph_ne_marker _ _)
  · rintro rfl
    exact draws.robot

theorem Draws.grid_eq {width : Nat} (draws : Draws rows world)
    (even : ∀ row ∈ rows, row.length = width) (drawn : rows ≠ []) :
    world.grid = grid width rows := by
  have across : world.grid.width = width := by
    obtain ⟨first, rest, rfl⟩ := List.exists_cons_of_ne_nil drawn
    rw [draws.width first (.head _), even first (.head _)]
  have positive : 0 < width := across ▸ draws.floor.width_pos
  apply Grid.ext_cell draws.floor (wellFormed_grid_of_rows positive drawn even) across draws.height
  intro x column y row
  obtain ⟨glyph, stands⟩ := draws.stands column row
  rw [cell_grid stands]
  by_cases robot : (x, y) = (world.robot.x, world.robot.y)
  · cases robot
    rw [draws.below, stands.unique draws.robot, cellOf_marker]
  · rw [← draws.cell x y glyph stands robot, cellOf_glyph]

theorem ofRows_eq_ok_iff : ofRows rows = .ok world ↔ Draws rows world := by
  constructor
  · exact draws_of_ofRows
  · intro draws
    have drawn : rows ≠ [] := by
      rintro rfl
      exact Nat.ne_of_gt draws.floor.height_pos draws.height
    obtain ⟨first, rest, rfl⟩ := List.exists_cons_of_ne_nil drawn
    have even : ∀ row ∈ first :: rest, row.length = first.length := by
      intro row member
      rw [← draws.width row member, draws.width first (.head _)]
    apply ofRows_eq_ok_iff_checks.mpr
    refine ⟨⟨first, rfl, ragged?_eq_none_iff.mpr even, draws.grid_eq even drawn⟩, ?_, draws.robots_eq⟩
    exact unknown?_eq_none_iff.mpr draws.known

/-- The floor shows the rows again, with plain floor in the marker's place. -/
theorem Draws.rows_eq (draws : Draws rows world) :
    world.grid.rows = rows.map fun row => row.map unmarked := by
  obtain ⟨glyphs, _, width, floor⟩ := ofRows_eq_ok (ofRows_eq_ok_iff.mpr draws)
  rw [floor, rows_grid (known_of_unknown?_eq_none glyphs)]

end Drawing

section Refusal

variable {rows : List (List Char)} {error : MapError}

theorem refused_of_ofRows (refused : ofRows rows = .error error) : Refused rows error := by
  unfold ofRows at refused
  split at refused
  case h_1 =>
    cases refused
    exact .empty rfl
  case h_2 first rest =>
    have drawn : first :: rest ≠ [] := List.cons_ne_nil first rest
    split at refused
    case h_1 shape =>
      cases refused
      obtain ⟨y, row, found, uneven, before, rfl⟩ := ragged?_eq_some_iff.mp shape
      exact .ragged rfl found uneven before
    case h_2 shape signs =>
      cases refused
      obtain ⟨glyph, x, y, found, unknown, before, rfl⟩ := unknown?_eq_some_iff.mp signs
      exact .unknownGlyph drawn (level_cons_iff.mpr shape) found unknown before
    case h_3 shape signs none =>
      cases refused
      refine .noRobot drawn (level_cons_iff.mpr shape) (unknown?_eq_none_iff.mp signs) ?_
      intro glyph x y stands marker
      have listed : (x, y) ∈ positions (first :: rest) :=
        (mem_positions_iff x y).mpr ⟨glyph, marker, stands⟩
      rw [positions, none] at listed
      cases listed
    case h_4 => cases refused
    case h_5 shape signs some several =>
      cases refused
      have known := unknown?_eq_none_iff.mp signs
      refine .manyRobots drawn (level_cons_iff.mpr shape) known (pairwise_positions _)
        mem_positions_iff ?_
      rw [List.length_map]
      rcases found : robots (first :: rest) with _ | ⟨robot, _ | ⟨other, others⟩⟩
      · exact absurd found some
      · exact absurd found (several robot)
      · simp

theorem ofRows_eq_error_iff : ofRows rows = .error error ↔ Refused rows error := by
  constructor
  · exact refused_of_ofRows
  · intro refused
    cases refused with
    | empty blank =>
        rw [blank]
        rfl
    | ragged top found uneven before =>
        obtain ⟨rest, rfl⟩ := List.head?_eq_some_iff.mp top
        have shape := ragged?_eq_some_iff.mpr ⟨_, _, found, uneven, before, rfl⟩
        simp only [ofRows, shape]
    | unknownGlyph drawn level found unknown before =>
        obtain ⟨first, rest, rfl⟩ := List.exists_cons_of_ne_nil drawn
        have signs := unknown?_eq_some_iff.mpr ⟨_, _, _, found, unknown, before, rfl⟩
        simp only [ofRows, level_cons_iff.mp level, signs]
    | noRobot drawn level known bare =>
        obtain ⟨first, rest, rfl⟩ := List.exists_cons_of_ne_nil drawn
        have nowhere : positions (first :: rest) = [] := by
          apply List.eq_nil_iff_forall_not_mem.mpr
          rintro ⟨x, y⟩ listed
          obtain ⟨glyph, marker, stands⟩ := (mem_positions_iff x y).mp listed
          exact bare glyph x y stands marker
        simp only [ofRows, level_cons_iff.mp level, unknown?_eq_none_iff.mpr known,
          List.map_eq_nil_iff.mp nowhere]
    | manyRobots drawn level known ordered marked many =>
        obtain ⟨first, rest, rfl⟩ := List.exists_cons_of_ne_nil drawn
        have listed := positions_eq_iff.mpr ⟨ordered, marked⟩
        rw [← listed, positions, List.length_map] at many
        rcases found : robots (first :: rest) with _ | ⟨robot, _ | ⟨other, others⟩⟩
        · simp [found] at many
        · simp [found] at many
        · rw [positions, found] at listed
          simp only [ofRows, level_cons_iff.mp level, unknown?_eq_none_iff.mpr known, found, listed]

end Refusal

/-- A map is read exactly if it is sound, as the one world that its rows draw, and is refused
otherwise, for the first of its faults. -/
theorem accepts_exactly (source : Text.Source) :
    (∀ left, Framed (trimmed source) left ↔ left = rows source) ∧
      ((∃ world, read source = .ok world) ↔ Sound (rows source)) ∧
      (∀ world, read source = .ok world ↔ Draws (rows source) world ∧
        world.grid.rows = (rows source).map fun row => row.map unmarked) ∧
      ∀ error, read source = .error error ↔ Refused (rows source) error := by
  refine ⟨fun left => framed_iff, exists_ofRows_eq_ok_iff, ?_, fun error => ofRows_eq_error_iff⟩
  intro world
  rw [read, ofRows_eq_ok_iff]
  constructor
  · intro draws
    exact ⟨draws, draws.rows_eq⟩
  · rintro ⟨draws, _⟩
    exact draws

/-- The short row is reported, not the sign that stands above it. -/
example : ofRows [['R', '#'], ['.']] = .error (.ragged 1 1 2) := by decide

end Lamplighter.Map
