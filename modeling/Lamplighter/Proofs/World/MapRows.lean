import Mathlib.Data.List.Basic
import Lamplighter.World.Map

/-! The rows of an accepted map, and the world that is made of them.

The floor shows the rows again, with plain floor under the marker, and the robot
stands where the one marker was. Main statement: `shows_of_read`. -/

namespace Lamplighter

theorem Direction.ofMarker?_eq_some_iff (glyph : Char) (direction : Direction) :
    ofMarker? glyph = some direction ↔ glyph = direction.marker := by
  constructor
  · intro found
    have same := List.find?_some found
    exact (of_decide_eq_true same).symm
  · rintro rfl
    exact ofMarker?_marker direction

theorem Cell.glyph_of_ofGlyph? {glyph : Char} {cell : Cell} (found : ofGlyph? glyph = some cell) :
    cell.glyph = glyph := by
  have same := List.find?_some found
  exact of_decide_eq_true same

namespace Map

/-- A marker of this pose stands in the rows. -/
def Marked (rows : List (List Char)) (pose : Pose) : Prop :=
  ∃ row, rows[pose.y]? = some row ∧ row[pose.x]? = some pose.direction.marker

/-- A marker hides plain floor. -/
def unmarked (glyph : Char) : Char := if (Direction.ofMarker? glyph).isSome then '.' else glyph

/-- The world that rows of glyphs stand for. -/
structure Shows (rows : List (List Char)) (world : World) : Prop where
  floor : world.rows = rows.map fun row => String.ofList (row.map unmarked)
  robot : ∀ pose, Marked rows pose ↔ pose = world.robot

theorem mem_places_iff (rows : List (List Char)) (glyph : Char) (x y : Nat) :
    (glyph, x, y) ∈ places rows ↔ ∃ row, rows[y]? = some row ∧ row[x]? = some glyph := by
  simp only [places, List.mem_flatMap, List.mem_map, Prod.exists, List.mem_zipIdx_iff_getElem?]
  constructor
  · rintro ⟨row, m, present, c, n, inside, same⟩
    cases same
    exact ⟨row, present, inside⟩
  · rintro ⟨row, present, inside⟩
    exact ⟨row, y, present, glyph, x, inside, rfl⟩

theorem mem_robots_iff (rows : List (List Char)) (pose : Pose) :
    pose ∈ robots rows ↔ Marked rows pose := by
  simp only [robots, List.mem_filterMap, Prod.exists, Option.map_eq_some_iff]
  constructor
  · rintro ⟨glyph, x, y, member, direction, found, rfl⟩
    have marker := (Direction.ofMarker?_eq_some_iff glyph direction).mp found
    subst marker
    exact (mem_places_iff rows _ x y).mp member
  · intro marked
    exact ⟨_, pose.x, pose.y, (mem_places_iff rows _ _ _).mpr marked, pose.direction,
      Direction.ofMarker?_marker pose.direction, rfl⟩

theorem glyph_cellOf {glyph : Char} (accepted : known glyph = true) :
    (cellOf glyph).glyph = unmarked glyph := by
  cases marker : Direction.ofMarker? glyph with
  | some direction =>
      have same := (Direction.ofMarker?_eq_some_iff glyph direction).mp marker
      subst same
      cases direction <;> decide
  | none =>
      have present : (Cell.ofGlyph? glyph).isSome = true := by
        simpa [known, marker] using accepted
      obtain ⟨cell, found⟩ := Option.isSome_iff_exists.mp present
      have plain : unmarked glyph = glyph := by simp [unmarked, marker]
      rw [cellOf, found, Option.getD_some, plain, Cell.glyph_of_ofGlyph? found]

theorem known_of_unknown?_eq_none {rows : List (List Char)} (accepted : unknown? rows = none) :
    ∀ row ∈ rows, ∀ glyph ∈ row, known glyph = true := by
  rw [unknown?, Option.map_eq_none_iff, List.find?_eq_none] at accepted
  intro row member glyph inside
  obtain ⟨y, present⟩ := List.mem_iff_getElem?.mp member
  obtain ⟨x, here⟩ := List.mem_iff_getElem?.mp inside
  have found := accepted _ ((mem_places_iff rows glyph x y).mpr ⟨row, present, here⟩)
  simpa using found

theorem rows_grid {width : Nat} {rows : List (List Char)}
    (accepted : ∀ row ∈ rows, ∀ glyph ∈ row, known glyph = true) :
    (grid width rows).rows = rows.map fun row => row.map unmarked := by
  simp only [grid, Grid.rows, List.map_map]
  apply List.map_congr_left
  intro row member
  simp only [Function.comp_apply, List.map_map]
  apply List.map_congr_left
  intro glyph inside
  exact glyph_cellOf (accepted row member glyph inside)

/-- What the checks of a map leave to be its world. -/
theorem ofRows_eq_ok {rows : List (List Char)} {world : World} (accepted : ofRows rows = .ok world) :
    unknown? rows = none ∧ robots rows = [world.robot] ∧ ∃ width, world.grid = grid width rows := by
  unfold ofRows at accepted
  split at accepted
  · cases accepted
  case h_2 first rest =>
    split at accepted
    case h_4 robot _ glyphs alone =>
      cases accepted
      exact ⟨glyphs, alone, first.length, rfl⟩
    all_goals cases accepted

theorem shows_of_read {source : Text.Source} {world : World} (accepted : read source = .ok world) :
    Shows (rows source) world := by
  obtain ⟨glyphs, alone, width, floor⟩ := ofRows_eq_ok accepted
  constructor
  · rw [World.rows, floor, rows_grid (known_of_unknown?_eq_none glyphs), List.map_map]
    rfl
  · intro pose
    rw [← mem_robots_iff, alone, List.mem_singleton]

end Map
end Lamplighter
