import Mathlib.Data.List.DropRight
import Lamplighter.Proofs.World.Floor
import Lamplighter.Proofs.World.MapRows

/-! The floor of an accepted map.

Its rows are of one length, there is at least one and it is not blank, and the robot
stands where its marker was. Main statement: `valid_of_read`. -/

namespace Lamplighter.Map

/-- Blank rows around the map are gone, so the first row that is left shows something. -/
theorem head_rows_ne_nil {source : Text.Source} {first : List Char} {rest : List (List Char)}
    (left : rows source = first :: rest) : first ≠ [] := by
  let trimmed := source.lines.map fun line => Text.trim line.toList
  have inner : first :: rest <+: trimmed.dropWhile List.isEmpty := by
    rw [← left]
    exact List.rdropWhile_prefix List.isEmpty _
  obtain ⟨blank, parts⟩ := inner
  have visible := List.head?_dropWhile_not List.isEmpty trimmed
  rw [← parts, List.cons_append, List.head?_cons] at visible
  rintro rfl
  simp at visible

theorem length_row_of_ragged? {width : Nat} {rows : List (List Char)}
    (even : ragged? width rows = none) : ∀ row ∈ rows, row.length = width := by
  rw [ragged?, Option.map_eq_none_iff, List.find?_eq_none] at even
  intro row member
  obtain ⟨y, present⟩ := List.mem_iff_getElem?.mp member
  have same := even (row, y) (List.mem_zipIdx_iff_getElem?.mpr present)
  simpa using same

theorem ofRows_eq_ok_cons {rows : List (List Char)} {world : World}
    (accepted : ofRows rows = .ok world) :
    ∃ first rest, rows = first :: rest ∧ ragged? first.length rows = none ∧
      world.grid = grid first.length rows := by
  unfold ofRows at accepted
  split at accepted
  · cases accepted
  case h_2 first rest =>
    split at accepted
    case h_4 even _ _ =>
      cases accepted
      exact ⟨first, rest, rfl, even, rfl⟩
    all_goals cases accepted

theorem wellFormed_grid_of_rows {width : Nat} {rows : List (List Char)} (across : 0 < width)
    (down : rows ≠ []) (even : ∀ row ∈ rows, row.length = width) :
    (grid width rows).WellFormed where
  width_pos := across
  height_pos := List.length_pos_iff.mpr down
  length_cells := List.length_map _
  length_row := by
    intro row member
    obtain ⟨glyphs, present, rfl⟩ := List.mem_map.mp member
    rw [List.length_map, even glyphs present]
    rfl

theorem inside_of_marked {width : Nat} {rows : List (List Char)} {world : World}
    (even : ∀ row ∈ rows, row.length = width) (floor : world.grid = grid width rows)
    (marked : Marked rows world.robot) : world.Inside := by
  obtain ⟨row, present, here⟩ := marked
  have column := (List.getElem?_eq_some_iff.mp here).1
  have down := (List.getElem?_eq_some_iff.mp present).1
  rw [even row (List.mem_of_getElem? present)] at column
  rw [World.Inside, floor]
  exact ⟨column, down⟩

theorem valid_of_read {source : Text.Source} {world : World} (accepted : read source = .ok world) :
    world.Valid := by
  obtain ⟨first, rest, left, level, floor⟩ := ofRows_eq_ok_cons accepted
  have even := length_row_of_ragged? level
  have across : 0 < first.length := List.length_pos_iff.mpr (head_rows_ne_nil left)
  have down : rows source ≠ [] := by
    rw [left]
    exact List.cons_ne_nil first rest
  constructor
  · rw [floor]
    exact wellFormed_grid_of_rows across down even
  · have marked := ((shows_of_read accepted).robot world.robot).mpr rfl
    exact inside_of_marked even floor marked

end Lamplighter.Map
