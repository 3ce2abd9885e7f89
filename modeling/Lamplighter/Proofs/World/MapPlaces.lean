import Mathlib.Data.List.Sort
import Lamplighter.Proofs.World.MapFloor

/-! The glyphs of a map, place by place.

They are looked at row by row from the top and from the left within a row, so a fault that
is found is the one that no other comes before. Main statements: `ragged?_eq_some_iff`,
`unknown?_eq_some_iff` and `positions_eq_iff`. -/

namespace Lamplighter.Map

def markers : List Char := ['R', 'D', 'L', 'U']

/-- Every sign that a map may hold. -/
def glyphs : List Char := ['.', 'O', 'X', 'x'] ++ markers

section Signs

theorem mem_markers_iff {glyph : Char} :
    glyph ∈ markers ↔ ∃ direction : Direction, glyph = direction.marker := by
  constructor
  · intro member
    have sign : glyph ∈ Direction.all.map Direction.marker := member
    obtain ⟨direction, _, same⟩ := List.mem_map.mp sign
    exact ⟨direction, same.symm⟩
  · rintro ⟨direction, rfl⟩
    cases direction <;> decide

theorem marker_injective {one two : Direction} (same : one.marker = two.marker) : one = two := by
  rw [← Option.some.injEq, ← Direction.ofMarker?_marker, same, Direction.ofMarker?_marker]

theorem glyph_ne_marker (cell : Cell) (direction : Direction) : cell.glyph ≠ direction.marker := by
  cases cell <;> cases direction <;> decide

theorem isSome_ofMarker?_iff {glyph : Char} :
    (Direction.ofMarker? glyph).isSome = true ↔ glyph ∈ markers := by
  simp only [Option.isSome_iff_exists, Direction.ofMarker?_eq_some_iff, mem_markers_iff]

theorem unmarked_of_not_mem {glyph : Char} (plain : glyph ∉ markers) : unmarked glyph = glyph := by
  rw [unmarked, if_neg (mt isSome_ofMarker?_iff.mp plain)]

theorem isSome_ofGlyph?_iff {glyph : Char} :
    (Cell.ofGlyph? glyph).isSome = true ↔ ∃ cell : Cell, glyph = cell.glyph := by
  rw [Option.isSome_iff_exists]
  constructor
  · rintro ⟨cell, found⟩
    exact ⟨cell, (Cell.glyph_of_ofGlyph? found).symm⟩
  · rintro ⟨cell, rfl⟩
    exact ⟨cell, Cell.ofGlyph?_glyph cell⟩

theorem glyph_mem_glyphs (cell : Cell) : cell.glyph ∈ glyphs := by
  cases cell <;> decide

theorem known_iff {glyph : Char} : known glyph = true ↔ glyph ∈ glyphs := by
  rw [known, Bool.or_eq_true, isSome_ofMarker?_iff, isSome_ofGlyph?_iff, glyphs, List.mem_append]
  apply or_congr_left
  constructor
  · rintro ⟨cell, rfl⟩
    cases cell <;> decide
  · intro member
    have sign : glyph ∈ Cell.all.map Cell.glyph := member
    obtain ⟨cell, _, same⟩ := List.mem_map.mp sign
    exact ⟨cell, same.symm⟩

theorem cellOf_marker (direction : Direction) : cellOf direction.marker = .empty := by
  cases direction <;> decide

theorem cellOf_glyph (cell : Cell) : cellOf cell.glyph = cell := by
  rw [cellOf, Cell.ofGlyph?_glyph, Option.getD_some]

end Signs

/-- The glyph stands in this column and row. -/
def Stands (rows : List (List Char)) (glyph : Char) (x y : Nat) : Prop :=
  ∃ row, rows[y]? = some row ∧ row[x]? = some glyph

theorem Stands.unique {rows : List (List Char)} {one two : Char} {x y : Nat}
    (first : Stands rows one x y) (second : Stands rows two x y) : one = two := by
  obtain ⟨row, present, here⟩ := first
  obtain ⟨other, found, there⟩ := second
  cases present.symm.trans found
  exact Option.some.inj (here.symm.trans there)

/-- Row by row from the top, and from the left within a row. The column is given first. -/
def Precedes (one two : Nat × Nat) : Prop :=
  one.2 < two.2 ∨ one.2 = two.2 ∧ one.1 < two.1

theorem Precedes.asymm {one two : Nat × Nat} (earlier : Precedes one two) : ¬Precedes two one := by
  unfold Precedes at *
  omega

instance : Std.Irrefl Precedes := ⟨fun _ same => same.asymm same⟩

instance : Std.Antisymm Precedes := ⟨fun _ _ one two => absurd two one.asymm⟩

/-- In a list that is in order, the first item of a kind is the one that no other comes before. -/
theorem find?_eq_some_iff_first {α : Type} {before : α → α → Prop} {items : List α}
    {kind : α → Bool} {item : α} (ordered : items.Pairwise before)
    (asymm : ∀ one two, before one two → ¬before two one) :
    items.find? kind = some item ↔
      kind item = true ∧ item ∈ items ∧ ∀ other ∈ items, before other item → kind other = false := by
  rw [List.find?_eq_some_iff_append]
  constructor
  · rintro ⟨holds, front, rest, rfl, fails⟩
    obtain ⟨_, ordered, _⟩ := List.pairwise_append.mp ordered
    refine ⟨holds, List.mem_append_right _ (.head _), ?_⟩
    intro other member earlier
    rcases List.mem_append.mp member with inFront | later
    · simpa using fails other inFront
    · rcases List.mem_cons.mp later with rfl | behind
      · exact absurd earlier (asymm _ _ earlier)
      · exact absurd earlier (asymm _ _ ((List.pairwise_cons.mp ordered).1 other behind))
  · rintro ⟨holds, member, fails⟩
    obtain ⟨front, rest, rfl⟩ := List.append_of_mem member
    obtain ⟨_, _, across⟩ := List.pairwise_append.mp ordered
    refine ⟨holds, front, rest, rfl, ?_⟩
    intro other inFront
    have earlier : before other item := across other inFront item (.head _)
    simpa using fails other (List.mem_append_left _ inFront) earlier

theorem pairwise_zipIdx {α : Type} (items : List α) :
    items.zipIdx.Pairwise fun one two => one.2 < two.2 := by
  have indices : (items.zipIdx.map Prod.snd).Pairwise (· < ·) := by
    rw [List.zipIdx_map_snd]
    exact List.pairwise_lt_range' 1
  exact List.pairwise_map.mp indices

theorem pairwise_places (rows : List (List Char)) :
    (places rows).Pairwise fun one two => Precedes one.2 two.2 := by
  rw [places, List.pairwise_flatMap]
  constructor
  · rintro ⟨row, y⟩ _
    rw [List.pairwise_map]
    exact (pairwise_zipIdx row).imp fun ahead => .inr ⟨rfl, ahead⟩
  · apply (pairwise_zipIdx rows).imp
    intro upper lower above one first two second
    obtain ⟨_, _, rfl⟩ := List.mem_map.mp first
    obtain ⟨_, _, rfl⟩ := List.mem_map.mp second
    exact .inl above

theorem map_fst_places (rows : List (List Char)) : (places rows).map Prod.fst = rows.flatten := by
  have row (entry : List Char × Nat) :
      (entry.1.zipIdx.map fun place => (place.1, place.2, entry.2)).map Prod.fst = entry.1 := by
    rw [List.map_map]
    exact List.zipIdx_map_fst 0 entry.1
  calc (places rows).map Prod.fst
    _ = (rows.zipIdx.map fun entry => entry.1).flatten := by
        simp only [places, List.flatMap, List.map_flatten, List.map_map, Function.comp_def, row]
    _ = rows.flatten := by rw [List.zipIdx_map_fst]

section Length

variable {width : Nat} {rows : List (List Char)} {error : MapError}

theorem ragged?_eq_none_iff : ragged? width rows = none ↔ ∀ row ∈ rows, row.length = width := by
  constructor
  · exact length_row_of_ragged?
  · intro even
    rw [ragged?, Option.map_eq_none_iff, List.find?_eq_none]
    rintro ⟨row, y⟩ member
    simpa using even row (List.fst_mem_of_mem_zipIdx member)

theorem ragged?_eq_some_iff :
    ragged? width rows = some error ↔
      ∃ y row, rows[y]? = some row ∧ row.length ≠ width ∧
        (∀ above < y, ∀ other, rows[above]? = some other → other.length = width) ∧
        error = .ragged y row.length width := by
  simp only [ragged?, Option.map_eq_some_iff, Prod.exists, List.mem_zipIdx_iff_getElem?,
    find?_eq_some_iff_first (pairwise_zipIdx rows) fun _ _ => Nat.lt_asymm]
  constructor
  · rintro ⟨row, y, ⟨uneven, found, before⟩, rfl⟩
    refine ⟨y, row, found, by simpa using uneven, ?_, rfl⟩
    intro above earlier other present
    simpa using before (other, above) present earlier
  · rintro ⟨y, row, found, uneven, before, rfl⟩
    refine ⟨row, y, ⟨by simpa using uneven, found, ?_⟩, rfl⟩
    rintro ⟨other, above⟩ present earlier
    simpa using before above earlier other present

end Length

section Glyphs

variable {rows : List (List Char)} {error : MapError}

theorem unknown?_eq_none_iff : unknown? rows = none ↔ ∀ row ∈ rows, ∀ glyph ∈ row, glyph ∈ glyphs := by
  simp only [← known_iff]
  constructor
  · exact known_of_unknown?_eq_none
  · intro accepted
    rw [unknown?, Option.map_eq_none_iff, List.find?_eq_none]
    rintro ⟨glyph, x, y⟩ member
    obtain ⟨row, present, inside⟩ := (mem_places_iff rows glyph x y).mp member
    simp [accepted row (List.mem_of_getElem? present) glyph (List.mem_of_getElem? inside)]

theorem unknown?_eq_some_iff :
    unknown? rows = some error ↔
      ∃ glyph x y, Stands rows glyph x y ∧ glyph ∉ glyphs ∧
        (∀ other i j, Stands rows other i j → Precedes (i, j) (x, y) → other ∈ glyphs) ∧
        error = .unknownGlyph glyph x y := by
  simp only [unknown?, Option.map_eq_some_iff, Prod.exists, mem_places_iff, ← known_iff,
    find?_eq_some_iff_first (pairwise_places rows) fun _ _ => Precedes.asymm]
  constructor
  · rintro ⟨glyph, x, y, ⟨unknown, found, before⟩, rfl⟩
    refine ⟨glyph, x, y, found, by simpa using unknown, ?_, rfl⟩
    intro other i j present earlier
    simpa using before (other, i, j) ((mem_places_iff rows other i j).mpr present) earlier
  · rintro ⟨glyph, x, y, found, unknown, before, rfl⟩
    refine ⟨glyph, x, y, ⟨by simpa using unknown, found, ?_⟩, rfl⟩
    rintro ⟨other, i, j⟩ present earlier
    simpa using before other i j ((mem_places_iff rows other i j).mp present) earlier

end Glyphs

section Robots

variable {rows : List (List Char)}

/-- Where the markers stand, row by row from the top. -/
def positions (rows : List (List Char)) : List (Nat × Nat) :=
  (robots rows).map fun robot => (robot.x, robot.y)

theorem pairwise_positions (rows : List (List Char)) : (positions rows).Pairwise Precedes := by
  rw [positions, List.pairwise_map, robots, List.pairwise_filterMap]
  apply (pairwise_places rows).imp
  rintro ⟨_, x, y⟩ ⟨_, i, j⟩ earlier one first two second
  obtain ⟨_, _, rfl⟩ := Option.map_eq_some_iff.mp first
  obtain ⟨_, _, rfl⟩ := Option.map_eq_some_iff.mp second
  exact earlier

theorem mem_positions_iff (x y : Nat) :
    (x, y) ∈ positions rows ↔ ∃ glyph ∈ markers, Stands rows glyph x y := by
  simp only [positions, List.mem_map, mem_robots_iff, Prod.mk.injEq, mem_markers_iff]
  constructor
  · rintro ⟨pose, marked, rfl, rfl⟩
    exact ⟨_, ⟨pose.direction, rfl⟩, marked⟩
  · rintro ⟨_, ⟨direction, rfl⟩, found⟩
    exact ⟨⟨x, y, direction⟩, found, rfl, rfl⟩

/-- A list of places that holds those of the markers in their order is the one that is made. -/
theorem positions_eq_iff {listed : List (Nat × Nat)} :
    positions rows = listed ↔ listed.Pairwise Precedes ∧
      ∀ x y, (x, y) ∈ listed ↔ ∃ glyph ∈ markers, Stands rows glyph x y := by
  constructor
  · rintro rfl
    exact ⟨pairwise_positions rows, mem_positions_iff⟩
  · rintro ⟨ordered, present⟩
    apply (pairwise_positions rows).eq_of_mem_iff ordered
    rintro ⟨x, y⟩
    rw [mem_positions_iff, present]

theorem length_robots (rows : List (List Char)) :
    (robots rows).length = rows.flatten.countP fun glyph => glyph ∈ markers := by
  rw [robots, List.length_filterMap_eq_countP, ← map_fst_places, List.countP_map]
  apply List.countP_congr
  intro place _
  rw [Option.isSome_map, isSome_ofMarker?_iff, Function.comp_apply, decide_eq_true_iff]

theorem robots_eq_singleton_iff {robot : Pose} :
    robots rows = [robot] ↔ ∀ pose, Marked rows pose ↔ pose = robot := by
  simp only [← mem_robots_iff]
  constructor
  · intro alone pose
    rw [alone, List.mem_singleton]
  · intro only
    have ordered := pairwise_positions rows
    rw [positions, List.pairwise_map] at ordered
    cases found : robots rows with
    | nil => simpa [found] using (only robot).mpr rfl
    | cons first rest =>
        have same : first = robot := (only first).mp (by simp [found])
        cases rest with
        | nil => rw [same]
        | cons second rest =>
            have other : second = robot := (only second).mp (by simp [found])
            rw [found, same, other] at ordered
            exact absurd ((List.pairwise_cons.mp ordered).1 robot (.head _)) (Std.Irrefl.irrefl _)

end Robots
end Lamplighter.Map
