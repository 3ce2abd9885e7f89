import Lamplighter.Proofs.Json.Scalars
import Lamplighter.Proofs.Table

/-! What is written as JSON is read back.

The text is printable ASCII and line feeds, whatever strings the value holds, and the reader gives
the value that was written. Main statements: `Json.plain_write` and `Json.read?_write`. -/

namespace Lamplighter.Json

theorem skip_newline (depth : Nat) {c : Char} (solid : isSpace c = false) (rest : List Char) :
    skip (newline depth ++ c :: rest) = c :: rest := by
  have margin : ∀ blank ∈ newline depth, isSpace blank = true := by
    intro blank member
    rcases List.mem_cons.mp member with rfl | member
    · rfl
    · rw [List.eq_of_mem_replicate member]
      rfl
  rw [skip, List.dropWhile_append_of_pos margin]
  exact List.dropWhile_cons_of_neg (by simp [solid])

theorem stops_newline (depth : Nat) (rest : List Char) : Stops (newline depth ++ rest) := by
  intro c head
  cases head
  exact .inr rfl

section Series

variable {α : Type} {part? : List Char → Option (α × List Char)} {written : α → List Char}
  {depth : Nat} {closer : Char}

/-- The text of further parts, each on a line of its own. -/
def furtherChars (written : α → List Char) (depth : Nat) (parts : List α) : List Char :=
  parts.flatMap fun part => ',' :: newline depth ++ written part

/-- The text of the parts of a value with that margin, and the bracket that closes it. -/
def seriesChars (written : α → List Char) (closer : Char) (depth : Nat) (part : α)
    (parts : List α) : List Char :=
  newline (depth + 1) ++ written part ++
    (furtherChars written (depth + 1) parts ++ (newline depth ++ [closer]))

theorem furtherChars_cons (part : α) (parts : List α) :
    furtherChars written depth (part :: parts) =
      ',' :: (newline depth ++ written part ++ furtherChars written depth parts) := rfl

theorem length_le_furtherChars (written : α → List Char) (depth : Nat) (parts : List α) :
    parts.length ≤ (furtherChars written depth parts).length := by
  induction parts with
  | nil => exact Nat.le_refl _
  | cons part parts ih =>
      rw [furtherChars_cons, List.length_cons, List.length_cons, List.length_append]
      omega

theorem length_written_le {part : α} {parts : List α} (member : part ∈ parts) :
    (written part).length ≤ (furtherChars written depth parts).length := by
  induction parts with
  | nil => cases member
  | cons first parts ih =>
      rw [furtherChars_cons, List.length_cons, List.length_append, List.length_append]
      rcases List.mem_cons.mp member with rfl | later
      · omega
      · have := ih later
        omega

theorem length_written_lt (written : α → List Char) (closer : Char) (depth : Nat) {part other : α}
    {parts : List α} (member : other ∈ part :: parts) :
    (written other).length < (seriesChars written closer depth part parts).length := by
  have below : (written other).length ≤
      (written part).length + (furtherChars written (depth + 1) parts).length := by
    rcases List.mem_cons.mp member with rfl | later
    · exact Nat.le_add_right ..
    · exact Nat.le_add_left_of_le (length_written_le later)
  simp only [seriesChars, List.length_append, List.length_singleton]
  omega

theorem stops_furtherChars (written : α → List Char) (depth : Nat) (parts : List α) (outer : Nat)
    (rest : List Char) : Stops (furtherChars written depth parts ++ (newline outer ++ rest)) := by
  cases parts with
  | nil => exact stops_newline outer rest
  | cons part parts =>
      intro c head
      cases head
      exact .inl rfl

/-- Behind its margin the text of the part is read as that part. -/
def Reads (part? : List Char → Option (α × List Char)) (written : α → List Char) (depth : Nat)
    (part : α) : Prop :=
  ∀ rest, Stops rest → part? (newline depth ++ written part ++ rest) = some (part, rest)

theorem further?_written (solid : isSpace closer = false) (apart : ',' ≠ closer) {parts : List α}
    (reads : ∀ part ∈ parts, Reads part? written depth part) (outer : Nat) (rest : List Char)
    {fuel : Nat} (enough : parts.length < fuel) :
    further? part? closer fuel
        (furtherChars written depth parts ++ (newline outer ++ closer :: rest)) =
      some (parts, rest) := by
  induction parts generalizing fuel with
  | nil =>
      cases fuel with
      | zero => cases enough
      | succ fuel =>
          have skipped := skip_newline outer solid rest
          simp only [furtherChars, List.flatMap_nil, List.nil_append, further?, skipped, if_true]
  | cons part parts ih =>
      cases fuel with
      | zero => cases enough
      | succ fuel =>
          have more := ih (fun other member => reads other (.tail _ member))
            (Nat.lt_of_succ_lt_succ enough)
          have one := reads part (.head _) _
            (stops_furtherChars written depth parts outer (closer :: rest))
          rw [furtherChars_cons, List.cons_append, List.append_assoc]
          have skipped (cs : List Char) : skip (',' :: cs) = ',' :: cs := rfl
          simp only [further?, skipped, if_neg apart, if_true, one, more, Option.bind_eq_bind,
            Option.bind_some, Option.pure_def]

theorem series?_written (solid : isSpace closer = false) (apart : ',' ≠ closer) {part : α}
    {parts : List α} (reads : ∀ other ∈ part :: parts, Reads part? written (depth + 1) other)
    (opens : ∃ c more, written part = c :: more ∧ isSpace c = false ∧ c ≠ closer)
    (rest : List Char) :
    series? part? closer (seriesChars written closer depth part parts ++ rest) =
      some (part :: parts, rest) := by
  rcases opens with ⟨c, more, first, solidFirst, other⟩
  generalize behind : furtherChars written (depth + 1) parts ++ (newline depth ++ closer :: rest) =
    cs
  have whole : seriesChars written closer depth part parts ++ rest =
      newline (depth + 1) ++ written part ++ cs := by
    simp [seriesChars, ← behind]
  have skipped : skip (newline (depth + 1) ++ written part ++ cs) = c :: (more ++ cs) := by
    rw [first, List.append_assoc, List.cons_append, skip_newline (depth + 1) solidFirst]
  have stops : Stops cs := behind ▸ stops_furtherChars written (depth + 1) parts depth _
  have enough : parts.length < cs.length := by
    have long := length_le_furtherChars written (depth + 1) parts
    simp only [← behind, List.length_append, List.length_cons]
    omega
  have one := reads part (.head _) cs stops
  have others := further?_written solid apart (fun other member => reads other (.tail _ member))
    depth rest enough
  rw [behind] at others
  simp only [whole, series?, skipped, if_neg other, one, others, Option.bind_eq_bind,
    Option.bind_some, Option.pure_def]

end Series

def memberText (depth : Nat) (member : String × Json) : List Char :=
  quoted member.1 ++ ':' :: ' ' :: chars depth member.2

theorem memberText_head (depth : Nat) (member : String × Json) :
    ∃ c more, memberText depth member = c :: more ∧ isSpace c = false ∧ c ≠ '\x7d' :=
  ⟨'"', _, rfl, rfl, by decide⟩

theorem length_chars_le_memberText (depth : Nat) (member : String × Json) :
    (chars depth member.2).length ≤ (memberText depth member).length := by
  simp only [memberText, List.length_append, List.length_cons]
  omega

theorem itemChars_eq (depth : Nat) (items : List Json) :
    itemChars depth items = furtherChars (chars depth) depth items := by
  induction items with
  | nil => rw [itemChars, furtherChars, List.flatMap_nil]
  | cons item items ih => simp [itemChars, furtherChars_cons, ih]

theorem memberChars_eq (depth : Nat) (members : List (String × Json)) :
    memberChars depth members = furtherChars (memberText depth) depth members := by
  induction members with
  | nil => rw [memberChars, furtherChars, List.flatMap_nil]
  | cons member members ih =>
      rcases member with ⟨key, value⟩
      simp [memberChars, furtherChars_cons, memberText, ih]

theorem chars_array (depth : Nat) (item : Json) (items : List Json) :
    chars depth (.array (item :: items)) =
      '[' :: seriesChars (chars (depth + 1)) ']' depth item items := by
  simp [chars, itemChars_eq, seriesChars]

theorem chars_object (depth : Nat) (member : String × Json) (members : List (String × Json)) :
    chars depth (.object (member :: members)) =
      '\x7b' :: seriesChars (memberText (depth + 1)) '\x7d' depth member members := by
  rcases member with ⟨key, value⟩
  simp [chars, memberText, memberChars_eq, seriesChars]

/-- No value has a text that begins with white space or with the end of an array. -/
theorem chars_head (depth : Nat) (value : Json) :
    ∃ c more, chars depth value = c :: more ∧ isSpace c = false ∧ c ≠ ']' := by
  cases value with
  | null => exact ⟨'n', _, rfl, rfl, by decide⟩
  | bool value =>
      cases value
      case false => exact ⟨'f', _, rfl, rfl, by decide⟩
      case true => exact ⟨'t', _, rfl, rfl, by decide⟩
  | text value => exact ⟨'"', _, rfl, rfl, by decide⟩
  | number value =>
      rcases toString_head value with ⟨c, more, written, unmarked⟩
      have bracket : c ≠ ']' := (ne_of_mem_of_not_mem (by decide) unmarked).symm
      exact ⟨c, more, written, isSpace_eq_false unmarked, bracket⟩
  | array items =>
      cases items with
      | nil => exact ⟨'[', _, rfl, rfl, by decide⟩
      | cons => exact ⟨'[', _, rfl, rfl, by decide⟩
  | object members =>
      cases members with
      | nil => exact ⟨'\x7b', _, rfl, rfl, by decide⟩
      | cons => exact ⟨'\x7b', _, rfl, rfl, by decide⟩

theorem skip_of_solid {c : Char} (solid : isSpace c = false) (rest : List Char) :
    skip (c :: rest) = c :: rest := List.dropWhile_cons_of_neg (by simp [solid])

/-- A value that begins with no bracket is one without parts. -/
theorem value?_of_scalar {cs : List Char} {c : Char} {more : List Char} (first : cs = c :: more)
    (solid : isSpace c = false) (bracket : c ≠ '[') (brace : c ≠ '\x7b') (depth : Nat) :
    value? (depth + 1) cs = scalar? cs := by
  subst first
  simp only [value?, skip_of_solid solid, if_neg bracket, if_neg brace]

theorem value?_toString (value : Int) (depth : Nat) {rest : List Char} (stops : Stops rest) :
    value? (depth + 1) ((toString value).toList ++ rest) = some (.number value, rest) := by
  rcases toString_head value with ⟨c, more, written, unmarked⟩
  have bracket : c ≠ '[' := (ne_of_mem_of_not_mem (by decide) unmarked).symm
  have brace : c ≠ '\x7b' := (ne_of_mem_of_not_mem (by decide) unmarked).symm
  have first : (toString value).toList ++ rest = c :: (more ++ rest) := by
    rw [written, List.cons_append]
  rw [value?_of_scalar first (isSpace_eq_false unmarked) bracket brace depth]
  exact scalar?_toString value stops

/-- White space in front of a value does not count. -/
theorem value?_of_skip {one two : List Char} (same : skip one = skip two) (depth : Nat) :
    value? depth one = value? depth two := by
  cases depth with
  | zero => rfl
  | succ depth => rw [value?, value?, same]

/-- In every object, however deep, no two members have one key. -/
inductive Distinct : Json → Prop where
  | null : Distinct .null
  | bool (value : Bool) : Distinct (.bool value)
  | number (value : Int) : Distinct (.number value)
  | text (value : String) : Distinct (.text value)
  | array {items : List Json} (each : ∀ item ∈ items, Distinct item) : Distinct (.array items)
  | object {members : List (String × Json)} (keys : (members.map Prod.fst).Nodup)
      (each : ∀ member ∈ members, Distinct member.2) : Distinct (.object members)

theorem reads_value {depth limit : Nat} {value : Json}
    (read : ∀ rest, Stops rest → value? limit (chars depth value ++ rest) = some (value, rest)) :
    Reads (value? limit) (chars depth) depth value := by
  intro rest stops
  rcases chars_head depth value with ⟨c, more, first, solid, _⟩
  have same : skip (newline depth ++ chars depth value ++ rest) =
      skip (chars depth value ++ rest) := by
    rw [first, List.append_assoc, List.cons_append, skip_newline depth solid, skip_of_solid solid]
  rw [value?_of_skip same, read rest stops]

theorem reads_member {depth limit : Nat} {member : String × Json}
    (read : ∀ rest, Stops rest →
      value? limit (chars depth member.2 ++ rest) = some (member.2, rest)) :
    Reads (member? (value? limit)) (memberText depth) depth member := by
  intro rest stops
  rcases member with ⟨key, value⟩
  have skipped : skip (newline depth ++ memberText depth (key, value) ++ rest) =
      quoted key ++ ':' :: ' ' :: (chars depth value ++ rest) := by
    have text : newline depth ++ memberText depth (key, value) ++ rest =
        newline depth ++ '"' :: (key.toList.flatMap escape ++ ['"'] ++
          ':' :: ' ' :: (chars depth value ++ rest)) := by
      simp [memberText, quoted]
    rw [text, skip_newline depth (by rfl)]
    simp [quoted]
  have spaced : value? limit (' ' :: (chars depth value ++ rest)) = some (value, rest) := by
    have blank : skip (' ' :: (chars depth value ++ rest)) = skip (chars depth value ++ rest) := rfl
    rw [value?_of_skip blank, read rest stops]
  have colon (cs : List Char) : skip (':' :: cs) = ':' :: cs := rfl
  simp only [member?, skipped, text?_quoted, Option.bind_eq_bind, Option.bind_some, colon, spaced,
    Option.pure_def]

theorem value?_array (limit : Nat) (rest : List Char) :
    value? (limit + 1) ('[' :: rest) =
      (series? (value? limit) ']' rest).map fun (items, rest) => (.array items, rest) := rfl

theorem value?_object (limit : Nat) (rest : List Char) :
    value? (limit + 1) ('\x7b' :: rest) =
      (series? (member? (value? limit)) '\x7d' rest).map fun (members, rest) =>
        (.object (Table.ofList members).entries, rest) := rfl

/-- By induction on the value. A text is longer than those of the parts of its value, so its
length bounds how deep they are nested. -/
theorem value?_chars {value : Json} (distinct : value.Distinct) {depth limit : Nat}
    (enough : (chars depth value).length ≤ limit) {rest : List Char} (stops : Stops rest) :
    value? (limit + 1) (chars depth value ++ rest) = some (value, rest) := by
  induction distinct generalizing depth limit rest with
  | null => exact value?_of_scalar rfl rfl (by decide) (by decide) limit
  | bool value =>
      cases value
      case false => exact value?_of_scalar rfl rfl (by decide) (by decide) limit
      case true => exact value?_of_scalar rfl rfl (by decide) (by decide) limit
  | text value =>
      rw [value?_of_scalar (by rfl) rfl (by decide) (by decide) limit]
      exact scalar?_quoted value rest
  | number value => exact value?_toString value limit stops
  | @array items each ih =>
      cases items with
      | nil => rfl
      | cons item items =>
          rw [chars_array, List.length_cons] at enough
          cases limit with
          | zero => cases enough
          | succ limit =>
              have reads : ∀ other ∈ item :: items,
                  Reads (value? (limit + 1)) (chars (depth + 1)) (depth + 1) other := by
                intro other member
                have longer := length_written_lt (chars (depth + 1)) ']' depth member
                exact reads_value fun rest stops => ih other member (by omega) stops
              have opens := chars_head (depth + 1) item
              rw [chars_array, List.cons_append, value?_array,
                series?_written rfl (by decide) reads opens, Option.map_some]
  | @object members keys each ih =>
      cases members with
      | nil => rfl
      | cons member members =>
          rw [chars_object, List.length_cons] at enough
          cases limit with
          | zero => cases enough
          | succ limit =>
              have reads : ∀ other ∈ member :: members, Reads (member? (value? (limit + 1)))
                  (memberText (depth + 1)) (depth + 1) other := by
                intro other among
                have longer := length_written_lt (memberText (depth + 1)) '\x7d' depth among
                have within := length_chars_le_memberText (depth + 1) other
                exact reads_member fun rest stops => ih other among (by omega) stops
              have opens := memberText_head (depth + 1) member
              rw [chars_object, List.cons_append, value?_object,
                series?_written rfl (by decide) reads opens, Option.map_some]
              simp only [Table.entries_ofList keys]

/-- Of a value whose objects have members of different keys, the text is read as that value. -/
theorem read?_write {value : Json} (distinct : value.Distinct) :
    read? value.write = some value := by
  have stops : Stops [] := by
    intro c head
    cases head
  have read := value?_chars distinct (Nat.le_refl (chars 0 value).length) stops
  rw [List.append_nil] at read
  rw [read?, write, String.toList_ofList, read]
  rfl

/-- Text in another layout is read too. -/
example : read? " [\"\\uD83D\\ude00\\/\" ,\t-1 ]\r\n" =
    some (.array [.text "😀/", .number (-1)]) := by rfl

theorem plain_newline (depth : Nat) : Plain (newline depth) := by
  have margin : Plain (List.replicate (2 * depth) ' ') := by
    intro c member
    rw [List.eq_of_mem_replicate member]
    exact .inr ⟨by decide, by decide⟩
  exact (by decide : Plain ['\n']).append margin

theorem plain_furtherChars {α : Type} {written : α → List Char} {parts : List α}
    (plain : ∀ part ∈ parts, Plain (written part)) (depth : Nat) :
    Plain (furtherChars written depth parts) := by
  induction parts with
  | nil => exact (by decide : Plain [])
  | cons part parts ih =>
      have first := (plain_newline depth).append (plain part (.head _))
      have others := ih fun other member => plain other (.tail _ member)
      exact (by decide : Plain [',']).append (first.append others)

theorem plain_seriesChars {α : Type} {written : α → List Char} {closer : Char} {part : α}
    {parts : List α} (plain : ∀ other ∈ part :: parts, Plain (written other))
    (closes : Plain [closer]) (depth : Nat) :
    Plain (seriesChars written closer depth part parts) := by
  have first := (plain_newline (depth + 1)).append (plain part (.head _))
  have others := plain_furtherChars (fun other member => plain other (.tail _ member)) (depth + 1)
  exact first.append (others.append ((plain_newline depth).append closes))

theorem plain_chars (depth : Nat) (value : Json) : Plain (chars depth value) := by
  match value with
  | .null => exact (by decide : Plain ['n', 'u', 'l', 'l'])
  | .bool true => exact (by decide : Plain ['t', 'r', 'u', 'e'])
  | .bool false => exact (by decide : Plain ['f', 'a', 'l', 's', 'e'])
  | .text value => exact plain_quoted value
  | .number value => exact plain_toString value
  | .array [] => exact (by decide : Plain ['[', ']'])
  | .array (item :: items) =>
      rw [chars_array]
      have each : ∀ other ∈ item :: items, Plain (chars (depth + 1) other) :=
        fun other member => plain_chars (depth + 1) other
      exact (by decide : Plain ['[']).append (plain_seriesChars each (by decide) depth)
  | .object [] => exact (by decide : Plain ['\x7b', '\x7d'])
  | .object (member :: members) =>
      rw [chars_object]
      have each : ∀ other ∈ member :: members, Plain (memberText (depth + 1) other) := by
        intro other among
        have value : Plain (':' :: ' ' :: chars (depth + 1) other.2) :=
          (by decide : Plain [':', ' ']).append (plain_chars (depth + 1) other.2)
        exact (plain_quoted other.1).append value
      exact (by decide : Plain ['\x7b']).append (plain_seriesChars each (by decide) depth)
termination_by sizeOf value
decreasing_by
  · have smaller := List.sizeOf_lt_of_mem member
    simp only [Json.array.sizeOf_spec]
    omega
  · have smaller := List.sizeOf_lt_of_mem among
    have part : sizeOf other.2 < sizeOf other := by
      rcases other with ⟨key, inner⟩
      simp only [Prod.mk.sizeOf_spec]
      omega
    simp only [Json.object.sizeOf_spec]
    omega

theorem plain_write (value : Json) : Plain value.write.toList := by
  rw [write, String.toList_ofList]
  exact plain_chars 0 value

end Lamplighter.Json
