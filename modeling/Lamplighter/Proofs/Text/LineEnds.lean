import Lamplighter.Proofs.Text.Trimmed
import Lamplighter.Proofs.World.MapReading

/-! Lines and what ends them.

A text is nothing but its lines, each with its terminator behind it, and there is one way only to
cut it into these. Two lines that are joined fall apart again, unless what was put between them
makes one terminator with what follows. Main statement: `lines_undo_joining`. -/

namespace Lamplighter

namespace Text

/-- The eleven ends that a line can have. -/
def terminators : List (List Char) := ['\r', '\n'] :: breaks.map fun c => [c]

/-- A line with what ends it in the text. -/
structure Ended where
  line : List Char
  stop : List Char
  deriving DecidableEq

def joined (parts : List Ended) : List Char := parts.flatMap fun part => part.line ++ part.stop

/-- Only the last line may lack a terminator, and then it is not empty. What may not follow a
carriage return is a line feed of its own, as the two would be one terminator. -/
inductive WellEnded : List Ended → Prop where
  | nil : WellEnded []
  | unended {line : List Char} (unbroken : Unbroken line) (visible : line ≠ []) :
      WellEnded [⟨line, []⟩]
  | cons {line stop : List Char} {rest : List Ended} (unbroken : Unbroken line)
      (ends : stop ∈ terminators)
      (apart : stop = ['\r'] → rest.head? ≠ some ⟨[], ['\n']⟩) (others : WellEnded rest) :
      WellEnded (⟨line, stop⟩ :: rest)

/-- Puts a character in front of the first line. -/
def extend (c : Char) : List Ended → List Ended
  | [] => [⟨[c], []⟩]
  | part :: parts => { part with line := c :: part.line } :: parts

/-- Cuts a text behind its terminators and keeps them. -/
def cut : List Char → List Ended
  | [] => []
  | '\r' :: '\n' :: rest => ⟨[], ['\r', '\n']⟩ :: cut rest
  | c :: rest => if isBreak c then ⟨[], [c]⟩ :: cut rest else extend c (cut rest)

/-- The terminators of a text, in their order. -/
def stops (text : String) : List (List Char) := (cut text.toList).map Ended.stop

theorem cut_break {c : Char} {rest : List Char} (ends : isBreak c = true)
    (apart : c = '\r' → rest.head? ≠ some '\n') : cut (c :: rest) = ⟨[], [c]⟩ :: cut rest := by
  rw [cut, if_pos ends]
  intro after first same
  apply apart first
  rw [same, List.head?_cons]

theorem cut_cons {c : Char} (inside : isBreak c = false) (rest : List Char) :
    cut (c :: rest) = extend c (cut rest) := by
  rw [cut, if_neg (by simp [inside])]
  intro after same
  rw [same] at inside
  exact absurd inside (by decide)

/-- Along a text, one terminator or one character of a line at a time. -/
theorem cut_induct {motive : List Char → Prop} (nil : motive [])
    (both : ∀ rest, motive rest → motive ('\r' :: '\n' :: rest))
    (ends : ∀ c rest, isBreak c = true → (c = '\r' → rest.head? ≠ some '\n') → motive rest →
      motive (c :: rest))
    (inside : ∀ c rest, isBreak c = false → motive rest → motive (c :: rest)) (cs : List Char) :
    motive cs := by
  induction cs using cut.induct with
  | case1 => exact nil
  | case2 rest ih => exact both rest ih
  | case3 c rest apart breaks ih =>
      refine ends c rest breaks ?_ ih
      intro same first
      rcases List.head?_eq_some_iff.mp first with ⟨after, parts⟩
      exact apart after same parts
  | case4 c rest _ plain ih => exact inside c rest (by simpa using plain) ih

theorem joined_extend (c : Char) (parts : List Ended) :
    joined (extend c parts) = c :: joined parts := by
  cases parts <;> simp [extend, joined]

theorem joined_cut (cs : List Char) : joined (cut cs) = cs := by
  induction cs using cut_induct with
  | nil => rfl
  | both rest ih => exact congrArg (fun text => '\r' :: '\n' :: text) ih
  | ends c rest breaks apart ih =>
      rw [cut_break breaks apart]
      exact congrArg (List.cons c) ih
  | inside c rest plain ih => rw [cut_cons plain, joined_extend, ih]

theorem map_line_cut (cs : List Char) : (cut cs).map Ended.line = splitLines cs := by
  induction cs using cut_induct with
  | nil => rfl
  | both rest ih => exact congrArg (List.cons []) ih
  | ends c rest breaks apart ih =>
      rw [cut_break breaks apart, List.map_cons, ih, splitLines, if_pos breaks]
      intro after first same
      apply apart first
      rw [same, List.head?_cons]
  | inside c rest plain ih =>
      rw [cut_cons plain, splitLines, if_neg (by simp [plain]), ← ih]
      · cases cut rest <;> rfl
      · intro after same
        rw [same] at plain
        exact absurd plain (by decide)

theorem WellEnded.extend {c : Char} (inside : isBreak c = false) {parts : List Ended}
    (ended : WellEnded parts) : WellEnded (extend c parts) := by
  cases ended with
  | nil => exact .unended (by simpa [Unbroken] using inside) (List.cons_ne_nil c [])
  | unended unbroken =>
      exact .unended (List.forall_mem_cons.mpr ⟨inside, unbroken⟩) (List.cons_ne_nil c _)
  | cons unbroken ends apart others =>
      exact .cons (List.forall_mem_cons.mpr ⟨inside, unbroken⟩) ends apart others

theorem mem_terminators_of_isBreak {c : Char} (ends : isBreak c = true) : [c] ∈ terminators :=
  .tail _ (List.mem_map.mpr ⟨c, List.contains_iff_mem.mp ends, rfl⟩)

theorem mem_terminators {stop : List Char} (ends : stop ∈ terminators) :
    stop = ['\r', '\n'] ∨ ∃ c, isBreak c = true ∧ stop = [c] := by
  rcases List.mem_cons.mp ends with both | single
  · exact .inl both
  · rcases List.mem_map.mp single with ⟨c, breaks, rfl⟩
    exact .inr ⟨c, List.contains_iff_mem.mpr breaks, rfl⟩

theorem wellEnded_cut (cs : List Char) : WellEnded (cut cs) := by
  have nothing : Unbroken [] := by simp [Unbroken]
  induction cs using cut_induct with
  | nil => exact .nil
  | both rest ih => exact .cons nothing (.head _) (by simp) ih
  | ends c rest breaks apart ih =>
      rw [cut_break breaks apart]
      refine .cons nothing (mem_terminators_of_isBreak breaks) ?_ ih
      intro same first
      -- A line feed that ends an empty line is what the text goes on with.
      rcases List.head?_eq_some_iff.mp first with ⟨parts, begins⟩
      apply apart (List.singleton_inj.mp same)
      rw [← joined_cut rest, begins]
      rfl
  | inside c rest plain ih =>
      rw [cut_cons plain]
      exact ih.extend plain

/-- What is joined begins with a line feed only if its first line is empty and ends with that. -/
theorem WellEnded.head_of_joined {parts : List Ended} (ended : WellEnded parts)
    (first : (joined parts).head? = some '\n') : parts.head? = some ⟨[], ['\n']⟩ := by
  have begins (line stop rest : List Char) (unbroken : Unbroken line)
      (first : (line ++ stop ++ rest).head? = some '\n') : line = [] := by
    cases line with
    | nil => rfl
    | cons c line =>
        cases first
        exact absurd (unbroken '\n' (.head _)) (by decide)
  cases ended with
  | nil => cases first
  | unended unbroken visible => exact absurd (begins _ _ _ unbroken first) visible
  | @cons line stop rest unbroken ends =>
      have blank : line = [] := begins line stop (joined rest) unbroken first
      subst blank
      rcases mem_terminators ends with rfl | ⟨c, _, rfl⟩
      · cases first
      · cases first
        rfl

theorem cut_terminator {stop rest : List Char} (ends : stop ∈ terminators)
    (apart : stop = ['\r'] → rest.head? ≠ some '\n') :
    cut (stop ++ rest) = ⟨[], stop⟩ :: cut rest := by
  rcases mem_terminators ends with rfl | ⟨c, breaks, rfl⟩
  · rfl
  · exact cut_break breaks fun same => apart (congrArg (fun c => [c]) same)

theorem cut_line {line : List Char} (unbroken : Unbroken line) {rest : List Char} {part : Ended}
    {parts : List Ended} (behind : cut rest = part :: parts) :
    cut (line ++ rest) = { part with line := line ++ part.line } :: parts := by
  induction line with
  | nil => exact behind
  | cons c line ih =>
      have inner := ih fun other member => unbroken other (.tail _ member)
      rw [List.cons_append, cut_cons (unbroken c (.head _)), inner]
      rfl

theorem cut_unended {line : List Char} (unbroken : Unbroken line) (visible : line ≠ []) :
    cut line = [⟨line, []⟩] := by
  induction line with
  | nil => exact absurd rfl visible
  | cons c line ih =>
      rw [cut_cons (unbroken c (.head _))]
      cases line with
      | nil => rfl
      | cons next line =>
          rw [ih (fun other member => unbroken other (.tail _ member)) (List.cons_ne_nil _ _)]
          rfl

/-- What was joined is cut where it was joined. -/
theorem WellEnded.cut_joined {parts : List Ended} (ended : WellEnded parts) :
    cut (joined parts) = parts := by
  induction ended with
  | nil => rfl
  | @unended line unbroken visible =>
      have alone : joined [⟨line, []⟩] = line := by simp [joined]
      rw [alone, cut_unended unbroken visible]
  | @cons line stop rest unbroken ends apart others ih =>
      have whole : joined (⟨line, stop⟩ :: rest) = line ++ (stop ++ joined rest) :=
        List.append_assoc ..
      have behind : cut (stop ++ joined rest) = ⟨[], stop⟩ :: rest := by
        rw [cut_terminator ends, ih]
        intro same first
        exact apart same (others.head_of_joined first)
      rw [whole, cut_line unbroken behind, List.append_nil]

theorem lines_joined {parts : List Ended} (ended : WellEnded parts) :
    lines (String.ofList (joined parts)) = parts.map fun part => String.ofList part.line := by
  rw [lines, String.toList_ofList, ← map_line_cut, ended.cut_joined, List.map_map]
  rfl

theorem WellEnded.unbroken {parts : List Ended} (ended : WellEnded parts) :
    ∀ part ∈ parts, Unbroken part.line := by
  induction ended with
  | nil => simp
  | unended unbroken => exact List.forall_mem_singleton.mpr unbroken
  | cons unbroken _ _ _ ih => exact List.forall_mem_cons.mpr ⟨unbroken, ih⟩

theorem unbroken_of_mem_lines {text line : String} (member : line ∈ lines text) :
    Unbroken line.toList := by
  rw [lines, ← map_line_cut] at member
  rcases List.mem_map.mp member with ⟨_, inside, rfl⟩
  rcases List.mem_map.mp inside with ⟨part, among, rfl⟩
  rw [String.toList_ofList]
  exact (wellEnded_cut text.toList).unbroken part among

/-- However a text is given, its lines are unbroken. -/
theorem Source.unbroken_of_mem_lines {source : Source} {line : String}
    (member : line ∈ source.lines) : Unbroken line.toList := by
  cases source with
  | text body => exact Text.unbroken_of_mem_lines member
  | pieces items =>
      rcases List.mem_flatMap.mp member with ⟨item, _, within⟩
      split at within
      case isTrue =>
        rw [List.mem_singleton.mp within]
        decide
      case isFalse => exact Text.unbroken_of_mem_lines within

/-- Each line of a text with its terminator. -/
theorem zipWith_lines_stops (text : String) :
    List.zipWith (fun line stop => Ended.mk line.toList stop) (lines text) (stops text) =
      cut text.toList := by
  have whole (parts : List Ended) : List.zipWith (fun line stop => Ended.mk line.toList stop)
      ((parts.map Ended.line).map String.ofList) (parts.map Ended.stop) = parts := by
    induction parts with
    | nil => rfl
    | cons part parts ih =>
        rw [List.map_cons, List.map_cons, List.map_cons, List.zipWith_cons_cons, ih,
          String.toList_ofList]
  rw [lines, stops, ← map_line_cut, whole]

theorem toList_intercalate_concat_empty (front : List String) :
    ("\n".intercalate (front ++ [""])).toList =
      joined (front.map fun item => ⟨item.toList, ['\n']⟩) := by
  induction front with
  | nil => rfl
  | cons item front ih =>
      rw [String.toList_intercalate] at ih ⊢
      rw [List.cons_append, List.map_cons, List.intercalate_cons_of_ne_nil (by simp), ih]
      rfl

/-- Of lines that are joined by line feeds only an empty one at the end is lost. -/
theorem exists_lines_intercalate {items : List String}
    (unbroken : ∀ item ∈ items, Unbroken item.toList) :
    ∃ below, items = lines ("\n".intercalate items) ++ below ∧ ∀ item ∈ below, item = "" := by
  by_cases blank : items.getLast? = some ""
  · rcases List.getLast?_eq_some_iff.mp blank with ⟨front, rfl⟩
    have inside : ∀ item ∈ front, Unbroken item.toList :=
      fun item member => unbroken item (List.mem_append_left _ member)
    have ended : WellEnded (front.map fun item => ⟨item.toList, ['\n']⟩) := by
      clear unbroken blank
      induction front with
      | nil => exact .nil
      | cons item front ih =>
          exact .cons (inside item (.head _)) (by decide) (by simp)
            (ih fun other member => inside other (.tail _ member))
    have cutAgain : lines ("\n".intercalate (front ++ [""])) = front := by
      have text := congrArg String.ofList (toList_intercalate_concat_empty front)
      rw [String.ofList_toList] at text
      rw [text, lines_joined ended, List.map_map]
      simp [Function.comp_def]
    exact ⟨[""], by rw [cutAgain], by simp⟩
  · exact ⟨[], by rw [lines_intercalate unbroken blank, List.append_nil], by simp⟩

end Text

/-- Blank lines at the end give no tokens. -/
theorem Token.ofLines_append_of_blank (lines : List String) {below : List String}
    (blank : ∀ line ∈ below, line = "") : ofLines (lines ++ below) = ofLines lines := by
  have nothing : ((below.zipIdx (1 + lines.length)).filterMap fun numbered =>
      ofLine? numbered.2 numbered.1.toList) = [] := by
    rw [List.filterMap_eq_nil_iff]
    intro numbered member
    have empty := blank _ (List.fst_mem_of_mem_zipIdx member)
    simp only [empty]
    rfl
  rw [ofLines, List.zipIdx_append, List.filterMap_append, nothing, List.append_nil, ofLines]

/-- Pieces of one line each are read as they are when line feeds join them. -/
theorem Token.ofSource_intercalate {items : List String}
    (unbroken : ∀ item ∈ items, Text.Unbroken item.toList) :
    ofSource (.text ("\n".intercalate items)) = ofSource (.pieces items) := by
  rcases Text.exists_lines_intercalate unbroken with ⟨below, parts, blank⟩
  calc ofSource (.text ("\n".intercalate items))
    _ = ofLines (Text.lines ("\n".intercalate items)) := rfl
    _ = ofLines items := by conv_rhs => rw [parts, ofLines_append_of_blank _ blank]
    _ = ofSource (.pieces items) := (congrArg ofLines (Text.lines_pieces unbroken)).symm

/-- Nor do they belong to a map. -/
theorem Map.rows_eq_of_blank {one two : Text.Source} {below : List String}
    (same : one.lines = two.lines ++ below) (blank : ∀ line ∈ below, line = "") :
    rows one = rows two := by
  symm
  rw [← framed_iff]
  have framed := framed_rows two
  rcases framed.parts with ⟨above, under, parts, blankAbove, blankUnder⟩
  have longer : trimmed one = trimmed two ++ below.map fun line => Text.trim line.toList := by
    rw [trimmed, same, List.map_append, trimmed]
  refine ⟨⟨above, under ++ below.map fun line => Text.trim line.toList, ?_, blankAbove, ?_⟩,
    framed.first, framed.last⟩
  · rw [longer, parts, List.append_assoc]
  · intro line member
    rcases List.mem_append.mp member with inside | further
    · exact blankUnder line inside
    · rcases List.mem_map.mp further with ⟨empty, among, rfl⟩
      rw [blank empty among]
      rfl

/-- Unbroken pieces are lines as they are. Unbroken lines that are each followed by one of the
eleven terminators, the last one perhaps by none, are the lines of the text that this makes. Every
text is made so in one way, of its lines and of the terminators in it. And pieces without line ends
are as good, for a program as for a map, as the same pieces joined by line feeds. -/
theorem lines_undo_joining :
    (∀ items : List String, (∀ item ∈ items, Text.Unbroken item.toList) →
      Text.Source.lines (.pieces items) = items) ∧
    (∀ parts, Text.WellEnded parts →
      Text.Source.lines (.text (String.ofList (Text.joined parts))) =
        parts.map fun part => String.ofList part.line) ∧
    (∀ text, (∀ line ∈ Text.Source.lines (.text text), Text.Unbroken line.toList) ∧
      (Text.stops text).length = (Text.Source.lines (.text text)).length ∧
      let parts := List.zipWith (fun line stop => Text.Ended.mk line.toList stop)
        (Text.Source.lines (.text text)) (Text.stops text)
      Text.WellEnded parts ∧ String.ofList (Text.joined parts) = text ∧
        ∀ others, Text.WellEnded others → String.ofList (Text.joined others) = text →
          others = parts) ∧
    ∀ items : List String, (∀ item ∈ items, Text.Unbroken item.toList) →
      Token.ofSource (.pieces items) = Token.ofSource (.text ("\n".intercalate items)) ∧
      Map.read (.pieces items) = Map.read (.text ("\n".intercalate items)) := by
  refine ⟨fun _ unbroken => Text.lines_pieces unbroken, fun _ ended => Text.lines_joined ended,
    ?_, ?_⟩
  · intro text
    have same := Text.zipWith_lines_stops text
    refine ⟨fun line member => Text.unbroken_of_mem_lines member, ?_, ?_⟩
    · rw [Text.Source.lines, Text.lines, Text.stops, ← Text.map_line_cut]
      simp only [List.length_map]
    · intro parts
      have whole : parts = Text.cut text.toList := same
      rw [whole, Text.joined_cut, String.ofList_toList]
      refine ⟨Text.wellEnded_cut _, rfl, ?_⟩
      intro others ended made
      rw [← made, String.toList_ofList, ended.cut_joined]
  · intro items unbroken
    rcases Text.exists_lines_intercalate unbroken with ⟨below, parts, blank⟩
    have pieces := Text.lines_pieces unbroken
    constructor
    · exact (Token.ofSource_intercalate unbroken).symm
    · have rows : Map.rows (.pieces items) = Map.rows (.text ("\n".intercalate items)) :=
        Map.rows_eq_of_blank (pieces.trans parts) blank
      rw [Map.read, rows, Map.read]

/-- A line with a terminator of two characters, two empty ones, and one that the text ends in. -/
def mixedEnds : List Text.Ended :=
  [⟨"LEFT".toList, ['\r', '\n']⟩, ⟨[], ['\r']⟩, ⟨[], ['\r', '\n']⟩, ⟨"\tRIGHT".toList, ['\u2028']⟩,
    ⟨"U.".toList, []⟩]

theorem lines_undo_joining_of_mixedEnds :
    Text.WellEnded mixedEnds ∧
    Text.Source.lines (.text "LEFT\r\n\r\r\n\tRIGHT\u2028U.") = ["LEFT", "", "", "\tRIGHT", "U."] ∧
    (∀ item ∈ ["U.", "", ""], Text.Unbroken item.toList) ∧
    Text.Source.lines (.pieces ["U.", "", ""]) = ["U.", "", ""] ∧
    Token.ofSource (.pieces ["U.", "", ""]) = Token.ofSource (.text "U.\n\n") ∧
    Map.read (.pieces ["U.", "", ""]) = Map.read (.text "U.\n\n") := by
  have ended : Text.WellEnded mixedEnds :=
    .cons (by decide) (by decide) (by decide) (.cons (by decide) (by decide) (by decide)
      (.cons (by decide) (by decide) (by decide) (.cons (by decide) (by decide) (by decide)
        (.unended (by decide) (by decide)))))
  have unbroken : ∀ item ∈ ["U.", "", ""], Text.Unbroken item.toList := by decide
  rcases lines_undo_joining with ⟨pieces, texts, _, sources⟩
  exact ⟨ended, texts mixedEnds ended, unbroken, pieces _ unbroken, sources _ unbroken⟩

end Lamplighter
