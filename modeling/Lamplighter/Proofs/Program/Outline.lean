import Mathlib.Data.List.Forall2
import Mathlib.Data.List.TakeWhile
import Lamplighter.Proofs.Program.Source

/-! Program lines as a full account of a source.

Trimming takes white space from the two ends of a line and nothing else, and a keyword line
falls apart at white space. So the program lines say which lines of a source are not blank, what
stands in them and how far they are indented, and there is nothing else that they say. Main
statement: `lines_tell_outline`. -/

namespace Lamplighter

namespace Text

/-- Nothing but white space. -/
def Blank (cs : List Char) : Prop := ∀ c ∈ cs, isBlank c = true

/-- The statement begins with this word, and white space or nothing is behind it. -/
structure Leads (word statement : List Char) : Prop where
  solid : ∀ c ∈ word, isBlank c = false
  ends : ∃ tail, statement = word ++ tail ∧ ∀ c, tail.head? = some c → isBlank c = true

/-- The lines that are not blank, each with its number. -/
def Source.visibleLines (source : Source) : List (String × Nat) :=
  (source.lines.zipIdx 1).filter fun line => line.1.toList.any fun c => !isBlank c

/-- What stands in the lines that are not blank: the number of each, the width of its indentation,
and what is left of it without the white space around it. -/
def Source.outline (source : Source) : List (Nat × Nat × List Char) :=
  source.visibleLines.map fun line => (line.2, indent line.1.toList, trim line.1.toList)

theorem blank_takeWhile (cs : List Char) : Blank (cs.takeWhile isBlank) :=
  fun _ member => List.mem_takeWhile_imp member

theorem takeWhile_append_trimStart (cs : List Char) : cs.takeWhile isBlank ++ trimStart cs = cs :=
  List.takeWhile_append_dropWhile

theorem exists_trimEnd_append (cs : List Char) :
    ∃ after, cs = trimEnd cs ++ after ∧ Blank after := by
  refine ⟨(cs.reverse.takeWhile isBlank).reverse, ?_, ?_⟩
  · have parts := congrArg List.reverse (takeWhile_append_trimStart cs.reverse)
    rw [List.reverse_append, List.reverse_reverse] at parts
    exact parts.symm
  · intro c member
    exact blank_takeWhile _ c (List.mem_reverse.mp member)

/-- A text is its indentation, what is left when it is trimmed, and white space. -/
theorem exists_around_trim (cs : List Char) :
    ∃ after, cs = cs.takeWhile isBlank ++ trim cs ++ after ∧ Blank after := by
  rcases exists_trimEnd_append (trimStart cs) with ⟨after, parts, blank⟩
  refine ⟨after, ?_, blank⟩
  calc cs
    _ = cs.takeWhile isBlank ++ trimStart cs := (takeWhile_append_trimStart cs).symm
    _ = cs.takeWhile isBlank ++ (trim cs ++ after) := by rw [trim, ← parts]
    _ = cs.takeWhile isBlank ++ trim cs ++ after := (List.append_assoc ..).symm

theorem trim_eq_nil_iff {cs : List Char} : trim cs = [] ↔ Blank cs := by
  rcases exists_around_trim cs with ⟨after, parts, blank⟩
  constructor
  · intro empty
    rw [empty, List.append_nil] at parts
    rw [parts]
    exact List.forall_mem_append.mpr ⟨blank_takeWhile cs, blank⟩
  · intro whole
    have inside : Blank (trim cs) := by
      intro c member
      apply whole
      rw [parts]
      exact List.mem_append_left _ (List.mem_append_right _ member)
    cases first : trim cs with
    | nil => rfl
    | cons c rest =>
        have visible := (trimmed_trim cs).first c (by rw [first]; rfl)
        rw [first] at inside
        rw [inside c (.head _)] at visible
        cases visible

theorem splitWord_eq (cs : List Char) :
    cs = (splitWord cs).1 ++ (splitWord cs).2 ∧ (∀ c ∈ (splitWord cs).1, isBlank c = false) ∧
      ∀ c, (splitWord cs).2.head? = some c → isBlank c = true := by
  rw [splitWord, List.span_eq_takeWhile_dropWhile]
  refine ⟨List.takeWhile_append_dropWhile.symm, ?_, ?_⟩
  · intro c member
    simpa using List.mem_takeWhile_imp member
  · intro c first
    have stopped := List.head?_dropWhile_not (fun c => !isBlank c) cs
    simp only [first] at stopped
    simpa using stopped

theorem leads_iff {word statement : List Char} :
    Leads word statement ↔ (splitWord statement).1 = word := by
  constructor
  · intro leads
    rcases leads.ends with ⟨tail, parts, blank⟩
    rw [parts, splitWord_append leads.solid blank]
  · intro same
    rcases splitWord_eq statement with ⟨parts, solid, blank⟩
    rw [same] at parts solid
    exact ⟨solid, _, parts, blank⟩

/-- Behind the first word of a trimmed statement there is nothing, or white space and a text that
is trimmed as well. -/
theorem Trimmed.behind_word {statement : List Char} (trimmed : Trimmed statement) :
    (splitWord statement).2 = [] ∨
      trim (splitWord statement).2 ≠ [] ∧ ∃ gap, gap ≠ [] ∧ Blank gap ∧
        (splitWord statement).2 = gap ++ trim (splitWord statement).2 := by
  rcases splitWord_eq statement with ⟨parts, _, starts⟩
  generalize (splitWord statement).1 = word at parts
  generalize (splitWord statement).2 = rest at parts starts
  by_cases empty : rest = []
  · exact .inl empty
  have closes {c : Char} (last : rest.getLast? = some c) : isBlank c = false := by
    apply trimmed.last c
    rw [parts, List.getLast?_append, last, Option.some_or]
  rcases Option.isSome_iff_exists.mp (List.getLast?_isSome.mpr empty) with ⟨final, last⟩
  have visible : trim rest ≠ [] := by
    intro blank
    have white := trim_eq_nil_iff.mp blank final (List.mem_of_getLast? last)
    rw [closes last] at white
    cases white
  rcases exists_around_trim rest with ⟨after, around, blank⟩
  -- White space behind the value would end the statement.
  have nothing : after = [] := by
    cases further : after.getLast? with
    | none => exact List.getLast?_eq_none_iff.mp further
    | some c =>
        have white := blank c (List.mem_of_getLast? further)
        rw [closes (by rw [around, List.getLast?_append, further, Option.some_or])] at white
        cases white
  rw [nothing, List.append_nil] at around
  refine .inr ⟨visible, rest.takeWhile isBlank, ?_, blank_takeWhile rest, around⟩
  intro narrow
  rw [narrow, List.nil_append] at around
  cases first : rest.head? with
  | none => exact empty (List.head?_eq_none_iff.mp first)
  | some c =>
      have solid := (trimmed_trim rest).first c (by rw [← around, first])
      rw [starts c first] at solid
      cases solid

end Text

namespace Token

/-- The statement of a keyword line: its keyword alone, or the keyword, white space and a value. -/
structure Argued (token : Token) : Prop where
  trimmed : Text.Trimmed token.value.toList
  parts : token.statement = token.kind.name ∧ token.value = "" ∨
    token.value ≠ "" ∧ ∃ gap, gap ≠ [] ∧ Text.Blank gap ∧
      token.statement.toList = token.kind.name.toList ++ gap ++ token.value.toList

/-- What a token says of the line that it was read from, and of its number. -/
structure Describes (token : Token) (raw : String) (number : Nat) : Prop where
  line : token.line = number
  visible : token.statement ≠ ""
  trimmed : Text.Trimmed token.statement.toList
  placed : ∃ before after, raw.toList = before ++ token.statement.toList ++ after ∧
    before.length = token.column - 1 ∧ 1 ≤ token.column ∧ Text.Blank before ∧ Text.Blank after
  keyword : ∀ kind, kind ≠ .line →
    (token.kind = kind ↔ Text.Leads kind.name.toList token.statement.toList)
  argued : token.kind ≠ .line → token.Argued
  carried : token.kind = .line → token.value = token.statement

/-- The token of a line that is not blank. -/
def ofVisible (line : String × Nat) : Token :=
  ofStatement line.2 (Text.indent line.1.toList + 1) (Text.trim line.1.toList)

theorem kind_ofStatement (line column : Nat) (statement : List Char) :
    (ofStatement line column statement).kind =
      .ofWord (String.ofList (Text.splitWord statement).1) := rfl

theorem value_ofStatement {line column : Nat} {statement : List Char}
    (keyword : (ofStatement line column statement).kind ≠ .line) :
    (ofStatement line column statement).value =
      String.ofList (Text.trim (Text.splitWord statement).2) :=
  congrArg String.ofList (if_neg keyword)

theorem carried_ofStatement {line column : Nat} {statement : List Char}
    (kind : (ofStatement line column statement).kind = .line) :
    (ofStatement line column statement).value = (ofStatement line column statement).statement :=
  congrArg String.ofList (if_pos kind)

theorem kind_eq_iff_leads {kind : Kind} (keyword : kind ≠ .line) (line column : Nat)
    (statement : List Char) :
    (ofStatement line column statement).kind = kind ↔ Text.Leads kind.name.toList statement := by
  rw [kind_ofStatement, Kind.ofWord_eq_iff keyword, Text.leads_iff]
  constructor
  · intro same
    rw [← same, String.toList_ofList]
  · intro same
    rw [same, String.ofList_toList]

theorem argued_ofStatement {line column : Nat} {statement : List Char}
    (trimmed : Text.Trimmed statement)
    (keyword : (ofStatement line column statement).kind ≠ .line) :
    (ofStatement line column statement).Argued := by
  have value : (ofStatement line column statement).value.toList =
      Text.trim (Text.splitWord statement).2 := by
    rw [value_ofStatement keyword, String.toList_ofList]
  have word := Text.leads_iff.mp ((kind_eq_iff_leads keyword line column statement).mp rfl)
  have parts : (ofStatement line column statement).statement.toList =
      (ofStatement line column statement).kind.name.toList ++ (Text.splitWord statement).2 := by
    rw [← word, ← (Text.splitWord_eq statement).1]
    exact String.toList_ofList
  constructor
  case trimmed =>
    rw [value]
    exact Text.trimmed_trim _
  case parts =>
    rcases trimmed.behind_word with alone | ⟨visible, gap, wide, blank, behind⟩
    · rw [alone, List.append_nil] at parts
      rw [alone, Text.trim_nil] at value
      exact .inl ⟨String.toList_inj.mp parts, String.toList_inj.mp value⟩
    · refine .inr ⟨?_, gap, wide, blank, ?_⟩
      · intro empty
        rw [empty] at value
        exact visible value.symm
      · rw [parts, behind, value, List.append_assoc]

theorem describes_ofVisible {line : String × Nat} (visible : Text.trim line.1.toList ≠ []) :
    (ofVisible line).Describes line.1 line.2 := by
  have statement : (ofVisible line).statement.toList = Text.trim line.1.toList :=
    String.toList_ofList
  constructor
  case line => rfl
  case visible =>
    intro empty
    rw [empty] at statement
    exact visible statement.symm
  case trimmed =>
    rw [statement]
    exact Text.trimmed_trim _
  case placed =>
    rcases Text.exists_around_trim line.1.toList with ⟨after, around, blank⟩
    have column : (ofVisible line).column = Text.indent line.1.toList + 1 := rfl
    rw [statement, column, Nat.add_sub_cancel]
    exact ⟨_, after, around, rfl, Nat.succ_pos _, Text.blank_takeWhile _, blank⟩
  case keyword =>
    intro kind keyword
    rw [statement]
    exact kind_eq_iff_leads keyword _ _ _
  case argued => exact argued_ofStatement (Text.trimmed_trim line.1.toList)
  case carried => exact carried_ofStatement

/-- A line gives a token if some character of it is no white space. -/
theorem ofLine?_eq (raw : String) (number : Nat) :
    ofLine? number raw.toList =
      if raw.toList.any (fun c => !Text.isBlank c) then some (ofVisible (raw, number))
      else none := by
  unfold ofLine?
  split
  case h_1 empty =>
    have blank : ∀ c ∈ raw.toList, Text.isBlank c = true := Text.trim_eq_nil_iff.mp empty
    rw [if_neg]
    simpa using blank
  case h_2 visible =>
    rw [if_pos]
    · rfl
    · by_contra blank
      apply visible
      rw [Text.trim_eq_nil_iff]
      simpa [Text.Blank] using blank

theorem ofSource_eq_map_visibleLines (source : Text.Source) :
    ofSource source = source.visibleLines.map ofVisible := by
  rw [ofSource, ofLines, Text.Source.visibleLines, ← List.filterMap_eq_map, List.filterMap_filter]
  exact List.filterMap_congr fun line _ => ofLine?_eq line.1 line.2

/-- What the token says of its line in an outline. -/
def outlined (token : Token) : Nat × Nat × List Char :=
  (token.line, token.column - 1, token.statement.toList)

theorem outlined_ofVisible (line : String × Nat) :
    (ofVisible line).outlined = (line.2, Text.indent line.1.toList, Text.trim line.1.toList) :=
  congrArg (fun statement => (line.2, Text.indent line.1.toList, statement)) String.toList_ofList

theorem map_outlined_ofSource (source : Text.Source) :
    (ofSource source).map outlined = source.outline := by
  rw [ofSource_eq_map_visibleLines, List.map_map, Text.Source.outline]
  exact List.map_congr_left fun line _ => outlined_ofVisible line

theorem ofSource_eq_map_outline (source : Text.Source) :
    ofSource source = source.outline.map fun (number, width, statement) =>
      ofStatement number (width + 1) statement := by
  rw [ofSource_eq_map_visibleLines, Text.Source.outline, List.map_map]
  rfl

end Token

/-- A source gives one token for each of its lines that are not blank, in their order and with
line numbers that go up. Each is a full account of its line: the line is white space of the width
that the column tells, the statement, and white space. A keyword line is told by its first word,
and its statement is the keyword alone, or the keyword, white space and the value. So two sources
have the same tokens exactly when the same statements stand in lines of the same numbers and
indentation. -/
theorem lines_tell_outline (source other : Text.Source) :
    List.Forall₂ (fun token line => Token.Describes token line.1 line.2)
      (Token.ofSource source) source.visibleLines ∧
    (Token.ofSource source).Pairwise (fun token next => token.line < next.line) ∧
    (Token.ofSource source = Token.ofSource other ↔ source.outline = other.outline) := by
  refine ⟨?_, Token.pairwise_ofSource source, ?_⟩
  · rw [Token.ofSource_eq_map_visibleLines, List.forall₂_map_left_iff, List.forall₂_same]
    intro line member
    apply Token.describes_ofVisible
    have visible := (List.mem_filter.mp member).2
    intro blank
    have white := Text.trim_eq_nil_iff.mp blank
    rcases List.any_eq_true.mp visible with ⟨c, inside, solid⟩
    rw [white c inside] at solid
    cases solid
  · constructor
    · intro same
      rw [← Token.map_outlined_ofSource, same, Token.map_outlined_ofSource]
    · intro same
      rw [Token.ofSource_eq_map_outline, same, ← Token.ofSource_eq_map_outline]

/-- White space of any kind ends a keyword, and a bracket does not. -/
example : Token.ofSource (.pieces ["\u3000CALL\u3000F(1) ", "", "CALL(F)"]) =
    [⟨.call, "F(1)", 1, 2, "CALL\u3000F(1)"⟩, ⟨.line, "CALL(F)", 3, 1, "CALL(F)"⟩] := by
  decide

end Lamplighter
