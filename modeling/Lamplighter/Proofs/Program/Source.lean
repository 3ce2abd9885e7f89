import Mathlib.Tactic.SplitIfs
import Lamplighter.Proofs.Program.Crossing

/-! Program lines against the text that they were read from.

A line of the program is one of the lines of the text, trimmed, and says which one it is and
how far it was indented. Its first word and its statement decide what is logged for it. Main
statements: `Token.trueTo_location`, `Instr.ReadFrom.suits`. -/

namespace Lamplighter

/-- The location is that of a line of the source which is not blank. -/
structure Location.TrueTo (source : Text.Source) (file : String) (location : Location) : Prop where
  file : location.file = file
  first : 1 ≤ location.line
  last : location.line ≤ source.lines.length
  visible : location.statement ≠ ""
  stands : ∃ raw, source.lines[location.line - 1]? = some raw ∧
    location.statement.toList = Text.trim raw.toList ∧
    location.column = Text.indent raw.toList + 1

/-- The statement up to the first white space. -/
def Text.firstWord (statement : String) : String :=
  String.ofList (Text.splitWord statement.toList).1

/-- The statements that the robot obeys. -/
def orders : List String := ["FORWARD", "LEFT", "RIGHT", "LIGHT"]

/-- The keywords of the lines that are logged under them. -/
def loggedKeywords : List String := ["REPEAT", "CALL"]

/-- What a line with this statement is logged as. -/
structure Rule.Suits (rule : Rule) (statement : String) : Prop where
  keyword : ∀ word ∈ loggedKeywords, rule.name = word ↔ Text.firstWord statement = word
  order : ∀ word ∈ orders, rule.name = word ↔ statement = word
  idle : Text.firstWord statement ∉ loggedKeywords → statement ∉ orders → rule.name = "NOOP"

namespace Token

variable {source : Text.Source} {token : Token}

theorem exists_line_of_mem (member : token ∈ ofSource source) :
    ∃ raw, 1 ≤ token.line ∧ source.lines[token.line - 1]? = some raw ∧
      ofLine? token.line raw.toList = some token := by
  rcases List.mem_filterMap.mp member with ⟨⟨raw, line⟩, numbered, given⟩
  rcases List.mem_zipIdx_iff_le_and_getElem?_sub.mp numbered with ⟨first, found⟩
  have number : token.line = line := line_of_ofLine? given
  rw [number]
  exact ⟨raw, first, found, given⟩

theorem ofLine?_eq_some {line : Nat} {raw : List Char} (given : ofLine? line raw = some token) :
    Text.trim raw ≠ [] ∧ token = ofStatement line (Text.indent raw + 1) (Text.trim raw) := by
  unfold ofLine? at given
  split at given
  case h_1 => cases given
  case h_2 visible =>
    cases given
    exact ⟨visible, rfl⟩

theorem trueTo_location (file : String) (member : token ∈ ofSource source) :
    (token.location file).TrueTo source file := by
  rcases exists_line_of_mem member with ⟨raw, first, found, given⟩
  rcases ofLine?_eq_some given with ⟨visible, same⟩
  have statement : token.statement = String.ofList (Text.trim raw.toList) := by
    rw [same, ofStatement]
  have column : token.column = Text.indent raw.toList + 1 := by
    rw [same, ofStatement]
  have inside : token.line - 1 < source.lines.length := (List.getElem?_eq_some_iff.mp found).1
  constructor
  · rfl
  · exact first
  · simp only [location]
    omega
  · simpa [location, statement] using visible
  · refine ⟨raw, found, ?_, column⟩
    simp only [location, statement, String.toList_ofList]

theorem kind_of_mem (member : token ∈ ofSource source) :
    token.kind = .ofWord (Text.firstWord token.statement) := by
  rcases exists_line_of_mem member with ⟨raw, _, _, given⟩
  rw [(ofLine?_eq_some given).2]
  simp only [ofStatement, Text.firstWord, String.toList_ofList]

end Token

/-- A keyword, and nothing else, gives a line its kind. -/
theorem Token.Kind.ofWord_eq_iff {word : String} {kind : Kind} (keyword : kind ≠ .line) :
    ofWord word = kind ↔ word = kind.name := by
  constructor
  · rintro rfl
    rw [ofWord] at keyword ⊢
    split_ifs at keyword ⊢ with loop endLoop define endDefine call
    · exact loop
    · exact endLoop
    · exact define
    · exact endDefine
    · exact call
    · exact absurd rfl keyword
  · rintro rfl
    cases kind <;> rfl

theorem Opcode.ofStatement_cases (statement : String) :
    statement ∈ orders ∧ (ofStatement statement).name = statement ∨
      statement ∉ orders ∧ ofStatement statement = .noop := by
  by_cases order : statement ∈ orders
  · refine .inl ⟨order, ?_⟩
    simp only [orders, List.mem_cons, List.not_mem_nil, or_false] at order
    rcases order with rfl | rfl | rfl | rfl <;> decide
  · refine .inr ⟨order, ?_⟩
    simp only [orders, List.mem_cons, List.not_mem_nil, or_false, not_or] at order
    rw [ofStatement, if_neg order.1, if_neg order.2.1, if_neg order.2.2.1, if_neg order.2.2.2]

theorem firstWord_of_mem_orders {word : String} (order : word ∈ orders) :
    Text.firstWord word = word := by
  simp only [orders, List.mem_cons, List.not_mem_nil, or_false] at order
  rcases order with rfl | rfl | rfl | rfl <;> decide

theorem not_mem_loggedKeywords_of_mem_orders {word : String} (order : word ∈ orders) :
    word ∉ loggedKeywords := by
  simp only [orders, List.mem_cons, List.not_mem_nil, or_false] at order
  rcases order with rfl | rfl | rfl | rfl <;> decide

namespace Rule

variable {rule : Rule} {statement : String}

theorem suits_of_keyword (logged : rule.name ∈ loggedKeywords)
    (first : Text.firstWord statement = rule.name) : rule.Suits statement where
  keyword := by
    intro word _
    rw [first]
  order := by
    intro word order
    have plain := not_mem_loggedKeywords_of_mem_orders order
    constructor
    · rintro rfl
      exact absurd logged plain
    · rintro rfl
      rw [← first, firstWord_of_mem_orders order] at logged
      exact absurd logged plain
  idle := by
    intro plain
    rw [first] at plain
    exact absurd logged plain

theorem name_act_not_mem_loggedKeywords (opcode : Opcode) :
    (act opcode).name ∉ loggedKeywords := by
  cases opcode <;> decide

theorem suits_of_act (plain : Text.firstWord statement ∉ loggedKeywords) :
    (act (Opcode.ofStatement statement)).Suits statement where
  keyword := by
    intro word keyword
    constructor
    · rintro rfl
      exact absurd keyword (name_act_not_mem_loggedKeywords _)
    · rintro rfl
      exact absurd keyword plain
  order := by
    intro word order
    rcases Opcode.ofStatement_cases statement with ⟨_, same⟩ | ⟨other, noop⟩
    · rw [name, same]
    · rw [noop]
      constructor
      · rintro rfl
        exact absurd order (by decide)
      · rintro rfl
        exact absurd order other
  idle := by
    intro _ other
    rcases Opcode.ofStatement_cases statement with ⟨order, _⟩ | ⟨_, noop⟩
    · exact absurd order other
    · rw [noop]
      rfl

end Rule

/-- The line decides what its instruction is logged as. -/
theorem Instr.ReadFrom.suits {source : Text.Source} {file : String} {token : Token} {instr : Instr}
    {rule : Rule} (member : token ∈ Token.ofSource source) (read : instr.ReadFrom file token)
    (logged : instr.rule? = some rule) : rule.Suits token.statement := by
  have known := Token.kind_of_mem member
  have first {kind : Token.Kind} (keyword : kind ≠ .line) (same : token.kind = kind) :
      Text.firstWord token.statement = kind.name :=
    (Token.Kind.ofWord_eq_iff keyword).mp (known.symm.trans same)
  cases instr with
  | act opcode text location =>
      rcases read with ⟨kind, rfl, _⟩
      cases logged
      apply Rule.suits_of_act
      intro keyword
      simp only [loggedKeywords, List.mem_cons, List.not_mem_nil, or_false] at keyword
      rcases keyword with loop | call
      · have same : token.kind = .loop := by rw [known, loop, Token.Kind.ofWord_eq_iff] <;> decide
        exact absurd same kind.kind_ne.2
      · have same : token.kind = .call := by rw [known, call, Token.Kind.ofWord_eq_iff] <;> decide
        simp [Parser.IsAct, same] at kind
  | loop count body location =>
      cases logged
      exact Rule.suits_of_keyword (by decide) (first (by decide) read.1)
  | call name args location =>
      cases logged
      exact Rule.suits_of_keyword (by decide) (first (by decide) read.1)
  | unknown location => exact read.elim

end Lamplighter
