import Lamplighter.Proofs.Program.Signature

/-! Printed lines, one by one.

A line gives the same kind and value wherever it stands. A keyword line gives its
keyword and what was printed behind it, and no printed line is cut in two. -/

namespace Lamplighter

open Text

/-- Under every number the line gives a token of this kind and value. -/
def Gives (line : String) (kind : Token.Kind) (value : String) : Prop :=
  ∀ number, ∃ token, Token.ofLine? number line.toList = some token ∧
    token.kind = kind ∧ token.value = value

theorem ofLine?_of_trim {number : Nat} {raw statement : List Char}
    (trimmed : trim raw = statement) (visible : statement ≠ []) :
    Token.ofLine? number raw = some (Token.ofStatement number (indent raw + 1) statement) := by
  unfold Token.ofLine?
  split
  case h_1 empty => exact absurd (trimmed.symm.trans empty) visible
  case h_2 => rw [trimmed]

/-- Lines that are carried as they stand have their statement for a value. -/
theorem value_of_ofLine? {number : Nat} {raw : List Char} {token : Token}
    (given : Token.ofLine? number raw = some token) (carried : token.kind = .line) :
    token.value = token.statement := by
  unfold Token.ofLine? at given
  split at given
  · cases given
  · cases given
    simp only [Token.ofStatement] at carried ⊢
    rw [if_pos carried]

/-- What stands behind the keyword of a trimmed line. -/
inductive Behind : List Char → List Char → Prop where
  | nothing : Behind [] []
  | value {value : List Char} (trimmed : Trimmed value) : Behind (' ' :: value) value

theorem Behind.trim_eq {tail value : List Char} (behind : Behind tail value) : trim tail = value := by
  cases behind with
  | nothing => rfl
  | value trimmed =>
      calc
        trim (' ' :: value) = trim value := trim_cons_blank (by decide)
        _ = value := trimmed.trim_eq

theorem Behind.splitWord_eq {word tail value : List Char} (solid : Solid word)
    (behind : Behind tail value) : splitWord (word ++ tail) = (word, tail) := by
  apply splitWord_append solid
  intro c head
  cases behind with
  | nothing => cases head
  | value =>
      cases head
      decide

theorem solid_of_mem_keywords {word : String} (keyword : word ∈ keywords) : Solid word.toList := by
  simp only [keywords, List.mem_cons, List.not_mem_nil, or_false] at keyword
  rcases keyword with rfl | rfl | rfl | rfl | rfl <;> decide

theorem toList_ne_nil_of_mem_keywords {word : String} (keyword : word ∈ keywords) :
    word.toList ≠ [] := by
  simp only [keywords, List.mem_cons, List.not_mem_nil, or_false] at keyword
  rcases keyword with rfl | rfl | rfl | rfl | rfl <;> decide

theorem ofWord_ne_line {word : String} (keyword : word ∈ keywords) :
    Token.Kind.ofWord word ≠ .line := by
  simp only [keywords, List.mem_cons, List.not_mem_nil, or_false] at keyword
  rcases keyword with rfl | rfl | rfl | rfl | rfl <;> decide

theorem toList_printKeyword (word value : String) :
    (printKeyword word value).toList = word.toList ++ ' ' :: value.toList := by
  simp [printKeyword, String.toList_append]

theorem unbroken_printKeyword {word value : String} (keyword : word ∈ keywords) (neat : Neat value) :
    Unbroken (printKeyword word value).toList := by
  intro c member
  rw [toList_printKeyword] at member
  rcases List.mem_append.mp member with front | member
  · exact (solid_of_mem_keywords keyword).unbroken c front
  · rcases List.mem_cons.mp member with rfl | behind
    · decide
    · exact neat.unbroken c behind

theorem ofWord_eq_line {word : String} (plain : word ∉ keywords) :
    Token.Kind.ofWord word = .line := by
  simp only [keywords, List.mem_cons, List.not_mem_nil, or_false, not_or] at plain
  rcases plain with ⟨loop, endLoop, define, endDefine, call⟩
  rw [Token.Kind.ofWord, if_neg loop, if_neg endLoop, if_neg define, if_neg endDefine, if_neg call]

/-- A line that was trimmed to a keyword and a value. -/
theorem gives_of_trim {line word : String} {tail value : List Char} (keyword : word ∈ keywords)
    (trimmed : trim line.toList = word.toList ++ tail) (behind : Behind tail value) :
    Gives line (Token.Kind.ofWord word) (String.ofList value) := by
  intro number
  have visible : word.toList ++ tail ≠ [] := by
    simp [toList_ne_nil_of_mem_keywords keyword]
  have parts := behind.splitWord_eq (solid_of_mem_keywords keyword)
  refine ⟨_, ofLine?_of_trim trimmed visible, ?_, ?_⟩
  · simp only [Token.ofStatement, parts, String.ofList_toList]
  · simp only [Token.ofStatement, parts, String.ofList_toList, if_neg (ofWord_ne_line keyword),
      behind.trim_eq]

theorem gives_word {word : String} (keyword : word ∈ keywords) :
    Gives word (Token.Kind.ofWord word) "" := by
  have trimmed : trim word.toList = word.toList ++ [] := by
    rw [List.append_nil, (solid_of_mem_keywords keyword).trimmed.trim_eq]
  exact gives_of_trim keyword trimmed .nothing

theorem trim_word_blank {word : List Char} (solid : Solid word) : trim (word ++ [' ']) = word := by
  rw [trim_concat_blank (by decide) solid.trimmed.first, trimEnd_of_last solid.trimmed.last]

theorem trimmed_word_value {word value : List Char} (visible : word ≠ []) (solid : Solid word)
    (some : value ≠ []) (trimmed : Trimmed value) : Trimmed (word ++ ' ' :: value) where
  first := by
    intro c head
    apply solid.trimmed.first c
    rwa [List.head?_append_of_ne_nil _ visible] at head
  last := by
    intro c last
    apply trimmed.last c
    rwa [List.append_cons, List.getLast?_append_of_ne_nil _ some] at last

/-- The value may be empty, and the blank before it is then trimmed off with it. -/
theorem gives_keyword {word value : String} (keyword : word ∈ keywords) (neat : Neat value) :
    Gives (printKeyword word value) (Token.Kind.ofWord word) value := by
  have written := toList_printKeyword word value
  have solid := solid_of_mem_keywords keyword
  have visible := toList_ne_nil_of_mem_keywords keyword
  have same : String.ofList value.toList = value := String.ofList_toList
  -- Without a value the blank ends the line.
  by_cases empty : value.toList = []
  · have trimmed : trim (printKeyword word value).toList = word.toList ++ [] := by
      rw [written, empty, trim_word_blank solid, List.append_nil]
    have gives := gives_of_trim keyword trimmed .nothing
    rwa [← empty, same] at gives
  · have whole : trim (printKeyword word value).toList = word.toList ++ ' ' :: value.toList := by
      rw [written, (trimmed_word_value visible solid empty neat.trimmed).trim_eq]
    have gives := gives_of_trim keyword whole (.value neat.trimmed)
    rwa [same] at gives

theorem Opcode.Says.gives {opcode : Opcode} {text : String} (said : opcode.Says text) :
    Gives text .line text := by
  intro number
  have visible : text.toList ≠ [] := by simpa using said.visible
  have carried := ofWord_eq_line said.first
  refine ⟨_, ofLine?_of_trim said.neat.trimmed.trim_eq visible, carried, ?_⟩
  simp only [Token.ofStatement, carried, if_true, String.ofList_toList]

theorem neat_printSignature {name : String} {items : List String} (named : PrintableName name)
    (listed : ∀ item ∈ items, PrintableItem item) : Neat (printSignature name items) := by
  have whole := toList_printSignature name items
  refine ⟨⟨?_, ?_⟩, ?_⟩
  · intro c head
    rw [whole] at head
    cases first : name.toList with
    | nil =>
        rw [first] at head
        cases head
        decide
    | cons d ds =>
        rw [first] at head
        cases head
        exact named.neat.trimmed.first c (by rw [first]; rfl)
  · intro c last
    rw [whole, List.append_cons, ← List.append_assoc, List.getLast?_concat] at last
    cases last
    decide
  · intro c member
    rw [whole] at member
    simp only [List.mem_append, List.mem_cons, List.not_mem_nil, or_false] at member
    rcases member with inName | rfl | inItems | rfl
    · exact named.neat.unbroken c inName
    · decide
    · rcases of_mem_intercalate inItems with between | ⟨cs, present, within⟩
      · simp only [List.mem_cons, List.not_mem_nil, or_false] at between
        rcases between with rfl | rfl <;> decide
      · rcases List.mem_map.mp present with ⟨item, listing, rfl⟩
        exact (listed item listing).neat.unbroken c within
    · decide

theorem Expr.PrintableCount.neat {count : Expr} (printable : count.PrintableCount) :
    Neat count.print := by
  cases count with
  | literal value => exact (printableItem_toString value).neat
  | identifier name => exact printable.1
  | unknown => exact printable.elim

end Lamplighter
