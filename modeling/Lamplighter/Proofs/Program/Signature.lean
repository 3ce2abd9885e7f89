import Lamplighter.Proofs.Program.Printer

/-! What the parser makes of a printed line.

A printed keyword line has its keyword for a kind and what was printed behind it for
a value. A signature falls apart into the name and the items that it was made of. -/

namespace Lamplighter

namespace Text

/-- Line ends are white space. -/
theorem isBreak_of_not_isBlank {c : Char} (visible : isBlank c = false) : isBreak c = false := by
  have blank : breaks.all isBlank = true := by decide
  apply Bool.eq_false_iff.mpr
  intro ends
  rw [List.all_eq_true.mp blank c (List.contains_iff_mem.mp ends)] at visible
  cases visible

theorem not_isBlank_of_isDigit {c : Char} (digit : isDigit c = true) : isBlank c = false := by
  simp only [isDigit, Bool.and_eq_true, decide_eq_true_eq] at digit
  have low : 48 ≤ c.toNat := digit.1
  have high : c.toNat ≤ 57 := digit.2
  apply Bool.eq_false_iff.mpr
  intro blank
  rcases (Ranges.has_iff blanks c).mp blank with ⟨range, member, above, below⟩
  simp only [blanks, List.mem_cons, List.not_mem_nil, or_false] at member
  rcases member with rfl | rfl | rfl | rfl | rfl | rfl | rfl | rfl | rfl | rfl <;> omega

/-- A text of visible characters only. -/
def Solid (cs : List Char) : Prop := ∀ c ∈ cs, isBlank c = false

instance (cs : List Char) : Decidable (Solid cs) :=
  decidable_of_iff (cs.all (fun c => !isBlank c) = true) (by simp [Solid])

theorem Solid.trimmed {cs : List Char} (solid : Solid cs) : Trimmed cs :=
  ⟨fun c head => solid c (List.mem_of_head? head), fun c last => solid c (List.mem_of_getLast? last)⟩

theorem Solid.unbroken {cs : List Char} (solid : Solid cs) : Unbroken cs :=
  fun c member => isBreak_of_not_isBlank (solid c member)

end Text

open Text

theorem printableItem_toString (value : Int) : PrintableItem (toString value) where
  visible := by
    intro empty
    have numeral := ofChars?_toString value
    have none : Numeral.ofChars? "".toList = none := by decide
    rw [empty, none] at numeral
    cases numeral
  neat := by
    have solid : Solid (toString value).toList := by
      intro c member
      rcases of_mem_toString member with rfl | digit
      · decide
      · exact not_isBlank_of_isDigit digit
    exact ⟨solid.trimmed, solid.unbroken⟩
  comma := by
    intro member
    exact absurd (of_mem_toString member) (by decide)
  bracket := by
    intro member
    exact absurd (of_mem_toString member) (by decide)

theorem Expr.PrintableArg.printableItem {arg : Expr} (printable : arg.PrintableArg) :
    PrintableItem arg.print := by
  cases arg with
  | literal value => exact printableItem_toString value
  | identifier name => exact printable.1
  | unknown => exact printable.elim

theorem printableItem_of_args {args : List Expr} (printable : ∀ arg ∈ args, arg.PrintableArg) :
    ∀ item ∈ args.map Expr.print, PrintableItem item := by
  intro item member
  rcases List.mem_map.mp member with ⟨arg, present, rfl⟩
  exact (printable arg present).printableItem

theorem expression_of_not_isNumeral {text : String} (name : ¬ IsNumeral text) :
    Parser.expression text = .ok (.identifier text) := by
  have none : Numeral.ofChars? text.toList = none := by simpa [IsNumeral] using name
  rw [Parser.expression, none]

theorem Expr.PrintableArg.expression {arg : Expr} (printable : arg.PrintableArg) :
    Parser.expression arg.print = .ok arg := by
  cases arg with
  | literal value => exact expression_toString printable
  | identifier name => exact expression_of_not_isNumeral printable.2
  | unknown => exact printable.elim

theorem Expr.PrintableCount.expression {count : Expr} (printable : count.PrintableCount) :
    Parser.expression count.print = .ok count := by
  cases count with
  | literal value => exact expression_toString printable
  | identifier name => exact expression_of_not_isNumeral printable.2
  | unknown => exact printable.elim

theorem expressions_print {args : List Expr} (printable : ∀ arg ∈ args, arg.PrintableArg) :
    Parser.expressions (args.map Expr.print) = .ok args := by
  induction args with
  | nil => rfl
  | cons arg args ih =>
      have rest := ih (fun other member => printable other (.tail _ member))
      simp only [List.map_cons, Parser.expressions, bind_eq_ok]
      exact ⟨arg, (printable arg (.head _)).expression, args, rest, rfl⟩

/-- Cutting a list at its commas leaves the blank that was written after each. -/
theorem splitOn_intercalate_comma (item : List Char) (items : List (List Char))
    (plain : ∀ cs ∈ item :: items, ',' ∉ cs) :
    ([',', ' '].intercalate (item :: items)).splitOn ',' =
      item :: items.map fun cs => ' ' :: cs := by
  induction items generalizing item with
  | nil =>
      have alone : [',', ' '].intercalate [item] = item := by simp [List.intercalate]
      rw [alone, List.splitOn_eq_singleton (plain item (.head _)), List.map_nil]
  | cons next items ih =>
      have first : [',', ' '].intercalate (item :: next :: items) =
          item ++ ',' :: ' ' :: [',', ' '].intercalate (next :: items) := by
        simp [List.intercalate, List.intersperse]
      have rest := ih next (fun cs member => plain cs (.tail _ member))
      rw [first, List.splitOn_append_cons_self_of_not_mem (plain item (.head _)),
        List.splitOn_cons_eq_if_modifyHead, rest]
      rfl

theorem of_mem_intercalate {separator : List Char} {items : List (List Char)} {c : Char}
    (member : c ∈ separator.intercalate items) : c ∈ separator ∨ ∃ item ∈ items, c ∈ item := by
  induction items with
  | nil => simp [List.intercalate] at member
  | cons item items ih =>
      cases items with
      | nil => exact .inr ⟨item, .head _, by simpa [List.intercalate] using member⟩
      | cons next items =>
          have parts : c ∈ item ∨ c ∈ separator ∨ c ∈ separator.intercalate (next :: items) := by
            simpa [List.intercalate] using member
          rcases parts with inside | between | later
          · exact .inr ⟨item, .head _, inside⟩
          · exact .inl between
          · rcases ih later with between | ⟨other, present, inside⟩
            · exact .inl between
            · exact .inr ⟨other, .tail _ present, inside⟩

theorem toList_printSignature (name : String) (items : List String) :
    (printSignature name items).toList =
      name.toList ++ '(' :: ([',', ' '].intercalate (items.map String.toList) ++ [')']) := by
  simp [printSignature, String.toList_append, String.toList_intercalate]

/-- The items of a signature, as they are between its brackets. -/
theorem trim_splitOn_items {items : List String} (listed : ∀ item ∈ items, PrintableItem item) :
    ((([',', ' '].intercalate (items.map String.toList)).splitOn ',').map trim).filter
      (fun item => !item.isEmpty) = items.map String.toList := by
  cases items with
  | nil => decide
  | cons item items =>
      have plain : ∀ cs ∈ (item :: items).map String.toList, ',' ∉ cs := by
        intro cs member
        rcases List.mem_map.mp member with ⟨other, present, rfl⟩
        exact (listed other present).comma
      have trimmed : ∀ other ∈ item :: items, trim other.toList = other.toList :=
        fun other present => (listed other present).neat.trimmed.trim_eq
      have spaced : (items.map String.toList).map (trim ∘ fun cs => ' ' :: cs) =
          items.map String.toList := by
        rw [List.map_map]
        apply List.map_congr_left
        intro other present
        calc
          trim (' ' :: other.toList) = trim other.toList := trim_cons_blank (by decide)
          _ = other.toList := trimmed other (.tail _ present)
      rw [List.map_cons, splitOn_intercalate_comma _ _ plain, List.map_cons, List.map_map, spaced,
        trimmed item (.head _), ← List.map_cons, List.filter_eq_self]
      intro cs member
      rcases List.mem_map.mp member with ⟨other, present, rfl⟩
      simpa using (listed other present).visible

theorem signature_printSignature {name : String} {items : List String} (named : PrintableName name)
    (listed : ∀ item ∈ items, PrintableItem item) :
    Parser.signature (printSignature name items) = (name, items) := by
  have opened : (name.toList ++ '(' :: ([',', ' '].intercalate (items.map String.toList) ++ [')'])).span
      (fun c => decide (c ≠ '(')) =
      (name.toList, '(' :: ([',', ' '].intercalate (items.map String.toList) ++ [')'])) := by
    apply span_append
    · intro c member
      apply decide_eq_true
      rintro rfl
      exact named.bracket member
    · intro c head
      cases head
      rfl
  have closed : ([',', ' '].intercalate (items.map String.toList) ++ [')']).takeWhile
      (fun c => decide (c ≠ ')')) = [',', ' '].intercalate (items.map String.toList) := by
    have inside : ∀ c ∈ [',', ' '].intercalate (items.map String.toList),
        decide (c ≠ ')') = true := by
      intro c member
      apply decide_eq_true
      rintro rfl
      rcases of_mem_intercalate member with between | ⟨cs, present, within⟩
      · exact absurd between (by decide)
      · rcases List.mem_map.mp present with ⟨item, listing, rfl⟩
        exact (listed item listing).bracket within
    rw [List.takeWhile_append_of_pos inside]
    simp
  simp only [Parser.signature, toList_printSignature, opened, List.drop_succ_cons, List.drop_zero, closed,
    trim_splitOn_items listed, named.neat.trimmed.trim_eq]
  simp

end Lamplighter
