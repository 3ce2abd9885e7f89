import Mathlib.Data.List.TakeDrop
import Lamplighter.Program.Token

/-! Trimmed texts and unbroken lines.

Trimming leaves exactly the texts alone that have no white space at either end, and
a keyword line falls apart into its keyword and its value. Lines that are joined come apart
where they were joined. -/

namespace Lamplighter.Text

/-- No white space at either end. -/
structure Trimmed (cs : List Char) : Prop where
  first : ∀ c, cs.head? = some c → isBlank c = false
  last : ∀ c, cs.getLast? = some c → isBlank c = false

theorem trimStart_of_first {cs : List Char}
    (first : ∀ c, cs.head? = some c → isBlank c = false) : trimStart cs = cs := by
  cases cs with
  | nil => rfl
  | cons c cs => simp [trimStart, first c rfl]

theorem trimEnd_of_last {cs : List Char}
    (last : ∀ c, cs.getLast? = some c → isBlank c = false) : trimEnd cs = cs := by
  have reversed : trimStart cs.reverse = cs.reverse := by
    apply trimStart_of_first
    intro c head
    rw [List.head?_reverse] at head
    exact last c head
  change (trimStart cs.reverse).reverse = cs
  rw [reversed, List.reverse_reverse]

theorem Trimmed.trim_eq {cs : List Char} (trimmed : Trimmed cs) : trim cs = cs := by
  calc
    trim cs = trimEnd (trimStart cs) := rfl
    _ = trimEnd cs := by rw [trimStart_of_first trimmed.first]
    _ = cs := trimEnd_of_last trimmed.last

theorem trimEnd_prefix (cs : List Char) : trimEnd cs <+: cs := by
  have suffix : trimStart cs.reverse <:+ cs.reverse := List.dropWhile_suffix _
  have flipped := List.reverse_prefix.mpr suffix
  rwa [List.reverse_reverse] at flipped

theorem trimmed_trim (cs : List Char) : Trimmed (trim cs) where
  first := by
    intro c head
    rcases trimEnd_prefix (trimStart cs) with ⟨rest, whole⟩
    apply head_trimStart cs c
    rw [← whole, List.head?_append]
    change (trim cs).head?.or rest.head? = some c
    rw [head, Option.some_or]
  last := by
    intro c last
    rw [trim, trimEnd, List.getLast?_reverse] at last
    exact head_trimStart _ c last

theorem trim_eq_self_iff {cs : List Char} : trim cs = cs ↔ Trimmed cs :=
  ⟨fun same => same ▸ trimmed_trim cs, Trimmed.trim_eq⟩

instance (cs : List Char) : Decidable (Trimmed cs) :=
  decidable_of_iff (trim cs = cs) trim_eq_self_iff

theorem trim_cons_blank {c : Char} {cs : List Char} (blank : isBlank c = true) :
    trim (c :: cs) = trim cs := by
  simp only [trim, trimStart, List.dropWhile_cons, blank, if_true]

theorem trim_concat_blank {c : Char} {cs : List Char} (blank : isBlank c = true)
    (first : ∀ c, cs.head? = some c → isBlank c = false) : trim (cs ++ [c]) = trimEnd cs := by
  cases cs with
  | nil => simp [trim, trimStart, trimEnd, blank]
  | cons head cs =>
      rw [trim, trimStart_of_first (by simpa using first head rfl), trimEnd, List.reverse_concat,
        List.dropWhile_cons, if_pos blank, trimEnd]

theorem span_append {inside : Char → Bool} {first rest : List Char}
    (all : ∀ c ∈ first, inside c = true) (ends : ∀ c, rest.head? = some c → inside c = false) :
    (first ++ rest).span inside = (first, rest) := by
  rw [List.span_eq_takeWhile_dropWhile, List.takeWhile_append_of_pos all,
    List.dropWhile_append_of_pos all]
  cases rest with
  | nil => simp
  | cons c cs => simp [ends c rfl]

/-- The first word ends where the first white space is. -/
theorem splitWord_append {word tail : List Char} (plain : ∀ c ∈ word, isBlank c = false)
    (ends : ∀ c, tail.head? = some c → isBlank c = true) : splitWord (word ++ tail) = (word, tail) := by
  apply span_append
  · intro c member
    rw [plain c member]
    rfl
  · intro c head
    rw [ends c head]
    rfl

/-- No line ends inside the text. -/
def Unbroken (cs : List Char) : Prop := ∀ c ∈ cs, isBreak c = false

instance (cs : List Char) : Decidable (Unbroken cs) :=
  decidable_of_iff (cs.all (fun c => !isBreak c) = true) (by simp [Unbroken])

theorem Unbroken.splitLines_eq {cs : List Char} (unbroken : Unbroken cs) (visible : cs ≠ []) :
    splitLines cs = [cs] := by
  induction cs with
  | nil => exact absurd rfl visible
  | cons c cs ih =>
      have first : isBreak c = false := unbroken c (.head _)
      have notReturn : c ≠ '\r' := by
        rintro rfl
        exact absurd first (by decide)
      rw [splitLines, if_neg (by simp [first])]
      · cases cs with
        | nil => rfl
        | cons next cs =>
            rw [ih (fun c member => unbroken c (.tail _ member)) (by simp), extendFirst]
      · intro rest same
        exact absurd same notReturn

/-- A list of unbroken pieces is a list of lines. -/
theorem lines_pieces {items : List String} (unbroken : ∀ item ∈ items, Unbroken item.toList) :
    Source.lines (.pieces items) = items := by
  induction items with
  | nil => rfl
  | cons item items ih =>
      have rest := ih (fun other member => unbroken other (.tail _ member))
      rw [Source.lines] at rest ⊢
      rw [List.flatMap_cons, rest]
      split
      case isTrue empty => simp_all
      case isFalse visible =>
        have nonempty : item.toList ≠ [] := by simpa [String.isEmpty_iff] using visible
        rw [lines, (unbroken item (.head _)).splitLines_eq nonempty]
        simp

theorem Unbroken.splitLines_append {line : List Char} (unbroken : Unbroken line)
    (rest : List Char) : splitLines (line ++ '\n' :: rest) = line :: splitLines rest := by
  induction line with
  | nil =>
      rw [List.nil_append, splitLines, if_pos (by decide)]
      intro _ same
      exact absurd same (by decide)
  | cons c line ih =>
      have first : isBreak c = false := unbroken c (.head _)
      have notReturn : c ≠ '\r' := by
        rintro rfl
        exact absurd first (by decide)
      rw [List.cons_append, splitLines, if_neg (by simp [first]),
        ih (fun other member => unbroken other (.tail _ member)), extendFirst]
      intro _ same
      exact absurd same notReturn

/-- Lines that are joined are cut where they were joined. A blank one at the end would be
lost, as it opens no line. -/
theorem lines_intercalate {items : List String} (unbroken : ∀ item ∈ items, Unbroken item.toList)
    (visible : items.getLast? ≠ some "") : lines ("\n".intercalate items) = items := by
  induction items with
  | nil => rfl
  | cons item items ih =>
      have here : Unbroken item.toList := unbroken item (.head _)
      cases items with
      | nil =>
          have nonempty : item.toList ≠ [] := by simpa using visible
          rw [lines, String.intercalate_singleton, here.splitLines_eq nonempty]
          simp
      | cons next items =>
          have rest := ih (fun other member => unbroken other (.tail _ member))
            (by rwa [List.getLast?_cons_cons] at visible)
          have joined : ("\n".intercalate (item :: next :: items)).toList =
              item.toList ++ '\n' :: ("\n".intercalate (next :: items)).toList := by
            simp [String.toList_intercalate]
          rw [lines] at rest
          rw [lines, joined, here.splitLines_append, List.map_cons, rest, String.ofList_toList]

end Lamplighter.Text
