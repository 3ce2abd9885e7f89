import Lamplighter.Proofs.Program.Signature
import Lamplighter.Proofs.Program.Source
import Lamplighter.Proofs.Text.LineEnds

/-! Line ends do not get into a program.

A program is read line by line, so no part of one of its lines holds the end of a line: neither
its statement, nor the name and the items that are read from it. Main statements:
`Token.unbroken`, `Parser.unbroken_signature`. -/

namespace Lamplighter

namespace Text

theorem Unbroken.subset {cs part : List Char} (unbroken : Unbroken cs) (inside : part ⊆ cs) :
    Unbroken part := fun c member => unbroken c (inside member)

theorem Unbroken.trim {cs : List Char} (unbroken : Unbroken cs) : Unbroken (Text.trim cs) := by
  have start : Unbroken (trimStart cs) := unbroken.subset (List.dropWhile_suffix _).subset
  have back : Text.trim cs <+: trimStart cs := trimEnd_prefix (trimStart cs)
  exact start.subset back.subset

theorem subset_intercalate {separator : List Char} {items : List (List Char)} {item : List Char}
    (member : item ∈ items) : item ⊆ separator.intercalate items := by
  induction items with
  | nil => cases member
  | cons first items ih =>
      cases items with
      | nil =>
          rw [List.mem_singleton.mp member]
          simp [List.intercalate]
      | cons next items =>
          rw [List.intercalate_cons_cons]
          rcases List.mem_cons.mp member with rfl | later
          · exact fun c inside => List.mem_append_left _ (List.mem_append_left _ inside)
          · exact fun c inside => List.mem_append_right _ (ih later inside)

theorem subset_of_mem_splitOn {c : Char} {cs part : List Char} (member : part ∈ cs.splitOn c) :
    part ⊆ cs := by
  have inside : part ⊆ [c].intercalate (cs.splitOn c) := subset_intercalate member
  rwa [List.intercalate_splitOn] at inside

end Text

theorem Token.unbroken {source : Text.Source} {token : Token} (member : token ∈ ofSource source) :
    Text.Unbroken token.statement.toList ∧ Text.Unbroken token.value.toList := by
  rcases exists_line_of_mem member with ⟨raw, _, found, given⟩
  have whole : Text.Unbroken raw.toList :=
    Text.Source.unbroken_of_mem_lines (List.mem_of_getElem? found)
  have trimmed := whole.trim
  rw [(ofLine?_eq_some given).2, ofStatement]
  simp only [Text.splitWord, List.span_eq_takeWhile_dropWhile, String.toList_ofList]
  refine ⟨trimmed, ?_⟩
  split
  · exact trimmed
  · exact (trimmed.subset (List.dropWhile_suffix _).subset).trim

theorem Parser.unbroken_signature {text : String} (unbroken : Text.Unbroken text.toList) :
    Text.Unbroken (signature text).1.toList ∧
      ∀ item ∈ (signature text).2, Text.Unbroken item.toList := by
  simp only [signature, List.span_eq_takeWhile_dropWhile, String.toList_ofList]
  constructor
  · exact (unbroken.subset (List.takeWhile_prefix _).subset).trim
  · intro item member
    rcases List.mem_map.mp member with ⟨cs, kept, rfl⟩
    rcases List.mem_map.mp (List.mem_filter.mp kept).1 with ⟨part, among, rfl⟩
    have inside : part ⊆ text.toList :=
      calc part
        _ ⊆ _ := Text.subset_of_mem_splitOn among
        _ ⊆ _ := (List.takeWhile_prefix _).subset
        _ ⊆ _ := (List.drop_suffix 1 _).subset
        _ ⊆ text.toList := (List.dropWhile_suffix _).subset
    rw [String.toList_ofList]
    exact (unbroken.subset inside).trim

end Lamplighter
