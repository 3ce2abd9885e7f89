import Lamplighter.Proofs.Program.Blocks
import Lamplighter.Proofs.Program.Reading

/-! Only a literal that is too long is refused.

Lines whose literals are short give a tree, however their blocks are nested, crossed
or left open. Main statement: `Program.ofTokens_of_short`. -/

namespace Lamplighter

/-- The text is no literal, or one that is not too long. -/
def Parser.Short (text : String) : Prop :=
  ∀ numeral ∈ Text.Numeral.ofChars? text.toList, numeral.size ≤ Text.maxDigits

instance (text : String) : Decidable (Parser.Short text) :=
  inferInstanceAs (Decidable (∀ numeral ∈ Text.Numeral.ofChars? text.toList,
    numeral.size ≤ Text.maxDigits))

/-- A line's literals stand in the count of a loop and in the arguments of a call. -/
structure Token.Short (token : Token) : Prop where
  loop : token.kind = .loop → Parser.Short token.value
  call : token.kind = .call → ∀ item ∈ (Parser.signature token.value).2, Parser.Short item

instance (token : Token) : Decidable token.Short :=
  decidable_of_iff ((token.kind = .loop → Parser.Short token.value) ∧
      (token.kind = .call → ∀ item ∈ (Parser.signature token.value).2, Parser.Short item))
    ⟨fun parts => ⟨parts.1, parts.2⟩, fun short => ⟨short.loop, short.call⟩⟩

namespace Parser

variable {tokens : List Token}

theorem expression_of_short {text : String} (short : Short text) :
    ∃ expr, expression text = .ok expr := by
  unfold expression
  cases read : Text.Numeral.ofChars? text.toList with
  | none => exact ⟨_, rfl⟩
  | some numeral => exact ⟨_, if_neg (Nat.not_lt.mpr (short numeral read))⟩

theorem expressions_of_short {texts : List String} (short : ∀ text ∈ texts, Short text) :
    ∃ exprs, expressions texts = .ok exprs := by
  induction texts with
  | nil => exact ⟨[], rfl⟩
  | cons text texts ih =>
      obtain ⟨first, read⟩ := expression_of_short (short text (.head _))
      obtain ⟨rest, others⟩ := ih (fun other member => short other (.tail _ member))
      refine ⟨first :: rest, ?_⟩
      simp only [expressions, bind_eq_ok]
      exact ⟨first, read, rest, others, rfl⟩

theorem statements_of_short (file : String) (short : ∀ token ∈ tokens, token.Short) :
    ∃ instrs, statements file tokens = .ok instrs := by
  induction tokens using read_induct with
  | nil => exact ⟨[], by rw [statements]⟩
  | define token tokens kind ih =>
      rw [statements_define kind]
      exact ih (fun other member => short other (.tail _ (mem_of_splitBlock_snd member)))
  | loop token tokens kind ihBody ihRest =>
      obtain ⟨count, counted⟩ := expression_of_short ((short token (.head _)).loop kind)
      obtain ⟨body, inner⟩ :=
        ihBody (fun other member => short other (.tail _ (mem_of_splitBlock_fst member)))
      obtain ⟨rest, behind⟩ :=
        ihRest (fun other member => short other (.tail _ (mem_of_splitBlock_snd member)))
      simp only [statements_loop kind, bind_eq_ok]
      exact ⟨_, count, counted, body, inner, rest, behind, rfl⟩
  | call token tokens kind ih =>
      obtain ⟨args, valued⟩ := expressions_of_short ((short token (.head _)).call kind)
      obtain ⟨rest, behind⟩ := ih (fun other member => short other (.tail _ member))
      simp only [statements_call kind, bind_eq_ok]
      exact ⟨_, args, valued, rest, behind, rfl⟩
  | act token tokens kind ih =>
      obtain ⟨rest, behind⟩ := ih (fun other member => short other (.tail _ member))
      simp only [statements_act kind, bind_eq_ok]
      exact ⟨_, rest, behind, rfl⟩

theorem functions_of_short (file : String) (short : ∀ token ∈ tokens, token.Short)
    (table : Table FunDef) : ∃ final, functions file tokens table = .ok final := by
  induction tokens using collect_induct generalizing table with
  | nil => exact ⟨table, by rw [functions]⟩
  | define token tokens kind ih =>
      obtain ⟨body, inner⟩ := statements_of_short file
        (fun other member => short other (.tail _ (mem_of_splitBlock_fst member)))
      obtain ⟨final, behind⟩ :=
        ih (fun other member => short other (.tail _ (mem_of_splitBlock_snd member))) _
      refine ⟨final, ?_⟩
      rw [functions_define kind, bind_eq_ok]
      exact ⟨body, inner, behind⟩
  | other token tokens kind ih =>
      rw [functions_other kind]
      exact ih (fun other member => short other (.tail _ member)) table

end Parser

theorem Program.ofTokens_of_short (file : String) {tokens : List Token}
    (short : ∀ token ∈ tokens, token.Short) :
    ∃ program, Program.ofTokens file tokens = .ok program := by
  obtain ⟨functions, collected⟩ := Parser.functions_of_short file short .empty
  obtain ⟨instrs, read⟩ := Parser.statements_of_short file short
  refine ⟨⟨file, functions, instrs⟩, ?_⟩
  simp only [Program.ofTokens, bind_eq_ok]
  exact ⟨functions, collected, instrs, read, rfl⟩

end Lamplighter
