import Lamplighter.Proofs.Program.Nodes
import Lamplighter.Proofs.Text.Decimal

/-! What a parse error reports.

Both passes stop at the first literal that is too long among the lines that they read, in the
order in which they read them, and an error of theirs gives the number of its digits. Main
statements: `refusal_statements`, `refusal_functions`. -/

namespace Lamplighter

section First

variable {α β : Type} {view other : α → Option β} {values : List α}

theorem findSome?_cons_or (view : α → Option β) (first : α) (values : List α) :
    (first :: values).findSome? view = (view first).or (values.findSome? view) := by
  rw [List.findSome?_cons]
  cases view first <;> rfl

theorem findSome?_congr (same : ∀ value ∈ values, view value = other value) :
    values.findSome? view = values.findSome? other := by
  rw [← List.head?_filterMap, List.filterMap_congr same, List.head?_filterMap]

theorem findSome?_flatMap {γ : Type} (view : α → Option β) (parts : γ → List α)
    (values : List γ) :
    (values.flatMap parts).findSome? view =
      values.findSome? fun value => (parts value).findSome? view := by
  induction values with
  | nil => rfl
  | cons value values ih =>
      rw [List.flatMap_cons, List.findSome?_append, findSome?_cons_or, ih]

/-- Values with nothing to find may go. -/
theorem findSome?_eq_filter (view : α → Option β) (values : List α) :
    values.findSome? view = (values.filter fun value => (view value).isSome).findSome? view := by
  induction values with
  | nil => rfl
  | cons value values ih =>
      cases seen : view value with
      | none => simp [seen, ih]
      | some => simp [seen]

end First

/-- The texts of a line that are read as expressions. -/
def Token.operands (token : Token) : List String :=
  match token.kind with
  | .loop => [token.value]
  | .call => (Parser.signature token.value).2
  | .endLoop | .define | .endDefine | .line => []

namespace Parser

/-- The text is a decimal integer of so many digits, and of too many. Its sign does not count,
leading zeros do. -/
def Exceeds (text : String) (size : Nat) : Prop :=
  ∃ sign digits : List Char, (sign = [] ∨ sign = ['-'] ∨ sign = ['+']) ∧
    text.toList = sign ++ digits ∧ (∀ c ∈ digits, Text.isDigit c = true) ∧
    digits.length = size ∧ Text.maxDigits < size

/-- The number of digits of a literal that is too long. -/
def overlong? (text : String) : Option Nat :=
  ((Text.Numeral.ofChars? text.toList).map Text.Numeral.size).filter fun size =>
    Text.maxDigits < size

end Parser

/-- The number of digits of the first literal of a line that is too long. -/
def Token.overlong? (token : Token) : Option Nat := token.operands.findSome? Parser.overlong?

namespace Parser

variable {file : String} {token : Token} {tokens : List Token}

theorem overlong?_eq_some_iff {text : String} {size : Nat} :
    overlong? text = some size ↔ Exceeds text size := by
  simp only [overlong?, Option.filter_eq_some_iff, Option.map_eq_some_iff, decide_eq_true_eq]
  constructor
  · rintro ⟨⟨numeral, read, sized⟩, long⟩
    rcases Text.Numeral.of_ofChars? read with ⟨sign, signed, written, _, digits⟩
    exact ⟨sign, numeral.digits, signed, written, digits, sized, long⟩
  · rintro ⟨sign, digits, signed, written, all, sized, long⟩
    have some : digits ≠ [] := List.ne_nil_of_length_pos (by omega)
    rcases Text.Numeral.ofChars?_of_digits signed some all with ⟨negative, read⟩
    rw [written]
    exact ⟨⟨_, read, sized⟩, long⟩

/-- The number of digits that an error reports. -/
def refusal {α : Type} : Except ParseError α → Option Nat
  | .error error => some error.digits
  | .ok _ => none

theorem refusal_eq_some_iff {α : Type} {result : Except ParseError α} {digits : Nat} :
    refusal result = some digits ↔ result = .error ⟨digits⟩ := by
  cases result with
  | error error =>
      rcases error with ⟨reported⟩
      simp [refusal]
  | ok => simp [refusal]

/-- What comes first is refused first, and is not heard of later. -/
theorem refusal_bind {α β : Type} {first : Except ParseError α}
    {next : α → Except ParseError β} {later : Option Nat}
    (same : ∀ value, refusal (next value) = later) :
    refusal (first >>= next) = (refusal first).or later := by
  cases first with
  | error => rfl
  | ok value => exact same value

theorem refusal_return {α β : Type} (first : Except ParseError α) (build : α → β) :
    refusal (first >>= fun value => return build value) = refusal first := by
  cases first <;> rfl

theorem refusal_expression (text : String) : refusal (expression text) = overlong? text := by
  unfold expression overlong?
  cases Text.Numeral.ofChars? text.toList with
  | none => rfl
  | some numeral =>
      by_cases long : Text.maxDigits < numeral.size <;> simp [long, refusal, Option.filter]

theorem refusal_expressions (texts : List String) :
    refusal (expressions texts) = texts.findSome? overlong? := by
  induction texts with
  | nil => rfl
  | cons text texts ih =>
      rw [expressions, findSome?_cons_or, ← refusal_expression, ← ih]
      exact refusal_bind fun first => refusal_return _ (first :: ·)

/-- The literal that is too long in the line of this number. -/
def overlongAt? (tokens : List Token) (place : Nat) : Option Nat :=
  tokens[place]?.bind Token.overlong?

theorem getElem?_after_block {opening closing : Token.Kind} {depth : Nat} (token : Token)
    (tokens : List Token) (place : Nat) :
    (token :: tokens)[place + ((splitBlock opening closing depth tokens).1.length + 2)]? =
      ((splitBlock opening closing depth tokens).2.drop 1)[place]? := by
  have further : place + ((splitBlock opening closing depth tokens).1.length + 2) =
      (splitBlock opening closing depth tokens).1.length + (1 + place) + 1 := by omega
  have parts := splitBlock_append opening closing depth tokens
  generalize splitBlock opening closing depth tokens = block at further parts ⊢
  rw [further, List.getElem?_cons_succ, List.getElem?_drop, ← parts,
    List.getElem?_append_right (Nat.le_add_right ..), Nat.add_sub_cancel_left]

theorem findSome?_behind (token : Token) (tokens : List Token) (places : List Nat) :
    (places.map (· + 1)).findSome? (overlongAt? (token :: tokens)) =
      places.findSome? (overlongAt? tokens) := by
  rw [List.findSome?_map]
  rfl

theorem findSome?_after_block {opening closing : Token.Kind} {depth : Nat} (token : Token)
    (tokens : List Token) (places : List Nat) :
    (places.map (· + ((splitBlock opening closing depth tokens).1.length + 2))).findSome?
        (overlongAt? (token :: tokens)) =
      places.findSome? (overlongAt? ((splitBlock opening closing depth tokens).2.drop 1)) := by
  rw [List.findSome?_map]
  refine findSome?_congr fun place _ => ?_
  rw [Function.comp_apply, overlongAt?, getElem?_after_block, overlongAt?]

theorem findSome?_loopBlock (tokens : List Token) :
    (nodePlaces (loopBlock tokens).1).findSome? (overlongAt? (loopBlock tokens).1) =
      (nodePlaces (loopBlock tokens).1).findSome? (overlongAt? tokens) := by
  refine findSome?_congr fun place member => ?_
  have bound := lt_length_of_mem_nodePlaces member
  have inside : (loopBlock tokens).1[place]? = tokens[place]? := by
    conv_rhs => rw [← loopBlock_append tokens]
    rw [List.getElem?_append_left bound]
  rw [overlongAt?, inside, overlongAt?]

/-- An error of the pass over statements is that of the first line that it comes to and cannot
read. -/
theorem refusal_statements (file : String) (tokens : List Token) :
    refusal (statements file tokens) = (nodePlaces tokens).findSome? (overlongAt? tokens) := by
  induction tokens using read_induct with
  | nil =>
      rw [statements, nodePlaces]
      rfl
  | define token tokens kind ih =>
      rw [statements_define kind, nodePlaces_define kind, ih]
      exact (findSome?_after_block token tokens _).symm
  | loop token tokens kind ihBody ihRest =>
      have here : overlongAt? (token :: tokens) 0 = overlong? token.value := by
        simp [overlongAt?, Token.overlong?, Token.operands, kind]
      have behind : ((nodePlaces (afterLoop tokens)).map
          (· + ((loopBlock tokens).1.length + 2))).findSome? (overlongAt? (token :: tokens)) =
            refusal (statements file (afterLoop tokens)) :=
        (findSome?_after_block token tokens _).trans ihRest.symm
      rw [statements_loop kind, nodePlaces_loop kind, findSome?_cons_or, List.findSome?_append,
        findSome?_behind, here, behind, ← findSome?_loopBlock, ← ihBody, ← refusal_expression]
      exact refusal_bind fun count => refusal_bind fun body => refusal_return _ _
  | call token tokens kind ih =>
      have here : overlongAt? (token :: tokens) 0 = (signature token.value).2.findSome? overlong? := by
        simp [overlongAt?, Token.overlong?, Token.operands, kind]
      rw [statements_call kind, nodePlaces_single (by simp [kind]) (by simp [kind]),
        findSome?_cons_or, findSome?_behind, here, ← ih, ← refusal_expressions]
      exact refusal_bind fun args => refusal_return _ _
  | act token tokens kind ih =>
      have here : overlongAt? (token :: tokens) 0 = none := by
        rcases kind with kind | kind | kind <;>
          simp [overlongAt?, Token.overlong?, Token.operands, kind]
      rw [statements_act kind, nodePlaces_single kind.kind_ne.1 kind.kind_ne.2,
        findSome?_cons_or, findSome?_behind, here, ← ih, Option.none_or]
      exact refusal_return _ _

/-- An error of the pass that collects functions is that of the first body that cannot be
read. -/
theorem refusal_functions (file : String) (tokens : List Token) (table : Table FunDef)
    (front : List Token) :
    refusal (functions file tokens table) =
      (functionBlocks front.length tokens).findSome? fun block =>
        refusal (statements file (inside (front ++ tokens) block)) := by
  induction tokens using collect_induct generalizing table front with
  | nil =>
      rw [functions, functionBlocks_nil]
      rfl
  | define token tokens kind ih =>
      rw [functions_define kind, functionBlocks_define kind, findSome?_cons_or, inside_here]
      refine refusal_bind fun body => ?_
      by_cases more : afterFunction tokens = []
      · rw [more, functions, functionBlocks_nil]
        rfl
      · rcases parts_behind token more with ⟨lines, parts, length⟩
        have whole : front ++ token :: tokens = front ++ lines ++ afterFunction tokens := by
          rw [parts, List.append_assoc]
          rfl
        have start : (front ++ lines).length =
            front.length + (functionBlock tokens).1.length + 2 := by
          rw [List.length_append, length, Nat.add_assoc]
          rfl
        rw [whole, ih _ (front ++ lines), start]
  | other token tokens kind ih =>
      rw [functions_other kind, functionBlocks_other kind, ih table (front ++ [token]),
        List.append_assoc, List.length_append]
      rfl

end Parser

/-- The functions are read first. -/
theorem Program.refusal_ofTokens (file : String) (tokens : List Token) :
    Parser.refusal (Program.ofTokens file tokens) =
      (Parser.refusal (Parser.functions file tokens .empty)).or
        (Parser.refusal (Parser.statements file tokens)) :=
  Parser.refusal_bind fun _ => Parser.refusal_return _ _

end Lamplighter
