import Mathlib.Data.List.Infix
import Lamplighter.Program.Parser

/-! How far a block reaches.

The scan for a closer counts openers and closers and looks at nothing else, nor at
anything behind the closer. Lines in which the two kinds balance leave its count as it
was. Main statement: `Balanced.closed`. -/

namespace Lamplighter.Parser

theorem loopBlock_append (tokens : List Token) :
    (loopBlock tokens).1 ++ (loopBlock tokens).2 = tokens := splitBlock_append ..

theorem functionBlock_append (tokens : List Token) :
    (functionBlock tokens).1 ++ (functionBlock tokens).2 = tokens := splitBlock_append ..

theorem mem_of_splitBlock_fst {opener closer : Token.Kind} {depth : Nat} {token : Token}
    {tokens : List Token} (member : token ∈ (splitBlock opener closer depth tokens).1) :
    token ∈ tokens := by
  rw [← splitBlock_append opener closer depth tokens]
  exact List.mem_append_left _ member

theorem mem_of_splitBlock_snd {opener closer : Token.Kind} {depth : Nat} {token : Token}
    {tokens : List Token} (member : token ∈ (splitBlock opener closer depth tokens).2.drop 1) :
    token ∈ tokens := by
  rw [← splitBlock_append opener closer depth tokens]
  exact List.mem_append_right _ (List.mem_of_mem_drop member)

theorem splitBlock_other {opener closer : Token.Kind} {token : Token} (depth : Nat)
    (tokens : List Token) (closes : token.kind ≠ closer) :
    splitBlock opener closer depth (token :: tokens) =
      (token :: (splitBlock opener closer (if token.kind = opener then depth + 1 else depth) tokens).1,
        (splitBlock opener closer (if token.kind = opener then depth + 1 else depth) tokens).2) := by
  conv_lhs => unfold splitBlock
  rw [if_neg closes]

/-- A scan for a closer passes over these lines at every depth. -/
def Closed (opener closer : Token.Kind) (tokens : List Token) : Prop :=
  ∀ depth rest, splitBlock opener closer depth (tokens ++ rest) =
    (tokens ++ (splitBlock opener closer depth rest).1, (splitBlock opener closer depth rest).2)

variable {opener closer : Token.Kind} {tokens first second : List Token}

theorem closed_nil : Closed opener closer [] := fun _ _ => rfl

theorem Closed.append (before : Closed opener closer first) (after : Closed opener closer second) :
    Closed opener closer (first ++ second) := by
  intro depth rest
  rw [List.append_assoc, before, after, List.append_assoc]

theorem closed_single {token : Token} (opens : token.kind ≠ opener) (closes : token.kind ≠ closer) :
    Closed opener closer [token] := by
  intro depth rest
  simp only [List.cons_append, List.nil_append]
  rw [splitBlock_other depth rest closes, if_neg opens]

theorem closed_of_plain (plain : ∀ token ∈ tokens, token.kind ≠ opener ∧ token.kind ≠ closer) :
    Closed opener closer tokens := by
  induction tokens with
  | nil => exact closed_nil
  | cons token tokens ih =>
      have head := plain token (.head _)
      have tail := ih (fun other member => plain other (.tail _ member))
      exact (closed_single head.1 head.2).append tail

/-- A whole block inside the lines goes one deeper and comes back. -/
theorem Closed.block {opening closing : Token} (inner : Closed opener closer tokens)
    (opens : opening.kind = opener) (closes : closing.kind = closer) (apart : opener ≠ closer) :
    Closed opener closer (opening :: (tokens ++ [closing])) := by
  intro depth rest
  have start : opening.kind ≠ closer := by rwa [opens]
  simp only [List.cons_append, List.append_assoc, List.nil_append]
  rw [splitBlock_other depth _ start, if_pos opens, inner, splitBlock, if_pos closes]

/-- The scan after an opener ends at the closer of its own block. -/
theorem Closed.splitBlock_eq {closing : Token} (inner : Closed opener closer tokens)
    (closes : closing.kind = closer) (rest : List Token) :
    splitBlock opener closer 0 (tokens ++ closing :: rest) = (tokens, closing :: rest) := by
  rw [inner, splitBlock, if_pos closes, List.append_nil]

/-- The depth behind a line of this kind, unless it is the closer that is looked for. -/
def depthBehind (opener closer : Token.Kind) (depth : Nat) (kind : Token.Kind) : Option Nat :=
  if kind = closer then if depth = 0 then none else some (depth - 1)
  else if kind = opener then some (depth + 1) else some depth

theorem splitBlock_stops {depth : Nat} {token : Token}
    (found : depthBehind opener closer depth token.kind = none) (tokens : List Token) :
    splitBlock opener closer depth (token :: tokens) = ([], token :: tokens) := by
  unfold depthBehind at found
  split at found
  case isTrue closes =>
    cases depth with
    | zero => rw [splitBlock, if_pos closes]
    | succ depth => simp at found
  case isFalse => split at found <;> cases found

theorem splitBlock_passes {depth inner : Nat} {token : Token}
    (passed : depthBehind opener closer depth token.kind = some inner) (tokens : List Token) :
    splitBlock opener closer depth (token :: tokens) =
      (token :: (splitBlock opener closer inner tokens).1,
        (splitBlock opener closer inner tokens).2) := by
  unfold depthBehind at passed
  by_cases closes : token.kind = closer
  · rw [if_pos closes] at passed
    cases depth with
    | zero => cases passed
    | succ depth =>
        cases passed
        rw [splitBlock, if_pos closes]
        rfl
  · rw [if_neg closes] at passed
    rw [splitBlock_other depth tokens closes]
    by_cases opens : token.kind = opener
    · rw [if_pos opens] at passed ⊢
      cases passed
      rfl
    · rw [if_neg opens] at passed ⊢
      cases passed
      rfl

/-- A line that comes into the block is passed over. -/
theorem of_splitBlock_cons {depth : Nat} {token : Token} {tokens body back : List Token}
    (ends : splitBlock opener closer depth (token :: tokens) = (token :: body, back)) :
    ∃ inner, depthBehind opener closer depth token.kind = some inner ∧
      splitBlock opener closer inner tokens = (body, back) := by
  cases behind : depthBehind opener closer depth token.kind with
  | none =>
      rw [splitBlock_stops behind] at ends
      cases ends
  | some inner =>
      rw [splitBlock_passes behind, Prod.mk.injEq, List.cons.injEq] at ends
      exact ⟨inner, rfl, Prod.ext ends.1.2 ends.2⟩

/-- The scan finds its closer among the first lines, or goes on behind them at a depth
that hangs on them alone. -/
theorem splitBlock_front (opener closer : Token.Kind) (depth : Nat) (front : List Token) :
    (∃ body closing rest, front = body ++ closing :: rest ∧ ∀ back,
      splitBlock opener closer depth (front ++ back) = (body, closing :: (rest ++ back))) ∨
    ∃ later, ∀ back, splitBlock opener closer depth (front ++ back) =
      (front ++ (splitBlock opener closer later back).1, (splitBlock opener closer later back).2) := by
  induction front generalizing depth with
  | nil => exact .inr ⟨depth, fun _ => rfl⟩
  | cons token front ih =>
      cases behind : depthBehind opener closer depth token.kind with
      | none => exact .inl ⟨[], token, front, rfl, fun back => splitBlock_stops behind _⟩
      | some inner =>
          rcases ih inner with ⟨body, closing, rest, rfl, ends⟩ | ⟨later, goesOn⟩
          · refine .inl ⟨token :: body, closing, rest, rfl, fun back => ?_⟩
            rw [List.cons_append, splitBlock_passes behind, ends]
          · refine .inr ⟨later, fun back => ?_⟩
            rw [List.cons_append, splitBlock_passes behind, goesOn, List.cons_append]

/-- What stands behind the closer does not matter. -/
theorem splitBlock_behind {depth : Nat} {body rest : List Token} {closing : Token}
    (ends : splitBlock opener closer depth (body ++ closing :: rest) = (body, closing :: rest))
    (other : List Token) :
    splitBlock opener closer depth (body ++ closing :: other) = (body, closing :: other) := by
  induction body generalizing depth with
  | nil =>
      rw [List.nil_append] at ends ⊢
      cases behind : depthBehind opener closer depth closing.kind with
      | none => exact splitBlock_stops behind _
      | some inner =>
          rw [splitBlock_passes behind] at ends
          simp at ends
  | cons token body ih =>
      rw [List.cons_append] at ends ⊢
      rcases of_splitBlock_cons ends with ⟨inner, behind, further⟩
      rw [splitBlock_passes behind, ih further]

theorem splitBlock_in_front {depth : Nat} {front : List Token}
    (found : (splitBlock opener closer depth front).2 ≠ []) :
    ∃ body closing rest, front = body ++ closing :: rest ∧ ∀ back,
      splitBlock opener closer depth (front ++ back) = (body, closing :: (rest ++ back)) := by
  rcases splitBlock_front opener closer depth front with ends | ⟨later, goesOn⟩
  · exact ends
  · have whole := goesOn []
    rw [List.append_nil, splitBlock] at whole
    exact absurd (congrArg Prod.snd whole) found

theorem splitBlock_alone {depth : Nat} {front body rest : List Token} {closing : Token}
    (ends : ∀ back,
      splitBlock opener closer depth (front ++ back) = (body, closing :: (rest ++ back))) :
    splitBlock opener closer depth front = (body, closing :: rest) := by
  have alone := ends []
  rwa [List.append_nil, List.append_nil] at alone

theorem depthBehind_mono {depth deeper inner : Nat} {kind : Token.Kind} (less : depth ≤ deeper)
    (passed : depthBehind opener closer depth kind = some inner) :
    ∃ below, depthBehind opener closer deeper kind = some below ∧ inner ≤ below := by
  unfold depthBehind at passed ⊢
  by_cases closes : kind = closer
  · simp only [if_pos closes] at passed ⊢
    by_cases level : depth = 0
    · rw [if_pos level] at passed
      cases passed
    · rw [if_neg level] at passed
      cases passed
      exact ⟨deeper - 1, if_neg (by omega), by omega⟩
  · simp only [if_neg closes] at passed ⊢
    by_cases opens : kind = opener
    · rw [if_pos opens] at passed
      cases passed
      exact ⟨deeper + 1, if_pos opens, by omega⟩
    · rw [if_neg opens] at passed
      cases passed
      exact ⟨deeper, if_neg opens, less⟩

/-- A closer that is found from further in is found from further out, there or earlier. -/
theorem splitBlock_snd_ne_nil {depth deeper : Nat} {tokens : List Token} (less : depth ≤ deeper)
    (found : (splitBlock opener closer deeper tokens).2 ≠ []) :
    (splitBlock opener closer depth tokens).2 ≠ [] := by
  induction tokens generalizing depth deeper with
  | nil => exact found
  | cons token tokens ih =>
      cases behind : depthBehind opener closer depth token.kind with
      | none =>
          rw [splitBlock_stops behind]
          exact List.cons_ne_nil _ _
      | some inner =>
          obtain ⟨below, further, still⟩ := depthBehind_mono less behind
          rw [splitBlock_passes further] at found
          rw [splitBlock_passes behind]
          exact ih still found

theorem depthBehind_eq_none_iff {depth : Nat} {kind : Token.Kind} :
    depthBehind opener closer depth kind = none ↔ kind = closer ∧ depth = 0 := by
  unfold depthBehind
  split
  case isTrue closes => simp [closes]
  case isFalse closes => split <;> simp [closes]

theorem depthBehind_succ {depth inner : Nat} {kind : Token.Kind}
    (passed : depthBehind opener closer depth kind = some inner) :
    depthBehind opener closer (depth + 1) kind = some (inner + 1) := by
  unfold depthBehind at passed ⊢
  by_cases closes : kind = closer
  · simp only [if_pos closes] at passed ⊢
    by_cases level : depth = 0
    · rw [if_pos level] at passed
      cases passed
    · rw [if_neg level] at passed
      cases passed
      rw [if_neg (Nat.succ_ne_zero depth), Option.some.injEq]
      omega
  · simp only [if_neg closes] at passed ⊢
    by_cases opens : kind = opener
    · rw [if_pos opens] at passed ⊢
      cases passed
      rfl
    · rw [if_neg opens] at passed ⊢
      cases passed
      rfl

/-- One level further in, the scan goes on behind the closer of this level. -/
theorem splitBlock_succ_of_closed {depth : Nat} {tokens body rest : List Token} {closing : Token}
    (ends : splitBlock opener closer depth tokens = (body, closing :: rest)) :
    splitBlock opener closer (depth + 1) tokens =
      (body ++ closing :: (splitBlock opener closer 0 rest).1,
        (splitBlock opener closer 0 rest).2) := by
  induction tokens generalizing depth body with
  | nil => cases ends
  | cons token tokens ih =>
      cases behind : depthBehind opener closer depth token.kind with
      | none =>
          rw [splitBlock_stops behind] at ends
          cases ends
          obtain ⟨closes, rfl⟩ := depthBehind_eq_none_iff.mp behind
          rw [splitBlock, if_pos closes]
          rfl
      | some inner =>
          rw [splitBlock_passes behind, Prod.mk.injEq] at ends
          obtain ⟨rfl, found⟩ := ends
          rw [splitBlock_passes (depthBehind_succ behind), ih (Prod.ext rfl found)]
          rfl

/-- Where nothing closes this level, nothing closes the one further in. -/
theorem splitBlock_succ_of_open {depth : Nat} {tokens : List Token}
    (ends : (splitBlock opener closer depth tokens).2 = []) :
    splitBlock opener closer (depth + 1) tokens = (tokens, []) := by
  induction tokens generalizing depth with
  | nil => rfl
  | cons token tokens ih =>
      cases behind : depthBehind opener closer depth token.kind with
      | none =>
          rw [splitBlock_stops behind] at ends
          cases ends
      | some inner =>
          rw [splitBlock_passes behind] at ends
          rw [splitBlock_passes (depthBehind_succ behind), ih ends]

/-- From further out the closer is found earlier. -/
theorem length_splitBlock_lt {depth deeper : Nat} {tokens : List Token} (less : depth < deeper)
    (found : (splitBlock opener closer depth tokens).2 ≠ []) :
    (splitBlock opener closer depth tokens).1.length <
      (splitBlock opener closer deeper tokens).1.length := by
  induction tokens generalizing depth deeper with
  | nil => exact absurd rfl found
  | cons token tokens ih =>
      cases behind : depthBehind opener closer depth token.kind with
      | none =>
          obtain ⟨closes, rfl⟩ := depthBehind_eq_none_iff.mp behind
          have further : depthBehind opener closer deeper token.kind = some (deeper - 1) := by
            rw [depthBehind, if_pos closes, if_neg (Nat.ne_of_gt less)]
          rw [splitBlock_stops behind, splitBlock_passes further]
          exact Nat.succ_pos _
      | some inner =>
          obtain ⟨below, further, still⟩ := depthBehind_mono less (depthBehind_succ behind)
          rw [splitBlock_passes behind] at found ⊢
          rw [splitBlock_passes further]
          exact Nat.succ_lt_succ (ih still found)

/-- A closer that is found from further out than the end of a block stands in the block. -/
theorem splitBlock_within {depth deeper : Nat} {body back : List Token} (less : depth < deeper)
    (ends : splitBlock opener closer deeper (body ++ back) = (body, back))
    (found : (splitBlock opener closer depth (body ++ back)).2 ≠ []) :
    ∃ inner closing rest, body = inner ++ closing :: rest ∧ ∀ other,
      splitBlock opener closer depth (body ++ other) = (inner, closing :: (rest ++ other)) := by
  rcases splitBlock_front opener closer depth body with closed | ⟨later, goesOn⟩
  · exact closed
  · have shorter := length_splitBlock_lt less found
    simp only [ends, goesOn, List.length_append] at shorter
    omega

theorem kind_of_splitBlock {depth : Nat} {tokens rest : List Token} {closing : Token}
    (found : (splitBlock opener closer depth tokens).2 = closing :: rest) :
    closing.kind = closer := by
  induction tokens generalizing depth with
  | nil => cases found
  | cons token tokens ih =>
      cases behind : depthBehind opener closer depth token.kind with
      | some inner =>
          rw [splitBlock_passes behind] at found
          exact ih found
      | none =>
          rw [splitBlock_stops behind] at found
          cases found
          by_contra other
          rw [depthBehind, if_neg other] at behind
          split at behind <;> cases behind

/-- The number of lines of a kind. -/
def tally (kind : Token.Kind) (tokens : List Token) : Nat :=
  tokens.countP fun token => token.kind = kind

/-- Nowhere have more blocks been closed than opened, and in the end as many. -/
structure Balanced (opener closer : Token.Kind) (tokens : List Token) : Prop where
  fronts : ∀ front, front <+: tokens → tally closer front ≤ tally opener front
  whole : tally closer tokens = tally opener tokens

instance (opener closer : Token.Kind) (tokens : List Token) :
    Decidable (Balanced opener closer tokens) :=
  decidable_of_iff ((∀ front ∈ tokens.inits, tally closer front ≤ tally opener front) ∧
      tally closer tokens = tally opener tokens)
    ⟨fun parts => ⟨fun front before => parts.1 front ((List.mem_inits _ _).mpr before), parts.2⟩,
      fun balanced => ⟨fun front member => balanced.fronts front ((List.mem_inits _ _).mp member),
        balanced.whole⟩⟩

theorem tally_nil (kind : Token.Kind) : tally kind [] = 0 := rfl

theorem tally_cons (kind : Token.Kind) (token : Token) (tokens : List Token) :
    tally kind (token :: tokens) = tally kind tokens + if token.kind = kind then 1 else 0 := by
  simp [tally, List.countP_cons]

theorem depthBehind_of_covered (apart : opener ≠ closer) {depth : Nat} {token : Token}
    (covered : tally closer [token] ≤ tally opener [token] + depth) :
    ∃ inner, depthBehind opener closer depth token.kind = some inner ∧
      inner + tally closer [token] = depth + tally opener [token] := by
  simp only [tally_cons, tally_nil, Nat.zero_add] at covered ⊢
  unfold depthBehind
  by_cases closes : token.kind = closer
  · have starts : ¬ token.kind = opener := fun opens => apart (opens.symm.trans closes)
    simp only [if_pos closes, if_neg starts] at covered ⊢
    exact ⟨depth - 1, if_neg (by omega), by omega⟩
  · simp only [if_neg closes]
    by_cases opens : token.kind = opener
    · simp only [if_pos opens]
      exact ⟨depth + 1, rfl, rfl⟩
    · simp only [if_neg opens]
      exact ⟨depth, rfl, rfl⟩

/-- Lines that never close more than was open leave the scan as much deeper as they
open more than they close. -/
theorem splitBlock_covered (apart : opener ≠ closer) (tokens : List Token) (depth : Nat)
    (covered : ∀ front, front <+: tokens → tally closer front ≤ tally opener front + depth) :
    ∃ later, later + tally closer tokens = depth + tally opener tokens ∧
      ∀ rest, splitBlock opener closer depth (tokens ++ rest) =
        (tokens ++ (splitBlock opener closer later rest).1,
          (splitBlock opener closer later rest).2) := by
  induction tokens generalizing depth with
  | nil => exact ⟨depth, rfl, fun _ => rfl⟩
  | cons token tokens ih =>
      have first : [token] <+: token :: tokens := List.prefix_append [token] tokens
      obtain ⟨inner, behind, moved⟩ := depthBehind_of_covered apart (covered [token] first)
      have deeper : ∀ front, front <+: tokens →
          tally closer front ≤ tally opener front + inner := by
        intro front before
        have more := covered (token :: front) (List.prefix_cons_inj token |>.mpr before)
        simp only [tally_cons, tally_nil] at more moved ⊢
        omega
      obtain ⟨later, counted, passes⟩ := ih inner deeper
      refine ⟨later, ?_, fun rest => ?_⟩
      · simp only [tally_cons, tally_nil] at counted moved ⊢
        omega
      · rw [List.cons_append, splitBlock_passes behind, passes, List.cons_append]

theorem Balanced.closed (balanced : Balanced opener closer tokens) (apart : opener ≠ closer) :
    Closed opener closer tokens := by
  intro depth rest
  have covered : ∀ front, front <+: tokens →
      tally closer front ≤ tally opener front + depth :=
    fun front before => Nat.le_add_right_of_le (balanced.fronts front before)
  obtain ⟨later, counted, passes⟩ := splitBlock_covered apart tokens depth covered
  have same : later = depth := by
    have whole := balanced.whole
    omega
  rw [passes, same]

end Lamplighter.Parser
