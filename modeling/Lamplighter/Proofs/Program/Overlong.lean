import Mathlib.Data.List.Sort
import Lamplighter.Bot
import Lamplighter.Proofs.Program.Crossing
import Lamplighter.Proofs.Program.PrintedBlock
import Lamplighter.Proofs.Program.Refusal

/-! Sources that are refused.

Where no function is defined inside another one, each line with a literal is read by one of the
passes, and the first literal that is too long is that of the bodies of functions before that of
the other lines. Main statement: `overlong_literals_refused`. -/

namespace Lamplighter

namespace Parser

/-- The line stands in the body of a function that is collected. -/
def Within (tokens : List Token) (place : Nat) : Prop :=
  ∃ block ∈ functionBlocks 0 tokens, block.1 < place ∧ place < block.2

instance (tokens : List Token) (place : Nat) : Decidable (Within tokens place) :=
  inferInstanceAs (Decidable (∃ block ∈ functionBlocks 0 tokens, block.1 < place ∧ place < block.2))

/-- No function is defined inside one that is collected. -/
def Flat (tokens : List Token) : Prop :=
  ∀ place token, Within tokens place → tokens[place]? = some token → token.kind ≠ .define

def bodyPlaces (tokens : List Token) : List Nat :=
  (List.range tokens.length).filter fun place => Within tokens place

def otherPlaces (tokens : List Token) : List Nat :=
  (List.range tokens.length).filter fun place => ¬ Within tokens place

variable {file : String} {token : Token} {tokens : List Token} {place : Nat}

/-- Of numbers that go up, only those with something to find decide what is found first. -/
theorem findSome?_eq_of_mem_iff {α : Type} {view : Nat → Option α} {first second : List Nat}
    (up : first.Pairwise (· < ·)) (upToo : second.Pairwise (· < ·))
    (same : ∀ value, (view value).isSome = true → (value ∈ first ↔ value ∈ second)) :
    first.findSome? view = second.findSome? view := by
  have equal : (first.filter fun value => (view value).isSome) =
      second.filter fun value => (view value).isSome := by
    refine (up.filter _).eq_of_mem_iff (upToo.filter _) fun value => ?_
    rw [List.mem_filter, List.mem_filter, and_congr_left_iff]
    exact same value
  rw [findSome?_eq_filter, equal, ← findSome?_eq_filter]

/-- A line with a literal that is too long is a loop or a call. -/
theorem kind_ne_of_overlong? (long : token.overlong?.isSome = true) :
    token.kind ≠ .define ∧ token.kind ≠ .endLoop ∧ token.kind ≠ .endDefine := by
  cases kind : token.kind <;> simp [Token.overlong?, Token.operands, kind] at long ⊢

theorem overlong?_isSome_iff : token.overlong?.isSome = true ↔
    ∃ text ∈ token.operands, ∃ size, Exceeds text size := by
  rw [Token.overlong?, List.findSome?_isSome_iff]
  simp only [Option.isSome_iff_exists, overlong?_eq_some_iff]

theorem overlongAt?_isSome : (overlongAt? tokens place).isSome = true ↔
    ∃ token, tokens[place]? = some token ∧ token.overlong?.isSome = true := by
  rw [overlongAt?]
  cases tokens[place]? <;> simp

theorem lt_length_of_overlongAt? (long : (overlongAt? tokens place).isSome = true) :
    place < tokens.length := by
  rcases overlongAt?_isSome.mp long with ⟨token, found, _⟩
  exact (List.getElem?_eq_some_iff.mp found).1

/-- The line at the end of a block, if the block is closed at all, is its closer. -/
theorem kind_of_block_end {block : Nat × Nat} (member : block ∈ functionBlocks 0 tokens)
    (found : tokens[block.2]? = some token) : token.kind = .endDefine := by
  rcases border_of_mem_functionBlocks member with
    ⟨before, opening, body, back, rfl, _, ends, _, rfl⟩
  have further : (before ++ opening :: (body ++ back))[before.length + (body.length + 1)]? =
      back[0]? := by
    rw [List.getElem?_append_right (Nat.le_add_right ..), Nat.add_sub_cancel_left,
      List.getElem?_cons_succ, List.getElem?_append_right (Nat.le_refl _), Nat.sub_self]
  simp only [Nat.zero_add, Nat.add_assoc, further] at found
  cases back with
  | nil => cases found
  | cons closing rest =>
      cases found
      exact kind_of_functionBlock ends rfl

/-- The closer of a block is in no body, and is outside only behind the block. -/
theorem outside_of_not_within (apart : ¬ Within tokens place) (found : tokens[place]? = some token)
    (goesOn : token.kind ≠ .endDefine) : Outside tokens place where
  bound := Nat.le_of_lt (List.getElem?_eq_some_iff.mp found).1
  apart := by
    intro block member
    have around : ¬ (block.1 < place ∧ place < block.2) :=
      fun between => apart ⟨block, member, between⟩
    have closer : place ≠ block.2 := by
      intro here
      rw [here] at found
      exact goesOn (kind_of_block_end member found)
    omega

/-- The pass over statements comes to each line with a literal that is in no body. -/
theorem mem_nodePlaces_of_not_within (apart : ¬ Within tokens place)
    (long : (overlongAt? tokens place).isSome = true) : place ∈ nodePlaces tokens := by
  rcases overlongAt?_isSome.mp long with ⟨token, found, operand⟩
  rcases kind_ne_of_overlong? operand with ⟨define, endLoop, endDefine⟩
  have outside := outside_of_not_within apart found endDefine
  rcases outside.accounted found define with node | ⟨opener, loop⟩
  · exact node
  · rcases loop.closes.kind with ⟨closing, same, closes⟩
    cases found.symm.trans same
    exact absurd closes endLoop

theorem functionBlocks_of_plain (plain : ∀ token ∈ tokens, token.kind ≠ .define) (start : Nat) :
    functionBlocks start tokens = [] := by
  induction tokens generalizing start with
  | nil => rw [functionBlocks_nil]
  | cons token tokens ih =>
      rw [functionBlocks_other (plain token (.head _))]
      exact ih (fun other member => plain other (.tail _ member)) (start + 1)

theorem pairwise_functionBlocks (start : Nat) (tokens : List Token) :
    (functionBlocks start tokens).Pairwise fun block later => block.2 < later.1 := by
  induction tokens using collect_induct generalizing start with
  | nil =>
      rw [functionBlocks_nil]
      exact .nil
  | define token tokens kind ih =>
      rw [functionBlocks_define kind, List.pairwise_cons]
      refine ⟨?_, ih _⟩
      intro later member
      rcases border_of_mem_functionBlocks member with ⟨before, _, _, _, _, _, _, _, rfl⟩
      simp only
      omega
  | other token tokens kind ih =>
      rw [functionBlocks_other kind]
      exact ih _

section Bodies

variable {block : Nat × Nat}

/-- The lines of a body that the pass over statements comes to. -/
def visited (tokens : List Token) (block : Nat × Nat) : List Nat :=
  (nodePlaces (inside tokens block)).map (block.1 + 1 + ·)

theorem getElem?_inside (block : Nat × Nat) (place : Nat) :
    (inside tokens block)[place]? =
      if block.1 + 1 + place < block.2 then tokens[block.1 + 1 + place]? else none := by
  rw [inside, List.getElem?_drop, List.getElem?_take]

theorem lt_of_lt_length_inside (bound : place < (inside tokens block).length) :
    block.1 + 1 + place < block.2 := by
  rw [inside, List.length_drop, List.length_take] at bound
  omega

theorem overlongAt?_inside (inner : block.1 + 1 + place < block.2) :
    overlongAt? (inside tokens block) place = overlongAt? tokens (block.1 + 1 + place) := by
  rw [overlongAt?, getElem?_inside, if_pos inner, overlongAt?]

theorem between_of_mem_visited (member : place ∈ visited tokens block) :
    block.1 < place ∧ place < block.2 := by
  rcases List.mem_map.mp member with ⟨inner, node, rfl⟩
  have below := lt_of_lt_length_inside (lt_length_of_mem_nodePlaces node)
  exact ⟨by omega, below⟩

theorem refusal_body (file : String) (tokens : List Token) (block : Nat × Nat) :
    refusal (statements file (inside tokens block)) =
      (visited tokens block).findSome? (overlongAt? tokens) := by
  rw [refusal_statements, visited, List.findSome?_map]
  refine findSome?_congr fun place node => ?_
  exact overlongAt?_inside (lt_of_lt_length_inside (lt_length_of_mem_nodePlaces node))

/-- In a body without functions the pass comes to each line with a literal. -/
theorem mem_visited (flat : Flat tokens) (member : block ∈ functionBlocks 0 tokens)
    (above : block.1 < place) (below : place < block.2)
    (long : (overlongAt? tokens place).isSome = true) : place ∈ visited tokens block := by
  obtain ⟨inner, rfl⟩ : ∃ inner, place = block.1 + 1 + inner := ⟨place - (block.1 + 1), by omega⟩
  have plain : ∀ token ∈ inside tokens block, token.kind ≠ .define := by
    intro token among
    rcases List.mem_iff_getElem?.mp among with ⟨other, found⟩
    have bound := lt_of_lt_length_inside (List.getElem?_eq_some_iff.mp found).1
    rw [getElem?_inside, if_pos bound] at found
    exact flat _ token ⟨block, member, by omega, bound⟩ found
  have apart : ¬ Within (inside tokens block) inner := by
    rintro ⟨other, nested, _⟩
    rw [functionBlocks_of_plain plain] at nested
    cases nested
  rw [← overlongAt?_inside below] at long
  exact List.mem_map_of_mem (mem_nodePlaces_of_not_within apart long)

theorem pairwise_visited (tokens : List Token) :
    ((functionBlocks 0 tokens).flatMap (visited tokens)).Pairwise (· < ·) := by
  rw [List.pairwise_flatMap]
  constructor
  · intro block _
    exact List.pairwise_map.mpr
      ((pairwise_nodePlaces _).imp fun less => Nat.add_lt_add_left less _)
  · refine (pairwise_functionBlocks 0 tokens).imp fun {block later} apart => ?_
    intro place inBlock other inLater
    have first := between_of_mem_visited inBlock
    have second := between_of_mem_visited inLater
    omega

end Bodies

theorem pairwise_bodyPlaces (tokens : List Token) : (bodyPlaces tokens).Pairwise (· < ·) :=
  List.pairwise_lt_range.filter _

theorem pairwise_otherPlaces (tokens : List Token) : (otherPlaces tokens).Pairwise (· < ·) :=
  List.pairwise_lt_range.filter _

theorem refusal_functions_of_flat (file : String) (flat : Flat tokens) :
    refusal (functions file tokens .empty) =
      (bodyPlaces tokens).findSome? (overlongAt? tokens) := by
  have bodies := refusal_functions file tokens .empty []
  simp only [List.length_nil, List.nil_append, refusal_body] at bodies
  rw [bodies, ← findSome?_flatMap]
  refine findSome?_eq_of_mem_iff (pairwise_visited tokens) (pairwise_bodyPlaces tokens) ?_
  intro place long
  have bound := lt_length_of_overlongAt? long
  simp only [List.mem_flatMap, bodyPlaces, List.mem_filter, List.mem_range, decide_eq_true_eq]
  constructor
  · rintro ⟨block, member, node⟩
    exact ⟨bound, block, member, between_of_mem_visited node⟩
  · rintro ⟨_, block, member, above, below⟩
    exact ⟨block, member, mem_visited flat member above below long⟩

/-- The pass over statements may come to lines of bodies too, but these were read before. -/
theorem refusal_statements_of_bodies (file : String)
    (short : (bodyPlaces tokens).findSome? (overlongAt? tokens) = none) :
    refusal (statements file tokens) = (otherPlaces tokens).findSome? (overlongAt? tokens) := by
  rw [refusal_statements]
  refine findSome?_eq_of_mem_iff (pairwise_nodePlaces tokens) (pairwise_otherPlaces tokens) ?_
  intro place long
  have bound := lt_length_of_overlongAt? long
  have apart : ¬ Within tokens place := by
    intro within
    have member : place ∈ bodyPlaces tokens :=
      List.mem_filter.mpr ⟨List.mem_range.mpr bound, decide_eq_true within⟩
    rw [List.findSome?_eq_none_iff.mp short place member] at long
    cases long
  have outside : place ∈ otherPlaces tokens :=
    List.mem_filter.mpr ⟨List.mem_range.mpr bound, decide_eq_true apart⟩
  exact iff_of_true (mem_nodePlaces_of_not_within apart long) outside

end Parser

/-- The literals of bodies are looked at before the others. -/
theorem Program.refusal_of_flat (file : String) {tokens : List Token}
    (flat : Parser.Flat tokens) :
    Parser.refusal (Program.ofTokens file tokens) =
      (Parser.bodyPlaces tokens ++ Parser.otherPlaces tokens).findSome?
        (Parser.overlongAt? tokens) := by
  rw [Program.refusal_ofTokens, Parser.refusal_functions_of_flat file flat, List.findSome?_append]
  cases short : (Parser.bodyPlaces tokens).findSome? (Parser.overlongAt? tokens) with
  | some => rfl
  | none => rw [Parser.refusal_statements_of_bodies file short]

namespace Parser

/-- Every line is looked at. -/
theorem findSome?_places_isSome (tokens : List Token) :
    ((bodyPlaces tokens ++ otherPlaces tokens).findSome? (overlongAt? tokens)).isSome = true ↔
      ∃ token ∈ tokens, ∃ text ∈ token.operands, ∃ size, Exceeds text size := by
  simp only [List.findSome?_isSome_iff, overlongAt?_isSome, overlong?_isSome_iff]
  constructor
  · rintro ⟨place, _, token, found, long⟩
    exact ⟨token, List.mem_of_getElem? found, long⟩
  · rintro ⟨token, member, long⟩
    rcases List.mem_iff_getElem?.mp member with ⟨place, found⟩
    have bound := (List.getElem?_eq_some_iff.mp found).1
    refine ⟨place, ?_, token, found, long⟩
    by_cases within : Within tokens place <;>
      simp [bodyPlaces, otherPlaces, bound, within]

end Parser

/-- A source in which no function is defined inside another one, whatever its blocks are else. It
is refused exactly if a loop has for its count, or a call has among its arguments, a decimal
integer of more than 4300 digits. The error gives the number of digits of the first one in the
bodies of functions, or of the first one outside if there is none, and a robot that is given the
source is left as it was: world, functions, record and calls. -/
theorem overlong_literals_refused (source : Text.Source) (file : String)
    (flat : Parser.Flat (Token.ofSource source)) :
    ((∃ error, Program.parse source file = .error error) ↔
      ∃ token ∈ Token.ofSource source, ∃ text ∈ token.operands, ∃ size,
        Parser.Exceeds text size) ∧
    ∀ error, Program.parse source file = .error error →
      (Parser.bodyPlaces (Token.ofSource source) ++
          Parser.otherPlaces (Token.ofSource source)).findSome?
        (Parser.overlongAt? (Token.ofSource source)) = some error.digits ∧
      ∀ bot : Bot, bot.exec source file = (bot, .error error) := by
  have reported := Program.refusal_of_flat file flat
  have refused (error : ParseError) : Program.parse source file = .error error ↔
      Parser.refusal (Program.parse source file) = some error.digits :=
    Parser.refusal_eq_some_iff.symm
  rw [← Program.parse] at reported
  constructor
  · rw [← Parser.findSome?_places_isSome, ← reported, Option.isSome_iff_exists]
    constructor
    · rintro ⟨error, failed⟩
      exact ⟨error.digits, (refused error).mp failed⟩
    · rintro ⟨digits, failed⟩
      exact ⟨⟨digits⟩, (refused ⟨digits⟩).mpr failed⟩
  · intro error failed
    refine ⟨?_, fun bot => ?_⟩
    · rw [← reported]
      exact (refused error).mp failed
    · rw [Bot.exec, failed]

/-- A literal of so many digits. -/
def ones (count : Nat) : String := String.ofList (List.replicate count '1')

theorem neat_ones (count : Nat) : Text.Neat (ones count) := by
  have solid : Text.Solid (ones count).toList := by
    intro c member
    rw [ones, String.toList_ofList] at member
    rw [List.eq_of_mem_replicate member]
    decide
  exact ⟨solid.trimmed, solid.unbroken⟩

theorem overlong?_ones {count : Nat} (long : Text.maxDigits < count) :
    Parser.overlong? (ones count) = some count := by
  have digits : ∀ c ∈ List.replicate count '1', Text.isDigit c = true := by
    intro c member
    rw [List.eq_of_mem_replicate member]
    decide
  exact Parser.overlong?_eq_some_iff.mpr
    ⟨[], _, .inl rfl, String.toList_ofList, digits, List.length_replicate, long⟩

/-- The function is never closed, and crosses the loop in front of it. -/
def longLoops (outer inner : Nat) : Text.Source :=
  .pieces [printKeyword "REPEAT" (ones outer), "FUNCTION F", printKeyword "REPEAT" (ones inner),
    "ENDREPEAT"]

theorem ofSource_longLoops (outer inner : Nat) : ∃ first second : Token,
    Token.ofSource (longLoops outer inner) = [first, ⟨.define, "F", 2, 1, "FUNCTION F"⟩, second,
      ⟨.endLoop, "", 4, 1, "ENDREPEAT"⟩] ∧
    (first.kind = .loop ∧ first.value = ones outer) ∧
    second.kind = .loop ∧ second.value = ones inner := by
  have keyword : "REPEAT" ∈ keywords := by decide
  have unbroken (count : Nat) : Text.Unbroken (printKeyword "REPEAT" (ones count)).toList :=
    unbroken_printKeyword keyword (neat_ones count)
  have lines : (longLoops outer inner).lines = [printKeyword "REPEAT" (ones outer), "FUNCTION F",
      printKeyword "REPEAT" (ones inner), "ENDREPEAT"] := by
    apply Text.lines_pieces
    simp only [List.forall_mem_cons, List.not_mem_nil, false_implies, implies_true, and_true]
    exact ⟨unbroken outer, by decide, unbroken inner, by decide⟩
  rcases gives_keyword keyword (neat_ones outer) 1 with ⟨first, gives, loop⟩
  rcases gives_keyword keyword (neat_ones inner) 3 with ⟨second, givesToo, loopToo⟩
  refine ⟨first, second, ?_, loop, loopToo⟩
  have define : Token.ofLine? 2 "FUNCTION F".toList =
      some ⟨.define, "F", 2, 1, "FUNCTION F"⟩ := by decide
  have closer : Token.ofLine? 4 "ENDREPEAT".toList =
      some ⟨.endLoop, "", 4, 1, "ENDREPEAT"⟩ := by decide
  rw [Token.ofSource, lines, Token.ofLines]
  simp only [List.zipIdx_cons, List.zipIdx_nil, List.filterMap_cons, List.filterMap_nil, gives,
    givesToo, define, closer]

theorem flat_longLoops (outer inner : Nat) : Parser.Flat (Token.ofSource (longLoops outer inner)) ∧
    Parser.bodyPlaces (Token.ofSource (longLoops outer inner)) = [2, 3] := by
  rcases ofSource_longLoops outer inner with ⟨first, second, tokens, ⟨kind, _⟩, kindToo, _⟩
  have blocks : Parser.functionBlocks 0 (Token.ofSource (longLoops outer inner)) = [(1, 4)] := by
    simp [tokens, kind, kindToo, Parser.functionBlocks, Parser.functionBlock, Parser.splitBlock,
      Parser.afterFunction]
  have within (place : Nat) : Parser.Within (Token.ofSource (longLoops outer inner)) place ↔
      1 < place ∧ place < 4 := by
    simp [Parser.Within, blocks]
  constructor
  · intro place token inside found
    have either : place = 2 ∨ place = 3 := by
      have bounds := (within place).mp inside
      omega
    rw [tokens] at found
    rcases either with rfl | rfl
    · cases found
      simp [kindToo]
    · cases found
      decide
  · have length : (Token.ofSource (longLoops outer inner)).length = 4 := by
      rw [tokens]
      rfl
    simp only [Parser.bodyPlaces, within, length]
    rfl

/-- Of the two loops the one in the function is reported, though it comes later. -/
theorem overlong_literals_refused_of_longLoops :
    Parser.Flat (Token.ofSource (longLoops 4302 4301)) ∧
    Program.parse (longLoops 4302 4301) "long" = .error ⟨4301⟩ ∧
    ∀ bot : Bot, bot.exec (longLoops 4302 4301) "long" = (bot, .error ⟨4301⟩) := by
  rcases ofSource_longLoops 4302 4301 with ⟨first, second, tokens, ⟨kind, value⟩, kindToo, valueToo⟩
  rcases flat_longLoops 4302 4301 with ⟨flat, places⟩
  rcases overlong_literals_refused (longLoops 4302 4301) "long" flat with ⟨refused, reported⟩
  have operands : second.operands = [ones 4301] := by rw [Token.operands, kindToo, valueToo]
  have long : Parser.overlong? (ones 4301) = some 4301 := overlong?_ones (by decide)
  have member : second ∈ Token.ofSource (longLoops 4302 4301) := by simp [tokens]
  rcases refused.mpr ⟨second, member, ones 4301, by simp [operands], 4301,
    Parser.overlong?_eq_some_iff.mp long⟩ with ⟨error, failed⟩
  rcases reported error failed with ⟨digits, kept⟩
  have here : Parser.overlongAt? (Token.ofSource (longLoops 4302 4301)) 2 = some 4301 := by
    simp [Parser.overlongAt?, tokens, Token.overlong?, operands, long]
  rw [places, List.cons_append, List.findSome?_cons, here, Option.some.injEq] at digits
  have same : error = ⟨4301⟩ := congrArg ParseError.mk digits.symm
  subst same
  exact ⟨flat, failed, kept⟩

end Lamplighter
