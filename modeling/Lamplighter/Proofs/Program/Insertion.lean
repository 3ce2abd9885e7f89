import Lamplighter.Proofs.Program.Limit
import Lamplighter.Proofs.Program.Relocation

/-! A function block may stand anywhere outside other functions.

The pass that reads statements sees the same lines with and without it, in whatever
loops it stands, and the pass that collects functions meets it in its turn. Main
statement: `insert_function`. -/

namespace Lamplighter

namespace Parser

/-- The function blocks that are collected from lines numbered from `start` on: the number
of the line that opens one, and of the line that closes it. One that is never closed ends
behind the last line. -/
def functionBlocks (start : Nat) : List Token → List (Nat × Nat)
  | [] => []
  | token :: tokens =>
    if token.kind = .define then
      let closer := start + (functionBlock tokens).1.length + 1
      (start, closer) :: functionBlocks (closer + 1) (afterFunction tokens)
    else functionBlocks (start + 1) tokens
  termination_by tokens => tokens.length
  decreasing_by
    all_goals
      have := length_functionBlock tokens
      simp only [afterFunction, List.length_cons, List.length_drop]
      omega

theorem functionBlocks_nil (start : Nat) : functionBlocks start [] = [] := by
  rw [functionBlocks]

theorem functionBlocks_define {token : Token} (kind : token.kind = .define) (start : Nat)
    (tokens : List Token) :
    functionBlocks start (token :: tokens) =
      (start, start + (functionBlock tokens).1.length + 1) ::
        functionBlocks (start + (functionBlock tokens).1.length + 2) (afterFunction tokens) := by
  rw [functionBlocks, if_pos kind]

theorem functionBlocks_other {token : Token} (kind : token.kind ≠ .define) (start : Nat)
    (tokens : List Token) :
    functionBlocks start (token :: tokens) = functionBlocks (start + 1) tokens := by
  rw [functionBlocks, if_neg kind]

/-- A place in front of a line, or behind the last one, that no collected block goes
around. In front of its opener is outside a block. -/
structure Outside (tokens : List Token) (place : Nat) : Prop where
  bound : place ≤ tokens.length
  apart : ∀ block ∈ functionBlocks 0 tokens, place ≤ block.1 ∨ block.2 < place

/-- The pass that collects functions comes to stand between the two parts. -/
inductive Border : List Token → List Token → Prop where
  | here {after : List Token} : Border [] after
  | line {token : Token} {before after : List Token} (kind : token.kind ≠ .define)
      (rest : Border before after) : Border (token :: before) after
  | block {token closing : Token} {body before after : List Token} (kind : token.kind = .define)
      (closed : functionBlock (body ++ closing :: (before ++ after)) =
        (body, closing :: (before ++ after)))
      (rest : Border before after) : Border (token :: (body ++ closing :: before)) after

theorem border_of_apart {tokens : List Token} {start place : Nat} (bound : place ≤ tokens.length)
    (apart : ∀ block ∈ functionBlocks start tokens,
      start + place ≤ block.1 ∨ block.2 < start + place) :
    Border (tokens.take place) (tokens.drop place) := by
  induction tokens using collect_induct generalizing start place with
  | nil =>
      rw [List.take_nil]
      exact .here
  | define token tokens kind ih =>
      cases place with
      | zero => exact .here
      | succ place =>
          have parts := functionBlock_append tokens
          rw [functionBlocks, if_pos kind] at apart
          cases block : functionBlock tokens with
          | mk body back =>
              simp only [afterFunction, block] at ih apart parts
              have around := apart _ (.head _)
              cases back with
              | nil =>
                  -- A block that is never closed goes around every place behind its opener.
                  rw [← parts, List.length_cons, List.append_nil] at bound
                  omega
              | cons closing rest =>
                  obtain ⟨further, rfl⟩ : ∃ further, place = body.length + (further + 1) :=
                    ⟨place - (body.length + 1), by omega⟩
                  subst parts
                  have within : further ≤ rest.length := by
                    simp only [List.length_cons, List.length_append] at bound
                    omega
                  have far : ∀ block ∈ functionBlocks (start + body.length + 1 + 1) rest,
                      start + body.length + 1 + 1 + further ≤ block.1 ∨
                        block.2 < start + body.length + 1 + 1 + further := by
                    intro block member
                    have aside := apart block (.tail _ member)
                    omega
                  have later := ih within far
                  rw [List.take_succ_cons, List.drop_succ_cons, List.take_length_add_append,
                    List.drop_length_add_append, List.take_succ_cons, List.drop_succ_cons]
                  refine .block kind ?_ later
                  rwa [List.take_append_drop]
  | other token tokens kind ih =>
      rw [functionBlocks, if_neg kind] at apart
      cases place with
      | zero => exact .here
      | succ place =>
          have far : ∀ block ∈ functionBlocks (start + 1) tokens,
              start + 1 + place ≤ block.1 ∨ block.2 < start + 1 + place := by
            intro block member
            have aside := apart block member
            omega
          exact .line kind (ih (Nat.le_of_succ_le_succ bound) far)

theorem Outside.border {tokens : List Token} {place : Nat} (outside : Outside tokens place) :
    Border (tokens.take place) (tokens.drop place) := by
  apply border_of_apart outside.bound
  intro block member
  have apart := outside.apart block member
  omega

/-- Every function that is opened in the lines is closed in them. -/
def Sealed : List Token → Prop
  | [] => True
  | token :: tokens => (token.kind = .define → (functionBlock tokens).2 ≠ []) ∧ Sealed tokens

variable {file : String} {before after : List Token}

theorem Sealed.behind {lines body rest : List Token} {closing : Token} (within : Sealed lines)
    (parts : lines = body ++ closing :: rest) : Sealed rest := by
  induction body generalizing lines with
  | nil =>
      rw [parts] at within
      exact within.2
  | cons token body ih =>
      rw [parts] at within
      exact ih within.2 rfl

theorem length_lt_of_parts {lines body rest : List Token} {closing : Token}
    (parts : lines = body ++ closing :: rest) : rest.length < lines.length := by
  rw [parts, List.length_append, List.length_cons]
  omega

/-- The functions in a block that is closed are closed no later. -/
theorem sealed_block {depth : Nat} {body rest : List Token} {closing : Token}
    (ends : splitBlock .define .endDefine depth (body ++ closing :: rest) = (body, closing :: rest))
    (others : Sealed rest) : Sealed (body ++ closing :: rest) := by
  induction body generalizing depth with
  | nil =>
      have closes : closing.kind = .endDefine := kind_of_splitBlock (congrArg Prod.snd ends)
      exact ⟨fun opens => by simp [closes] at opens, others⟩
  | cons token body ih =>
      rw [List.cons_append] at ends
      rcases of_splitBlock_cons ends with ⟨inner, -, further⟩
      have found : (splitBlock .define .endDefine inner (body ++ closing :: rest)).2 ≠ [] := by
        rw [further]
        exact List.cons_ne_nil _ _
      exact ⟨fun _ => splitBlock_snd_ne_nil (Nat.zero_le inner) found, ih further⟩

theorem Border.sealed (border : Border before after) : Sealed before := by
  induction border with
  | here => exact True.intro
  | line kind _ ih => exact ⟨fun opens => absurd opens kind, ih⟩
  | @block token closing body before after kind closed _ ih =>
      have ends := splitBlock_behind closed before
      refine ⟨fun _ => ?_, sealed_block ends ih⟩
      rw [functionBlock, ends]
      exact List.cons_ne_nil _ _

/-- The functions in front of the border are collected before all others. -/
theorem Border.functions_append (border : Border before after) (other : List Token)
    (table : Table FunDef) :
    functions file (before ++ other) table = (do
      let middle ← functions file before table
      functions file other middle) := by
  induction border generalizing table with
  | here =>
      conv_rhs => rw [functions]
      rfl
  | line kind _ ih =>
      rw [List.cons_append, functions_other kind, functions_other kind, ih]
  | @block token closing body before after kind closed _ ih =>
      have short := splitBlock_behind closed before
      have long := splitBlock_behind closed (before ++ other)
      rw [List.cons_append, List.append_assoc, List.cons_append, functions_define kind,
        functions_define kind, afterFunction, afterFunction, functionBlock, functionBlock, short,
        long]
      simp only [List.drop_succ_cons, List.drop_zero, bind_assoc, ih]

/-- Lines that the pass over statements passes over may be put anywhere behind lines that
close their functions, also into a loop that is not closed there. -/
theorem statements_insert {block : List Token}
    (passed : ∀ rest, statements file (block ++ rest) = statements file rest)
    (loops : Closed .loop .endLoop block) (before after : List Token) (within : Sealed before) :
    statements file (before ++ (block ++ after)) = statements file (before ++ after) := by
  match before, within with
  | [], _ => exact passed after
  | token :: before, ⟨closed, within⟩ =>
      rw [List.cons_append, List.cons_append]
      rcases kind_cases token with kind | kind | kind | kind
      · obtain ⟨body, closing, rest, parts, ends⟩ := splitBlock_in_front (closed kind)
        have shorter := length_lt_of_parts parts
        rw [statements_define kind, statements_define kind, afterFunction, afterFunction,
          functionBlock, functionBlock, ends, ends]
        exact statements_insert passed loops rest after (within.behind parts)
      · rw [statements_loop kind, statements_loop kind, afterLoop, afterLoop, loopBlock, loopBlock]
        rcases splitBlock_front .loop .endLoop 0 before with
          ⟨body, closing, rest, parts, ends⟩ | ⟨depth, goesOn⟩
        · -- The loop is closed in front of the block, and its body is as it was.
          have shorter := length_lt_of_parts parts
          have later := statements_insert passed loops rest after (within.behind parts)
          simp only [ends, List.drop_succ_cons, List.drop_zero, later]
        · -- The block is in the loop, and what is behind the loop is as it was.
          have inside := statements_insert passed loops before
            (splitBlock .loop .endLoop depth after).1 within
          simp only [goesOn, loops depth after, inside]
      · have later := statements_insert passed loops before after within
        rw [statements_call kind, statements_call kind, later]
      · have later := statements_insert passed loops before after within
        rw [statements_act kind, statements_act kind, later]
  termination_by before.length
  decreasing_by
    all_goals
      simp only [List.length_cons]
      omega

/-- No function that is in the table is lost. -/
theorem mem_keys_of_functions {tokens : List Token} {table final : Table FunDef}
    (parsed : functions file tokens table = .ok final) {name : String}
    (present : name ∈ table.keys) : name ∈ final.keys := by
  induction tokens using collect_induct generalizing table with
  | nil =>
      rw [functions] at parsed
      cases parsed
      exact present
  | define token tokens kind ih =>
      rw [functions_define kind, bind_eq_ok] at parsed
      rcases parsed with ⟨body, -, after⟩
      exact ih after (Table.mem_keys_insert_of_mem _ _ present)
  | other token tokens kind ih =>
      rw [functions_other kind] at parsed
      exact ih parsed present

/-- One more entry, of a name that the lines do not define, changes nothing around it. -/
theorem functions_beside {tokens : List Token} {first later : List (String × FunDef)}
    {final : Table FunDef} {name : String} (function : FunDef)
    (parsed : functions file tokens ⟨first ++ later⟩ = .ok final) (fresh : name ∉ final.keys) :
    ∃ front back, final.entries = front ++ back ∧ front.map Prod.fst = first.map Prod.fst ∧
      functions file tokens ⟨first ++ (name, function) :: later⟩ =
        .ok ⟨front ++ (name, function) :: back⟩ := by
  induction tokens using collect_induct generalizing first later with
  | nil =>
      rw [functions] at parsed
      cases parsed
      exact ⟨first, later, rfl, rfl, by rw [functions]⟩
  | define token tokens kind ih =>
      rw [functions_define kind, bind_eq_ok] at parsed
      rcases parsed with ⟨code, read, after⟩
      have apart : ¬ name = (signature token.value).1 := by
        rintro rfl
        exact fresh (mem_keys_of_functions after (Table.mem_keys_insert _ _ _))
      have step (table : Table FunDef) : functions file (token :: tokens) table =
          functions file (afterFunction tokens)
            (table.insert (signature token.value).1 (defined file token code)) := by
        rw [functions_define kind, read]
        rfl
      rw [Table.insert] at after
      rw [step, Table.insert]
      by_cases known : (signature token.value).1 ∈ first.map Prod.fst
      · rw [Table.write_append_of_mem _ known] at after ⊢
        obtain ⟨front, back, parts, keys, others⟩ := ih after
        exact ⟨front, back, parts, keys.trans (Table.map_fst_write _ _ known), others⟩
      · rw [Table.write_append _ known] at after ⊢
        rw [Table.write, if_neg apart]
        exact ih after
  | other token tokens kind ih =>
      rw [functions_other kind] at parsed ⊢
      exact ih parsed

section Block

variable {opening closing : Token} {body : List Token} (opens : opening.kind = .define)
  (closes : closing.kind = .endDefine) (nested : Closed .define .endDefine body)

include opens closes nested

theorem Border.statements_block (loops : Closed .loop .endLoop body)
    (border : Border before after) :
    statements file (before ++ opening :: (body ++ closing :: after)) =
      statements file (before ++ after) := by
  have passed (rest : List Token) :
      statements file (opening :: (body ++ [closing]) ++ rest) = statements file rest := by
    rw [List.cons_append, List.append_assoc]
    exact Parser.statements_block opens closes nested rest
  have first : Closed .loop .endLoop [opening] :=
    closed_single (by simp [opens]) (by simp [opens])
  have last : Closed .loop .endLoop [closing] :=
    closed_single (by simp [closes]) (by simp [closes])
  have whole := statements_insert passed (first.append (loops.append last)) before after
    border.sealed
  simpa using whole

theorem Border.functions_block (border : Border before after) {plain table : Table FunDef}
    (without : functions file (before ++ after) .empty = .ok plain)
    (collected :
      functions file (before ++ opening :: (body ++ closing :: after)) .empty = .ok table)
    (fresh : (signature opening.value).1 ∉ plain.keys) :
    ∃ earlier code front back,
      functions file before .empty = .ok earlier ∧
      statements file body = .ok code ∧
      front.map Prod.fst = earlier.keys ∧
      plain.entries = front ++ back ∧
      table.entries =
        front ++ ((signature opening.value).1, defined file opening code) :: back := by
  rw [border.functions_append, bind_eq_ok] at without collected
  obtain ⟨earlier, first, later⟩ := without
  obtain ⟨_, same, others⟩ := collected
  cases first.symm.trans same
  rw [Parser.functions_block opens closes nested, bind_eq_ok] at others
  obtain ⟨code, read, behind⟩ := others
  have unknown : (signature opening.value).1 ∉ earlier.keys :=
    fun known => fresh (mem_keys_of_functions later known)
  rw [Table.insert_append _ _ _ unknown] at behind
  have start : functions file after ⟨earlier.entries ++ []⟩ = .ok plain := by
    rwa [List.append_nil]
  obtain ⟨front, back, parts, keys, beside⟩ :=
    functions_beside (defined file opening code) start fresh
  cases behind.symm.trans beside
  exact ⟨earlier, code, front, back, first, read, keys, parts, rfl⟩

end Block

end Parser

/-- A closed function block at a place outside the functions that are collected, in
whatever loops. The statements stay as they were, up to where they stand, and a function
of a new name comes into the table where its turn is: behind those that are defined in
front of it, with the order and the places of all others kept. -/
theorem insert_function (file file' : String) {tokens body others : List Token} {place : Nat}
    {opening closing : Token} (outside : Parser.Outside tokens place)
    (opens : opening.kind = .define) (closes : closing.kind = .endDefine)
    (loops : Parser.Balanced .loop .endLoop body) (nested : Parser.Balanced .define .endDefine body)
    (short : ∀ token ∈ tokens ++ opening :: (body ++ [closing]), token.Short)
    (moved : List.Forall₂ Token.Moved
      (tokens.take place ++ opening :: (body ++ closing :: tokens.drop place)) others) :
    ∃ plain parsed,
      Program.ofTokens file tokens = .ok plain ∧
      Program.ofTokens file' others = .ok parsed ∧
      unplacedBlock parsed.statements = unplacedBlock plain.statements ∧
      let name := (Parser.signature opening.value).1
      (name ∉ plain.functions.keys → ∃ earlier code front back,
        Parser.functions file (tokens.take place) .empty = .ok earlier ∧
        Parser.statements file body = .ok code ∧
        front.map Prod.fst = earlier.keys ∧
        plain.functions.entries = front ++ back ∧
        unplacedEntries parsed.functions.entries =
          unplacedEntries (front ++ (name, Parser.defined file opening code) :: back)) := by
  have loops := loops.closed (by decide)
  have nested := nested.closed (by decide)
  have border := outside.border
  have whole := List.take_append_drop place tokens
  generalize tokens.take place = before at *
  generalize tokens.drop place = after at *
  subst whole
  have less : ∀ token ∈ before ++ after, token.Short :=
    fun token member => short token (List.mem_append_left _ member)
  have more : ∀ token ∈ before ++ opening :: (body ++ closing :: after), token.Short := by
    intro token member
    apply short
    simp only [List.mem_append, List.mem_cons, List.not_mem_nil, or_false] at member ⊢
    tauto
  obtain ⟨plain, without⟩ := Program.ofTokens_of_short file less
  obtain ⟨whole, inserted⟩ := Program.ofTokens_of_short file more
  obtain ⟨parsed, read, same⟩ := Program.ofTokens_of_moved file' moved inserted
  obtain ⟨-, plainTable, plainMain⟩ := (Program.ofTokens_eq_ok_iff _ _ _).mp without
  obtain ⟨-, wholeTable, wholeMain⟩ := (Program.ofTokens_eq_ok_iff _ _ _).mp inserted
  rw [border.statements_block opens closes nested loops] at wholeMain
  have main : whole.statements = plain.statements := Except.ok.inj (wholeMain.symm.trans plainMain)
  refine ⟨plain, parsed, without, read, ?_, fun fresh => ?_⟩
  · rw [← main]
    exact congrArg Program.statements same
  · obtain ⟨earlier, code, front, back, first, read, keys, parts, entries⟩ :=
      border.functions_block opens closes nested plainTable wholeTable fresh
    refine ⟨earlier, code, front, back, first, read, keys, parts, ?_⟩
    rw [← entries]
    exact congrArg (fun program => program.functions.entries) same

/-- A loop and a function that cross, a loop that is left open, and a function that is
never closed. -/
def crossed : List Token :=
  [⟨.loop, "2", 1, 1, "REPEAT 2"⟩, ⟨.define, "F", 2, 1, "FUNCTION F"⟩,
    ⟨.endLoop, "", 3, 1, "ENDREPEAT"⟩, ⟨.endDefine, "", 4, 1, "ENDFUNCTION"⟩,
    ⟨.loop, "n", 5, 1, "REPEAT n"⟩, ⟨.line, "LEFT", 6, 1, "LEFT"⟩,
    ⟨.define, "F", 7, 1, "FUNCTION F"⟩]

def crossedProgram : Program where
  file := "crossed"
  functions := ⟨[("F", ⟨"F", [], [], some ⟨"crossed", 7, 1, "FUNCTION F"⟩⟩)]⟩
  statements :=
    [.loop (.literal 2) [] (some ⟨"crossed", 1, 1, "REPEAT 2"⟩),
      .act .noop "ENDFUNCTION" (some ⟨"crossed", 4, 1, "ENDFUNCTION"⟩),
      .loop (.identifier "n") [.act .left "LEFT" (some ⟨"crossed", 6, 1, "LEFT"⟩)]
        (some ⟨"crossed", 5, 1, "REPEAT n"⟩)]

theorem ofTokens_crossed : Program.ofTokens "crossed" crossed = .ok crossedProgram := by
  rw [Program.ofTokens_eq_ok_iff, Parser.functions_eq_ok_iff, Parser.statements_eq_ok_iff]
  refine ⟨rfl, ?_, ?_⟩
  · exact .other (by decide) (.define rfl (.act (.inr (.inl rfl)) .nil)
      (.other (by decide) (.other (by decide) (.define rfl .nil .nil))))
  · exact .loop rfl rfl (.define rfl .nil) (.act (.inr (.inr rfl))
      (.loop rfl rfl (.act (.inl rfl) (.define rfl .nil)) .nil))

theorem functionBlocks_crossed : Parser.functionBlocks 0 crossed = [(1, 3), (6, 7)] := by
  simp [crossed, Parser.functionBlocks, Parser.afterFunction, Parser.functionBlock,
    Parser.splitBlock]

theorem outside_crossed : Parser.Outside crossed 5 where
  bound := by decide
  apart := by
    rw [functionBlocks_crossed]
    decide

/-- The block comes into the open loop, and in its body a loop and a function cross, too. -/
theorem insert_function_of_crossed :
    let opening : Token := ⟨.define, "G(a)", 1, 1, "FUNCTION G(a)"⟩
    let closing : Token := ⟨.endDefine, "", 6, 1, "ENDFUNCTION"⟩
    let body : List Token :=
      [⟨.loop, "a", 2, 1, "REPEAT a"⟩, ⟨.define, "H", 3, 1, "FUNCTION H"⟩,
        ⟨.endLoop, "", 4, 1, "ENDREPEAT"⟩, ⟨.endDefine, "", 5, 1, "ENDFUNCTION"⟩]
    let whole := crossed.take 5 ++ opening :: (body ++ closing :: crossed.drop 5)
    Parser.Outside crossed 5 ∧ opening.kind = .define ∧ closing.kind = .endDefine ∧
    Parser.Balanced .loop .endLoop body ∧ Parser.Balanced .define .endDefine body ∧
    (∀ token ∈ crossed ++ opening :: (body ++ [closing]), token.Short) ∧
    List.Forall₂ Token.Moved whole whole ∧
    "G" ∉ crossedProgram.functions.keys ∧
    ∃ parsed, Program.ofTokens "whole" whole = .ok parsed ∧
      unplacedBlock parsed.statements = unplacedBlock crossedProgram.statements ∧
      ∃ earlier code front back,
        Parser.functions "crossed" (crossed.take 5) .empty = .ok earlier ∧
        Parser.statements "crossed" body = .ok code ∧
        front.map Prod.fst = earlier.keys ∧
        crossedProgram.functions.entries = front ++ back ∧
        unplacedEntries parsed.functions.entries =
          unplacedEntries (front ++ ("G", Parser.defined "crossed" opening code) :: back) := by
  intro opening closing body whole
  have loops : Parser.Balanced .loop .endLoop body := by decide
  have nested : Parser.Balanced .define .endDefine body := by decide
  have short : ∀ token ∈ crossed ++ opening :: (body ++ [closing]), token.Short := by decide
  have moved : List.Forall₂ Token.Moved whole whole :=
    List.forall₂_same.mpr fun token _ => Token.Moved.refl token
  have fresh : "G" ∉ crossedProgram.functions.keys := by decide
  obtain ⟨plain, parsed, without, read, main, table⟩ :=
    insert_function "crossed" "whole" outside_crossed rfl rfl loops nested short moved
  have named : (Parser.signature opening.value).1 = "G" := by decide
  have same : plain = crossedProgram := Except.ok.inj (without.symm.trans ofTokens_crossed)
  simp only [same, named] at main table
  exact ⟨outside_crossed, rfl, rfl, loops, nested, short, moved, fresh, parsed, read, main,
    table fresh⟩

end Lamplighter
