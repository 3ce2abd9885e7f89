import Lamplighter.Proofs.Program.Reading

/-! Closers that may be left out.

Where blocks nest well, those that are still open at the end of the lines end there, and
the lines that close them, all or the first few of them, change nothing. Main statement:
`closers_left_out`. -/

namespace Lamplighter

namespace Parser

inductive Block where
  | loop
  | function
  deriving Repr, DecidableEq

namespace Block

def opener : Block → Token.Kind
  | loop => .loop
  | function => .define

def closer : Block → Token.Kind
  | loop => .endLoop
  | function => .endDefine

end Block

/-- The blocks that are open behind a line, from the innermost on. A closer closes the
innermost of them, which has to be of its kind. -/
def nest : List Block → Token.Kind → Option (List Block)
  | blocks, .loop => some (.loop :: blocks)
  | blocks, .define => some (.function :: blocks)
  | .loop :: blocks, .endLoop => some blocks
  | .function :: blocks, .endDefine => some blocks
  | _, .endLoop | _, .endDefine => none
  | blocks, .call | blocks, .line => some blocks

/-- The blocks that are open behind lines in which they nest well. -/
def openBlocks (blocks : List Block) (tokens : List Token) : Option (List Block) :=
  tokens.foldlM (fun blocks token => nest blocks token.kind) blocks

/-- Every closer closes the innermost open block, and in the end none is open. -/
def WellNested (tokens : List Token) : Prop := openBlocks [] tokens = some []

instance (tokens : List Token) : Decidable (WellNested tokens) :=
  inferInstanceAs (Decidable (openBlocks [] tokens = some []))

variable {block : Block} {blocks inner outer last : List Block} {file : String}
  {tokens supplied : List Token} {kind : Token.Kind}

theorem openBlocks_cons {token : Token} :
    openBlocks blocks (token :: tokens) = some last ↔
      ∃ next, nest blocks token.kind = some next ∧ openBlocks next tokens = some last := by
  simp only [openBlocks, List.foldlM_cons, Option.bind_eq_bind, Option.bind_eq_some_iff]

theorem openBlocks_append {front back : List Token} :
    openBlocks blocks (front ++ back) = some last ↔
      ∃ next, openBlocks blocks front = some next ∧ openBlocks next back = some last := by
  simp only [openBlocks, List.foldlM_append, Option.bind_eq_bind, Option.bind_eq_some_iff]

theorem nest_closer (blocks : List Block) (block : Block) :
    nest (block :: blocks) block.closer = some blocks := by
  cases block <;> rfl

/-- Blocks further out are looked at only when the closer of the innermost of them comes. -/
theorem nest_append (nested : nest (inner ++ block :: outer) kind = some last) :
    (inner = [] ∧ kind = block.closer ∧ last = outer) ∨
      ∃ more, nest inner kind = some more ∧ last = more ++ block :: outer := by
  cases inner with
  | nil => cases kind <;> cases block <;> simp_all [nest, Block.closer]
  | cons first inner => cases kind <;> cases first <;> simp_all [nest]

/-- A block is closed in the lines, or it is open behind them with what was opened since. -/
theorem openBlocks_cases (nested : openBlocks (inner ++ block :: outer) tokens = some last) :
    (∃ body closing rest, tokens = body ++ closing :: rest ∧ openBlocks inner body = some [] ∧
      closing.kind = block.closer ∧ openBlocks outer rest = some last) ∨
    ∃ more, openBlocks inner tokens = some more ∧ last = more ++ block :: outer := by
  induction tokens generalizing inner with
  | nil =>
      cases nested
      exact .inr ⟨inner, rfl, rfl⟩
  | cons token tokens ih =>
      obtain ⟨next, step, rest⟩ := openBlocks_cons.mp nested
      rcases nest_append step with ⟨rfl, closes, rfl⟩ | ⟨more, within, rfl⟩
      · exact .inl ⟨[], token, tokens, rfl, rfl, closes, rest⟩
      · rcases ih rest with
          ⟨body, closing, others, rfl, balanced, closes, behind⟩ | ⟨open', through, rfl⟩
        · exact .inl ⟨token :: body, closing, others, rfl,
            openBlocks_cons.mpr ⟨more, within, balanced⟩, closes, behind⟩
        · exact .inr ⟨open', openBlocks_cons.mpr ⟨more, within, through⟩, rfl⟩

/-- A scan counts the open blocks of its kind. -/
theorem depthBehind_nest (nested : nest blocks kind = some last) (block : Block) :
    depthBehind block.opener block.closer (blocks.count block) kind = some (last.count block) := by
  cases kind with
  | loop | define | call | line =>
      cases nested
      cases block <;> simp [depthBehind, Block.opener, Block.closer]
  | endLoop | endDefine =>
      cases blocks with
      | nil => cases nested
      | cons first blocks =>
          cases first <;> cases nested
          cases block <;> simp [depthBehind, Block.opener, Block.closer]

/-- Over well nested lines a scan goes as deep as blocks of its kind are open. -/
theorem splitBlock_nested (nested : openBlocks blocks tokens = some last) (block : Block)
    (rest : List Token) :
    splitBlock block.opener block.closer (blocks.count block) (tokens ++ rest) =
      (tokens ++ (splitBlock block.opener block.closer (last.count block) rest).1,
        (splitBlock block.opener block.closer (last.count block) rest).2) := by
  induction tokens generalizing blocks with
  | nil =>
      cases nested
      rfl
  | cons token tokens ih =>
      obtain ⟨next, step, others⟩ := openBlocks_cons.mp nested
      rw [List.cons_append, splitBlock_passes (depthBehind_nest step block), ih others,
        List.cons_append]

/-- A block ends at its closer, where the blocks that are opened in it are closed in it. -/
theorem splitBlock_at_closer {body rest : List Token} {closing : Token}
    (nested : openBlocks [] body = some []) (closes : closing.kind = block.closer) :
    splitBlock block.opener block.closer 0 (body ++ closing :: rest) = (body, closing :: rest) := by
  have scan := splitBlock_nested nested block (closing :: rest)
  rw [List.count_nil, splitBlock, if_pos closes, List.append_nil] at scan
  exact scan

/-- A block whose closer does not come goes on to the end. -/
theorem splitBlock_to_end (nested : openBlocks [] tokens = some last) (block : Block) :
    splitBlock block.opener block.closer 0 tokens = (tokens, []) := by
  have scan := splitBlock_nested nested block []
  rw [List.count_nil, List.append_nil, splitBlock, List.append_nil] at scan
  exact scan

/-- The lines close the innermost of the blocks, so many of them as there are lines. -/
inductive Supplies : List Block → List Token → Prop where
  | nothing {blocks : List Block} : Supplies blocks []
  | next {block : Block} {blocks : List Block} {token : Token} {tokens : List Token}
      (closes : token.kind = block.closer) (rest : Supplies blocks tokens) :
      Supplies (block :: blocks) (token :: tokens)

theorem openBlocks_closers {closers : List Token}
    (closes : closers.map Token.kind = blocks.map Block.closer) (outer : List Block) :
    openBlocks (blocks ++ outer) closers = some outer := by
  induction blocks generalizing closers with
  | nil =>
      rw [List.map_eq_nil_iff.mp closes]
      rfl
  | cons block blocks ih =>
      obtain ⟨closing, rest, rfl, first, others⟩ := List.map_eq_cons_iff.mp closes
      exact openBlocks_cons.mpr ⟨blocks ++ outer, first ▸ nest_closer _ _, ih others⟩

theorem supplies_of_front {closers : List Token}
    (closes : closers.map Token.kind = blocks.map Block.closer) (front : supplied <+: closers) :
    Supplies blocks supplied := by
  induction blocks generalizing closers supplied with
  | nil =>
      rw [List.map_eq_nil_iff.mp closes, List.prefix_nil] at front
      exact front ▸ .nothing
  | cons block blocks ih =>
      obtain ⟨closing, rest, rfl, first, others⟩ := List.map_eq_cons_iff.mp closes
      rcases List.prefix_cons_iff.mp front with rfl | ⟨more, rfl, less⟩
      · exact .nothing
      · exact .next first (ih others less)

/-- Lines that close blocks from the innermost on do not come to the closer of one further
out, or they have closed all that were inside. -/
theorem Supplies.cases (supplies : Supplies (inner ++ block :: outer) supplied) :
    (Supplies inner supplied ∧ ∃ open', openBlocks inner supplied = some open') ∨
    ∃ first closing rest, supplied = first ++ closing :: rest ∧ Supplies inner first ∧
      openBlocks inner first = some [] ∧ closing.kind = block.closer ∧ Supplies outer rest := by
  induction inner generalizing supplied with
  | nil =>
      cases supplies with
      | nothing => exact .inl ⟨.nothing, [], rfl⟩
      | next closes rest => exact .inr ⟨[], _, _, rfl, .nothing, rfl, closes, rest⟩
  | cons first inner ih =>
      cases supplies with
      | nothing => exact .inl ⟨.nothing, first :: inner, rfl⟩
      | @next _ _ token _ closes rest =>
          have step : nest (first :: inner) token.kind = some inner := closes ▸ nest_closer _ _
          rcases ih rest with
            ⟨less, open', through⟩ | ⟨front, closing, others, rfl, less, through, found⟩
          · exact .inl ⟨.next closes less, open', openBlocks_cons.mpr ⟨inner, step, through⟩⟩
          · exact .inr ⟨token :: front, closing, others, rfl, .next closes less,
              openBlocks_cons.mpr ⟨inner, step, through⟩, found⟩

/-- The longer lines are the shorter ones, well nested inside these blocks, with closers of
blocks that are open behind them. -/
def Supplied (blocks : List Block) (short long : List Token) : Prop :=
  ∃ last supplied, openBlocks blocks short = some last ∧ Supplies last supplied ∧
    long = short ++ supplied

theorem Supplied.cons {token : Token} {long : List Token}
    (supplied : Supplied blocks (token :: tokens) long) :
    ∃ next rest, nest blocks token.kind = some next ∧ long = token :: rest ∧
      Supplied next tokens rest := by
  obtain ⟨last, closers, nested, supplies, rfl⟩ := supplied
  obtain ⟨next, step, others⟩ := openBlocks_cons.mp nested
  exact ⟨next, tokens ++ closers, step, rfl, last, closers, others, supplies, rfl⟩

/-- Of the lines that are supplied some come into the block and others behind it. -/
theorem Supplied.parts {short long : List Token} (supplied : Supplied (block :: outer) short long) :
    Supplied [] (splitBlock block.opener block.closer 0 short).1
        (splitBlock block.opener block.closer 0 long).1 ∧
      Supplied outer ((splitBlock block.opener block.closer 0 short).2.drop 1)
        ((splitBlock block.opener block.closer 0 long).2.drop 1) := by
  obtain ⟨last, closers, nested, supplies, rfl⟩ := supplied
  have within : openBlocks ([] ++ block :: outer) short = some last := nested
  -- Closed already, the block stays as it is; open, it takes closers up to its own.
  rcases openBlocks_cases within with
    ⟨body, closing, rest, rfl, balanced, closes, behind⟩ | ⟨more, through, rfl⟩
  · rw [List.append_assoc, List.cons_append, splitBlock_at_closer balanced closes,
      splitBlock_at_closer balanced closes]
    exact ⟨⟨[], [], balanced, .nothing, (List.append_nil body).symm⟩,
      last, closers, behind, supplies, rfl⟩
  · rw [splitBlock_to_end through block]
    rcases supplies.cases with
      ⟨less, open', ends⟩ | ⟨first, closing, rest, rfl, less, ends, closes, others⟩
    · rw [splitBlock_to_end (openBlocks_append.mpr ⟨more, through, ends⟩) block]
      exact ⟨⟨more, closers, through, less, rfl⟩, outer, [], rfl, .nothing, rfl⟩
    · rw [← List.append_assoc,
        splitBlock_at_closer (openBlocks_append.mpr ⟨more, through, ends⟩) closes]
      exact ⟨⟨more, first, through, less, rfl⟩, outer, rest, rfl, others, rfl⟩

theorem statements_supplied {long : List Token} (supplied : Supplied [] tokens long) :
    statements file long = statements file tokens := by
  induction tokens using read_induct generalizing long with
  | nil =>
      obtain ⟨last, closers, nested, supplies, rfl⟩ := supplied
      cases nested
      cases supplies
      rfl
  | define token tokens kind ih =>
      obtain ⟨next, rest, step, rfl, others⟩ := supplied.cons
      rw [kind] at step
      cases step
      rw [statements_define kind, statements_define kind]
      exact ih others.parts.2
  | loop token tokens kind ihBody ihRest =>
      obtain ⟨next, rest, step, rfl, others⟩ := supplied.cons
      rw [kind] at step
      cases step
      have body : statements file (loopBlock rest).1 = statements file (loopBlock tokens).1 :=
        ihBody others.parts.1
      have behind : statements file (afterLoop rest) = statements file (afterLoop tokens) :=
        ihRest others.parts.2
      rw [statements_loop kind, statements_loop kind, body, behind]
  | call token tokens kind ih =>
      obtain ⟨next, rest, step, rfl, others⟩ := supplied.cons
      rw [kind] at step
      cases step
      rw [statements_call kind, statements_call kind, ih others]
  | act token tokens kind ih =>
      obtain ⟨next, rest, step, rfl, others⟩ := supplied.cons
      rcases kind with line | closes | closes
      · rw [line] at step
        cases step
        rw [statements_act (.inl line), statements_act (.inl line), ih others]
      · rw [closes] at step
        cases step
      · rw [closes] at step
        cases step

theorem Supplies.plain (supplies : Supplies blocks supplied) :
    ∀ token ∈ supplied, token.kind ≠ .define := by
  induction supplies with
  | nothing => exact fun token member => absurd member List.not_mem_nil
  | @next block _ _ _ closes _ ih =>
      refine List.forall_mem_cons.mpr ⟨?_, ih⟩
      rw [closes]
      cases block <;> decide

theorem nest_loops (nested : nest blocks kind = some last) (opens : kind ≠ .define)
    (loops : ∀ block ∈ blocks, block = .loop) : ∀ block ∈ last, block = .loop := by
  cases kind with
  | define => exact absurd rfl opens
  | loop =>
      cases nested
      exact List.forall_mem_cons.mpr ⟨rfl, loops⟩
  | call | line =>
      cases nested
      exact loops
  | endLoop | endDefine =>
      cases blocks with
      | nil => cases nested
      | cons first blocks =>
          cases first <;> cases nested
          exact fun block member => loops block (.tail _ member)

/-- The pass that collects functions passes over them whole, so it only ever stands inside
of loops. -/
theorem functions_supplied {long : List Token} (loops : ∀ block ∈ blocks, block = .loop)
    (supplied : Supplied blocks tokens long) (table : Table FunDef) :
    functions file long table = functions file tokens table := by
  induction tokens using collect_induct generalizing blocks long table with
  | nil =>
      obtain ⟨last, closers, nested, supplies, rfl⟩ := supplied
      cases nested
      rw [functions]
      exact functions_of_plain supplies.plain table
  | define token tokens kind ih =>
      obtain ⟨next, rest, step, rfl, others⟩ := supplied.cons
      rw [kind] at step
      cases step
      have body :
          statements file (functionBlock rest).1 = statements file (functionBlock tokens).1 :=
        statements_supplied others.parts.1
      rw [functions_define kind, functions_define kind, body]
      apply bind_congr
      intro code
      exact ih loops others.parts.2 _
  | other token tokens kind ih =>
      obtain ⟨next, rest, step, rfl, others⟩ := supplied.cons
      rw [functions_other kind, functions_other kind]
      exact ih (nest_loops step kind loops) others table

end Parser

/-- Lines with which a well nested program begins. The closers of the blocks that are open
behind them complete the program, and with any number of these closers, from the innermost
on, the lines are read as they are without. -/
theorem closers_left_out (file : String) {tokens whole : List Token}
    (nested : Parser.WellNested whole) (front : tokens <+: whole) :
    ∃ blocks, Parser.openBlocks [] tokens = some blocks ∧
      ∀ closers, closers.map Token.kind = blocks.map Parser.Block.closer →
        Parser.WellNested (tokens ++ closers) ∧
        ∀ supplied, supplied <+: closers →
          Program.ofTokens file (tokens ++ supplied) = Program.ofTokens file tokens := by
  obtain ⟨rest, rfl⟩ := front
  obtain ⟨blocks, through, -⟩ := Parser.openBlocks_append.mp nested
  refine ⟨blocks, through, fun closers closes => ⟨?_, fun supplied less => ?_⟩⟩
  · have ends := Parser.openBlocks_closers closes []
    rw [List.append_nil] at ends
    exact Parser.openBlocks_append.mpr ⟨blocks, through, ends⟩
  · have more : Parser.Supplied [] tokens (tokens ++ supplied) :=
      ⟨blocks, supplied, through, Parser.supplies_of_front closes less, rfl⟩
    have outside : ∀ block ∈ ([] : List Parser.Block), block = .loop :=
      fun block member => absurd member List.not_mem_nil
    rw [Program.ofTokens, Program.ofTokens, Parser.functions_supplied outside more,
      Parser.statements_supplied more]

/-- A function in a loop of a function in a loop, and a loop in it. All are left open. -/
def nestedLines : List Token :=
  [⟨.loop, "2", 1, 1, "REPEAT 2"⟩, ⟨.define, "F(n)", 2, 1, "FUNCTION F(n)"⟩,
    ⟨.line, "LEFT", 3, 1, "LEFT"⟩, ⟨.loop, "n", 4, 1, "REPEAT n"⟩,
    ⟨.define, "G", 5, 1, "FUNCTION G"⟩, ⟨.loop, "3", 6, 1, "REPEAT 3"⟩]

def nestedProgram : Program :=
  let line (number : Nat) (statement : String) : Option Location :=
    some ⟨"nested", number, 1, statement⟩
  ⟨"nested",
    ⟨[("F", ⟨"F", ["n"],
      [.act .left "LEFT" (line 3 "LEFT"), .loop (.identifier "n") [] (line 4 "REPEAT n")],
      line 2 "FUNCTION F(n)"⟩)]⟩,
    [.loop (.literal 2) [] (line 1 "REPEAT 2")]⟩

theorem ofTokens_nestedLines : Program.ofTokens "nested" nestedLines = .ok nestedProgram := by
  rw [Program.ofTokens_eq_ok_iff, Parser.functions_eq_ok_iff, Parser.statements_eq_ok_iff]
  refine ⟨rfl, ?_, ?_⟩
  · exact .other (by decide)
      (.define rfl (.act (.inl rfl) (.loop rfl rfl (.define rfl .nil) .nil)) .nil)
  · exact .loop rfl rfl (.define rfl .nil) .nil

/-- Three of five closers. -/
theorem closers_left_out_of_nestedLines :
    let closers : List Token :=
      [⟨.endLoop, "", 7, 1, "ENDREPEAT"⟩, ⟨.endDefine, "", 8, 1, "ENDFUNCTION"⟩,
        ⟨.endLoop, "", 9, 1, "ENDREPEAT"⟩, ⟨.endDefine, "", 10, 1, "ENDFUNCTION"⟩,
        ⟨.endLoop, "", 11, 1, "ENDREPEAT"⟩]
    Parser.WellNested (nestedLines ++ closers) ∧ nestedLines <+: nestedLines ++ closers ∧
    Parser.openBlocks [] nestedLines = some [.loop, .function, .loop, .function, .loop] ∧
    Program.ofTokens "nested" (nestedLines ++ closers.take 3) = .ok nestedProgram := by
  intro closers
  have nested : Parser.WellNested (nestedLines ++ closers) := by decide
  have front : nestedLines <+: nestedLines ++ closers := List.prefix_append _ _
  have through : Parser.openBlocks [] nestedLines =
      some [.loop, .function, .loop, .function, .loop] := by decide
  obtain ⟨blocks, opened, others⟩ := closers_left_out "nested" nested front
  cases through.symm.trans opened
  have same := (others closers rfl).2 (closers.take 3) (List.take_prefix _ _)
  exact ⟨nested, front, through, same.trans ofTokens_nestedLines⟩

end Lamplighter
