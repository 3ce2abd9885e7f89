import Lamplighter.Proofs.Program.Reading

/-! Reading loops in one pass.

The parser looks for the end of a loop first and then reads its body as lines of their
own. One look at each line is enough: a stack holds the loops that are open, and a closer
closes the innermost of them. Main statement: `one_pass`. -/

namespace Lamplighter

namespace Parser

/-- A loop that has not been closed yet, with what was read in front of it in the block
that it stands in, the latest first. -/
structure OpenLoop where
  count : Expr
  location : Option Location
  before : List Instr

/-- The block around a loop, once the loop is closed behind this body. -/
def OpenLoop.close (loop : OpenLoop) (body : List Instr) : List Instr :=
  .loop loop.count body.reverse loop.location :: loop.before

/-- What was read in the innermost open block, the latest first, and the loops around it
from the innermost on. -/
structure Stack where
  block : List Instr
  loops : List OpenLoop

namespace Stack

def start : Stack := ⟨[], []⟩

/-- Takes in one line. A closer without an open loop is an act, as every line is that
neither opens a loop nor calls. -/
def read (file : String) (stack : Stack) (token : Token) : Except ParseError Stack :=
  let location := some (token.location file)
  match token.kind, stack.loops with
  | .loop, loops => do
    let count ← expression token.value
    return ⟨[], ⟨count, location, stack.block⟩ :: loops⟩
  | .call, loops => do
    let (name, items) := signature token.value
    let args ← expressions items
    return ⟨.call name args location :: stack.block, loops⟩
  | .endLoop, loop :: loops => .ok ⟨loop.close stack.block, loops⟩
  | _, loops =>
    .ok ⟨.act (Opcode.ofStatement token.statement) token.statement location :: stack.block, loops⟩

/-- Closes all loops that are open. -/
def close (stack : Stack) : List Instr :=
  (stack.loops.foldl (fun block loop => loop.close block) stack.block).reverse

end Stack

/-- The statements of lines that hold no function, each line looked at once. -/
def onePass (file : String) (tokens : List Token) : Except ParseError (List Instr) := do
  let stack ← tokens.foldlM (Stack.read file) .start
  return stack.close

/-- The statements when so much has been read: the lines up to the closer of each open loop
go on with its body, and the lines behind with the block around it. -/
def finish (file : String) : List OpenLoop → List Instr → List Token →
    Except ParseError (List Instr)
  | [], block, tokens => do
    let rest ← statements file tokens
    return block.reverse ++ rest
  | loop :: loops, block, tokens => do
    let body ← statements file (loopBlock tokens).1
    finish file loops (loop.close (body.reverse ++ block)) (afterLoop tokens)

variable {file : String} {token : Token} {loops : List OpenLoop} {block : List Instr}

theorem Stack.read_act (act : IsAct token) (closes : token.kind = .endLoop → loops = []) :
    Stack.read file ⟨block, loops⟩ token = .ok
      ⟨.act (Opcode.ofStatement token.statement) token.statement (some (token.location file)) ::
          block, loops⟩ := by
  rcases act with kind | kind | kind
  · simp only [Stack.read, kind]
  · cases closes kind
    simp only [Stack.read, kind]
  · simp only [Stack.read, kind]

theorem finish_nil (file : String) (loops : List OpenLoop) (block : List Instr) :
    finish file loops block [] = .ok (Stack.close ⟨block, loops⟩) := by
  induction loops generalizing block with
  | nil =>
      simp only [finish, statements, Stack.close, List.foldl_nil]
      exact congrArg Except.ok (List.append_nil _)
  | cons loop loops ih =>
      simp only [finish, loopBlock, splitBlock, statements, afterLoop]
      exact ih _

theorem loopBlock_other (opens : token.kind ≠ .loop) (closes : token.kind ≠ .endLoop)
    (tokens : List Token) :
    loopBlock (token :: tokens) = (token :: (loopBlock tokens).1, (loopBlock tokens).2) := by
  rw [loopBlock, splitBlock_other 0 tokens closes, if_neg opens]
  rfl

/-- A line that is read on its own comes to the block that is open. -/
theorem finish_single {reading : Except ParseError Instr}
    (alone : ∀ rest, statements file (token :: rest) = do
      let instr ← reading
      let more ← statements file rest
      return instr :: more)
    (opens : token.kind ≠ .loop) (closes : token.kind = .endLoop → loops = [])
    (tokens : List Token) :
    finish file loops block (token :: tokens) = (do
      let instr ← reading
      finish file loops (instr :: block) tokens) := by
  cases loops with
  | nil => simp only [finish, alone, bind_assoc, pure_bind, List.reverse_cons, List.append_assoc,
      List.singleton_append]
  | cons loop loops =>
      have inside : token.kind ≠ .endLoop := fun kind => by cases closes kind
      simp only [finish, afterLoop, loopBlock_other opens inside, alone, bind_assoc, pure_bind,
        List.reverse_cons, List.append_assoc, List.singleton_append]

/-- Inside an open loop, a loop ends where it would end on its own, and what is behind it
there ends with the loop around it. -/
theorem loopBlock_nested (tokens : List Token) :
    let inside := (splitBlock .loop .endLoop 1 tokens).1
    (loopBlock inside).1 = (loopBlock tokens).1 ∧
    afterLoop inside = (loopBlock (afterLoop tokens)).1 ∧
    (splitBlock .loop .endLoop 1 tokens).2 = (loopBlock (afterLoop tokens)).2 := by
  have parts := loopBlock_append tokens
  cases ends : loopBlock tokens with
  | mk body back =>
      rw [ends] at parts
      cases back with
      | nil =>
          have whole := splitBlock_succ_of_open (congrArg Prod.snd ends)
          simp only [whole, afterLoop, ends]
          exact ⟨trivial, rfl, rfl⟩
      | cons closing rest =>
          subst parts
          have inside := splitBlock_behind ends (loopBlock rest).1
          simp only [splitBlock_succ_of_closed ends, afterLoop, ends]
          simp only [loopBlock] at inside ⊢
          simp only [inside]
          exact ⟨trivial, rfl, rfl⟩

theorem finish_opening (kind : token.kind = .loop) (tokens : List Token) :
    finish file loops block (token :: tokens) = (do
      let count ← expression token.value
      finish file (⟨count, some (token.location file), block⟩ :: loops) [] tokens) := by
  cases loops with
  | nil => simp only [finish, statements_loop kind, OpenLoop.close, bind_assoc, pure_bind,
      List.append_nil, List.reverse_reverse, List.reverse_cons, List.append_assoc,
      List.singleton_append]
  | cons loop loops =>
      obtain ⟨body, behind, back⟩ := loopBlock_nested tokens
      have inside : loopBlock (token :: tokens) =
          (token :: (splitBlock .loop .endLoop 1 tokens).1,
            (splitBlock .loop .endLoop 1 tokens).2) := by
        rw [loopBlock, splitBlock_other 0 tokens (by simp [kind]), if_pos kind]
      have after : afterLoop (token :: tokens) = afterLoop (afterLoop tokens) := by
        conv_lhs => rw [afterLoop, inside, back]
        rfl
      simp only [finish, inside, after, statements_loop kind, body, behind, OpenLoop.close,
        bind_assoc, pure_bind, List.append_nil, List.reverse_reverse, List.reverse_cons,
        List.append_assoc, List.singleton_append]

theorem finish_closing (kind : token.kind = .endLoop) (loop : OpenLoop) (tokens : List Token) :
    finish file (loop :: loops) block (token :: tokens) =
      finish file loops (loop.close block) tokens := by
  have ends : loopBlock (token :: tokens) = ([], token :: tokens) := by
    rw [loopBlock, splitBlock, if_pos kind]
  simp only [finish, afterLoop, ends, statements]
  rfl

/-- What one line does to the stack does not change how the lines are read. -/
theorem finish_cons (known : token.kind ≠ .define) (stack : Stack) (tokens : List Token) :
    finish file stack.loops stack.block (token :: tokens) = (do
      let next ← stack.read file token
      finish file next.loops next.block tokens) := by
  obtain ⟨block, loops⟩ := stack
  rcases kind_cases token with kind | kind | kind | kind
  · exact absurd kind known
  · rw [finish_opening kind]
    simp only [Stack.read, kind, bind_assoc, pure_bind]
  · have alone (rest : List Token) : statements file (token :: rest) = (do
        let instr ← (do
          let args ← expressions (signature token.value).2
          return Instr.call (signature token.value).1 args (some (token.location file)))
        let more ← statements file rest
        return instr :: more) := by
      simp only [statements_call kind, bind_assoc, pure_bind]
    rw [finish_single alone (by simp [kind]) (by simp [kind])]
    simp only [Stack.read, kind, bind_assoc, pure_bind]
  · by_cases closes : token.kind = .endLoop ∧ loops ≠ []
    · obtain ⟨closes, more⟩ := closes
      obtain ⟨loop, loops, rfl⟩ := List.exists_cons_of_ne_nil more
      rw [finish_closing closes]
      simp only [Stack.read, closes]
      rfl
    · have stray : token.kind = .endLoop → loops = [] :=
        fun closing => not_not.mp fun more => closes ⟨closing, more⟩
      have alone (rest : List Token) : statements file (token :: rest) = (do
          let instr ← Except.ok (Instr.act (Opcode.ofStatement token.statement)
            token.statement (some (token.location file)))
          let more ← statements file rest
          return instr :: more) := statements_act kind rest
      rw [finish_single alone kind.kind_ne.2 stray, Stack.read_act kind stray]
      rfl

theorem foldlM_read {tokens : List Token} (plain : ∀ token ∈ tokens, token.kind ≠ .define)
    (stack : Stack) :
    (do
      let last ← tokens.foldlM (Stack.read file) stack
      return last.close) = finish file stack.loops stack.block tokens := by
  induction tokens generalizing stack with
  | nil => exact (finish_nil ..).symm
  | cons token tokens ih =>
      have others := ih fun other member => plain other (.tail _ member)
      rw [List.foldlM_cons, bind_assoc, finish_cons (plain token (.head _))]
      simp only [others]

theorem statements_eq_onePass {tokens : List Token}
    (plain : ∀ token ∈ tokens, token.kind ≠ .define) :
    statements file tokens = onePass file tokens := by
  rw [onePass, foldlM_read plain]
  simp only [finish, Stack.start, List.reverse_nil, List.nil_append, bind_pure]

end Parser

/-- The line of a keyword is none of the four orders. -/
theorem Token.noop_of_kind {line column : Nat} {statement : List Char}
    (keyword : (ofStatement line column statement).kind ≠ .line) :
    Opcode.ofStatement (ofStatement line column statement).statement = .noop := by
  have apart (word : String) (order : (ofStatement line column word.toList).kind = .line) :
      (ofStatement line column statement).statement ≠ word := by
    rintro rfl
    exact keyword (by simpa [ofStatement] using order)
  rw [Opcode.ofStatement, if_neg (apart _ rfl), if_neg (apart _ rfl), if_neg (apart _ rfl),
    if_neg (apart _ rfl)]

theorem Token.noop_of_mem_ofSource {source : Text.Source} {token : Token}
    (member : token ∈ ofSource source) (keyword : token.kind ≠ .line) :
    Opcode.ofStatement token.statement = .noop := by
  obtain ⟨⟨raw, line⟩, _, given⟩ := List.mem_filterMap.mp member
  simp only [ofLine?] at given
  split at given
  · cases given
  · cases given
    exact noop_of_kind keyword

/-- Lines without functions, whatever of their loops is closed or open, are read as one
look at each of them from the first to the last reads them, with the same error if any. In
a source the line of a closer is no order, so a stray one does nothing. -/
theorem one_pass (file : String) (tokens : List Token)
    (plain : ∀ token ∈ tokens, token.kind ≠ .define) :
    Program.ofTokens file tokens = (Parser.onePass file tokens).map (⟨file, .empty, ·⟩) ∧
    ∀ source, ∀ token ∈ Token.ofSource source, token.kind = .endLoop →
      Opcode.ofStatement token.statement = .noop := by
  constructor
  · rw [Program.ofTokens, Parser.functions_of_plain plain, Parser.statements_eq_onePass plain]
    cases Parser.onePass file tokens <;> rfl
  · intro source token member closes
    exact Token.noop_of_mem_ofSource member (by simp [closes])

/-- A stray closer of either kind, a loop inside a loop, and a loop that is never closed. -/
def strayLines : List Token :=
  [⟨.endLoop, "", 1, 1, "ENDREPEAT"⟩, ⟨.loop, "2", 2, 1, "REPEAT 2"⟩,
    ⟨.line, "LEFT", 3, 3, "LEFT"⟩, ⟨.loop, "n", 4, 3, "REPEAT n"⟩,
    ⟨.endDefine, "", 5, 5, "ENDFUNCTION"⟩, ⟨.endLoop, "", 6, 3, "ENDREPEAT"⟩,
    ⟨.endLoop, "", 7, 1, "ENDREPEAT"⟩, ⟨.loop, "3", 8, 1, "REPEAT 3"⟩,
    ⟨.call, "F(1)", 9, 1, "CALL F(1)"⟩]

def strayStatements : List Instr :=
  let line (number column : Nat) (statement : String) : Option Location :=
    some ⟨"stray", number, column, statement⟩
  [.act .noop "ENDREPEAT" (line 1 1 "ENDREPEAT"),
    .loop (.literal 2)
      [.act .left "LEFT" (line 3 3 "LEFT"),
        .loop (.identifier "n") [.act .noop "ENDFUNCTION" (line 5 5 "ENDFUNCTION")]
          (line 4 3 "REPEAT n")]
      (line 2 1 "REPEAT 2"),
    .loop (.literal 3) [.call "F" [.literal 1] (line 9 1 "CALL F(1)")] (line 8 1 "REPEAT 3")]

theorem one_pass_of_strayLines :
    (∀ token ∈ strayLines, token.kind ≠ .define) ∧
    Program.ofTokens "stray" strayLines = .ok ⟨"stray", .empty, strayStatements⟩ := by
  have plain : ∀ token ∈ strayLines, token.kind ≠ .define := by decide
  have read : Parser.onePass "stray" strayLines = .ok strayStatements := by rfl
  have same := (one_pass "stray" strayLines plain).1
  rw [read] at same
  exact ⟨plain, same⟩

end Lamplighter
