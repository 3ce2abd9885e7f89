import Lamplighter.Proofs.Program.Blocks

/-! What the parser reads, as relations between lines and trees.

`Reads` and `Collects` have one rule for each kind of line. They hold of exactly
what the two passes return, so an argument about a parsed program is an induction
on them. Main statement: `Program.parse_eq_ok_iff`. -/

namespace Lamplighter

theorem bind_eq_ok {ε α β : Type} {first : Except ε α} {next : α → Except ε β} {result : β} :
    first >>= next = .ok result ↔ ∃ value, first = .ok value ∧ next value = .ok result := by
  cases first <;> simp [bind, Except.bind]

namespace Parser

/-- The lines after a function block. -/
def afterFunction (tokens : List Token) : List Token := (functionBlock tokens).2.drop 1

/-- The lines after a loop. -/
def afterLoop (tokens : List Token) : List Token := (loopBlock tokens).2.drop 1

/-- A line that is neither an opener nor a call is an act, a stray closer too. -/
def IsAct (token : Token) : Prop := token.kind = .line ∨ token.kind = .endLoop ∨ token.kind = .endDefine

inductive Reads (file : String) : List Token → List Instr → Prop where
  | nil : Reads file [] []
  | define {token : Token} {tokens : List Token} {instrs : List Instr}
      (kind : token.kind = .define) (rest : Reads file (afterFunction tokens) instrs) :
      Reads file (token :: tokens) instrs
  | loop {token : Token} {tokens : List Token} {count : Expr} {body instrs : List Instr}
      (kind : token.kind = .loop) (counted : expression token.value = .ok count)
      (inner : Reads file (loopBlock tokens).1 body)
      (rest : Reads file (afterLoop tokens) instrs) :
      Reads file (token :: tokens) (.loop count body (some (token.location file)) :: instrs)
  | call {token : Token} {tokens : List Token} {args : List Expr} {instrs : List Instr}
      (kind : token.kind = .call) (valued : expressions (signature token.value).2 = .ok args)
      (rest : Reads file tokens instrs) :
      Reads file (token :: tokens)
        (.call (signature token.value).1 args (some (token.location file)) :: instrs)
  | act {token : Token} {tokens : List Token} {instrs : List Instr}
      (kind : IsAct token) (rest : Reads file tokens instrs) :
      Reads file (token :: tokens)
        (.act (Opcode.ofStatement token.statement) token.statement (some (token.location file)) ::
          instrs)

/-- The table that the first pass makes of an earlier one. -/
inductive Collects (file : String) : List Token → Table FunDef → Table FunDef → Prop where
  | nil {table : Table FunDef} : Collects file [] table table
  | define {token : Token} {tokens : List Token} {body : List Instr} {table final : Table FunDef}
      (kind : token.kind = .define) (inner : Reads file (functionBlock tokens).1 body)
      (rest : Collects file (afterFunction tokens)
        (table.insert (signature token.value).1 ⟨(signature token.value).1,
          (signature token.value).2, body, some (token.location file)⟩) final) :
      Collects file (token :: tokens) table final
  | other {token : Token} {tokens : List Token} {table final : Table FunDef}
      (kind : token.kind ≠ .define) (rest : Collects file tokens table final) :
      Collects file (token :: tokens) table final

theorem IsAct.kind_ne {token : Token} (kind : IsAct token) :
    token.kind ≠ .define ∧ token.kind ≠ .loop := by
  rcases kind with kind | kind | kind <;> simp [kind]

theorem kind_cases (token : Token) :
    token.kind = .define ∨ token.kind = .loop ∨ token.kind = .call ∨ IsAct token := by
  cases kind : token.kind <;> simp [IsAct, kind]

variable {file : String} {token : Token}

theorem statements_define (kind : token.kind = .define) (tokens : List Token) :
    statements file (token :: tokens) = statements file (afterFunction tokens) := by
  simp only [statements, kind, afterFunction]

theorem statements_loop (kind : token.kind = .loop) (tokens : List Token) :
    statements file (token :: tokens) = do
      let count ← expression token.value
      let body ← statements file (loopBlock tokens).1
      let rest ← statements file (afterLoop tokens)
      return .loop count body (some (token.location file)) :: rest := by
  simp only [statements, kind, afterLoop]

theorem statements_call (kind : token.kind = .call) (tokens : List Token) :
    statements file (token :: tokens) = do
      let args ← expressions (signature token.value).2
      let rest ← statements file tokens
      return .call (signature token.value).1 args (some (token.location file)) :: rest := by
  simp only [statements, kind]

theorem statements_act (kind : IsAct token) (tokens : List Token) :
    statements file (token :: tokens) = do
      let rest ← statements file tokens
      return .act (Opcode.ofStatement token.statement) token.statement
        (some (token.location file)) :: rest := by
  rcases kind with kind | kind | kind <;> simp only [statements, kind]

/-- Induction along the pass that reads statements. -/
@[elab_as_elim]
theorem read_induct {motive : List Token → Prop} (nil : motive [])
    (define : ∀ token tokens, token.kind = .define → motive (afterFunction tokens) →
      motive (token :: tokens))
    (loop : ∀ token tokens, token.kind = .loop → motive (loopBlock tokens).1 →
      motive (afterLoop tokens) → motive (token :: tokens))
    (call : ∀ token tokens, token.kind = .call → motive tokens → motive (token :: tokens))
    (act : ∀ token tokens, IsAct token → motive tokens → motive (token :: tokens))
    (tokens : List Token) : motive tokens := by
  induction tokens using statements.induct "" with
  | case1 => exact nil
  | case2 token tokens kind ih => exact define token tokens kind ih
  | case3 token tokens kind ihBody ihRest => exact loop token tokens kind ihBody ihRest
  | case4 token tokens kind _ _ _ ih => exact call token tokens kind ih
  | case5 token tokens kind ih => exact act token tokens (.inr (.inl kind)) ih
  | case6 token tokens kind ih => exact act token tokens (.inr (.inr kind)) ih
  | case7 token tokens kind ih => exact act token tokens (.inl kind) ih

theorem reads_of_statements (tokens : List Token) (instrs : List Instr)
    (parsed : statements file tokens = .ok instrs) : Reads file tokens instrs := by
  induction tokens using read_induct generalizing instrs with
  | nil =>
      rw [statements] at parsed
      cases parsed
      exact .nil
  | define token tokens kind ih =>
      rw [statements_define kind] at parsed
      exact .define kind (ih instrs parsed)
  | loop token tokens kind ihBody ihRest =>
      simp only [statements_loop kind, bind_eq_ok] at parsed
      rcases parsed with ⟨count, counted, body, inner, rest, after, result⟩
      cases result
      exact .loop kind counted (ihBody body inner) (ihRest rest after)
  | call token tokens kind ih =>
      simp only [statements_call kind, bind_eq_ok] at parsed
      rcases parsed with ⟨args, valued, rest, after, result⟩
      cases result
      exact .call kind valued (ih rest after)
  | act token tokens kind ih =>
      simp only [statements_act kind, bind_eq_ok] at parsed
      rcases parsed with ⟨rest, after, result⟩
      cases result
      exact .act kind (ih rest after)

theorem statements_eq_ok_iff (tokens : List Token) (instrs : List Instr) :
    statements file tokens = .ok instrs ↔ Reads file tokens instrs := by
  refine ⟨reads_of_statements tokens instrs, fun reads => ?_⟩
  induction reads with
  | nil => rw [statements]
  | define kind _ ih => rwa [statements_define kind]
  | loop kind counted _ _ ihBody ihRest =>
      simp only [statements_loop kind, bind_eq_ok]
      exact ⟨_, counted, _, ihBody, _, ihRest, rfl⟩
  | call kind valued _ ih =>
      simp only [statements_call kind, bind_eq_ok]
      exact ⟨_, valued, _, ih, rfl⟩
  | act kind _ ih =>
      simp only [statements_act kind, bind_eq_ok]
      exact ⟨_, ih, rfl⟩

/-- The function that a line defines with this body. -/
def defined (file : String) (token : Token) (body : List Instr) : FunDef :=
  ⟨(signature token.value).1, (signature token.value).2, body, some (token.location file)⟩

theorem functions_define (kind : token.kind = .define) (tokens : List Token)
    (table : Table FunDef) :
    functions file (token :: tokens) table = (do
      let body ← statements file (functionBlock tokens).1
      functions file (afterFunction tokens)
        (table.insert (signature token.value).1 (defined file token body))) := by
  rw [functions, if_pos kind]
  rfl

theorem functions_other (kind : token.kind ≠ .define) (tokens : List Token)
    (table : Table FunDef) :
    functions file (token :: tokens) table = functions file tokens table := by
  rw [functions, if_neg kind]

section FunctionBlock

/-! A function block whose own functions are closed in it, whatever comes behind it. -/

variable {opening closing : Token} {body : List Token} (opens : opening.kind = .define)
  (closes : closing.kind = .endDefine) (inner : Closed .define .endDefine body)

include opens closes inner

theorem statements_block (rest : List Token) :
    statements file (opening :: (body ++ closing :: rest)) = statements file rest := by
  rw [statements_define opens, afterFunction, functionBlock, inner.splitBlock_eq closes]
  rfl

theorem functions_block (rest : List Token) (table : Table FunDef) :
    functions file (opening :: (body ++ closing :: rest)) table = (do
      let code ← statements file body
      functions file rest
        (table.insert (signature opening.value).1 (defined file opening code))) := by
  rw [functions_define opens, afterFunction, functionBlock, inner.splitBlock_eq closes]
  rfl

end FunctionBlock

/-- Induction along the pass that collects functions. -/
@[elab_as_elim]
theorem collect_induct {motive : List Token → Prop} (nil : motive [])
    (define : ∀ token tokens, token.kind = .define → motive (afterFunction tokens) →
      motive (token :: tokens))
    (other : ∀ token tokens, token.kind ≠ .define → motive tokens → motive (token :: tokens))
    (tokens : List Token) : motive tokens := by
  -- The table goes along and is not looked at.
  induction tokens, (Table.empty : Table FunDef) using functions.induct "" with
  | case1 => exact nil
  | case2 token tokens _ kind _ _ _ ih => exact define token tokens kind (ih [])
  | case3 token tokens _ kind ih => exact other token tokens kind ih

theorem collects_of_functions (tokens : List Token) (table final : Table FunDef)
    (parsed : functions file tokens table = .ok final) : Collects file tokens table final := by
  induction tokens using collect_induct generalizing table with
  | nil =>
      rw [functions] at parsed
      cases parsed
      exact .nil
  | define token tokens kind ih =>
      rw [functions_define kind, bind_eq_ok] at parsed
      rcases parsed with ⟨body, inner, after⟩
      exact .define kind (reads_of_statements _ _ inner) (ih _ after)
  | other token tokens kind ih =>
      rw [functions_other kind] at parsed
      exact .other kind (ih table parsed)

theorem functions_eq_ok_iff (tokens : List Token) (table final : Table FunDef) :
    functions file tokens table = .ok final ↔ Collects file tokens table final := by
  refine ⟨collects_of_functions tokens table final, fun collects => ?_⟩
  induction collects with
  | nil => rw [functions]
  | define kind inner _ ih =>
      rw [functions_define kind, bind_eq_ok]
      exact ⟨_, (statements_eq_ok_iff _ _).mpr inner, ih⟩
  | other kind _ ih => rwa [functions_other kind]

/-- Lines that define no function add nothing to a table. -/
theorem functions_of_plain {tokens : List Token} (plain : ∀ token ∈ tokens, token.kind ≠ .define)
    (table : Table FunDef) : functions file tokens table = .ok table := by
  induction tokens with
  | nil => rw [functions]
  | cons token tokens ih =>
      rw [functions_other (plain token (.head _))]
      exact ih fun other member => plain other (.tail _ member)

end Parser

theorem Program.ofTokens_eq_ok_iff (file : String) (tokens : List Token) (program : Program) :
    Program.ofTokens file tokens = .ok program ↔
      program.file = file ∧
      Parser.functions file tokens .empty = .ok program.functions ∧
      Parser.statements file tokens = .ok program.statements := by
  simp only [Program.ofTokens, bind_eq_ok]
  constructor
  · rintro ⟨functions, collected, statements, read, result⟩
    cases result
    exact ⟨rfl, collected, read⟩
  · rintro ⟨rfl, collected, read⟩
    exact ⟨_, collected, _, read, rfl⟩

theorem Program.parse_eq_ok_iff (source : Text.Source) (file : String) (program : Program) :
    Program.parse source file = .ok program ↔
      program.file = file ∧
      Parser.Collects file (Token.ofSource source) .empty program.functions ∧
      Parser.Reads file (Token.ofSource source) program.statements := by
  rw [Program.parse, Program.ofTokens_eq_ok_iff, Parser.functions_eq_ok_iff,
    Parser.statements_eq_ok_iff]

end Lamplighter
