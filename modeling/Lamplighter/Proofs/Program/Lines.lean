import Lamplighter.Proofs.Program.Blocks
import Lamplighter.Proofs.Program.Reading

/-! Where the instructions of a program stand.

Every instruction of a parsed program, at any depth and in any of its functions,
was read from one of the lines, and says what that line says. -/

namespace Lamplighter

/-- The instruction stands in the block, or inside a loop of it. -/
inductive Occurs (instr : Instr) : List Instr → Prop where
  | head {rest : List Instr} : Occurs instr (instr :: rest)
  | tail {other : Instr} {rest : List Instr} (later : Occurs instr rest) :
      Occurs instr (other :: rest)
  | body {count : Expr} {body rest : List Instr} {location : Option Location}
      (inner : Occurs instr body) : Occurs instr (.loop count body location :: rest)

theorem Occurs.of_mem {instr : Instr} {block : List Instr} (member : instr ∈ block) :
    Occurs instr block := by
  induction block with
  | nil => cases member
  | cons other rest ih =>
      rcases List.mem_cons.mp member with rfl | later
      · exact .head
      · exact .tail (ih later)

theorem Occurs.inside {count : Expr} {body block : List Instr} {location : Option Location}
    {instr : Instr} (outer : Occurs (.loop count body location) block) (inner : Occurs instr body) :
    Occurs instr block := by
  induction outer with
  | head => exact .body inner
  | tail _ ih => exact .tail ih
  | body _ ih => exact .body ih

/-- The instruction stands in the main program or in a function of the table. -/
def Program.Has (program : Program) (instr : Instr) : Prop :=
  Occurs instr program.statements ∨
    ∃ name function, program.functions.get? name = some function ∧ Occurs instr function.body

namespace Instr

/-- The instruction says what the line says, and is located there. -/
def ReadFrom (file : String) (token : Token) : Instr → Prop
  | .act opcode text location =>
    Parser.IsAct token ∧ opcode = Opcode.ofStatement token.statement ∧ text = token.statement ∧
      location = some (token.location file)
  | .loop count _ location =>
    token.kind = .loop ∧ Parser.expression token.value = .ok count ∧
      location = some (token.location file)
  | .call name args location =>
    token.kind = .call ∧ (Parser.signature token.value).1 = name ∧
      Parser.expressions (Parser.signature token.value).2 = .ok args ∧
      location = some (token.location file)
  | .unknown _ => False

end Instr

namespace Parser

variable {file : String}

theorem Reads.readFrom {tokens : List Token} {instrs : List Instr} (reads : Reads file tokens instrs)
    {instr : Instr} (occurs : Occurs instr instrs) :
    ∃ token ∈ tokens, instr.ReadFrom file token := by
  induction reads with
  | nil => cases occurs
  | define _ _ ih =>
      rcases ih occurs with ⟨line, member, read⟩
      exact ⟨line, .tail _ (mem_of_splitBlock_snd member), read⟩
  | loop kind counted _ _ ihBody ihRest =>
      cases occurs with
      | head => exact ⟨_, .head _, kind, counted, rfl⟩
      | tail later =>
          rcases ihRest later with ⟨line, member, read⟩
          exact ⟨line, .tail _ (mem_of_splitBlock_snd member), read⟩
      | body inner =>
          rcases ihBody inner with ⟨line, member, read⟩
          exact ⟨line, .tail _ (mem_of_splitBlock_fst member), read⟩
  | call kind valued _ ih =>
      cases occurs with
      | head => exact ⟨_, .head _, kind, rfl, valued, rfl⟩
      | tail later =>
          rcases ih later with ⟨line, member, read⟩
          exact ⟨line, .tail _ member, read⟩
  | act kind _ ih =>
      cases occurs with
      | head => exact ⟨_, .head _, kind, rfl, rfl, rfl⟩
      | tail later =>
          rcases ih later with ⟨line, member, read⟩
          exact ⟨line, .tail _ member, read⟩

/-- The function is what one of the lines defines, with a body read from others. -/
def DefinedIn (file : String) (tokens : List Token) (function : FunDef) : Prop :=
  ∃ token ∈ tokens, token.kind = .define ∧
    signature token.value = (function.name, function.params) ∧
    function.location = some (token.location file) ∧
    ∃ lines, lines ⊆ tokens ∧ Reads file lines function.body

theorem DefinedIn.mono {first second : List Token} {function : FunDef}
    (defined : DefinedIn file first function) (subset : first ⊆ second) :
    DefinedIn file second function := by
  rcases defined with ⟨token, member, kind, split, located, lines, inside, reads⟩
  exact ⟨token, subset member, kind, split, located, lines, List.Subset.trans inside subset, reads⟩

theorem Collects.entry {tokens : List Token} {table final : Table FunDef}
    (collects : Collects file tokens table final) {name : String} {function : FunDef}
    (found : final.get? name = some function) :
    table.get? name = some function ∨ function.name = name ∧ DefinedIn file tokens function := by
  induction collects with
  | nil => exact .inl found
  | @define token tokens body table final kind inner _ ih =>
      rcases ih found with earlier | ⟨named, defined⟩
      · rw [Table.get?_insert] at earlier
        split at earlier
        case isTrue same =>
          cases earlier
          exact .inr ⟨same.symm, token, .head _, kind, rfl, rfl, _,
            fun line member => .tail _ (mem_of_splitBlock_fst member), inner⟩
        case isFalse => exact .inl earlier
      · exact .inr ⟨named, defined.mono fun line member => .tail _ (mem_of_splitBlock_snd member)⟩
  | other _ _ ih =>
      rcases ih found with earlier | ⟨named, defined⟩
      · exact .inl earlier
      · exact .inr ⟨named, defined.mono fun line member => .tail _ member⟩

end Parser

namespace Program

variable {source : Text.Source} {file : String} {program : Program}

theorem function_of_parse (parsed : Program.parse source file = .ok program) {name : String}
    {function : FunDef} (found : program.functions.get? name = some function) :
    function.name = name ∧ Parser.DefinedIn file (Token.ofSource source) function := by
  rcases (Program.parse_eq_ok_iff source file program).mp parsed with ⟨_, collects, _⟩
  rcases collects.entry found with absent | defined
  · cases absent
  · exact defined

theorem Has.readFrom (parsed : Program.parse source file = .ok program) {instr : Instr}
    (has : program.Has instr) : ∃ token ∈ Token.ofSource source, instr.ReadFrom file token := by
  rcases has with main | ⟨name, function, found, occurs⟩
  · rcases (Program.parse_eq_ok_iff source file program).mp parsed with ⟨_, _, reads⟩
    exact reads.readFrom main
  · rcases function_of_parse parsed found with ⟨_, _, _, _, _, _, lines, inside, reads⟩
    rcases reads.readFrom occurs with ⟨token, member, read⟩
    exact ⟨token, inside member, read⟩

end Program
end Lamplighter
