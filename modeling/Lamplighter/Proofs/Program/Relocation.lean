import Mathlib.Data.List.Forall2
import Lamplighter.Proofs.Program.Printer
import Lamplighter.Proofs.Table
import Lamplighter.Proofs.Program.Blocks

/-! Where the lines stand does not matter to the trees.

Lines that say the same, one by one, are read as trees that differ in places alone, or
are refused with the same error. Main statement: `Program.ofTokens_moved`. -/

namespace Lamplighter

/-- Two readings that look the same are followed by readings that look the same. -/
theorem map_bind_congr {ε α β γ δ : Type} {view : α → γ} {seen : β → δ}
    {first second : Except ε α} {next other : α → Except ε β}
    (same : first.map view = second.map view)
    (alike : ∀ left right, view left = view right →
      (next left).map seen = (other right).map seen) :
    (first >>= next).map seen = (second >>= other).map seen := by
  cases first with
  | error =>
      cases second with
      | error =>
          cases same
          rfl
      | ok => cases same
  | ok left =>
      cases second with
      | error => cases same
      | ok right => exact alike left right (Except.ok.inj same)

theorem map_bind_same {ε α β γ : Type} {seen : β → γ} {next other : α → Except ε β}
    (first : Except ε α) (alike : ∀ value, (next value).map seen = (other value).map seen) :
    (first >>= next).map seen = (first >>= other).map seen := by
  cases first with
  | error => rfl
  | ok value => exact alike value

/-- The same line at another place. -/
structure Token.Moved (token other : Token) : Prop where
  kind : other.kind = token.kind
  value : other.value = token.value
  statement : other.statement = token.statement

theorem Token.Moved.refl (token : Token) : token.Moved token := ⟨rfl, rfl, rfl⟩

namespace Parser

open List (Forall₂)

variable {file file' : String} {tokens others : List Token}

/-- A block ends behind as many lines in both. -/
theorem splitBlock_moved {opener closer : Token.Kind} (depth : Nat)
    (moved : Forall₂ Token.Moved tokens others) :
    Forall₂ Token.Moved (splitBlock opener closer depth tokens).1
        (splitBlock opener closer depth others).1 ∧
      Forall₂ Token.Moved (splitBlock opener closer depth tokens).2
        (splitBlock opener closer depth others).2 := by
  induction moved generalizing depth with
  | nil => exact ⟨.nil, .nil⟩
  | @cons token other tokens others said moved ih =>
      cases behind : depthBehind opener closer depth token.kind with
      | none =>
          have same : depthBehind opener closer depth other.kind = none := by rwa [said.kind]
          rw [splitBlock_stops behind, splitBlock_stops same]
          exact ⟨.nil, .cons said moved⟩
      | some inner =>
          have same : depthBehind opener closer depth other.kind = some inner := by
            rwa [said.kind]
          rw [splitBlock_passes behind, splitBlock_passes same]
          exact ⟨.cons said (ih inner).1, (ih inner).2⟩

theorem afterBlock_moved {opener closer : Token.Kind} (depth : Nat)
    (moved : Forall₂ Token.Moved tokens others) :
    Forall₂ Token.Moved ((splitBlock opener closer depth tokens).2.drop 1)
      ((splitBlock opener closer depth others).2.drop 1) :=
  List.forall₂_drop 1 (splitBlock_moved depth moved).2

theorem IsAct.moved {token other : Token} (kind : IsAct token) (said : token.Moved other) :
    IsAct other := by
  rwa [IsAct, said.kind]

theorem statements_moved (moved : Forall₂ Token.Moved tokens others) :
    (statements file' others).map unplacedBlock = (statements file tokens).map unplacedBlock := by
  induction tokens using read_induct generalizing others with
  | nil =>
      cases moved
      rw [statements, statements]
  | define token tokens kind ih =>
      rcases moved with _ | ⟨said, rest⟩
      rw [statements_define kind, statements_define (said.kind.trans kind)]
      exact ih (afterBlock_moved 0 rest)
  | loop token tokens kind ihBody ihRest =>
      rcases moved with _ | ⟨said, rest⟩
      rw [statements_loop kind, statements_loop (said.kind.trans kind), said.value]
      apply map_bind_same
      intro count
      apply map_bind_congr (ihBody (splitBlock_moved 0 rest).1)
      intro body _ sameBody
      apply map_bind_congr (ihRest (afterBlock_moved 0 rest))
      intro more _ sameRest
      apply congrArg Except.ok
      simp only [unplacedBlock, Instr.unplaced, sameBody, sameRest]
  | call token tokens kind ih =>
      rcases moved with _ | ⟨said, rest⟩
      rw [statements_call kind, statements_call (said.kind.trans kind), said.value]
      apply map_bind_same
      intro args
      apply map_bind_congr (ih rest)
      intro more _ sameRest
      apply congrArg Except.ok
      simp only [unplacedBlock, Instr.unplaced, sameRest]
  | act token tokens kind ih =>
      rcases moved with _ | ⟨said, rest⟩
      rw [statements_act kind, statements_act (kind.moved said), said.statement]
      apply map_bind_congr (ih rest)
      intro more _ sameRest
      apply congrArg Except.ok
      simp only [unplacedBlock, Instr.unplaced, sameRest]

/-- The functions of a table, without their places. -/
def unplacedTable (table : Table FunDef) : List (String × FunDef) := unplacedEntries table.entries

theorem unplacedTable_insert (table : Table FunDef) (name : String) (function : FunDef) :
    unplacedTable (table.insert name function) =
      Table.write name function.unplaced (unplacedTable table) :=
  Table.map_write FunDef.unplaced name function table.entries

theorem unplaced_defined {token other : Token} {body body' : List Instr} (said : token.Moved other)
    (same : unplacedBlock body' = unplacedBlock body) :
    (defined file' other body').unplaced = (defined file token body).unplaced := by
  simp only [defined, FunDef.unplaced, said.value, same]

theorem functions_moved (moved : Forall₂ Token.Moved tokens others) {table table' : Table FunDef}
    (same : unplacedTable table' = unplacedTable table) :
    (functions file' others table').map unplacedTable =
      (functions file tokens table).map unplacedTable := by
  induction tokens using collect_induct generalizing others table table' with
  | nil =>
      cases moved
      rw [functions, functions]
      exact congrArg Except.ok same
  | define token tokens kind ih =>
      rcases moved with _ | ⟨said, rest⟩
      rw [functions_define kind, functions_define (said.kind.trans kind), said.value]
      apply map_bind_congr (statements_moved (splitBlock_moved 0 rest).1)
      intro body' body sameBody
      apply ih (afterBlock_moved 0 rest)
      rw [unplacedTable_insert, unplacedTable_insert, same, unplaced_defined said sameBody]
  | other token tokens kind ih =>
      rcases moved with _ | ⟨said, rest⟩
      rw [functions_other kind, functions_other (said.kind ▸ kind)]
      exact ih rest same

end Parser

/-- Lines that say the same give the same program, up to its places. -/
theorem Program.ofTokens_moved (file file' : String) {tokens others : List Token}
    (moved : List.Forall₂ Token.Moved tokens others) :
    (Program.ofTokens file' others).map Program.unplaced =
      (Program.ofTokens file tokens).map Program.unplaced := by
  apply map_bind_congr (Parser.functions_moved moved rfl)
  intro functions' functions sameTable
  apply map_bind_congr (Parser.statements_moved moved)
  intro instrs' instrs sameInstrs
  have sameEntries : unplacedEntries functions'.entries = unplacedEntries functions.entries :=
    sameTable
  apply congrArg Except.ok
  simp only [Program.unplaced, sameEntries, sameInstrs]

theorem Program.ofTokens_of_moved {file : String} (file' : String) {tokens others : List Token}
    (moved : List.Forall₂ Token.Moved tokens others) {program : Program}
    (parsed : Program.ofTokens file tokens = .ok program) :
    ∃ other, Program.ofTokens file' others = .ok other ∧ other.unplaced = program.unplaced := by
  have same := Program.ofTokens_moved file file' moved
  rw [parsed] at same
  cases read : Program.ofTokens file' others with
  | error =>
      rw [read] at same
      cases same
  | ok other =>
      rw [read] at same
      exact ⟨other, rfl, Except.ok.inj same⟩

end Lamplighter
