import Lamplighter.Proofs.Program.Reading
import Lamplighter.Proofs.Table

/-! Trees whose instructions are located elsewhere.

The parser copies where a line stands and never looks at it. Lines that say the same at other
places are read as the same trees with those places. Main statement:
`Program.ofTokens_relabelled`. -/

namespace Lamplighter

section Relabelled

variable (label : Location → Location)

mutual

def Instr.relabelled : Instr → Instr
  | .act opcode text location => .act opcode text (location.map label)
  | .loop count body location => .loop count (relabelledBlock body) (location.map label)
  | .call name args location => .call name args (location.map label)
  | .unknown location => .unknown (location.map label)

def relabelledBlock : List Instr → List Instr
  | [] => []
  | instr :: instrs => instr.relabelled :: relabelledBlock instrs

end

def FunDef.relabelled (function : FunDef) : FunDef :=
  { function with
    body := relabelledBlock label function.body
    location := function.location.map label }

def Program.relabelled (program : Program) : Program where
  file := program.file
  functions := program.functions.mapValues (FunDef.relabelled label)
  statements := relabelledBlock label program.statements

end Relabelled

theorem Table.insert_mapValues {α β : Type} (view : α → β) (table : Table α) (name : String)
    (value : α) : (table.insert name value).mapValues view =
      (table.mapValues view).insert name (view value) :=
  congrArg Table.mk (map_write view name value table.entries)

/-- The lines say what they said, and stand where the label has it. -/
structure Token.Relabels (label : Location → Location) (file file' : String)
    (move : Token → Token) : Prop where
  kind : ∀ token, (move token).kind = token.kind
  value : ∀ token, (move token).value = token.value
  statement : ∀ token, (move token).statement = token.statement
  location : ∀ token, (move token).location file' = label (token.location file)

namespace Parser

variable {label : Location → Location} {file file' : String} {move : Token → Token}

section Blocks

variable (kept : ∀ token, (move token).kind = token.kind)

include kept

theorem splitBlock_map (opener closer : Token.Kind) (depth : Nat) (tokens : List Token) :
    splitBlock opener closer depth (tokens.map move) =
      ((splitBlock opener closer depth tokens).1.map move,
        (splitBlock opener closer depth tokens).2.map move) := by
  induction tokens generalizing depth with
  | nil => rfl
  | cons token tokens ih =>
      cases behind : depthBehind opener closer depth token.kind with
      | none =>
          have same : depthBehind opener closer depth (move token).kind = none := by rwa [kept]
          rw [List.map_cons, splitBlock_stops behind, splitBlock_stops same]
          rfl
      | some inner =>
          have same : depthBehind opener closer depth (move token).kind = some inner := by
            rwa [kept]
          rw [List.map_cons, splitBlock_passes behind, splitBlock_passes same, ih]
          rfl

theorem loopBlock_map (tokens : List Token) :
    (loopBlock (tokens.map move)).1 = (loopBlock tokens).1.map move := by
  rw [loopBlock, splitBlock_map kept, loopBlock]

theorem afterLoop_map (tokens : List Token) :
    afterLoop (tokens.map move) = (afterLoop tokens).map move := by
  rw [afterLoop, loopBlock, splitBlock_map kept, afterLoop, loopBlock, List.map_drop]

theorem functionBlock_map (tokens : List Token) :
    (functionBlock (tokens.map move)).1 = (functionBlock tokens).1.map move := by
  rw [functionBlock, splitBlock_map kept, functionBlock]

theorem afterFunction_map (tokens : List Token) :
    afterFunction (tokens.map move) = (afterFunction tokens).map move := by
  rw [afterFunction, functionBlock, splitBlock_map kept, afterFunction, functionBlock,
    List.map_drop]

end Blocks

variable (relabels : Token.Relabels label file file' move)

include relabels

theorem statements_relabelled (tokens : List Token) :
    statements file' (tokens.map move) = (statements file tokens).map (relabelledBlock label) := by
  induction tokens using read_induct with
  | nil =>
      rw [List.map_nil, statements, statements]
      rfl
  | define token tokens kind ih =>
      have same : (move token).kind = .define := (relabels.kind token).trans kind
      rw [List.map_cons, statements_define same, statements_define kind,
        afterFunction_map relabels.kind, ih]
  | loop token tokens kind ihBody ihRest =>
      have same : (move token).kind = .loop := (relabels.kind token).trans kind
      rw [List.map_cons, statements_loop same, statements_loop kind, relabels.value,
        relabels.location, loopBlock_map relabels.kind, afterLoop_map relabels.kind, ihBody, ihRest]
      cases expression token.value with
      | error => rfl
      | ok count =>
          cases statements file (loopBlock tokens).1 with
          | error => rfl
          | ok body => cases statements file (afterLoop tokens) <;> rfl
  | call token tokens kind ih =>
      have same : (move token).kind = .call := (relabels.kind token).trans kind
      rw [List.map_cons, statements_call same, statements_call kind, relabels.value,
        relabels.location, ih]
      cases expressions (signature token.value).2 with
      | error => rfl
      | ok args => cases statements file tokens <;> rfl
  | act token tokens kind ih =>
      have same : IsAct (move token) := by rwa [IsAct, relabels.kind]
      rw [List.map_cons, statements_act same, statements_act kind, relabels.statement,
        relabels.location, ih]
      cases statements file tokens <;> rfl

theorem functions_relabelled (tokens : List Token) (table : Table FunDef) :
    functions file' (tokens.map move) (table.mapValues (FunDef.relabelled label)) =
      (functions file tokens table).map (Table.mapValues (FunDef.relabelled label)) := by
  induction tokens using collect_induct generalizing table with
  | nil =>
      rw [List.map_nil, functions, functions]
      rfl
  | define token tokens kind ih =>
      have same : (move token).kind = .define := (relabels.kind token).trans kind
      rw [List.map_cons, functions_define same, functions_define kind,
        functionBlock_map relabels.kind, afterFunction_map relabels.kind,
        statements_relabelled relabels]
      cases statements file (functionBlock tokens).1 with
      | error => rfl
      | ok body =>
          have made : defined file' (move token) (relabelledBlock label body) =
              (defined file token body).relabelled label := by
            rw [defined, relabels.value, relabels.location]
            rfl
          have rest := ih (table.insert (signature token.value).1 (defined file token body))
          rw [Table.insert_mapValues] at rest
          rw [relabels.value]
          simp only [Except.map, bind, Except.bind, made]
          exact rest
  | other token tokens kind ih =>
      have same : (move token).kind ≠ .define := by rwa [relabels.kind]
      rw [List.map_cons, functions_other same, functions_other kind, ih]

end Parser

/-- Lines that are moved are read as before, or refused as before. -/
theorem Program.ofTokens_relabelled {label : Location → Location} {file : String}
    {move : Token → Token} (relabels : Token.Relabels label file file move)
    (tokens : List Token) :
    Program.ofTokens file (tokens.map move) =
      (Program.ofTokens file tokens).map (Program.relabelled label) := by
  have collected : Parser.functions file (tokens.map move) .empty =
      (Parser.functions file tokens .empty).map (Table.mapValues (FunDef.relabelled label)) :=
    Parser.functions_relabelled relabels tokens .empty
  rw [Program.ofTokens, Program.ofTokens, collected, Parser.statements_relabelled relabels]
  cases Parser.functions file tokens .empty with
  | error => rfl
  | ok functions => cases Parser.statements file tokens <;> rfl

end Lamplighter
