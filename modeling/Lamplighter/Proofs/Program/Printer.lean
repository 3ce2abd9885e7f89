import Lamplighter.Proofs.Program.Reading
import Lamplighter.Proofs.Text.Decimal
import Lamplighter.Proofs.Text.Trimmed

/-! Programs as lines of text, and the programs that a text can say.

Functions come before the main program, one instruction a line. A tree is printable
when no text in it runs into what stands around it. -/

namespace Lamplighter

def Expr.print : Expr → String
  | .literal value => toString value
  | .identifier name => name
  | .unknown => ""

/-- A name with its items in brackets. -/
def printSignature (name : String) (items : List String) : String :=
  name ++ "(" ++ String.intercalate ", " items ++ ")"

/-- A keyword and what it is about, with a blank between them. -/
def printKeyword (word value : String) : String := word ++ " " ++ value

mutual

def Instr.print : Instr → List String
  | .act _ text _ => [text]
  | .loop count body _ => printKeyword "REPEAT" count.print :: printBlock body ++ ["ENDREPEAT"]
  | .call name args _ => [printKeyword "CALL" (printSignature name (args.map Expr.print))]
  | .unknown _ => []

def printBlock : List Instr → List String
  | [] => []
  | instr :: instrs => instr.print ++ printBlock instrs

end

def FunDef.print (function : FunDef) : List String :=
  printKeyword "FUNCTION" (printSignature function.name function.params) ::
    printBlock function.body ++ ["ENDFUNCTION"]

def printEntries (entries : List (String × FunDef)) : List String :=
  entries.flatMap fun entry => entry.2.print

def Program.print (program : Program) : List String :=
  printEntries program.functions.entries ++ printBlock program.statements

/-- Trimmed, and on one line. -/
structure Text.Neat (text : String) : Prop where
  trimmed : Trimmed text.toList
  unbroken : Unbroken text.toList

/-- The words that a line must not start with if it is to be carried as it stands. -/
def keywords : List String := ["REPEAT", "ENDREPEAT", "FUNCTION", "ENDFUNCTION", "CALL"]

/-- A statement that is no keyword line, with the opcode that its text stands for. -/
structure Opcode.Says (opcode : Opcode) (text : String) : Prop where
  visible : text ≠ ""
  neat : Text.Neat text
  first : String.ofList (Text.splitWord text.toList).1 ∉ keywords
  stands : opcode = Opcode.ofStatement text

/-- The name of a function, which the first bracket ends. -/
structure PrintableName (name : String) : Prop where
  neat : Text.Neat name
  bracket : '(' ∉ name.toList

/-- An item of a signature, which a comma or a closing bracket ends. -/
structure PrintableItem (item : String) : Prop where
  visible : item ≠ ""
  neat : Text.Neat item
  comma : ',' ∉ item.toList
  bracket : ')' ∉ item.toList

namespace Expr

/-- Literals have at most 4300 digits. A count may be any text on one line that is
not read as a literal, the empty text too. -/
def PrintableCount : Expr → Prop
  | .literal value => (Text.digits value.natAbs).length ≤ Text.maxDigits
  | .identifier name => Text.Neat name ∧ ¬ Text.IsNumeral name
  | .unknown => False

def PrintableArg : Expr → Prop
  | .literal value => (Text.digits value.natAbs).length ≤ Text.maxDigits
  | .identifier name => PrintableItem name ∧ ¬ Text.IsNumeral name
  | .unknown => False

end Expr

mutual

def Instr.Printable : Instr → Prop
  | .act opcode text _ => opcode.Says text
  | .loop count body _ => count.PrintableCount ∧ PrintableBlock body
  | .call name args _ => PrintableName name ∧ ∀ arg ∈ args, arg.PrintableArg
  | .unknown _ => False

def PrintableBlock : List Instr → Prop
  | [] => True
  | instr :: instrs => instr.Printable ∧ PrintableBlock instrs

end

structure FunDef.Printable (function : FunDef) : Prop where
  name : PrintableName function.name
  params : ∀ param ∈ function.params, PrintableItem param
  body : PrintableBlock function.body

/-- Functions stand under their own names, and no two have one name. -/
structure Program.Printable (program : Program) : Prop where
  keys : ∀ entry ∈ program.functions.entries, entry.1 = entry.2.name
  distinct : program.functions.keys.Nodup
  functions : ∀ entry ∈ program.functions.entries, entry.2.Printable
  statements : PrintableBlock program.statements

section Decidable

/-! Whether a tree is printable can be computed. -/

instance (text : String) : Decidable (Text.Neat text) :=
  decidable_of_iff (Text.Trimmed text.toList ∧ Text.Unbroken text.toList)
    ⟨fun parts => ⟨parts.1, parts.2⟩, fun neat => ⟨neat.trimmed, neat.unbroken⟩⟩

instance (opcode : Opcode) (text : String) : Decidable (opcode.Says text) :=
  decidable_of_iff (text ≠ "" ∧ Text.Neat text ∧
      String.ofList (Text.splitWord text.toList).1 ∉ keywords ∧ opcode = Opcode.ofStatement text)
    ⟨fun parts => ⟨parts.1, parts.2.1, parts.2.2.1, parts.2.2.2⟩,
      fun said => ⟨said.visible, said.neat, said.first, said.stands⟩⟩

instance (name : String) : Decidable (PrintableName name) :=
  decidable_of_iff (Text.Neat name ∧ '(' ∉ name.toList)
    ⟨fun parts => ⟨parts.1, parts.2⟩, fun named => ⟨named.neat, named.bracket⟩⟩

instance (item : String) : Decidable (PrintableItem item) :=
  decidable_of_iff (item ≠ "" ∧ Text.Neat item ∧ ',' ∉ item.toList ∧ ')' ∉ item.toList)
    ⟨fun parts => ⟨parts.1, parts.2.1, parts.2.2.1, parts.2.2.2⟩,
      fun listed => ⟨listed.visible, listed.neat, listed.comma, listed.bracket⟩⟩

instance (text : String) : Decidable (Text.IsNumeral text) :=
  inferInstanceAs (Decidable ((Text.Numeral.ofChars? text.toList).isSome = true))

instance : (count : Expr) → Decidable count.PrintableCount
  | .literal value => inferInstanceAs (Decidable ((Text.digits value.natAbs).length ≤ Text.maxDigits))
  | .identifier name => inferInstanceAs (Decidable (Text.Neat name ∧ ¬ Text.IsNumeral name))
  | .unknown => inferInstanceAs (Decidable False)

instance : (arg : Expr) → Decidable arg.PrintableArg
  | .literal value => inferInstanceAs (Decidable ((Text.digits value.natAbs).length ≤ Text.maxDigits))
  | .identifier name => inferInstanceAs (Decidable (PrintableItem name ∧ ¬ Text.IsNumeral name))
  | .unknown => inferInstanceAs (Decidable False)

mutual

def Instr.decidePrintable : (instr : Instr) → Decidable instr.Printable
  | .act opcode text _ => inferInstanceAs (Decidable (opcode.Says text))
  | .loop count body _ =>
      have := decidePrintableBlock body
      inferInstanceAs (Decidable (count.PrintableCount ∧ PrintableBlock body))
  | .call name args _ =>
      inferInstanceAs (Decidable (PrintableName name ∧ ∀ arg ∈ args, arg.PrintableArg))
  | .unknown _ => inferInstanceAs (Decidable False)

def decidePrintableBlock : (instrs : List Instr) → Decidable (PrintableBlock instrs)
  | [] => inferInstanceAs (Decidable True)
  | instr :: instrs =>
      have := instr.decidePrintable
      have := decidePrintableBlock instrs
      inferInstanceAs (Decidable (instr.Printable ∧ PrintableBlock instrs))

end

instance (instrs : List Instr) : Decidable (PrintableBlock instrs) := decidePrintableBlock instrs

instance (function : FunDef) : Decidable function.Printable :=
  decidable_of_iff (PrintableName function.name ∧ (∀ param ∈ function.params, PrintableItem param) ∧
      PrintableBlock function.body)
    ⟨fun parts => ⟨parts.1, parts.2.1, parts.2.2⟩, fun said => ⟨said.name, said.params, said.body⟩⟩

instance (program : Program) : Decidable program.Printable :=
  decidable_of_iff ((∀ entry ∈ program.functions.entries, entry.1 = entry.2.name) ∧
      program.functions.keys.Nodup ∧ (∀ entry ∈ program.functions.entries, entry.2.Printable) ∧
      PrintableBlock program.statements)
    ⟨fun parts => ⟨parts.1, parts.2.1, parts.2.2.1, parts.2.2.2⟩,
      fun said => ⟨said.keys, said.distinct, said.functions, said.statements⟩⟩

end Decidable

/-! A tree without its places, which is what printing keeps. -/

mutual

def Instr.unplaced : Instr → Instr
  | .act opcode text _ => .act opcode text none
  | .loop count body _ => .loop count (unplacedBlock body) none
  | .call name args _ => .call name args none
  | .unknown _ => .unknown none

def unplacedBlock : List Instr → List Instr
  | [] => []
  | instr :: instrs => instr.unplaced :: unplacedBlock instrs

end

def FunDef.unplaced (function : FunDef) : FunDef :=
  { function with body := unplacedBlock function.body, location := none }

def unplacedEntries (entries : List (String × FunDef)) : List (String × FunDef) :=
  entries.map fun entry => (entry.1, entry.2.unplaced)

def Program.unplaced (program : Program) : Program where
  file := ""
  functions := ⟨unplacedEntries program.functions.entries⟩
  statements := unplacedBlock program.statements

end Lamplighter
