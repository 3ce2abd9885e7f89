import Lamplighter.Program.Token
import Lamplighter.Text.Decimal
import Lamplighter.Text.Numeral

/-! From program lines to trees, in two passes.

The first pass collects every function block that is not inside another one, also
those inside loops; the second reads the main statements and passes over function
blocks whole. Every line list gives a tree: a block without a closer runs to the
end of the block around it, and a closer without a block is a line that does
nothing. Only a literal that is too long is refused. -/

namespace Lamplighter

/-- The number of digits of a literal that was too long. -/
structure ParseError where
  digits : Nat
  deriving Repr, DecidableEq

def ParseError.message (error : ParseError) : String :=
  let digits := error.digits
  s!"Exceeds the limit (4300 digits) for integer string conversion: value has {digits} digits; " ++
    "use sys.set_int_max_str_digits() to increase the limit"

namespace Parser

/-- Cuts the lines after an opener where its block ends. The second part starts
with the closer, and is empty when there is none. -/
def splitBlock (opener closer : Token.Kind) : Nat → List Token → List Token × List Token
  | _, [] => ([], [])
  | depth, token :: tokens =>
    if token.kind = closer then
      match depth with
      | 0 => ([], token :: tokens)
      | depth + 1 =>
        let block := splitBlock opener closer depth tokens
        (token :: block.1, block.2)
    else
      let inner := if token.kind = opener then depth + 1 else depth
      let block := splitBlock opener closer inner tokens
      (token :: block.1, block.2)

theorem splitBlock_append (opener closer : Token.Kind) (depth : Nat) (tokens : List Token) :
    (splitBlock opener closer depth tokens).1 ++ (splitBlock opener closer depth tokens).2 =
      tokens := by
  induction tokens generalizing depth with
  | nil => rfl
  | cons token tokens ih =>
    unfold splitBlock
    split
    · split
      · rfl
      · simp [ih]
    · simp [ih]

theorem length_splitBlock (opener closer : Token.Kind) (depth : Nat) (tokens : List Token) :
    (splitBlock opener closer depth tokens).1.length +
      (splitBlock opener closer depth tokens).2.length = tokens.length := by
  rw [← List.length_append, splitBlock_append]

/-- The body of a loop that was just opened, and what starts at its closer. -/
def loopBlock (tokens : List Token) : List Token × List Token :=
  splitBlock .loop .endLoop 0 tokens

/-- The body of a function that was just opened, and what starts at its closer. -/
def functionBlock (tokens : List Token) : List Token × List Token :=
  splitBlock .define .endDefine 0 tokens

theorem length_loopBlock (tokens : List Token) :
    (loopBlock tokens).1.length + (loopBlock tokens).2.length = tokens.length :=
  length_splitBlock ..

theorem length_functionBlock (tokens : List Token) :
    (functionBlock tokens).1.length + (functionBlock tokens).2.length = tokens.length :=
  length_splitBlock ..

/-- A name and the items between the first `(` and the next `)`. Items are
trimmed and empty ones dropped; without a `(` there are none. -/
def signature (text : String) : String × List String :=
  let (name, rest) := text.toList.span (· ≠ '(')
  let inner := (rest.drop 1).takeWhile (· ≠ ')')
  let items := ((inner.splitOn ',').map Text.trim).filter fun item => !item.isEmpty
  (String.ofList (Text.trim name), items.map String.ofList)

/-- Everything that is not a decimal integer is a name, the empty text too. -/
def expression (text : String) : Except ParseError Expr :=
  match Text.Numeral.ofChars? text.toList with
  | none => .ok (.identifier text)
  | some numeral =>
    if Text.maxDigits < numeral.size then .error ⟨numeral.size⟩ else .ok (.literal numeral.value)

def expressions : List String → Except ParseError (List Expr)
  | [] => .ok []
  | text :: texts => do
    let first ← expression text
    let rest ← expressions texts
    return first :: rest

/-- The statements of a block. A loop's count is read before its body, and its
body before what follows. -/
def statements (file : String) : List Token → Except ParseError (List Instr)
  | [] => .ok []
  | token :: tokens =>
    let location := some (token.location file)
    match token.kind with
    | .define => statements file ((functionBlock tokens).2.drop 1)
    | .loop => do
      let count ← expression token.value
      let body ← statements file (loopBlock tokens).1
      let rest ← statements file ((loopBlock tokens).2.drop 1)
      return .loop count body location :: rest
    | .call => do
      let (name, items) := signature token.value
      let args ← expressions items
      let rest ← statements file tokens
      return .call name args location :: rest
    | .endLoop | .endDefine | .line => do
      let rest ← statements file tokens
      return .act (Opcode.ofStatement token.statement) token.statement location :: rest
  termination_by tokens => tokens.length
  decreasing_by
    all_goals
      have := length_functionBlock tokens
      have := length_loopBlock tokens
      simp only [List.length_cons, List.length_drop]
      omega

/-- Adds the functions of the lines to a table. A later one of the same name
takes the earlier one's place. -/
def functions (file : String) : List Token → Table FunDef → Except ParseError (Table FunDef)
  | [], table => .ok table
  | token :: tokens, table =>
    if token.kind = .define then do
      let (name, params) := signature token.value
      let body ← statements file (functionBlock tokens).1
      let function := ⟨name, params, body, some (token.location file)⟩
      functions file ((functionBlock tokens).2.drop 1) (table.insert name function)
    else functions file tokens table
  termination_by tokens => tokens.length
  decreasing_by
    all_goals
      have := length_functionBlock tokens
      simp only [List.length_cons, List.length_drop]
      omega

end Parser

def Program.ofTokens (file : String) (tokens : List Token) : Except ParseError Program := do
  let functions ← Parser.functions file tokens .empty
  let statements ← Parser.statements file tokens
  return ⟨file, functions, statements⟩

def Program.parse (source : Text.Source) (file : String) : Except ParseError Program :=
  Program.ofTokens file (Token.ofSource source)

end Lamplighter
