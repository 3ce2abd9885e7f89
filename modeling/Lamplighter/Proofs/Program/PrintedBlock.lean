import Lamplighter.Proofs.Program.Blocks
import Lamplighter.Proofs.Program.PrintedLine

/-! Printed blocks.

The lines of a printed block are read the same whatever stands behind them: its loops
are closed inside it, and it holds no function. Main statement: `printed_block`. -/

namespace Lamplighter

open Text

namespace Token

/-- The tokens of lines that are numbered from `start` on. -/
def numbered (start : Nat) (lines : List String) : List Token :=
  (lines.zipIdx start).filterMap fun line => ofLine? line.2 line.1.toList

theorem numbered_append (start : Nat) (first second : List String) :
    numbered start (first ++ second) =
      numbered start first ++ numbered (start + first.length) second := by
  rw [numbered, List.zipIdx_append, List.filterMap_append]
  rfl

theorem numbered_single {start : Nat} {line : String} {token : Token}
    (given : ofLine? start line.toList = some token) : numbered start [line] = [token] := by
  simp only [numbered, List.zipIdx_singleton, List.filterMap_cons, given, List.filterMap_nil]

theorem numbered_enclosed {start : Nat} {first last : String} {lines : List String}
    {opening closing : Token} (opened : ofLine? start first.toList = some opening)
    (closed : ofLine? (start + 1 + lines.length) last.toList = some closing) :
    numbered start (first :: lines ++ [last]) =
      opening :: (numbered (start + 1) lines ++ [closing]) := by
  have parts : first :: lines ++ [last] = [first] ++ (lines ++ [last]) := rfl
  rw [parts, numbered_append, numbered_single opened, List.length_singleton, numbered_append,
    numbered_single closed]
  rfl

end Token

theorem unplacedBlock_append (first second : List Instr) :
    unplacedBlock (first ++ second) = unplacedBlock first ++ unplacedBlock second := by
  induction first with
  | nil => rfl
  | cons instr first ih =>
      simp only [List.cons_append, unplacedBlock, ih]

/-- Lines that say a block, whatever lines come behind them. -/
structure Printed (file : String) (tokens : List Token) (instrs : List Instr) : Prop where
  loops : Parser.Closed .loop .endLoop tokens
  plain : ∀ token ∈ tokens, token.kind ≠ .define ∧ token.kind ≠ .endDefine
  reads : ∃ placed, unplacedBlock placed = unplacedBlock instrs ∧
    ∀ rest more, Parser.Reads file rest more → Parser.Reads file (tokens ++ rest) (placed ++ more)

namespace Printed

variable {file : String} {tokens first second : List Token} {instrs before after : List Instr}

theorem nil : Printed file [] [] where
  loops := Parser.closed_nil
  plain := by simp
  reads := ⟨[], rfl, fun _ _ reads => reads⟩

theorem append (front : Printed file first before) (behind : Printed file second after) :
    Printed file (first ++ second) (before ++ after) where
  loops := front.loops.append behind.loops
  plain := by
    intro token member
    rcases List.mem_append.mp member with inFirst | inSecond
    · exact front.plain token inFirst
    · exact behind.plain token inSecond
  reads := by
    obtain ⟨placed, same, readsFirst⟩ := front.reads
    obtain ⟨more, sameMore, readsSecond⟩ := behind.reads
    refine ⟨placed ++ more, ?_, ?_⟩
    · rw [unplacedBlock_append, unplacedBlock_append, same, sameMore]
    · intro rest others reads
      rw [List.append_assoc, List.append_assoc]
      exact readsFirst _ _ (readsSecond _ _ reads)

/-- A block that stands alone, up to the end of its lines. -/
theorem alone (printed : Printed file tokens instrs) :
    ∃ placed, unplacedBlock placed = unplacedBlock instrs ∧ Parser.Reads file tokens placed := by
  obtain ⟨placed, same, reads⟩ := printed.reads
  have whole := reads [] [] .nil
  rw [List.append_nil, List.append_nil] at whole
  exact ⟨placed, same, whole⟩

/-- One line that is neither an opener nor a closer. -/
theorem single {token : Token} {instr placed : Instr} (kind : token.kind = .line ∨ token.kind = .call)
    (same : placed.unplaced = instr.unplaced)
    (reads : ∀ rest more, Parser.Reads file rest more →
      Parser.Reads file (token :: rest) (placed :: more)) : Printed file [token] [instr] where
  loops := by
    apply Parser.closed_single
    · rcases kind with line | call <;> simp [*]
    · rcases kind with line | call <;> simp [*]
  plain := by
    intro other member
    rw [List.mem_singleton.mp member]
    rcases kind with line | call <;> simp [*]
  reads := ⟨[placed], by simp only [unplacedBlock, same], reads⟩

theorem act {opcode : Opcode} {text : String} (said : opcode.Says text) (location : Option Location)
    (start : Nat) : Printed file (Token.numbered start [text]) [.act opcode text location] := by
  obtain ⟨token, given, kind, valued⟩ := said.gives start
  have statement : token.statement = text := by
    calc
      token.statement = token.value := (value_of_ofLine? given kind).symm
      _ = text := valued
  rw [Token.numbered_single given]
  apply single (.inl kind) _ (fun rest more reads => .act (.inl kind) reads)
  rw [statement, said.stands]
  rfl

theorem call {name : String} {args : List Expr} (named : PrintableName name)
    (listed : ∀ arg ∈ args, arg.PrintableArg) (location : Option Location) (start : Nat) :
    Printed file
      (Token.numbered start [printKeyword "CALL" (printSignature name (args.map Expr.print))])
      [.call name args location] := by
  have items := printableItem_of_args listed
  have keyword : "CALL" ∈ keywords := by decide
  have neat := neat_printSignature named items
  obtain ⟨token, given, kind, valued⟩ := gives_keyword keyword neat start
  have parts : Parser.signature token.value = (name, args.map Expr.print) := by
    rw [valued, signature_printSignature named items]
  have read : Parser.expressions (Parser.signature token.value).2 = .ok args := by
    rw [parts, expressions_print listed]
  rw [Token.numbered_single given]
  apply single (.inr kind) _ (fun rest more reads => .call kind read reads)
  rw [parts]
  rfl

/-- A loop around a printed block: the scan for its closer ends at its own. -/
theorem loop {count : Expr} {body : List Instr} {opening closing : Token}
    (inner : Printed file tokens body) (opens : opening.kind = .loop)
    (closes : closing.kind = .endLoop) (counted : Parser.expression opening.value = .ok count)
    (location : Option Location) :
    Printed file (opening :: (tokens ++ [closing])) [.loop count body location] where
  loops := inner.loops.block opens closes (by decide)
  plain := by
    intro token member
    simp only [List.mem_cons, List.mem_append, List.not_mem_nil, or_false] at member
    rcases member with rfl | inside | rfl
    · simp [opens]
    · exact inner.plain token inside
    · simp [closes]
  reads := by
    obtain ⟨placed, same, reads⟩ := inner.alone
    refine ⟨[.loop count placed (some (opening.location file))], ?_, ?_⟩
    · simp only [unplacedBlock, Instr.unplaced, same]
    · intro rest more others
      -- Every loop of the body is closed in it, so the scan stops at this closer.
      have block := inner.loops.splitBlock_eq closes rest
      simp only [List.cons_append, List.append_assoc, List.nil_append]
      apply Parser.Reads.loop opens counted
      · rwa [Parser.loopBlock, block]
      · rwa [Parser.afterLoop, Parser.loopBlock, block]

end Printed

mutual

theorem printed_instr (file : String) :
    ∀ (instr : Instr) (start : Nat), instr.Printable →
      Printed file (Token.numbered start instr.print) [instr]
  | .act _ _ location, start, said => Printed.act said location start
  | .call _ _ location, start, said => Printed.call said.1 said.2 location start
  | .loop count body location, start, said => by
      have opener : "REPEAT" ∈ keywords := by decide
      have closer : "ENDREPEAT" ∈ keywords := by decide
      have inner := printed_block file body (start + 1) said.2
      obtain ⟨opening, opened, opens, counted⟩ := gives_keyword opener said.1.neat start
      obtain ⟨closing, closed, closes, -⟩ := gives_word closer (start + 1 + (printBlock body).length)
      have read : Parser.expression opening.value = .ok count := by
        rw [counted, said.1.expression]
      rw [Instr.print, Token.numbered_enclosed opened closed]
      exact inner.loop opens closes read location

theorem printed_block (file : String) :
    ∀ (instrs : List Instr) (start : Nat), PrintableBlock instrs →
      Printed file (Token.numbered start (printBlock instrs)) instrs
  | [], _, _ => Printed.nil
  | instr :: instrs, start, said => by
      have first := printed_instr file instr start said.1
      have others := printed_block file instrs (start + instr.print.length) said.2
      rw [printBlock, Token.numbered_append]
      exact first.append others

end

theorem unbroken_enclosed {word value last : String} {lines : List String}
    (opener : word ∈ keywords) (neat : Neat value)
    (inner : ∀ line ∈ lines, Unbroken line.toList) (closer : last ∈ keywords) :
    ∀ line ∈ printKeyword word value :: lines ++ [last], Unbroken line.toList := by
  intro line member
  rcases List.mem_append.mp member with member | member
  · rcases List.mem_cons.mp member with rfl | inside
    · exact unbroken_printKeyword opener neat
    · exact inner line inside
  · rw [List.mem_singleton.mp member]
    exact (solid_of_mem_keywords closer).unbroken

mutual

theorem unbroken_print : ∀ instr : Instr, instr.Printable →
    ∀ line ∈ instr.print, Unbroken line.toList
  | .act _ text _, said, line, member => by
      rw [List.mem_singleton.mp member]
      exact said.neat.unbroken
  | .call name args _, said, line, member => by
      rw [List.mem_singleton.mp member]
      have neat := neat_printSignature said.1 (printableItem_of_args said.2)
      exact unbroken_printKeyword (by decide) neat
  | .loop count body _, said, line, member => by
      have inner := unbroken_printBlock body said.2
      exact unbroken_enclosed (by decide) said.1.neat inner (by decide) line member

theorem unbroken_printBlock : ∀ instrs : List Instr, PrintableBlock instrs →
    ∀ line ∈ printBlock instrs, Unbroken line.toList
  | instr :: instrs, said, line, member => by
      rcases List.mem_append.mp member with first | later
      · exact unbroken_print instr said.1 line first
      · exact unbroken_printBlock instrs said.2 line later

end

end Lamplighter
