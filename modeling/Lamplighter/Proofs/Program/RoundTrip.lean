import Lamplighter.Proofs.Program.PrintedBlock
import Lamplighter.Proofs.Table

/-! Parsing undoes printing.

Printed functions are passed over where statements are read, and come into the table
in the order in which they were printed. Main statement: `parse_print`. -/

namespace Lamplighter

open Text

theorem FunDef.Printable.unbroken {function : FunDef} (said : function.Printable) :
    ∀ line ∈ function.print, Unbroken line.toList := by
  have neat := neat_printSignature said.name said.params
  have inner := unbroken_printBlock function.body said.body
  exact unbroken_enclosed (by decide) neat inner (by decide)

/-- A printed function is passed over by the pass that reads statements, and is one
more entry for the pass that collects functions. -/
structure Defines (file : String) (tokens : List Token) (function placed : FunDef) : Prop where
  same : placed.unplaced = function.unplaced
  passed : ∀ rest instrs, Parser.Reads file rest instrs → Parser.Reads file (tokens ++ rest) instrs
  collected : ∀ rest table final,
    Parser.Collects file rest (table.insert function.name placed) final →
      Parser.Collects file (tokens ++ rest) table final

/-- A printed block between the lines that open and close a function. -/
theorem Printed.defines {file : String} {tokens : List Token} {function : FunDef}
    {opening closing : Token} (inner : Printed file tokens function.body)
    (opens : opening.kind = .define) (closes : closing.kind = .endDefine)
    (parts : Parser.signature opening.value = (function.name, function.params)) :
    ∃ placed, Defines file (opening :: (tokens ++ [closing])) function placed := by
  rcases inner.alone with ⟨body, same, reads⟩
  have nested := Parser.closed_of_plain inner.plain
  refine ⟨⟨function.name, function.params, body, some (opening.location file)⟩, ?_, ?_, ?_⟩
  · simp only [FunDef.unplaced, same]
  · intro rest instrs others
    rw [← Parser.statements_eq_ok_iff] at others ⊢
    rwa [List.cons_append, List.append_assoc, List.singleton_append,
      Parser.statements_block opens closes nested]
  · intro rest table final others
    rw [← Parser.functions_eq_ok_iff] at others ⊢
    rw [← Parser.statements_eq_ok_iff] at reads
    rw [List.cons_append, List.append_assoc, List.singleton_append,
      Parser.functions_block opens closes nested, bind_eq_ok]
    exact ⟨body, reads, by rwa [Parser.defined, parts]⟩

theorem FunDef.Printable.defines {function : FunDef} (said : function.Printable) (file : String)
    (start : Nat) : ∃ placed, Defines file (Token.numbered start function.print) function placed := by
  have opener : "FUNCTION" ∈ keywords := by decide
  have closer : "ENDFUNCTION" ∈ keywords := by decide
  have neat := neat_printSignature said.name said.params
  have inner := printed_block file function.body (start + 1) said.body
  rcases gives_keyword opener neat start with ⟨opening, opened, opens, valued⟩
  obtain ⟨closing, closed, closes, -⟩ :=
    gives_word closer (start + 1 + (printBlock function.body).length)
  have parts : Parser.signature opening.value = (function.name, function.params) := by
    rw [valued, signature_printSignature said.name said.params]
  rw [FunDef.print, Token.numbered_enclosed opened closed]
  exact inner.defines opens closes parts

/-- Lines without a function add nothing to a table. -/
theorem collects_of_plain {file : String} {tokens : List Token} (table : Table FunDef)
    (plain : ∀ token ∈ tokens, token.kind ≠ .define ∧ token.kind ≠ .endDefine) :
    Parser.Collects file tokens table table := by
  rw [← Parser.functions_eq_ok_iff]
  exact Parser.functions_of_plain (fun token member => (plain token member).1) table

/-- Printed statements are read as the main program, without functions. -/
theorem parse_printBlock (file : String) {instrs : List Instr} (said : PrintableBlock instrs) :
    ∃ placed, unplacedBlock placed = unplacedBlock instrs ∧
      Program.parse (.pieces (printBlock instrs)) file = .ok ⟨file, .empty, placed⟩ := by
  have printed := printed_block file instrs 1 said
  have tokens : Token.ofSource (.pieces (printBlock instrs)) =
      Token.numbered 1 (printBlock instrs) := by
    rw [Token.ofSource, lines_pieces (unbroken_printBlock instrs said)]
    rfl
  obtain ⟨placed, same, reads⟩ := printed.alone
  refine ⟨placed, same, ?_⟩
  rw [Program.parse_eq_ok_iff, tokens]
  exact ⟨rfl, collects_of_plain _ printed.plain, reads⟩

/-- Printed functions that are passed over by one pass, and that the other one writes
behind a table that has none of their names. -/
structure Tabulates (file : String) (tokens : List Token) (entries placed : List (String × FunDef)) :
    Prop where
  same : unplacedEntries placed = unplacedEntries entries
  passed : ∀ rest instrs, Parser.Reads file rest instrs → Parser.Reads file (tokens ++ rest) instrs
  collected : ∀ rest before final,
    (∀ name ∈ entries.map Prod.fst, name ∉ before.map Prod.fst) →
    Parser.Collects file rest ⟨before ++ placed⟩ final →
      Parser.Collects file (tokens ++ rest) ⟨before⟩ final

theorem tabulates_nil (file : String) : Tabulates file [] [] [] where
  same := rfl
  passed := fun _ _ reads => reads
  collected := by
    intro rest before final _ collects
    rwa [List.append_nil] at collects

theorem Tabulates.cons {file : String} {first second : List Token} {function placed : FunDef}
    {entries others : List (String × FunDef)} (defines : Defines file first function placed)
    (later : Tabulates file second entries others) (fresh : function.name ∉ entries.map Prod.fst) :
    Tabulates file (first ++ second) ((function.name, function) :: entries)
      ((function.name, placed) :: others) where
  same := by
    have rest := later.same
    simp only [unplacedEntries] at rest
    simp only [unplacedEntries, List.map_cons, defines.same, rest]
  passed := by
    intro rest instrs reads
    rw [List.append_assoc]
    exact defines.passed _ _ (later.passed _ _ reads)
  collected := by
    intro rest before final apart collects
    rw [List.append_assoc]
    apply defines.collected
    rw [Table.insert_append before function.name placed (apart function.name (.head _))]
    apply later.collected
    · intro name member inside
      rw [List.map_append, List.mem_append] at inside
      rcases inside with earlier | here
      · exact apart name (.tail _ member) earlier
      · have same : name = function.name := by simpa using here
        exact fresh (same ▸ member)
    · rwa [List.append_assoc]

theorem tabulates_entries (file : String) (entries : List (String × FunDef)) (start : Nat)
    (keys : ∀ entry ∈ entries, entry.1 = entry.2.name) (distinct : (entries.map Prod.fst).Nodup)
    (said : ∀ entry ∈ entries, entry.2.Printable) :
    ∃ placed, Tabulates file (Token.numbered start (printEntries entries)) entries placed := by
  induction entries generalizing start with
  | nil => exact ⟨[], tabulates_nil file⟩
  | cons entry entries ih =>
      rcases entry with ⟨key, function⟩
      have named : key = function.name := keys _ (.head _)
      subst named
      rw [List.map_cons, List.nodup_cons] at distinct
      rcases (said _ (.head _)).defines file start with ⟨placed, defines⟩
      obtain ⟨others, later⟩ := ih (start + function.print.length)
        (fun entry member => keys entry (.tail _ member)) distinct.2
        (fun entry member => said entry (.tail _ member))
      rw [printEntries, List.flatMap_cons, Token.numbered_append]
      exact ⟨_, later.cons defines distinct.1⟩

theorem Program.Printable.unbroken {program : Program} (said : program.Printable) :
    ∀ line ∈ program.print, Unbroken line.toList := by
  intro line member
  rcases List.mem_append.mp member with inFunction | inMain
  · rcases List.mem_flatMap.mp inFunction with ⟨entry, present, inside⟩
    exact (said.functions entry present).unbroken line inside
  · exact unbroken_printBlock program.statements said.statements line inMain

/-- The printed lines of a program are read as the program, under the file name that
is given and with the places of the lines. -/
theorem parse_print (program : Program) (file : String) (said : program.Printable) :
    ∃ parsed, Program.parse (.pieces program.print) file = .ok parsed ∧
      parsed.file = file ∧ parsed.unplaced = program.unplaced := by
  have tokens : Token.ofSource (.pieces program.print) =
      Token.numbered 1 (printEntries program.functions.entries) ++
        Token.numbered (1 + (printEntries program.functions.entries).length)
          (printBlock program.statements) := by
    rw [Token.ofSource, lines_pieces said.unbroken, ← Token.numbered_append]
    rfl
  have main := printed_block file program.statements
    (1 + (printEntries program.functions.entries).length) said.statements
  rcases main.alone with ⟨statements, sameMain, reads⟩
  obtain ⟨entries, tabulates⟩ := tabulates_entries file program.functions.entries 1 said.keys
    said.distinct said.functions
  refine ⟨⟨file, ⟨entries⟩, statements⟩, ?_, rfl, ?_⟩
  · rw [Program.parse_eq_ok_iff, tokens]
    refine ⟨rfl, ?_, tabulates.passed _ _ reads⟩
    apply tabulates.collected
    · intro name _ inside
      cases inside
    -- The main lines hold no function, so the first pass keeps the table it has.
    · exact collects_of_plain _ main.plain
  · simp only [Program.unplaced, tabulates.same, sameMain]

/-- Names hold commas, blanks and closing brackets, a parameter holds an opening one,
one loop has no count, and one line only starts like an order. -/
def patrol : Program where
  file := ""
  functions := ⟨[
    ("walk, then) turn", ⟨"walk, then) turn", ["n", "(k"],
      [.loop (.identifier "n") [.act .forward "FORWARD" none] none,
        .loop (.identifier "") [.loop (.literal (-2)) [.act .noop "LIGHT up" none] none] none], none⟩),
    ("", ⟨"", [], [], none⟩)]⟩
  statements := [
    .loop (.literal 4)
      [.call "walk, then) turn" [.literal 3, .identifier "x y"] none, .act .light "LIGHT" none] none]

example : patrol.print =
    ["FUNCTION walk, then) turn(n, (k)", "REPEAT n", "FORWARD", "ENDREPEAT", "REPEAT ", "REPEAT -2",
      "LIGHT up", "ENDREPEAT", "ENDREPEAT", "ENDFUNCTION", "FUNCTION ()", "ENDFUNCTION", "REPEAT 4",
      "CALL walk, then) turn(3, x y)", "LIGHT", "ENDREPEAT"] := by decide

theorem parse_print_of_patrol : patrol.Printable ∧
    ∃ parsed, Program.parse (.pieces patrol.print) "patrol" = .ok parsed ∧
      parsed.file = "patrol" ∧ parsed.unplaced = patrol.unplaced := by
  have printable : patrol.Printable := by decide
  exact ⟨printable, parse_print patrol "patrol" printable⟩

end Lamplighter
