import Lamplighter.Proofs.Program.PrintedBlock
import Lamplighter.Proofs.Run.Labels
import Lamplighter.Proofs.Run.Whereabouts

/-! Sources that differ in their layout alone.

Blank lines, indentation, the white space behind a line and the way a source is cut into
lines change the numbers in locations and nothing else. Main statement:
`layout_changes_numbers_alone`. -/

namespace Lamplighter

/-- What a source says: its lines that are not blank, without the white space around them. -/
def Text.Source.statements (source : Source) : List (List Char) :=
  (source.lines.map fun line => trim line.toList).filter fun statement => !statement.isEmpty

/-- The location without its numbers. -/
def Location.unnumbered (location : Location) : Location :=
  { location with line := 0, column := 0 }

namespace Token

def unnumbered (token : Token) : Token := { token with line := 0, column := 0 }

theorem relabels_unnumbered (file : String) :
    Relabels Location.unnumbered file file unnumbered where
  kind := fun _ => rfl
  value := fun _ => rfl
  statement := fun _ => rfl
  location := fun _ => rfl

theorem map_unnumbered_ofLine? (line : Nat) (raw : List Char) :
    (ofLine? line raw).map unnumbered =
      if (Text.trim raw).isEmpty then none else some (ofStatement 0 0 (Text.trim raw)) := by
  rw [ofLine?]
  cases Text.trim raw <;> rfl

/-- From wherever the lines are numbered, none of the numbers is left. -/
theorem map_unnumbered_numbered (lines : List String) (start : Nat) :
    (numbered start lines).map unnumbered =
      ((lines.map fun line => Text.trim line.toList).filter fun statement =>
        !statement.isEmpty).map (ofStatement 0 0) := by
  induction lines generalizing start with
  | nil => rfl
  | cons line lines ih =>
      have read := map_unnumbered_ofLine? start line.toList
      rw [numbered, List.zipIdx_cons, List.filterMap_cons, List.map_cons, List.filter_cons]
      cases blank : (Text.trim line.toList).isEmpty with
      | true =>
          rw [blank, if_pos rfl, Option.map_eq_none_iff] at read
          simp only [read, Bool.not_true, Bool.false_eq_true, if_false]
          exact ih (start + 1)
      | false =>
          rw [blank, if_neg Bool.false_ne_true, Option.map_eq_some_iff] at read
          rcases read with ⟨token, given, same⟩
          simp only [given, Bool.not_false, if_true, List.map_cons, same]
          exact congrArg _ (ih (start + 1))

theorem map_unnumbered_ofSource (source : Text.Source) :
    (ofSource source).map unnumbered = source.statements.map (ofStatement 0 0) :=
  map_unnumbered_numbered source.lines 1

end Token

section Alike

variable {ε α β : Type} {view : α → β} {one two : Except ε α}

theorem error_iff_of_map_eq (same : one.map view = two.map view) (error : ε) :
    one = .error error ↔ two = .error error := by
  cases one <;> cases two <;> simp_all [Except.map]

theorem ok_of_map_eq (same : one.map view = two.map view) {first : α} (read : one = .ok first) :
    ∃ second, two = .ok second ∧ view first = view second := by
  subst read
  cases two with
  | error => cases same
  | ok second => exact ⟨second, rfl, Except.ok.inj same⟩

end Alike

/-- Reading what a source says, without the numbers of lines and columns. -/
theorem Program.parse_unnumbered (source : Text.Source) (file : String) :
    (Program.parse source file).map (Program.relabelled Location.unnumbered) =
      Program.ofTokens file (source.statements.map (Token.ofStatement 0 0)) := by
  rw [← Token.map_unnumbered_ofSource,
    Program.ofTokens_relabelled (Token.relabels_unnumbered file), Program.parse]

theorem Program.run_unnumbered {first second : Program}
    (same : first.relabelled Location.unnumbered = second.relabelled Location.unnumbered)
    (limit : Nat) (verbose : Bool) (world : World) :
    (first.run limit verbose world).relabelled Location.unnumbered =
      (second.run limit verbose world).relabelled Location.unnumbered := by
  rw [← first.run_relabelled, ← second.run_relabelled, same]

/-- Two sources that say the same, whole or in pieces and in whatever layout, are both refused
with the same error, or read as programs that differ in the numbers of lines and columns alone.
The runs on one world then log the same rules at the same poses, leave the same world, and end
alike: a fault has the same cause and step, and the same calls with the same names and bindings.
Here too only the numbers differ. -/
theorem layout_changes_numbers_alone (one two : Text.Source)
    (same : one.statements = two.statements) (file : String) :
    (∀ error, Program.parse one file = .error error ↔ Program.parse two file = .error error) ∧
    ∀ first, Program.parse one file = .ok first →
      ∃ second, Program.parse two file = .ok second ∧
        first.relabelled Location.unnumbered = second.relabelled Location.unnumbered ∧
        ∀ limit verbose world,
          (first.run limit verbose world).machine.world =
            (second.run limit verbose world).machine.world ∧
          (first.run limit verbose world).machine.log.relabelled Location.unnumbered =
            (second.run limit verbose world).machine.log.relabelled Location.unnumbered ∧
          (first.run limit verbose world).status.relabelled Location.unnumbered =
            (second.run limit verbose world).status.relabelled Location.unnumbered := by
  have read : (Program.parse one file).map (Program.relabelled Location.unnumbered) =
      (Program.parse two file).map (Program.relabelled Location.unnumbered) := by
    rw [Program.parse_unnumbered, Program.parse_unnumbered, same]
  refine ⟨error_iff_of_map_eq read, ?_⟩
  intro first parsed
  rcases ok_of_map_eq read parsed with ⟨second, parsedToo, alike⟩
  refine ⟨second, parsedToo, alike, ?_⟩
  intro limit verbose world
  have runs := Program.run_unnumbered alike limit verbose world
  exact ⟨congrArg (fun outcome => outcome.machine.world) runs,
    congrArg (fun outcome => outcome.machine.log) runs, congrArg Outcome.status runs⟩

/-- The lines of `ragged` as a list, one of its items two lines, and indented in another way. -/
def raggedPieces : Text.Source :=
  .pieces ["  FUNCTION F(n)", "FORWARD", "", "REPEAT  m\n    WAIT  ", "ENDFUNCTION", "CALL F(1)"]

theorem layout_changes_numbers_alone_of_ragged :
    ragged.statements = raggedPieces.statements ∧
    Program.parse ragged "ragged" = .ok raggedProgram ∧
    ∃ second, Program.parse raggedPieces "ragged" = .ok second ∧
      raggedProgram.relabelled Location.unnumbered = second.relabelled Location.unnumbered ∧
      (second.run 9 true tile).status.relabelled Location.unnumbered =
        .failed ⟨.unresolved "m", some ⟨"ragged", 0, 0, "REPEAT  m"⟩, some 2,
          some [⟨"<top-level>", .root, none,
              some ⟨0, .call, some ⟨"ragged", 0, 0, "CALL F(1)"⟩, ⟨0, 0, .east⟩⟩⟩,
            ⟨"F", ⟨⟨[("n", 1)]⟩, [.empty]⟩, some ⟨"ragged", 0, 0, "CALL F(1)"⟩,
              some ⟨2, .loop, some ⟨"ragged", 0, 0, "REPEAT  m"⟩, ⟨0, 0, .east⟩⟩⟩]⟩ := by
  have same : ragged.statements = raggedPieces.statements := by decide
  rcases (layout_changes_numbers_alone ragged raggedPieces same "ragged").2 raggedProgram
    parse_ragged with ⟨second, parsed, alike, runs⟩
  rcases runs 9 true tile with ⟨_, _, status⟩
  exact ⟨same, parse_ragged, second, parsed, alike, status.symm⟩

end Lamplighter
