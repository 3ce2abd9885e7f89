import Lamplighter.Proofs.Report.Writable
import Lamplighter.Proofs.Run.Literals
import Lamplighter.Proofs.Run.March
import Lamplighter.Proofs.Run.Whereabouts
import Lamplighter.Proofs.Text.LineEnds

/-! Reports whose numbers can be written.

The values that calls bind are never too long to be written. What is left are the numbers that
count lines, columns, cells and steps. A run may take so many steps that their number has no text,
and then there is no report on it. Main statement: `values_written_in_source`. -/

namespace Lamplighter

namespace Traceback

/-- Whatever the report counts has a text: lines and columns, the columns and rows of the floor,
and steps. -/
structure Countable (traceback : Traceback) : Prop where
  places : ∀ frame ∈ traceback.frames, ∀ location, frame.location = some location →
    Text.Convertible location.line ∧ Text.Convertible location.column
  robot : Text.Convertible traceback.world.robot.x ∧ Text.Convertible traceback.world.robot.y
  steps : Text.Convertible traceback.steps
  step : ∀ step, traceback.fault.step = some step → Text.Convertible step

variable {traceback : Traceback}

theorem Countable.text?_eq_some (countable : traceback.Countable)
    (bound : ∀ frame ∈ traceback.frames, Bound frame) (verbose : Bool) :
    traceback.text? verbose = some (traceback.text verbose) := by
  refine text?_eq_some_iff.mpr ⟨⟨?_, countable.robot, countable.steps⟩, rfl⟩
  intro frame member
  exact ⟨bound frame member, fun location place => (countable.places frame member location place).1⟩

theorem Countable.json?_eq_some (countable : traceback.Countable)
    (bound : ∀ frame ∈ traceback.frames, Bound frame) : traceback.json? = some traceback.json := by
  refine json?_eq_some_iff.mpr ⟨fun number shown => ?_, rfl⟩
  rcases mem_numbers_toJson.mp shown with ⟨step, same, rfl⟩ | (rfl | rfl) | ⟨frame, member, within⟩
  · exact countable.step step same
  · exact countable.robot.1
  · exact countable.robot.2
  · rcases mem_numbers_frameJson.mp within with ⟨entry, binding, rfl⟩ | ⟨place, stands, rfl | rfl⟩
    · exact bound frame member entry binding
    · exact (countable.places frame member place stands).1
    · exact (countable.places frame member place stands).2

theorem text?_eq_none (long : ¬ Text.Convertible traceback.steps) (verbose : Bool) :
    traceback.text? verbose = none := by
  cases made : traceback.text? verbose with
  | none => rfl
  | some text => exact absurd (text?_eq_some_iff.mp made).1.steps long

theorem json?_eq_none {step : Nat} (last : traceback.fault.step = some step)
    (long : ¬ Text.Convertible step) : traceback.json? = none := by
  cases made : traceback.json? with
  | none => rfl
  | some text =>
      have shown : (step : Int) ∈ traceback.toJson.numbers :=
        mem_numbers_toJson.mpr (.inl ⟨step, last, rfl⟩)
      exact absurd ((json?_eq_some_iff.mp made).1 step shown) long

end Traceback

/-- Each value that is bound at any moment of a run of a parsed program was written in the source,
as a literal among the arguments of a call of the program, and has at most 4300 digits. So in the
report on a fault of the run the bindings of every call have a text. No other values of the
program come up in a report: if only what it counts has a text, it can be made as text and as
JSON, whatever has become of the robot by then. -/
theorem values_written_in_source (source : Text.Source) (file : String) (program : Program)
    (parsed : Program.parse source file = .ok program) (limit : Nat) (verbose : Bool)
    (world : World) :
    (∀ moment, program.Visits verbose world moment → ∀ frame ∈ moment.machine.stack,
      ∀ entry ∈ frame.scope.bindings.entries,
        program.Passes source entry.2 ∧ Text.Convertible entry.2) ∧
    ∀ fault, (program.run limit verbose world).status = .failed fault →
      ∃ frames, fault.stack = some frames ∧
        (∀ frame ∈ frames,
          (∀ entry ∈ frame.scope.bindings.entries,
            program.Passes source entry.2 ∧ Text.Convertible entry.2) ∧
          Traceback.signature? frame = some (Traceback.signature frame)) ∧
        ∀ bot : Bot, (bot.traceback fault).Countable →
          (∀ loud, (bot.traceback fault).text? loud = some ((bot.traceback fault).text loud)) ∧
          (bot.traceback fault).json? = some (bot.traceback fault).json := by
  have written {moment : Moment} (visited : program.Visits verbose world moment) :
      ∀ frame ∈ moment.machine.stack, ∀ entry ∈ frame.scope.bindings.entries,
        program.Passes source entry.2 ∧ Text.Convertible entry.2 := by
    intro frame active entry binding
    have passes := visited.passed parsed frame active _ (.head _) entry binding
    exact ⟨passes, passes.short⟩
  refine ⟨fun moment visited => written visited, ?_⟩
  intro fault failed
  rcases program.run_visits limit verbose world with ⟨last, visited, ends, _⟩
  rw [failed] at ends
  have bound : ∀ frame ∈ last.machine.stack.reverse, Traceback.Bound frame :=
    fun frame active entry binding =>
      (written visited frame (List.mem_reverse.mp active) entry binding).2
  refine ⟨last.machine.stack.reverse, ends.stack_eq, ?_, ?_⟩
  · intro frame active
    exact ⟨written visited frame (List.mem_reverse.mp active),
      Traceback.signature?_eq_some_iff.mpr ⟨bound frame active, rfl⟩⟩
  · intro bot countable
    have frames : (bot.traceback fault).frames = last.machine.stack.reverse := by
      rw [Bot.traceback, ends.stack_eq]
      rfl
    rw [← frames] at bound
    exact ⟨countable.text?_eq_some bound, countable.json?_eq_some bound⟩

theorem values_written_in_source_of_ragged :
    Program.parse ragged "ragged" = .ok raggedProgram ∧
    ∃ fault, (raggedProgram.run 9 true tile).status = .failed fault ∧
      raggedProgram.Passes ragged 1 ∧
      let report := ((Bot.ofWorld tile true 9).execTree raggedProgram).1.traceback fault
      report.Countable ∧ report.json? = some report.json ∧
      report.text? false = some ("LightBot traceback (innermost call last):\n" ++
          "  \"ragged\", line 8, in <top-level>\n" ++ "    CALL F(1)\n" ++
          "  \"ragged\", line 4, in F(n=1)\n" ++ "    REPEAT  m\n" ++
          "Robot at (0, 0) facing EAST after 3 steps\n" ++
          "UnresolvedReference: Unresolved reference 'm'") := by
  rcases (values_written_in_source ragged "ragged" raggedProgram parse_ragged 9 true tile).2 _ rfl
    with ⟨frames, saved, bound, reports⟩
  cases saved
  refine ⟨parse_ragged, _, rfl, ((bound _ (.tail _ (.head _))).1 _ (.head _)).1, ?_⟩
  intro report
  have countable : report.Countable := by
    refine ⟨?_, by decide, by decide, ?_⟩
    · intro frame active location place
      rcases List.mem_cons.mp active with rfl | active
      · cases place
        decide
      · rw [List.mem_singleton.mp active] at place
        cases place
        decide
    · intro step same
      cases same
      decide
  rcases reports _ countable with ⟨text, json⟩
  exact ⟨countable, json, text false⟩

/-- A march, and behind it a loop whose count is not bound. -/
def stumble (count : Int) (loop step last : Option Location) : List Instr :=
  march count loop step ++ [.loop (.identifier "x") [] last]

/-- Its lines, joined. -/
def stumbling (count : Int) : String :=
  "\n".intercalate
    ["REPEAT " ++ toString count, "FORWARD", "ENDREPEAT", "REPEAT x", "ENDREPEAT"]

theorem eq_stumble_of_unplaced {instrs : List Instr} {count : Int}
    (same : unplacedBlock instrs = stumble count none none none) :
    ∃ loop step last, instrs = stumble count loop step last := by
  match instrs, same with
  | [.loop (.literal _) [.act .forward _ step] loop, .loop (.identifier _) [] last], rfl =>
      exact ⟨loop, step, last, rfl⟩

theorem parse_stumbling {count : Int} (short : Text.Convertible count) (file : String) :
    ∃ program loop step last, Program.parse (.text (stumbling count)) file = .ok program ∧
      program.statements = stumble count loop step last := by
  have word : Opcode.Says .forward "FORWARD" := by decide
  have name : Expr.PrintableCount (.identifier "x") := by decide
  have printable : PrintableBlock (stumble count none none none) :=
    ⟨⟨short, word, trivial⟩, ⟨name, trivial⟩, trivial⟩
  obtain ⟨placed, same, parsed⟩ := parse_printBlock file printable
  obtain ⟨loop, step, last, rfl⟩ := eq_stumble_of_unplaced same
  have tokens : Token.ofSource (.text (stumbling count)) =
      Token.ofSource (.pieces (printBlock (stumble count none none none))) :=
    Token.ofSource_intercalate (unbroken_printBlock _ printable)
  rw [Program.parse, ← tokens] at parsed
  exact ⟨_, loop, step, last, parsed, rfl⟩

/-- The run fails at the step behind the march. -/
theorem Program.run_stumble {program : Program} {count : Int} {loop step last : Option Location}
    (main : program.statements = stumble count loop step last) (limit : Nat) (verbose : Bool)
    (world : World) :
    ∃ fault, (program.run limit verbose world).status = .failed fault ∧
      fault.step = some (1 + count.toNat) ∧
      (program.run limit verbose world).machine.log.count = 1 + count.toNat + 1 := by
  obtain ⟨finished, -, steps⟩ := execBlock_march program.functions
    (enter program.functions limit) .root count loop step ⟨world, [.top], .start verbose⟩
  rw [Program.run, main, stumble]
  simp only [execBlock_append]
  generalize execBlock program.functions (enter program.functions limit) .root
    (march count loop step) ⟨world, [.top], .start verbose⟩ = left at finished steps ⊢
  rcases left with ⟨machine, status⟩
  cases finished
  have counted : machine.log.count = 1 + count.toNat := steps.trans (by simp [Log.start])
  exact ⟨_, rfl, congrArg some counted, congrArg Nat.succ counted⟩

/-- Nothing that a stumble binds is in the way of a report, as it binds nothing. But once its steps
are too many to be written there is no report on it. -/
theorem Program.report_stumble {program : Program} {count : Int} {loop step last : Option Location}
    (main : program.statements = stumble count loop step last)
    (many : Text.beyond Text.maxDigits ≤ 1 + count.toNat) (bot : Bot) :
    ∃ fault, (bot.execTree program).2 = .failed fault ∧
      let report := (bot.execTree program).1.traceback fault
      (∀ loud, report.text? loud = none) ∧ report.json? = none := by
  obtain ⟨fault, failed, reached, steps⟩ := program.run_stumble main bot.limit bot.verbose bot.world
  have long {number : Nat} (beyond : 1 + count.toNat ≤ number) : ¬ Text.Convertible number := by
    rw [Text.convertible_iff, Int.natAbs_natCast]
    omega
  refine ⟨fault, failed, Traceback.text?_eq_none ?_, Traceback.json?_eq_none reached (long le_rfl)⟩
  have counted : ((bot.execTree program).1.traceback fault).steps = 1 + count.toNat + 1 := steps
  rw [counted]
  exact long (Nat.le_succ _)

theorem Bot.run_stumbling {count : Int} (short : Text.Convertible count)
    (many : Text.beyond Text.maxDigits ≤ 1 + count.toNat) (file : String) (bot : Bot) :
    ∃ after fault, bot.run (.text (stumbling count)) file = (after, .ok (.failed fault)) ∧
      ∀ loud, (after.traceback fault).text? loud = none := by
  obtain ⟨program, _, _, _, parsed, main⟩ := parse_stumbling short file
  obtain ⟨fault, failed, text, -⟩ := program.report_stumble main many bot.reset
  refine ⟨(bot.reset.execTree program).1, fault, ?_, text⟩
  rw [run, exec, parsed, ← failed]

/-- The highest count that can be written. -/
def nines : Nat := Text.beyond Text.maxDigits - 1

theorem convertible_nines : Text.Convertible nines := by
  have positive : 0 < Text.beyond Text.maxDigits :=
    Text.convertible_iff.mp (by decide : Text.Convertible 0)
  exact Text.convertible_iff.mpr (Nat.sub_lt positive (by decide))

theorem beyond_le_nines : Text.beyond Text.maxDigits ≤ 1 + (nines : Int).toNat := by
  rw [Int.toNat_natCast, nines]
  omega

/-- A run that fails at a step whose number has no text, and on which no report can be made. -/
theorem steps_without_text : ∃ program fault,
    Program.parse (.text (stumbling nines)) "stumbling" = .ok program ∧
    (program.run 9 false tile).status = .failed fault ∧
    let report := ((Bot.ofWorld tile false 9).execTree program).1.traceback fault
    (∀ loud, report.text? loud = none) ∧ report.json? = none := by
  obtain ⟨program, _, _, _, parsed, main⟩ := parse_stumbling convertible_nines "stumbling"
  obtain ⟨fault, failed, text, json⟩ :=
    program.report_stumble main beyond_le_nines (Bot.ofWorld tile false 9)
  exact ⟨program, fault, parsed, failed, text, json⟩

end Lamplighter
