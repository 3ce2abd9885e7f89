import Lamplighter.Proofs.Program.Source

/-! Where a run says that it is.

Every location that comes up in the course of a run, in the log, in a frame or in a fault, is
that of a line of the source, and what is logged there is what the line says. Main statement:
`locations_true_to_source`. -/

namespace Lamplighter

section TrueTo

variable (source : Text.Source) (file : String)

/-- The step was taken in a line of the source, and is logged as what the line says. -/
def Step.TrueTo (step : Step) : Prop :=
  ∃ location, step.location = some location ∧ location.TrueTo source file ∧
    step.rule.Suits location.statement

/-- The main program alone was called from nowhere, and a frame may have come to no step yet. -/
structure Frame.TrueTo (frame : Frame) : Prop where
  callSite : ∀ location, frame.callSite = some location → location.TrueTo source file
  last : ∀ step, frame.last = some step → step.TrueTo source file

structure Log.TrueTo (log : Log) : Prop where
  steps : ∀ step ∈ log.steps, step.TrueTo source file
  last : ∀ step, log.last = some step → step.TrueTo source file

structure Machine.TrueTo (machine : Machine) : Prop where
  stack : ∀ frame ∈ machine.stack, frame.TrueTo source file
  log : machine.log.TrueTo source file

/-- The fault came up in a line of the source, as did all calls that were active. -/
structure Fault.TrueTo (fault : Fault) : Prop where
  location : ∃ location, fault.location = some location ∧ location.TrueTo source file
  stack : ∃ frames, fault.stack = some frames ∧ ∀ frame ∈ frames, frame.TrueTo source file

end TrueTo

variable {source : Text.Source} {file : String} {program : Program}

theorem Program.Has.trueTo (parsed : Program.parse source file = .ok program) {instr : Instr}
    (has : program.Has instr) :
    ∃ location, instr.location = some location ∧ location.TrueTo source file ∧
      ∀ rule, instr.rule? = some rule → rule.Suits location.statement := by
  rcases has.readFrom parsed with ⟨token, member, read⟩
  refine ⟨token.location file, read.location_eq, Token.trueTo_location file member, ?_⟩
  intro rule logged
  exact read.suits member logged

/-- A frame that has come to no step is located where it was called. -/
theorem Frame.TrueTo.fresh {frame : Frame} (untouched : frame.last = none)
    (callSite : ∀ location, frame.callSite = some location → location.TrueTo source file) :
    frame.TrueTo source file where
  callSite := callSite
  last := by
    intro step same
    rw [untouched] at same
    cases same

theorem Log.TrueTo.start (verbose : Bool) : (Log.start verbose).TrueTo source file where
  steps := by simp [Log.start]
  last := by
    intro step same
    cases same

theorem Log.TrueTo.add {log : Log} (held : log.TrueTo source file) {step : Step}
    (also : step.TrueTo source file) : (log.add step).TrueTo source file where
  steps := by
    intro other member
    simp only [Log.add] at member
    split at member
    · rcases Array.mem_push.mp member with earlier | rfl
      · exact held.steps other earlier
      · exact also
    · exact held.steps other member
  last := by
    rintro other ⟨⟩
    exact also

namespace Machine.TrueTo

variable {machine : Machine}

theorem record (held : machine.TrueTo source file) {rule : Rule} {location : Option Location}
    (also : ∀ index pose, Step.TrueTo source file ⟨index, rule, location, pose⟩) :
    (machine.record rule location).TrueTo source file where
  stack := by
    have stack := held.stack
    rcases machine with ⟨world, frames, log⟩
    cases frames with
    | nil => exact stack
    | cons frame frames =>
        have inner := stack frame (.head _)
        intro other member
        rcases List.mem_cons.mp member with rfl | outer
        · refine ⟨inner.callSite, ?_⟩
          rintro step ⟨⟩
          exact also _ _
        · exact stack other (.tail _ outer)
  log := held.log.add (also _ _)

theorem push (held : machine.TrueTo source file) {frame : Frame}
    (also : frame.TrueTo source file) : (machine.push frame).TrueTo source file :=
  ⟨List.forall_mem_cons.mpr ⟨also, held.stack⟩, held.log⟩

theorem pop (held : machine.TrueTo source file) : machine.pop.TrueTo source file :=
  ⟨fun frame member => held.stack frame (List.mem_of_mem_tail member), held.log⟩

end Machine.TrueTo

theorem Program.Visits.trueTo (parsed : Program.parse source file = .ok program) {verbose : Bool}
    {world : World} {moment : Moment} (visited : program.Visits verbose world moment) :
    moment.machine.TrueTo source file := by
  refine visited.invariant (fun moment => moment.machine.TrueTo source file) ?_ ?_
  · have top : Frame.top.TrueTo source file := by
      refine .fresh rfl ?_
      intro location same
      cases same
    exact ⟨List.forall_mem_singleton.mpr top, .start verbose⟩
  · intro before after path move held
    cases move with
    | act | loop | again | through | skip => exact ⟨held.stack, held.log⟩
    | log logged =>
        have has : program.Has _ := path.of_program (.instr _) (.head _)
        rcases has.trueTo parsed with ⟨location, located, place, suits⟩
        exact held.record fun _ _ => ⟨location, located, place, suits _ logged⟩
    | enter =>
        have has : program.Has _ := path.of_program (.effect _) (.head _)
        rcases has.trueTo parsed with ⟨location, located, place, _⟩
        refine held.push (.fresh rfl ?_)
        intro callSite same
        cases located.symm.trans same
        exact place
    | leave => exact held.pop

theorem Moment.Ends.trueTo (parsed : Program.parse source file = .ok program) {verbose : Bool}
    {world : World} {moment : Moment} (visited : program.Visits verbose world moment) {limit : Nat}
    {fault : Fault} (ends : Moment.Ends program.functions limit moment (.failed fault)) :
    fault.TrueTo source file := by
  have saved {machine : Machine} (held : machine.TrueTo source file) (cause : Cause)
      (instr : Instr) (has : program.Has instr) :
      (machine.fault cause instr.location).TrueTo source file := by
    rcases has.trueTo parsed with ⟨location, located, place, _⟩
    refine ⟨⟨location, located, place⟩, machine.stack.reverse, rfl, ?_⟩
    intro frame member
    exact held.stack frame (List.mem_reverse.mp member)
  have held := visited.trueTo parsed
  have within := visited.of_program
  cases ends with
  | unknown => exact saved held _ (.unknown _) (within (.instr _) (.head _))
  | loop => exact saved held _ (.loop ..) (within (.effect _) (.head _))
  | call => exact saved held _ (.call ..) (within (.effect _) (.head _))

/-- Whatever location comes up in a run of a parsed program, in the log, in an active call or
in the fault that ends the run and the calls that it holds: it names the file and a line of the
source that is not blank, with its trimmed text and the width of its indentation. A step is
logged under the keyword of its line or as the order that the line is, and else as none. -/
theorem locations_true_to_source (source : Text.Source) (file : String) (program : Program)
    (parsed : Program.parse source file = .ok program) (limit : Nat) (verbose : Bool)
    (world : World) :
    (∀ moment, program.Visits verbose world moment → moment.machine.TrueTo source file) ∧
    (program.run limit verbose world).machine.log.TrueTo source file ∧
    ∀ fault, (program.run limit verbose world).status = .failed fault →
      fault.TrueTo source file := by
  obtain ⟨last, visited, ends, _, logs, _⟩ := program.run_visits limit verbose world
  refine ⟨fun moment reached => reached.trueTo parsed, ?_, ?_⟩
  · rw [← logs]
    exact (visited.trueTo parsed).log
  · intro fault failed
    rw [failed] at ends
    exact ends.trueTo parsed visited

/-- Three kinds of line ends, two blank lines, and a wide blank in front of the call. -/
def ragged : Text.Source :=
  .text "FUNCTION F(n)\n\tFORWARD\r\n \r  REPEAT  m\nWAIT\nENDFUNCTION\n\n\u3000 CALL F(1)"

def raggedProgram : Program :=
  let line (number column : Nat) (statement : String) : Option Location :=
    some ⟨"ragged", number, column, statement⟩
  ⟨"ragged",
    ⟨[("F", ⟨"F", ["n"],
      [.act .forward "FORWARD" (line 2 2 "FORWARD"),
        .loop (.identifier "m") [.act .noop "WAIT" (line 5 1 "WAIT")] (line 4 3 "REPEAT  m")],
      line 1 1 "FUNCTION F(n)"⟩)]⟩,
    [.call "F" [.literal 1] (line 8 3 "CALL F(1)")]⟩

theorem ofSource_ragged : Token.ofSource ragged =
    [⟨.define, "F(n)", 1, 1, "FUNCTION F(n)"⟩, ⟨.line, "FORWARD", 2, 2, "FORWARD"⟩,
      ⟨.loop, "m", 4, 3, "REPEAT  m"⟩, ⟨.line, "WAIT", 5, 1, "WAIT"⟩,
      ⟨.endDefine, "", 6, 1, "ENDFUNCTION"⟩, ⟨.call, "F(1)", 8, 3, "CALL F(1)"⟩] := by decide

theorem parse_ragged : Program.parse ragged "ragged" = .ok raggedProgram := by
  rw [Program.parse_eq_ok_iff, ofSource_ragged]
  refine ⟨rfl, ?_, ?_⟩
  · exact .define rfl (.act (.inl rfl) (.loop rfl rfl (.act (.inl rfl) .nil) .nil))
      (.other (by decide) .nil)
  · exact .define rfl (.call rfl rfl .nil)

theorem locations_true_to_source_of_ragged :
    Program.parse ragged "ragged" = .ok raggedProgram ∧
    (∀ moment, raggedProgram.Visits true tile moment →
      moment.machine.TrueTo ragged "ragged") ∧
    (raggedProgram.run 9 true tile).machine.log.steps.toList.map (fun step =>
        (step.rule.name, step.location)) =
      [("CALL", some ⟨"ragged", 8, 3, "CALL F(1)"⟩), ("FORWARD", some ⟨"ragged", 2, 2, "FORWARD"⟩),
        ("REPEAT", some ⟨"ragged", 4, 3, "REPEAT  m"⟩)] ∧
    (raggedProgram.run 9 true tile).machine.log.TrueTo ragged "ragged" ∧
    ∃ fault, (raggedProgram.run 9 true tile).status = .failed fault ∧
      fault.location = some ⟨"ragged", 4, 3, "REPEAT  m"⟩ ∧ fault.TrueTo ragged "ragged" := by
  obtain ⟨moments, log, faults⟩ :=
    locations_true_to_source ragged "ragged" raggedProgram parse_ragged 9 true tile
  exact ⟨parse_ragged, moments, by decide, log, _, rfl, rfl, faults _ rfl⟩

end Lamplighter
