import Mathlib.Data.List.Chain
import Lamplighter.Proofs.Run.Replay
import Lamplighter.Proofs.Table

/-! The call stack of a run of a parsed program.

At every moment each frame was called from the line on which the frame around it
stands, and was bound then for good. Main statement: `stack_is_call_chain`. -/

namespace Lamplighter

/-- The caller's latest step is that of a call on this line, and the callee is what
the line asks for: named there, inside the caller's scope, and bound to what the
arguments are worth in it. -/
structure CalledAt (program : Program) (token : Token) (args : List Expr) (function : FunDef)
    (values : List Int) (caller callee : Frame) : Prop where
  line : token.kind = .call
  latest : ∃ step, caller.last = some step ∧ step.rule = .call ∧
    step.location = some (token.location program.file)
  callSite : callee.callSite = some (token.location program.file)
  named : callee.name = (Parser.signature token.value).1
  arguments : Parser.expressions (Parser.signature token.value).2 = .ok args
  defined : program.functions.get? callee.name = some function
  evaluated : caller.scope.evalAll args = .ok values
  parent : callee.scope.outer = caller.scope.bindings :: caller.scope.outer
  bindings : callee.scope.bindings = .ofList (function.params.zip values)
  bound : ∀ name, callee.scope.bindings.get? name = Table.lastValue (function.params.zip values) name

def Calls (program : Program) (tokens : List Token) (caller callee : Frame) : Prop :=
  ∃ token ∈ tokens, ∃ args function values, CalledAt program token args function values caller callee

/-- A stack, outermost frame first: the main program, then one call inside the other. -/
structure CallChain (program : Program) (tokens : List Token) (frames : List Frame) : Prop where
  top : ∃ last, frames.head? = some { Frame.top with last := last }
  calls : frames.IsChain (Calls program tokens)

/-- Only what a caller sees and where it stands matters, and nothing that the callee
has done since. -/
theorem Calls.relast {program : Program} {tokens : List Token} {caller callee : Frame}
    (calls : Calls program tokens caller callee) (last : Option Step) :
    Calls program tokens caller { callee with last := last } := by
  obtain ⟨token, member, args, function, values, called⟩ := calls
  exact ⟨token, member, args, function, values, called.line, called.latest, called.callSite,
    called.named, called.arguments, called.defined, called.evaluated, called.parent,
    called.bindings, called.bound⟩

namespace CallChain

variable {program : Program} {tokens : List Token}

theorem start : CallChain program tokens [.top] := ⟨⟨none, rfl⟩, .singleton _⟩

/-- Innermost first, as a machine keeps its stack. -/
theorem reverse_iff {stack : List Frame} :
    CallChain program tokens stack.reverse ↔
      (∃ last, stack.getLast? = some { Frame.top with last := last }) ∧
      stack.IsChain fun callee caller => Calls program tokens caller callee := by
  constructor
  · rintro ⟨top, calls⟩
    rw [List.head?_reverse] at top
    exact ⟨top, List.isChain_reverse.mp calls⟩
  · rintro ⟨top, calls⟩
    exact ⟨by rwa [List.head?_reverse], List.isChain_reverse.mpr calls⟩

theorem relast {frame : Frame} {frames : List Frame}
    (chain : CallChain program tokens (frame :: frames).reverse) (last : Option Step) :
    CallChain program tokens ({ frame with last := last } :: frames).reverse := by
  rw [reverse_iff] at chain ⊢
  obtain ⟨⟨old, top⟩, calls⟩ := chain
  cases frames with
  | nil =>
      cases top
      exact ⟨⟨last, rfl⟩, .singleton _⟩
  | cons caller frames =>
      rw [List.isChain_cons_cons] at calls ⊢
      exact ⟨⟨old, top⟩, calls.1.relast last, calls.2⟩

theorem push {caller callee : Frame} {frames : List Frame}
    (chain : CallChain program tokens (caller :: frames).reverse)
    (calls : Calls program tokens caller callee) :
    CallChain program tokens (callee :: caller :: frames).reverse := by
  rw [reverse_iff] at chain ⊢
  exact ⟨chain.1, .cons_cons calls chain.2⟩

theorem pop {frame : Frame} {frames : List Frame} (inside : frames ≠ [])
    (chain : CallChain program tokens (frame :: frames).reverse) :
    CallChain program tokens frames.reverse := by
  rw [reverse_iff] at chain ⊢
  cases frames with
  | nil => contradiction
  | cons caller frames => exact ⟨chain.1, (List.isChain_cons_cons.mp chain.2).2⟩

end CallChain

theorem Machine.record_stack (machine : Machine) (rule : Rule) (location : Option Location) :
    (machine.record rule location).stack = [] ∧ machine.stack = [] ∨
    ∃ frame frames last, machine.stack = frame :: frames ∧
      (machine.record rule location).stack = { frame with last := last } :: frames := by
  rcases machine with ⟨world, stack, log⟩
  cases stack with
  | nil => exact .inl ⟨rfl, rfl⟩
  | cons frame frames => exact .inr ⟨frame, frames, _, rfl, rfl⟩

/-- The step of this number was logged by the frame that was innermost then. -/
def Program.LogsAt (program : Program) (verbose : Bool) (world : World) (log : Log) (index : Nat) :
    Prop :=
  ∃ earlier frame frames step, program.Visits verbose world earlier ∧
    earlier.machine.stack = frame :: frames ∧ frame.last = some step ∧
    earlier.machine.log.last = some step ∧ step.index = index ∧
    (verbose = true → log.steps[index]? = some step)

namespace Program.Visits

variable {source : Text.Source} {file : String} {program : Program} {verbose : Bool} {world : World}
  {moment : Moment}

/-- A call whose arguments have values, entered from the frame that logged it. -/
theorem calls (parsed : Program.parse source file = .ok program)
    (visited : program.Visits verbose world moment) {name : String} {args : List Expr}
    {location : Option Location} {agenda : List Task}
    (up : moment.agenda = .effect (.call name args location) :: agenda) {function : FunDef}
    {values : List Int} (defined : program.functions.get? name = some function)
    (evaluated : moment.machine.scope.evalAll args = .ok values) :
    ∃ frame frames, moment.machine.stack = frame :: frames ∧
      Calls program (Token.ofSource source) frame
        ⟨function.name, moment.machine.scope.enter function.params values, location, none⟩ := by
  obtain ⟨frame, frames, step, stack, last, _, _, rule, located⟩ := visited.logged up
  have has : program.Has (.call name args location) :=
    visited.of_program (.effect _) (by rw [up]; exact .head _)
  obtain ⟨token, member, kind, named, arguments, place⟩ := has.readFrom parsed
  have functionName := (function_of_parse parsed defined).1
  obtain ⟨sameFile, _, _⟩ := (Program.parse_eq_ok_iff source file program).mp parsed
  have scope : moment.machine.scope = frame.scope := by
    rw [Machine.scope, stack]
  refine ⟨frame, frames, stack, token, member, args, function, values, kind, ?_, ?_, ?_, arguments,
    ?_, ?_, ?_, ?_, ?_⟩
  · exact ⟨step, last, (Option.some.inj rule).symm, by rw [located, sameFile]; exact place⟩
  · rw [sameFile]
    exact place
  · rw [functionName, named]
  · rw [functionName]
    exact defined
  · rw [← scope]
    exact evaluated
  · rw [scope]
    rfl
  · rfl
  · exact Table.get?_ofList _

theorem callChain (parsed : Program.parse source file = .ok program)
    (visited : program.Visits verbose world moment) :
    CallChain program (Token.ofSource source) moment.machine.stack.reverse := by
  refine visited.invariant
    (fun moment => CallChain program (Token.ofSource source) moment.machine.stack.reverse) .start ?_
  intro before after path move chain
  cases move with
  | act | loop | again | through | skip => exact chain
  | @log instr rule _ machine =>
      rcases machine.record_stack rule instr.location with ⟨same, empty⟩ | ⟨frame, frames, last, old, new⟩
      · rwa [same, ← empty]
      · simp only [old] at chain
        rw [new]
        exact chain.relast last
  | enter defined evaluated =>
      obtain ⟨caller, frames, stack, calls⟩ := path.calls parsed rfl defined evaluated
      simp only at stack chain
      rw [stack] at chain
      rw [Machine.push, stack]
      exact chain.push calls
  | @leave agenda machine =>
      -- The task to leave stands for a frame above the main one, which therefore stays.
      have count := path.frames
      rcases machine with ⟨world, stack, log⟩
      cases stack with
      | nil => exact chain
      | cons frame frames =>
          refine chain.pop ?_
          rintro rfl
          simp [Task.isLeave] at count

/-- For each step that was logged there was a moment when it just had been, by the
innermost frame. -/
theorem logsAt (visited : program.Visits verbose world moment) :
    ∀ index < moment.machine.log.count, program.LogsAt verbose world moment.machine.log index := by
  refine visited.invariant (fun moment => ∀ index < moment.machine.log.count,
    program.LogsAt verbose world moment.machine.log index)
    (fun index none => absurd none (Nat.not_lt_zero index)) ?_
  intro before after path move earlier
  rcases move.logs_or_pending path.pending with ⟨instr, agenda, machine, rule, rfl, rfl, known⟩ | all
  · intro index inside
    have added (loud : verbose = true) : (machine.record rule instr.location).log.steps[index]? =
        if index = machine.log.count then
          some ⟨machine.log.count, rule, instr.location, machine.world.robot⟩
        else machine.log.steps[index]? := by
      subst loud
      have recorded := path.recorded
      have size : machine.log.count = machine.log.steps.size :=
        recorded.count.trans Array.length_toList
      have keeping : machine.log.verbose = true := recorded.verbose
      simp only [Machine.record, Log.add, keeping, if_true, Array.getElem?_push, ← size]
    rcases Nat.lt_succ_iff_lt_or_eq.mp inside with old | rfl
    · obtain ⟨moment, frame, frames, step, visited, stack, last, logged, numbered, kept⟩ :=
        earlier index old
      refine ⟨moment, frame, frames, step, visited, stack, last, logged, numbered, fun loud => ?_⟩
      rw [added loud, if_neg (Nat.ne_of_lt old)]
      exact kept loud
    · have visited : program.Visits verbose world _ := path.tail move
      obtain ⟨frame, frames, step, stack, last, logged, _, _, _⟩ := visited.logged rfl
      cases logged
      exact ⟨_, frame, frames, _, visited, stack, last, rfl, rfl, fun loud => by
        rw [added loud, if_pos rfl]⟩
  · rw [(move.of_pending all).1]
    exact earlier

end Program.Visits

namespace Moment

/-- A move changes the frames, apart from their last steps, only at the inner end. -/
theorem Next.settled {functions : Table FunDef} {before after : Moment}
    (move : Next functions before after) :
    after.machine.settled = before.machine.settled ∨
    (∃ frame, after.machine.settled = frame :: before.machine.settled) ∨
    after.machine.settled = before.machine.settled.tail := by
  cases move with
  | log => exact .inl (Machine.settled_record ..)
  | act | loop | again | through | skip => exact .inl rfl
  | enter => exact .inr (.inl ⟨_, Machine.settled_push ..⟩)
  | leave => exact .inr (.inr (Machine.settled_pop _))

/-- Moves during which a frame is active, given by its place from the outermost one. -/
def Keeps (functions : Table FunDef) (place : Nat) : Moment → Moment → Prop :=
  Relation.ReflTransGen fun before after =>
    Next functions before after ∧ place < after.machine.stack.length

theorem Keeps.settled {functions : Table FunDef} {place : Nat} {first last : Moment}
    (keeps : Keeps functions place first last) (active : place < first.machine.stack.length) :
    last.machine.settled.reverse[place]? = first.machine.settled.reverse[place]? := by
  suffices both : place < last.machine.stack.length ∧
      last.machine.settled.reverse[place]? = first.machine.settled.reverse[place]? from both.2
  -- That the frame is there has to go through the induction too: a push must not come below it.
  induction keeps with
  | refl => exact ⟨active, rfl⟩
  | tail _ move ih =>
      obtain ⟨move, still⟩ := move
      obtain ⟨before, same⟩ := ih
      refine ⟨still, Eq.trans ?_ same⟩
      rw [← Machine.length_settled] at before still
      rcases move.settled with equal | ⟨frame, pushed⟩ | popped
      · rw [equal]
      · rw [pushed, List.reverse_cons, List.getElem?_append_left (by simpa using before)]
      · rw [popped] at still ⊢
        cases frames : Machine.settled _ with
        | nil => rfl
        | cons frame rest =>
            rw [frames, List.tail_cons] at still
            rw [List.reverse_cons, List.tail_cons, List.getElem?_append_left (by simpa using still)]

end Moment

/-- The stack that a fault holds: a call chain whose innermost frame stands on the
line that failed, which is a loop or a call, and whose step is the last of the run. -/
structure FailsOn (program : Program) (tokens : List Token) (log : Log) (fault : Fault)
    (frames : List Frame) (token : Token) (step : Step) : Prop where
  saved : fault.stack = some frames
  chain : CallChain program tokens frames
  innermost : ∃ frame, frames.getLast? = some frame ∧ frame.last = some step
  line : token.kind = .loop ∧ step.rule = .loop ∨ token.kind = .call ∧ step.rule = .call
  stands : step.location = some (token.location program.file)
  location : fault.location = step.location
  index : fault.step = some step.index
  count : step.index + 1 = log.count

theorem FailsOn.of_logged {program : Program} {tokens : List Token} {machine : Machine}
    {instr : Instr} {token : Token} (cause : Cause)
    (chain : CallChain program tokens machine.stack.reverse) (logged : machine.Logged instr)
    (line : token.kind = .loop ∧ instr.rule? = some .loop ∨
      token.kind = .call ∧ instr.rule? = some .call)
    (place : instr.location = some (token.location program.file)) :
    ∃ frames step,
      FailsOn program tokens machine.log (machine.fault cause instr.location) frames token step := by
  obtain ⟨frame, frames, step, stack, last, latest, count, rule, located⟩ := logged
  simp only [rule, Option.some.injEq] at line
  refine ⟨machine.stack.reverse, step, rfl, chain, ⟨frame, ?_, last⟩, line, located.trans place,
    located.symm, ?_, count.symm⟩
  · rw [stack, List.getLast?_reverse, List.head?_cons]
  · rw [Machine.fault, latest, Option.map_some]

theorem Program.Visits.failsOn {source : Text.Source} {file : String} {program : Program}
    {verbose : Bool} {world : World} {moment : Moment} {limit : Nat} {fault : Fault}
    (parsed : Program.parse source file = .ok program)
    (visited : program.Visits verbose world moment)
    (ends : Moment.Ends program.functions limit moment (.failed fault)) :
    ∃ token ∈ Token.ofSource source, ∃ frames step,
      FailsOn program (Token.ofSource source) moment.machine.log fault frames token step := by
  have chain := visited.callChain parsed
  obtain ⟨rfl, _, _⟩ := (Program.parse_eq_ok_iff source file program).mp parsed
  cases ends with
  | unknown =>
      have has : program.Has _ := visited.of_program (.instr _) (.head _)
      obtain ⟨_, _, impossible⟩ := has.readFrom parsed
      exact impossible.elim
  | loop =>
      have has : program.Has _ := visited.of_program (.effect _) (.head _)
      obtain ⟨token, member, kind, _, place⟩ := has.readFrom parsed
      exact ⟨token, member, FailsOn.of_logged _ chain (visited.logged rfl) (.inl ⟨kind, rfl⟩) place⟩
  | call =>
      have has : program.Has _ := visited.of_program (.effect _) (.head _)
      obtain ⟨token, member, kind, _, _, place⟩ := has.readFrom parsed
      exact ⟨token, member, FailsOn.of_logged _ chain (visited.logged rfl) (.inr ⟨kind, rfl⟩) place⟩

/-- At every moment of every run of a parsed program the stack is a call chain, and
no frame changes while it is active, but for its last step. Each step of the log
was logged at one of these moments. The stack that a fault holds is a call chain as
well, down to the line that failed. -/
theorem stack_is_call_chain (source : Text.Source) (file : String) (program : Program)
    (parsed : Program.parse source file = .ok program) (limit : Nat) (verbose : Bool)
    (world : World) :
    (∀ moment, program.Visits verbose world moment →
      CallChain program (Token.ofSource source) moment.machine.stack.reverse) ∧
    (∀ first last place frame, program.Visits verbose world first →
      first.machine.stack.reverse[place]? = some frame →
      Moment.Keeps program.functions place first last →
      ∃ later, last.machine.stack.reverse[place]? = some later ∧ later.settled = frame.settled) ∧
    (∀ index < (program.run limit verbose world).machine.log.count,
      program.LogsAt verbose world (program.run limit verbose world).machine.log index) ∧
    ∀ fault, (program.run limit verbose world).status = .failed fault →
      ∃ token ∈ Token.ofSource source, ∃ frames step,
        FailsOn program (Token.ofSource source) (program.run limit verbose world).machine.log fault
          frames token step := by
  obtain ⟨last, visited, ends, _, logs, _⟩ := program.run_visits limit verbose world
  refine ⟨fun moment reached => reached.callChain parsed, ?_, ?_, ?_⟩
  · intro first later place frame _ found keeps
    have active : place < first.machine.stack.length := by
      simpa using (List.getElem?_eq_some_iff.mp found).1
    have same := keeps.settled active
    simp only [Machine.settled, ← List.map_reverse, List.getElem?_map, found, Option.map_some,
      Option.map_eq_some_iff] at same
    exact same
  · rw [← logs]
    exact visited.logsAt
  · intro fault failed
    rw [failed] at ends
    rw [← logs]
    exact visited.failsOn parsed ends

/-- Two calls deep, a function counts on a name that nobody binds. -/
def lostCount : Text.Source :=
  .pieces ["FUNCTION F(n)", "REPEAT q", "ENDREPEAT", "ENDFUNCTION", "FUNCTION G", "CALL F(1,2)",
    "ENDFUNCTION", "CALL G"]

def lostCountProgram : Program :=
  let line (number : Nat) (statement : String) : Option Location :=
    some ⟨"lost", number, 1, statement⟩
  let counts := Instr.loop (.identifier "q") [] (line 2 "REPEAT q")
  let inner := Instr.call "F" [.literal 1, .literal 2] (line 6 "CALL F(1,2)")
  ⟨"lost",
    ⟨[("F", ⟨"F", ["n"], [counts], line 1 "FUNCTION F(n)"⟩),
      ("G", ⟨"G", [], [inner], line 5 "FUNCTION G"⟩)]⟩,
    [.call "G" [] (line 8 "CALL G")]⟩

theorem ofSource_lostCount : Token.ofSource lostCount =
    [⟨.define, "F(n)", 1, 1, "FUNCTION F(n)"⟩, ⟨.loop, "q", 2, 1, "REPEAT q"⟩,
      ⟨.endLoop, "", 3, 1, "ENDREPEAT"⟩, ⟨.endDefine, "", 4, 1, "ENDFUNCTION"⟩,
      ⟨.define, "G", 5, 1, "FUNCTION G"⟩, ⟨.call, "F(1,2)", 6, 1, "CALL F(1,2)"⟩,
      ⟨.endDefine, "", 7, 1, "ENDFUNCTION"⟩, ⟨.call, "G", 8, 1, "CALL G"⟩] := by decide

theorem parse_lostCount : Program.parse lostCount "lost" = .ok lostCountProgram := by
  rw [Program.parse_eq_ok_iff, ofSource_lostCount]
  refine ⟨rfl, ?_, ?_⟩
  · exact .define rfl (.loop rfl rfl .nil .nil)
      (.define rfl (.call rfl rfl .nil) (.other (by decide) .nil))
  · exact .define rfl (.define rfl (.call rfl rfl .nil))

theorem stack_is_call_chain_of_lostCount :
    Program.parse lostCount "lost" = .ok lostCountProgram ∧
    ∃ fault, (lostCountProgram.run 9 true ⟨⟨1, 1, [[.empty]]⟩, ⟨0, 0, .east⟩⟩).status = .failed fault ∧
      (fault.stack.map fun frames => frames.map fun frame => (frame.name, frame.scope.bindings.entries)) =
        some [("<top-level>", []), ("G", []), ("F", [("n", 1)])] ∧
      ∃ token ∈ Token.ofSource lostCount, ∃ frames step,
        FailsOn lostCountProgram (Token.ofSource lostCount)
          (lostCountProgram.run 9 true ⟨⟨1, 1, [[.empty]]⟩, ⟨0, 0, .east⟩⟩).machine.log fault
          frames token step := by
  obtain ⟨fault, failed, names⟩ : ∃ fault,
      (lostCountProgram.run 9 true ⟨⟨1, 1, [[.empty]]⟩, ⟨0, 0, .east⟩⟩).status = .failed fault ∧
      (fault.stack.map fun frames => frames.map fun frame => (frame.name, frame.scope.bindings.entries)) =
        some [("<top-level>", []), ("G", []), ("F", [("n", 1)])] := ⟨_, rfl, by decide⟩
  have chain := stack_is_call_chain lostCount "lost" lostCountProgram parse_lostCount 9 true
    ⟨⟨1, 1, [[.empty]]⟩, ⟨0, 0, .east⟩⟩
  exact ⟨parse_lostCount, fault, failed, names, chain.2.2.2 fault failed⟩

end Lamplighter
