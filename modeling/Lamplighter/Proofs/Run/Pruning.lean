import Lamplighter.Proofs.Program.Idle
import Lamplighter.Proofs.Run.Unrolling
import Lamplighter.Proofs.Run.Verbosity

/-! Runs without the idle lines.

While a program and its pruned form run side by side, an idle instruction is a step of the
first one alone. The two machines may then stand at different lines, but only in the innermost
call, and they are level again as soon as something is called or fails. Main statement:
`idle_lines_left_out`. -/

namespace Lamplighter

/-- The steps with indices from zero on. -/
def renumbered (steps : List Step) : List Step :=
  steps.mapIdx fun index step => { step with index := index }

/-- The steps that were not logged for an idle instruction. -/
def Program.busySteps (program : Program) (steps : List Step) : List Step :=
  steps.filter fun step => !program.idleAt step.location

/-- The same step, whatever its index. -/
structure Step.Matches (one two : Step) : Prop where
  rule : one.rule = two.rule
  location : one.location = two.location
  pose : one.pose = two.pose

/-- The same call, with the same names bound, come to the same line. -/
structure Frame.Matches (one two : Frame) : Prop where
  name : one.name = two.name
  scope : one.scope = two.scope
  callSite : one.callSite = two.callSite
  last : Option.Rel Step.Matches one.last two.last

/-- The same fault in the same calls. -/
structure Fault.Matches (one two : Fault) : Prop where
  cause : one.cause = two.cause
  location : one.location = two.location
  stack : Option.Rel (List.Forall₂ Frame.Matches) one.stack two.stack

theorem Frame.matches_entered (name : String) (scope : Scope) (callSite : Option Location) :
    Frame.Matches ⟨name, scope, callSite, none⟩ ⟨name, scope, callSite, none⟩ :=
  ⟨rfl, rfl, rfl, .none⟩

theorem Frame.Matches.settled_eq {one two : Frame} (same : one.Matches two) :
    one.settled = two.settled := by
  rcases one with ⟨name, scope, callSite, last⟩
  rcases two with ⟨name', scope', callSite', last'⟩
  obtain ⟨rfl, rfl, rfl, -⟩ := same
  rfl

theorem Frame.matches_relast {one two : Frame} (same : one.settled = two.settled)
    {first second : Option Step} (last : Option.Rel Step.Matches first second) :
    Frame.Matches { one with last := first } { two with last := second } := by
  rcases one with ⟨name, scope, callSite, before⟩
  rcases two with ⟨name', scope', callSite', before'⟩
  cases same
  exact ⟨rfl, rfl, rfl, last⟩

theorem renumbered_concat (steps : List Step) (step : Step) :
    renumbered (steps ++ [step]) = renumbered steps ++ [{ step with index := steps.length }] :=
  List.mapIdx_concat

theorem Instr.exec_idle {functions : Table FunDef} {instr : Instr}
    (idle : instr.idle functions = true) :
    ∃ rule, ∀ enter scope machine,
      instr.exec functions enter scope machine = (machine.record rule instr.location).finish := by
  cases instr with
  | act opcode text location =>
      have noop : opcode = .noop := of_decide_eq_true idle
      subst noop
      exact ⟨.act .noop, fun _ _ _ => rfl⟩
  | call name args location =>
      have undefined : functions.get? name = none := Option.isNone_iff_eq_none.mp idle
      refine ⟨.call, fun enter scope machine => ?_⟩
      simp only [Instr.exec, undefined, Instr.location]
  | loop | unknown => cases idle

section Pruning

variable {program : Program} {verbose loud : Bool}

theorem Program.busySteps_concat_idle {step : Step} (idle : program.idleAt step.location = true)
    (steps : List Step) : program.busySteps (steps ++ [step]) = program.busySteps steps := by
  simp [busySteps, idle]

theorem Program.busySteps_concat {step : Step} (busy : program.idleAt step.location = false)
    (steps : List Step) :
    program.busySteps (steps ++ [step]) = program.busySteps steps ++ [step] := by
  simp [busySteps, busy]

/-- The second log tells the busy steps of the first one, under numbers of their own. -/
def Log.Thins (program : Program) (verbose loud : Bool) (one two : Log) : Prop :=
  ∃ steps, one = (start verbose).addAll steps ∧
    two = (start loud).addAll (renumbered (program.busySteps steps))

namespace Log.Thins

variable {one two : Log}

theorem add_idle (thins : Thins program verbose loud one two) {step : Step}
    (idle : program.idleAt step.location = true) : Thins program verbose loud (one.add step) two := by
  obtain ⟨steps, plain, rest⟩ := thins
  refine ⟨steps ++ [step], ?_, ?_⟩
  · rw [addAll_concat, ← plain]
  · rw [program.busySteps_concat_idle idle, ← rest]

theorem add_busy (thins : Thins program verbose loud one two) (rule : Rule)
    {location : Option Location} (busy : program.idleAt location = false) (pose : Pose) :
    Thins program verbose loud (one.add ⟨one.count, rule, location, pose⟩)
      (two.add ⟨two.count, rule, location, pose⟩) := by
  obtain ⟨steps, plain, rest⟩ := thins
  have count : two.count = (program.busySteps steps).length := by
    calc two.count
      _ = 0 + (renumbered (program.busySteps steps)).length := by rw [rest, count_addAll]; rfl
      _ = (program.busySteps steps).length := by rw [Nat.zero_add, renumbered, List.length_mapIdx]
  refine ⟨steps ++ [⟨one.count, rule, location, pose⟩], ?_, ?_⟩
  · rw [addAll_concat, ← plain]
  · rw [program.busySteps_concat busy, renumbered_concat, addAll_concat, ← rest, count]

end Log.Thins

namespace Machine

/-- The second machine has done all that the first one has, but for idle instructions. In the
innermost call it may be at an earlier line. -/
structure Trails (program : Program) (verbose loud : Bool) (one two : Machine) : Prop where
  world : one.world = two.world
  settled : one.settled = two.settled
  outer : List.Forall₂ Frame.Matches one.stack.tail two.stack.tail
  log : Log.Thins program verbose loud one.log two.log

/-- And it has come to the same line in every call. -/
structure Level (program : Program) (verbose loud : Bool) (one two : Machine) : Prop where
  world : one.world = two.world
  stack : List.Forall₂ Frame.Matches one.stack two.stack
  log : Log.Thins program verbose loud one.log two.log

variable {one two : Machine}

theorem Level.trails (level : Level program verbose loud one two) :
    Trails program verbose loud one two where
  world := level.world
  settled := by
    rw [Machine.settled, Machine.settled, ← List.forall₂_eq_eq_eq, List.forall₂_map_left_iff,
      List.forall₂_map_right_iff]
    exact level.stack.imp fun _ _ same => same.settled_eq
  outer := by
    simp only [← List.drop_one]
    exact List.forall₂_drop 1 level.stack
  log := level.log

theorem Trails.record_idle (trails : Trails program verbose loud one two) (rule : Rule)
    {location : Option Location} (idle : program.idleAt location = true) :
    Trails program verbose loud (one.record rule location) two where
  world := trails.world
  settled := (settled_record ..).trans trails.settled
  outer := by
    have outer := trails.outer
    rcases one with ⟨_, frames, _⟩
    cases frames <;> exact outer
  log := trails.log.add_idle idle

theorem Trails.record (trails : Trails program verbose loud one two) (rule : Rule)
    {location : Option Location} (busy : program.idleAt location = false) :
    Level program verbose loud (one.record rule location) (two.record rule location) where
  world := trails.world
  stack := by
    obtain ⟨world, settled, outer, _⟩ := trails
    rcases one with ⟨first, frames, _⟩
    rcases two with ⟨second, others, _⟩
    cases frames with
    | nil =>
        cases others with
        | nil => exact .nil
        | cons => cases settled
    | cons inner frames =>
        cases others with
        | nil => cases settled
        | cons other others =>
            have pose : first.robot = second.robot := congrArg World.robot world
            have heads : inner.settled = other.settled := (List.cons.inj settled).1
            exact .cons (Frame.matches_relast heads (.some ⟨rfl, rfl, pose⟩)) outer
  log := by
    have robot : two.world.robot = one.world.robot := congrArg World.robot trails.world.symm
    simp only [Machine.record, robot]
    exact trails.log.add_busy rule busy _

theorem Level.perform (level : Level program verbose loud one two) (opcode : Opcode) :
    Level program verbose loud (one.perform opcode) (two.perform opcode) :=
  ⟨congrArg (World.perform · opcode) level.world, level.stack, level.log⟩

theorem Level.push (level : Level program verbose loud one two) (name : String) (scope : Scope)
    (callSite : Option Location) :
    Level program verbose loud (one.push ⟨name, scope, callSite, none⟩)
      (two.push ⟨name, scope, callSite, none⟩) :=
  ⟨level.world, .cons (Frame.matches_entered ..) level.stack, level.log⟩

theorem Trails.pop (trails : Trails program verbose loud one two) :
    Level program verbose loud one.pop two.pop :=
  ⟨trails.world, trails.outer, trails.log⟩

theorem Level.fault (level : Level program verbose loud one two) (cause : Cause)
    (location : Option Location) :
    (one.fault cause location).Matches (two.fault cause location) where
  cause := rfl
  location := rfl
  stack := .some (List.rel_reverse level.stack)

end Machine

namespace Outcome

structure Trails (program : Program) (verbose loud : Bool) (one two : Outcome) : Prop where
  machine : Machine.Trails program verbose loud one.machine two.machine
  status : Status.Alike Fault.Matches one.status two.status

variable {one two : Outcome} {first second : Machine → Outcome}

theorem trails_finish {one two : Machine} (trails : Machine.Trails program verbose loud one two) :
    Trails program verbose loud one.finish two.finish := ⟨trails, .finished⟩

theorem trails_fail {one two : Machine} (level : Machine.Level program verbose loud one two)
    (cause : Cause) (location : Option Location) :
    Trails program verbose loud (one.fail cause location) (two.fail cause location) :=
  ⟨level.trails, .failed (level.fault cause location)⟩

theorem Trails.andThen (trails : Trails program verbose loud one two)
    (next : ∀ one two, Machine.Trails program verbose loud one two →
      Trails program verbose loud (first one) (second two)) :
    Trails program verbose loud (one.andThen first) (two.andThen second) := by
  rcases one with ⟨one, status⟩
  rcases two with ⟨two, other⟩
  obtain ⟨machine, ended⟩ := trails
  cases ended with
  | finished => exact next one two machine
  | failed faulty => exact ⟨machine, .failed faulty⟩
  | tooDeep => exact ⟨machine, .tooDeep⟩

theorem Trails.pop (trails : Trails program verbose loud one two) :
    Trails program verbose loud one.pop two.pop :=
  ⟨trails.machine.pop.trails, trails.status⟩

theorem trails_iterate (count : Nat) {one two : Machine}
    (trails : Machine.Trails program verbose loud one two)
    (once : ∀ one two, Machine.Trails program verbose loud one two →
      Trails program verbose loud (first one) (second two)) :
    Trails program verbose loud (iterate first count one) (iterate second count two) := by
  induction count generalizing one two with
  | zero => exact trails_finish trails
  | succ count ih => exact (once one two trails).andThen fun _ _ trails => ih trails

end Outcome

/-- A call of a function and one of its pruned form go together. -/
def EntersPruned (program : Program) (verbose loud : Bool) (plain pruned : Enter) : Prop :=
  ∀ name function args scope location (one two : Machine),
    program.functions.get? name = some function → Machine.Level program verbose loud one two →
    Outcome.Trails program verbose loud (plain function args scope location one)
      (pruned (function.pruned program.functions) args scope location two)

section Tree

variable {plain pruned : Enter} {scope : Scope}

mutual

theorem exec_pruned (tells : program.Tells) (enters : EntersPruned program verbose loud plain pruned)
    (instr : Instr) (has : program.Has instr) (busy : instr.idle program.functions = false)
    {one two : Machine} (trails : Machine.Trails program verbose loud one two) :
    Outcome.Trails program verbose loud (instr.exec program.functions plain scope one)
      ((instr.pruned program.functions).exec program.pruned.functions pruned scope two) := by
  have here : program.idleAt instr.location = false := (tells.idle instr has).trans busy
  cases instr with
  | act opcode text location =>
      exact Outcome.trails_finish ((trails.record (.act opcode) here).perform opcode).trails
  | unknown location => exact absurd has (tells.known location)
  | loop count body location =>
      have level := trails.record .loop here
      simp only [Instr.pruned, Instr.exec]
      cases scope.eval count with
      | error cause => exact Outcome.trails_fail level cause location
      | ok value =>
          apply Outcome.trails_iterate value.toNat level.trails
          intro one two trails
          exact execBlock_pruned tells enters body (fun _ inner => has.inside inner) trails
  | call name args location =>
      have level := trails.record .call here
      simp only [Instr.pruned, Instr.exec, program.get?_pruned]
      cases defined : program.functions.get? name with
      | none =>
          rw [Instr.idle, defined] at busy
          cases busy
      | some function =>
          simp only [Option.map_some]
          cases scope.evalAll args with
          | error cause => exact Outcome.trails_fail level cause location
          | ok values => exact enters name function values scope location _ _ defined level
termination_by structural instr

theorem execBlock_pruned (tells : program.Tells)
    (enters : EntersPruned program verbose loud plain pruned) (instrs : List Instr)
    (has : ∀ instr, Occurs instr instrs → program.Has instr) {one two : Machine}
    (trails : Machine.Trails program verbose loud one two) :
    Outcome.Trails program verbose loud (execBlock program.functions plain scope instrs one)
      (execBlock program.pruned.functions pruned scope (prunedBlock program.functions instrs) two) := by
  cases instrs with
  | nil => exact Outcome.trails_finish trails
  | cons instr instrs =>
      have later (instr : Instr) (occurs : Occurs instr instrs) : program.Has instr :=
        has instr (.tail occurs)
      rw [prunedBlock]
      cases idle : instr.idle program.functions with
      | true =>
          -- The first machine logs the instruction, and the second one waits.
          have here : program.idleAt instr.location = true := (tells.idle instr (has _ .head)).trans idle
          obtain ⟨rule, logs⟩ := Instr.exec_idle idle
          rw [if_pos rfl, execBlock, logs]
          exact execBlock_pruned tells enters instrs later (trails.record_idle rule here)
      | false =>
          rw [if_neg Bool.false_ne_true, execBlock, execBlock]
          apply (exec_pruned tells enters instr (has _ .head) idle trails).andThen
          intro one two trails
          exact execBlock_pruned tells enters instrs later trails
termination_by structural instrs

end

end Tree

/-- On the calls that are left, as both runs go down them. -/
theorem enter_pruned (tells : program.Tells) (depth : Nat) :
    EntersPruned program verbose loud (enter program.functions depth)
      (enter program.pruned.functions depth) := by
  induction depth with
  | zero => exact fun _ _ _ _ _ _ _ _ level => ⟨level.trails, .tooDeep⟩
  | succ depth ih =>
      intro name function args scope location one two defined level
      have inside (instr : Instr) (occurs : Occurs instr function.body) : program.Has instr :=
        .inr ⟨name, function, defined, occurs⟩
      exact (execBlock_pruned tells ih function.body inside (level.push ..).trails).pop

theorem Program.run_pruned (tells : program.Tells) (limit : Nat) (world : World) :
    Outcome.Trails program verbose loud (program.run limit verbose world)
      (program.pruned.run limit loud world) := by
  have start : Machine.Level program verbose loud ⟨world, [.top], .start verbose⟩
      ⟨world, [.top], .start loud⟩ :=
    ⟨rfl, .cons (Frame.matches_entered ..) .nil, [], rfl, rfl⟩
  have enters : EntersPruned program verbose loud (enter program.functions limit)
      (enter program.pruned.functions limit) := enter_pruned tells limit
  exact (execBlock_pruned tells enters program.statements (fun _ occurs => .inl occurs)
    start.trails).pop

end Pruning

/-- The steps that a run logs, as a verbose log of it has them. -/
def Program.trace (program : Program) (limit : Nat) (world : World) : List Step :=
  (program.run limit true world).machine.log.steps.toList

/-- A parsed program and what is left of it when all its idle instructions are taken out leave
the same world and end in the same way, with the same fault in the same calls if any. The log
of the pruned one is that of the plain one without the steps of idle instructions, numbered
anew; and the location of a step tells whether it is one of these. -/
theorem idle_lines_left_out (source : Text.Source) (file : String) (program : Program)
    (parsed : Program.parse source file = .ok program) (limit : Nat) (verbose : Bool)
    (world : World) :
    let plain := program.run limit verbose world
    let pruned := program.pruned.run limit verbose world
    let trace := program.trace limit world
    pruned.machine.world = plain.machine.world ∧
    Status.Alike Fault.Matches plain.status pruned.status ∧
    plain.machine.log = (Log.start verbose).addAll trace ∧
    pruned.machine.log = (Log.start verbose).addAll (renumbered (program.busySteps trace)) ∧
    ∀ instr, program.Has instr →
      program.idleAt instr.location = instr.idle program.functions := by
  intro plain pruned trace
  have tells := Program.tells_of_parse parsed
  obtain ⟨machine, status⟩ : Outcome.Trails program verbose verbose plain pruned :=
    Program.run_pruned tells limit world
  -- The trace is that of the verbose run, which goes with either pruned one.
  have loud : Outcome.Trails program true verbose (program.run limit true world) pruned :=
    Program.run_pruned tells limit world
  obtain ⟨steps, traced, thinned⟩ := loud.machine.log
  have same : trace = steps := by
    simp only [trace, Program.trace, traced, Log.addAll_start, if_true]
  have whole : plain.machine.log = (Log.start verbose).addAll steps := by
    cases verbose with
    | true => exact traced
    | false =>
        obtain ⟨others, logged, _⟩ := machine.log
        obtain ⟨count, last⟩ := (program.run_verbosity limit false true world).1.log
        change plain.machine.log.count = _ at count
        change plain.machine.log.last = _ at last
        rw [logged, traced, Log.addAll_start, Log.addAll_start] at count last
        simp only at count last
        rw [logged, Log.addAll_start, Log.addAll_start, count, last]
        rfl
  rw [same]
  exact ⟨machine.world.symm, status, whole, thinned, tells.idle⟩

/-- It waits, it calls a function that there is not, and it fails with a wait just behind it. -/
def dawdle : Text.Source :=
  .pieces ["FUNCTION F(n)", "FORWARD", "WAIT", "REPEAT m", "ENDREPEAT", "ENDFUNCTION", "REPEAT 2",
    "CALL G(q)", "FORWARD", "ENDREPEAT", "WAIT", "CALL F(1)"]

def dawdleProgram : Program :=
  let line (number : Nat) (statement : String) : Option Location :=
    some ⟨"dawdle", number, 1, statement⟩
  ⟨"dawdle",
    ⟨[("F", ⟨"F", ["n"],
      [.act .forward "FORWARD" (line 2 "FORWARD"), .act .noop "WAIT" (line 3 "WAIT"),
        .loop (.identifier "m") [] (line 4 "REPEAT m")], line 1 "FUNCTION F(n)"⟩)]⟩,
    [.loop (.literal 2)
      [.call "G" [.identifier "q"] (line 8 "CALL G(q)"),
        .act .forward "FORWARD" (line 9 "FORWARD")] (line 7 "REPEAT 2"),
      .act .noop "WAIT" (line 11 "WAIT"), .call "F" [.literal 1] (line 12 "CALL F(1)")]⟩

theorem ofSource_dawdle : Token.ofSource dawdle =
    [⟨.define, "F(n)", 1, 1, "FUNCTION F(n)"⟩, ⟨.line, "FORWARD", 2, 1, "FORWARD"⟩,
      ⟨.line, "WAIT", 3, 1, "WAIT"⟩, ⟨.loop, "m", 4, 1, "REPEAT m"⟩,
      ⟨.endLoop, "", 5, 1, "ENDREPEAT"⟩, ⟨.endDefine, "", 6, 1, "ENDFUNCTION"⟩,
      ⟨.loop, "2", 7, 1, "REPEAT 2"⟩, ⟨.call, "G(q)", 8, 1, "CALL G(q)"⟩,
      ⟨.line, "FORWARD", 9, 1, "FORWARD"⟩, ⟨.endLoop, "", 10, 1, "ENDREPEAT"⟩,
      ⟨.line, "WAIT", 11, 1, "WAIT"⟩, ⟨.call, "F(1)", 12, 1, "CALL F(1)"⟩] := by decide

theorem parse_dawdle : Program.parse dawdle "dawdle" = .ok dawdleProgram := by
  rw [Program.parse_eq_ok_iff, ofSource_dawdle]
  refine ⟨rfl, ?_, ?_⟩
  · exact .define rfl (.act (.inl rfl) (.act (.inl rfl) (.loop rfl rfl .nil .nil)))
      (.other (by decide) (.other (by decide) (.other (by decide) (.other (by decide)
        (.other (by decide) (.other (by decide) .nil))))))
  · exact .define rfl (.loop rfl rfl (.call rfl rfl (.act (.inl rfl) .nil))
      (.act (.inl rfl) (.call rfl rfl .nil)))

/-- Four columns with nothing on them. -/
def aisle : World := ⟨⟨4, 1, [[.empty, .empty, .empty, .empty]]⟩, ⟨0, 0, .east⟩⟩

theorem idle_lines_left_out_of_dawdle :
    Program.parse dawdle "dawdle" = .ok dawdleProgram ∧
    let plain := dawdleProgram.run 9 true aisle
    let pruned := dawdleProgram.pruned.run 9 true aisle
    let trace := dawdleProgram.trace 9 aisle
    (∃ fault, plain.status = .failed fault ∧ fault.cause = .unresolved "m") ∧
    trace.length = 10 ∧ (dawdleProgram.busySteps trace).length = 6 ∧
    pruned.machine.world = plain.machine.world ∧
    Status.Alike Fault.Matches plain.status pruned.status ∧
    plain.machine.log = (Log.start true).addAll trace ∧
    pruned.machine.log = (Log.start true).addAll (renumbered (dawdleProgram.busySteps trace)) := by
  obtain ⟨world, status, whole, thinned, _⟩ :=
    idle_lines_left_out dawdle "dawdle" dawdleProgram parse_dawdle 9 true aisle
  exact ⟨parse_dawdle, ⟨_, rfl, rfl⟩, by decide, by decide, world, status, whole, thinned⟩

end Lamplighter
