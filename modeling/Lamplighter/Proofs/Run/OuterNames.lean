import Lamplighter.Proofs.Program.Lines
import Lamplighter.Proofs.Run.Agenda
import Lamplighter.Proofs.Run.FlatNames
import Lamplighter.Proofs.Run.Pruning

/-! Names bound further out.

A run that finishes has found every name it asked for, and it would have found the same values
with more names around it. The argument is made on the runner with one map of names, where it is
about two maps and two tables of functions at once: the second table may hold other functions
under names that nothing calls. Main statement: `outer_names_keep_run`. -/

namespace Lamplighter

namespace Flat

/-- What has a value in the first map has it in the second. -/
def Extends (inner outer : Names) : Prop :=
  ∀ name value, inner name = some value → outer name = some value

section Extends

variable {inner outer : Names}

theorem Extends.eval (more : Extends inner outer) {expr : Expr} {value : Int}
    (valued : eval inner expr = .ok value) : eval outer expr = .ok value := by
  cases expr with
  | literal | unknown => exact valued
  | identifier name =>
      rw [Flat.eval] at valued ⊢
      cases found : inner name with
      | none =>
          rw [found] at valued
          cases valued
      | some bound =>
          rw [found] at valued
          rw [more name bound found]
          exact valued

theorem Extends.evalAll (more : Extends inner outer) {exprs : List Expr} {values : List Int}
    (valued : evalAll inner exprs = .ok values) : evalAll outer exprs = .ok values := by
  induction exprs generalizing values with
  | nil => exact valued
  | cons expr exprs ih =>
      simp only [Flat.evalAll, bind_eq_ok] at valued ⊢
      rcases valued with ⟨first, here, rest, later, result⟩
      exact ⟨first, more.eval here, rest, ih later, result⟩

/-- What a call binds is bound on either side. -/
theorem Extends.override (more : Extends inner outer) (pairs : List (String × Int)) :
    Extends (override inner pairs) (override outer pairs) := by
  intro name value found
  rw [override_apply, Option.or_eq_some_iff] at found ⊢
  rcases found with here | ⟨absent, further⟩
  · exact .inl here
  · exact .inr ⟨absent, more name value further⟩

end Extends

/-- If the first run returns, then the second one does exactly the same. -/
def Result.Upheld (one two : Result) : Prop := one.ending = .returned → two = one

namespace Result.Upheld

variable {one two : Result} {first second : State → Result}

theorem same (result : Result) : result.Upheld result := fun _ => rfl

theorem of_failed (state : State) (cause : Cause) (location : Option Location) (result : Result) :
    Upheld ⟨state, .failed cause location⟩ result := by
  intro returned
  cases returned

theorem andThen (upheld : one.Upheld two) (next : ∀ state, (first state).Upheld (second state)) :
    (one.andThen first).Upheld (two.andThen second) := by
  intro returned
  rcases one with ⟨state, ending⟩
  cases ending with
  | returned =>
      rw [upheld rfl]
      exact next state returned
  | failed | tooDeep => cases returned

theorem times (count : Nat) (once : ∀ state, (first state).Upheld (second state)) (state : State) :
    (times first count state).Upheld (Flat.times second count state) := by
  induction count generalizing state with
  | zero => exact same _
  | succ count ih => exact (once state).andThen ih

end Result.Upheld

/-- Calls of the functions of the table are upheld when more names are around. -/
def Upholds (functions : Table FunDef) (plain wider : Call) : Prop :=
  ∀ name function args inner outer state, functions.get? name = some function →
    Extends inner outer → (plain function args inner state).Upheld (wider function args outer state)

section Tree

variable {program : Program} {others : Table FunDef} {plain wider : Call} {inner outer : Names}

mutual

theorem run_upheld
    (same : ∀ name args location, program.Has (.call name args location) →
      others.get? name = program.functions.get? name)
    (calls : Upholds program.functions plain wider) (more : Extends inner outer) (instr : Instr)
    (has : program.Has instr) (state : State) :
    (run program.functions plain inner instr state).Upheld
      (run others wider outer instr state) := by
  cases instr with
  | act opcode text location => exact .same _
  | unknown location => exact .same _
  | loop count body location =>
      rw [run, run]
      cases valued : eval inner count with
      | error cause => exact .of_failed _ _ _ _
      | ok value =>
          rw [more.eval valued]
          exact .times value.toNat
            (runBlock_upheld same calls more body fun _ within => has.inside within) _
  | call name args location =>
      rw [run, run, same name args location has]
      cases defined : program.functions.get? name with
      | none => exact .same _
      | some function =>
          cases valued : evalAll inner args with
          | error cause => exact .of_failed _ _ _ _
          | ok values =>
              rw [more.evalAll valued]
              exact calls name function values inner outer _ defined more
termination_by structural instr

theorem runBlock_upheld
    (same : ∀ name args location, program.Has (.call name args location) →
      others.get? name = program.functions.get? name)
    (calls : Upholds program.functions plain wider) (more : Extends inner outer)
    (instrs : List Instr) (has : ∀ instr, Occurs instr instrs → program.Has instr) (state : State) :
    (runBlock program.functions plain inner instrs state).Upheld
      (runBlock others wider outer instrs state) := by
  cases instrs with
  | nil => exact .same _
  | cons instr instrs =>
      exact (run_upheld same calls more instr (has _ .head) state).andThen
        (runBlock_upheld same calls more instrs fun _ later => has _ (.tail later))
termination_by structural instrs

end

/-- On the calls that are left, as both runs go down them. -/
theorem call_upholds
    (same : ∀ name args location, program.Has (.call name args location) →
      others.get? name = program.functions.get? name) (depth : Nat) :
    Upholds program.functions (call program.functions depth) (call others depth) := by
  induction depth with
  | zero => exact fun _ _ _ _ _ _ _ _ => by rintro ⟨⟩
  | succ depth ih =>
      intro name function args inner outer state defined more
      exact runBlock_upheld same ih (more.override _) function.body
        (fun _ occurs => .inr ⟨name, function, defined, occurs⟩) state

end Tree
end Flat

/-- Each name that has a value in the inner scope has it in the outer one. -/
def Scope.Extends (outer inner : Scope) : Prop :=
  ∀ name value, inner.find? name = some value → outer.find? name = some value

theorem Scope.Extends.flat {outer inner : Scope} (more : outer.Extends inner) :
    Flat.Extends inner.flat outer.flat := by
  intro name value found
  rw [Scope.flat_apply] at found ⊢
  exact more name value found

theorem Scope.extends_root (scope : Scope) : scope.Extends .root := by
  intro name value found
  cases found

theorem Scope.Extends.enter {outer inner : Scope} (more : outer.Extends inner)
    (params : List String) (args : List Int) :
    (outer.enter params args).Extends (inner.enter params args) := by
  intro name value found
  rw [← Scope.flat_apply, Scope.flat_enter] at found ⊢
  exact more.flat.override _ name value found

theorem Status.eq_finished_of_plain {status : Status} (returned : status.plain = .returned) :
    status = .finished := by
  cases status with
  | finished => rfl
  | failed | tooDeep => cases returned

/-- The second run finds every name that the first one does, and every function that is called.
If the first one finishes, the second one does, with the same world and the same log. -/
theorem Program.execBlock_wider {program : Program} {others : Table FunDef}
    (same : ∀ name args location, program.Has (.call name args location) →
      others.get? name = program.functions.get? name)
    (limit : Nat) {inner outer : Scope} (more : outer.Extends inner) {machine other : Machine}
    (world : other.world = machine.world) (log : other.log = machine.log) :
    let plain := execBlock program.functions (enter program.functions limit) inner
      program.statements machine
    let wider := execBlock others (enter others limit) outer program.statements other
    plain.status = .finished → wider.status = .finished ∧
      wider.machine.world = plain.machine.world ∧ wider.machine.log = plain.machine.log := by
  intro plain wider finished
  have first : plain.plain = Flat.runBlock program.functions (Flat.call program.functions limit)
      inner.flat program.statements machine.plain :=
    (Flat.follows_execBlock (Flat.enters_enter program.functions limit) _ machine).result
  have second : wider.plain = Flat.runBlock others (Flat.call others limit) outer.flat
      program.statements other.plain :=
    (Flat.follows_execBlock (Flat.enters_enter others limit) _ other).result
  have start : other.plain = machine.plain := by rw [Machine.plain, world, log, Machine.plain]
  have returned : plain.plain.ending = .returned := by rw [Outcome.plain, finished, Status.plain]
  have equal : wider.plain = plain.plain := by
    rw [second, start, first]
    rw [first] at returned
    exact Flat.runBlock_upheld same (Flat.call_upholds same limit) more.flat _
      (fun _ occurs => .inl occurs) _ returned
  have ending : wider.status.plain = .returned := (congrArg Flat.Result.ending equal).trans returned
  exact ⟨Status.eq_finished_of_plain ending,
    congrArg (fun result => result.state.world) equal,
    congrArg (fun result => result.state.log) equal⟩

theorem Status.Alike.finished_of {faults : Fault → Fault → Prop} {one two : Status}
    (alike : Alike faults one two) (finished : one = .finished) : two = .finished := by
  cases alike with
  | finished => rfl
  | failed | tooDeep => cases finished

/-- The main statements, run once from the start and once with a step logged in front. -/
theorem Program.run_delayed (program : Program) (limit : Nat) (verbose : Bool) (world : World)
    (rule : Rule) (location : Option Location) :
    let machine : Machine := ⟨world, [.top], .start verbose⟩
    let run := execBlock program.functions (enter program.functions limit) .root program.statements
    (Lockstep.delayed machine rule location).Outcomes (run machine)
      (run (machine.record rule location)) := by
  intro machine run
  exact Lockstep.execBlock (Lockstep.enter program.functions limit) _
    (Machine.Delayed.of_record machine rule location)

/-- A run logs the steps of its trace, or counts them if it is a quiet one. -/
theorem Program.log_eq_addAll_trace (program : Program) (limit : Nat) (verbose : Bool)
    (world : World) : (program.run limit verbose world).machine.log =
      (Log.start verbose).addAll (program.trace limit world) := by
  have built (verbose : Bool) : ∃ steps,
      (program.run limit verbose world).machine.log = (Log.start verbose).addAll steps := by
    rcases (program.run_delayed limit verbose world .call none).machine.log with ⟨steps, logs, _⟩
    exact ⟨steps, logs⟩
  rcases built true with ⟨steps, loud⟩
  have same : program.trace limit world = steps := by
    simp only [trace, loud, Log.addAll_start, if_true]
  cases verbose with
  | true => rw [same, loud]
  | false =>
      rcases built false with ⟨others, quiet⟩
      have tallies := (program.run_verbosity limit false true world).1.log
      have count := tallies.count
      have last := tallies.last
      rw [quiet, loud, Log.addAll_start, Log.addAll_start] at count last
      simp only at count last
      rw [quiet, same, Log.addAll_start, Log.addAll_start, count, last]
      rfl

namespace Program

/-- The main statements as the body of a function of their own, and a call of it in their place. -/
def wrapped (program : Program) (name : String) (params : List String) (args : List Int)
    (place callSite : Option Location) : Program where
  file := program.file
  functions := program.functions.insert name ⟨name, params, program.statements, place⟩
  statements := [.call name (args.map .literal) callSite]

theorem evalAll_literals (scope : Scope) (values : List Int) :
    scope.evalAll (values.map .literal) = .ok values := by
  induction values with
  | nil => rfl
  | cons value values ih =>
      rw [List.map_cons, Scope.evalAll, ih]
      rfl

theorem run_wrapped {program : Program} {name : String}
    (uncalled : ∀ args location, ¬program.Has (.call name args location)) (params : List String)
    (args : List Int) (place callSite : Option Location) {limit : Nat} {verbose : Bool}
    {world : World} (finished : (program.run limit verbose world).status = .finished) :
    let plain := program.run limit verbose world
    let wrapped := (program.wrapped name params args place callSite).run (limit + 1) verbose world
    wrapped.status = .finished ∧ wrapped.machine.world = plain.machine.world ∧
    ∃ steps, plain.machine.log = (Log.start verbose).addAll steps ∧
      wrapped.machine.log = ((Log.start verbose).add ⟨0, .call, callSite, world.robot⟩).addAll
        (steps.map Step.later) := by
  intro plain wrapped
  let machine : Machine := ⟨world, [.top], .start verbose⟩
  let function : FunDef := ⟨name, params, program.statements, place⟩
  let others := program.functions.insert name function
  let scope := Scope.root.enter params args
  let logged := machine.record .call callSite
  let late := execBlock program.functions (enter program.functions limit) .root program.statements
    logged
  let inner := execBlock others (enter others limit) scope program.statements
    (logged.push ⟨name, scope, callSite, none⟩)
  -- The call is logged, and then the main statements run in a frame of their own.
  have called : wrapped = inner.pop.pop := by
    have defined : others.get? name = some function := by rw [Table.get?_insert, if_pos rfl]
    have valued := evalAll_literals .root args
    simp only [wrapped, Program.run, Program.wrapped, execBlock_single, Instr.exec, valued]
    rw [defined]
    rfl
  have same : ∀ called args location, program.Has (.call called args location) →
      others.get? called = program.functions.get? called := by
    intro called args location has
    have apart : called ≠ name := by
      rintro rfl
      exact uncalled args location has
    rw [Table.get?_insert, if_neg apart]
  have delayed := program.run_delayed limit verbose world .call callSite
  have wider : inner.status = .finished ∧ inner.machine.world = late.machine.world ∧
      inner.machine.log = late.machine.log :=
    Program.execBlock_wider same limit scope.extends_root rfl rfl
      (delayed.status.finished_of finished)
  rcases delayed.machine.log with ⟨steps, plainLog, lateLog⟩
  rw [called]
  exact ⟨wider.1, wider.2.1.trans delayed.machine.world.symm, steps, plainLog,
    wider.2.2.trans lateLog⟩

end Program

/-- In a scope with more names bound, and from whatever calls, a block that finishes does just
what it did: it leaves the same world and the same log. So a program may as well have its main
statements in a function of their own, under a name that nothing calls, and call it with any
arguments. Where the program finishes, this one does with one call more nested: it leaves the same
world, and has logged the call and then the same steps. -/
theorem outer_names_keep_run :
    (∀ (functions : Table FunDef) (limit : Nat) (instrs : List Instr) (inner outer : Scope)
      (machine other : Machine), outer.Extends inner → other.world = machine.world →
      other.log = machine.log →
      let plain := execBlock functions (enter functions limit) inner instrs machine
      let wider := execBlock functions (enter functions limit) outer instrs other
      plain.status = .finished → wider.status = .finished ∧
        wider.machine.world = plain.machine.world ∧ wider.machine.log = plain.machine.log) ∧
    ∀ (program : Program) (name : String) (params : List String) (args : List Int)
      (place callSite : Option Location) (limit : Nat) (verbose : Bool) (world : World),
      (∀ passed location, ¬program.Has (.call name passed location)) →
      let plain := program.run limit verbose world
      let wrapped := (program.wrapped name params args place callSite).run (limit + 1) verbose world
      let trace := program.trace limit world
      plain.status = .finished → wrapped.status = .finished ∧
        wrapped.machine.world = plain.machine.world ∧
        plain.machine.log = (Log.start verbose).addAll trace ∧
        wrapped.machine.log = (Log.start verbose).addAll
          (⟨0, .call, callSite, world.robot⟩ :: trace.map Step.later) := by
  constructor
  · intro functions limit instrs inner outer machine other more worlds logs plain wider finished
    let program : Program := ⟨"", functions, instrs⟩
    have same : ∀ name args location, program.Has (.call name args location) →
        functions.get? name = program.functions.get? name := fun _ _ _ _ => rfl
    exact Program.execBlock_wider same limit more worlds logs finished
  · intro program name params args place callSite limit verbose world uncalled plain wrapped trace
      finished
    have run {verbose : Bool} (finished : (program.run limit verbose world).status = .finished) :=
      Program.run_wrapped uncalled params args place callSite finished
    have loud := (program.run_verbosity limit verbose true world).2.finished_of finished
    rcases (run loud).2.2 with ⟨steps, first, second⟩
    have steps_eq : trace = steps := by
      simp only [trace, Program.trace, first, Log.addAll_start, if_true]
    have traced : (program.wrapped name params args place callSite).trace (limit + 1) world =
        ⟨0, .call, callSite, world.robot⟩ :: trace.map Step.later := by
      have whole : (Log.start true).addAll (⟨0, .call, callSite, world.robot⟩ ::
          steps.map Step.later) = ((Log.start true).add ⟨0, .call, callSite, world.robot⟩).addAll
            (steps.map Step.later) := rfl
      rw [Program.trace, second, ← whole, Log.addAll_start, steps_eq]
      rfl
    refine ⟨(run finished).1, (run finished).2.1, program.log_eq_addAll_trace .., ?_⟩
    rw [← traced]
    exact Program.log_eq_addAll_trace ..

/-- The inner function turns as often as its caller was told, whatever is bound around it. -/
def errand : Program where
  file := "errand"
  functions := ⟨[("F", ⟨"F", ["k"], [.call "G" [] none], none⟩),
    ("G", ⟨"G", [], [.loop (.identifier "k") [.act .left "LEFT" none] none], none⟩)]⟩
  statements := [.call "F" [.literal 2] none, .act .forward "FORWARD" none]

theorem outer_names_keep_run_of_errand :
    let outer := (Scope.root.enter ["m"] [7]).enter ["n"] [2]
    outer.Extends bench.scope ∧
    (∀ passed location, ¬errand.Has (.call "Main" passed location)) ∧
    let plain := execBlock turning (enter turning 5) bench.scope drill bench
    let wider := execBlock turning (enter turning 5) outer drill bench
    let wrapped := (errand.wrapped "Main" ["k", "q"] [9] none none).run 3 true aisle
    plain.status = .finished ∧ plain.machine.log.count = 8 ∧ wider.status = .finished ∧
    wider.machine.world = plain.machine.world ∧ wider.machine.log = plain.machine.log ∧
    (errand.run 2 true aisle).status = .finished ∧ (errand.trace 2 aisle).length = 6 ∧
    wrapped.status = .finished ∧
    wrapped.machine.world = (errand.run 2 true aisle).machine.world ∧
    wrapped.machine.log = (Log.start true).addAll
      (⟨0, .call, none, ⟨0, 0, .east⟩⟩ :: (errand.trace 2 aisle).map Step.later) := by
  intro outer
  have more : outer.Extends bench.scope := (Scope.extends_root _).enter ["n"] [2]
  have uncalled : ∀ passed location, ¬errand.Has (.call "Main" passed location) := by
    intro passed location has
    have member := Program.mem_nodes_iff.mpr has
    have nodes : errand.nodes = [.call "F" [.literal 2] none, .act .forward "FORWARD" none,
        .call "G" [] none, .loop (.identifier "k") [.act .left "LEFT" none] none,
        .act .left "LEFT" none] := rfl
    rw [nodes] at member
    simp at member
  rcases outer_names_keep_run with ⟨wider, wrapped⟩
  have wider := wider turning 5 drill bench.scope outer bench bench more rfl rfl rfl
  have wrapped := wrapped errand "Main" ["k", "q"] [9] none none 2 true aisle uncalled rfl
  exact ⟨more, uncalled, rfl, by decide, wider.1, wider.2.1, wider.2.2, rfl, by decide, wrapped.1,
    wrapped.2.1, wrapped.2.2.2⟩

end Lamplighter
