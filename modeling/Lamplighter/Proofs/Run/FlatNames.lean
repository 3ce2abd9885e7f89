import Mathlib.Logic.Function.Basic
import Lamplighter.Proofs.Run.Agreement
import Lamplighter.Proofs.Table

/-! Scopes inside scopes against one map of names.

The second runner below keeps no frames and no scopes: it hands on a single map, and a call
runs with the caller's map, written over by what it binds. Main statement:
`flat_names_suffice`. -/

namespace Lamplighter

namespace Flat

/-- What each name stands for. -/
abbrev Names := String → Option Int

/-- The names written over by the pairs, the last of them last. -/
def override (names : Names) (pairs : List (String × Int)) : Names :=
  pairs.foldl (fun names pair => Function.update names pair.1 (some pair.2)) names

def eval (names : Names) : Expr → Except Cause Int
  | .literal value => .ok value
  | .identifier name =>
    match names name with
    | some value => .ok value
    | none => .error (.unresolved name)
  | .unknown => .error .unknownExpr

def evalAll (names : Names) : List Expr → Except Cause (List Int)
  | [] => .ok []
  | expr :: exprs => do
    let value ← eval names expr
    let values ← evalAll names exprs
    return value :: values

structure State where
  world : World
  log : Log

inductive Ending where
  | returned
  | failed (cause : Cause) (location : Option Location)
  | tooDeep

structure Result where
  state : State
  ending : Ending

def State.record (state : State) (rule : Rule) (location : Option Location) : State :=
  { state with log := state.log.add ⟨state.log.count, rule, location, state.world.robot⟩ }

def State.perform (state : State) (opcode : Opcode) : State :=
  { state with world := state.world.perform opcode }

def Result.andThen (result : Result) (next : State → Result) : Result :=
  match result.ending with
  | .returned => next result.state
  | _ => result

def times (run : State → Result) : Nat → State → Result
  | 0, state => ⟨state, .returned⟩
  | count + 1, state => (run state).andThen (times run count)

/-- What a call does for these arguments, made with these names. -/
abbrev Call := FunDef → List Int → Names → State → Result

mutual

def run (functions : Table FunDef) (call : Call) (names : Names) : Instr → State → Result
  | .act opcode _ location, state =>
    ⟨(state.record (.act opcode) location).perform opcode, .returned⟩
  | .loop count body location, state =>
    let state := state.record .loop location
    match eval names count with
    | .error cause => ⟨state, .failed cause location⟩
    | .ok count => times (fun state => runBlock functions call names body state) count.toNat state
  | .call name args location, state =>
    let state := state.record .call location
    match functions.get? name with
    | none => ⟨state, .returned⟩
    | some function =>
      match evalAll names args with
      | .error cause => ⟨state, .failed cause location⟩
      | .ok values => call function values names state
  | .unknown location, state => ⟨state, .failed .unknownInstr location⟩

def runBlock (functions : Table FunDef) (call : Call) (names : Names) : List Instr → State → Result
  | [], state => ⟨state, .returned⟩
  | instr :: instrs, state =>
    (run functions call names instr state).andThen fun state =>
      runBlock functions call names instrs state

end

/-- So many calls may be nested. -/
def call (functions : Table FunDef) : Nat → Call
  | 0, _, _, _, state => ⟨state, .tooDeep⟩
  | depth + 1, function, args, names, state =>
    runBlock functions (call functions depth) (override names (function.params.zip args))
      function.body state

theorem override_apply (names : Names) (pairs : List (String × Int)) (name : String) :
    override names pairs name = ((Table.ofList pairs).get? name).or (names name) := by
  -- From the end, since it is the last pair of a name that counts.
  induction pairs using List.reverseRecOn with
  | nil => rfl
  | append_singleton pairs pair ih =>
      have last : override names (pairs ++ [pair]) =
          Function.update (override names pairs) pair.1 (some pair.2) := by
        rw [override, List.foldl_append]
        rfl
      rw [last, Table.ofList_snoc, Table.get?_insert, Function.update_apply, ih]
      split <;> rfl

/-- The tables as one map, in which the innermost binding of each name is left. -/
def flatten : List (Table Int) → Names
  | [] => fun _ => none
  | bindings :: outer => fun name => (bindings.get? name).or (flatten outer name)

end Flat

namespace Scope

def flat (scope : Scope) : Flat.Names := Flat.flatten (scope.bindings :: scope.outer)

theorem flat_apply (scope : Scope) (name : String) : scope.flat name = scope.find? name := by
  have found (tables : List (Table Int)) :
      Flat.flatten tables name = tables.findSome? fun bindings => bindings.get? name := by
    induction tables with
    | nil => rfl
    | cons bindings outer ih =>
        change (bindings.get? name).or (Flat.flatten outer name) = _
        rw [ih, List.findSome?_cons]
        cases bindings.get? name <;> rfl
  exact found _

theorem flat_enter (caller : Scope) (params : List String) (args : List Int) :
    (caller.enter params args).flat = Flat.override caller.flat (params.zip args) := by
  funext name
  rw [Flat.override_apply]
  rfl

example :
    let scope := (Scope.root.enter ["a", "b"] [1, 2]).enter ["a", "c"] [3]
    ["a", "b", "c"].map scope.flat = [some 3, some 2, none] := by decide

theorem eval_flat (scope : Scope) (expr : Expr) : Flat.eval scope.flat expr = scope.eval expr := by
  cases expr with
  | literal | unknown => rfl
  | identifier name =>
      cases found : scope.find? name <;>
        simp only [Flat.eval, Scope.eval, flat_apply, found]

theorem evalAll_flat (scope : Scope) (exprs : List Expr) :
    Flat.evalAll scope.flat exprs = scope.evalAll exprs := by
  induction exprs with
  | nil => rfl
  | cons expr exprs ih => rw [Flat.evalAll, Scope.evalAll, eval_flat, ih]

end Scope

/-- A machine without its frames. -/
def Machine.plain (machine : Machine) : Flat.State := ⟨machine.world, machine.log⟩

def Status.plain : Status → Flat.Ending
  | .finished => .returned
  | .failed fault => .failed fault.cause fault.location
  | .tooDeep => .tooDeep

def Outcome.plain (outcome : Outcome) : Flat.Result := ⟨outcome.machine.plain, outcome.status.plain⟩

namespace Flat

/-- An outcome has the one of the second runner for its plain part, and its frames are those
of the machine at the start, at other steps perhaps. -/
structure Follows (machine : Machine) (outcome : Outcome) (result : Result) : Prop where
  result : outcome.plain = result
  settled : outcome.machine.settled = machine.settled

variable {machine : Machine} {outcome : Outcome} {result : Result}

theorem Follows.of_settled {next : Machine} (follows : Follows next outcome result)
    (same : next.settled = machine.settled) : Follows machine outcome result :=
  ⟨follows.result, follows.settled.trans same⟩

theorem Follows.andThen {first : Machine → Outcome} {second : State → Result}
    (follows : Follows machine outcome result)
    (next : ∀ machine : Machine, Follows machine (first machine) (second machine.plain)) :
    Follows machine (outcome.andThen first) (result.andThen second) := by
  obtain ⟨rfl, same⟩ := follows
  rcases outcome with ⟨last, status⟩
  cases status with
  | finished => exact (next last).of_settled same
  | failed | tooDeep => exact ⟨rfl, same⟩

theorem Follows.pop {frame : Frame} (follows : Follows (machine.push frame) outcome result) :
    Follows machine outcome.pop result := by
  refine ⟨follows.result, ?_⟩
  change outcome.machine.pop.settled = machine.settled
  rw [Machine.settled_pop, follows.settled, Machine.settled_push, List.tail_cons]

theorem follows_iterate {first : Machine → Outcome} {second : State → Result} (count : Nat)
    (once : ∀ machine : Machine, Follows machine (first machine) (second machine.plain))
    (machine : Machine) :
    Follows machine (iterate first count machine) (times second count machine.plain) := by
  induction count generalizing machine with
  | zero => exact ⟨rfl, rfl⟩
  | succ count ih => exact (once machine).andThen ih

/-- Calls of the two runners go together. -/
def Enters (enter : Enter) (call : Call) : Prop :=
  ∀ function args scope location (machine : Machine),
    Follows machine (enter function args scope location machine)
      (call function args scope.flat machine.plain)

section Tree

variable {functions : Table FunDef} {enter : Enter} {call : Call} {scope : Scope}

mutual

theorem follows_exec (enters : Enters enter call) (instr : Instr) (machine : Machine) :
    Follows machine (instr.exec functions enter scope machine)
      (run functions call scope.flat instr machine.plain) := by
  cases instr with
  | act opcode text location => exact ⟨rfl, Machine.settled_record ..⟩
  | unknown location => exact ⟨rfl, rfl⟩
  | loop count body location =>
      have logged := Machine.settled_record machine .loop location
      rw [Instr.exec, run, Scope.eval_flat]
      cases scope.eval count with
      | error cause => exact ⟨rfl, logged⟩
      | ok value =>
          refine Follows.of_settled ?_ logged
          exact follows_iterate value.toNat (follows_execBlock enters body) _
  | call name args location =>
      have logged := Machine.settled_record machine .call location
      rw [Instr.exec, run, Scope.evalAll_flat]
      cases functions.get? name with
      | none => exact ⟨rfl, logged⟩
      | some function =>
          cases scope.evalAll args with
          | error cause => exact ⟨rfl, logged⟩
          | ok values => exact (enters function values scope location _).of_settled logged
termination_by structural instr

theorem follows_execBlock (enters : Enters enter call) (instrs : List Instr) (machine : Machine) :
    Follows machine (execBlock functions enter scope instrs machine)
      (runBlock functions call scope.flat instrs machine.plain) := by
  cases instrs with
  | nil => exact ⟨rfl, rfl⟩
  | cons instr instrs =>
      exact (follows_exec enters instr machine).andThen (follows_execBlock enters instrs)
termination_by structural instrs

end

end Tree

/-- On the calls that are left, as both runners go down them. -/
theorem enters_enter (functions : Table FunDef) (depth : Nat) :
    Enters (enter functions depth) (call functions depth) := by
  induction depth with
  | zero => exact fun _ _ _ _ _ => ⟨rfl, rfl⟩
  | succ depth ih =>
      intro function args scope location machine
      rw [call, ← Scope.flat_enter]
      exact (follows_execBlock ih function.body _).pop

end Flat

/-- From any machine and in any scope, a block does with the scopes inside each other what it
does with the one map that is left of them, that of the innermost bindings: it leaves the same
world and the same log, and ends in the same way, with a fault of the same cause at the same
line. A call leaves all frames the names that they had, so in the caller each of them stands
for what it did. -/
theorem flat_names_suffice (functions : Table FunDef) (limit : Nat) (scope : Scope)
    (machine : Machine) :
    (∀ name, scope.flat name = scope.find? name) ∧
    (∀ instrs, (execBlock functions (enter functions limit) scope instrs machine).plain =
      Flat.runBlock functions (Flat.call functions limit) scope.flat instrs machine.plain) ∧
    ∀ name args location,
      let call := Instr.call name args location
      let left := (call.exec functions (enter functions limit) scope machine).machine
      left.stack.map Frame.scope = machine.stack.map Frame.scope ∧
      ∀ reference, left.scope.find? reference = machine.scope.find? reference := by
  have enters := Flat.enters_enter functions limit
  refine ⟨scope.flat_apply, ?_, ?_⟩
  · intro instrs
    exact (Flat.follows_execBlock enters instrs machine).result
  · intro name args location call left
    have same : left.settled = machine.settled := (Flat.follows_exec enters call machine).settled
    constructor
    · have scopes := congrArg (List.map Frame.scope) same
      rwa [Machine.settled, Machine.settled, List.map_map, List.map_map] at scopes
    · intro reference
      rw [Machine.scope_eq_of_settled same]

end Lamplighter
