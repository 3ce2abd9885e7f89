import Lamplighter.Proofs.Run.Agenda
import Lamplighter.Proofs.Table

/-! Programs whose runs cannot fail.

A function that names only its own parameters finds them all bound, whoever called it
and from however deep, as long as every call brings enough arguments. Main statement:
`scoped_run_never_fails`. -/

namespace Lamplighter

/-- A literal, or one of the names. -/
def Expr.Among (names : List String) : Expr → Prop
  | .literal _ => True
  | .identifier name => name ∈ names
  | .unknown => False

mutual

/-- What the instruction evaluates when it runs is among the names, and a defined
function is called with an argument for each parameter. What is handed to an undefined
one does not matter. -/
def Instr.Scoped (functions : Table FunDef) (names : List String) : Instr → Prop
  | .act _ _ _ => True
  | .loop count body _ => count.Among names ∧ ScopedBlock functions names body
  | .call name args _ =>
    match functions.get? name with
    | none => True
    | some function => (∀ arg ∈ args, arg.Among names) ∧ function.params.length ≤ args.length
  | .unknown _ => False

def ScopedBlock (functions : Table FunDef) (names : List String) : List Instr → Prop
  | [] => True
  | instr :: instrs => instr.Scoped functions names ∧ ScopedBlock functions names instrs

end

/-- The main program evaluates literals only, and each function literals and its own
parameters. -/
structure Program.Scoped (program : Program) : Prop where
  main : ScopedBlock program.functions [] program.statements
  bodies : ∀ entry ∈ program.functions.entries,
    ScopedBlock program.functions entry.2.params entry.2.body

section Decidable

instance (names : List String) : (expr : Expr) → Decidable (expr.Among names)
  | .literal _ => inferInstanceAs (Decidable True)
  | .identifier name => inferInstanceAs (Decidable (name ∈ names))
  | .unknown => inferInstanceAs (Decidable False)

mutual

def Instr.decideScoped (functions : Table FunDef) (names : List String) :
    (instr : Instr) → Decidable (instr.Scoped functions names)
  | .act _ _ _ => inferInstanceAs (Decidable True)
  | .loop count body _ =>
      have := decideScopedBlock functions names body
      inferInstanceAs (Decidable (count.Among names ∧ ScopedBlock functions names body))
  | .call name args _ =>
      decidable_of_iff (∀ function ∈ functions.get? name,
          (∀ arg ∈ args, arg.Among names) ∧ function.params.length ≤ args.length) (by
        rw [Instr.Scoped]
        cases functions.get? name <;> simp)
  | .unknown _ => inferInstanceAs (Decidable False)

def decideScopedBlock (functions : Table FunDef) (names : List String) :
    (instrs : List Instr) → Decidable (ScopedBlock functions names instrs)
  | [] => inferInstanceAs (Decidable True)
  | instr :: instrs =>
      have := instr.decideScoped functions names
      have := decideScopedBlock functions names instrs
      inferInstanceAs (Decidable (instr.Scoped functions names ∧ ScopedBlock functions names instrs))

end

instance (functions : Table FunDef) (names : List String) (instrs : List Instr) :
    Decidable (ScopedBlock functions names instrs) := decideScopedBlock functions names instrs

instance (program : Program) : Decidable program.Scoped :=
  decidable_of_iff (ScopedBlock program.functions [] program.statements ∧
      ∀ entry ∈ program.functions.entries,
        ScopedBlock program.functions entry.2.params entry.2.body)
    ⟨fun parts => ⟨parts.1, parts.2⟩, fun within => ⟨within.main, within.bodies⟩⟩

end Decidable

namespace Scope

variable {scope : Scope} {names : List String}

/-- Each of the names has a value here. -/
def Binds (scope : Scope) (names : List String) : Prop :=
  ∀ name ∈ names, ∃ value, scope.find? name = some value

theorem Binds.eval (binds : scope.Binds names) {expr : Expr} (among : expr.Among names) :
    ∃ value, scope.eval expr = .ok value := by
  cases expr with
  | literal value => exact ⟨value, rfl⟩
  | unknown => exact among.elim
  | identifier name =>
      obtain ⟨value, found⟩ := binds name among
      exact ⟨value, by rw [Scope.eval, found]⟩

theorem evalAll_cons_eq_ok_iff {expr : Expr} {exprs : List Expr} {values : List Int} :
    scope.evalAll (expr :: exprs) = .ok values ↔
      ∃ value rest, scope.eval expr = .ok value ∧ scope.evalAll exprs = .ok rest ∧
        values = value :: rest := by
  simp only [evalAll, bind_eq_ok, pure, Except.pure, Except.ok.injEq]
  constructor
  · rintro ⟨value, first, rest, others, rfl⟩
    exact ⟨value, rest, first, others, rfl⟩
  · rintro ⟨value, rest, first, others, rfl⟩
    exact ⟨value, first, rest, others, rfl⟩

theorem Binds.evalAll (binds : scope.Binds names) {exprs : List Expr}
    (among : ∀ expr ∈ exprs, expr.Among names) : ∃ values, scope.evalAll exprs = .ok values := by
  induction exprs with
  | nil => exact ⟨[], rfl⟩
  | cons expr exprs ih =>
      obtain ⟨value, first⟩ := binds.eval (among expr (.head _))
      obtain ⟨rest, others⟩ := ih fun other member => among other (.tail _ member)
      exact ⟨value :: rest, evalAll_cons_eq_ok_iff.mpr ⟨value, rest, first, others, rfl⟩⟩

theorem length_evalAll {exprs : List Expr} {values : List Int}
    (evaluated : scope.evalAll exprs = .ok values) : values.length = exprs.length := by
  induction exprs generalizing values with
  | nil =>
      cases evaluated
      rfl
  | cons expr exprs ih =>
      obtain ⟨value, rest, _, others, rfl⟩ := evalAll_cons_eq_ok_iff.mp evaluated
      rw [List.length_cons, List.length_cons, ih others]

/-- Arguments may be left over, and of a parameter that comes twice one value is lost;
bound are all of them. -/
theorem binds_enter (caller : Scope) {params : List String} {values : List Int}
    (enough : params.length ≤ values.length) : (caller.enter params values).Binds params := by
  intro name member
  have keys : (params.zip values).map Prod.fst = params := List.map_fst_zip enough
  rw [← keys] at member
  obtain ⟨entry, paired, rfl⟩ := List.mem_map.mp member
  have bound : (Table.lastValue (params.zip values) entry.1).isSome = true := by
    rw [Table.lastValue, List.lookup_isSome_iff]
    exact ⟨entry, List.mem_reverse.mpr paired, beq_self_eq_true _⟩
  obtain ⟨value, found⟩ := Option.isSome_iff_exists.mp bound
  rw [← Table.get?_ofList] at found
  exact ⟨value, by simp only [find?, enter, List.findSome?_cons, found]⟩

end Scope

namespace Machine

/-- The scopes of the active calls, from the innermost on. -/
def scopes (machine : Machine) : List Scope := machine.settled.map Frame.scope

theorem scope_eq (machine : Machine) : machine.scope = machine.scopes.headD .root := by
  rcases machine with ⟨world, stack, log⟩
  cases stack <;> rfl

theorem scopes_record (machine : Machine) (rule : Rule) (location : Option Location) :
    (machine.record rule location).scopes = machine.scopes := by
  rw [scopes, settled_record, scopes]

theorem scopes_pop (machine : Machine) : machine.pop.scopes = machine.scopes.tail := by
  simp only [scopes, settled_pop, List.map_tail]

end Machine

theorem Table.mem_entries_of_get? {α : Type} {table : Table α} {name : String} {value : α}
    (found : table.get? name = some value) : (name, value) ∈ table.entries := by
  obtain ⟨before, after, parts, _⟩ := List.lookup_eq_some_iff.mp found
  rw [parts]
  simp

/-- The task needs the names and no others. Leaving a call is apart from these, as it
is done in the name of the caller. -/
def Task.Scoped (functions : Table FunDef) (names : List String) : Task → Prop
  | .instr next => next.Scoped functions names
  | .effect current => current.Scoped functions names
  | .again _ body => ScopedBlock functions names body
  | .leave => False

/-- Each task runs in a scope that binds what the task needs: the innermost one up to
where the call is left, and then the one around it. -/
inductive Provided (functions : Table FunDef) : List Task → List Scope → Prop where
  | nothing {scopes : List Scope} : Provided functions [] scopes
  | task {task : Task} {names : List String} {agenda : List Task} {scopes : List Scope}
      (within : task.Scoped functions names) (binds : (scopes.headD .root).Binds names)
      (later : Provided functions agenda scopes) : Provided functions (task :: agenda) scopes
  | leave {agenda : List Task} {scopes : List Scope}
      (later : Provided functions agenda scopes.tail) : Provided functions (.leave :: agenda) scopes

theorem Provided.block {functions : Table FunDef} {names : List String} {scopes : List Scope}
    {instrs : List Instr} {agenda : List Task} (within : ScopedBlock functions names instrs)
    (binds : (scopes.headD .root).Binds names) (later : Provided functions agenda scopes) :
    Provided functions (tasks instrs ++ agenda) scopes := by
  induction instrs with
  | nil => exact later
  | cons instr instrs ih => exact .task within.1 binds (ih within.2)

namespace Instr

variable {functions : Table FunDef} {names : List String} {name : String} {args : List Expr}
  {location : Option Location} {function : FunDef}

theorem Scoped.call (within : (Instr.call name args location).Scoped functions names)
    (defined : functions.get? name = some function) :
    (∀ arg ∈ args, arg.Among names) ∧ function.params.length ≤ args.length := by
  rwa [Instr.Scoped, defined] at within

end Instr

namespace Moment

variable {functions : Table FunDef} {limit : Nat}

/-- Every task finds what it evaluates. -/
def Supplied (functions : Table FunDef) (moment : Moment) : Prop :=
  Provided functions moment.agenda moment.machine.scopes

theorem Supplied.next {before after : Moment} (supplied : before.Supplied functions)
    (bodies : ∀ entry ∈ functions.entries, ScopedBlock functions entry.2.params entry.2.body)
    (move : Next functions before after) : after.Supplied functions := by
  unfold Supplied at supplied ⊢
  cases move with
  | log =>
      rw [Machine.scopes_record]
      cases supplied with
      | task within binds later => exact .task within binds later
  | act | skip | through =>
      cases supplied with
      | task _ _ later => exact later
  | loop =>
      cases supplied with
      | task within binds later => exact .task within.2 binds later
  | again =>
      cases supplied with
      | task within binds later => exact .block within binds (.task within binds later)
  | @enter name args location _ machine function values defined evaluated =>
      cases supplied with
      | task within binds later =>
          have called : (Instr.call name args location).Scoped functions _ := within
          have enough := (called.call defined).2
          rw [← Scope.length_evalAll evaluated] at enough
          have body := bodies _ (Table.mem_entries_of_get? defined)
          exact .block body (Scope.binds_enter machine.scope enough) (.leave later)
  | leave =>
      rw [Machine.scopes_pop]
      cases supplied with
      | task within => exact within.elim
      | leave later => exact later

/-- Where every task is supplied the next one can be done. -/
theorem Supplied.progress {moment : Moment} (supplied : moment.Supplied functions) :
    moment.agenda = [] ∨ ∃ after, Next functions moment after := by
  rcases moment with ⟨agenda, machine⟩
  cases supplied with
  | nothing => exact .inl rfl
  | leave => exact .inr ⟨_, .leave⟩
  | @task task names _ _ within binds =>
      right
      rw [← Machine.scope_eq] at binds
      match task, within with
      | .again 0 _, _ => exact ⟨_, .through⟩
      | .again (_ + 1) _, _ => exact ⟨_, .again⟩
      | .instr (.act ..), _ | .instr (.loop ..), _ | .instr (.call ..), _ => exact ⟨_, .log rfl⟩
      | .effect (.act ..), _ => exact ⟨_, .act⟩
      | .effect (.loop ..), within =>
          obtain ⟨value, evaluated⟩ := binds.eval within.1
          exact ⟨_, .loop evaluated⟩
      | .effect (.call name args location), within =>
          cases defined : functions.get? name with
          | none => exact ⟨_, .skip defined⟩
          | some function =>
              have called : (Instr.call name args location).Scoped functions names := within
              obtain ⟨values, evaluated⟩ := binds.evalAll (called.call defined).1
              exact ⟨_, .enter defined evaluated⟩

/-- A run fails only where something is left to do and cannot be done. -/
theorem Ends.stuck {moment : Moment} {fault : Fault}
    (ends : Ends functions limit moment (.failed fault)) :
    ¬ (moment.agenda = [] ∨ ∃ after, Next functions moment after) := by
  rintro (through | ⟨after, move⟩)
  · cases ends <;> cases through
  · cases ends with
    | unknown =>
        cases move with
        | log logged => cases logged
    | loop unresolved =>
        cases move with
        | loop evaluated =>
            rw [unresolved] at evaluated
            cases evaluated
    | call defined unresolved =>
        cases move with
        | skip undefined =>
            rw [undefined] at defined
            cases defined
        | enter _ evaluated =>
            rw [unresolved] at evaluated
            cases evaluated

end Moment

theorem Program.Scoped.supplied {program : Program} (within : program.Scoped) {verbose : Bool}
    {world : World} {moment : Moment} (visited : program.Visits verbose world moment) :
    moment.Supplied program.functions := by
  refine visited.invariant (Moment.Supplied program.functions) ?_ ?_
  · have binds : Scope.root.Binds [] := fun name member => absurd member List.not_mem_nil
    have block : Provided program.functions (tasks program.statements ++ []) [.root] :=
      .block within.main binds .nothing
    rwa [List.append_nil] at block
  · intro before after _ move supplied
    exact supplied.next within.bodies move

/-- A program whose functions name nothing but their own parameters, and are called with
enough arguments, never fails: at each moment of its run it is through or can go on,
and no limit on nested calls ends it in a fault. -/
theorem scoped_run_never_fails (program : Program) (within : program.Scoped) (verbose : Bool)
    (world : World) :
    (∀ moment, program.Visits verbose world moment →
      moment.agenda = [] ∨ ∃ after, Moment.Next program.functions moment after) ∧
    ∀ limit, (program.run limit verbose world).status = .finished ∨
      (program.run limit verbose world).status = .tooDeep := by
  have goesOn (moment : Moment) (visited : program.Visits verbose world moment) :=
    (within.supplied visited).progress
  refine ⟨goesOn, ?_⟩
  intro limit
  obtain ⟨last, visited, ends, -⟩ := program.run_visits limit verbose world
  cases status : (program.run limit verbose world).status with
  | finished => exact .inl rfl
  | tooDeep => exact .inr rfl
  | failed fault =>
      rw [status] at ends
      exact absurd (goesOn last visited) ends.stuck

/-- It calls itself without end through a parameter that is bound twice, and hands a name
that nothing binds to a function that there is not. -/
def whirl : Text.Source :=
  .pieces ["FUNCTION F(n,n)", "REPEAT n", "CALL F(n,n,7)", "CALL G(q)", "ENDREPEAT", "ENDFUNCTION",
    "CALL F(0,1)"]

def whirlProgram : Program where
  file := "whirl"
  functions := ⟨[("F", ⟨"F", ["n", "n"],
    [.loop (.identifier "n")
      [.call "F" [.identifier "n", .identifier "n", .literal 7] (some ⟨"whirl", 3, 1, "CALL F(n,n,7)"⟩),
        .call "G" [.identifier "q"] (some ⟨"whirl", 4, 1, "CALL G(q)"⟩)]
      (some ⟨"whirl", 2, 1, "REPEAT n"⟩)],
    some ⟨"whirl", 1, 1, "FUNCTION F(n,n)"⟩⟩)]⟩
  statements := [.call "F" [.literal 0, .literal 1] (some ⟨"whirl", 7, 1, "CALL F(0,1)"⟩)]

theorem ofSource_whirl : Token.ofSource whirl =
    [⟨.define, "F(n,n)", 1, 1, "FUNCTION F(n,n)"⟩, ⟨.loop, "n", 2, 1, "REPEAT n"⟩,
      ⟨.call, "F(n,n,7)", 3, 1, "CALL F(n,n,7)"⟩, ⟨.call, "G(q)", 4, 1, "CALL G(q)"⟩,
      ⟨.endLoop, "", 5, 1, "ENDREPEAT"⟩, ⟨.endDefine, "", 6, 1, "ENDFUNCTION"⟩,
      ⟨.call, "F(0,1)", 7, 1, "CALL F(0,1)"⟩] := by decide

theorem parse_whirl : Program.parse whirl "whirl" = .ok whirlProgram := by
  rw [Program.parse_eq_ok_iff, ofSource_whirl]
  refine ⟨rfl, ?_, ?_⟩
  · exact .define rfl (.loop rfl rfl (.call rfl rfl (.call rfl rfl .nil)) .nil)
      (.other (by decide) .nil)
  · exact .define rfl (.call rfl rfl .nil)

theorem scoped_run_never_fails_of_whirl :
    Program.parse whirl "whirl" = .ok whirlProgram ∧ whirlProgram.Scoped ∧
    (∀ moment, whirlProgram.Visits true ⟨⟨1, 1, [[.empty]]⟩, ⟨0, 0, .east⟩⟩ moment →
      moment.agenda = [] ∨ ∃ after, Moment.Next whirlProgram.functions moment after) ∧
    ∀ limit, (whirlProgram.run limit true ⟨⟨1, 1, [[.empty]]⟩, ⟨0, 0, .east⟩⟩).status = .finished ∨
      (whirlProgram.run limit true ⟨⟨1, 1, [[.empty]]⟩, ⟨0, 0, .east⟩⟩).status = .tooDeep := by
  have within : whirlProgram.Scoped := by decide
  exact ⟨parse_whirl, within, scoped_run_never_fails whirlProgram within true _⟩

end Lamplighter
