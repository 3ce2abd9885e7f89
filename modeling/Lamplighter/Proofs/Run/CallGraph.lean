import Mathlib.Data.List.Perm.Subperm
import Lamplighter.Proofs.Run.CallChain
import Lamplighter.Proofs.Run.Ending

/-! Programs whose functions do not call each other in a circle.

The active calls are a path through the call graph. Where the graph has no cycle the path
comes through no function twice, so there are no more calls than functions, and the run
comes to its end. Main statement: `acyclic_run_ends`. -/

namespace Lamplighter

/-- A call of the one function stands in the body of the other, at any depth. -/
def Program.CallsInto (program : Program) (caller callee : String) : Prop :=
  ∃ function, program.functions.get? caller = some function ∧
    (program.functions.get? callee).isSome = true ∧
    ∃ args location, Occurs (.call callee args location) function.body

/-- No function comes back to itself along calls. -/
def Program.Acyclic (program : Program) : Prop :=
  ∀ name, ¬ Relation.TransGen program.CallsInto name name

/-- A number for each function that falls with every call rules out cycles. -/
theorem Program.acyclic_of_rank {program : Program} (rank : String → Nat)
    (falls : ∀ caller callee, program.CallsInto caller callee → rank callee < rank caller) :
    program.Acyclic := by
  have lower {first last : String} (path : Relation.TransGen program.CallsInto first last) :
      rank last < rank first := by
    induction path with
    | single call => exact falls _ _ call
    | tail _ call ih => exact Nat.lt_trans (falls _ _ call) ih
  intro name cycle
  exact Nat.lt_irrefl _ (lower cycle)

/-- The task runs only what stands in the block. -/
def Task.Within (block : List Instr) : Task → Prop
  | .instr next => Occurs next block
  | .effect current => Occurs current block
  | .again _ body => ∀ instr, Occurs instr body → Occurs instr block
  | .leave => False

namespace Machine

/-- The names of the active calls, from the innermost on. -/
def names (machine : Machine) : List String := machine.settled.map Frame.name

theorem names_eq (machine : Machine) : machine.names = machine.stack.map Frame.name := by
  rw [names, settled, List.map_map]
  rfl

theorem names_record (machine : Machine) (rule : Rule) (location : Option Location) :
    (machine.record rule location).names = machine.names := by
  rw [names, settled_record, names]

theorem names_pop (machine : Machine) : machine.pop.names = machine.names.tail := by
  simp only [names, settled_pop, List.map_tail]

end Machine

/-- The code that the innermost of these calls runs. The outermost one runs the main
program, whatever it is named. -/
def Program.codeOf (program : Program) : List String → List Instr
  | [] => []
  | [_] => program.statements
  | name :: _ :: _ =>
    match program.functions.get? name with
    | none => []
    | some function => function.body

theorem Program.codeOf_called {program : Program} {name : String} {function : FunDef}
    (defined : program.functions.get? name = some function) {names : List String}
    (active : names ≠ []) : program.codeOf (name :: names) = function.body := by
  cases names with
  | nil => exact absurd rfl active
  | cons caller names => rw [codeOf, defined]

/-- Each task belongs to the code of a call: to that of the innermost one up to where it
is left, and from there on to that of the one around it. -/
inductive AtHome (program : Program) : List Task → List String → Prop where
  | nothing {names : List String} : AtHome program [] names
  | task {task : Task} {agenda : List Task} {names : List String}
      (within : task.Within (program.codeOf names)) (later : AtHome program agenda names) :
      AtHome program (task :: agenda) names
  | leave {agenda : List Task} {names : List String} (later : AtHome program agenda names.tail) :
      AtHome program (.leave :: agenda) names

theorem AtHome.block {program : Program} {names : List String} {block : List Instr}
    {agenda : List Task} (inside : ∀ instr, Occurs instr block → Occurs instr (program.codeOf names))
    (later : AtHome program agenda names) : AtHome program (tasks block ++ agenda) names := by
  induction block with
  | nil => exact later
  | cons instr rest ih =>
      exact .task (inside instr .head) (ih fun other occurs => inside other (.tail occurs))

namespace Program

/-- The calls above the main program are of functions that there are, and each stands in
the body of the function around it. -/
structure Path (program : Program) (names : List String) : Prop where
  defined : ∀ name ∈ names, (program.functions.get? name).isSome = true
  calls : names.IsChain fun callee caller => program.CallsInto caller callee

variable {source : Text.Source} {file : String} {program : Program} {verbose : Bool} {world : World}
  {moment : Moment}

theorem Visits.names_ne_nil (visited : program.Visits verbose world moment) :
    moment.machine.names ≠ [] := by
  have count := visited.frames
  intro empty
  rw [Machine.names_eq, List.map_eq_nil_iff] at empty
  rw [empty, List.length_nil] at count
  omega

theorem Visits.atHome (parsed : Program.parse source file = .ok program)
    (visited : program.Visits verbose world moment) :
    AtHome program moment.agenda moment.machine.names := by
  refine visited.invariant (fun moment => AtHome program moment.agenda moment.machine.names) ?_ ?_
  · have main : AtHome program (tasks program.statements ++ []) [Frame.top.name] :=
      .block (fun _ occurs => occurs) .nothing
    rwa [List.append_nil] at main
  · intro before after path move home
    cases move with
    | log =>
        rw [Machine.names_record]
        cases home with
        | task within later => exact .task within later
    | act | skip | through =>
        cases home with
        | task _ later => exact later
    | loop =>
        cases home with
        | task within later => exact .task (fun instr inner => within.inside inner) later
    | again =>
        cases home with
        | task within later => exact .block within (.task within later)
    | enter defined evaluated =>
        cases home with
        | task _ later =>
            have code := codeOf_called defined path.names_ne_nil
            rw [← (function_of_parse parsed defined).1] at code
            refine .block ?_ (.leave later)
            intro instr occurs
            exact code ▸ occurs
    | leave =>
        rw [Machine.names_pop]
        cases home with
        | task within => exact within.elim
        | leave later => exact later

/-- A call goes from the body of the innermost function to the function that it names. -/
theorem Path.call {names : List String} (path : program.Path names.dropLast) {callee : String}
    {args : List Expr} {location : Option Location} (active : names ≠ [])
    (within : Occurs (.call callee args location) (program.codeOf names))
    (defined : (program.functions.get? callee).isSome = true) :
    program.Path (callee :: names).dropLast := by
  cases names with
  | nil => exact absurd rfl active
  | cons caller outer =>
      cases outer with
      | nil =>
          refine ⟨?_, .singleton callee⟩
          intro name member
          rw [List.mem_singleton.mp member]
          exact defined
      | cons next outer =>
          constructor
          · intro name member
            rcases List.mem_cons.mp member with rfl | earlier
            · exact defined
            · exact path.defined name earlier
          · have present := path.defined caller (.head _)
            obtain ⟨function, found⟩ := Option.isSome_iff_exists.mp present
            rw [codeOf, found] at within
            exact .cons_cons ⟨function, found, defined, args, location, within⟩ path.calls

theorem Visits.path (parsed : Program.parse source file = .ok program)
    (visited : program.Visits verbose world moment) :
    program.Path moment.machine.names.dropLast := by
  refine visited.invariant (fun moment => program.Path moment.machine.names.dropLast)
    ⟨fun name member => absurd member List.not_mem_nil, .nil⟩ ?_
  intro before after visited move path
  cases move with
  | log =>
      rw [Machine.names_record]
      exact path
  | act | loop | again | through | skip => exact path
  | @enter name args location agenda machine function values defined evaluated =>
      have home := visited.atHome parsed
      cases home with
      | task within =>
          have named := (function_of_parse parsed defined).1
          have known : (program.functions.get? function.name).isSome = true := by
            rw [named, defined]
            rfl
          have calls : Occurs (.call function.name args location)
              (program.codeOf machine.names) := by
            rw [named]
            exact within
          exact path.call visited.names_ne_nil calls known
  | @leave agenda machine =>
      rw [Machine.names_pop]
      obtain ⟨defined, calls⟩ := path
      have shorter : machine.names.tail.dropLast = machine.names.dropLast.tail := by
        simp only [List.dropLast_eq_take, ← List.drop_one, List.length_drop, List.drop_take]
      rw [shorter]
      exact ⟨fun name member => defined name (List.mem_of_mem_tail member), calls.tail⟩

/-- On a path without a way back no function comes twice. -/
theorem Path.nodup {names : List String} (path : program.Path names) (acyclic : program.Acyclic) :
    names.Nodup := by
  have backward : names.IsChain (Relation.TransGen (Function.swap program.CallsInto)) :=
    path.calls.imp fun _ _ call => .single call
  apply backward.pairwise.imp
  rintro callee caller called rfl
  exact acyclic callee (Relation.transGen_swap.mp called)

theorem Path.length_le {names : List String} (path : program.Path names) (acyclic : program.Acyclic) :
    names.length ≤ program.functions.entries.length := by
  have known : names ⊆ program.functions.keys := by
    intro name member
    obtain ⟨function, found⟩ := Option.isSome_iff_exists.mp (path.defined name member)
    exact List.mem_map_of_mem (f := Prod.fst) (Table.mem_entries_of_get? found)
  calc names.length
    _ ≤ program.functions.keys.length := ((path.nodup acyclic).subperm known).length_le
    _ = program.functions.entries.length := List.length_map _

/-- The frames above the main one are of different functions, and so no more than these. -/
theorem Visits.callsApart (parsed : Program.parse source file = .ok program)
    (acyclic : program.Acyclic) (visited : program.Visits verbose world moment) :
    moment.machine.stack.length ≤ 1 + program.functions.entries.length ∧
    ∃ last inner, moment.machine.stack = inner ++ [{ Frame.top with last := last }] ∧
      (inner.map Frame.name).Nodup := by
  have path := visited.path parsed
  obtain ⟨⟨last, top⟩, _⟩ := CallChain.reverse_iff.mp (visited.callChain parsed)
  obtain ⟨inner, stack⟩ := List.getLast?_eq_some_iff.mp top
  have names : moment.machine.names.dropLast = inner.map Frame.name := by
    rw [Machine.names_eq, stack, List.map_append, List.map_singleton, List.dropLast_concat]
  rw [names] at path
  constructor
  · have bound := path.length_le acyclic
    rw [List.length_map] at bound
    rw [stack, List.length_append, List.length_singleton]
    omega
  · exact ⟨last, inner, stack, path.nodup acyclic⟩

/-- With room for a call of each function no run is cut off, as the call that would be one
too many would be active at the moment after. -/
theorem status_ne_tooDeep (parsed : Program.parse source file = .ok program)
    (acyclic : program.Acyclic) {limit : Nat} (room : program.functions.entries.length ≤ limit)
    (verbose : Bool) (world : World) : (program.run limit verbose world).status ≠ .tooDeep := by
  obtain ⟨last, visited, ends, _⟩ := program.run_visits limit verbose world
  intro deep
  rw [deep] at ends
  cases ends with
  | tooDeep defined evaluated full =>
      have entered : program.Visits verbose world _ := visited.tail (.enter defined evaluated)
      have bound := (entered.callsApart parsed acyclic).1
      simp only [Machine.push, List.length_cons] at bound
      omega

end Program

/-- A parsed program without cycles of calls comes to an end on every world, with a fault
or without: it does so where as many calls may be nested as there are functions, and no
moves lead on for ever. All the while each function has one active call at most. -/
theorem acyclic_run_ends (source : Text.Source) (file : String) (program : Program)
    (parsed : Program.parse source file = .ok program) (acyclic : program.Acyclic) (verbose : Bool)
    (world : World) :
    (∀ limit, program.functions.entries.length ≤ limit →
      (program.run limit verbose world).status = .finished ∨
      ∃ fault, (program.run limit verbose world).status = .failed fault) ∧
    Moment.Finite program.functions (program.start verbose world) ∧
    ∀ moment, program.Visits verbose world moment →
      moment.machine.stack.length ≤ 1 + program.functions.entries.length ∧
      ∃ last inner, moment.machine.stack = inner ++ [{ Frame.top with last := last }] ∧
        (inner.map Frame.name).Nodup := by
  refine ⟨?_, ?_, fun moment visited => visited.callsApart parsed acyclic⟩
  · intro limit room
    have apart := Program.status_ne_tooDeep parsed acyclic room verbose world
    cases status : (program.run limit verbose world).status with
    | finished => exact .inl rfl
    | failed fault => exact .inr ⟨fault, rfl⟩
    | tooDeep => exact absurd status apart
  · exact Program.finite_of_status
      (Program.status_ne_tooDeep parsed acyclic (Nat.le_refl _) verbose world)

/-- The one function calls the other, in a loop and behind it. -/
def relay : Text.Source :=
  .pieces ["FUNCTION G(n)", "REPEAT n", "LIGHT", "ENDREPEAT", "ENDFUNCTION", "FUNCTION F(n)",
    "REPEAT n", "CALL G(2)", "ENDREPEAT", "CALL G(n)", "ENDFUNCTION", "CALL F(3)"]

def relayProgram : Program :=
  let line (number : Nat) (statement : String) : Option Location :=
    some ⟨"relay", number, 1, statement⟩
  let lights := Instr.loop (.identifier "n") [.act .light "LIGHT" (line 3 "LIGHT")]
    (line 2 "REPEAT n")
  let calls := Instr.loop (.identifier "n") [.call "G" [.literal 2] (line 8 "CALL G(2)")]
    (line 7 "REPEAT n")
  let once := Instr.call "G" [.identifier "n"] (line 10 "CALL G(n)")
  ⟨"relay",
    ⟨[("G", ⟨"G", ["n"], [lights], line 1 "FUNCTION G(n)"⟩),
      ("F", ⟨"F", ["n"], [calls, once], line 6 "FUNCTION F(n)"⟩)]⟩,
    [.call "F" [.literal 3] (line 12 "CALL F(3)")]⟩

theorem ofSource_relay : Token.ofSource relay =
    [⟨.define, "G(n)", 1, 1, "FUNCTION G(n)"⟩, ⟨.loop, "n", 2, 1, "REPEAT n"⟩,
      ⟨.line, "LIGHT", 3, 1, "LIGHT"⟩, ⟨.endLoop, "", 4, 1, "ENDREPEAT"⟩,
      ⟨.endDefine, "", 5, 1, "ENDFUNCTION"⟩, ⟨.define, "F(n)", 6, 1, "FUNCTION F(n)"⟩,
      ⟨.loop, "n", 7, 1, "REPEAT n"⟩, ⟨.call, "G(2)", 8, 1, "CALL G(2)"⟩,
      ⟨.endLoop, "", 9, 1, "ENDREPEAT"⟩, ⟨.call, "G(n)", 10, 1, "CALL G(n)"⟩,
      ⟨.endDefine, "", 11, 1, "ENDFUNCTION"⟩, ⟨.call, "F(3)", 12, 1, "CALL F(3)"⟩] := by decide

theorem parse_relay : Program.parse relay "relay" = .ok relayProgram := by
  rw [Program.parse_eq_ok_iff, ofSource_relay]
  refine ⟨rfl, ?_, ?_⟩
  · exact .define rfl (.loop rfl rfl (.act (.inl rfl) .nil) .nil)
      (.define rfl (.loop rfl rfl (.call rfl rfl .nil) (.call rfl rfl .nil)) (.other (by decide) .nil))
  · exact .define rfl (.define rfl (.call rfl rfl .nil))

theorem acyclic_relay : relayProgram.Acyclic := by
  apply Program.acyclic_of_rank fun name => if name = "F" then 1 else 0
  rintro caller callee ⟨function, found, _, args, location, occurs⟩
  have member := Table.mem_entries_of_get? found
  simp only [relayProgram, List.mem_cons, Prod.mk.injEq, List.not_mem_nil, or_false] at member
  rcases member with ⟨rfl, rfl⟩ | ⟨rfl, rfl⟩
  · cases occurs with
    | tail later => cases later
    | body inner =>
        cases inner with
        | tail later => cases later
  · have called : callee = "G" := by
      cases occurs with
      | body inner =>
          cases inner with
          | head => rfl
          | tail later => cases later
      | tail later =>
          cases later with
          | head => rfl
          | tail later => cases later
    rw [called]
    decide

/-- A floor of one cell. -/
def tile : World := ⟨⟨1, 1, [[.empty]]⟩, ⟨0, 0, .east⟩⟩

theorem acyclic_run_ends_of_relay :
    Program.parse relay "relay" = .ok relayProgram ∧ relayProgram.Acyclic ∧
    ((relayProgram.run 2 true tile).status = .finished ∨
      ∃ fault, (relayProgram.run 2 true tile).status = .failed fault) ∧
    Moment.Finite relayProgram.functions (relayProgram.start true tile) ∧
    ∀ moment, relayProgram.Visits true tile moment →
      moment.machine.stack.length ≤ 3 ∧
      ∃ last inner, moment.machine.stack = inner ++ [{ Frame.top with last := last }] ∧
        (inner.map Frame.name).Nodup := by
  obtain ⟨ended, finite, apart⟩ :=
    acyclic_run_ends relay "relay" relayProgram parse_relay acyclic_relay true tile
  exact ⟨parse_relay, acyclic_relay, ended 2 (Nat.le_refl 2), finite, apart⟩

end Lamplighter
