import Lamplighter.Proofs.Run.Blame

/-! Where the values of a run come from.

A value gets into a scope as an argument of a call, and there it stands as a literal or is what a
name further out is bound to. So each one that is bound at any time was written in the program.
Main statement: `Program.Visits.passed`. -/

namespace Lamplighter

namespace Table

variable {α : Type}

theorem mem_insert {table : Table α} {name : String} {value : α} {entry : String × α}
    (member : entry ∈ (table.insert name value).entries) :
    entry = (name, value) ∨ entry ∈ table.entries := by
  rcases table with ⟨entries⟩
  change entry ∈ write name value entries at member
  induction entries with
  | nil => exact .inl (List.mem_singleton.mp member)
  | cons first rest ih =>
      by_cases same : first.1 = name
      · rw [write, if_pos same] at member
        rcases List.mem_cons.mp member with here | later
        · exact .inl here
        · exact .inr (.tail _ later)
      · rw [write, if_neg same] at member
        rcases List.mem_cons.mp member with rfl | later
        · exact .inr (.head _)
        · rcases ih later with new | old
          · exact .inl new
          · exact .inr (.tail _ old)

theorem mem_ofList {entries : List (String × α)} {entry : String × α}
    (member : entry ∈ (ofList entries).entries) : entry ∈ entries := by
  induction entries using List.reverseRecOn with
  | nil => cases member
  | append_singleton entries last ih =>
      rw [ofList_snoc] at member
      rcases mem_insert member with rfl | earlier
      · exact List.mem_append_right _ (.head _)
      · exact List.mem_append_left _ (ih earlier)

end Table

namespace Scope

/-- Every value that the scope binds is one of these, how far out it may be. -/
def All (holds : Int → Prop) (scope : Scope) : Prop :=
  ∀ table ∈ scope.bindings :: scope.outer, ∀ entry ∈ table.entries, holds entry.2

variable {holds : Int → Prop} {scope : Scope}

theorem All.root : Scope.root.All holds := by
  intro table member
  rw [List.mem_singleton.mp member]
  intro entry among
  cases among

theorem All.eval (all : scope.All holds) {expr : Expr}
    (literal : ∀ value, expr = .literal value → holds value) {value : Int}
    (evaluated : scope.eval expr = .ok value) : holds value := by
  cases expr with
  | literal other =>
      cases evaluated
      exact literal _ rfl
  | unknown => cases evaluated
  | identifier name =>
      rw [Scope.eval] at evaluated
      cases found : scope.find? name with
      | none =>
          rw [found] at evaluated
          cases evaluated
      | some other =>
          rw [found] at evaluated
          cases evaluated
          rcases List.exists_of_findSome?_eq_some found with ⟨table, member, bound⟩
          exact all table member _ (Table.mem_entries_of_get? bound)

theorem All.evalAll (all : scope.All holds) {exprs : List Expr}
    (literals : ∀ value, .literal value ∈ exprs → holds value) {values : List Int}
    (evaluated : scope.evalAll exprs = .ok values) : ∀ value ∈ values, holds value := by
  induction exprs generalizing values with
  | nil =>
      cases evaluated
      intro value among
      cases among
  | cons expr exprs ih =>
      rcases evalAll_cons_eq_ok_iff.mp evaluated with ⟨first, rest, head, tail, rfl⟩
      refine List.forall_mem_cons.mpr ⟨?_, ?_⟩
      · refine all.eval (fun value same => ?_) head
        exact literals value (same ▸ .head _)
      · exact ih (fun value member => literals value (.tail _ member)) tail

theorem All.enter (all : scope.All holds) (params : List String) {values : List Int}
    (given : ∀ value ∈ values, holds value) : (scope.enter params values).All holds := by
  refine List.forall_mem_cons.mpr ⟨?_, all⟩
  intro entry member
  exact given _ (List.of_mem_zip (Table.mem_ofList member)).2

end Scope

theorem Parser.exists_of_mem_expressions {texts : List String} {exprs : List Expr} {expr : Expr}
    (read : expressions texts = .ok exprs) (member : expr ∈ exprs) :
    ∃ text ∈ texts, expression text = .ok expr := by
  induction texts generalizing exprs with
  | nil =>
      cases read
      cases member
  | cons text texts ih =>
      rcases expressions_cons_eq_ok read with ⟨first, rest, head, tail, rfl⟩
      rcases List.mem_cons.mp member with rfl | later
      · exact ⟨text, .head _, head⟩
      · rcases ih tail later with ⟨other, among, told⟩
        exact ⟨other, .tail _ among, told⟩

theorem Parser.numeral_of_expression {text : String} {value : Int}
    (read : expression text = .ok (.literal value)) :
    ∃ numeral, Text.Numeral.ofChars? text.toList = some numeral ∧ numeral.size ≤ Text.maxDigits ∧
      numeral.value = value := by
  unfold expression at read
  split at read
  case h_1 => cases read
  case h_2 numeral found =>
    split at read
    case isTrue => cases read
    case isFalse short =>
      cases read
      exact ⟨numeral, found, Nat.le_of_not_lt short, rfl⟩

/-- The value is that of a literal, an integer of at most 4300 digits, that a line of the source
has among its arguments. The line is a call in the main program or in a function of the table. -/
def Program.Passes (program : Program) (source : Text.Source) (value : Int) : Prop :=
  ∃ name args location, program.Has (.call name args location) ∧
    ∃ token ∈ Token.ofSource source, token.kind = .call ∧
      location = some (token.location program.file) ∧
      ∃ text ∈ (Parser.signature token.value).2, ∃ numeral,
        Text.Numeral.ofChars? text.toList = some numeral ∧ numeral.size ≤ Text.maxDigits ∧
        numeral.value = value

variable {source : Text.Source} {file : String} {program : Program}

theorem Program.Has.passes (parsed : Program.parse source file = .ok program) {name : String}
    {args : List Expr} {location : Option Location} (has : program.Has (.call name args location))
    {value : Int} (literal : .literal value ∈ args) : program.Passes source value := by
  rcases has.readFrom parsed with ⟨token, member, kind, _, read, located⟩
  rcases Parser.exists_of_mem_expressions read literal with ⟨text, among, told⟩
  have same : program.file = file := ((Program.parse_eq_ok_iff _ _ _).mp parsed).1
  rw [← same] at located
  exact ⟨name, args, location, has, token, member, kind, located, text, among,
    Parser.numeral_of_expression told⟩

theorem Program.Passes.short {value : Int} (passes : program.Passes source value) :
    (Text.digits value.natAbs).length ≤ Text.maxDigits := by
  rcases passes with ⟨_, _, _, _, _, _, _, _, _, _, numeral, read, short, rfl⟩
  exact Nat.le_trans (Text.Numeral.length_digits_value_le read) short

theorem Machine.scope_all {holds : Int → Prop} {machine : Machine}
    (all : ∀ frame ∈ machine.stack, frame.scope.All holds) : machine.scope.All holds := by
  rw [Machine.scope]
  cases stack : machine.stack with
  | nil => exact Scope.All.root
  | cons frame frames =>
      rw [stack] at all
      exact all frame (.head _)

/-- At every moment of a run each value that a call binds, in a scope of its own or further out,
was passed as a literal. -/
theorem Program.Visits.passed (parsed : Program.parse source file = .ok program) {verbose : Bool}
    {world : World} {moment : Moment} (visited : program.Visits verbose world moment) :
    ∀ frame ∈ moment.machine.stack, frame.scope.All (program.Passes source) := by
  refine visited.invariant
    (fun moment => ∀ frame ∈ moment.machine.stack, frame.scope.All (program.Passes source)) ?_ ?_
  · exact List.forall_mem_singleton.mpr Scope.All.root
  · intro before after path move held
    cases move with
    | act | loop | again | through | skip => exact held
    | @log _ _ _ machine _ =>
        rcases machine with ⟨world, stack, log⟩
        cases stack with
        | nil => exact held
        | cons frame frames =>
            have outer : ∀ other ∈ frames, other.scope.All (program.Passes source) :=
              fun other member => held other (.tail _ member)
            exact List.forall_mem_cons.mpr ⟨held frame (.head _), outer⟩
    | @enter _ _ _ _ _ function _ _ evaluated =>
        have has : program.Has _ := path.of_program (.effect _) (.head _)
        have scope := Machine.scope_all held
        have given := scope.evalAll (fun _ literal => has.passes parsed literal) evaluated
        exact List.forall_mem_cons.mpr ⟨scope.enter function.params given, held⟩
    | leave => exact fun frame member => held frame (List.mem_of_mem_tail member)

/-- A fault holds the calls that are active when it comes up. -/
theorem Moment.Ends.stack_eq {functions : Table FunDef} {limit : Nat} {moment : Moment}
    {fault : Fault} (ends : Moment.Ends functions limit moment (.failed fault)) :
    fault.stack = some moment.machine.stack.reverse := by
  cases ends <;> rfl

end Lamplighter
