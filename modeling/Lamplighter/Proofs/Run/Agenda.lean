import Lamplighter.Proofs.Program.Lines
import Lamplighter.Proofs.Run.Agreement

/-! What is left to do at a moment of a run.

All of it comes from the program, at most the first task has been logged already,
and there is one frame more than there are calls to be left. -/

namespace Lamplighter

namespace Task

/-- The task runs only what stands in the program. -/
def Of (program : Program) : Task → Prop
  | .instr next => program.Has next
  | .effect current => program.Has current
  | .again _ body => ∀ instr, Occurs instr body → program.Has instr
  | .leave => True

/-- Not begun: no step has been logged for it. -/
def Pending : Task → Prop
  | .effect _ => False
  | _ => True

def isLeave : Task → Bool
  | .leave => true
  | _ => false

end Task

/-- The calls that are still to be left. -/
def leaves (agenda : List Task) : Nat := agenda.countP Task.isLeave

@[simp] theorem leaves_cons (task : Task) (agenda : List Task) :
    leaves (task :: agenda) = leaves agenda + if task.isLeave then 1 else 0 :=
  List.countP_cons

@[simp] theorem leaves_append (first second : List Task) :
    leaves (first ++ second) = leaves first + leaves second := List.countP_append

@[simp] theorem leaves_tasks (block : List Instr) : leaves (tasks block) = 0 := by
  simp [leaves, tasks, List.countP_eq_zero, Task.isLeave]

theorem of_tasks {program : Program} {block : List Instr}
    (inside : ∀ instr, Occurs instr block → program.Has instr) :
    ∀ task ∈ tasks block, task.Of program := by
  intro task member
  obtain ⟨instr, present, rfl⟩ := List.mem_map.mp member
  exact inside instr (.of_mem present)

theorem pending_tasks (block : List Instr) : ∀ task ∈ tasks block, task.Pending := by
  intro task member
  obtain ⟨instr, _, rfl⟩ := List.mem_map.mp member
  trivial

theorem Program.Has.inside {program : Program} {count : Expr} {body : List Instr}
    {location : Option Location} (has : program.Has (.loop count body location)) {instr : Instr}
    (inner : Occurs instr body) : program.Has instr := by
  rcases has with main | ⟨name, function, found, occurs⟩
  · exact .inl (main.inside inner)
  · exact .inr ⟨name, function, found, occurs.inside inner⟩

/-- The instruction's step is the last one, in the log and in the innermost frame. -/
def Machine.Logged (machine : Machine) (instr : Instr) : Prop :=
  ∃ frame frames step, machine.stack = frame :: frames ∧ frame.last = some step ∧
    machine.log.last = some step ∧ machine.log.count = step.index + 1 ∧
    instr.rule? = some step.rule ∧ step.location = instr.location

theorem Machine.logged_record {machine : Machine} {instr : Instr} {rule : Rule}
    (known : instr.rule? = some rule) (active : 0 < machine.stack.length) :
    (machine.record rule instr.location).Logged instr := by
  rcases machine with ⟨world, stack, log⟩
  cases stack with
  | nil => simp at active
  | cons frame frames => exact ⟨_, frames, _, rfl, rfl, rfl, rfl, known, rfl⟩

/-- A move logs the next instruction, or it leaves an agenda of which nothing has begun. -/
theorem Moment.Next.logs_or_pending {functions : Table FunDef} {before after : Moment}
    (move : Moment.Next functions before after)
    (waiting : ∀ task ∈ before.agenda.tail, task.Pending) :
    (∃ instr agenda machine rule, before = ⟨.instr instr :: agenda, machine⟩ ∧
      after = ⟨.effect instr :: agenda, machine.record rule instr.location⟩ ∧
      instr.rule? = some rule) ∨
    ∀ task ∈ after.agenda, task.Pending := by
  cases move with
  | log known => exact .inl ⟨_, _, _, _, rfl, rfl, known⟩
  | act | through | skip | leave => exact .inr waiting
  | loop => exact .inr (List.forall_mem_cons.mpr ⟨trivial, waiting⟩)
  | again | enter =>
      exact .inr (List.forall_mem_append.mpr
        ⟨pending_tasks _, List.forall_mem_cons.mpr ⟨trivial, waiting⟩⟩)

namespace Program.Visits

variable {program : Program} {verbose : Bool} {world : World} {moment : Moment}

theorem of_program (visited : program.Visits verbose world moment) :
    ∀ task ∈ moment.agenda, task.Of program := by
  refine visited.invariant (fun moment => ∀ task ∈ moment.agenda, task.Of program)
    (of_tasks fun instr occurs => .inl occurs) ?_
  intro before after _ move of
  have later : ∀ task ∈ before.agenda.tail, task.Of program :=
    fun task member => of task (List.mem_of_mem_tail member)
  cases move with
  | act | through | skip | leave => exact later
  | log =>
      have has : program.Has _ := of (.instr _) (.head _)
      exact List.forall_mem_cons.mpr ⟨has, later⟩
  | loop =>
      have has : program.Has _ := of _ (.head _)
      exact List.forall_mem_cons.mpr ⟨fun instr inner => has.inside inner, later⟩
  | again =>
      have inside := of _ (.head _)
      exact List.forall_mem_append.mpr
        ⟨of_tasks inside, List.forall_mem_cons.mpr ⟨inside, later⟩⟩
  | enter defined =>
      exact List.forall_mem_append.mpr
        ⟨of_tasks fun instr occurs => .inr ⟨_, _, defined, occurs⟩,
          List.forall_mem_cons.mpr ⟨trivial, later⟩⟩

theorem pending (visited : program.Visits verbose world moment) :
    ∀ task ∈ moment.agenda.tail, task.Pending := by
  refine visited.invariant (fun moment => ∀ task ∈ moment.agenda.tail, task.Pending)
    (fun task member => pending_tasks _ task (List.mem_of_mem_tail member)) ?_
  intro before after _ move waiting
  rcases move.logs_or_pending waiting with ⟨instr, agenda, machine, rule, rfl, rfl, _⟩ | all
  · exact waiting
  · exact fun task member => all task (List.mem_of_mem_tail member)

theorem frames (visited : program.Visits verbose world moment) :
    moment.machine.stack.length = leaves moment.agenda + 1 := by
  refine visited.invariant (fun moment => moment.machine.stack.length = leaves moment.agenda + 1)
    (by simp [Program.start]) ?_
  intro before after _ move count
  cases move with
  | log =>
      rw [← Machine.length_settled, Machine.settled_record, Machine.length_settled, count]
      rfl
  | act | loop | again | through | skip => simpa [Machine.perform, Task.isLeave] using count
  | enter => simpa [Machine.push, Task.isLeave] using count
  | leave =>
      simp only [Machine.pop, List.length_tail, count, leaves_cons, Task.isLeave, if_true]
      omega

/-- Whenever an effect is up, it is that of the instruction that was just logged. -/
theorem logged (visited : program.Visits verbose world moment) {instr : Instr} {agenda : List Task}
    (up : moment.agenda = .effect instr :: agenda) : moment.machine.Logged instr := by
  have noneBegun : ¬ ∀ task ∈ moment.agenda, task.Pending := by
    intro all
    rw [up] at all
    exact all _ (.head _)
  cases visited with
  | refl => exact absurd (pending_tasks _) noneBegun
  | tail path move =>
      have visited : program.Visits verbose world _ := path
      rcases move.logs_or_pending visited.pending with ⟨_, _, machine, rule, rfl, rfl, known⟩ | all
      · cases up
        have active : 0 < machine.stack.length := by
          have count := visited.frames
          simp only at count
          omega
        exact Machine.logged_record known active
      · exact absurd all noneBegun

end Program.Visits
end Lamplighter
