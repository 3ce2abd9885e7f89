import Lamplighter.Proofs.Run.Moment

/-! The runner and the moments of a run agree.

The runner recurses on the tree and on the calls that are left; here every run of
it is shown to be a path of moments, to the one where the run ends. Main statement:
`Program.run_visits`. -/

namespace Lamplighter

/-- What never changes about a frame: all but its last step. -/
def Frame.settled (frame : Frame) : Frame := { frame with last := none }

namespace Machine

def settled (machine : Machine) : List Frame := machine.stack.map Frame.settled

@[simp] theorem settled_record (machine : Machine) (rule : Rule) (location : Option Location) :
    (machine.record rule location).settled = machine.settled := by
  rcases machine with ⟨world, stack, log⟩
  cases stack <;> rfl

@[simp] theorem settled_perform (machine : Machine) (opcode : Opcode) :
    (machine.perform opcode).settled = machine.settled := rfl

@[simp] theorem settled_push (machine : Machine) (frame : Frame) :
    (machine.push frame).settled = frame.settled :: machine.settled := rfl

@[simp] theorem settled_pop (machine : Machine) : machine.pop.settled = machine.settled.tail := by
  simp only [settled, pop, List.map_tail]

theorem length_settled (machine : Machine) : machine.settled.length = machine.stack.length :=
  List.length_map _

theorem scope_eq_of_settled {first second : Machine} (same : first.settled = second.settled) :
    first.scope = second.scope := by
  obtain ⟨_, stack, _⟩ := first
  obtain ⟨_, others, _⟩ := second
  cases stack with
  | nil => cases others <;> simp_all [settled, scope]
  | cons frame frames =>
      cases others with
      | nil => simp [settled] at same
      | cons other others =>
          have heads : frame.settled = other.settled := (List.cons.inj same).1
          change frame.settled.scope = other.settled.scope
          rw [heads]

end Machine

namespace Moment

variable {functions : Table FunDef} {limit : Nat}

/-- The outcome is what doing these tasks makes of the machine, whatever is to be
done afterwards. The runner drops frames on its way out of a failed run, so there
the last moment and the outcome only share world and log. -/
structure Carries (functions : Table FunDef) (limit : Nat) (agenda : List Task) (machine : Machine)
    (outcome : Outcome) : Prop where
  settled : outcome.machine.settled = machine.settled
  finished : outcome.status = .finished →
    ∀ rest, Reaches functions ⟨agenda ++ rest, machine⟩ ⟨rest, outcome.machine⟩
  ended : outcome.status ≠ .finished →
    ∀ rest, ∃ last, Reaches functions ⟨agenda ++ rest, machine⟩ last ∧
      Ends functions limit last outcome.status ∧
      last.machine.world = outcome.machine.world ∧ last.machine.log = outcome.machine.log

namespace Carries

theorem nothing (machine : Machine) : Carries functions limit [] machine machine.finish where
  settled := rfl
  finished := fun _ _ => .refl
  ended := fun unfinished => absurd rfl unfinished

/-- A task that ends the run where it is. -/
theorem ending {task : Task} {machine : Machine} {status : Status}
    (ends : ∀ rest, Ends functions limit ⟨task :: rest, machine⟩ status)
    (unfinished : status ≠ .finished) :
    Carries functions limit [task] machine ⟨machine, status⟩ where
  settled := rfl
  finished := fun finished => absurd finished unfinished
  ended := fun _ rest => ⟨_, .refl, ends rest, rfl, rfl⟩

/-- A first move, which has to keep the frames. -/
theorem move {agenda : List Task} (others : List Task) {machine next : Machine} {outcome : Outcome}
    (step : ∀ rest, Next functions ⟨agenda ++ rest, machine⟩ ⟨others ++ rest, next⟩)
    (same : next.settled = machine.settled) (carries : Carries functions limit others next outcome) :
    Carries functions limit agenda machine outcome where
  settled := carries.settled.trans same
  finished := fun finished rest => .head (step rest) (carries.finished finished rest)
  ended := by
    intro unfinished rest
    obtain ⟨last, path, ends, shared⟩ := carries.ended unfinished rest
    exact ⟨last, .head (step rest) path, ends, shared⟩

theorem logged {instr : Instr} {rule : Rule} {machine : Machine} {outcome : Outcome}
    (known : instr.rule? = some rule)
    (carries : Carries functions limit [.effect instr] (machine.record rule instr.location) outcome) :
    Carries functions limit [.instr instr] machine outcome :=
  .move _ (fun _ => .log known) (Machine.settled_record ..) carries

theorem andThen {agenda others : List Task} {machine : Machine} {outcome : Outcome}
    {after : Machine → Outcome} (first : Carries functions limit agenda machine outcome)
    (second : ∀ next : Machine, next.settled = machine.settled →
      Carries functions limit others next (after next)) :
    Carries functions limit (agenda ++ others) machine (outcome.andThen after) := by
  by_cases finished : outcome.status = .finished
  · have carries := second outcome.machine first.settled
    have same : outcome.andThen after = after outcome.machine := by
      simp only [Outcome.andThen, finished]
    rw [same]
    refine ⟨carries.settled.trans first.settled, ?_, ?_⟩
    · intro done rest
      have path := first.finished finished (others ++ rest)
      rw [← List.append_assoc] at path
      exact path.trans (carries.finished done rest)
    · intro unfinished rest
      obtain ⟨last, path, ends, shared⟩ := carries.ended unfinished rest
      have before := first.finished finished (others ++ rest)
      rw [← List.append_assoc] at before
      exact ⟨last, before.trans path, ends, shared⟩
  · have same : outcome.andThen after = outcome := by
      unfold Outcome.andThen
      split
      · contradiction
      · rfl
    rw [same]
    refine ⟨first.settled, fun done => absurd done finished, ?_⟩
    intro unfinished rest
    obtain ⟨last, path, ends, shared⟩ := first.ended unfinished (others ++ rest)
    rw [← List.append_assoc] at path
    exact ⟨last, path, ends, shared⟩

/-- A call's body runs on top of its frame, which is gone again afterwards. -/
theorem call {name : String} {args : List Expr} {location : Option Location} {function : FunDef}
    {values : List Int} {machine : Machine} {outcome : Outcome}
    (defined : functions.get? name = some function)
    (evaluated : machine.scope.evalAll args = .ok values)
    (body : Carries functions limit (tasks function.body)
      (machine.push ⟨function.name, machine.scope.enter function.params values, location, none⟩)
      outcome) :
    Carries functions limit [.effect (.call name args location)] machine outcome.pop where
  settled := by
    change outcome.machine.pop.settled = machine.settled
    rw [Machine.settled_pop, body.settled, Machine.settled_push, List.tail_cons]
  finished := by
    intro finished rest
    have path := body.finished finished (.leave :: rest)
    exact .head (.enter defined evaluated) (.tail path .leave)
  ended := by
    intro unfinished rest
    obtain ⟨last, path, ends, shared⟩ := body.ended unfinished (.leave :: rest)
    exact ⟨last, .head (.enter defined evaluated) path, ends, shared⟩

theorem iterate {body : List Instr} {run : Machine → Outcome} {machine : Machine} (count : Nat)
    (once : ∀ next : Machine, next.settled = machine.settled →
      Carries functions limit (tasks body) next (run next)) :
    Carries functions limit [.again count body] machine (Lamplighter.iterate run count machine) := by
  induction count generalizing machine with
  | zero => exact .move [] (fun _ => .through) rfl (nothing machine)
  | succ count ih =>
      have iterated : Carries functions limit (tasks body ++ [.again count body]) machine
          ((run machine).andThen (Lamplighter.iterate run count)) := by
        apply (once machine rfl).andThen
        intro next same
        exact ih (fun other equal => once other (equal.trans same))
      refine .move (tasks body ++ [.again count body]) ?_ rfl iterated
      intro rest
      simpa only [List.singleton_append, List.append_assoc] using Next.again

end Carries

/-- What running a tree needs to know of calls: entering a function from a machine
with so many frames does what the call's task asks for. -/
def EntersWell (functions : Table FunDef) (limit depth : Nat) (enter : Enter) : Prop :=
  ∀ name args location function values (machine : Machine),
    machine.stack.length + depth = limit + 1 → functions.get? name = some function →
    machine.scope.evalAll args = .ok values →
    Carries functions limit [.effect (.call name args location)] machine
      (enter function values machine.scope location machine)

section Tree

variable {depth : Nat} {enter : Enter} {scope : Scope}

mutual

theorem exec_carries (enters : EntersWell functions limit depth enter) (instr : Instr)
    (machine : Machine) (names : machine.scope = scope)
    (room : machine.stack.length + depth = limit + 1) :
    Carries functions limit [.instr instr] machine (instr.exec functions enter scope machine) := by
  have named (rule : Rule) (location : Option Location) :
      (machine.record rule location).scope = scope :=
    (Machine.scope_eq_of_settled (Machine.settled_record ..)).trans names
  cases instr with
  | act opcode text location =>
      refine .logged rfl ?_
      exact .move [] (fun _ => .act) (Machine.settled_perform ..) (.nothing _)
  | unknown location => exact .ending (fun _ => .unknown) (by simp)
  | loop count body location =>
      refine .logged rfl ?_
      rw [Instr.exec]
      cases evaluated : scope.eval count with
      | error cause =>
          rw [← named .loop location] at evaluated
          exact .ending (fun _ => .loop evaluated) (by simp)
      | ok value =>
          have iterated : Carries functions limit [.again value.toNat body]
              (machine.record .loop location)
              (iterate (fun machine => execBlock functions enter scope body machine) value.toNat
                (machine.record .loop location)) := by
            apply Carries.iterate
            intro next same
            refine execBlock_carries enters body next ?_ ?_
            · exact (Machine.scope_eq_of_settled same).trans (named .loop location)
            · rw [← Machine.length_settled, same, Machine.settled_record, Machine.length_settled, room]
          rw [← named .loop location] at evaluated
          exact .move _ (fun _ => .loop evaluated) rfl iterated
  | call name args location =>
      refine .logged rfl ?_
      rw [Instr.exec]
      cases defined : functions.get? name with
      | none => exact .move [] (fun _ => .skip defined) rfl (.nothing _)
      | some function =>
          have length : (machine.record .call location).stack.length = machine.stack.length := by
            rw [← Machine.length_settled, Machine.settled_record, Machine.length_settled]
          cases evaluated : scope.evalAll args with
          | error cause =>
              rw [← named .call location] at evaluated
              exact .ending (fun _ => .call defined evaluated) (by simp)
          | ok values =>
              rw [← named .call location] at evaluated
              have entered := enters name args location function values
                (machine.record .call location) (by rw [length, room]) defined evaluated
              rwa [named .call location] at entered
termination_by structural instr

theorem execBlock_carries (enters : EntersWell functions limit depth enter) (instrs : List Instr)
    (machine : Machine) (names : machine.scope = scope)
    (room : machine.stack.length + depth = limit + 1) :
    Carries functions limit (tasks instrs) machine
      (execBlock functions enter scope instrs machine) := by
  cases instrs with
  | nil => exact .nothing machine
  | cons instr instrs =>
      apply (exec_carries enters instr machine names room).andThen
      intro next same
      refine execBlock_carries enters instrs next ?_ ?_
      · exact (Machine.scope_eq_of_settled same).trans names
      · rw [← Machine.length_settled, same, Machine.length_settled, room]
termination_by structural instrs

end

end Tree

theorem enter_entersWell (depth : Nat) :
    EntersWell functions limit depth (enter functions depth) := by
  -- On the calls that are left: a body is a tree, and only its calls use one up.
  induction depth with
  | zero =>
      intro name args location function values machine room defined evaluated
      exact .ending (fun _ => .tooDeep defined evaluated room) (by simp)
  | succ depth ih =>
      intro name args location function values machine room defined evaluated
      refine .call defined evaluated (execBlock_carries ih function.body _ rfl ?_)
      simp only [Machine.push, List.length_cons]
      omega

end Moment

/-- Every run ends at one of its moments, with the world and the log it has there,
and leaves no frame. -/
theorem Program.run_visits (program : Program) (limit : Nat) (verbose : Bool) (world : World) :
    ∃ last, program.Visits verbose world last ∧
      Moment.Ends program.functions limit last (program.run limit verbose world).status ∧
      last.machine.world = (program.run limit verbose world).machine.world ∧
      last.machine.log = (program.run limit verbose world).machine.log ∧
      (program.run limit verbose world).machine.stack = [] := by
  have carries : Moment.Carries program.functions limit (tasks program.statements)
      ⟨world, [.top], .start verbose⟩
      (execBlock program.functions (enter program.functions limit) .root program.statements
        ⟨world, [.top], .start verbose⟩) :=
    Moment.execBlock_carries (Moment.enter_entersWell limit) program.statements _ rfl
      (by simp [Nat.add_comm])
  have unwound : (program.run limit verbose world).machine.stack = [] := by
    have length := congrArg List.length carries.settled
    simp only [Machine.length_settled, List.length_singleton] at length
    obtain ⟨frame, single⟩ := List.length_eq_one_iff.mp length
    simp only [Program.run, Outcome.pop, single, List.tail_cons]
  by_cases finished : (program.run limit verbose world).status = .finished
  · have path := carries.finished finished []
    rw [List.append_nil] at path
    refine ⟨_, path, ?_, rfl, rfl, unwound⟩
    rw [finished]
    exact .finished
  · obtain ⟨last, path, ends, worlds, logs⟩ := carries.ended finished []
    rw [List.append_nil] at path
    exact ⟨last, path, ends, worlds, logs, unwound⟩

end Lamplighter
