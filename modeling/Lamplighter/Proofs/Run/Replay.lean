import Lamplighter.Proofs.Run.Agenda

/-! The log of a verbose run as a program of its own.

The acts that were logged, done one after the other, take the robot through the
poses that were logged and to the world that the run leaves. Main statement:
`log_replays_run`. -/

namespace Lamplighter

/-- What a step of this kind does to a world. -/
def Rule.replay (world : World) : Rule → World
  | .act opcode => world.perform opcode
  | .loop => world
  | .call => world

def replay (world : World) (steps : List Step) : World :=
  steps.foldl (fun world step => step.rule.replay world) world

@[simp] theorem replay_append (world : World) (first second : List Step) :
    replay world (first ++ second) = replay (replay world first) second :=
  List.foldl_append

/-- The steps are numbered from zero, and each holds the pose that the steps
before it lead to. -/
def Faithful (world : World) (steps : List Step) : Prop :=
  ∀ k (inside : k < steps.length),
    steps[k].index = k ∧ steps[k].pose = (replay world (steps.take k)).robot

theorem Faithful.snoc {world : World} {steps : List Step} (faithful : Faithful world steps)
    {step : Step} (index : step.index = steps.length)
    (pose : step.pose = (replay world steps).robot) : Faithful world (steps ++ [step]) := by
  intro k inside
  rw [List.length_append, List.length_singleton] at inside
  rcases Nat.lt_succ_iff_lt_or_eq.mp inside with earlier | rfl
  · rw [List.getElem_append_left earlier, List.take_append_of_le_length (Nat.le_of_lt earlier)]
    exact faithful k earlier
  · simp only [List.getElem_concat_length, List.take_left']
    exact ⟨index, pose⟩

/-- The world once the effect that is up has been had. -/
def Moment.foreseen (moment : Moment) : World :=
  match moment.agenda with
  | .effect (.act opcode _ _) :: _ => moment.machine.world.perform opcode
  | _ => moment.machine.world

theorem Moment.foreseen_of_pending {moment : Moment} (all : ∀ task ∈ moment.agenda, task.Pending) :
    moment.foreseen = moment.machine.world := by
  unfold Moment.foreseen
  split
  case h_1 up =>
    rw [up] at all
    exact (all _ (.head _)).elim
  case h_2 => rfl

theorem Moment.Ends.foreseen {functions : Table FunDef} {limit : Nat} {moment : Moment}
    {status : Status} (ends : Moment.Ends functions limit moment status) :
    moment.foreseen = moment.machine.world := by
  cases ends <;> rfl

/-- A move that logs nothing only has the effect that is up. -/
theorem Moment.Next.of_pending {functions : Table FunDef} {before after : Moment}
    (move : Moment.Next functions before after) (all : ∀ task ∈ after.agenda, task.Pending) :
    after.machine.log = before.machine.log ∧ after.machine.world = before.foreseen := by
  cases move with
  | log => exact (all _ (.head _)).elim
  | act | loop | again | through | skip | enter | leave => exact ⟨rfl, rfl⟩

/-- The log of a verbose run at a moment of it. -/
structure Moment.Recorded (world : World) (moment : Moment) : Prop where
  verbose : moment.machine.log.verbose = true
  count : moment.machine.log.count = moment.machine.log.steps.toList.length
  last : moment.machine.log.last = moment.machine.log.steps.toList.getLast?
  faithful : Faithful world moment.machine.log.steps.toList
  replayed : replay world moment.machine.log.steps.toList = moment.foreseen

namespace Moment.Recorded

variable {world : World}

theorem log {instr : Instr} {rule : Rule} {agenda : List Task} {machine : Machine}
    (known : instr.rule? = some rule)
    (recorded : Recorded world ⟨.instr instr :: agenda, machine⟩) :
    Recorded world ⟨.effect instr :: agenda, machine.record rule instr.location⟩ := by
  have verbose := recorded.verbose
  have steps : (machine.record rule instr.location).log.steps.toList =
      machine.log.steps.toList ++
        [⟨machine.log.count, rule, instr.location, machine.world.robot⟩] := by
    simp only at verbose
    simp only [Machine.record, Log.add, verbose, if_true, Array.toList_push]
  have before : replay world machine.log.steps.toList = machine.world := recorded.replayed
  constructor
  · exact verbose
  · simp only [steps, List.length_append, List.length_singleton]
    exact congrArg Nat.succ recorded.count
  · simp only [steps, List.getLast?_concat]
    rfl
  · simp only [steps]
    exact recorded.faithful.snoc recorded.count (by rw [before])
  · simp only [steps, replay_append, before]
    cases instr <;> cases known <;> rfl

theorem next {functions : Table FunDef} {before after : Moment}
    (move : Moment.Next functions before after)
    (waiting : ∀ task ∈ before.agenda.tail, task.Pending) (recorded : Recorded world before) :
    Recorded world after := by
  rcases move.logs_or_pending waiting with ⟨_, _, _, _, rfl, rfl, known⟩ | all
  · exact recorded.log known
  · have same := move.of_pending all
    rw [← foreseen_of_pending all] at same
    constructor
    · rw [same.1, recorded.verbose]
    · rw [same.1, recorded.count]
    · rw [same.1, recorded.last]
    · rw [same.1]
      exact recorded.faithful
    · rw [same.1, same.2, recorded.replayed]

end Moment.Recorded

theorem Program.Visits.recorded {program : Program} {world : World} {moment : Moment}
    (visited : program.Visits true world moment) : moment.Recorded world := by
  refine visited.invariant (Moment.Recorded world) ?_ ?_
  · have unchanged : (program.start true world).foreseen = world :=
      Moment.foreseen_of_pending (pending_tasks _)
    exact ⟨rfl, rfl, rfl, fun k inside => absurd inside (Nat.not_lt_zero k), unchanged.symm⟩
  · intro before after path move recorded
    exact recorded.next move path.pending

/-- The log of a verbose run replays the run, also of one that failed half-way or
was cut off: the steps are numbered without a gap, each holds the pose that the
acts before it lead to from the first world, and all acts together lead to the
world that the run leaves behind. -/
theorem log_replays_run (program : Program) (limit : Nat) (world : World) :
    let left := (program.run limit true world).machine
    let steps := left.log.steps.toList
    steps.length = left.log.count ∧ left.log.last = steps.getLast? ∧
      (∀ k (inside : k < steps.length),
        steps[k].index = k ∧ steps[k].pose = (replay world (steps.take k)).robot) ∧
      replay world steps = left.world := by
  obtain ⟨last, visited, ends, worlds, logs, _⟩ := program.run_visits limit true world
  have recorded := visited.recorded
  simp only [← worlds, ← logs]
  refine ⟨recorded.count.symm, recorded.last, recorded.faithful, ?_⟩
  rw [recorded.replayed, ends.foreseen]

end Lamplighter
