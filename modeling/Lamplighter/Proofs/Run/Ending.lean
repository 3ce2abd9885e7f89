import Lamplighter.Proofs.Run.Progress

/-! Runs that come to an end.

From each moment a run can go on in one way at most, so a run that has an end comes to it
after finitely many moves, whichever are made. Main statement: `Program.finite_of_status`. -/

namespace Lamplighter

namespace Moment

variable {functions : Table FunDef} {limit : Nat}

theorem Next.unique {before one two : Moment} (first : Next functions before one)
    (second : Next functions before two) : one = two := by
  cases first with
  | log known =>
      cases second with
      | log other =>
          rw [known] at other
          cases other
          rfl
  | act =>
      cases second
      rfl
  | loop evaluated =>
      cases second with
      | loop other =>
          rw [evaluated] at other
          cases other
          rfl
  | again =>
      cases second
      rfl
  | through =>
      cases second
      rfl
  | skip undefined =>
      cases second with
      | skip => rfl
      | enter defined =>
          rw [undefined] at defined
          cases defined
  | enter defined evaluated =>
      cases second with
      | skip undefined =>
          rw [defined] at undefined
          cases undefined
      | enter other valued =>
          rw [defined] at other
          cases other
          rw [evaluated] at valued
          cases valued
          rfl
  | leave =>
      cases second
      rfl

/-- Where a run ends, other than at a limit on calls, there is nowhere to go. -/
theorem Ends.no_move {moment : Moment} {status : Status} (ends : Ends functions limit moment status)
    (apart : status ≠ .tooDeep) (after : Moment) : ¬ Next functions moment after := by
  intro move
  cases status with
  | tooDeep => exact apart rfl
  | failed fault => exact ends.stuck (.inr ⟨after, move⟩)
  | finished =>
      cases ends
      cases move

/-- No moves lead on for ever from here. -/
abbrev Finite (functions : Table FunDef) (moment : Moment) : Prop :=
  Acc (fun after before => Next functions before after) moment

/-- Back from the end, as each moment before it goes on to one other only. -/
theorem Reaches.finite {first last : Moment} (path : Reaches functions first last)
    (stuck : ∀ after, ¬ Next functions last after) : Finite functions first := by
  induction path using Relation.ReflTransGen.head_induction_on with
  | refl => exact ⟨_, fun after move => absurd move (stuck after)⟩
  | head move _ ih =>
      refine ⟨_, fun other another => ?_⟩
      rw [another.unique move]
      exact ih

end Moment

/-- A run that no limit on calls has cut off is at its end, also without any limit. -/
theorem Program.finite_of_status {program : Program} {limit : Nat} {verbose : Bool} {world : World}
    (apart : (program.run limit verbose world).status ≠ .tooDeep) :
    Moment.Finite program.functions (program.start verbose world) := by
  obtain ⟨last, visited, ends, _⟩ := program.run_visits limit verbose world
  exact Moment.Reaches.finite visited (ends.no_move apart)

end Lamplighter
