import Lamplighter.Proofs.Run.CallChain

/-! What every active call keeps.

A call is made with a name and a scope, and all that happens to it until it is left is that it
comes to further steps. Main statement: `Program.Visits.forall_frame`. -/

namespace Lamplighter

variable {program : Program} {verbose : Bool} {world : World} {moment : Moment}

/-- What holds of the main program and of every call that the program can make, whatever its last
step, holds of the calls that are active at any moment. -/
theorem Program.Visits.forall_frame (visited : program.Visits verbose world moment)
    (holds : Frame → Prop) (top : holds .top)
    (logged : ∀ frame last, holds frame → holds { frame with last := last })
    (entered : ∀ name args location function values scope,
      program.Has (.call name args location) → program.functions.get? name = some function →
      holds ⟨function.name, Scope.enter scope function.params values, location, none⟩) :
    ∀ frame ∈ moment.machine.stack, holds frame := by
  refine visited.invariant (fun moment => ∀ frame ∈ moment.machine.stack, holds frame) ?_ ?_
  · exact List.forall_mem_singleton.mpr top
  · intro before after path move held
    cases move with
    | act | loop | again | through | skip => exact held
    | @log instr rule _ machine _ =>
        rcases machine.record_stack rule instr.location with ⟨empty, _⟩ |
          ⟨frame, frames, last, old, new⟩
        · rw [empty]
          exact fun frame member => absurd member List.not_mem_nil
        · simp only [old] at held
          rw [new]
          have outer : ∀ other ∈ frames, holds other :=
            fun other member => held other (.tail _ member)
          exact List.forall_mem_cons.mpr ⟨logged frame last (held frame (.head _)), outer⟩
    | enter defined =>
        have has : program.Has _ := path.of_program (.effect _) (.head _)
        exact List.forall_mem_cons.mpr ⟨entered _ _ _ _ _ _ has defined, held⟩
    | leave => exact fun frame member => held frame (List.mem_of_mem_tail member)

/-- A call binds each name once. -/
theorem Program.Visits.nodup_keys (visited : program.Visits verbose world moment) :
    ∀ frame ∈ moment.machine.stack, frame.scope.bindings.keys.Nodup := by
  refine visited.forall_frame (fun frame => frame.scope.bindings.keys.Nodup) List.nodup_nil ?_ ?_
  · exact fun _ _ held => held
  · exact fun _ _ _ function values _ _ _ => Table.nodup_keys_ofList (function.params.zip values)

end Lamplighter
