import Lamplighter.Proofs.Program.Reading

/-! The lines that give nodes.

The pass over statements visits the lines from the first to the last, whatever blocks are
crossed or left open, and the loops of the tree follow the same recursion. Main statements:
`pairwise_nodePlaces`, `LoopAt.not_mem`. -/

namespace Lamplighter.Parser

/-- The loop that is opened in the one line is closed in the other. -/
inductive Closes : List Token → Nat → Nat → Prop where
  | here {token : Token} {tokens : List Token} (kind : token.kind = .loop)
      (closed : (loopBlock tokens).2 ≠ []) :
      Closes (token :: tokens) 0 ((loopBlock tokens).1.length + 1)
  | later {token : Token} {tokens : List Token} {opener closer : Nat}
      (rest : Closes tokens opener closer) : Closes (token :: tokens) (opener + 1) (closer + 1)

/-- The numbers of the lines that give the nodes of a block. -/
def nodePlaces : List Token → List Nat
  | [] => []
  | token :: tokens =>
    match token.kind with
    | .define => (nodePlaces (afterFunction tokens)).map (· + ((functionBlock tokens).1.length + 2))
    | .loop =>
      0 :: ((nodePlaces (loopBlock tokens).1).map (· + 1) ++
        (nodePlaces (afterLoop tokens)).map (· + ((loopBlock tokens).1.length + 2)))
    | .call | .endLoop | .endDefine | .line => 0 :: (nodePlaces tokens).map (· + 1)
  termination_by tokens => tokens.length
  decreasing_by
    all_goals
      have := length_functionBlock tokens
      have := length_loopBlock tokens
      simp only [afterFunction, afterLoop, List.length_cons, List.length_drop]
      omega

/-- A loop of the tree, by the lines that open and close it. -/
structure LoopAt (tokens : List Token) (opener closer : Nat) : Prop where
  node : opener ∈ nodePlaces tokens
  closes : Closes tokens opener closer

variable {token : Token} {tokens : List Token} {opener closer : Nat}

theorem nodePlaces_define (kind : token.kind = .define) (tokens : List Token) :
    nodePlaces (token :: tokens) =
      (nodePlaces (afterFunction tokens)).map (· + ((functionBlock tokens).1.length + 2)) := by
  simp only [nodePlaces, kind]

theorem nodePlaces_loop (kind : token.kind = .loop) (tokens : List Token) :
    nodePlaces (token :: tokens) =
      0 :: ((nodePlaces (loopBlock tokens).1).map (· + 1) ++
        (nodePlaces (afterLoop tokens)).map (· + ((loopBlock tokens).1.length + 2))) := by
  simp only [nodePlaces, kind]

theorem nodePlaces_single (known : token.kind ≠ .define) (alone : token.kind ≠ .loop)
    (tokens : List Token) :
    nodePlaces (token :: tokens) = 0 :: (nodePlaces tokens).map (· + 1) := by
  cases kind : token.kind with
  | define => exact absurd kind known
  | loop => exact absurd kind alone
  | call | endLoop | endDefine | line => simp only [nodePlaces, kind]

/-- Induction along the blocks that are passed over and those that are read. -/
@[elab_as_elim]
theorem block_induct {motive : List Token → Prop} (nil : motive [])
    (define : ∀ token tokens, token.kind = .define → motive (afterFunction tokens) →
      motive (token :: tokens))
    (loop : ∀ token tokens, token.kind = .loop → motive (loopBlock tokens).1 →
      motive (afterLoop tokens) → motive (token :: tokens))
    (single : ∀ token tokens, token.kind ≠ .define → token.kind ≠ .loop → motive tokens →
      motive (token :: tokens))
    (tokens : List Token) : motive tokens := by
  induction tokens using read_induct with
  | nil => exact nil
  | define token tokens kind ih => exact define token tokens kind ih
  | loop token tokens kind ihBody ihRest => exact loop token tokens kind ihBody ihRest
  | call token tokens kind ih => exact single token tokens (by simp [kind]) (by simp [kind]) ih
  | act token tokens kind ih =>
      exact single token tokens kind.kind_ne.1 kind.kind_ne.2 ih

/-- What stands behind a block stands behind its opener, its body and its closer. -/
theorem parts_behind {opening closing : Token.Kind} {depth : Nat} (token : Token)
    (more : (splitBlock opening closing depth tokens).2.drop 1 ≠ []) :
    ∃ front, token :: tokens = front ++ (splitBlock opening closing depth tokens).2.drop 1 ∧
      front.length = (splitBlock opening closing depth tokens).1.length + 2 := by
  have parts := splitBlock_append opening closing depth tokens
  cases back : (splitBlock opening closing depth tokens).2 with
  | nil => simp [back] at more
  | cons line rest =>
      rw [back] at parts
      refine ⟨token :: ((splitBlock opening closing depth tokens).1 ++ [line]), ?_, by simp⟩
      simp [parts]

theorem lt_length_of_mem_nodePlaces {place : Nat} (member : place ∈ nodePlaces tokens) :
    place < tokens.length := by
  induction tokens using block_induct generalizing place with
  | nil =>
      rw [nodePlaces] at member
      cases member
  | define token tokens kind ih =>
      rw [nodePlaces_define kind] at member
      rcases List.mem_map.mp member with ⟨further, behind, rfl⟩
      have bound := ih behind
      have whole := length_functionBlock tokens
      simp only [afterFunction, List.length_drop, List.length_cons] at bound ⊢
      omega
  | loop token tokens kind ihBody ihRest =>
      rw [nodePlaces_loop kind] at member
      simp only [List.mem_cons, List.mem_append, List.mem_map] at member
      have whole := length_loopBlock tokens
      rw [List.length_cons]
      rcases member with rfl | ⟨further, inside, rfl⟩ | ⟨further, behind, rfl⟩
      · exact Nat.succ_pos _
      · have bound := ihBody inside
        omega
      · have bound := ihRest behind
        simp only [afterLoop, List.length_drop] at bound
        omega
  | single token tokens known alone ih =>
      rw [nodePlaces_single known alone] at member
      simp only [List.mem_cons, List.mem_map] at member
      rcases member with rfl | ⟨further, behind, rfl⟩
      · exact Nat.succ_pos _
      · exact Nat.succ_lt_succ (ih behind)

theorem pairwise_nodePlaces (tokens : List Token) : (nodePlaces tokens).Pairwise (· < ·) := by
  have shift {places : List Nat} (amount : Nat) (ordered : places.Pairwise (· < ·)) :
      (places.map (· + amount)).Pairwise (· < ·) :=
    List.pairwise_map.mpr (ordered.imp fun less => Nat.add_lt_add_right less amount)
  induction tokens using block_induct with
  | nil =>
      rw [nodePlaces]
      exact .nil
  | define token tokens kind ih =>
      rw [nodePlaces_define kind]
      exact shift _ ih
  | loop token tokens kind ihBody ihRest =>
      rw [nodePlaces_loop kind, List.pairwise_cons, List.pairwise_append]
      refine ⟨?_, shift _ ihBody, shift _ ihRest, ?_⟩
      · intro place member
        rcases List.mem_append.mp member with inside | behind
        · rcases List.mem_map.mp inside with ⟨further, -, rfl⟩
          exact Nat.succ_pos _
        · rcases List.mem_map.mp behind with ⟨further, -, rfl⟩
          exact Nat.succ_pos _
      · intro place inside other behind
        rcases List.mem_map.mp inside with ⟨first, within, rfl⟩
        rcases List.mem_map.mp behind with ⟨second, -, rfl⟩
        have bound := lt_length_of_mem_nodePlaces within
        omega
  | single token tokens known alone ih =>
      rw [nodePlaces_single known alone, List.pairwise_cons]
      refine ⟨fun place member => ?_, shift 1 ih⟩
      rcases List.mem_map.mp member with ⟨further, -, rfl⟩
      exact Nat.succ_pos _

theorem closes_here {body rest : List Token} {closing : Token} (kind : token.kind = .loop)
    (ends : loopBlock tokens = (body, closing :: rest)) :
    Closes (token :: tokens) 0 (body.length + 1) := by
  have here : Closes (token :: tokens) 0 ((loopBlock tokens).1.length + 1) :=
    .here kind (by simp [ends])
  rwa [ends] at here

theorem Closes.bound (closes : Closes tokens opener closer) :
    opener < closer ∧ closer < tokens.length := by
  induction closes with
  | @here token tokens kind closed =>
      have whole := length_loopBlock tokens
      have more := List.length_pos_of_ne_nil closed
      rw [List.length_cons]
      omega
  | later _ ih =>
      rw [List.length_cons]
      omega

theorem Closes.behind (closes : Closes tokens opener closer) (front : List Token) :
    Closes (front ++ tokens) (opener + front.length) (closer + front.length) := by
  induction front with
  | nil => exact closes
  | cons line front ih => exact .later ih

theorem Closes.of_behind {front : List Token}
    (closes : Closes (front ++ tokens) (opener + front.length) closer) :
    ∃ further, closer = further + front.length ∧ Closes tokens opener further := by
  induction front generalizing closer with
  | nil => exact ⟨closer, rfl, closes⟩
  | cons line front ih =>
      rw [List.cons_append, List.length_cons, ← Nat.add_assoc] at closes
      cases closes with
      | later rest =>
          rcases ih rest with ⟨further, rfl, closes⟩
          exact ⟨further, rfl, closes⟩

theorem Closes.in_front (closes : Closes tokens opener closer) (back : List Token) :
    Closes (tokens ++ back) opener closer := by
  induction closes with
  | @here token tokens kind closed =>
      rcases splitBlock_in_front closed with ⟨body, closing, rest, -, ends⟩
      have alone : loopBlock tokens = (body, closing :: rest) := splitBlock_alone ends
      rw [alone]
      exact closes_here kind (ends back)
  | later _ ih => exact .later ih

/-- A loop that is opened in a block is closed in it, if the block is closed at all. -/
theorem Closes.inside {depth : Nat} {body back : List Token}
    (ends : splitBlock .loop .endLoop depth (body ++ back) = (body, back))
    (closes : Closes (body ++ back) opener closer) (bound : opener < body.length) :
    Closes body opener closer := by
  induction body generalizing depth opener closer with
  | nil => cases bound
  | cons token body ih =>
      rw [List.cons_append] at ends closes
      rcases of_splitBlock_cons ends with ⟨inner, passed, further⟩
      cases closes with
      | here kind closed =>
          have deeper : 0 < inner := by
            rw [kind] at passed
            cases passed
            exact Nat.succ_pos depth
          rcases splitBlock_within deeper further closed with ⟨first, closing, rest, -, found⟩
          have alone : loopBlock body = (first, closing :: rest) := splitBlock_alone found
          have whole : loopBlock (body ++ back) = (first, closing :: (rest ++ back)) := found back
          rw [whole]
          exact closes_here kind alone
      | later rest => exact .later (ih further rest (Nat.lt_of_succ_lt_succ bound))

theorem Closes.kind (closes : Closes tokens opener closer) :
    ∃ closing, tokens[closer]? = some closing ∧ closing.kind = .endLoop := by
  induction closes with
  | @here token tokens kind closed =>
      rcases List.exists_cons_of_ne_nil closed with ⟨closing, rest, back⟩
      refine ⟨closing, ?_, kind_of_splitBlock back⟩
      have parts := loopBlock_append tokens
      have found : ((loopBlock tokens).1 ++ closing :: rest)[(loopBlock tokens).1.length]? =
          some closing := by simp
      rw [← back, parts] at found
      exact found
  | later _ ih => exact ih

theorem closes_after_block {opening closing : Token.Kind} {depth : Nat}
    (node : opener ∈ nodePlaces ((splitBlock opening closing depth tokens).2.drop 1)) :
    Closes (token :: tokens)
      (opener + ((splitBlock opening closing depth tokens).1.length + 2)) closer ↔
    ∃ further, closer = further + ((splitBlock opening closing depth tokens).1.length + 2) ∧
      Closes ((splitBlock opening closing depth tokens).2.drop 1) opener further := by
  have more := List.ne_nil_of_length_pos (Nat.zero_lt_of_lt (lt_length_of_mem_nodePlaces node))
  rcases parts_behind token more with ⟨front, parts, length⟩
  rw [parts, ← length]
  constructor
  · exact Closes.of_behind
  · rintro ⟨further, rfl, closes⟩
    exact closes.behind front

/-! The loops of the tree, block by block as the pass over statements goes. -/

theorem loopAt_define (kind : token.kind = .define) (tokens : List Token) :
    LoopAt (token :: tokens) opener closer ↔ ∃ first last,
      opener = first + ((functionBlock tokens).1.length + 2) ∧
      closer = last + ((functionBlock tokens).1.length + 2) ∧
      LoopAt (afterFunction tokens) first last := by
  constructor
  · rintro ⟨node, closes⟩
    rw [nodePlaces_define kind] at node
    rcases List.mem_map.mp node with ⟨first, behind, rfl⟩
    rcases (closes_after_block behind).mp closes with ⟨last, rfl, further⟩
    exact ⟨first, last, rfl, rfl, behind, further⟩
  · rintro ⟨first, last, rfl, rfl, behind, further⟩
    refine ⟨?_, (closes_after_block behind).mpr ⟨last, rfl, further⟩⟩
    rw [nodePlaces_define kind]
    exact List.mem_map_of_mem behind

theorem loopAt_single (known : token.kind ≠ .define) (alone : token.kind ≠ .loop)
    (tokens : List Token) :
    LoopAt (token :: tokens) opener closer ↔ ∃ first last,
      opener = first + 1 ∧ closer = last + 1 ∧ LoopAt tokens first last := by
  have places := nodePlaces_single known alone tokens
  constructor
  · rintro ⟨node, closes⟩
    cases closes with
    | here kind => exact absurd kind alone
    | @later _ _ first last rest =>
        refine ⟨first, last, rfl, rfl, ?_, rest⟩
        simpa [places] using node
  · rintro ⟨first, last, rfl, rfl, node, closes⟩
    refine ⟨?_, .later closes⟩
    simpa [places] using node

theorem loopAt_loop (kind : token.kind = .loop) (tokens : List Token) :
    LoopAt (token :: tokens) opener closer ↔
      (opener = 0 ∧ closer = (loopBlock tokens).1.length + 1 ∧ (loopBlock tokens).2 ≠ []) ∨
      (∃ first last, opener = first + 1 ∧ closer = last + 1 ∧
        LoopAt (loopBlock tokens).1 first last) ∨
      ∃ first last, opener = first + ((loopBlock tokens).1.length + 2) ∧
        closer = last + ((loopBlock tokens).1.length + 2) ∧
        LoopAt (afterLoop tokens) first last := by
  have parts := loopBlock_append tokens
  constructor
  · rintro ⟨node, closes⟩
    rw [nodePlaces_loop kind] at node
    simp only [List.mem_cons, List.mem_append, List.mem_map] at node
    rcases node with rfl | ⟨first, inside, rfl⟩ | ⟨first, behind, rfl⟩
    · cases closes with
      | here _ closed => exact .inl ⟨rfl, rfl, closed⟩
    · cases closes with
      | @later _ _ _ last rest =>
          have ends : splitBlock .loop .endLoop 0 ((loopBlock tokens).1 ++ (loopBlock tokens).2) =
              ((loopBlock tokens).1, (loopBlock tokens).2) := by
            rw [parts]
            rfl
          rw [← parts] at rest
          exact .inr (.inl ⟨first, last, rfl, rfl, inside,
            rest.inside ends (lt_length_of_mem_nodePlaces inside)⟩)
    · rcases (closes_after_block behind).mp closes with ⟨last, rfl, further⟩
      exact .inr (.inr ⟨first, last, rfl, rfl, behind, further⟩)
  · rintro (⟨rfl, rfl, closed⟩ | ⟨first, last, rfl, rfl, inside, closes⟩ |
      ⟨first, last, rfl, rfl, behind, further⟩)
    · exact ⟨by simp [nodePlaces_loop kind], .here kind closed⟩
    · have whole := closes.in_front (loopBlock tokens).2
      rw [parts] at whole
      exact ⟨by simp [nodePlaces_loop kind, inside], .later whole⟩
    · refine ⟨?_, (closes_after_block behind).mpr ⟨last, rfl, further⟩⟩
      rw [nodePlaces_loop kind]
      exact .tail _ (List.mem_append_right _ (List.mem_map_of_mem behind))

/-- The closer of a loop of the tree gives no node. -/
theorem LoopAt.not_mem (loop : LoopAt tokens opener closer) : closer ∉ nodePlaces tokens := by
  induction tokens using block_induct generalizing opener closer with
  | nil => cases loop.closes
  | define token tokens kind ih =>
      rcases (loopAt_define kind tokens).mp loop with ⟨first, last, rfl, rfl, behind⟩
      rw [nodePlaces_define kind]
      simpa using ih behind
  | loop token tokens kind ihBody ihRest =>
      rw [nodePlaces_loop kind]
      simp only [List.mem_cons, List.mem_append, List.mem_map, not_or, not_exists, not_and]
      rcases (loopAt_loop kind tokens).mp loop with
        ⟨rfl, rfl, closed⟩ | ⟨first, last, rfl, rfl, inside⟩ | ⟨first, last, rfl, rfl, behind⟩
      · refine ⟨Nat.succ_ne_zero _, fun other within => ?_, fun other _ => ?_⟩
        · have bound := lt_length_of_mem_nodePlaces within
          omega
        · omega
      · have bound := inside.closes.bound
        refine ⟨Nat.succ_ne_zero _, fun other read equal => ?_, fun other _ => ?_⟩
        · rw [Nat.add_right_cancel equal] at read
          exact ihBody inside read
        · omega
      · refine ⟨Nat.succ_ne_zero _, fun other within => ?_, fun other read equal => ?_⟩
        · have bound := lt_length_of_mem_nodePlaces within
          omega
        · rw [Nat.add_right_cancel equal] at read
          exact ihRest behind read
  | single token tokens known alone ih =>
      rcases (loopAt_single known alone tokens).mp loop with ⟨first, last, rfl, rfl, behind⟩
      rw [nodePlaces_single known alone]
      simpa using ih behind

end Lamplighter.Parser
