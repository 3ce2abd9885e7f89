import Lamplighter.Proofs.Program.Insertion
import Lamplighter.Proofs.Program.Places

/-! How the pass over statements comes to a line.

It reads the lines behind a function or a loop, and those inside a loop, as it reads them
on their own. So it comes to every line in front of which all functions are closed, unless
a loop that it has opened ends there. Main statements: `Sealed.way`, `Way.accounted`. -/

namespace Lamplighter.Parser

variable {token : Token}

/-- The lines stand in the whole ones behind so many others, and the pass over statements
reads them there as on their own. -/
structure Among (shift : Nat) (lines whole : List Token) : Prop where
  nodes : ∀ place < lines.length, (place + shift ∈ nodePlaces whole ↔ place ∈ nodePlaces lines)
  loops : ∀ closer < lines.length, ∀ opener, (LoopAt whole opener (closer + shift) ↔
    ∃ first, opener = first + shift ∧ LoopAt lines first closer)

theorem among_afterFunction (kind : token.kind = .define) (tokens : List Token) :
    Among ((functionBlock tokens).1.length + 2) (afterFunction tokens) (token :: tokens) where
  nodes := by
    intro place _
    rw [nodePlaces_define kind]
    simp
  loops := by
    intro closer _ opener
    rw [loopAt_define kind]
    simp

theorem among_single (known : token.kind ≠ .define) (alone : token.kind ≠ .loop)
    (tokens : List Token) : Among 1 tokens (token :: tokens) where
  nodes := by
    intro place _
    rw [nodePlaces_single known alone]
    simp
  loops := by
    intro closer _ opener
    rw [loopAt_single known alone]
    simp

theorem among_afterLoop (kind : token.kind = .loop) (tokens : List Token) :
    Among ((loopBlock tokens).1.length + 2) (afterLoop tokens) (token :: tokens) where
  nodes := by
    intro place _
    rw [nodePlaces_loop kind]
    simp only [List.mem_cons, List.mem_append, List.mem_map]
    constructor
    · rintro (zero | ⟨other, within, equal⟩ | ⟨other, behind, equal⟩)
      · omega
      · have bound := lt_length_of_mem_nodePlaces within
        omega
      · rwa [Nat.add_right_cancel equal] at behind
    · intro behind
      exact .inr (.inr ⟨place, behind, rfl⟩)
  loops := by
    intro closer _ opener
    rw [loopAt_loop kind]
    constructor
    · rintro (⟨-, equal, -⟩ | ⟨first, last, -, equal, inside⟩ | ⟨first, last, rfl, equal, behind⟩)
      · omega
      · have bound := inside.closes.bound
        omega
      · rw [← Nat.add_right_cancel equal] at behind
        exact ⟨first, rfl, behind⟩
    · rintro ⟨first, rfl, behind⟩
      exact .inr (.inr ⟨first, closer, rfl, rfl, behind⟩)

theorem among_loopBlock (kind : token.kind = .loop) (tokens : List Token) :
    Among 1 (loopBlock tokens).1 (token :: tokens) where
  nodes := by
    intro place bound
    rw [nodePlaces_loop kind]
    simp only [List.mem_cons, List.mem_append, List.mem_map]
    constructor
    · rintro (zero | ⟨other, inside, equal⟩ | ⟨other, -, equal⟩)
      · omega
      · rwa [Nat.add_right_cancel equal] at inside
      · omega
    · intro inside
      exact .inr (.inl ⟨place, inside, rfl⟩)
  loops := by
    intro closer bound opener
    rw [loopAt_loop kind]
    constructor
    · rintro (⟨-, equal, -⟩ | ⟨first, last, rfl, equal, inside⟩ | ⟨first, last, -, equal, -⟩)
      · omega
      · rw [← Nat.add_right_cancel equal] at inside
        exact ⟨first, rfl, inside⟩
      · omega
    · rintro ⟨first, rfl, inside⟩
      exact .inr (.inl ⟨first, closer, rfl, rfl, inside⟩)

/-- The pass over statements comes to stand between the two parts: behind lines that it is
done with, and then behind the openers of loops that go on there. -/
inductive Way : List Token → List Token → Prop where
  | here {after : List Token} : Way [] after
  | behind {front before after : List Token}
      (among : Among front.length (before ++ after) (front ++ (before ++ after)))
      (rest : Way before after) : Way (front ++ before) after
  | inside {token : Token} {before cut back : List Token} (kind : token.kind = .loop)
      (ends : loopBlock (before ++ (cut ++ back)) = (before ++ cut, back))
      (inner : Way before cut) : Way (token :: before) (cut ++ back)

theorem Sealed.way {before : List Token} (within : Sealed before) (after : List Token) :
    Way before after := by
  match before, within with
  | [], _ => exact .here
  | first :: before, ⟨closed, within⟩ =>
      -- A block that ends in front of the place leaves it among the lines behind the block.
      have passed {body rest : List Token} {closing : Token}
          (parts : before = body ++ closing :: rest)
          (among : Among (body.length + 2) (rest ++ after) (first :: (before ++ after))) :
          Way (first :: before) after := by
        have shorter := length_lt_of_parts parts
        have later := (within.behind parts).way after
        have whole : first :: before = first :: (body ++ [closing]) ++ rest := by simp [parts]
        rw [whole]
        refine .behind ?_ later
        simpa [parts] using among
      by_cases define : first.kind = .define
      · rcases splitBlock_in_front (closed define) with ⟨body, closing, rest, parts, ends⟩
        have among := among_afterFunction define (before ++ after)
        have found : functionBlock (before ++ after) = (body, closing :: (rest ++ after)) :=
          ends after
        rw [afterFunction, found] at among
        exact passed parts among
      by_cases loop : first.kind = .loop
      · rcases splitBlock_front .loop .endLoop 0 before with
          ⟨body, closing, rest, parts, ends⟩ | ⟨depth, goesOn⟩
        · have among := among_afterLoop loop (before ++ after)
          have found : loopBlock (before ++ after) = (body, closing :: (rest ++ after)) :=
            ends after
          rw [afterLoop, found] at among
          exact passed parts among
        · have parts := splitBlock_append .loop .endLoop depth after
          rw [← parts]
          refine .inside loop ?_ (within.way _)
          rw [parts]
          exact goesOn after
      · show Way ([first] ++ before) after
        exact .behind (among_single define loop (before ++ after)) (within.way after)
  termination_by before.length
  decreasing_by
    all_goals
      simp only [List.length_cons]
      omega

/-- The line gives a node, or closes a loop of the tree. -/
def Accounted (tokens : List Token) (place : Nat) : Prop :=
  place ∈ nodePlaces tokens ∨ ∃ opener, LoopAt tokens opener place

theorem Among.accounted {shift place : Nat} {lines whole : List Token}
    (among : Among shift lines whole) (bound : place < lines.length)
    (accounted : Accounted lines place) : Accounted whole (place + shift) := by
  rcases accounted with node | ⟨opener, loop⟩
  · exact .inl ((among.nodes place bound).mpr node)
  · exact .inr ⟨opener + shift, (among.loops place bound _).mpr ⟨opener, rfl, loop⟩⟩

/-- A line that the pass comes to is accounted for, if it defines no function. -/
theorem Way.accounted {before after : List Token} (way : Way before (token :: after))
    (known : token.kind ≠ .define) : Accounted (before ++ token :: after) before.length := by
  generalize lines : token :: after = rest at way
  induction way generalizing after with
  | here =>
      subst lines
      refine .inl ?_
      by_cases kind : token.kind = .loop
      · simp [nodePlaces_loop kind]
      · simp [nodePlaces_single known kind]
  | @behind front before rest among _ ih =>
      have bound : before.length < (before ++ rest).length := by simp [← lines]
      have accounted := among.accounted bound (ih lines)
      rwa [Nat.add_comm, ← List.length_append, ← List.append_assoc] at accounted
  | @inside opening before cut back kind ends _ ih =>
      cases cut with
      | nil =>
          subst lines
          rw [List.nil_append, List.append_nil] at ends
          exact .inr ⟨0, by simp [nodePlaces_loop kind], closes_here kind ends⟩
      | cons line cut =>
          cases lines
          have bound : before.length < (before ++ token :: cut).length := by simp
          have among := among_loopBlock kind (before ++ (token :: cut ++ back))
          rw [ends] at among
          exact among.accounted bound (ih rfl)

end Lamplighter.Parser
