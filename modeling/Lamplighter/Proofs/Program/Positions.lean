import Lamplighter.Proofs.Program.Limit

/-! Reading between positions of one list.

A block can be told by the positions where it begins and stops, in lines that all blocks share.
Then nothing but the code keeps a reader inside its block, and nothing but the positions that it
goes on to brings it to an end before its rounds are used up. Read so, the lines give the trees
that they give when they are cut into lists. Main statements: `reads_eq_statements`,
`parses_eq_ofTokens` and `reading_stays_in_range`. -/

namespace Lamplighter

namespace Parser

/-- Lines by their positions. Where there is none, nothing can be read. -/
abbrev Listing := Nat → Option Token

def Listing.ofList (tokens : List Token) : Listing := fun position => tokens[position]?

/-- Why a reading breaks off. -/
inductive Halt where
  | noLine (position : Nat)
  | overlong (error : ParseError)
  deriving Repr, DecidableEq

/-- A reading that may break off, and may also use up the rounds that it is given. -/
abbrev Scan := ExceptT Halt Option

def Scan.ofExcept {α : Type} (result : Except ParseError α) : Scan α :=
  some (result.mapError .overlong)

namespace Listing

variable (lines : Listing)

def line (position : Nat) : Scan Token :=
  match lines position with
  | some token => pure token
  | none => throw (.noLine position)

/-- The position of the closer that brings the depth back to nothing, or the one that the range
stops at. -/
def blockEnd (opener closer : Token.Kind) (depth : Int) (position stop : Nat) : Scan Nat :=
  if position < stop then do
    let token ← lines.line position
    if token.kind = opener then blockEnd opener closer (depth + 1) (position + 1) stop
    else if token.kind = closer then
      if depth - 1 = 0 then return position
      else blockEnd opener closer (depth - 1) (position + 1) stop
    else blockEnd opener closer depth (position + 1) stop
  else return stop
  termination_by stop - position

/-- The instruction at a position, if the line there gives one, and the position to go on at. What
stands in a loop is read by `within`. -/
def readsOneBy (file : String) (within : Nat → Nat → Scan (List Instr)) (index stop : Nat) :
    Scan (Option Instr × Nat) := do
  let token ← lines.line index
  let location := some (token.location file)
  match token.kind with
  | .define => do
    let last ← lines.blockEnd .define .endDefine 0 index stop
    return (none, last + 1)
  | .loop => do
    let last ← lines.blockEnd .loop .endLoop 0 index stop
    let count ← Scan.ofExcept (expression token.value)
    let body ← within (index + 1) last
    return (some (.loop count body location), last + 1)
  | .call => do
    let (name, items) := signature token.value
    let args ← Scan.ofExcept (expressions items)
    return (some (.call name args location), index + 1)
  | .endLoop | .endDefine | .line =>
    return (some (.act (Opcode.ofStatement token.statement) token.statement location), index + 1)

/-- The instructions between two positions, one in a round. -/
def reads (file : String) : (rounds position stop : Nat) → Scan (List Instr)
  | 0, _, _ => none
  | rounds + 1, position, stop =>
    if position < stop then do
      let (instr, next) ← lines.readsOneBy file (reads file rounds) position stop
      let rest ← reads file rounds next stop
      return instr.toList ++ rest
    else return []

def readsOne (file : String) (rounds index stop : Nat) : Scan (Option Instr × Nat) :=
  lines.readsOneBy file (lines.reads file rounds) index stop

/-- Adds the functions between two positions to a table, one or none in a round. -/
def collects (file : String) :
    (rounds position stop : Nat) → (table : Table FunDef) → Scan (Table FunDef)
  | 0, _, _, _ => none
  | rounds + 1, position, stop, table =>
    if position < stop then do
      let token ← lines.line position
      if token.kind = .define then do
        let last ← lines.blockEnd .define .endDefine 0 position stop
        let body ← lines.reads file rounds (position + 1) last
        collects file rounds (last + 1) stop
          (table.insert (signature token.value).1 (defined file token body))
      else collects file rounds (position + 1) stop table
    else return table

/-- Both passes over the lines in front of a position. -/
def parses (file : String) (rounds stop : Nat) : Scan Program := do
  let functions ← lines.collects file rounds 0 stop .empty
  let statements ← lines.reads file rounds 0 stop
  return ⟨file, functions, statements⟩

end Listing

/-- These lines stand from a position on. -/
def Holds (lines : Listing) : Nat → List Token → Prop
  | _, [] => True
  | start, token :: tokens => lines start = some token ∧ Holds lines (start + 1) tokens

section Holds

variable {lines : Listing} {start : Nat}

theorem holds_iff {tokens : List Token} : Holds lines start tokens ↔
    ∀ offset < tokens.length, lines (start + offset) = tokens[offset]? := by
  induction tokens generalizing start with
  | nil => simp [Holds]
  | cons token tokens ih =>
      rw [Holds, ih]
      constructor
      · intro held offset inside
        cases offset with
        | zero => exact held.1
        | succ offset =>
            have further := held.2 offset (Nat.lt_of_succ_lt_succ inside)
            rwa [Nat.add_right_comm] at further
      · intro held
        refine ⟨held 0 (Nat.succ_pos _), ?_⟩
        intro offset inside
        have further := held (offset + 1) (Nat.succ_lt_succ inside)
        rwa [← Nat.add_assoc, Nat.add_right_comm] at further

theorem Holds.append {front back : List Token} (held : Holds lines start (front ++ back)) :
    Holds lines start front ∧ Holds lines (start + front.length) back := by
  induction front generalizing start with
  | nil => exact ⟨trivial, held⟩
  | cons token front ih =>
      rcases ih held.2 with ⟨first, second⟩
      rw [Nat.add_right_comm] at second
      exact ⟨⟨held.1, first⟩, second⟩

theorem Holds.drop {tokens : List Token} (held : Holds lines start tokens) (taken : Nat) :
    Holds lines (start + taken) (tokens.drop taken) := by
  by_cases less : taken ≤ tokens.length
  · rw [← List.take_append_drop taken tokens] at held
    have further := held.append.2
    rwa [List.length_take_of_le less] at further
  · rw [List.drop_eq_nil_of_le (Nat.le_of_not_le less)]
    trivial

theorem Holds.line {token : Token} {tokens : List Token}
    (held : Holds lines start (token :: tokens)) : lines.line start = pure token := by
  rw [Listing.line, held.1]

end Holds

namespace Scan

variable {α β : Type}

/-- A reading that goes on where another one ended, against the same two in one. -/
theorem bind_eq_ofExcept {scan : Scan α} {first : Except ParseError α} {next : α → Scan β}
    {further : α → Except ParseError β} (read : scan = ofExcept first)
    (goesOn : ∀ value, first = .ok value → next value = ofExcept (further value)) :
    scan >>= next = ofExcept (first >>= further) := by
  subst read
  cases first with
  | error => rfl
  | ok value => exact goesOn value rfl

end Scan

section Blocks

variable {lines : Listing} {opener closer : Token.Kind}

/-- At a closer of the outermost level the scan ends. -/
theorem blockEnd_stops (apart : opener ≠ closer) {position stop : Nat} {token : Token}
    (inside : position < stop) (read : lines.line position = pure token) {depth : Nat}
    (found : depthBehind opener closer depth token.kind = none) :
    lines.blockEnd opener closer (depth + 1) position stop = pure position := by
  obtain ⟨closes, rfl⟩ := depthBehind_eq_none_iff.mp found
  have other : token.kind ≠ opener := fun opens => apart (opens.symm.trans closes)
  rw [Listing.blockEnd, if_pos inside, read, pure_bind, if_neg other, if_pos closes,
    if_pos (by simp)]

/-- At any other line it goes on, deeper or less deep. -/
theorem blockEnd_passes (apart : opener ≠ closer) {position stop : Nat} {token : Token}
    (inside : position < stop) (read : lines.line position = pure token) {depth inner : Nat}
    (passed : depthBehind opener closer depth token.kind = some inner) :
    lines.blockEnd opener closer (depth + 1) position stop =
      lines.blockEnd opener closer (inner + 1) (position + 1) stop := by
  rw [Listing.blockEnd, if_pos inside, read, pure_bind]
  unfold depthBehind at passed
  by_cases closes : token.kind = closer
  · have other : token.kind ≠ opener := fun opens => apart (opens.symm.trans closes)
    rw [if_pos closes] at passed
    have deep : depth ≠ 0 := by
      intro level
      rw [if_pos level] at passed
      cases passed
    rw [if_neg deep, Option.some.injEq] at passed
    have level : (depth : Int) + 1 - 1 = inner + 1 := by omega
    rw [if_neg other, if_pos closes, if_neg (by omega), level]
  · rw [if_neg closes] at passed
    by_cases opens : token.kind = opener
    · rw [if_pos opens, Option.some.injEq] at passed
      have level : (depth : Int) + 1 + 1 = inner + 1 := by omega
      rw [if_pos opens, level]
    · rw [if_neg opens, Option.some.injEq] at passed
      rw [if_neg opens, if_neg closes, passed]

theorem blockEnd_eq (apart : opener ≠ closer) (depth : Nat) (tokens : List Token)
    {position stop : Nat} (held : Holds lines position tokens)
    (bound : position + tokens.length = stop) :
    lines.blockEnd opener closer (depth + 1) position stop =
      pure (position + (splitBlock opener closer depth tokens).1.length) := by
  induction tokens generalizing depth position with
  | nil =>
      rw [List.length_nil, Nat.add_zero] at bound
      rw [Listing.blockEnd, if_neg (by omega), ← bound]
      rfl
  | cons token tokens ih =>
      rw [List.length_cons] at bound
      have inside : position < stop := by omega
      cases behind : depthBehind opener closer depth token.kind with
      | none =>
          rw [splitBlock_stops behind, blockEnd_stops apart inside held.line behind]
          rfl
      | some inner =>
          have place (body : List Token) :
              position + (token :: body).length = position + 1 + body.length := by
            rw [List.length_cons]
            omega
          rw [splitBlock_passes behind, blockEnd_passes apart inside held.line behind,
            ih inner held.2 (by omega), place]

/-- From the opener on, the scan comes to the end of what was opened. -/
theorem blockEnd_of_opener (apart : opener ≠ closer) {token : Token} {tokens : List Token}
    (opens : token.kind = opener) {index stop : Nat} (held : Holds lines index (token :: tokens))
    (bound : index + (tokens.length + 1) = stop) :
    lines.blockEnd opener closer 0 index stop =
      pure (index + 1 + (splitBlock opener closer 0 tokens).1.length) := by
  rw [Listing.blockEnd, if_pos (by omega), held.line, pure_bind, if_pos opens]
  exact blockEnd_eq apart 0 tokens held.2 (by omega)

end Blocks

/-- What opens a block, and what closes it. -/
def blockKinds : List (Token.Kind × Token.Kind) := [(.define, .endDefine), (.loop, .endLoop)]

/-- The first line opens a block, and of its kind more blocks are open than closed everywhere. -/
def LeftOpen (tokens : List Token) : Prop :=
  ∃ pair ∈ blockKinds, ∀ front, front <+: tokens → front ≠ [] →
    tally pair.2 front < tally pair.1 front

/-- The instruction that the first of the lines gives, if it gives one, and the number of lines
that are done with. A block that is not closed takes one more than there are. -/
def firstOf (file : String) (token : Token) (tokens : List Token) :
    Except ParseError (Option Instr × Nat) := do
  let location := some (token.location file)
  match token.kind with
  | .define => return (none, (functionBlock tokens).1.length + 2)
  | .loop => do
    let count ← expression token.value
    let body ← statements file (loopBlock tokens).1
    return (some (.loop count body location), (loopBlock tokens).1.length + 2)
  | .call => do
    let args ← expressions (signature token.value).2
    return (some (.call (signature token.value).1 args location), 1)
  | .endLoop | .endDefine | .line =>
    return (some (.act (Opcode.ofStatement token.statement) token.statement location), 1)

section First

variable {file : String} {token : Token}

theorem firstOf_define (kind : token.kind = .define) (tokens : List Token) :
    firstOf file token tokens = pure (none, (functionBlock tokens).1.length + 2) := by
  simp only [firstOf, kind]

theorem firstOf_loop (kind : token.kind = .loop) (tokens : List Token) :
    firstOf file token tokens = do
      let count ← expression token.value
      let body ← statements file (loopBlock tokens).1
      return (some (.loop count body (some (token.location file))),
        (loopBlock tokens).1.length + 2) := by
  simp only [firstOf, kind]

theorem firstOf_call (kind : token.kind = .call) (tokens : List Token) :
    firstOf file token tokens = do
      let args ← expressions (signature token.value).2
      return (some (.call (signature token.value).1 args (some (token.location file))), 1) := by
  simp only [firstOf, kind]

theorem firstOf_act (kind : IsAct token) (tokens : List Token) :
    firstOf file token tokens =
      pure (some (.act (Opcode.ofStatement token.statement) token.statement
        (some (token.location file))), 1) := by
  rcases kind with kind | kind | kind <;> simp only [firstOf, kind]

theorem drop_splitBlock (opener closer : Token.Kind) (tokens : List Token) :
    tokens.drop ((splitBlock opener closer 0 tokens).1.length + 1) =
      (splitBlock opener closer 0 tokens).2.drop 1 := by
  have parts := splitBlock_append opener closer 0 tokens
  generalize splitBlock opener closer 0 tokens = block at parts
  rw [← parts, List.drop_append, List.drop_eq_nil_of_le (Nat.le_succ _), List.nil_append,
    Nat.add_sub_cancel_left]

/-- One instruction, and then the others. -/
theorem statements_cons (file : String) (token : Token) (tokens : List Token) :
    statements file (token :: tokens) = (do
      let (instr, taken) ← firstOf file token tokens
      let rest ← statements file ((token :: tokens).drop taken)
      return instr.toList ++ rest) := by
  rcases kind_cases token with kind | kind | kind | kind
  · have behind : (token :: tokens).drop ((functionBlock tokens).1.length + 2) =
        afterFunction tokens := drop_splitBlock .define .endDefine tokens
    simp only [statements_define kind, firstOf_define kind, pure_bind, behind]
    exact (bind_pure _).symm
  · have behind : (token :: tokens).drop ((loopBlock tokens).1.length + 2) =
        afterLoop tokens := drop_splitBlock .loop .endLoop tokens
    simp only [statements_loop kind, firstOf_loop kind, bind_assoc, pure_bind, behind]
    rfl
  · simp only [statements_call kind, firstOf_call kind, bind_assoc, pure_bind]
    rfl
  · simp only [statements_act kind, firstOf_act kind, pure_bind]
    rfl

end First

section Reading

variable {file : String} {lines : Listing}

variable {within : Nat → Nat → Scan (List Instr)} {index : Nat} {token : Token}

theorem readsOneBy_define (read : lines.line index = pure token) (kind : token.kind = .define)
    (stop : Nat) : lines.readsOneBy file within index stop = do
      let last ← lines.blockEnd .define .endDefine 0 index stop
      return (none, last + 1) := by
  rw [Listing.readsOneBy, read, pure_bind]
  simp only [kind]

theorem readsOneBy_loop (read : lines.line index = pure token) (kind : token.kind = .loop)
    (stop : Nat) : lines.readsOneBy file within index stop = do
      let last ← lines.blockEnd .loop .endLoop 0 index stop
      let count ← Scan.ofExcept (expression token.value)
      let body ← within (index + 1) last
      return (some (.loop count body (some (token.location file))), last + 1) := by
  rw [Listing.readsOneBy, read, pure_bind]
  simp only [kind]

theorem readsOneBy_call (read : lines.line index = pure token) (kind : token.kind = .call)
    (stop : Nat) : lines.readsOneBy file within index stop = do
      let args ← Scan.ofExcept (expressions (signature token.value).2)
      return (some (.call (signature token.value).1 args (some (token.location file))),
        index + 1) := by
  rw [Listing.readsOneBy, read, pure_bind]
  simp only [kind]

theorem readsOneBy_act (read : lines.line index = pure token) (kind : IsAct token) (stop : Nat) :
    lines.readsOneBy file within index stop =
      pure (some (.act (Opcode.ofStatement token.statement) token.statement
        (some (token.location file))), index + 1) := by
  rw [Listing.readsOneBy, read, pure_bind]
  rcases kind with kind | kind | kind <;> simp only [kind]

/-- One instruction, if the body of a loop is read as it should be. -/
theorem readsOneBy_eq {tokens : List Token} {stop : Nat}
    (held : Holds lines index (token :: tokens)) (bound : index + (tokens.length + 1) = stop)
    (inner : ∀ body start last, body.length ≤ tokens.length → Holds lines start body →
      body.length = last - start → within start last = .ofExcept (statements file body)) :
    lines.readsOneBy file within index stop =
      .ofExcept (firstOf file token tokens >>= fun first => pure (first.1, index + first.2)) := by
  have place (length : Nat) : index + 1 + length + 1 = index + (length + 2) := by omega
  rcases kind_cases token with kind | kind | kind | kind
  · rw [readsOneBy_define held.line kind, blockEnd_of_opener (by decide) kind held bound, pure_bind,
      firstOf_define kind, place]
    rfl
  · have whole := length_loopBlock tokens
    have parts := held.2
    rw [← loopBlock_append tokens] at parts
    have body := inner (loopBlock tokens).1 (index + 1) (index + 1 + (loopBlock tokens).1.length)
      (by omega) parts.append.1 (by omega)
    rw [readsOneBy_loop held.line kind, blockEnd_of_opener (by decide) kind held bound, pure_bind,
      firstOf_loop kind, place, bind_assoc]
    refine Scan.bind_eq_ofExcept rfl fun count _ => ?_
    rw [bind_assoc]
    exact Scan.bind_eq_ofExcept body fun _ _ => rfl
  · rw [readsOneBy_call held.line kind, firstOf_call kind, bind_assoc]
    exact Scan.bind_eq_ofExcept rfl fun _ _ => rfl
  · rw [readsOneBy_act held.line kind, firstOf_act kind]
    rfl

/-- What is done with is at least the first line, and at most all lines and one more. -/
theorem taken_of_firstOf {token : Token} {tokens : List Token} {instr : Option Instr} {taken : Nat}
    (first : firstOf file token tokens = .ok (instr, taken)) :
    (taken = 1 ∧ ∀ pair ∈ blockKinds, token.kind ≠ pair.1) ∨
      ∃ pair ∈ blockKinds, token.kind = pair.1 ∧
        taken = (splitBlock pair.1 pair.2 0 tokens).1.length + 2 := by
  rcases kind_cases token with kind | kind | kind | kind
  · rw [firstOf_define kind] at first
    cases first
    exact .inr ⟨_, .head _, kind, rfl⟩
  · simp only [firstOf_loop kind, bind_eq_ok] at first
    rcases first with ⟨_, _, _, _, result⟩
    cases result
    exact .inr ⟨_, .tail _ (.head _), kind, rfl⟩
  · simp only [firstOf_call kind, bind_eq_ok] at first
    rcases first with ⟨_, _, result⟩
    cases result
    exact .inl ⟨rfl, by simp [blockKinds, kind]⟩
  · rw [firstOf_act kind] at first
    cases first
    exact .inl ⟨rfl, by simp [blockKinds, kind.kind_ne]⟩

/-- On the rounds. Each of them leaves fewer lines for the next. -/
theorem reads_eq_statements {rounds : Nat} (tokens : List Token) {start stop : Nat}
    (held : Holds lines start tokens) (bound : tokens.length = stop - start)
    (enough : tokens.length < rounds) :
    lines.reads file rounds start stop = .ofExcept (statements file tokens) := by
  induction rounds generalizing tokens start stop with
  | zero => exact absurd enough (Nat.not_lt_zero _)
  | succ rounds ih =>
  cases tokens with
  | nil =>
      rw [List.length_nil] at bound
      rw [Listing.reads, if_neg (by omega), statements]
      rfl
  | cons token tokens =>
      rw [List.length_cons] at bound enough
      have one : lines.readsOneBy file (lines.reads file rounds) start stop =
          .ofExcept (firstOf file token tokens >>= fun first =>
            pure (first.1, start + first.2)) :=
        readsOneBy_eq held (by omega) fun body _ _ shorter inside size =>
          ih body inside size (by omega)
      rw [Listing.reads, if_pos (by omega), one, statements_cons]
      cases first : firstOf file token tokens with
      | error => rfl
      | ok result =>
          rcases result with ⟨instr, taken⟩
          have onwards : 0 < taken := by
            rcases taken_of_firstOf first with ⟨rfl, _⟩ | ⟨_, _, _, rfl⟩ <;> omega
          have size : ((token :: tokens).drop taken).length = tokens.length + 1 - taken := by
            rw [List.length_drop, List.length_cons]
          have rest : lines.reads file rounds (start + taken) stop =
              .ofExcept (statements file ((token :: tokens).drop taken)) :=
            ih _ (held.drop taken) (by omega) (by omega)
          change lines.reads file rounds (start + taken) stop >>= (fun rest =>
            pure (instr.toList ++ rest)) = _
          exact Scan.bind_eq_ofExcept rest fun _ _ => rfl

theorem readsOne_eq_firstOf {rounds : Nat} {tokens : List Token} {stop : Nat}
    (held : Holds lines index (token :: tokens)) (bound : index + (tokens.length + 1) = stop)
    (enough : tokens.length < rounds) :
    lines.readsOne file rounds index stop =
      .ofExcept (firstOf file token tokens >>= fun first => pure (first.1, index + first.2)) :=
  readsOneBy_eq held bound fun body _ _ shorter inside size =>
    reads_eq_statements body inside size (Nat.lt_of_le_of_lt shorter enough)

theorem collects_eq_functions {rounds : Nat} (tokens : List Token) {start stop : Nat}
    (table : Table FunDef) (held : Holds lines start tokens)
    (bound : tokens.length = stop - start) (enough : tokens.length < rounds) :
    lines.collects file rounds start stop table = .ofExcept (functions file tokens table) := by
  induction tokens using collect_induct generalizing rounds start table with
  | nil =>
      rw [List.length_nil] at bound
      obtain ⟨rounds, rfl⟩ := Nat.exists_eq_add_one_of_ne_zero (Nat.ne_of_gt enough)
      rw [Listing.collects, if_neg (by omega), functions]
      rfl
  | define token tokens kind ih =>
      rw [List.length_cons] at bound enough
      obtain ⟨rounds, rfl⟩ := Nat.exists_eq_add_one_of_ne_zero (Nat.ne_zero_of_lt enough)
      have whole := length_functionBlock tokens
      have behind : (token :: tokens).drop ((functionBlock tokens).1.length + 2) =
          afterFunction tokens := drop_splitBlock .define .endDefine tokens
      have size : (afterFunction tokens).length =
          tokens.length + 1 - ((functionBlock tokens).1.length + 2) := by
        rw [← behind, List.length_drop, List.length_cons]
      have rest := held.drop ((functionBlock tokens).1.length + 2)
      have place : start + 1 + (functionBlock tokens).1.length + 1 =
          start + ((functionBlock tokens).1.length + 2) := by omega
      rw [behind, ← place] at rest
      have parts := held.2
      rw [← functionBlock_append tokens] at parts
      have body : lines.reads file rounds (start + 1)
          (start + 1 + (functionBlock tokens).1.length) =
            .ofExcept (statements file (functionBlock tokens).1) :=
        reads_eq_statements _ parts.append.1 (by omega) (by omega)
      have further (table : Table FunDef) :
          lines.collects file rounds (start + 1 + (functionBlock tokens).1.length + 1) stop table =
            .ofExcept (functions file (afterFunction tokens) table) :=
        ih table rest (by omega) (by omega)
      rw [Listing.collects, if_pos (by omega), held.line, pure_bind, if_pos kind,
        blockEnd_of_opener (by decide) kind held (by omega), pure_bind, functions_define kind]
      exact Scan.bind_eq_ofExcept body fun _ _ => further _
  | other token tokens kind ih =>
      rw [List.length_cons] at bound enough
      obtain ⟨rounds, rfl⟩ := Nat.exists_eq_add_one_of_ne_zero (Nat.ne_zero_of_lt enough)
      rw [Listing.collects, if_pos (by omega), held.line, pure_bind, if_neg kind,
        functions_other kind]
      exact ih table held.2 (by omega) (by omega)

theorem holds_ofList (tokens : List Token) : Holds (.ofList tokens) 0 tokens := by
  rw [holds_iff]
  intro offset _
  rw [Nat.zero_add, Listing.ofList]

/-- Read by positions, the lines give the program that they give as lists, or are refused for the
same literal. -/
theorem parses_eq_ofTokens (file : String) (tokens : List Token) {rounds : Nat}
    (enough : tokens.length < rounds) :
    (Listing.ofList tokens).parses file rounds tokens.length =
      .ofExcept (Program.ofTokens file tokens) := by
  have held := holds_ofList tokens
  rw [Listing.parses, Program.ofTokens]
  refine Scan.bind_eq_ofExcept (collects_eq_functions tokens .empty held rfl enough) fun _ _ => ?_
  exact Scan.bind_eq_ofExcept (reads_eq_statements tokens held rfl enough) fun _ _ => rfl

/-- Nothing closes a block in lines that never close more than was open. -/
theorem splitBlock_snd_eq_nil_iff {opener closer : Token.Kind} (apart : opener ≠ closer)
    (depth : Nat) (tokens : List Token) : (splitBlock opener closer depth tokens).2 = [] ↔
      ∀ front, front <+: tokens → tally closer front ≤ tally opener front + depth := by
  constructor
  · intro ends
    induction tokens generalizing depth with
    | nil =>
        intro front before
        rw [List.prefix_nil.mp before]
        exact Nat.zero_le _
    | cons token tokens ih =>
        intro front before
        cases behind : depthBehind opener closer depth token.kind with
        | none =>
            rw [splitBlock_stops behind] at ends
            cases ends
        | some inner =>
            rw [splitBlock_passes behind] at ends
            cases front with
            | nil => exact Nat.zero_le _
            | cons first front =>
                rcases List.cons_prefix_cons.mp before with ⟨rfl, further⟩
                have deeper := ih inner ends front further
                rw [tally_cons, tally_cons]
                unfold depthBehind at behind
                split at behind
                case isTrue closes =>
                  have level : depth ≠ 0 := by
                    intro level
                    rw [if_pos level] at behind
                    cases behind
                  rw [if_neg level, Option.some.injEq] at behind
                  rw [if_pos closes]
                  omega
                case isFalse closes =>
                  rw [if_neg closes]
                  split at behind <;> cases behind <;> split <;> omega
  · intro covered
    rcases splitBlock_covered apart tokens depth covered with ⟨later, _, passes⟩
    have whole := passes []
    rw [List.append_nil] at whole
    rw [whole]
    rfl

theorem opens_of_fronts {token : Token} {tokens : List Token} {pair : Token.Kind × Token.Kind}
    (fronts : ∀ front, front <+: token :: tokens → front ≠ [] →
      tally pair.2 front < tally pair.1 front) : token.kind = pair.1 := by
  have one := fronts [token] (List.prefix_append [token] tokens) (List.cons_ne_nil _ _)
  simp only [tally_cons, tally_nil] at one
  by_contra other
  rw [if_neg other] at one
  omega

theorem leftOpen_iff {token : Token} {tokens : List Token} {pair : Token.Kind × Token.Kind}
    (among : pair ∈ blockKinds) (opens : token.kind = pair.1) :
    LeftOpen (token :: tokens) ↔ (splitBlock pair.1 pair.2 0 tokens).2 = [] := by
  have apart : ∀ pair ∈ blockKinds, pair.1 ≠ pair.2 := by decide
  have other : token.kind ≠ pair.2 := by
    rw [opens]
    exact apart pair among
  rw [splitBlock_snd_eq_nil_iff (apart pair among)]
  constructor
  · intro opened front before
    rcases opened with ⟨found, member, fronts⟩
    -- The first line alone tells which kind of block is meant.
    have only : ∀ one ∈ blockKinds, ∀ two ∈ blockKinds, one.1 = two.1 → one = two := by decide
    have same : found = pair :=
      only found member pair among ((opens_of_fronts fronts).symm.trans opens)
    subst same
    have more := fronts (token :: front) (List.cons_prefix_cons.mpr ⟨rfl, before⟩)
      (List.cons_ne_nil _ _)
    rw [tally_cons, tally_cons, if_pos opens, if_neg other] at more
    omega
  · intro covered
    refine ⟨pair, among, ?_⟩
    intro front before visible
    cases front with
    | nil => exact absurd rfl visible
    | cons first front =>
        rcases List.cons_prefix_cons.mp before with ⟨rfl, further⟩
        have less := covered front further
        rw [tally_cons, tally_cons, if_pos opens, if_neg other]
        omega

theorem firstOf_of_short (file : String) {token : Token} {tokens : List Token}
    (short : ∀ line ∈ token :: tokens, line.Short) :
    ∃ first, firstOf file token tokens = .ok first := by
  have here : token.Short := short token (.head _)
  rcases kind_cases token with kind | kind | kind | kind
  · exact ⟨_, firstOf_define kind tokens⟩
  · obtain ⟨count, counted⟩ := expression_of_short (here.loop kind)
    obtain ⟨body, inner⟩ : ∃ body, statements file (loopBlock tokens).1 = .ok body :=
      statements_of_short file fun line member =>
        short line (.tail _ (mem_of_splitBlock_fst member))
    simp only [firstOf_loop kind, bind_eq_ok]
    exact ⟨_, count, counted, body, inner, rfl⟩
  · obtain ⟨args, valued⟩ := expressions_of_short (here.call kind)
    simp only [firstOf_call kind, bind_eq_ok]
    exact ⟨_, args, valued, rfl⟩
  · exact ⟨_, firstOf_act kind tokens⟩

/-- What reading one instruction comes to: it brings on, at most one past the range, and just then
when it leaves a block open, or else it is refused for a literal in the range. -/
inductive Steps (range : List Token) (index stop : Nat) : Except Halt (Option Instr × Nat) → Prop
  | on {instr : Option Instr} {next : Nat} (onwards : index < next) (bound : next ≤ stop + 1)
      (past : next = stop + 1 ↔ LeftOpen range) : Steps range index stop (.ok (instr, next))
  | refused {token : Token} {error : ParseError} (member : token ∈ range) (long : ¬ token.Short) :
      Steps range index stop (.error (.overlong error))

theorem readsOne_steps {rounds : Nat} {tokens : List Token} {stop : Nat}
    (held : Holds lines index (token :: tokens)) (bound : index + (tokens.length + 1) = stop)
    (enough : tokens.length < rounds) :
    ∃ result, lines.readsOne file rounds index stop = some result ∧
      Steps (token :: tokens) index stop result := by
  refine ⟨_, readsOne_eq_firstOf held bound enough, ?_⟩
  cases first : firstOf file token tokens with
  | error error =>
      have long : ¬ ∀ line ∈ token :: tokens, line.Short := by
        intro short
        rcases firstOf_of_short file short with ⟨_, read⟩
        rw [first] at read
        cases read
      simp only [not_forall] at long
      rcases long with ⟨line, member, long⟩
      exact .refused member long
  | ok result =>
      rcases result with ⟨instr, taken⟩
      rcases taken_of_firstOf first with ⟨rfl, plain⟩ | ⟨pair, among, opens, rfl⟩
      · refine .on (Nat.lt_succ_self index) (by omega) ?_
        constructor
        · intro past
          omega
        · intro opened
          rcases opened with ⟨pair, among, fronts⟩
          exact absurd (opens_of_fronts fronts) (plain pair among)
      · have whole := length_splitBlock pair.1 pair.2 0 tokens
        refine .on (by omega) (by omega) ?_
        rw [leftOpen_iff among opens, ← List.length_eq_zero_iff]
        omega

end Reading

/-- What is read between positions hangs on the lines between them alone. -/
structure StaysIn (file : String) (tokens : List Token) (rounds start index stop : Nat) :
    Prop where
  /-- An instruction is read to its end or refused, and reading goes on further down. -/
  steps : ∃ result, (Listing.ofList tokens).readsOne file rounds index stop = some result ∧
    Steps (tokens.extract index stop) index stop result
  /-- Lines that stand elsewhere may be other ones, or be missing. -/
  one : ∀ lines : Listing,
    (∀ position, index ≤ position → position < stop → lines position = tokens[position]?) →
    lines.readsOne file rounds index stop = (Listing.ofList tokens).readsOne file rounds index stop
  all : ∀ lines : Listing,
    (∀ position, start ≤ position → position < stop → lines position = tokens[position]?) →
    lines.reads file rounds start stop = (Listing.ofList tokens).reads file rounds start stop
  /-- The range may be cut out and read as lines of its own. -/
  cutOne : (do
      let (instr, next) ← (Listing.ofList (tokens.extract start stop)).readsOne file rounds
        (index - start) (stop - start)
      return (instr, start + next)) = (Listing.ofList tokens).readsOne file rounds index stop
  cutAll : (Listing.ofList (tokens.extract start stop)).reads file rounds 0 (stop - start) =
    (Listing.ofList tokens).reads file rounds start stop
  /-- As a program it has these statements, unless a literal in it is too long. -/
  program : (∀ token ∈ tokens.extract start stop, token.Short) →
    ∃ program, (Listing.ofList (tokens.extract start stop)).parses file rounds (stop - start) =
        pure program ∧
      (Listing.ofList tokens).reads file rounds start stop = pure program.statements

theorem length_extract {tokens : List Token} {stop : Nat} (bound : stop ≤ tokens.length)
    (start : Nat) : (tokens.extract start stop).length = stop - start := by
  rw [List.extract_eq_take_drop, List.length_take, List.length_drop]
  omega

theorem getElem?_extract {tokens : List Token} {start stop offset : Nat}
    (inside : offset < stop - start) :
    (tokens.extract start stop)[offset]? = tokens[start + offset]? := by
  rw [List.extract_eq_take_drop, List.getElem?_take_of_lt inside, List.getElem?_drop]

theorem holds_extract {lines : Listing} {tokens : List Token} {start stop : Nat}
    (bound : stop ≤ tokens.length)
    (same : ∀ position, start ≤ position → position < stop → lines position = tokens[position]?) :
    Holds lines start (tokens.extract start stop) := by
  rw [holds_iff, length_extract bound]
  intro offset inside
  rw [getElem?_extract inside]
  exact same _ (Nat.le_add_right _ _) (by omega)

theorem staysIn (file : String) (tokens : List Token) {rounds start index stop : Nat}
    (first : start ≤ index) (inside : index < stop) (bound : stop ≤ tokens.length)
    (enough : stop - start < rounds) : StaysIn file tokens rounds start index stop := by
  have size := length_extract bound
  have fits : (tokens.extract start stop).length < rounds := by rwa [size]
  have here (place : Nat) : Holds (.ofList tokens) place (tokens.extract place stop) :=
    holds_extract bound fun _ _ _ => rfl
  obtain ⟨token, rest, split⟩ : ∃ token rest, tokens.extract index stop = token :: rest := by
    apply List.exists_cons_of_length_pos
    rw [size]
    omega
  have count := size index
  rw [split, List.length_cons] at count
  have held := here index
  rw [split] at held
  have behind : (tokens.extract start stop).drop (index - start) = token :: rest := by
    rw [← split, List.extract_eq_take_drop, List.extract_eq_take_drop, List.drop_take,
      List.drop_drop, Nat.add_sub_cancel' first, Nat.sub_sub_sub_cancel_right first]
  constructor
  case steps =>
    rw [split]
    exact readsOne_steps held (by omega) (by omega)
  case one =>
    intro lines same
    have other := holds_extract bound same
    rw [split] at other
    rw [readsOne_eq_firstOf other (by omega) (by omega),
      readsOne_eq_firstOf held (by omega) (by omega)]
  case all =>
    intro lines same
    rw [reads_eq_statements _ (holds_extract bound same) (size start) fits,
      reads_eq_statements _ (here start) (size start) fits]
  case cutOne =>
    have cut := (holds_ofList (tokens.extract start stop)).drop (index - start)
    rw [behind, Nat.zero_add] at cut
    have place (taken : Nat) : start + (index - start + taken) = index + taken := by omega
    rw [readsOne_eq_firstOf held (by omega) (by omega),
      readsOne_eq_firstOf cut (by omega) (by omega)]
    cases firstOf file token rest with
    | error => rfl
    | ok taken =>
        change (pure (taken.1, start + (index - start + taken.2)) : Scan _) =
          pure (taken.1, index + taken.2)
        rw [place]
  case cutAll =>
    rw [reads_eq_statements _ (holds_ofList _) (by rw [size, Nat.sub_zero]) fits,
      reads_eq_statements _ (here start) (size start) fits]
  case program =>
    intro short
    rcases Program.ofTokens_of_short file short with ⟨program, parsed⟩
    refine ⟨program, ?_, ?_⟩
    · rw [← size start, parses_eq_ofTokens _ _ fits, parsed]
      rfl
    · rw [reads_eq_statements _ (here start) (size start) fits,
        ((Program.ofTokens_eq_ok_iff ..).mp parsed).2.2]
      rfl

end Parser

/-- Read by positions, any lines give the program that they give as lists, or are refused for the
same literal, and with one round more than there are lines neither pass fails to end or misses a
line. And of any range in them, one instruction and all of them are read from the lines of the
range alone. -/
theorem reading_stays_in_range (file : String) (tokens : List Token) :
    (∀ rounds > tokens.length, (Parser.Listing.ofList tokens).parses file rounds tokens.length =
      .ofExcept (Program.ofTokens file tokens)) ∧
    ∀ rounds start index stop, start ≤ index → index < stop → stop ≤ tokens.length →
      stop - start < rounds → Parser.StaysIn file tokens rounds start index stop :=
  ⟨fun _ enough => Parser.parses_eq_ofTokens file tokens enough,
    fun _ _ _ _ first inside bound enough => Parser.staysIn file tokens first inside bound enough⟩

/-- A loop around the head of a function, and one that is open where the function is closed. -/
def straddling : List Token :=
  [⟨.loop, "2", 1, 1, "REPEAT 2"⟩, ⟨.define, "F(n)", 2, 1, "FUNCTION F(n)"⟩,
    ⟨.line, "LEFT", 3, 3, "LEFT"⟩, ⟨.loop, "n", 4, 3, "REPEAT n"⟩,
    ⟨.endDefine, "", 5, 1, "ENDFUNCTION"⟩, ⟨.endLoop, "", 6, 1, "ENDREPEAT"⟩]

/-- Of the function's body, the loop in it is done with behind the line that closes the function,
and takes neither that line nor its own closer further down. -/
theorem reading_stays_in_range_of_straddling :
    2 ≤ 3 ∧ 3 < 4 ∧ 4 ≤ straddling.length ∧ 4 - 2 < 3 ∧
    (∃ instr, (Parser.Listing.ofList straddling).readsOne "range" 3 3 4 = some (.ok (instr, 5))) ∧
    (Parser.Listing.ofList straddling).reads "range" 3 2 4 =
      pure [.act .left "LEFT" (some ⟨"range", 3, 3, "LEFT"⟩),
        .loop (.identifier "n") [] (some ⟨"range", 4, 3, "REPEAT n"⟩)] := by
  have first : 2 ≤ 3 := by decide
  have inside : 3 < 4 := by decide
  have bound : 4 ≤ straddling.length := by decide
  have enough : 4 - 2 < 3 := by decide
  have stays := (reading_stays_in_range "range" straddling).2 3 2 3 4 first inside bound enough
  refine ⟨first, inside, bound, enough, ?_, ?_⟩
  · obtain ⟨result, read, steps⟩ := stays.steps
    cases steps with
    | on onwards bound past =>
        have among : (.loop, .endLoop) ∈ Parser.blockKinds := by decide
        have opened : Parser.LeftOpen (straddling.extract 3 4) :=
          (Parser.leftOpen_iff among rfl).mpr rfl
        rw [past.mpr opened] at read
        exact ⟨_, read⟩
    | refused member long =>
        have short : ∀ token ∈ straddling.extract 3 4, token.Short := by decide
        exact absurd (short _ member) long
  · have body : Parser.statements "range" (straddling.extract 2 4) = .ok _ :=
      (Parser.statements_eq_ok_iff ..).mpr (.act (.inl rfl) (.loop rfl rfl .nil .nil))
    have cut : (Parser.Listing.ofList (straddling.extract 2 4)).reads "range" 3 0 (4 - 2) =
        .ofExcept (Parser.statements "range" (straddling.extract 2 4)) :=
      Parser.reads_eq_statements _ (Parser.holds_ofList _) rfl enough
    rw [← stays.cutAll, cut, body]
    rfl

end Lamplighter
