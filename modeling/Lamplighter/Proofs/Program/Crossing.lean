import Lamplighter.Proofs.Program.Nodes
import Lamplighter.Proofs.Run.CallGraph

/-! Functions that cross loops.

The pass over statements looks for the end of a function no further than the loop around it
goes, and that loop may end inside the function. What stands behind its closer is then read
with the main statements. There is no other way for a line of a function to come there. Main
statement: `functions_keep_out`. -/

namespace Lamplighter

namespace Parser

variable {opening : Token} {before body back : List Token} {first last : Nat}

/-- A loop of the tree is opened in front of the block and closed inside it. -/
def Crossed (tokens : List Token) (first last : Nat) : Prop :=
  ∃ opener closer, LoopAt tokens opener closer ∧ opener < first ∧ first < closer ∧ closer < last

/-- The pass over statements keeps out of the block that goes from the one line to the other,
unless a loop of the tree crosses it. Then the last line of the block is read. -/
structure Kept (tokens : List Token) (first last : Nat) : Prop where
  out : ¬ Crossed tokens first last → ∀ place < tokens.length, first < place → place ≤ last →
    place ∉ nodePlaces tokens
  crossed : Crossed tokens first last → last < tokens.length → last ∈ nodePlaces tokens

theorem Among.crossed_iff {shift : Nat} {lines whole : List Token} (among : Among shift lines whole)
    (bound : last ≤ lines.length) :
    Crossed whole (first + shift) (last + shift) ↔ Crossed lines first last := by
  constructor
  · rintro ⟨opener, closer, loop, ahead, above, below⟩
    obtain ⟨further, rfl⟩ : ∃ further, closer = further + shift := ⟨closer - shift, by omega⟩
    rcases (among.loops further (by omega) opener).mp loop with ⟨start, rfl, inner⟩
    exact ⟨start, further, inner, by omega, by omega, by omega⟩
  · rintro ⟨opener, closer, loop, ahead, above, below⟩
    have outer := (among.loops closer (by omega) _).mpr ⟨opener, rfl, loop⟩
    exact ⟨opener + shift, closer + shift, outer, by omega, by omega, by omega⟩

theorem Kept.among {shift : Nat} {lines whole : List Token} (kept : Kept lines first last)
    (among : Among shift lines whole) (bound : last ≤ lines.length)
    (fits : last < lines.length ∨ lines.length + shift = whole.length) :
    Kept whole (first + shift) (last + shift) := by
  have same : Crossed whole (first + shift) (last + shift) ↔ Crossed lines first last :=
    among.crossed_iff bound
  constructor
  · intro apart place within above below
    obtain ⟨further, rfl⟩ : ∃ further, place = further + shift := ⟨place - shift, by omega⟩
    have inner : further < lines.length := by omega
    rw [among.nodes further inner]
    exact kept.out (mt same.mpr apart) further inner (by omega) (by omega)
  · intro crossed within
    have inner : last < lines.length := by omega
    exact (among.nodes last inner).mpr (kept.crossed (same.mp crossed) inner)

/-- In a block that is closed, every function is closed. -/
theorem sealed_body {depth : Nat}
    (ends : splitBlock .define .endDefine depth (body ++ back) = (body, back))
    (closed : back ≠ []) : Sealed body := by
  induction body generalizing depth with
  | nil => exact True.intro
  | cons token body ih =>
      rw [List.cons_append] at ends
      rcases of_splitBlock_cons ends with ⟨inner, passed, further⟩
      refine ⟨fun opens => ?_, ih further⟩
      have deeper : 0 < inner := by
        rw [opens] at passed
        cases passed
        exact Nat.succ_pos depth
      have found : (splitBlock .define .endDefine 0 (body ++ back)).2 ≠ [] :=
        splitBlock_snd_ne_nil (Nat.zero_le inner) (by rwa [further])
      rcases splitBlock_within deeper further found with ⟨front, closing, rest, -, ends⟩
      have alone : functionBlock body = (front, closing :: rest) := splitBlock_alone ends
      rw [alone]
      exact List.cons_ne_nil _ _

theorem kind_of_functionBlock {closing : Token} {rest : List Token}
    (block : functionBlock (body ++ back) = (body, back)) (parts : back = closing :: rest) :
    closing.kind = .endDefine := by
  subst parts
  exact kind_of_splitBlock (congrArg Prod.snd block)

/-- Where the loop around it ends no earlier than the function, the function ends where it
would end without the loop. -/
theorem functionBlock_cut {cut rest : List Token}
    (block : functionBlock (body ++ (cut ++ rest)) = (body, cut ++ rest))
    (closes : ∀ closing more, rest = closing :: more → closing.kind = .endLoop) :
    functionBlock (body ++ cut) = (body, cut) ∧ (cut = [] → rest = []) := by
  cases cut with
  | cons closing cut => exact ⟨splitBlock_behind block cut, by simp⟩
  | nil =>
      cases rest with
      | nil => exact ⟨block, fun _ => rfl⟩
      | cons closing rest =>
          have one := closes closing rest rfl
          have two := kind_of_functionBlock block rfl
          rw [one] at two
          cases two

/-- The loop is closed in the body of the function. What is behind its closer is read, up to the
end of the function at least. -/
theorem kept_of_crossing {token closer : Token} {front rest : List Token}
    (kind : token.kind = .loop)
    (ends : loopBlock (before ++ (opening :: front ++ closer :: (rest ++ back))) =
      (before ++ opening :: front, closer :: (rest ++ back)))
    (block : functionBlock (front ++ closer :: rest ++ back) = (front ++ closer :: rest, back)) :
    Kept (token :: (before ++ (opening :: front ++ closer :: (rest ++ back)))) (before.length + 1)
      (before.length + 1 + (front ++ closer :: rest).length + 1) := by
  have loop : LoopAt (token :: (before ++ (opening :: front ++ closer :: (rest ++ back)))) 0
      ((before ++ opening :: front).length + 1) :=
    ⟨by simp [nodePlaces_loop kind], closes_here kind ends⟩
  have size : (before ++ opening :: front).length = before.length + front.length + 1 := by
    simp [Nat.add_assoc]
  have length : (front ++ closer :: rest).length = front.length + rest.length + 1 := by
    simp [Nat.add_assoc]
  refine ⟨fun apart => ?_, fun _ within => ?_⟩
  · exact absurd ⟨0, _, loop, by omega, by omega, by omega⟩ apart
  · cases back with
    | nil =>
        simp at within
        omega
    | cons closing more =>
        have last := kind_of_functionBlock block rfl
        have closed : Sealed rest := (sealed_body block (List.cons_ne_nil _ _)).behind rfl
        have accounted := (closed.way (closing :: more)).accounted (by simp [last])
        rcases accounted with node | ⟨opener, other⟩
        · have among := among_afterLoop kind
            (before ++ (opening :: front ++ closer :: (rest ++ closing :: more)))
          rw [afterLoop, ends] at among
          have read := (among.nodes rest.length (by simp)).mpr node
          have place : rest.length + ((before ++ opening :: front).length + 2) =
              before.length + 1 + (front ++ closer :: rest).length + 1 := by omega
          rwa [place] at read
        · rcases other.closes.kind with ⟨line, found, same⟩
          simp only [List.getElem?_append_right (Nat.le_refl _), Nat.sub_self,
            List.getElem?_cons_zero, Option.some.injEq] at found
          rw [← found, last] at same
          cases same

/-- The loop goes on behind the body of the function, or to the end of the lines with it. -/
theorem Kept.inside {token : Token} {cut more rest : List Token} (kind : token.kind = .loop)
    (ends : loopBlock (before ++ (cut ++ rest)) = (before ++ cut, rest))
    (parts : cut = opening :: (body ++ more)) (whole : more = [] → rest = [])
    (kept : Kept (before ++ cut) before.length (before.length + body.length + 1)) :
    Kept (token :: (before ++ (cut ++ rest))) (before.length + 1)
      (before.length + 1 + body.length + 1) := by
  have among := among_loopBlock kind (before ++ (cut ++ rest))
  rw [ends] at among
  have size : (before ++ cut).length = before.length + body.length + more.length + 1 := by
    rw [parts, List.length_append, List.length_cons, List.length_append]
    omega
  have fits : before.length + body.length + 1 < (before ++ cut).length ∨
      (before ++ cut).length + 1 = (token :: (before ++ (cut ++ rest))).length := by
    cases more with
    | nil => exact .inr (by simp [whole rfl])
    | cons line more =>
        rw [List.length_cons] at size
        exact .inl (by omega)
  have moved := kept.among among (by omega) fits
  have place : before.length + 1 + body.length + 1 = before.length + body.length + 1 + 1 := by
    omega
  rwa [place]

/-- A loop around the opener of a function ends behind the body of the function or in it. -/
theorem cut_cases {cut rest : List Token} (opens : opening.kind = .define)
    (closes : ∀ closing more, rest = closing :: more → closing.kind = .endLoop)
    (lines : opening :: (body ++ back) = cut ++ rest) :
    (∃ more, cut = opening :: (body ++ more) ∧ back = more ++ rest) ∨
    ∃ front closer more, cut = opening :: front ∧ body = front ++ closer :: more ∧
      rest = closer :: (more ++ back) := by
  rw [← List.cons_append] at lines
  rcases List.append_eq_append_iff.mp lines with ⟨more, inner, outer⟩ | ⟨more, inner, outer⟩
  · exact .inl ⟨more, by rw [inner, List.cons_append], outer⟩
  · cases more with
    | nil =>
        rw [List.append_nil] at inner
        exact .inl ⟨[], by rw [List.append_nil, inner], outer.symm⟩
    | cons closer more =>
        cases cut with
        | nil =>
            have same := closes closer (more ++ back) outer
            rw [List.nil_append, List.cons.injEq] at inner
            rw [← inner.1, opens] at same
            cases same
        | cons line front =>
            cases inner
            exact .inr ⟨front, closer, more, rfl, rfl, outer⟩

/-- Wherever the pass over statements meets the opener of a function, in whatever loops. -/
theorem Way.kept (way : Way before (opening :: (body ++ back))) (opens : opening.kind = .define)
    (block : functionBlock (body ++ back) = (body, back)) :
    Kept (before ++ opening :: (body ++ back)) before.length
      (before.length + body.length + 1) := by
  generalize lines : opening :: (body ++ back) = after at way
  induction way generalizing body back with
  | here =>
      subst lines
      constructor
      · intro _ place _ _ below member
        rw [List.nil_append, nodePlaces_define opens, block] at member
        rcases List.mem_map.mp member with ⟨further, -, rfl⟩
        simp only [List.length_nil] at below
        omega
      · rintro ⟨opener, closer, -, ahead, -⟩
        cases ahead
  | @behind front before after among _ ih =>
      have size : (before ++ after).length = before.length + body.length + back.length + 1 := by
        simp [← lines]
        omega
      have kept := (ih block lines).among among (by omega) (.inr (by simp; omega))
      rw [List.append_assoc, List.length_append]
      have place : front.length + before.length + body.length + 1 =
          before.length + body.length + 1 + front.length := by omega
      rwa [place, Nat.add_comm front.length]
  | @inside token before cut rest kind ends _ ih =>
      have closes (closing : Token) (more : List Token) (parts : rest = closing :: more) :
          closing.kind = .endLoop := by
        subst parts
        exact kind_of_splitBlock (congrArg Prod.snd ends)
      rcases cut_cases opens closes lines with
        ⟨more, inner, rfl⟩ | ⟨front, closer, more, rfl, rfl, rfl⟩
      · rcases functionBlock_cut block closes with ⟨alone, whole⟩
        exact .inside kind ends inner whole (ih alone inner.symm)
      · exact kept_of_crossing kind ends block

/-- The pass that collects functions comes to stand in front of each of their blocks. -/
theorem border_of_mem_functionBlocks {tokens : List Token} {start : Nat} {block : Nat × Nat}
    (member : block ∈ functionBlocks start tokens) :
    ∃ before opening body back,
      tokens = before ++ opening :: (body ++ back) ∧ opening.kind = .define ∧
      functionBlock (body ++ back) = (body, back) ∧ Border before (opening :: (body ++ back)) ∧
      block = (start + before.length, start + before.length + body.length + 1) := by
  induction tokens using collect_induct generalizing start with
  | nil =>
      rw [functionBlocks_nil] at member
      cases member
  | define token tokens kind ih =>
      have parts := functionBlock_append tokens
      rw [functionBlocks_define kind] at member
      cases found : functionBlock tokens with
      | mk body back =>
          simp only [afterFunction, found] at member ih parts
          rcases List.mem_cons.mp member with rfl | later
          · refine ⟨[], token, body, back, by simp [parts], kind, ?_, .here, rfl⟩
            rw [parts, found]
          · cases back with
            | nil =>
                rw [List.drop_nil, functionBlocks_nil] at later
                cases later
            | cons closing rest =>
                rcases ih later with
                  ⟨before, opening, inner, behind, split, opens, block, border, rfl⟩
                rw [List.drop_succ_cons, List.drop_zero] at split
                subst split parts
                refine ⟨token :: (body ++ closing :: before), opening, inner, behind, by simp,
                  opens, block, .block kind found border, ?_⟩
                simp only [List.length_cons, List.length_append, Prod.mk.injEq]
                omega
  | other token tokens kind ih =>
      rw [functionBlocks_other kind] at member
      rcases ih member with ⟨before, opening, body, back, rfl, opens, block, border, rfl⟩
      refine ⟨token :: before, opening, body, back, rfl, opens, block, .line kind border, ?_⟩
      simp only [List.length_cons, Prod.mk.injEq]
      omega

theorem kept_of_mem_functionBlocks {tokens : List Token} {block : Nat × Nat}
    (member : block ∈ functionBlocks 0 tokens) : Kept tokens block.1 block.2 := by
  rcases border_of_mem_functionBlocks member with
    ⟨before, opening, body, back, rfl, opens, ends, border, rfl⟩
  have kept := (border.sealed.way (opening :: (body ++ back))).kept opens ends
  simpa only [Nat.zero_add] using kept

end Parser

theorem Token.line_of_ofLine? {line : Nat} {raw : List Char} {token : Token}
    (given : ofLine? line raw = some token) : token.line = line := by
  unfold ofLine? at given
  split at given
  · cases given
  · cases given
    rfl

/-- The lines of a source are numbered upwards. -/
theorem Token.pairwise_ofSource (source : Text.Source) :
    (Token.ofSource source).Pairwise fun token other => token.line < other.line := by
  have numbers : (source.lines.zipIdx 1).Pairwise fun line other => line.2 < other.2 := by
    rw [← List.pairwise_map, List.zipIdx_map_snd]
    exact List.pairwise_lt_range'
  rw [Token.ofSource, Token.ofLines, List.pairwise_filterMap]
  refine numbers.imp fun {line other} less token given next also => ?_
  rwa [Token.line_of_ofLine? given, Token.line_of_ofLine? also]

theorem Instr.ReadFrom.location_eq {file : String} {token : Token} {instr : Instr}
    (read : instr.ReadFrom file token) : instr.location = some (token.location file) := by
  cases instr with
  | act => exact read.2.2.2
  | loop => exact read.2.2
  | call => exact read.2.2.2
  | unknown => exact read.elim

/-- One of the instructions, at any depth, stands in the line. -/
def HasNode (file : String) (instrs : List Instr) (token : Token) : Prop :=
  ∃ node ∈ blockNodes instrs, node.location = some (token.location file)

/-- A loop of the instructions is opened in front of the function block and closed inside it. -/
def Crosses (file : String) (tokens : List Token) (instrs : List Instr) (block : Nat × Nat) :
    Prop :=
  ∃ opener token closer, tokens[opener]? = some token ∧ HasNode file instrs token ∧
    Parser.Closes tokens opener closer ∧
    opener < block.1 ∧ block.1 < closer ∧ closer < block.2

section Located

variable {file : String} {tokens : List Token} {instrs : List Instr}
  (reads : Parser.Reads file tokens instrs)
  (upwards : tokens.Pairwise fun token other => token.line < other.line)

include reads upwards

/-- Where no two lines have one number, the line of a node can be told by its location. -/
theorem hasNode_iff {place : Nat} {token : Token} (found : tokens[place]? = some token) :
    HasNode file instrs token ↔ place ∈ Parser.nodePlaces tokens := by
  constructor
  · rintro ⟨node, member, located⟩
    rcases Parser.exists_of_mem_right reads.readAt.flip member with
      ⟨other, among, line, also, told⟩
    have same : line.line = token.line := by
      have locations := told.location_eq.symm.trans located
      exact congrArg Location.line (Option.some.inj locations)
    rcases List.getElem?_eq_some_iff.mp found with ⟨bound, rfl⟩
    rcases List.getElem?_eq_some_iff.mp also with ⟨within, rfl⟩
    have ordered := List.pairwise_iff_getElem.mp upwards
    rcases Nat.lt_trichotomy place other with less | rfl | more
    · exact absurd same (Nat.ne_of_gt (ordered _ _ bound within less))
    · exact among
    · exact absurd same (Nat.ne_of_lt (ordered _ _ within bound more))
  · intro member
    rcases Parser.exists_of_mem_right reads.readAt member with ⟨node, among, line, also, told⟩
    cases found.symm.trans also
    exact ⟨node, among, told.location_eq⟩

theorem crosses_iff {block : Nat × Nat} :
    Crosses file tokens instrs block ↔ Parser.Crossed tokens block.1 block.2 := by
  constructor
  · rintro ⟨opener, token, closer, found, node, closes, bounds⟩
    exact ⟨opener, closer, ⟨(hasNode_iff reads upwards found).mp node, closes⟩, bounds⟩
  · rintro ⟨opener, closer, ⟨node, closes⟩, bounds⟩
    have found := List.getElem?_eq_getElem (Parser.lt_length_of_mem_nodePlaces node)
    exact ⟨opener, _, closer, found, (hasNode_iff reads upwards found).mpr node, closes, bounds⟩

end Located

theorem Program.occurs_of_codeOf {program : Program} {instr : Instr} {name caller : String}
    {names : List String} (occurs : Occurs instr (program.codeOf (name :: caller :: names))) :
    ∃ function, program.functions.get? name = some function ∧ Occurs instr function.body := by
  rw [codeOf] at occurs
  cases defined : program.functions.get? name with
  | none =>
      rw [defined] at occurs
      cases occurs
  | some function =>
      rw [defined] at occurs
      exact ⟨function, rfl, occurs⟩

/-- What the main program does not hold is done for a call: the innermost one runs a function
that holds it. -/
theorem Program.Visits.called {source : Text.Source} {file : String} {program : Program}
    {verbose : Bool} {world : World} {moment : Moment} {instr : Instr} {agenda : List Task}
    (parsed : Program.parse source file = .ok program)
    (visited : program.Visits verbose world moment) (up : moment.agenda = .effect instr :: agenda)
    (absent : ¬ Occurs instr program.statements) :
    ∃ frame outer function, moment.machine.stack = frame :: outer ∧ outer ≠ [] ∧
      program.functions.get? frame.name = some function ∧ Occurs instr function.body := by
  have home := visited.atHome parsed
  rw [up, Machine.names_eq] at home
  cases home with
  | task within _ =>
      cases active : moment.machine.stack with
      | nil =>
          rw [active] at within
          cases within
      | cons frame outer =>
          rw [active] at within
          cases outer with
          | nil => exact absurd within absent
          | cons caller outer =>
              rcases Program.occurs_of_codeOf within with ⟨function, defined, occurs⟩
              exact ⟨frame, caller :: outer, function, rfl, List.cons_ne_nil _ _, defined, occurs⟩

/-- Unless a loop of the main program crosses it, no line of a function that is collected
stands in the main program, up to the line that closes the function, and what such a line says
is done only for a call of a function that holds it. Where a loop crosses it, the line that
closes the function stands in the main program. -/
theorem functions_keep_out (source : Text.Source) (file : String) (program : Program)
    (parsed : Program.parse source file = .ok program) (block : Nat × Nat)
    (collected : block ∈ Parser.functionBlocks 0 (Token.ofSource source)) :
    (¬ Crosses file (Token.ofSource source) program.statements block →
      ∀ place token, block.1 < place → place ≤ block.2 →
        (Token.ofSource source)[place]? = some token →
        ¬ HasNode file program.statements token ∧
        ∀ verbose world moment instr agenda, program.Visits verbose world moment →
          moment.agenda = .effect instr :: agenda →
          instr.location = some (token.location file) →
          ∃ frame outer function, moment.machine.stack = frame :: outer ∧ outer ≠ [] ∧
            program.functions.get? frame.name = some function ∧ Occurs instr function.body) ∧
    (Crosses file (Token.ofSource source) program.statements block →
      ∀ token, (Token.ofSource source)[block.2]? = some token →
        HasNode file program.statements token) := by
  rcases (Program.parse_eq_ok_iff source file program).mp parsed with ⟨-, -, reads⟩
  have upwards := Token.pairwise_ofSource source
  have kept := Parser.kept_of_mem_functionBlocks collected
  rw [crosses_iff reads upwards]
  refine ⟨fun apart place token above below found => ?_, fun crossed token found => ?_⟩
  · have bound := (List.getElem?_eq_some_iff.mp found).1
    have absent : ¬ HasNode file program.statements token := by
      rw [hasNode_iff reads upwards found]
      exact kept.out apart place bound above below
    refine ⟨absent, fun verbose world moment instr agenda visited up located => ?_⟩
    exact visited.called parsed up fun occurs => absent ⟨instr, occurs.mem_blockNodes, located⟩
  · have bound := (List.getElem?_eq_some_iff.mp found).1
    exact (hasNode_iff reads upwards found).mpr (kept.crossed crossed bound)

/-- A function in a loop, and a call of it there. -/
def gate : Text.Source :=
  .pieces ["REPEAT 2", "FUNCTION F", "FORWARD", "ENDFUNCTION", "CALL F", "ENDREPEAT"]

def gateProgram : Program :=
  let line (number : Nat) (statement : String) : Option Location :=
    some ⟨"gate", number, 1, statement⟩
  ⟨"gate",
    ⟨[("F", ⟨"F", [], [.act .forward "FORWARD" (line 3 "FORWARD")], line 2 "FUNCTION F"⟩)]⟩,
    [.loop (.literal 2) [.call "F" [] (line 5 "CALL F")] (line 1 "REPEAT 2")]⟩

theorem ofSource_gate : Token.ofSource gate =
    [⟨.loop, "2", 1, 1, "REPEAT 2"⟩, ⟨.define, "F", 2, 1, "FUNCTION F"⟩,
      ⟨.line, "FORWARD", 3, 1, "FORWARD"⟩, ⟨.endDefine, "", 4, 1, "ENDFUNCTION"⟩,
      ⟨.call, "F", 5, 1, "CALL F"⟩, ⟨.endLoop, "", 6, 1, "ENDREPEAT"⟩] := by decide

theorem parse_gate : Program.parse gate "gate" = .ok gateProgram := by
  rw [Program.parse_eq_ok_iff, ofSource_gate]
  refine ⟨rfl, ?_, ?_⟩
  · exact .other (by decide) (.define rfl (.act (.inl rfl) .nil)
      (.other (by decide) (.other (by decide) .nil)))
  · exact .loop rfl rfl (.define rfl (.call rfl rfl .nil)) .nil

/-- A loop that ends inside a function. -/
def leak : Text.Source :=
  .pieces ["REPEAT 2", "FUNCTION F", "ENDREPEAT", "FORWARD", "ENDFUNCTION"]

def leakProgram : Program :=
  let line (number : Nat) (statement : String) : Option Location :=
    some ⟨"leak", number, 1, statement⟩
  let forward := Instr.act .forward "FORWARD" (line 4 "FORWARD")
  ⟨"leak",
    ⟨[("F", ⟨"F", [], [.act .noop "ENDREPEAT" (line 3 "ENDREPEAT"), forward],
      line 2 "FUNCTION F"⟩)]⟩,
    [.loop (.literal 2) [] (line 1 "REPEAT 2"), forward,
      .act .noop "ENDFUNCTION" (line 5 "ENDFUNCTION")]⟩

theorem ofSource_leak : Token.ofSource leak =
    [⟨.loop, "2", 1, 1, "REPEAT 2"⟩, ⟨.define, "F", 2, 1, "FUNCTION F"⟩,
      ⟨.endLoop, "", 3, 1, "ENDREPEAT"⟩, ⟨.line, "FORWARD", 4, 1, "FORWARD"⟩,
      ⟨.endDefine, "", 5, 1, "ENDFUNCTION"⟩] := by decide

theorem parse_leak : Program.parse leak "leak" = .ok leakProgram := by
  rw [Program.parse_eq_ok_iff, ofSource_leak]
  refine ⟨rfl, ?_, ?_⟩
  · exact .other (by decide)
      (.define rfl (.act (.inr (.inl rfl)) (.act (.inl rfl) .nil)) .nil)
  · exact .loop rfl rfl (.define rfl .nil) (.act (.inl rfl) (.act (.inr (.inr rfl)) .nil))

theorem functionBlocks_gate : Parser.functionBlocks 0 (Token.ofSource gate) = [(1, 3)] := by
  rw [ofSource_gate]
  simp [Parser.functionBlocks, Parser.afterFunction, Parser.functionBlock, Parser.splitBlock]

theorem functionBlocks_leak : Parser.functionBlocks 0 (Token.ofSource leak) = [(1, 4)] := by
  rw [ofSource_leak]
  simp [Parser.functionBlocks, Parser.afterFunction, Parser.functionBlock, Parser.splitBlock]

theorem functions_keep_out_of_gate :
    Program.parse gate "gate" = .ok gateProgram ∧
    (1, 3) ∈ Parser.functionBlocks 0 (Token.ofSource gate) ∧
    ¬ Crosses "gate" (Token.ofSource gate) gateProgram.statements (1, 3) ∧
    ¬ HasNode "gate" gateProgram.statements ⟨.line, "FORWARD", 3, 1, "FORWARD"⟩ ∧
    (∀ verbose world moment instr agenda, gateProgram.Visits verbose world moment →
      moment.agenda = .effect instr :: agenda →
      instr.location = some ⟨"gate", 3, 1, "FORWARD"⟩ →
      ∃ frame outer function, moment.machine.stack = frame :: outer ∧ outer ≠ [] ∧
        gateProgram.functions.get? frame.name = some function ∧ Occurs instr function.body) ∧
    Program.parse leak "leak" = .ok leakProgram ∧
    (1, 4) ∈ Parser.functionBlocks 0 (Token.ofSource leak) ∧
    Crosses "leak" (Token.ofSource leak) leakProgram.statements (1, 4) ∧
    HasNode "leak" leakProgram.statements ⟨.endDefine, "", 5, 1, "ENDFUNCTION"⟩ := by
  have inGate : (1, 3) ∈ Parser.functionBlocks 0 (Token.ofSource gate) := by
    simp [functionBlocks_gate]
  have inLeak : (1, 4) ∈ Parser.functionBlocks 0 (Token.ofSource leak) := by
    simp [functionBlocks_leak]
  have apart : ¬ Crosses "gate" (Token.ofSource gate) gateProgram.statements (1, 3) := by
    rintro ⟨opener, token, closer, -, -, closes, -, above, below⟩
    obtain rfl : closer = 2 := by omega
    rcases closes.kind with ⟨closing, found, kind⟩
    rw [ofSource_gate] at found
    cases found
    cases kind
  have crosses : Crosses "leak" (Token.ofSource leak) leakProgram.statements (1, 4) := by
    rw [ofSource_leak]
    refine ⟨0, _, 2, rfl, ⟨_, .head _, rfl⟩, ?_, by decide, by decide, by decide⟩
    exact .here rfl (by decide)
  have kept := functions_keep_out gate "gate" gateProgram parse_gate (1, 3) inGate
  have read := functions_keep_out leak "leak" leakProgram parse_leak (1, 4) inLeak
  have out := kept.1 apart 2 ⟨.line, "FORWARD", 3, 1, "FORWARD"⟩ (by decide) (by decide)
    (by rw [ofSource_gate]; rfl)
  have last := read.2 crosses ⟨.endDefine, "", 5, 1, "ENDFUNCTION"⟩ (by rw [ofSource_leak]; rfl)
  exact ⟨parse_gate, inGate, apart, out.1, out.2, parse_leak, inLeak, crosses, last⟩

/-- Behind the end of the loop the function goes on in the main program, and a run does what
stands there although nothing is called. -/
theorem function_line_in_main :
    Program.parse leak "leak" = .ok leakProgram ∧
    (1, 4) ∈ Parser.functionBlocks 0 (Token.ofSource leak) ∧
    ∃ token instr, (Token.ofSource leak)[3]? = some token ∧
      instr.location = some (token.location "leak") ∧
      instr ∈ blockNodes leakProgram.statements ∧
      ∃ moment agenda, leakProgram.Visits false tile moment ∧
        moment.agenda = .effect instr :: agenda ∧ moment.machine.stack.length = 1 := by
  have start : leakProgram.Visits false tile (leakProgram.start false tile) := .refl
  have looped := (start.tail (.log rfl)).tail (.loop rfl)
  have through := ((looped.tail (.again)).tail .again).tail .through
  refine ⟨parse_leak, by simp [functionBlocks_leak], ⟨.line, "FORWARD", 4, 1, "FORWARD"⟩, _,
    by rw [ofSource_leak]; rfl, rfl, .tail _ (.head _), _, _, through.tail (.log rfl), rfl, rfl⟩

end Lamplighter
