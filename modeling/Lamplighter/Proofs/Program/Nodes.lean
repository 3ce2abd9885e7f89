import Lamplighter.Proofs.Program.Insertion
import Lamplighter.Proofs.Program.Lines
import Lamplighter.Proofs.Program.Way

/-! Which lines the nodes of a tree come from.

The nodes come from the lines in the order of the lines and no two from one line, however
the blocks are crossed or left open. Outside the functions that are collected, the lines
without a node define a function or close a loop of the tree. Main statement: `no_line_lost`. -/

namespace Lamplighter

mutual

/-- The instruction in front of all that stand inside it. -/
def Instr.nodes : Instr → List Instr
  | .act opcode text location => [.act opcode text location]
  | .loop count body location => .loop count body location :: blockNodes body
  | .call name args location => [.call name args location]
  | .unknown location => [.unknown location]

/-- The instructions of a block at every depth, in the order in which they are met. -/
def blockNodes : List Instr → List Instr
  | [] => []
  | instr :: instrs => instr.nodes ++ blockNodes instrs

end

theorem Occurs.mem_blockNodes {instr : Instr} {instrs : List Instr} (occurs : Occurs instr instrs) :
    instr ∈ blockNodes instrs := by
  induction occurs with
  | head =>
      rw [blockNodes]
      refine List.mem_append_left _ ?_
      cases instr <;> exact .head _
  | tail _ ih =>
      rw [blockNodes]
      exact List.mem_append_right _ ih
  | body _ ih =>
      rw [blockNodes, Instr.nodes]
      exact List.mem_append_left _ (.tail _ ih)

mutual

theorem occurs_of_mem_nodes {instr node : Instr} (member : instr ∈ node.nodes)
    (rest : List Instr) : Occurs instr (node :: rest) := by
  cases node with
  | act | call | unknown =>
      rw [Instr.nodes, List.mem_singleton] at member
      rw [member]
      exact .head
  | loop count body location =>
      rw [Instr.nodes] at member
      rcases List.mem_cons.mp member with rfl | inner
      · exact .head
      · exact .body (occurs_of_mem_blockNodes inner)
termination_by structural node

theorem occurs_of_mem_blockNodes {instr : Instr} {instrs : List Instr}
    (member : instr ∈ blockNodes instrs) : Occurs instr instrs := by
  cases instrs with
  | nil => cases member
  | cons node rest =>
      rw [blockNodes] at member
      rcases List.mem_append.mp member with here | later
      · exact occurs_of_mem_nodes here rest
      · exact .tail (occurs_of_mem_blockNodes later)
termination_by structural instrs

end

/-- The instruction says what the line of this number says. -/
def Instr.ReadAt (file : String) (tokens : List Token) (instr : Instr) (place : Nat) : Prop :=
  ∃ token, tokens[place]? = some token ∧ instr.ReadFrom file token

namespace Parser

variable {file : String} {token : Token} {tokens : List Token}

section ReadAt

variable {instr : Instr} {place : Nat}

theorem readAt_behind (read : instr.ReadAt file tokens place) (front : List Token) :
    instr.ReadAt file (front ++ tokens) (place + front.length) := by
  rcases read with ⟨line, found, told⟩
  refine ⟨line, ?_, told⟩
  rw [List.getElem?_append_right (Nat.le_add_left ..), Nat.add_sub_cancel, found]

theorem readAt_in_front (read : instr.ReadAt file tokens place) (back : List Token) :
    instr.ReadAt file (tokens ++ back) place := by
  rcases read with ⟨line, found, told⟩
  have bound := (List.getElem?_eq_some_iff.mp found).1
  refine ⟨line, ?_, told⟩
  rw [List.getElem?_append_left bound, found]

theorem readAt_after_block {opening closing : Token.Kind} {depth : Nat} (token : Token)
    (read : instr.ReadAt file ((splitBlock opening closing depth tokens).2.drop 1) place) :
    instr.ReadAt file (token :: tokens)
      (place + ((splitBlock opening closing depth tokens).1.length + 2)) := by
  have more : (splitBlock opening closing depth tokens).2.drop 1 ≠ [] := by
    rintro empty
    rcases read with ⟨line, found, -⟩
    rw [empty] at found
    cases found
  rcases parts_behind token more with ⟨front, parts, length⟩
  rw [parts, ← length]
  exact readAt_behind read front

end ReadAt

theorem Reads.readAt {instrs : List Instr} (reads : Reads file tokens instrs) :
    List.Forall₂ (Instr.ReadAt file tokens) (blockNodes instrs) (nodePlaces tokens) := by
  have next {token : Token} {tokens : List Token} {nodes : List Instr} {places : List Nat}
      (read : List.Forall₂ (Instr.ReadAt file tokens) nodes places) :
      List.Forall₂ (Instr.ReadAt file (token :: tokens)) nodes (places.map (· + 1)) :=
    List.forall₂_map_right_iff.mpr (read.imp fun _ _ read => readAt_behind read [token])
  induction reads with
  | nil =>
      rw [nodePlaces]
      exact .nil
  | define kind _ ih =>
      rw [nodePlaces_define kind]
      exact List.forall₂_map_right_iff.mpr (ih.imp fun _ _ read => readAt_after_block _ read)
  | @loop token tokens count body instrs kind counted _ _ ihBody ihRest =>
      have inside : List.Forall₂ (Instr.ReadAt file tokens) (blockNodes body)
          (nodePlaces (loopBlock tokens).1) := by
        have front := ihBody.imp fun _ _ read => readAt_in_front read (loopBlock tokens).2
        rwa [loopBlock_append] at front
      have behind := ihRest.imp fun _ _ read => readAt_after_block token read
      rw [nodePlaces_loop kind, blockNodes, Instr.nodes]
      exact .cons ⟨token, rfl, kind, counted, rfl⟩
        (List.rel_append (next inside) (List.forall₂_map_right_iff.mpr behind))
  | call kind valued _ ih =>
      rw [nodePlaces_single (by simp [kind]) (by simp [kind]), blockNodes, Instr.nodes]
      exact .cons ⟨_, rfl, kind, rfl, valued, rfl⟩ (next ih)
  | act kind _ ih =>
      rw [nodePlaces_single kind.kind_ne.1 kind.kind_ne.2, blockNodes, Instr.nodes]
      exact .cons ⟨_, rfl, kind, rfl, rfl, rfl⟩ (next ih)

theorem exists_of_mem_right {α β : Type} {related : α → β → Prop} {left : List α} {right : List β}
    (pairs : List.Forall₂ related left right) {value : β} (member : value ∈ right) :
    ∃ other ∈ left, related other value := by
  induction pairs with
  | nil => cases member
  | cons pair _ ih =>
      rcases List.mem_cons.mp member with rfl | later
      · exact ⟨_, .head _, pair⟩
      · rcases ih later with ⟨other, among, pair⟩
        exact ⟨other, .tail _ among, pair⟩

/-- Instructions account for lines. Their nodes, in the order in which they are met, were
read from lines further and further down. A line outside the functions that are collected
has a node, unless it defines a function or closes a loop that a node is. -/
structure Accounts (file : String) (tokens : List Token) (instrs : List Instr)
    (places : List Nat) : Prop where
  read : List.Forall₂ (Instr.ReadAt file tokens) (blockNodes instrs) places
  ordered : places.Pairwise (· < ·)
  complete : ∀ place token, Outside tokens place → tokens[place]? = some token →
    (place ∈ places ↔
      token.kind ≠ .define ∧ ∀ opener ∈ places, ¬ Closes tokens opener place)

theorem kind_ne_define_of_readFrom {instr : Instr} (read : instr.ReadFrom file token) :
    token.kind ≠ .define := by
  cases instr with
  | act => rcases read with ⟨kind | kind | kind, -⟩ <;> simp [kind]
  | loop => simp [read.1]
  | call => simp [read.1]
  | unknown => exact read.elim

/-- The pass over statements comes to every line outside the functions that are collected. -/
theorem Outside.accounted {place : Nat} (outside : Outside tokens place)
    (found : tokens[place]? = some token) (known : token.kind ≠ .define) :
    Accounted tokens place := by
  rcases List.getElem?_eq_some_iff.mp found with ⟨bound, rfl⟩
  have way := outside.border.sealed.way (tokens.drop place)
  rw [List.drop_eq_getElem_cons bound] at way
  have accounted := way.accounted known
  rwa [List.length_take_of_le outside.bound, ← List.drop_eq_getElem_cons bound,
    List.take_append_drop] at accounted

theorem Reads.accounts {instrs : List Instr} (reads : Reads file tokens instrs) :
    Accounts file tokens instrs (nodePlaces tokens) := by
  refine ⟨reads.readAt, pairwise_nodePlaces tokens, fun place token outside found => ?_⟩
  constructor
  · intro node
    rcases exists_of_mem_right reads.readAt node with ⟨instr, -, line, same, told⟩
    cases found.symm.trans same
    refine ⟨kind_ne_define_of_readFrom told, fun opener other closes => ?_⟩
    exact LoopAt.not_mem ⟨other, closes⟩ node
  · intro plain
    rcases outside.accounted found plain.1 with node | ⟨opener, other, closes⟩
    · exact node
    · exact absurd closes (plain.2 opener other)

/-- The lines between the line that opens a block and its end. -/
def inside (tokens : List Token) (block : Nat × Nat) : List Token :=
  (tokens.take block.2).drop (block.1 + 1)

/-- The function is the one that is defined by this block. -/
def DefinedBy (file : String) (tokens : List Token) (block : Nat × Nat) (function : FunDef) :
    Prop :=
  ∃ opening, tokens[block.1]? = some opening ∧ opening.kind = .define ∧
    function = defined file opening function.body ∧
    statements file (inside tokens block) = .ok function.body

theorem inside_here (token : Token) (tokens front : List Token) :
    inside (front ++ token :: tokens)
        (front.length, front.length + (functionBlock tokens).1.length + 1) =
      (functionBlock tokens).1 := by
  have whole : front ++ token :: tokens =
      front ++ [token] ++ (functionBlock tokens).1 ++ (functionBlock tokens).2 := by
    rw [List.append_assoc, functionBlock_append, List.append_assoc, List.singleton_append]
  rw [inside, whole, List.take_left' (by simp; omega), List.drop_left' (by simp)]

theorem definedBy_here (kind : token.kind = .define) {body : List Instr}
    (read : statements file (functionBlock tokens).1 = .ok body) (front : List Token) :
    DefinedBy file (front ++ token :: tokens)
      (front.length, front.length + (functionBlock tokens).1.length + 1)
      (defined file token body) := by
  refine ⟨token, ?_, kind, rfl, ?_⟩
  · rw [List.getElem?_append_right (Nat.le_refl _), Nat.sub_self, List.getElem?_cons_zero]
  · rw [inside_here]
    exact read

/-- The table is made of what each block defines, one after the other. -/
theorem functions_eq_foldl {table final : Table FunDef}
    (parsed : functions file tokens table = .ok final) (front : List Token) :
    ∃ functions, final = functions.foldl (fun table function => table.insert function.name function)
        table ∧
      List.Forall₂ (DefinedBy file (front ++ tokens)) (functionBlocks front.length tokens)
        functions := by
  induction tokens using collect_induct generalizing table front with
  | nil =>
      rw [functions] at parsed
      cases parsed
      refine ⟨[], rfl, ?_⟩
      rw [functionBlocks_nil]
      exact .nil
  | define token tokens kind ih =>
      rw [functions_define kind, bind_eq_ok] at parsed
      rcases parsed with ⟨body, read, behind⟩
      have first := definedBy_here kind read front
      rw [functionBlocks_define kind]
      cases back : (functionBlock tokens).2 with
      | nil =>
          have nothing : afterFunction tokens = [] := by rw [afterFunction, back, List.drop_nil]
          rw [nothing, functions] at behind
          cases behind
          refine ⟨[defined file token body], rfl, ?_⟩
          rw [nothing, functionBlocks_nil]
          exact .cons first .nil
      | cons closing rest =>
          have whole : front ++ token :: tokens = front ++
              token :: ((functionBlock tokens).1 ++ [closing]) ++ afterFunction tokens := by
            have parts := functionBlock_append tokens
            rw [back] at parts
            simp [afterFunction, back, parts]
          rcases ih behind (front ++ token :: ((functionBlock tokens).1 ++ [closing])) with
            ⟨functions, made, others⟩
          refine ⟨defined file token body :: functions, made, .cons first ?_⟩
          rw [whole]
          simpa [Nat.add_assoc] using others
  | other token tokens kind ih =>
      rw [functions_other kind] at parsed
      rcases ih parsed (front ++ [token]) with ⟨functions, made, defined⟩
      refine ⟨functions, made, ?_⟩
      rw [functionBlocks_other kind]
      simpa using defined

end Parser

/-- Lines with short literals are parsed, and no line is lost. The main statements account for
the lines, and the body of each function that is collected for the lines between the one that
opens its block and the end of the block. These functions, one after the other, make the table. -/
theorem no_line_lost (file : String) (tokens : List Token) (short : ∀ token ∈ tokens, token.Short) :
    ∃ program, Program.ofTokens file tokens = .ok program ∧
      (∃ places, Parser.Accounts file tokens program.statements places) ∧
      ∃ functions,
        program.functions = .ofList (functions.map fun function => (function.name, function)) ∧
        List.Forall₂ (fun block function =>
            Parser.DefinedBy file tokens block function ∧
            ∃ places, Parser.Accounts file (Parser.inside tokens block) function.body places)
          (Parser.functionBlocks 0 tokens) functions := by
  rcases Program.ofTokens_of_short file short with ⟨program, parsed⟩
  rcases (Program.ofTokens_eq_ok_iff _ _ _).mp parsed with ⟨-, collected, read⟩
  rcases Parser.functions_eq_foldl collected [] with ⟨functions, made, defined⟩
  refine ⟨program, parsed, ⟨_, (Parser.reads_of_statements _ _ read).accounts⟩, functions, ?_, ?_⟩
  · rw [made, Table.ofList, List.foldl_map]
  · refine defined.imp fun block function told => ⟨told, ?_⟩
    rcases told with ⟨_, _, _, _, body⟩
    exact ⟨_, (Parser.reads_of_statements _ _ body).accounts⟩

/-- Both functions have one name, the first crosses a loop, and the last is never closed. -/
theorem no_line_lost_of_crossed :
    (∀ token ∈ crossed, token.Short) ∧
    (∃ places, Parser.Accounts "crossed" crossed crossedProgram.statements places) ∧
    ∃ functions,
      crossedProgram.functions = .ofList (functions.map fun function => (function.name, function)) ∧
      List.Forall₂ (fun block function =>
          Parser.DefinedBy "crossed" crossed block function ∧
          ∃ places, Parser.Accounts "crossed" (Parser.inside crossed block) function.body places)
        [(1, 3), (6, 7)] functions := by
  have short : ∀ token ∈ crossed, token.Short := by decide
  rcases no_line_lost "crossed" crossed short with ⟨program, parsed, main, functions, made, bodies⟩
  have same : program = crossedProgram := Except.ok.inj (parsed.symm.trans ofTokens_crossed)
  rw [same] at main made
  rw [functionBlocks_crossed] at bodies
  exact ⟨short, main, functions, made, bodies⟩

end Lamplighter
