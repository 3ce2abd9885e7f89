import Lamplighter.Proofs.Program.Crossing

/-! Idle lines, and programs without them.

An idle instruction gives no order, or it calls a function that there is not. In a parsed
program each line holds one instruction at most, so a location tells whether what stands there
is idle. Main statement: `Program.tells_of_parse`. -/

namespace Lamplighter

/-- It is logged when its turn comes, and that is all. -/
def Instr.idle (functions : Table FunDef) : Instr → Bool
  | .act opcode _ _ => opcode = .noop
  | .call name _ _ => (functions.get? name).isNone
  | .loop _ _ _ | .unknown _ => false

mutual

def Instr.pruned (functions : Table FunDef) : Instr → Instr
  | .act opcode text location => .act opcode text location
  | .loop count body location => .loop count (prunedBlock functions body) location
  | .call name args location => .call name args location
  | .unknown location => .unknown location

/-- The block without its idle instructions, and without those inside its loops. -/
def prunedBlock (functions : Table FunDef) : List Instr → List Instr
  | [] => []
  | instr :: instrs =>
    if instr.idle functions then prunedBlock functions instrs
    else instr.pruned functions :: prunedBlock functions instrs

end

def FunDef.pruned (functions : Table FunDef) (function : FunDef) : FunDef :=
  { function with body := prunedBlock functions function.body }

namespace Program

/-- The main program and all functions, each without its idle instructions. -/
def pruned (program : Program) : Program where
  file := program.file
  functions := program.functions.mapValues (FunDef.pruned program.functions)
  statements := prunedBlock program.functions program.statements

theorem get?_pruned (program : Program) (name : String) :
    program.pruned.functions.get? name =
      (program.functions.get? name).map (FunDef.pruned program.functions) :=
  Table.get?_mapValues ..

/-- The bodies of the functions, in the order of the table. -/
def bodies (program : Program) : List (List Instr) :=
  program.functions.keys.filterMap fun name => (program.functions.get? name).map FunDef.body

/-- The instructions at every depth, those of the main program first. -/
def nodes (program : Program) : List Instr :=
  blockNodes program.statements ++ program.bodies.flatMap blockNodes

theorem mem_nodes_iff {program : Program} {instr : Instr} :
    instr ∈ program.nodes ↔ program.Has instr := by
  simp only [nodes, bodies, List.mem_append, List.mem_flatMap, List.mem_filterMap,
    Option.map_eq_some_iff]
  constructor
  · rintro (main | ⟨_, ⟨name, _, function, found, rfl⟩, member⟩)
    · exact .inl (occurs_of_mem_blockNodes main)
    · exact .inr ⟨name, function, found, occurs_of_mem_blockNodes member⟩
  · rintro (main | ⟨name, function, found, occurs⟩)
    · exact .inl main.mem_blockNodes
    · have listed : name ∈ program.functions.keys := by
        by_contra absent
        rw [Table.get?_eq_none absent] at found
        cases found
      exact .inr ⟨_, ⟨name, listed, function, found, rfl⟩, occurs.mem_blockNodes⟩

/-- An idle instruction of the program stands here. -/
def idleAt (program : Program) (location : Option Location) : Bool :=
  program.nodes.any fun node => node.idle program.functions && node.location = location

theorem idleAt_iff {program : Program} {location : Option Location} :
    program.idleAt location = true ↔
      ∃ node, program.Has node ∧ node.idle program.functions = true ∧ node.location = location := by
  simp only [idleAt, List.any_eq_true, mem_nodes_iff, Bool.and_eq_true, decide_eq_true_eq]

/-- Every instruction can be run, and its location tells whether it is idle. -/
structure Tells (program : Program) : Prop where
  known : ∀ location, ¬ program.Has (.unknown location)
  idle : ∀ instr, program.Has instr →
    program.idleAt instr.location = instr.idle program.functions

end Program

/-- What the line holds is idle. -/
def Token.idle (functions : Table FunDef) (token : Token) : Bool :=
  match token.kind with
  | .call => (functions.get? (Parser.signature token.value).1).isNone
  | .loop => false
  | _ => Opcode.ofStatement token.statement = .noop

theorem Instr.ReadFrom.idle_eq {file : String} {token : Token} {instr : Instr}
    (read : instr.ReadFrom file token) (functions : Table FunDef) :
    instr.idle functions = token.idle functions := by
  cases instr with
  | act opcode text location =>
      obtain ⟨kind, stands, -⟩ := read
      rcases kind with kind | kind | kind <;> simp only [Instr.idle, Token.idle, kind, stands]
  | loop count body location =>
      have kind : token.kind = .loop := read.1
      simp only [Instr.idle, Token.idle, kind]
  | call name args location =>
      obtain ⟨kind, named, -⟩ := read
      simp only [Instr.idle, Token.idle, kind, named]
  | unknown location => exact read.elim

/-- No two lines of a source are at one place. -/
theorem Token.eq_of_location {source : Text.Source} {file : String} {one two : Token}
    (first : one ∈ ofSource source) (second : two ∈ ofSource source)
    (same : one.location file = two.location file) : one = two := by
  have numbers : ((ofSource source).map Token.line).Nodup :=
    List.pairwise_map.mpr ((pairwise_ofSource source).imp fun less => Nat.ne_of_lt less)
  exact List.inj_on_of_nodup_map numbers first second (congrArg Location.line same)

theorem Program.tells_of_parse {source : Text.Source} {file : String} {program : Program}
    (parsed : Program.parse source file = .ok program) : program.Tells where
  known := by
    intro location has
    obtain ⟨_, _, impossible⟩ := has.readFrom parsed
    exact impossible
  idle := by
    intro instr has
    obtain ⟨token, member, read⟩ := has.readFrom parsed
    -- Whatever else stands there was read from the same line.
    have alike (node : Instr) (also : program.Has node) (there : node.location = instr.location) :
        node.idle program.functions = instr.idle program.functions := by
      obtain ⟨line, listed, other⟩ := also.readFrom parsed
      rw [other.location_eq, read.location_eq] at there
      have same : line = token := Token.eq_of_location listed member (Option.some.inj there)
      rw [other.idle_eq, read.idle_eq, same]
    cases idle : instr.idle program.functions with
    | true => exact idleAt_iff.mpr ⟨instr, has, idle, rfl⟩
    | false =>
        rw [← Bool.not_eq_true, idleAt_iff]
        rintro ⟨node, also, dead, there⟩
        rw [alike node also there, idle] at dead
        cases dead

end Lamplighter
