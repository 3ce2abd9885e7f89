import Lamplighter.Proofs.Program.Signature
import Lamplighter.Proofs.Run.CallChain
import Lamplighter.Proofs.Run.Footing
import Lamplighter.Proofs.Run.Progress

/-! What a fault of a parsed program says.

Nothing goes wrong in a run but that a name is looked up that no active call binds, and
the fault holds that name and the line that asks for it. Main statement:
`fault_blames_unbound_name`. -/

namespace Lamplighter

namespace Parser

theorem expressions_cons_eq_ok {text : String} {texts : List String} {exprs : List Expr}
    (read : expressions (text :: texts) = .ok exprs) :
    ∃ first rest, expression text = .ok first ∧ expressions texts = .ok rest ∧
      exprs = first :: rest := by
  simp only [expressions, bind_eq_ok] at read
  obtain ⟨first, head, rest, tail, result⟩ := read
  cases result
  exact ⟨first, rest, head, tail, rfl⟩

/-- A text is read as a literal, or as a name when it does not have the form of one. -/
theorem expression_eq_ok {text : String} {expr : Expr} (read : expression text = .ok expr) :
    (∃ value, expr = .literal value) ∨ expr = .identifier text ∧ ¬ Text.IsNumeral text := by
  unfold expression at read
  split at read
  case h_1 none =>
    cases read
    exact .inr ⟨rfl, by simp [Text.IsNumeral, none]⟩
  case h_2 numeral _ =>
    split at read
    · cases read
    · cases read
      exact .inl ⟨numeral.value, rfl⟩

end Parser

namespace Scope

variable {scope : Scope}

theorem find?_eq_none_iff {name : String} :
    scope.find? name = none ↔
      ∀ bindings ∈ scope.bindings :: scope.outer, bindings.get? name = none :=
  List.findSome?_eq_none_iff

/-- Where a text that was read has no value, it is a name without one. -/
theorem unresolved_of_eval {text : String} {expr : Expr} {cause : Cause}
    (read : Parser.expression text = .ok expr) (failed : scope.eval expr = .error cause) :
    cause = .unresolved text ∧ ¬ Text.IsNumeral text ∧ scope.find? text = none := by
  rcases Parser.expression_eq_ok read with ⟨value, rfl⟩ | ⟨rfl, name⟩
  · cases failed
  · rw [eval] at failed
    cases found : scope.find? text with
    | some value =>
        rw [found] at failed
        cases failed
    | none =>
        rw [found] at failed
        cases failed
        exact ⟨rfl, name, rfl⟩

/-- Arguments are looked at from the left, so those before the one that fails have values. -/
theorem first_unresolved {texts : List String} {exprs : List Expr} {cause : Cause}
    (read : Parser.expressions texts = .ok exprs) (failed : scope.evalAll exprs = .error cause) :
    ∃ before text after args values, texts = before ++ text :: after ∧
      Parser.expressions before = .ok args ∧ scope.evalAll args = .ok values ∧
      cause = .unresolved text ∧ ¬ Text.IsNumeral text ∧ scope.find? text = none := by
  induction texts generalizing exprs with
  | nil =>
      cases read
      cases failed
  | cons text texts ih =>
      obtain ⟨first, rest, head, tail, rfl⟩ := Parser.expressions_cons_eq_ok read
      cases evaluated : scope.eval first with
      | error other =>
          have same : other = cause := by
            rw [evalAll, evaluated] at failed
            exact Except.error.inj failed
          obtain ⟨blamed, name, absent⟩ := unresolved_of_eval head evaluated
          exact ⟨[], text, texts, [], [], rfl, rfl, rfl, same ▸ blamed, name, absent⟩
      | ok value =>
          have later : scope.evalAll rest = .error cause := by
            cases others : scope.evalAll rest with
            | error other =>
                rw [evalAll, evaluated, others] at failed
                exact failed
            | ok values =>
                rw [evalAll, evaluated, others] at failed
                cases failed
          obtain ⟨before, name, after, args, values, rfl, earlier, valued, blamed⟩ := ih tail later
          refine ⟨text :: before, name, after, first :: args, value :: values, rfl, ?_, ?_, blamed⟩
          · simp only [Parser.expressions, bind_eq_ok]
            exact ⟨first, head, args, earlier, rfl⟩
          · exact evalAll_cons_eq_ok_iff.mpr ⟨value, values, evaluated, valued, rfl⟩

end Scope

/-- What the innermost call sees is what the active calls bind, from the inside out. -/
theorem CallChain.bindings_eq {program : Program} {tokens : List Token} {frame : Frame}
    {frames : List Frame} (chain : CallChain program tokens (frame :: frames).reverse) :
    frame.scope.bindings :: frame.scope.outer =
      (frame :: frames).map fun active => active.scope.bindings := by
  induction frames generalizing frame with
  | nil =>
      obtain ⟨⟨last, top⟩, _⟩ := CallChain.reverse_iff.mp chain
      cases top
      rfl
  | cons caller frames ih =>
      have outer := ih (chain.pop (List.cons_ne_nil caller frames))
      have calls := (List.isChain_cons_cons.mp (CallChain.reverse_iff.mp chain).2).1
      obtain ⟨_, _, _, _, _, called⟩ := calls
      rw [called.parent, outer]
      rfl

/-- The line asks for the value of this name: as the count of a loop, or as an argument
of a call of a defined function, where all arguments before it have values for the
calling frame. -/
inductive AsksFor (program : Program) (frame : Frame) (name : String) (token : Token) : Prop where
  | count (line : token.kind = .loop) (text : token.value = name)
  | argument {function : FunDef} {before after : List String} {args : List Expr} {values : List Int}
      (line : token.kind = .call)
      (defined : program.functions.get? (Parser.signature token.value).1 = some function)
      (items : (Parser.signature token.value).2 = before ++ name :: after)
      (earlier : Parser.expressions before = .ok args)
      (valued : frame.scope.evalAll args = .ok values)

/-- The fault is that this name has no value: the line where it is asked for failed in
the innermost frame, and none of the frames binds it. -/
structure Fault.Blames (fault : Fault) (program : Program) (token : Token) (name : String)
    (frames : List Frame) : Prop where
  cause : fault.cause = .unresolved name
  location : fault.location = some (token.location program.file)
  saved : fault.stack = some frames
  asked : ∃ frame, frames.getLast? = some frame ∧ AsksFor program frame name token
  word : ¬ Text.IsNumeral name
  unbound : ∀ frame ∈ frames, frame.scope.bindings.get? name = none

theorem Fault.Blames.of_scope {program : Program} {tokens : List Token} {machine : Machine}
    {token : Token} {name : String} {location : Option Location}
    (chain : CallChain program tokens machine.stack.reverse)
    (place : location = some (token.location program.file))
    (asks : ∀ frame, frame.scope = machine.scope → AsksFor program frame name token)
    (word : ¬ Text.IsNumeral name) (absent : machine.scope.find? name = none) :
    (machine.fault (.unresolved name) location).Blames program token name machine.stack.reverse := by
  obtain ⟨⟨last, top⟩, _⟩ := CallChain.reverse_iff.mp chain
  cases stack : machine.stack with
  | nil =>
      rw [stack] at top
      cases top
  | cons frame frames =>
      have scope : frame.scope = machine.scope := by rw [Machine.scope, stack]
      rw [stack] at chain
      rw [← scope, Scope.find?_eq_none_iff, chain.bindings_eq] at absent
      refine ⟨rfl, place, by rw [Machine.fault, stack], ⟨frame, ?_, asks frame scope⟩, word, ?_⟩
      · rw [List.getLast?_reverse, List.head?_cons]
      · intro active member
        exact absent _ (List.mem_map_of_mem (List.mem_reverse.mp member))

theorem Program.Visits.blames {source : Text.Source} {file : String} {program : Program}
    {verbose : Bool} {world : World} {moment : Moment} {limit : Nat} {fault : Fault}
    (parsed : Program.parse source file = .ok program)
    (visited : program.Visits verbose world moment)
    (ends : Moment.Ends program.functions limit moment (.failed fault)) :
    ∃ name frames, ∃ token ∈ Token.ofSource source, fault.Blames program token name frames := by
  have chain := visited.callChain parsed
  obtain ⟨rfl, _, _⟩ := (Program.parse_eq_ok_iff source file program).mp parsed
  cases ends with
  | unknown =>
      have has : program.Has _ := visited.of_program (.instr _) (.head _)
      obtain ⟨_, _, impossible⟩ := has.readFrom parsed
      exact impossible.elim
  | loop failed =>
      have has : program.Has _ := visited.of_program (.effect _) (.head _)
      obtain ⟨token, member, kind, counted, place⟩ := has.readFrom parsed
      obtain ⟨rfl, word, absent⟩ := Scope.unresolved_of_eval counted failed
      exact ⟨token.value, _, token, member,
        .of_scope chain place (fun _ _ => .count kind rfl) word absent⟩
  | call defined failed =>
      have has : program.Has _ := visited.of_program (.effect _) (.head _)
      obtain ⟨token, member, kind, named, read, place⟩ := has.readFrom parsed
      obtain ⟨before, name, after, args, values, items, earlier, valued, rfl, word, absent⟩ :=
        Scope.first_unresolved read failed
      rw [← named] at defined
      refine ⟨name, _, token, member, .of_scope chain place ?_ word absent⟩
      intro frame scope
      rw [← scope] at valued
      exact .argument kind defined items earlier valued

/-- Whatever the world and however long the run, it fails for one reason only: a loop's
count, or an argument of a call of a defined function behind arguments that have values,
is a name that none of the active calls binds. Calls of undefined functions do not fail,
nor does an opcode look for a cell that is not there. -/
theorem fault_blames_unbound_name (source : Text.Source) (file : String) (program : Program)
    (parsed : Program.parse source file = .ok program) (limit : Nat) (verbose : Bool)
    (world : World) :
    (∀ fault, (program.run limit verbose world).status = .failed fault →
      ∃ name frames, ∃ token ∈ Token.ofSource source, fault.Blames program token name frames) ∧
    (world.Valid → ∀ moment, program.Visits verbose world moment → ∀ opcode,
      moment.machine.world.Serves opcode) := by
  constructor
  · intro fault failed
    obtain ⟨last, visited, ends, _⟩ := program.run_visits limit verbose world
    rw [failed] at ends
    exact visited.blames parsed ends
  · intro valid moment visited
    exact (visited.spans valid.spans).valid.serves

/-- A call of a function that there is not goes by, and the next call stops at the second
of its three arguments. -/
def strayName : Text.Source :=
  .pieces ["FUNCTION F(a)", "ENDFUNCTION", "FUNCTION G(n)", "CALL H(q)", "CALL F(n,q,r)",
    "ENDFUNCTION", "CALL G(2)"]

def strayNameProgram : Program :=
  let line (number : Nat) (statement : String) : Option Location :=
    some ⟨"stray", number, 1, statement⟩
  let passed := Instr.call "H" [.identifier "q"] (line 4 "CALL H(q)")
  let stopped := Instr.call "F" [.identifier "n", .identifier "q", .identifier "r"]
    (line 5 "CALL F(n,q,r)")
  ⟨"stray",
    ⟨[("F", ⟨"F", ["a"], [], line 1 "FUNCTION F(a)"⟩),
      ("G", ⟨"G", ["n"], [passed, stopped], line 3 "FUNCTION G(n)"⟩)]⟩,
    [.call "G" [.literal 2] (line 7 "CALL G(2)")]⟩

theorem ofSource_strayName : Token.ofSource strayName =
    [⟨.define, "F(a)", 1, 1, "FUNCTION F(a)"⟩, ⟨.endDefine, "", 2, 1, "ENDFUNCTION"⟩,
      ⟨.define, "G(n)", 3, 1, "FUNCTION G(n)"⟩, ⟨.call, "H(q)", 4, 1, "CALL H(q)"⟩,
      ⟨.call, "F(n,q,r)", 5, 1, "CALL F(n,q,r)"⟩, ⟨.endDefine, "", 6, 1, "ENDFUNCTION"⟩,
      ⟨.call, "G(2)", 7, 1, "CALL G(2)"⟩] := by decide

theorem parse_strayName : Program.parse strayName "stray" = .ok strayNameProgram := by
  rw [Program.parse_eq_ok_iff, ofSource_strayName]
  refine ⟨rfl, ?_, ?_⟩
  · exact .define rfl .nil
      (.define rfl (.call rfl rfl (.call rfl rfl .nil)) (.other (by decide) .nil))
  · exact .define rfl (.define rfl (.call rfl rfl .nil))

/-- A single cell. -/
def nook : World := ⟨⟨1, 1, [[.empty]]⟩, ⟨0, 0, .east⟩⟩

theorem fault_blames_unbound_name_of_strayName :
    Program.parse strayName "stray" = .ok strayNameProgram ∧ nook.Valid ∧
    (∃ fault, (strayNameProgram.run 9 true nook).status = .failed fault ∧
      fault.cause = .unresolved "q" ∧
      ∃ name frames, ∃ token ∈ Token.ofSource strayName,
        fault.Blames strayNameProgram token name frames) ∧
    ∀ moment, strayNameProgram.Visits true nook moment → ∀ opcode,
      moment.machine.world.Serves opcode := by
  have valid : nook.Valid :=
    ⟨⟨by decide, by decide, by decide, by decide⟩, by decide, by decide⟩
  obtain ⟨blamed, served⟩ :=
    fault_blames_unbound_name strayName "stray" strayNameProgram parse_strayName 9 true nook
  exact ⟨parse_strayName, valid, ⟨_, rfl, rfl, blamed _ rfl⟩, served valid⟩

end Lamplighter
