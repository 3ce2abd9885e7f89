import Lamplighter.Proofs.Program.Insertion

/-! Programs written one behind the other.

Where the first lines close all they open, no scan that starts in them looks at the lines
behind, and both passes come to stand at the border. Main statement: `joined_lines`. -/

namespace Lamplighter

namespace Parser

/-- Every block of this kind that is opened in the lines is closed in them. -/
def Complete (opener closer : Token.Kind) : List Token → Prop
  | [] => True
  | token :: tokens =>
    (token.kind = opener → (splitBlock opener closer 0 tokens).2 ≠ []) ∧
      Complete opener closer tokens

instance decidableComplete (opener closer : Token.Kind) :
    (tokens : List Token) → Decidable (Complete opener closer tokens)
  | [] => inferInstanceAs (Decidable True)
  | token :: tokens =>
      have := decidableComplete opener closer tokens
      inferInstanceAs (Decidable
        ((token.kind = opener → (splitBlock opener closer 0 tokens).2 ≠ []) ∧
          Complete opener closer tokens))

variable {opener closer : Token.Kind} {file : String} {tokens : List Token}

theorem Complete.behind {rest : List Token} (complete : Complete opener closer tokens)
    (back : rest <:+ tokens) : Complete opener closer rest := by
  obtain ⟨front, rfl⟩ := back
  induction front with
  | nil => exact complete
  | cons token front ih => exact ih complete.2

theorem splitBlock_suffix (opener closer : Token.Kind) (depth : Nat) (tokens : List Token) :
    (splitBlock opener closer depth tokens).2.drop 1 <:+ tokens :=
  (List.drop_suffix 1 _).trans ⟨_, splitBlock_append opener closer depth tokens⟩

/-- A block that is closed in the first lines is the same with others behind them. -/
theorem splitBlock_joined {depth : Nat} (closed : (splitBlock opener closer depth tokens).2 ≠ [])
    (others : List Token) :
    (splitBlock opener closer depth (tokens ++ others)).1 =
      (splitBlock opener closer depth tokens).1 ∧
    (splitBlock opener closer depth (tokens ++ others)).2.drop 1 =
      (splitBlock opener closer depth tokens).2.drop 1 ++ others := by
  obtain ⟨body, closing, rest, -, ends⟩ := splitBlock_in_front closed
  rw [ends, splitBlock_alone ends]
  exact ⟨rfl, rfl⟩

theorem statements_append (loops : Complete .loop .endLoop tokens)
    (functions : Complete .define .endDefine tokens) (others : List Token) :
    statements file (tokens ++ others) = (do
      let first ← statements file tokens
      let second ← statements file others
      return first ++ second) := by
  induction tokens using read_induct with
  | nil =>
      rw [statements]
      exact (bind_pure _).symm
  | define token tokens kind ih =>
      have after := splitBlock_suffix .define .endDefine 0 tokens
      have behind := (splitBlock_joined (functions.1 kind) others).2
      rw [List.cons_append, statements_define kind, statements_define kind, afterFunction,
        functionBlock, behind]
      exact ih (loops.2.behind after) (functions.2.behind after)
  | loop token tokens kind _ ih =>
      have after := splitBlock_suffix .loop .endLoop 0 tokens
      obtain ⟨inside, behind⟩ := splitBlock_joined (loops.1 kind) others
      have rest := ih (loops.2.behind after) (functions.2.behind after)
      rw [afterLoop, loopBlock] at rest
      rw [List.cons_append, statements_loop kind, statements_loop kind, afterLoop, afterLoop,
        loopBlock, loopBlock, inside, behind, rest]
      simp only [bind_assoc, pure_bind, List.cons_append]
  | call token tokens kind ih =>
      rw [List.cons_append, statements_call kind, statements_call kind, ih loops.2 functions.2]
      simp only [bind_assoc, pure_bind, List.cons_append]
  | act token tokens kind ih =>
      rw [List.cons_append, statements_act kind, statements_act kind, ih loops.2 functions.2]
      simp only [bind_assoc, pure_bind, List.cons_append]

/-- The pass that collects functions comes to stand behind lines that close theirs. -/
theorem Complete.border (complete : Complete .define .endDefine tokens) (after : List Token) :
    Border tokens after := by
  induction tokens using collect_induct with
  | nil => exact .here
  | define token tokens kind ih =>
      have later := ih (complete.2.behind (splitBlock_suffix .define .endDefine 0 tokens))
      obtain ⟨body, closing, rest, rfl, ends⟩ := splitBlock_in_front (complete.1 kind)
      rw [afterFunction, functionBlock, splitBlock_alone ends] at later
      refine .block kind ?_ later
      have block := ends after
      rwa [List.append_assoc, List.cons_append] at block
  | other token tokens kind ih => exact .line kind (ih complete.2)

/-- What is collected from lines for one table is an update for any other. -/
theorem functions_update {other final : Table FunDef}
    (collected : functions file tokens other = .ok final) (distinct : other.keys.Nodup)
    (table : Table FunDef) :
    functions file tokens (table.update other) = .ok (table.update final) ∧ final.keys.Nodup := by
  induction tokens using collect_induct generalizing other with
  | nil =>
      rw [functions] at collected ⊢
      cases collected
      exact ⟨rfl, distinct⟩
  | define token tokens kind ih =>
      rw [functions_define kind, bind_eq_ok] at collected
      obtain ⟨body, read, behind⟩ := collected
      obtain ⟨updated, last⟩ := ih behind (Table.nodup_keys_insert distinct _ _)
      rw [Table.update_insert table distinct] at updated
      refine ⟨?_, last⟩
      rw [functions_define kind, read]
      exact updated
  | other token tokens kind ih =>
      rw [functions_other kind] at collected ⊢
      exact ih collected distinct

end Parser

/-- Lines that close all loops and all functions that they open, though the one kind may cross
the other, with any lines behind them. The statements come one behind the other, and the
functions of the second lines are written into the table of the first: a name that both
define keeps its place there and stands for the second function from then on. -/
theorem joined_lines (file : String) {tokens others : List Token}
    (loops : Parser.Complete .loop .endLoop tokens)
    (functions : Parser.Complete .define .endDefine tokens)
    (short : ∀ token ∈ tokens ++ others, token.Short) :
    ∃ first second whole,
      Program.ofTokens file tokens = .ok first ∧
      Program.ofTokens file others = .ok second ∧
      Program.ofTokens file (tokens ++ others) = .ok whole ∧
      whole.statements = first.statements ++ second.statements ∧
      whole.functions = first.functions.update second.functions ∧
      whole.functions.keys = first.functions.keys ++
        second.functions.keys.filter (fun name => name ∉ first.functions.keys) ∧
      ∀ name, whole.functions.get? name =
        (second.functions.get? name).or (first.functions.get? name) := by
  obtain ⟨first, before⟩ := Program.ofTokens_of_short file
    fun token member => short token (List.mem_append_left _ member)
  obtain ⟨second, after⟩ := Program.ofTokens_of_short file
    fun token member => short token (List.mem_append_right _ member)
  obtain ⟨-, table, main⟩ := (Program.ofTokens_eq_ok_iff _ _ _).mp before
  obtain ⟨-, added, rest⟩ := (Program.ofTokens_eq_ok_iff _ _ _).mp after
  obtain ⟨updated, distinct⟩ := Parser.functions_update added List.nodup_nil first.functions
  refine ⟨first, second, ⟨file, first.functions.update second.functions,
    first.statements ++ second.statements⟩, before, after, ?_, rfl, rfl,
    Table.keys_update _ distinct, Table.get?_update _ distinct⟩
  rw [Program.ofTokens_eq_ok_iff]
  refine ⟨rfl, ?_, ?_⟩
  · rw [(functions.border others).functions_append, table]
    exact updated
  · rw [Parser.statements_append loops functions, main, rest]
    rfl

/-- A stray closer, a loop and a function that cross, and a function of its own. -/
def braid : List Token :=
  [⟨.endLoop, "", 1, 1, "ENDREPEAT"⟩, ⟨.loop, "2", 2, 1, "REPEAT 2"⟩,
    ⟨.define, "F(a)", 3, 1, "FUNCTION F(a)"⟩, ⟨.endLoop, "", 4, 1, "ENDREPEAT"⟩,
    ⟨.line, "LEFT", 5, 1, "LEFT"⟩, ⟨.endDefine, "", 6, 1, "ENDFUNCTION"⟩,
    ⟨.define, "G", 7, 1, "FUNCTION G"⟩, ⟨.endDefine, "", 8, 1, "ENDFUNCTION"⟩]

def braidProgram : Program :=
  let line (number : Nat) (statement : String) : Option Location :=
    some ⟨"joined", number, 1, statement⟩
  let left := Instr.act .left "LEFT" (line 5 "LEFT")
  ⟨"joined",
    ⟨[("F", ⟨"F", ["a"], [.act .noop "ENDREPEAT" (line 4 "ENDREPEAT"), left],
        line 3 "FUNCTION F(a)"⟩),
      ("G", ⟨"G", [], [], line 7 "FUNCTION G"⟩)]⟩,
    [.act .noop "ENDREPEAT" (line 1 "ENDREPEAT"), .loop (.literal 2) [] (line 2 "REPEAT 2"), left,
      .act .noop "ENDFUNCTION" (line 6 "ENDFUNCTION")]⟩

theorem ofTokens_braid : Program.ofTokens "joined" braid = .ok braidProgram := by
  rw [Program.ofTokens_eq_ok_iff, Parser.functions_eq_ok_iff, Parser.statements_eq_ok_iff]
  refine ⟨rfl, ?_, ?_⟩
  · exact .other (by decide) (.other (by decide)
      (.define rfl (.act (.inr (.inl rfl)) (.act (.inl rfl) .nil)) (.define rfl .nil .nil)))
  · exact .act (.inr (.inl rfl)) (.loop rfl rfl (.define rfl .nil)
      (.act (.inl rfl) (.act (.inr (.inr rfl)) (.define rfl .nil))))

/-- Another function of the first name, and a new one in a loop, of which neither is closed. -/
def strand : List Token :=
  [⟨.define, "F(b)", 9, 1, "FUNCTION F(b)"⟩, ⟨.line, "RIGHT", 10, 1, "RIGHT"⟩,
    ⟨.endDefine, "", 11, 1, "ENDFUNCTION"⟩, ⟨.call, "G", 12, 1, "CALL G"⟩,
    ⟨.loop, "n", 13, 1, "REPEAT n"⟩, ⟨.define, "H", 14, 1, "FUNCTION H"⟩]

def strandProgram : Program :=
  let line (number : Nat) (statement : String) : Option Location :=
    some ⟨"joined", number, 1, statement⟩
  ⟨"joined",
    ⟨[("F", ⟨"F", ["b"], [.act .right "RIGHT" (line 10 "RIGHT")], line 9 "FUNCTION F(b)"⟩),
      ("H", ⟨"H", [], [], line 14 "FUNCTION H"⟩)]⟩,
    [.call "G" [] (line 12 "CALL G"), .loop (.identifier "n") [] (line 13 "REPEAT n")]⟩

theorem ofTokens_strand : Program.ofTokens "joined" strand = .ok strandProgram := by
  rw [Program.ofTokens_eq_ok_iff, Parser.functions_eq_ok_iff, Parser.statements_eq_ok_iff]
  refine ⟨rfl, ?_, ?_⟩
  · exact .define rfl (.act (.inl rfl) .nil)
      (.other (by decide) (.other (by decide) (.define rfl .nil .nil)))
  · exact .define rfl (.call rfl rfl (.loop rfl rfl (.define rfl .nil) .nil))

theorem joined_lines_of_braid :
    Parser.Complete .loop .endLoop braid ∧ Parser.Complete .define .endDefine braid ∧
    (∀ token ∈ braid ++ strand, token.Short) ∧
    ∃ whole, Program.ofTokens "joined" (braid ++ strand) = .ok whole ∧
      whole.statements = braidProgram.statements ++ strandProgram.statements ∧
      whole.functions.keys = ["F", "G", "H"] ∧
      whole.functions.get? "F" = strandProgram.functions.get? "F" := by
  have loops : Parser.Complete .loop .endLoop braid := by decide
  have functions : Parser.Complete .define .endDefine braid := by decide
  have short : ∀ token ∈ braid ++ strand, token.Short := by decide
  obtain ⟨first, second, whole, before, after, parsed, main, -, keys, found⟩ :=
    joined_lines "joined" loops functions short
  have one : first = braidProgram := Except.ok.inj (before.symm.trans ofTokens_braid)
  have two : second = strandProgram := Except.ok.inj (after.symm.trans ofTokens_strand)
  subst one two
  exact ⟨loops, functions, short, whole, parsed, main, keys, found "F"⟩

end Lamplighter
