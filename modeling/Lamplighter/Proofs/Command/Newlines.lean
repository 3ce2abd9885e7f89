import Lamplighter.Command.Run
import Lamplighter.Proofs.Report.Writable
import Lamplighter.Proofs.Run.Labels

/-! Programs and maps with other line ends.

In a file that is read as text every carriage return becomes a line feed; a program on the command
line keeps what it has. Both are cut into the same lines, so the same program is run under two
names, and a name is seen in nothing but the places of calls. Main statements:
`Text.splitLines_unifyNewlines`, `Options.execute_given` and `line_ends_do_not_matter`. -/

namespace Lamplighter

namespace Text

/-- Line ends that a file may have, and that are read as one and the same. -/
def newlines : List (List Char) := [['\r'], ['\n'], ['\r', '\n']]

theorem splitLines_cons {c : Char} (other : c ≠ '\r') (rest : List Char) :
    splitLines (c :: rest) =
      if isBreak c then [] :: splitLines rest else extendFirst c (splitLines rest) := by
  rw [splitLines]
  intro after same
  exact absurd same other

theorem splitLines_return {rest : List Char} (apart : rest.head? ≠ some '\n') :
    splitLines ('\r' :: rest) = [] :: splitLines rest := by
  rw [splitLines, if_pos (by decide)]
  intro after _ same
  apply apart
  rw [same, List.head?_cons]

theorem splitLines_feed (rest : List Char) : splitLines ('\n' :: rest) = [] :: splitLines rest := by
  rw [splitLines_cons (by decide), if_pos (by decide)]

theorem unifyNewlines_return {rest : List Char} (apart : rest.head? ≠ some '\n') :
    unifyNewlines ('\r' :: rest) = '\n' :: unifyNewlines rest := by
  rw [unifyNewlines]
  intro after same
  apply apart
  rw [same, List.head?_cons]

theorem unifyNewlines_cons {c : Char} (other : c ≠ '\r') (rest : List Char) :
    unifyNewlines (c :: rest) = c :: unifyNewlines rest := by
  rw [unifyNewlines]
  · intro after same
    exact absurd same other
  · exact other

/-- Along a text, with a carriage return and its line feed as one step. -/
theorem splitLines_unifyNewlines (cs : List Char) :
    splitLines (unifyNewlines cs) = splitLines cs := by
  induction cs using unifyNewlines.induct with
  | case1 => rfl
  | case2 rest ih =>
      rw [unifyNewlines, splitLines_feed, ih]
      rfl
  | case3 rest apart ih =>
      have alone : rest.head? ≠ some '\n' := by
        intro first
        rcases List.head?_eq_some_iff.mp first with ⟨after, parts⟩
        exact apart after parts
      rw [unifyNewlines_return alone, splitLines_feed, splitLines_return alone, ih]
  | case4 c rest _ other ih =>
      rw [unifyNewlines_cons other, splitLines_cons other, splitLines_cons other, ih]

theorem lines_unifyNewlines (text : String) :
    lines (String.ofList (unifyNewlines text.toList)) = lines text := by
  rw [lines, lines, String.toList_ofList, splitLines_unifyNewlines]

/-- Lines with the same end behind each of them, and what follows the last one. -/
def ended (stop : List Char) (lines : List (List Char)) (last : List Char) : List Char :=
  lines.flatMap (· ++ stop) ++ last

theorem ended_cons (stop line : List Char) (lines : List (List Char)) (last : List Char) :
    ended stop (line :: lines) last = line ++ (stop ++ ended stop lines last) := by
  simp only [ended, List.flatMap_cons, List.append_assoc]

/-- A line in the sense of a file, which only a carriage return or a line feed ends. -/
def Single (line : List Char) : Prop := '\r' ∉ line ∧ '\n' ∉ line

instance (line : List Char) : Decidable (Single line) :=
  inferInstanceAs (Decidable ('\r' ∉ line ∧ '\n' ∉ line))

theorem Single.unifyNewlines_append {line : List Char} (single : Single line)
    (rest : List Char) : unifyNewlines (line ++ rest) = line ++ unifyNewlines rest := by
  induction line with
  | nil => rfl
  | cons c line ih =>
      have other : c ≠ '\r' := fun same => single.1 (same ▸ .head _)
      have further : Single line :=
        ⟨fun member => single.1 (.tail _ member), fun member => single.2 (.tail _ member)⟩
      rw [List.cons_append, unifyNewlines_cons other, ih further]
      rfl

theorem Single.head_ne {line rest : List Char} (single : Single line)
    (apart : rest.head? ≠ some '\n') : (line ++ rest).head? ≠ some '\n' := by
  cases line with
  | nil => exact apart
  | cons c line =>
      intro first
      cases first
      exact single.2 (.head _)

/-- Behind a carriage return that ends a line, no line feed follows. -/
theorem head_ended {lines : List (List Char)} {last : List Char}
    (singles : ∀ line ∈ last :: lines, Single line) :
    (ended ['\r'] lines last).head? ≠ some '\n' := by
  cases lines with
  | nil =>
      intro first
      exact (singles last (.head _)).2 (List.mem_of_head? first)
  | cons line lines =>
      rw [ended_cons]
      exact (singles line (.tail _ (.head _))).head_ne (by simp)

theorem unifyNewlines_stop {stop rest : List Char} (ends : stop ∈ newlines)
    (apart : stop = ['\r'] → rest.head? ≠ some '\n') :
    unifyNewlines (stop ++ rest) = '\n' :: unifyNewlines rest := by
  simp only [newlines, List.mem_cons, List.not_mem_nil, or_false] at ends
  rcases ends with rfl | rfl | rfl
  · exact unifyNewlines_return (apart rfl)
  · exact unifyNewlines_cons (by decide) rest
  · rfl

/-- Whatever ends the lines, a file is read as if a line feed did. -/
theorem unifyNewlines_ended {stop : List Char} (ends : stop ∈ newlines) (lines : List (List Char))
    {last : List Char} (singles : ∀ line ∈ last :: lines, Single line) :
    unifyNewlines (ended stop lines last) = ended ['\n'] lines last := by
  induction lines with
  | nil =>
      have whole := (singles last (.head _)).unifyNewlines_append []
      rwa [List.append_nil, unifyNewlines, List.append_nil] at whole
  | cons line lines ih =>
      rcases List.forall_mem_cons.mp singles with ⟨closing, others⟩
      rcases List.forall_mem_cons.mp others with ⟨here, further⟩
      have rest : ∀ line ∈ last :: lines, Single line := List.forall_mem_cons.mpr ⟨closing, further⟩
      have apart : stop = ['\r'] → (ended stop lines last).head? ≠ some '\n' := by
        rintro rfl
        exact head_ended rest
      calc unifyNewlines (ended stop (line :: lines) last)
        _ = unifyNewlines (line ++ (stop ++ ended stop lines last)) := by rw [ended_cons]
        _ = line ++ unifyNewlines (stop ++ ended stop lines last) := here.unifyNewlines_append _
        _ = line ++ '\n' :: unifyNewlines (ended stop lines last) := by
            rw [unifyNewlines_stop ends apart]
        _ = line ++ '\n' :: ended ['\n'] lines last := by rw [ih rest]
        _ = ended ['\n'] (line :: lines) last := (ended_cons ['\n'] line lines last).symm

end Text

/-- The same place in a file of another name. -/
def Location.inFile (file : String) (location : Location) : Location :=
  { location with file := file }

def Program.inFile (file : String) (program : Program) : Program :=
  { program.relabelled (.inFile file) with file := file }

/-- A bot whose program stands in another file. -/
def Bot.inFile (file : String) (bot : Bot) : Bot :=
  { bot with
    functions := bot.functions.mapValues (FunDef.relabelled (.inFile file))
    stack := bot.stack.map (Frame.relabelled (.inFile file))
    log := bot.log.relabelled (.inFile file) }

def Traceback.inFile (file : String) (traceback : Traceback) : Traceback :=
  { traceback with
    fault := traceback.fault.relabelled (.inFile file)
    frames := traceback.frames.map (Frame.relabelled (.inFile file)) }

namespace Traceback

/-- A call shows the same numbers in another file. -/
theorem mem_numbers_frameJson_inFile {file : String} {frame : Frame} {number : Int} :
    number ∈ (frameJson (frame.relabelled (.inFile file))).numbers ↔
      number ∈ (frameJson frame).numbers := by
  rw [mem_numbers_frameJson, mem_numbers_frameJson, Frame.location_relabelled]
  cases frame.location with
  | none => rfl
  | some location => simp [Location.inFile, Frame.relabelled]

theorem mem_numbers_toJson_inFile {file : String} {traceback : Traceback} {number : Int} :
    number ∈ (traceback.inFile file).toJson.numbers ↔ number ∈ traceback.toJson.numbers := by
  rw [mem_numbers_toJson, mem_numbers_toJson]
  simp only [inFile, Fault.relabelled, List.mem_map, exists_exists_and_eq_and,
    mem_numbers_frameJson_inFile]

theorem writable_inFile {file : String} {traceback : Traceback} :
    (traceback.inFile file).Writable ↔ traceback.Writable := by
  have place (frame : Frame) : (∀ location,
        (frame.relabelled (.inFile file)).location = some location →
          Text.Convertible location.line) ↔
      ∀ location, frame.location = some location → Text.Convertible location.line := by
    rw [Frame.location_relabelled]
    cases frame.location <;> simp [Location.inFile]
  have frames : (∀ frame ∈ (traceback.inFile file).frames, Bound frame ∧
        ∀ location, frame.location = some location → Text.Convertible location.line) ↔
      ∀ frame ∈ traceback.frames, Bound frame ∧
        ∀ location, frame.location = some location → Text.Convertible location.line := by
    simp only [inFile, List.forall_mem_map, place]
    rfl
  constructor
  · intro writable
    exact ⟨frames.mp writable.frames, writable.robot, writable.steps⟩
  · intro writable
    exact ⟨frames.mpr writable.frames, writable.robot, writable.steps⟩

/-- Whether a report can be made does not depend on the file. -/
theorem isSome_text?_inFile (file : String) (traceback : Traceback) (verbose : Bool) :
    ((traceback.inFile file).text? verbose).isSome = (traceback.text? verbose).isSome := by
  rw [Bool.eq_iff_iff]
  simp only [Option.isSome_iff_exists, text?_eq_some_iff, exists_and_left, exists_eq', and_true,
    writable_inFile]

theorem isSome_json?_inFile (file : String) (traceback : Traceback) :
    (traceback.inFile file).json?.isSome = traceback.json?.isSome := by
  rw [Bool.eq_iff_iff]
  simp only [Option.isSome_iff_exists, json?_eq_some_iff, exists_and_left, exists_eq', and_true,
    mem_numbers_toJson_inFile]

end Traceback

theorem Token.relabels_inFile (file other : String) :
    Token.Relabels (.inFile other) file other id where
  kind _ := rfl
  value _ := rfl
  statement _ := rfl
  location _ := rfl

/-- What is read depends on a file's name only where it says where something stands. -/
theorem Program.ofTokens_inFile (file other : String) (tokens : List Token) :
    Program.ofTokens other tokens = (Program.ofTokens file tokens).map (Program.inFile other) := by
  have relabels := Token.relabels_inFile file other
  have collected : Parser.functions other tokens .empty =
      (Parser.functions file tokens .empty).map
        (Table.mapValues (FunDef.relabelled (.inFile other))) := by
    have moved := Parser.functions_relabelled relabels tokens .empty
    rwa [List.map_id] at moved
  have read : Parser.statements other tokens =
      (Parser.statements file tokens).map (relabelledBlock (.inFile other)) := by
    have moved := Parser.statements_relabelled relabels tokens
    rwa [List.map_id] at moved
  rw [Program.ofTokens, Program.ofTokens, collected, read]
  cases Parser.functions file tokens .empty with
  | error => rfl
  | ok functions => cases Parser.statements file tokens <;> rfl

namespace Bot

theorem inFile_ofWorld (file : String) (world : World) (verbose : Bool) (limit : Nat) :
    (ofWorld world verbose limit).inFile file = ofWorld world verbose limit := by
  simp only [inFile, ofWorld, Log.relabelled, Log.start, List.map_toArray, List.map_nil,
    Option.map_none]
  rfl

theorem traceback_inFile (file : String) (bot : Bot) (fault : Fault) :
    (bot.inFile file).traceback (fault.relabelled (.inFile file)) =
      (bot.traceback fault).inFile file := by
  rcases fault with ⟨cause, location, step, stack⟩
  cases stack with
  | none => simp [traceback, Traceback.inFile, inFile, Fault.relabelled, Log.relabelled]
  | some frames => rfl

/-- Two texts of the same lines are run alike, each under its own name. -/
theorem run_inFile {one two : Text.Source} (same : Token.ofSource one = Token.ofSource two)
    (file other : String) (world : World) (verbose : Bool) (limit : Nat) :
    (ofWorld world verbose limit).run one other =
      (((ofWorld world verbose limit).run two file).1.inFile other,
        ((ofWorld world verbose limit).run two file).2.map
          (Status.relabelled (.inFile other))) := by
  have read : Program.parse one other = (Program.parse two file).map (Program.inFile other) := by
    rw [Program.parse, same, Program.ofTokens_inFile file other, Program.parse]
  rw [run, run, exec, exec, read]
  cases Program.parse two file with
  | error error =>
      refine Prod.ext ?_ rfl
      exact (inFile_ofWorld other world verbose limit).symm
  | ok program =>
      have runs : (program.inFile other).run limit verbose world =
          (program.run limit verbose world).relabelled (.inFile other) :=
        program.run_relabelled limit verbose world
      simp only [Except.map, execTree, ofWorld, reset, runs]
      rfl

end Bot

namespace Command

/-- A failure whose calls stand in another file. -/
def Failure.inFile (file : String) : Failure → Failure
  | .fault traceback => .fault (traceback.inFile file)
  | failure => failure

/-- What a run comes to once both texts are there. -/
def runTexts (verbose : Bool) (map program file : String) : Except Failure Bot :=
  match Bot.ofMap (.text map) verbose Bot.defaultLimit with
  | .error error => throw (.badMap error)
  | .ok bot =>
    match bot.run (.text program) file with
    | (_, .error error) => throw (.overlong error)
    | (bot, .ok .finished) => return bot
    | (bot, .ok (.failed fault)) => throw (.fault (bot.traceback fault))
    | (_, .ok .tooDeep) => throw .tooDeep

theorem Options.execute_eq (options : Options) (files : Files) :
    options.execute files = (do
      let map ← readText files options.map
      let (program, file) ← options.programText files
      runTexts options.verbose map program file) := rfl

theorem Options.execute_of_texts {options : Options} {files : Files} {map program file : String}
    (drawn : readText files options.map = .ok map)
    (there : options.programText files = .ok (program, file)) :
    options.execute files = runTexts options.verbose map program file := by
  rw [Options.execute_eq, drawn]
  change (options.programText files >>= fun entry =>
    runTexts options.verbose map entry.1 entry.2) = _
  rw [there]
  rfl

theorem Options.execute_of_unread {options : Options} {files : Files} {failure : Failure}
    (unread : readText files options.map = .error failure) :
    options.execute files = .error failure := by
  rw [Options.execute_eq, unread]
  rfl

/-- Two programs of the same lines come to the same, but for the file that calls stand in. -/
theorem runTexts_inFile {one two : String}
    (same : Token.ofSource (.text one) = Token.ofSource (.text two)) (verbose : Bool)
    (map file other : String) : runTexts verbose map one other =
      match runTexts verbose map two file with
      | .ok bot => .ok (bot.inFile other)
      | .error failure => .error (failure.inFile other) := by
  rw [runTexts, runTexts]
  cases made : Bot.ofMap (.text map) verbose Bot.defaultLimit with
  | error error => rfl
  | ok bot =>
      simp only [Bot.ofMap, bind_eq_ok] at made
      obtain ⟨world, -, opened⟩ := made
      cases opened
      simp only [Bot.run_inFile same file other]
      generalize (Bot.ofWorld world verbose Bot.defaultLimit).run (.text two) file = result
      rcases result with ⟨after, error | status⟩
      · rfl
      · cases status with
        | finished => rfl
        | failed fault => exact congrArg (Except.error ∘ Failure.fault) (after.traceback_inFile ..)
        | tooDeep => rfl

/-- The same answer to two programs, but that a fault's calls are shown in one file or the other. -/
inductive Agree (options : Options) (file other : String) : Report → Report → Prop
  | same (report : Report) : Agree options file other report report
  | fault (traceback : Traceback) : Agree options file other
      (options.blame (traceback.inFile file)) (options.blame (traceback.inFile other))

theorem Options.out_blame (options : Options) (traceback : Traceback) :
    (options.blame traceback).out = "" := by
  unfold blame
  split
  · rfl
  · split
    · split <;> rfl
    · rfl

/-- How the report on a fault ends depends only on what of it can be made. -/
theorem Options.ending_blame (options : Options) (traceback : Traceback) :
    (options.blame traceback).ending =
      if (traceback.text? options.verbose).isSome = true ∧
          (options.tracebackJson = true → traceback.json?.isSome = true) then .exit 1
      else .raised "ValueError" (some Text.unwritable) := by
  unfold blame
  cases traceback.text? options.verbose with
  | none => rfl
  | some text =>
      cases options.tracebackJson with
      | false => rfl
      | true => cases traceback.json? <;> rfl

theorem Agree.ending_eq {options : Options} {file other : String} {first second : Report}
    (agree : Agree options file other first second) :
    first.ending = second.ending ∧ first.out = second.out := by
  cases agree with
  | same report => exact ⟨rfl, rfl⟩
  | fault traceback =>
      simp only [Options.ending_blame, Options.out_blame, Traceback.isSome_text?_inFile,
        Traceback.isSome_json?_inFile, and_self]

theorem agree_runTexts {one two : String}
    (same : Token.ofSource (.text one) = Token.ofSource (.text two)) (options : Options)
    (map file other : String) :
    Agree options file other (options.report (runTexts options.verbose map one file))
      (options.report (runTexts options.verbose map two other)) := by
  -- Both are what the second one is in a file without a name.
  rw [runTexts_inFile same options.verbose map "" file,
    runTexts_inFile rfl options.verbose map "" other]
  cases runTexts options.verbose map two "" with
  | ok bot => exact .same (Options.success bot)
  | error failure =>
      cases failure with
      | fault traceback => exact .fault traceback
      | badName | noProgram | unreadable | undecodable | badMap | overlong | tooDeep =>
          exact .same _

theorem readText_eq_ok {files : Files} {name text : String} (named : '\x00' ∉ name.toList)
    (held : files name = .ok text.toUTF8) :
    readText files name = .ok (String.ofList (Text.unifyNewlines text.toList)) := by
  have decoded : String.fromUTF8? text.toUTF8 = some text := dif_pos text.isValidUTF8
  rw [readText, if_neg (by simpa using named), held]
  simp only [decoded]

theorem Options.execute_congr {files other : Files}
    (same : ∀ name, readText other name = readText files name) (options : Options) :
    options.execute other = options.execute files := by
  simp only [Options.execute_eq, Options.programText, same]

theorem Options.report_congr {first second : Options} (verbose : first.verbose = second.verbose)
    (tracebackJson : first.tracebackJson = second.tracebackJson) :
    first.report = second.report := by
  funext result
  cases result with
  | ok bot => rfl
  | error failure =>
      cases failure <;> simp only [report, failed, blame, verbose, tracebackJson]

namespace Options

/-- The same flags, with the program in a file. -/
def fromFile (options : Options) (name : String) : Options :=
  { options with program := some name, literal := false }

/-- The same flags, with the program on the command line. -/
def given (options : Options) (text : String) : Options :=
  { options with program := some text, literal := true }

end Options

theorem agree_given (options : Options) {files : Files} {name text : String}
    (named : '\x00' ∉ name.toList) (held : files name = .ok text.toUTF8) :
    Agree options name "<string>" ((options.fromFile name).run files)
      ((options.given text).run files) := by
  have same : Token.ofSource (.text (String.ofList (Text.unifyNewlines text.toList))) =
      Token.ofSource (.text text) := by
    rw [Token.ofSource, Token.ofSource, Text.Source.lines, Text.Source.lines,
      Text.lines_unifyNewlines]
  have filed : (options.fromFile name).programText files =
      .ok (String.ofList (Text.unifyNewlines text.toList), name) := by
    simp only [Options.programText, Options.fromFile, readText_eq_ok named held]
    rfl
  have literal : (options.given text).programText files = .ok (text, "<string>") := rfl
  have reports : (options.fromFile name).report = options.report ∧
      (options.given text).report = options.report :=
    ⟨Options.report_congr rfl rfl, Options.report_congr rfl rfl⟩
  rw [Options.run, Options.run, reports.1, reports.2]
  cases drawn : readText files options.map with
  | error failure =>
      have first : (options.fromFile name).execute files = .error failure :=
        Options.execute_of_unread drawn
      have second : (options.given text).execute files = .error failure :=
        Options.execute_of_unread drawn
      rw [first, second]
      exact .same _
  | ok map =>
      have first : (options.fromFile name).execute files = runTexts options.verbose map _ name :=
        Options.execute_of_texts drawn filed
      have second : (options.given text).execute files =
          runTexts options.verbose map text "<string>" := Options.execute_of_texts drawn literal
      rw [first, second]
      exact agree_runTexts same options map name "<string>"

/-- Two files that differ in what ends their lines are read as the same text. -/
theorem readText_ended {files other : Files} {name : String} {first second : List Char}
    (ends : first ∈ Text.newlines) (endsToo : second ∈ Text.newlines) {lines : List (List Char)}
    {last : List Char} (singles : ∀ line ∈ last :: lines, Text.Single line)
    (held : files name = .ok (String.ofList (Text.ended first lines last)).toUTF8)
    (heldToo : other name = .ok (String.ofList (Text.ended second lines last)).toUTF8) :
    readText other name = readText files name := by
  by_cases named : '\x00' ∈ name.toList
  · rw [readText, readText, if_pos (by simpa using named), if_pos (by simpa using named)]
  · rw [readText_eq_ok named held, readText_eq_ok named heldToo, String.toList_ofList,
      String.toList_ofList, Text.unifyNewlines_ended ends lines singles,
      Text.unifyNewlines_ended endsToo lines singles]

/-- A program in a file gives the answer that it gives on the command line, up to the file that the
calls of a fault are shown in. And it is all one to an answer which of the three line ends a map
has, as long as all its lines have the same. -/
theorem line_ends_do_not_matter (options : Options) (files : Files) :
    (∀ name text, '\x00' ∉ name.toList → files name = .ok text.toUTF8 →
      ((options.fromFile name).run files).ending = ((options.given text).run files).ending ∧
      ((options.fromFile name).run files).out = ((options.given text).run files).out ∧
      Agree options name "<string>" ((options.fromFile name).run files)
        ((options.given text).run files)) ∧
    ∀ (other : Files) (first second : List Char) (lines : List (List Char)) (last : List Char),
      first ∈ Text.newlines → second ∈ Text.newlines →
      (∀ line ∈ last :: lines, Text.Single line) →
      files options.map = .ok (String.ofList (Text.ended first lines last)).toUTF8 →
      other options.map = .ok (String.ofList (Text.ended second lines last)).toUTF8 →
      (∀ name ≠ options.map, other name = files name) →
      options.run other = options.run files := by
  constructor
  · intro name text named held
    have agree := agree_given options named held
    exact ⟨agree.ending_eq.1, agree.ending_eq.2, agree⟩
  · intro other first second lines last ends endsToo singles held heldToo elsewhere
    have same (name : String) : readText other name = readText files name := by
      by_cases drawn : name = options.map
      · subst drawn
        exact readText_ended ends endsToo singles held heldToo
      · rw [readText, readText, elsewhere name drawn]
    rw [Options.run, Options.run, Options.execute_congr same]

/-- A robot with a lit tile two steps ahead, and a row of plain floor. -/
def stairRows : List (List Char) := [['R', '.', 'x'], ['.', '.', '.']]

/-- A call that meets an unbound name, between line ends of every kind. -/
def climb : String := "\r\rFUNCTION F(n)\r\n  REPEAT q\r\r\nENDFUNCTION\u2028FORWARD\n\rCALL F(4)\r"

/-- The map, with one kind of line ends and none behind its last row, and the program. -/
def stairs (stop : List Char) : Files := fun name =>
  if name = "stairs.map" then .ok (String.ofList (Text.ended stop stairRows ['O', '.', '.'])).toUTF8
  else if name = "climb.lb" then .ok climb.toUTF8
  else .error .notFound

def climbing : Options := ⟨"stairs.map", some "climb.lb", false, true, true⟩

theorem line_ends_do_not_matter_of_climb :
    '\x00' ∉ "climb.lb".toList ∧ stairs ['\r'] "climb.lb" = .ok climb.toUTF8 ∧
    Agree climbing "climb.lb" "<string>" ((climbing.fromFile "climb.lb").run (stairs ['\r']))
      ((climbing.given climb).run (stairs ['\r'])) ∧
    ['\r'] ∈ Text.newlines ∧ ['\r', '\n'] ∈ Text.newlines ∧
    (∀ line ∈ ['O', '.', '.'] :: stairRows, Text.Single line) ∧
    (∀ name ≠ climbing.map, stairs ['\r', '\n'] name = stairs ['\r'] name) ∧
    climbing.run (stairs ['\r', '\n']) = climbing.run (stairs ['\r']) := by
  have named : '\x00' ∉ "climb.lb".toList := by decide
  have held : stairs ['\r'] "climb.lb" = .ok climb.toUTF8 := by
    rw [stairs, if_neg (by decide), if_pos rfl]
  have drawn (stop : List Char) : stairs stop climbing.map =
      .ok (String.ofList (Text.ended stop stairRows ['O', '.', '.'])).toUTF8 := by
    have same : climbing.map = "stairs.map" := rfl
    rw [stairs, if_pos same]
  have first : ['\r'] ∈ Text.newlines := by decide
  have second : ['\r', '\n'] ∈ Text.newlines := by decide
  have singles : ∀ line ∈ ['O', '.', '.'] :: stairRows, Text.Single line := by decide
  have elsewhere : ∀ name ≠ climbing.map, stairs ['\r', '\n'] name = stairs ['\r'] name := by
    intro name other
    have apart : name ≠ "stairs.map" := other
    rw [stairs, stairs, if_neg apart, if_neg apart]
  have both := line_ends_do_not_matter climbing (stairs ['\r'])
  refine ⟨named, held, (both.1 "climb.lb" climb named held).2.2, first, second, singles, elsewhere,
    ?_⟩
  exact both.2 (stairs ['\r', '\n']) ['\r'] ['\r', '\n'] stairRows ['O', '.', '.'] first second
    singles (drawn _) (drawn _) elsewhere

end Command
end Lamplighter
