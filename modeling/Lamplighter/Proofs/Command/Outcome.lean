import Lamplighter.Proofs.Command.Newlines
import Lamplighter.Proofs.Program.Limit
import Lamplighter.Proofs.Report
import Lamplighter.Proofs.Run.Footing
import Lamplighter.Proofs.World.Rendering

/-! What the command answers, told by the calls that it makes.

The map is read, then the program, then the floor is laid out and the program run on it. Whatever
goes wrong first is all that is reported, and only a run that comes to its end is shown. Two things
that may go wrong are not reported but raise an exception: a program without a name, and a report
that cannot be made. Main statements: `Options.run_of_fails`, `Options.run_of_raises`,
`Options.run_of_succeeds` and `command_tells_outcome`. -/

namespace Lamplighter

namespace Bot

/-- A text without overlong literals is run, whatever comes of it. -/
theorem run_of_short {source : Text.Source}
    (short : ∀ token ∈ Token.ofSource source, token.Short) (file : String) (bot : Bot) :
    ∃ after status, bot.run source file = (after, .ok status) := by
  obtain ⟨program, parsed⟩ : ∃ program, Program.parse source file = .ok program :=
    Program.ofTokens_of_short file short
  refine ⟨(bot.reset.execTree program).1, (bot.reset.execTree program).2, ?_⟩
  rw [run, exec, parsed]

theorem valid_run {world : World} (valid : world.Valid) (verbose : Bool) (limit : Nat)
    (source : Text.Source) (file : String) :
    ((ofWorld world verbose limit).run source file).1.world.Valid := by
  rw [run, exec]
  cases Program.parse source file with
  | error => exact valid
  | ok program =>
      exact program.run_keeps limit verbose World.Valid (fun _ opcode held => held.perform opcode)
        valid

end Bot

namespace Command

/-- There is a file of this name, and this is the text in it, with its line ends made the same. -/
def Files.Shows (files : Files) (name text : String) : Prop :=
  ∃ raw : String, files name = .ok raw.toUTF8 ∧
    text = String.ofList (Text.unifyNewlines raw.toList)

namespace Options

section Outcome

variable (options : Options) (files : Files)

/-- A program that is there, and the name that it goes by. -/
inductive Gives : (program file : String) → Prop
  | literal (mode : options.literal = true) : Gives (options.program.getD "") "<string>"
  | file {name text : String} (mode : options.literal = false)
      (named : options.program = some name) (shown : files.Shows name text) : Gives text name

/-- A robot that is ready on the floor of an accepted map. -/
inductive Starts : Bot → Prop
  | accepted {map : String} {world : World} (shown : files.Shows options.map map)
      (read : Map.read (.text map) = .ok world) :
      Starts (.ofWorld world options.verbose Bot.defaultLimit)

/-- Both files can be read, the map is accepted, and the run comes to its end with this robot. -/
inductive Succeeds : Bot → Prop
  | finished {bot after : Bot} {program file : String} (started : options.Starts files bot)
      (given : options.Gives files program file)
      (ended : bot.run (.text program) file = (after, .ok .finished)) : Succeeds after

/-- Both files can be read and the map is accepted, but the run ends with this fault. -/
inductive Faulty : Bot → Fault → Prop
  | failed {bot after : Bot} {program file : String} {fault : Fault}
      (started : options.Starts files bot) (given : options.Gives files program file)
      (failed : bot.run (.text program) file = (after, .ok (.failed fault))) : Faulty after fault

/-- The line about a file that cannot be read. -/
def unreadLine (name : String) (error : ReadError) : String :=
  "Failed to read " ++ name ++ ": [Errno " ++ toString error.code ++ "] " ++ error.reason ++ ": " ++
    Text.quote name

/-- What goes wrong first, all that comes before it being well, and the lines that tell it. -/
inductive Fails : List String → Prop
  | map {error : ReadError} (unread : files options.map = .error error) :
      Fails [unreadLine options.map error]
  | program {drawn name : String} {error : ReadError} (shown : files.Shows options.map drawn)
      (mode : options.literal = false) (named : options.program = some name)
      (unread : files name = .error error) : Fails [unreadLine name error]
  | badMap {drawn program file : String} {error : MapError}
      (shown : files.Shows options.map drawn) (given : options.Gives files program file)
      (refused : Map.read (.text drawn) = .error error) :
      Fails ["ConstructionError: " ++ error.message]
  | fault {after : Bot} {fault : Fault} {text : String} (faulty : options.Faulty files after fault)
      (told : (after.traceback fault).text? options.verbose = some text)
      (alone : options.tracebackJson = false) : Fails [text]
  | faultToo {after : Bot} {fault : Fault} {text json : String}
      (faulty : options.Faulty files after fault)
      (told : (after.traceback fault).text? options.verbose = some text)
      (asked : options.tracebackJson = true)
      (toldToo : (after.traceback fault).json? = some json) : Fails [text, json]

/-- What raises an exception, all that comes before it being well, the kind and the message of the
exception, and the lines that are there by then. -/
inductive Raises : (kind message : String) → List String → Prop
  | missing {drawn : String} (shown : files.Shows options.map drawn)
      (mode : options.literal = false) (missing : options.program = none) :
      Raises "TypeError" "expected str, bytes or os.PathLike object, not list" []
  | fault {after : Bot} {fault : Fault} (faulty : options.Faulty files after fault)
      (long : (after.traceback fault).text? options.verbose = none) :
      Raises "ValueError" Text.unwritable []
  | faultToo {after : Bot} {fault : Fault} {text : String}
      (faulty : options.Faulty files after fault)
      (told : (after.traceback fault).text? options.verbose = some text)
      (asked : options.tracebackJson = true) (long : (after.traceback fault).json? = none) :
      Raises "ValueError" Text.unwritable [text]

/-- The files that are looked for: the program only once the map is there, and only by a name. -/
inductive Reads : String → Prop
  | map : Reads options.map
  | program {bytes : ByteArray} {name : String} (there : files options.map = .ok bytes)
      (mode : options.literal = false) (named : options.program = some name) : Reads name

/-- What is asked of names, files and programs. -/
structure Regular : Prop where
  noNull : ∀ name, options.Reads files name → '\x00' ∉ name.toList
  /-- Each file that is read is the encoding of a text. -/
  encoded : ∀ name bytes, options.Reads files name → files name = .ok bytes →
    ∃ raw : String, bytes = raw.toUTF8
  short : ∀ program file, options.Gives files program file →
    ∀ token ∈ Token.ofSource (.text program), token.Short
  /-- The calls of the run are not nested too deep. -/
  ends : ∀ bot program file after, options.Starts files bot → options.Gives files program file →
    bot.run (.text program) file ≠ (after, .ok .tooDeep)

/-- Which flags are set: those that stand in front of a lone `--`, in full or cut short. -/
structure Obeys (arguments : List String) : Prop where
  literal : options.literal = true ↔
    .flag .source ∈ (arguments.takeWhile (· ≠ "--")).map Word.ofText
  verbose : options.verbose = true ↔
    .flag .verbose ∈ (arguments.takeWhile (· ≠ "--")).map Word.ofText
  tracebackJson : options.tracebackJson = true ↔
    .flag .tracebackJson ∈ (arguments.takeWhile (· ≠ "--")).map Word.ofText

end Outcome

theorem obeys_of_ofValues {words : List Word} {back : List String} {options : Options}
    (accepted : ofValues words back = .ok options) :
    (options.literal = true ↔ .flag .source ∈ words) ∧
      (options.verbose = true ↔ .flag .verbose ∈ words) ∧
      (options.tracebackJson = true ↔ .flag .tracebackJson ∈ words) := by
  simp only [ofValues] at accepted
  split at accepted
  case isTrue => cases accepted
  case isFalse =>
    split at accepted
    case h_1 map program values =>
      rw [← Except.ok.inj accepted]
      exact ⟨List.contains_iff_mem, List.contains_iff_mem, List.contains_iff_mem⟩
    case h_2 => cases accepted

theorem obeys_of_parse {arguments : List String} {options : Options}
    (accepted : parse arguments = .ok options) : options.Obeys arguments := by
  have front : (arguments.span (· ≠ "--")).1 = arguments.takeWhile (· ≠ "--") := by
    rw [List.span_eq_takeWhile_dropWhile]
  simp only [parse, front] at accepted
  split at accepted
  case isTrue => cases accepted
  case isFalse =>
    split at accepted
    case h_1 => cases accepted
    case h_2 =>
      split at accepted
      case isTrue => cases accepted
      case isFalse =>
        obtain ⟨literal, verbose, tracebackJson⟩ := obeys_of_ofValues accepted
        exact ⟨literal, verbose, tracebackJson⟩

end Options

section Reading

variable {files : Files} {name : String}

theorem Files.Shows.readText_eq {text : String} (shown : files.Shows name text)
    (named : '\x00' ∉ name.toList) : readText files name = .ok text := by
  rcases shown with ⟨raw, held, rfl⟩
  exact readText_eq_ok named held

theorem Files.Shows.there {text : String} (shown : files.Shows name text) :
    ∃ bytes, files name = .ok bytes := by
  rcases shown with ⟨raw, held, _⟩
  exact ⟨raw.toUTF8, held⟩

theorem readText_unread {error : ReadError} (named : '\x00' ∉ name.toList)
    (unread : files name = .error error) :
    readText files name = .error (.unreadable name error) := by
  rw [readText, if_neg (by simpa using named), unread]

end Reading

/-- A run on a floor that an accepted map gave. -/
theorem runTexts_of_read {map : String} {world : World} (read : Map.read (.text map) = .ok world)
    (verbose : Bool) (program file : String) :
    runTexts verbose map program file =
      match (Bot.ofWorld world verbose Bot.defaultLimit).run (.text program) file with
      | (_, .error error) => throw (.overlong error)
      | (bot, .ok .finished) => return bot
      | (bot, .ok (.failed fault)) => throw (.fault (bot.traceback fault))
      | (_, .ok .tooDeep) => throw .tooDeep := by
  rw [runTexts, Bot.ofMap, read]
  rfl

namespace Options

variable {options : Options} {files : Files}

/-- A file that is looked for is there with its text, or cannot be read. -/
theorem Regular.shows_or_unread (regular : options.Regular files) {name : String}
    (reads : options.Reads files name) :
    (∃ text, files.Shows name text) ∨ ∃ error, files name = .error error := by
  cases found : files name with
  | error error => exact .inr ⟨error, rfl⟩
  | ok bytes =>
      obtain ⟨raw, rfl⟩ := regular.encoded name bytes reads found
      exact .inl ⟨_, raw, found, rfl⟩

section Shown

variable {drawn program file : String} (regular : options.Regular files)
  (shown : files.Shows options.map drawn)

include regular shown

theorem Regular.readText_map : readText files options.map = .ok drawn :=
  shown.readText_eq (regular.noNull _ .map)

theorem Regular.programText_eq (given : options.Gives files program file) :
    options.programText files = .ok (program, file) := by
  obtain ⟨_, there⟩ := shown.there
  cases given with
  | literal mode => simp only [programText, mode]
  | file mode named held =>
      have text := held.readText_eq (regular.noNull _ (.program there mode named))
      simp only [programText, mode, named, text]
      rfl

theorem Regular.execute_eq (given : options.Gives files program file) :
    options.execute files = runTexts options.verbose drawn program file :=
  execute_of_texts (regular.readText_map shown) (regular.programText_eq shown given)

/-- The program is there, or it cannot be read, or it has no name. -/
theorem Regular.gives_or_not : (∃ program file, options.Gives files program file) ∨
    (∃ name error, options.literal = false ∧ options.program = some name ∧
      files name = .error error) ∨
    options.literal = false ∧ options.program = none := by
  obtain ⟨_, there⟩ := shown.there
  cases mode : options.literal with
  | true => exact .inl ⟨_, _, .literal mode⟩
  | false =>
      cases named : options.program with
      | none => exact .inr (.inr ⟨rfl, rfl⟩)
      | some name =>
          rcases regular.shows_or_unread (.program there mode named) with ⟨text, held⟩ |
            ⟨error, unread⟩
          · exact .inl ⟨text, name, .file mode named held⟩
          · exact .inr (.inl ⟨name, error, rfl, rfl, unread⟩)

end Shown

theorem run_of_failed {drawn program file : String} {world : World} {after : Bot} {fault : Fault}
    (shown : readText files options.map = .ok drawn)
    (given : options.programText files = .ok (program, file))
    (read : Map.read (.text drawn) = .ok world)
    (failed : (Bot.ofWorld world options.verbose Bot.defaultLimit).run (.text program) file =
      (after, .ok (.failed fault))) :
    options.run files = options.blame (after.traceback fault) := by
  rw [run, execute_of_texts shown given, runTexts_of_read read, failed]
  rfl

theorem run_of_faulty (regular : options.Regular files) {after : Bot} {fault : Fault}
    (faulty : options.Faulty files after fault) :
    options.run files = options.blame (after.traceback fault) := by
  cases faulty with
  | failed started given failed =>
      cases started with
      | accepted shown read =>
          exact run_of_failed (regular.readText_map shown) (regular.programText_eq shown given) read
            failed

theorem run_of_fails (regular : options.Regular files) {lines : List String}
    (fails : options.Fails files lines) : options.run files = ⟨.exit 1, "", unlines lines⟩ := by
  cases fails with
  | map unread =>
      rw [run, execute_of_unread (readText_unread (regular.noNull _ .map) unread)]
      rfl
  | program shown mode named unread =>
      obtain ⟨_, there⟩ := shown.there
      have second := readText_unread (regular.noNull _ (.program there mode named)) unread
      rw [run, Options.execute_eq, regular.readText_map shown]
      simp only [programText, mode, named, second]
      rfl
  | badMap shown given refused =>
      rw [run, regular.execute_eq shown given, runTexts, Bot.ofMap, refused]
      rfl
  | fault faulty told alone =>
      rw [run_of_faulty regular faulty, blame, told, alone]
      rfl
  | faultToo faulty told asked toldToo =>
      rw [run_of_faulty regular faulty, blame, told, asked, toldToo]
      rfl

theorem run_of_raises (regular : options.Regular files) {kind message : String}
    {lines : List String} (raises : options.Raises files kind message lines) :
    options.run files = ⟨.raised kind (some message), "", unlines lines⟩ := by
  cases raises with
  | missing shown mode missing =>
      rw [run, Options.execute_eq, regular.readText_map shown]
      simp only [programText, mode, missing]
      rfl
  | fault faulty long =>
      rw [run_of_faulty regular faulty, blame, long]
      rfl
  | faultToo faulty told asked long =>
      rw [run_of_faulty regular faulty, blame, told, asked, long]
      rfl

theorem run_of_succeeds (regular : options.Regular files) {after : Bot}
    (succeeds : options.Succeeds files after) : options.run files = success after := by
  cases succeeds with
  | finished started given ended =>
      cases started with
      | accepted shown read =>
          rw [run, regular.execute_eq shown given, runTexts_of_read read, ended]
          rfl

/-- A fault is told, or its report cannot be made. -/
theorem Faulty.fails_or_raises {after : Bot} {fault : Fault}
    (faulty : options.Faulty files after fault) :
    (∃ lines, options.Fails files lines) ∨
      ∃ kind message lines, options.Raises files kind message lines := by
  cases told : (after.traceback fault).text? options.verbose with
  | none => exact .inr ⟨_, _, _, .fault faulty told⟩
  | some text =>
      cases asked : options.tracebackJson with
      | false => exact .inl ⟨_, .fault faulty told asked⟩
      | true =>
          cases toldToo : (after.traceback fault).json? with
          | none => exact .inr ⟨_, _, _, .faultToo faulty told asked toldToo⟩
          | some json => exact .inl ⟨_, .faultToo faulty told asked toldToo⟩

theorem Regular.cases (regular : options.Regular files) :
    (∃ after, options.Succeeds files after) ∨ (∃ lines, options.Fails files lines) ∨
      ∃ kind message lines, options.Raises files kind message lines := by
  rcases regular.shows_or_unread .map with ⟨drawn, shown⟩ | ⟨error, unread⟩
  · rcases regular.gives_or_not shown with ⟨program, file, given⟩ |
      ⟨name, error, mode, named, unread⟩ | ⟨mode, missing⟩
    · cases read : Map.read (.text drawn) with
      | error error => exact .inr (.inl ⟨_, .badMap shown given read⟩)
      | ok world =>
          have started : options.Starts files _ := .accepted shown read
          have short := regular.short program file given
          obtain ⟨after, status, ran⟩ := Bot.run_of_short short file _
          cases status with
          | finished => exact .inl ⟨after, .finished started given ran⟩
          | failed fault => exact .inr (Faulty.failed started given ran).fails_or_raises
          | tooDeep => exact absurd ran (regular.ends _ _ _ _ started given)
    · exact .inr (.inl ⟨_, .program shown mode named unread⟩)
    · exact .inr (.inr ⟨_, _, _, .missing shown mode missing⟩)
  · exact .inr (.inl ⟨_, .map unread⟩)

/-- What is shown of the floor behind a run is a map with the robot where it came to. -/
theorem Succeeds.read_back {after : Bot} (succeeds : options.Succeeds files after) :
    ∃ again, Map.read (.pieces after.world.render) = .ok again ∧
      again.robot = after.world.robot := by
  cases succeeds with
  | @finished bot after program file started given ended =>
      cases started with
      | @accepted map world shown read =>
          have valid := Bot.valid_run (Map.valid_of_read read) options.verbose Bot.defaultLimit
            (.text program) file
          rw [ended] at valid
          exact ⟨_, (World.draws_drawn valid).read_pieces, rfl⟩

end Options

/-- An accepted command line is answered with zero just if both texts are there, the map is
accepted and the run comes to its end. Then the floor is shown as a map that has the robot at the
place and in the direction told below it, and nothing else is said. Otherwise nothing is shown,
and what went wrong first is all that is told. The answer to that is one, but for a program without
a name and for a report that cannot be made, which raise an exception. -/
theorem command_tells_outcome (arguments : List String) (options : Options)
    (accepted : Options.parse arguments = .ok options) (files : Files)
    (regular : options.Regular files) :
    options.Obeys arguments ∧
    ((options.run files).ending = .exit 0 ↔ ∃ after, options.Succeeds files after) ∧
    (∀ after, options.Succeeds files after →
      options.run files = ⟨.exit 0, unlines (after.world.render ++
        ["robot: (" ++ toString after.world.robot.x ++ ", " ++ toString after.world.robot.y ++
            ") facing " ++ after.world.robot.direction.name,
          "lamps remaining: " ++ toString after.world.lampsRemaining]), ""⟩ ∧
      ∃ again, Map.read (.pieces after.world.render) = .ok again ∧
        again.robot = after.world.robot) ∧
    ((∃ after, options.Succeeds files after) ∨ (∃ lines, options.Fails files lines) ∨
      ∃ kind message lines, options.Raises files kind message lines) ∧
    (∀ lines, options.Fails files lines → options.run files = ⟨.exit 1, "", unlines lines⟩) ∧
    ∀ kind message lines, options.Raises files kind message lines →
      options.run files = ⟨.raised kind (some message), "", unlines lines⟩ := by
  refine ⟨Options.obeys_of_parse accepted, ?_, ?_, regular.cases,
    fun _ fails => Options.run_of_fails regular fails,
    fun _ _ _ raises => Options.run_of_raises regular raises⟩
  · constructor
    · intro zero
      rcases regular.cases with succeeds | ⟨lines, fails⟩ | ⟨kind, message, lines, raises⟩
      · exact succeeds
      · rw [Options.run_of_fails regular fails] at zero
        cases zero
      · rw [Options.run_of_raises regular raises] at zero
        cases zero
    · rintro ⟨after, succeeds⟩
      rw [Options.run_of_succeeds regular succeeds]
      rfl
  · intro after succeeds
    exact ⟨Options.run_of_succeeds regular succeeds, succeeds.read_back⟩

/-- An empty line, a robot and a lamp, with two kinds of line ends. -/
def yardMap : String := "\r\n R.O\r"

/-- The map, and no other file. -/
def yard : Files := fun name =>
  if name = "yard.map" then .ok yardMap.toUTF8 else .error .notFound

/-- A flag cut short, and another one behind the map and a program of two lines. -/
def yardArguments : List String := ["--verb", "yard.map", "FORWARD\rREPEAT q", "-source"]

def yardOptions : Options := ⟨"yard.map", some "FORWARD\rREPEAT q", true, true, false⟩

def yardWorld : World := ⟨⟨3, 1, [[.empty, .empty, .lampOff]]⟩, ⟨0, 0, .east⟩⟩

def yardTokens : List Token :=
  [⟨.line, "FORWARD", 1, 1, "FORWARD"⟩, ⟨.loop, "q", 2, 1, "REPEAT q"⟩]

def yardProgram : Program :=
  ⟨"<string>", .empty, [.act .forward "FORWARD" (some ⟨"<string>", 1, 1, "FORWARD"⟩),
    .loop (.identifier "q") [] (some ⟨"<string>", 2, 1, "REPEAT q"⟩)]⟩

/-- The robot behind the run, and what the run failed at. -/
def yardBot : Bot := ((Bot.ofWorld yardWorld true Bot.defaultLimit).execTree yardProgram).1

def yardFault : Fault :=
  ⟨.unresolved "q", some ⟨"<string>", 2, 1, "REPEAT q"⟩, some 1,
    some [⟨"<top-level>", .root, none,
      some ⟨1, .loop, some ⟨"<string>", 2, 1, "REPEAT q"⟩, ⟨1, 0, .east⟩⟩⟩]⟩

theorem ofSource_yard : Token.ofSource (.text "FORWARD\rREPEAT q") = yardTokens := by rfl

theorem parse_yard : Program.parse (.text "FORWARD\rREPEAT q") "<string>" = .ok yardProgram := by
  rw [Program.parse_eq_ok_iff, ofSource_yard]
  exact ⟨rfl, .other (by decide) (.other (by decide) .nil),
    .act (.inl rfl) (.loop rfl rfl .nil .nil)⟩

theorem run_yard : (Bot.ofWorld yardWorld true Bot.defaultLimit).run
    (.text "FORWARD\rREPEAT q") "<string>" = (yardBot, .ok (.failed yardFault)) := by
  rw [Bot.run, Bot.exec, parse_yard]
  rfl

theorem shows_yard :
    yard.Shows yardOptions.map (String.ofList (Text.unifyNewlines yardMap.toList)) :=
  ⟨yardMap, rfl, rfl⟩

theorem starts_yard : yardOptions.Starts yard (.ofWorld yardWorld true Bot.defaultLimit) :=
  .accepted shows_yard rfl

theorem starts_yard_unique {bot : Bot} (started : yardOptions.Starts yard bot) :
    bot = .ofWorld yardWorld true Bot.defaultLimit := by
  cases started with
  | accepted shown read =>
      rcases shown with ⟨raw, held, rfl⟩
      have same : yardMap.toByteArray = raw.toByteArray := Except.ok.inj held
      rw [String.toByteArray_inj] at same
      subst same
      cases read
      rfl

theorem regular_yard : yardOptions.Regular yard where
  noNull name reads := by
    cases reads with
    | map => decide
    | program _ mode => cases mode
  encoded name bytes reads found := by
    cases reads with
    | map => exact ⟨yardMap, (Except.ok.inj found).symm⟩
    | program _ mode => cases mode
  short program file given := by
    cases given with
    | literal =>
        have short : ∀ token ∈ yardTokens, token.Short := by decide
        exact short
    | file mode => cases mode
  ends bot program file after started given ended := by
    cases given with
    | literal =>
        rw [starts_yard_unique started] at ended
        have ran := run_yard.symm.trans ended
        cases ran
    | file mode => cases mode

def yardReport : String := "LightBot traceback (innermost call last):\n" ++
  "  \"<string>\", line 2, in <top-level>\n    REPEAT q\n" ++
  "Robot at (1, 0) facing EAST after 2 steps\nMap:\n  .RO\n" ++
  "UnresolvedReference: Unresolved reference 'q'"

theorem command_tells_outcome_of_yard :
    Options.parse yardArguments = .ok yardOptions ∧ yardOptions.Regular yard ∧
    yardOptions.run yard = ⟨.exit 1, "", yardReport ++ "\n"⟩ := by
  have accepted : Options.parse yardArguments = .ok yardOptions := by rfl
  have told : (yardBot.traceback yardFault).text? true = some yardReport := by rfl
  have fails : yardOptions.Fails yard [yardReport] :=
    .fault (.failed starts_yard (.literal rfl) run_yard) told rfl
  refine ⟨accepted, regular_yard, ?_⟩
  obtain ⟨-, -, -, -, failed, -⟩ := command_tells_outcome yardArguments yardOptions accepted yard
    regular_yard
  rw [failed _ fails]
  rfl

/-- A second lone `--` in the place of the program. -/
def dashed : Options := ⟨"yard.map", none, false, false, false⟩

theorem regular_dashed : dashed.Regular yard where
  noNull name reads := by
    cases reads with
    | map => decide
    | program _ _ named => cases named
  encoded name bytes reads found := by
    cases reads with
    | map => exact ⟨yardMap, (Except.ok.inj found).symm⟩
    | program _ _ named => cases named
  short program file given := by
    cases given with
    | literal mode => cases mode
    | file _ named => cases named
  ends bot program file after started given := by
    cases given with
    | literal mode => cases mode
    | file _ named => cases named

/-- Of one `--` behind a flag nothing is left, so what follows it is the program, dashes or not. -/
theorem parse_dashed_given (program : String) :
    Options.parse ["yard.map", "-source", "--", program] = .ok (dashed.given program) := by
  have dashes : (program = "--" && decide (0 = 1)) = false := Bool.and_false _
  have parsed : Options.parse ["yard.map", "-source", "--", program] =
      .ok ⟨"yard.map", if (program = "--" && decide (0 = 1)) = true then none else some program,
        true, false, false⟩ := rfl
  rw [parsed, dashes]
  rfl

theorem run_dashed_given {program : String} {after : Bot} {fault : Fault}
    (failed : (Bot.ofWorld yardWorld false Bot.defaultLimit).run (.text program) "<string>" =
      (after, .ok (.failed fault)))
    (long : (after.traceback fault).text? false = none) :
    (dashed.given program).run yard = ⟨.raised "ValueError" (some Text.unwritable), "", ""⟩ := by
  have shown : readText yard (dashed.given program).map = _ := shows_yard.readText_eq (by decide)
  have there : (dashed.given program).programText yard = .ok (program, "<string>") := rfl
  have read :
      Map.read (.text (String.ofList (Text.unifyNewlines yardMap.toList))) = .ok yardWorld := rfl
  have verbose : (dashed.given program).verbose = false := rfl
  rw [Options.run_of_failed shown there read failed, Options.blame, verbose, long]
  rfl

/-- Neither of two accepted command lines has an exit code. One has a second lone `--` for its
program, and the program of the other fails at a step whose number has no text. -/
theorem command_without_exit_code :
    (Options.parse ["yard.map", "--", "--"] = .ok dashed ∧ dashed.Regular yard ∧
      dashed.run yard = ⟨.raised "TypeError"
        (some "expected str, bytes or os.PathLike object, not list"), "", ""⟩) ∧
    Options.parse ["yard.map", "-source", "--", stumbling nines] =
      .ok (dashed.given (stumbling nines)) ∧
    (∃ program, Program.parse (.text (stumbling nines)) "<string>" = .ok program) ∧
    (dashed.given (stumbling nines)).run yard =
      ⟨.raised "ValueError" (some Text.unwritable), "", ""⟩ := by
  obtain ⟨program, _, _, _, parsed, _⟩ := parse_stumbling convertible_nines "<string>"
  obtain ⟨after, fault, failed, text⟩ :=
    Bot.run_stumbling convertible_nines beyond_le_nines "<string>" (.ofWorld yardWorld false _)
  refine ⟨⟨rfl, regular_dashed, ?_⟩, parse_dashed_given _, ⟨program, parsed⟩,
    run_dashed_given failed (text false)⟩
  exact Options.run_of_raises regular_dashed (.missing shows_yard rfl rfl)

end Command
end Lamplighter
