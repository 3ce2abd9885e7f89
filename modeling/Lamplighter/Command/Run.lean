import Lamplighter.Command.Arguments
import Lamplighter.Command.Files
import Lamplighter.Text.Quoted
import Lamplighter.Traceback

/-! From arguments and files to an exit code and two texts. -/

namespace Lamplighter.Command

/-- What kept a program from running to its end. -/
inductive Failure where
  | badName (name : String)
  | noProgram
  | unreadable (name : String) (error : ReadError)
  | undecodable (name : String)
  | badMap (error : MapError)
  | overlong (error : ParseError)
  | fault (traceback : Traceback)
  | tooDeep
  deriving Repr

/-- The exit code, or an exception that nothing catches. The message of some exceptions is not
told. -/
inductive Ending where
  | exit (code : Nat)
  | raised (kind : String) (message : Option String)
  deriving Repr, DecidableEq

/-- How the command ends, and what it has printed by then. -/
structure Report where
  ending : Ending
  out : String
  err : String
  deriving Repr, DecidableEq

/-- Each line with its end. -/
def unlines (lines : List String) : String := String.join (lines.map fun line => line ++ "\n")

/-- A file's text, with every line end made a line feed. No file has a name with a
null character in it. -/
def readText (files : Files) (name : String) : Except Failure String :=
  if name.toList.contains '\x00' then .error (.badName name)
  else
    match files name with
    | .error error => .error (.unreadable name error)
    | .ok bytes =>
      match String.fromUTF8? bytes with
      | none => .error (.undecodable name)
      | some text => .ok (String.ofList (Text.unifyNewlines text.toList))

namespace Options

/-- The program's text and the name it goes by. A text given as it is keeps its
line ends. -/
def programText (options : Options) (files : Files) : Except Failure (String × String) :=
  match options.literal, options.program with
  | true, program => .ok (program.getD "", "<string>")
  | false, none => .error .noProgram
  | false, some name => do
    let text ← readText files name
    return (text, name)

/-- The robot after the program has run. -/
def execute (options : Options) (files : Files) : Except Failure Bot := do
  let map ← readText files options.map
  let (program, file) ← options.programText files
  match Bot.ofMap (.text map) options.verbose Bot.defaultLimit with
  | .error error => throw (.badMap error)
  | .ok bot =>
    match bot.run (.text program) file with
    | (_, .error error) => throw (.overlong error)
    | (bot, .ok .finished) => return bot
    | (bot, .ok (.failed fault)) => throw (.fault (bot.traceback fault))
    | (_, .ok .tooDeep) => throw .tooDeep

/-- The floor and the robot behind a run. No place on a map and no number of lamps is too long to
be written, as a map is a text. -/
def success (bot : Bot) : Report :=
  let { x, y, direction } := bot.world.robot
  let facing := direction.name
  let lamps := bot.world.lampsRemaining
  ⟨.exit 0, unlines (bot.world.render ++
    [s!"robot: ({x}, {y}) facing {facing}", s!"lamps remaining: {lamps}"]), ""⟩

/-- Nothing but lines that say what went wrong. -/
def complaint (lines : List String) : Report := ⟨.exit 1, "", unlines lines⟩

/-- An exception, and what was said before it came up. -/
def raise (kind : String) (message : Option String) (lines : List String) : Report :=
  ⟨.raised kind message, "", unlines lines⟩

/-- A fault is told as text, and as JSON too if that is asked for. A report that cannot be made
raises an exception. -/
def blame (options : Options) (traceback : Traceback) : Report :=
  match traceback.text? options.verbose with
  | none => raise "ValueError" (some Text.unwritable) []
  | some text =>
    if options.tracebackJson then
      match traceback.json? with
      | none => raise "ValueError" (some Text.unwritable) [text]
      | some json => complaint [text, json]
    else complaint [text]

/-- Only files that cannot be read, bad maps and faults are seen to. All else that may go wrong
is left to raise its exception. -/
def failed (options : Options) : Failure → Report
  | .badName _ => raise "ValueError" (some "embedded null byte") []
  | .noProgram =>
    raise "TypeError" (some "expected str, bytes or os.PathLike object, not list") []
  | .unreadable name error =>
    let code := error.code
    let reason := error.reason
    let quoted := Text.quote name
    complaint [s!"Failed to read {name}: [Errno {code}] {reason}: {quoted}"]
  | .undecodable _ => raise "UnicodeDecodeError" none []
  | .badMap error => complaint ["ConstructionError: " ++ error.message]
  | .overlong error => raise "ValueError" (some error.message) []
  | .fault traceback => options.blame traceback
  | .tooDeep => raise "RecursionError" none []

def report (options : Options) : Except Failure Bot → Report
  | .ok bot => success bot
  | .error failure => options.failed failure

def run (options : Options) (files : Files) : Report := options.report (options.execute files)

end Options
end Lamplighter.Command
