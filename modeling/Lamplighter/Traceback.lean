import Lamplighter.Bot
import Lamplighter.Json.Writer

/-! The report on a fault: the active calls, then the robot and the floor.

Calls are those kept in the fault; robot, floor and step count are those of the
moment the report is made. A report with an integer that has no text cannot be
made; `text` and `json` say how it would read all the same. -/

namespace Lamplighter

structure Traceback where
  fault : Fault
  frames : List Frame
  world : World
  steps : Nat
  deriving Repr

/-- A fault without calls of its own is reported with those that are active now. -/
def Bot.traceback (bot : Bot) (fault : Fault) : Traceback where
  fault := fault
  frames := fault.stack.getD bot.stack.reverse
  world := bot.world
  steps := bot.log.count

namespace Traceback

/-- A frame's name, followed by its bindings when it has any. -/
def signature (frame : Frame) : String :=
  match frame.scope.bindings.entries with
  | [] => frame.name
  | entries =>
    let bindings := entries.map fun (name, value) => name ++ "=" ++ toString value
    frame.name ++ "(" ++ String.intercalate ", " bindings ++ ")"

/-- The statement gets a line of its own unless it is empty. -/
def frameLines (frame : Frame) : List String :=
  match frame.location with
  | none => ["  <unknown location> in " ++ signature frame]
  | some location =>
    ("  \"" ++ location.file ++ "\", line " ++ toString location.line ++ ", in " ++ signature frame)
      :: if location.statement = "" then [] else ["    " ++ location.statement]

def robotLine (traceback : Traceback) : String :=
  let { x, y, direction } := traceback.world.robot
  let facing := direction.name
  let steps := traceback.steps
  s!"Robot at ({x}, {y}) facing {facing} after {steps} steps"

def mapLines (traceback : Traceback) : List String :=
  "Map:" :: traceback.world.render.map fun row => "  " ++ row

def faultLine (traceback : Traceback) : String :=
  traceback.fault.cause.kind ++ ": " ++ traceback.fault.cause.message

/-- A verbose report shows the map as well. -/
def lines (traceback : Traceback) (verbose : Bool) : List String :=
  "LightBot traceback (innermost call last):" ::
    traceback.frames.flatMap frameLines ++ [traceback.robotLine] ++
    (if verbose then traceback.mapLines else []) ++ [traceback.faultLine]

def text (traceback : Traceback) (verbose : Bool) : String :=
  String.intercalate "\n" (traceback.lines verbose)

def binding? (binding : String × Int) : Option String := do
  let value ← Text.decimal? binding.2
  return binding.1 ++ "=" ++ value

def signature? (frame : Frame) : Option String :=
  match frame.scope.bindings.entries with
  | [] => some frame.name
  | entries => do
    let bindings ← entries.mapM binding?
    return frame.name ++ "(" ++ String.intercalate ", " bindings ++ ")"

def frameLines? (frame : Frame) : Option (List String) := do
  let signature ← signature? frame
  match frame.location with
  | none => return ["  <unknown location> in " ++ signature]
  | some location =>
    let line ← Text.decimal? location.line
    return ("  \"" ++ location.file ++ "\", line " ++ line ++ ", in " ++ signature)
      :: if location.statement = "" then [] else ["    " ++ location.statement]

def robotLine? (traceback : Traceback) : Option String := do
  let across ← Text.decimal? traceback.world.robot.x
  let down ← Text.decimal? traceback.world.robot.y
  let steps ← Text.decimal? traceback.steps
  let facing := traceback.world.robot.direction.name
  return s!"Robot at ({across}, {down}) facing {facing} after {steps} steps"

def lines? (traceback : Traceback) (verbose : Bool) : Option (List String) := do
  let frames ← traceback.frames.mapM frameLines?
  let robot ← traceback.robotLine?
  return "LightBot traceback (innermost call last):" :: frames.flatten ++ [robot] ++
    (if verbose then traceback.mapLines else []) ++ [traceback.faultLine]

/-- The report as text, made of the texts that its numbers have. -/
def text? (traceback : Traceback) (verbose : Bool) : Option String :=
  (traceback.lines? verbose).map (String.intercalate "\n")

def frameJson (frame : Frame) : Json :=
  let bindings := frame.scope.bindings.entries.map fun (name, value) => (name, Json.number value)
  let place :=
    match frame.location with
    | none => []
    | some location =>
      [("file", .text location.file), ("line", .nat location.line),
       ("column", .nat location.column), ("statement", .text location.statement)]
  .object ([("name", .text frame.name), ("bindings", .object bindings)] ++ place)

def toJson (traceback : Traceback) : Json :=
  let { cause, step, .. } := traceback.fault
  let { x, y, direction } := traceback.world.robot
  .object [
    ("error", .object [
      ("type", .text cause.kind),
      ("message", .text cause.message),
      ("rule", .ofOption .text cause.rule),
      ("step", .ofOption .nat step)]),
    ("robot", .object [("x", .nat x), ("y", .nat y), ("direction", .text direction.name)]),
    ("frames", .array (traceback.frames.map frameJson)),
    ("map", .array (traceback.world.rows.map .text))]

def json (traceback : Traceback) : String := traceback.toJson.write

/-- The report as JSON, if its numbers have texts. -/
def json? (traceback : Traceback) : Option String := traceback.toJson.write?

end Traceback
end Lamplighter
