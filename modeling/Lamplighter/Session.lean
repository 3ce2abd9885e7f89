import Lamplighter.Traceback

/-! A sequence of actions on one robot, and what each of them answers. -/

namespace Lamplighter

/-- The robot, and the last fault that came up. -/
structure Session where
  bot : Bot
  fault : Option Fault
  deriving Repr

namespace Session

inductive Action where
  | run (source : Text.Source) (file : String)
  | exec (source : Text.Source) (file : String)
  | execTree (program : Program)
  | reset
  | resetGrid
  | turnLeft
  | turnRight
  | moveTo (x y : Nat)
  | setCell (x y : Int) (cell : Cell)
  | raise (cause : Cause) (location : Option Location)
  | functions
  | lastStep
  | log
  | traceback (verbose : Bool)
  | tracebackJson
  | ahead
  | wrap (x y : Int)
  | cellAt (x y : Int)
  | count (cell : Cell)
  deriving Repr

inductive Answer where
  | done
  | failed (fault : Fault)
  | tooDeep
  | overlong (error : ParseError)
  | badIndex (error : BadIndex)
  | functions (signatures : List (String × List String))
  | step (last : Option Step)
  | log (steps : List Step)
  | report (text : Option String)
  /-- There is no report, because an integer in it has no text. -/
  | unwritable
  | place (x y : Int)
  | cell (cell : Cell)
  | count (n : Nat)
  deriving Repr

/-- Opens a session on a map. -/
def ofMap (map : Text.Source) (verbose : Bool) (limit : Nat) : Except MapError Session := do
  let bot ← Bot.ofMap map verbose limit
  return ⟨bot, none⟩

/-- Takes over what a run left. A fault becomes the session's last one. -/
def settle (session : Session) (bot : Bot) : Status → Session × Answer
  | .finished => (⟨bot, session.fault⟩, .done)
  | .failed fault => (⟨bot, some fault⟩, .failed fault)
  | .tooDeep => (⟨bot, session.fault⟩, .tooDeep)

def settleParsed (session : Session) : Bot × Except ParseError Status → Session × Answer
  | (bot, .ok status) => session.settle bot status
  | (bot, .error error) => (⟨bot, session.fault⟩, .overlong error)

/-- Changes the world and nothing else. -/
def alter (session : Session) (change : World → World) : Session × Answer :=
  (⟨{ session.bot with world := change session.bot.world }, session.fault⟩, .done)

/-- What making a report on the last fault comes to. -/
def report (session : Session) (write : Traceback → Option String) : Answer :=
  match session.fault with
  | none => .report none
  | some fault =>
    match write (session.bot.traceback fault) with
    | none => .unwritable
    | some text => .report (some text)

def apply (session : Session) : Action → Session × Answer
  | .run source file => session.settleParsed (session.bot.run source file)
  | .exec source file => session.settleParsed (session.bot.exec source file)
  | .execTree program =>
    let (bot, status) := session.bot.execTree program
    session.settle bot status
  | .reset => (⟨session.bot.reset, session.fault⟩, .done)
  | .resetGrid => (⟨session.bot.resetGrid, session.fault⟩, .done)
  | .turnLeft => session.alter World.turnLeft
  | .turnRight => session.alter World.turnRight
  | .moveTo x y => session.alter fun world => world.moveTo x y
  | .setCell x y cell =>
    match session.bot.world.grid.setCell x y cell with
    | .ok grid => session.alter fun world => { world with grid := grid }
    | .error error => (session, .badIndex error)
  | .raise cause location =>
    let fault := ⟨cause, location, none, none⟩
    (⟨session.bot, some fault⟩, .failed fault)
  | .functions =>
    let signatures := session.bot.functions.entries.map fun (name, function) =>
      (name, function.params)
    (session, .functions signatures)
  | .lastStep => (session, .step session.bot.log.last)
  | .log => (session, .log session.bot.log.steps.toList)
  | .traceback verbose => (session, session.report fun traceback => traceback.text? verbose)
  | .tracebackJson => (session, session.report Traceback.json?)
  | .ahead =>
    let (x, y) := session.bot.world.robot.ahead
    (session, .place x y)
  | .wrap x y =>
    let (x, y) := session.bot.world.grid.wrap (x, y)
    (session, .place x y)
  | .cellAt x y =>
    match session.bot.world.grid.cellAt x y with
    | .ok cell => (session, .cell cell)
    | .error error => (session, .badIndex error)
  | .count cell => (session, .count (session.bot.world.grid.count cell))

/-- Every action in turn, faults or not. -/
def applyAll (session : Session) : List Action → Session × List Answer
  | [] => (session, [])
  | action :: actions =>
    let (next, answer) := session.apply action
    let (last, answers) := next.applyAll actions
    (last, answer :: answers)

end Session
end Lamplighter
