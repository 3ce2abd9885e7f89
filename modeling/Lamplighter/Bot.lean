import Lamplighter.Program.Parser
import Lamplighter.Run.Exec
import Lamplighter.World.Map

/-! A robot on its map, ready to run programs. -/

namespace Lamplighter

/-- The world as it was at the start and as it is now, and what the last program
left: its functions, its active calls and its record. -/
structure Bot where
  start : World
  world : World
  verbose : Bool
  limit : Nat
  functions : Table FunDef
  stack : List Frame
  log : Log
  deriving Repr

namespace Bot

/-- So many calls may be nested. -/
def defaultLimit : Nat := 1000

def ofWorld (world : World) (verbose : Bool) (limit : Nat) : Bot :=
  ⟨world, world, verbose, limit, .empty, [], .start verbose⟩

def ofMap (map : Text.Source) (verbose : Bool) (limit : Nat) : Except MapError Bot := do
  let world ← Map.read map
  return ofWorld world verbose limit

/-- Restores floor and robot, and leaves functions and record alone. -/
def reset (bot : Bot) : Bot := { bot with world := bot.start }

def resetGrid (bot : Bot) : Bot := { bot with world := { bot.world with grid := bot.start.grid } }

/-- Runs a tree on the world as it is. -/
def execTree (bot : Bot) (program : Program) : Bot × Status :=
  let outcome := program.run bot.limit bot.verbose bot.world
  ({ bot with
      world := outcome.machine.world
      functions := program.functions
      stack := outcome.machine.stack
      log := outcome.machine.log }, outcome.status)

/-- A text that does not parse changes nothing. -/
def exec (bot : Bot) (source : Text.Source) (file : String) : Bot × Except ParseError Status :=
  match Program.parse source file with
  | .error error => (bot, .error error)
  | .ok program =>
    let (bot, status) := bot.execTree program
    (bot, .ok status)

/-- The world is reset first, even when the text then does not parse. -/
def run (bot : Bot) (source : Text.Source) (file : String) : Bot × Except ParseError Status :=
  bot.reset.exec source file

end Bot
end Lamplighter
