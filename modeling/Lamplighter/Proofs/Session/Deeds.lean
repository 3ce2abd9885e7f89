import Lamplighter.Proofs.Program.Reading
import Lamplighter.Session

/-! What an action does to the robot.

Whatever it answers, an action does one of a few things, and what all of these keep is
kept through any history. Main statements: `does_apply` and `applyAll_keeps`. -/

namespace Lamplighter

theorem Grid.setCell_eq_ok {grid next : Grid} {x y : Int} {cell : Cell}
    (written : grid.setCell x y cell = .ok next) : ∃ column row, next = grid.set column row cell := by
  rw [setCell, bind_eq_ok] at written
  obtain ⟨⟨column, row⟩, _, result⟩ := written
  cases result
  exact ⟨column, row, rfl⟩

namespace Session

/-- What an action makes of a robot. -/
inductive Action.Does (bot : Bot) : Action → Bot → Prop where
  /-- It only asks, or is refused. -/
  | nothing {action : Action} : Does bot action bot
  | tree (program : Program) : Does bot (.execTree program) (bot.execTree program).1
  | exec {source : Text.Source} {file : String} {program : Program}
      (parsed : Program.parse source file = .ok program) :
      Does bot (.exec source file) (bot.execTree program).1
  | run {source : Text.Source} {file : String} {program : Program}
      (parsed : Program.parse source file = .ok program) :
      Does bot (.run source file) (bot.reset.execTree program).1
  /-- The text of a run does not parse. -/
  | unread {source : Text.Source} {file : String} {error : ParseError}
      (refused : Program.parse source file = .error error) : Does bot (.run source file) bot.reset
  | reset : Does bot .reset bot.reset
  | resetGrid : Does bot .resetGrid bot.resetGrid
  | turnLeft : Does bot .turnLeft { bot with world := bot.world.turnLeft }
  | turnRight : Does bot .turnRight { bot with world := bot.world.turnRight }
  | moveTo (x y : Nat) : Does bot (.moveTo x y) { bot with world := bot.world.moveTo x y }
  | setCell {x y : Int} (cell : Cell) (column row : Nat) : Does bot (.setCell x y cell)
      { bot with world := { bot.world with grid := bot.world.grid.set column row cell } }

variable {session : Session}

theorem bot_settle (session : Session) (bot : Bot) (status : Status) :
    (session.settle bot status).1.bot = bot := by
  cases status <;> rfl

theorem bot_settleParsed (session : Session) (outcome : Bot × Except ParseError Status) :
    (session.settleParsed outcome).1.bot = outcome.1 := by
  obtain ⟨bot, error | status⟩ := outcome
  · rfl
  · exact bot_settle session bot status

theorem does_apply (session : Session) (action : Action) :
    action.Does session.bot (session.apply action).1.bot := by
  cases action with
  | run source file =>
      rw [Session.apply, bot_settleParsed, Bot.run, Bot.exec]
      split
      case h_1 refused => exact .unread refused
      case h_2 parsed => exact .run parsed
  | exec source file =>
      rw [Session.apply, bot_settleParsed, Bot.exec]
      split
      case h_1 => exact .nothing
      case h_2 parsed => exact .exec parsed
  | execTree program =>
      have left := bot_settle session (session.bot.execTree program).1
        (session.bot.execTree program).2
      exact left ▸ .tree program
  | reset => exact .reset
  | resetGrid => exact .resetGrid
  | turnLeft => exact .turnLeft
  | turnRight => exact .turnRight
  | moveTo x y => exact .moveTo x y
  | setCell x y cell =>
      simp only [Session.apply]
      split
      case h_1 written =>
        obtain ⟨column, row, rfl⟩ := Grid.setCell_eq_ok written
        exact .setCell cell column row
      case h_2 => exact .nothing
  | cellAt x y =>
      simp only [Session.apply]
      split <;> exact .nothing
  | raise | functions | lastStep | log | traceback | tracebackJson | ahead | wrap | count =>
      exact .nothing

/-- What every allowed deed keeps is kept through all actions that are allowed. -/
theorem applyAll_keeps (holds : Bot → Prop) {allowed : Action → Prop}
    (kept : ∀ bot action after, allowed action → Action.Does bot action after → holds bot →
      holds after)
    (held : holds session.bot) (actions : List Action)
    (all : ∀ action ∈ actions, allowed action) : holds (session.applyAll actions).1.bot := by
  induction actions generalizing session with
  | nil => exact held
  | cons action actions ih =>
      have next := kept _ action _ (all action (.head _)) (session.does_apply action) held
      exact ih next fun other member => all other (.tail _ member)

end Session
end Lamplighter
