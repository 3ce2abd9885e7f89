import Lamplighter.Proofs.Program.Reading
import Lamplighter.Proofs.World.MapRows
import Lamplighter.Session

/-! What a robot keeps through any history of actions.

Nothing that is done to a robot changes the world it was opened on, and a run starts
from that world with a record of its own. Main statement: `run_forgets_history`. -/

namespace Lamplighter

namespace Bot

/-- The robot goes back to this world, and runs programs under these settings. -/
structure OpenedOn (bot : Bot) (start : World) (verbose : Bool) (limit : Nat) : Prop where
  start : bot.start = start
  verbose : bot.verbose = verbose
  limit : bot.limit = limit

variable {bot : Bot} {start : World} {verbose : Bool} {limit : Nat}

theorem openedOn_ofWorld (start : World) (verbose : Bool) (limit : Nat) :
    (ofWorld start verbose limit).OpenedOn start verbose limit := ⟨rfl, rfl, rfl⟩

theorem OpenedOn.withWorld (opened : bot.OpenedOn start verbose limit) (world : World) :
    Bot.OpenedOn { bot with world := world } start verbose limit :=
  ⟨opened.start, opened.verbose, opened.limit⟩

theorem OpenedOn.reset (opened : bot.OpenedOn start verbose limit) :
    bot.reset.OpenedOn start verbose limit := opened.withWorld bot.start

theorem OpenedOn.execTree (opened : bot.OpenedOn start verbose limit) (program : Program) :
    (bot.execTree program).1.OpenedOn start verbose limit :=
  ⟨opened.start, opened.verbose, opened.limit⟩

theorem OpenedOn.exec (opened : bot.OpenedOn start verbose limit) (source : Text.Source)
    (file : String) : (bot.exec source file).1.OpenedOn start verbose limit := by
  unfold Bot.exec
  split
  · exact opened
  · exact opened.execTree _

theorem OpenedOn.run (opened : bot.OpenedOn start verbose limit) (source : Text.Source)
    (file : String) : (bot.run source file).1.OpenedOn start verbose limit :=
  opened.reset.exec source file

/-- A run answers for the program and the world at the start, and for nothing else. -/
theorem OpenedOn.run_eq (opened : bot.OpenedOn start verbose limit) {source : Text.Source}
    {file : String} {program : Program} (parsed : Program.parse source file = .ok program) :
    bot.run source file =
      ((⟨start, (program.run limit verbose start).machine.world, verbose, limit, program.functions,
          (program.run limit verbose start).machine.stack,
          (program.run limit verbose start).machine.log⟩ : Bot),
        .ok (program.run limit verbose start).status) := by
  rcases opened with ⟨rfl, rfl, rfl⟩
  rw [Bot.run, Bot.exec, parsed]
  rfl

end Bot

namespace Session

variable {session : Session} {start : World} {verbose : Bool} {limit : Nat}

theorem openedOn_settle {bot : Bot} (opened : bot.OpenedOn start verbose limit) (status : Status) :
    (session.settle bot status).1.bot.OpenedOn start verbose limit := by
  cases status <;> exact opened

theorem openedOn_settleParsed {outcome : Bot × Except ParseError Status}
    (opened : outcome.1.OpenedOn start verbose limit) :
    (session.settleParsed outcome).1.bot.OpenedOn start verbose limit := by
  obtain ⟨bot, status | status⟩ := outcome
  · exact opened
  · exact openedOn_settle opened status

/-- Every action keeps what a later run starts from. -/
theorem openedOn_apply (opened : session.bot.OpenedOn start verbose limit) (action : Action) :
    (session.apply action).1.bot.OpenedOn start verbose limit := by
  cases action with
  | run source file => exact openedOn_settleParsed (opened.run source file)
  | exec source file => exact openedOn_settleParsed (opened.exec source file)
  | execTree program => exact openedOn_settle (opened.execTree program) _
  | setCell x y cell =>
      simp only [Session.apply]
      split
      · exact opened.withWorld _
      · exact opened
  | cellAt x y =>
      simp only [Session.apply]
      split <;> exact opened
  | reset => exact opened.reset
  | resetGrid | turnLeft | turnRight | moveTo => exact opened.withWorld _
  | raise | functions | lastStep | log | traceback | tracebackJson | ahead | wrap | count =>
      exact opened

theorem openedOn_applyAll (opened : session.bot.OpenedOn start verbose limit)
    (actions : List Action) : (session.applyAll actions).1.bot.OpenedOn start verbose limit := by
  induction actions generalizing session with
  | nil => exact opened
  | cons action actions ih => exact ih (openedOn_apply opened action)

theorem openedOn_ofMap {map : Text.Source} (accepted : ofMap map verbose limit = .ok session) :
    ∃ start, Map.read map = .ok start ∧ session.bot.OpenedOn start verbose limit := by
  simp only [ofMap, Bot.ofMap, bind_eq_ok] at accepted
  rcases accepted with ⟨bot, ⟨start, read, opened⟩, result⟩
  cases opened
  cases result
  exact ⟨start, read, Bot.openedOn_ofWorld start verbose limit⟩

end Session

/-- Whatever was done to two robots of one map, a program that parses ends on both in
the same way and leaves the same behind. A reset brings back the map, and a second one
changes nothing more. -/
theorem run_forgets_history (map : Text.Source) (verbose : Bool) (limit : Nat) (one two : Session)
    (openedOne : Session.ofMap map verbose limit = .ok one)
    (openedTwo : Session.ofMap map verbose limit = .ok two) (first second : List Session.Action) :
    (∀ source file program, Program.parse source file = .ok program →
      ∃ bot status, (one.applyAll first).1.bot.run source file = (bot, .ok status) ∧
        (two.applyAll second).1.bot.run source file = (bot, .ok status)) ∧
    Map.Shows (Map.rows map) (one.applyAll first).1.bot.reset.world ∧
    (one.applyAll first).1.bot.reset.reset = (one.applyAll first).1.bot.reset := by
  rcases Session.openedOn_ofMap openedOne with ⟨start, read, freshOne⟩
  rcases Session.openedOn_ofMap openedTwo with ⟨again, readAgain, freshTwo⟩
  rw [read] at readAgain
  cases readAgain
  have left := Session.openedOn_applyAll freshOne first
  have right := Session.openedOn_applyAll freshTwo second
  refine ⟨?_, ?_, rfl⟩
  · intro source file program parsed
    exact ⟨_, _, left.run_eq parsed, right.run_eq parsed⟩
  · have shown := Map.shows_of_read read
    rwa [← left.start] at shown

/-- A floor with a lamp and a lit tile, and a robot in its corner. -/
def corner : Text.Source := .pieces ["R.O", ".x."]

def cornerWorld : World :=
  ⟨⟨3, 2, [[.empty, .empty, .lampOff], [.empty, .floorLit, .empty]]⟩, ⟨0, 0, .east⟩⟩

def cornerSession : Session := ⟨.ofWorld cornerWorld false 9, none⟩

/-- A run that fails in a loop, and changes to the floor and the robot by hand. -/
def wear : List Session.Action :=
  [.run (.pieces ["LIGHT", "REPEAT n"]) "wear", .setCell 2 (-1) .lampOn, .moveTo 2 0, .turnLeft]

theorem run_forgets_history_of_corner :
    Session.ofMap corner false 9 = .ok cornerSession ∧
    (∀ source file program, Program.parse source file = .ok program →
      ∃ bot status, (cornerSession.applyAll wear).1.bot.run source file = (bot, .ok status) ∧
        (cornerSession.applyAll [.resetGrid]).1.bot.run source file = (bot, .ok status)) ∧
    Map.Shows (Map.rows corner) (cornerSession.applyAll wear).1.bot.reset.world ∧
    (cornerSession.applyAll wear).1.bot.reset.reset = (cornerSession.applyAll wear).1.bot.reset := by
  have opened : Session.ofMap corner false 9 = .ok cornerSession := by rfl
  exact ⟨opened, run_forgets_history corner false 9 cornerSession cornerSession opened opened wear
    [.resetGrid]⟩

end Lamplighter
