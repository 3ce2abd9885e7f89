import Lamplighter.Proofs.Run.Footing
import Lamplighter.Proofs.Session.Deeds
import Lamplighter.Proofs.World.MapFloor

/-! What a robot stands on through any history of actions.

The floor keeps its size and the robot stays on it, whatever is done and whatever of it
fails; and no run reaches for a cell that is not there. Main statement:
`session_stays_on_floor`. -/

namespace Lamplighter

namespace World

variable {world : World} {width height : Nat}

theorem Spans.turnLeft (spans : world.Spans width height) : world.turnLeft.Spans width height :=
  spans.perform .left

theorem Spans.turnRight (spans : world.Spans width height) : world.turnRight.Spans width height :=
  spans.perform .right

theorem Spans.moveTo (spans : world.Spans width height) {x y : Nat} (column : x < width)
    (row : y < height) : (world.moveTo x y).Spans width height := by
  obtain ⟨⟨floor, _⟩, rfl, rfl⟩ := spans
  exact ⟨⟨floor, column, row⟩, rfl, rfl⟩

end World

namespace Bot

/-- Between two actions: the snapshot is the world that the robot was opened on, the
floor is of the same size with the robot on it, and no call is active. -/
structure Sound (bot : Bot) (start : World) : Prop where
  snapshot : bot.start = start
  opened : start.Valid
  spans : bot.world.Spans start.grid.width start.grid.height
  idle : bot.stack = []

variable {bot : Bot} {start : World}

theorem sound_ofWorld (valid : start.Valid) (verbose : Bool) (limit : Nat) :
    (ofWorld start verbose limit).Sound start := ⟨rfl, valid, valid.spans, rfl⟩

theorem Sound.withWorld (sound : bot.Sound start) {world : World}
    (spans : world.Spans start.grid.width start.grid.height) :
    Bot.Sound { bot with world := world } start :=
  ⟨sound.snapshot, sound.opened, spans, sound.idle⟩

theorem Sound.withGrid (sound : bot.Sound start) {grid : Grid} (floor : grid.WellFormed)
    (across : grid.width = start.grid.width) (down : grid.height = start.grid.height) :
    Bot.Sound { bot with world := { bot.world with grid := grid } } start :=
  sound.withWorld (sound.spans.withGrid floor across down)

theorem Sound.reset (sound : bot.Sound start) : bot.reset.Sound start := by
  refine sound.withWorld ?_
  rw [sound.snapshot]
  exact sound.opened.spans

theorem Sound.resetGrid (sound : bot.Sound start) : bot.resetGrid.Sound start := by
  refine sound.withGrid ?_ ?_ ?_
  · rw [sound.snapshot]
    exact sound.opened.floor
  · rw [sound.snapshot]
  · rw [sound.snapshot]

theorem Sound.execTree (sound : bot.Sound start) (program : Program) :
    (bot.execTree program).1.Sound start where
  snapshot := sound.snapshot
  opened := sound.opened
  spans := program.run_spans bot.limit bot.verbose sound.spans
  idle := by
    obtain ⟨_, _, _, _, _, unwound⟩ := program.run_visits bot.limit bot.verbose bot.world
    exact unwound

/-- A moment of a run that the robot may be sent on now, on the world as it is or after
a reset. -/
def Passes (bot : Bot) (program : Program) (moment : Moment) : Prop :=
  program.Visits bot.verbose bot.world moment ∨ program.Visits bot.verbose bot.reset.world moment

theorem Sound.passes (sound : bot.Sound start) {program : Program} {moment : Moment}
    (passes : bot.Passes program moment) :
    moment.machine.world.Spans start.grid.width start.grid.height := by
  rcases passes with visited | visited
  · exact visited.spans sound.spans
  · exact visited.spans sound.reset.spans

/-- What can be told of a robot after any history: each place of the floor holds a cell
in one of the four states, the robot is on one, and no call is left active. On whatever
program it is then sent, every opcode finds the cell that it looks at, and the robot
only enters a cell that is not lit floor at that moment. -/
structure Grounded (bot : Bot) (start : World) : Prop where
  width_pos : 0 < start.grid.width
  height_pos : 0 < start.grid.height
  snapshot : bot.start = start
  width : bot.world.grid.width = start.grid.width
  height : bot.world.grid.height = start.grid.height
  cells : ∀ x < start.grid.width, ∀ y < start.grid.height, ∃ cell ∈ Cell.all,
    (bot.world.grid.cells[y]?.bind fun row => row[x]?) = some cell
  robot : bot.world.robot.x < start.grid.width ∧ bot.world.robot.y < start.grid.height
  idle : bot.stack = []
  served : ∀ program moment, bot.Passes program moment → ∀ opcode,
    moment.machine.world.Serves opcode
  entered : ∀ program before after, bot.Passes program before →
    Moment.Next program.functions before after →
    (after.machine.world.robot.x, after.machine.world.robot.y) ≠
      (before.machine.world.robot.x, before.machine.world.robot.y) →
    (∃ text location agenda, before.agenda = .effect (.act .forward text location) :: agenda) ∧
    before.machine.world.grid.cell after.machine.world.robot.x after.machine.world.robot.y ≠ .floorLit

theorem Sound.grounded (sound : bot.Sound start) : bot.Grounded start := by
  obtain ⟨⟨floor, inside⟩, across, down⟩ := sound.spans
  constructor
  case width_pos => exact sound.opened.floor.width_pos
  case height_pos => exact sound.opened.floor.height_pos
  case snapshot => exact sound.snapshot
  case width => exact across
  case height => exact down
  case cells =>
    intro x column y line
    obtain ⟨row, found, length⟩ := floor.row (down ▸ line)
    have here : x < row.length := by omega
    refine ⟨row[x], ?_, ?_⟩
    · cases row[x] <;> decide
    · rw [found, Option.bind_some, List.getElem?_eq_getElem here]
  case robot =>
    rw [World.Inside, across, down] at inside
    exact inside
  case idle => exact sound.idle
  case served =>
    intro program moment passes
    exact (sound.passes passes).valid.serves
  case entered =>
    intro program before after _ move moved
    exact move.entered moved

end Bot

namespace Session

/-- A robot that is put somewhere is put on the floor. -/
def Action.Inside (grid : Grid) : Action → Prop
  | .moveTo x y => x < grid.width ∧ y < grid.height
  | _ => True

variable {session : Session} {start : World}

theorem Action.Does.sound {bot after : Bot} {action : Action} (does : action.Does bot after)
    (inside : action.Inside start.grid) (sound : bot.Sound start) : after.Sound start := by
  cases does with
  | nothing => exact sound
  | tree program => exact sound.execTree program
  | exec => exact sound.execTree _
  | run => exact sound.reset.execTree _
  | unread | reset => exact sound.reset
  | resetGrid => exact sound.resetGrid
  | turnLeft => exact sound.withWorld sound.spans.turnLeft
  | turnRight => exact sound.withWorld sound.spans.turnRight
  | moveTo x y => exact sound.withWorld (sound.spans.moveTo inside.1 inside.2)
  | setCell cell column row =>
      have floor := Grid.set_wellFormed sound.spans.valid.floor column row cell
      exact sound.withGrid floor sound.spans.width sound.spans.height

theorem sound_applyAll (sound : session.bot.Sound start) (actions : List Action)
    (inside : ∀ action ∈ actions, action.Inside start.grid) :
    (session.applyAll actions).1.bot.Sound start :=
  applyAll_keeps (fun bot => bot.Sound start)
    (fun _ _ _ allowed does sound => does.sound allowed sound) sound actions inside

theorem sound_ofMap {map : Text.Source} {verbose : Bool} {limit : Nat}
    (accepted : ofMap map verbose limit = .ok session) : session.bot.Sound session.bot.start := by
  simp only [ofMap, Bot.ofMap, bind_eq_ok] at accepted
  obtain ⟨bot, ⟨start, read, opened⟩, result⟩ := accepted
  cases opened
  cases result
  exact Bot.sound_ofWorld (Map.valid_of_read read) verbose limit

end Session

/-- Through any history of actions on a robot of an accepted map, whatever of it fails,
the floor stays as it was opened but for the states of its cells, and the robot on it. -/
theorem session_stays_on_floor (map : Text.Source) (verbose : Bool) (limit : Nat)
    (session : Session) (opened : Session.ofMap map verbose limit = .ok session)
    (actions : List Session.Action)
    (inside : ∀ action ∈ actions, action.Inside session.bot.start.grid) :
    (session.applyAll actions).1.bot.Grounded session.bot.start :=
  (Session.sound_applyAll (Session.sound_ofMap opened) actions inside).grounded

/-- A lit tile stands between the robot and a lamp. -/
def alcove : Text.Source := .pieces ["", "  RxO", "  .X."]

def alcoveWorld : World :=
  ⟨⟨3, 2, [[.empty, .floorLit, .lampOff], [.empty, .lampOn, .empty]]⟩, ⟨0, 0, .east⟩⟩

def alcoveSession : Session := ⟨.ofWorld alcoveWorld true 9, none⟩

/-- Runs that fail at a name and at an unknown instruction, cells that are there when
counted from the end or not at all, and a placement on the lit tile. -/
def alcoveHistory : List Session.Action :=
  [.run (.pieces ["LEFT", "FORWARD", "LIGHT", "REPEAT n"]) "alcove", .setCell (-1) (-2) .floorLit,
    .setCell 3 0 .empty, .cellAt (-4) 0, .moveTo 1 0,
    .execTree ⟨"tree", .empty, [.act .forward "FORWARD" none, .unknown none]⟩, .resetGrid]

theorem session_stays_on_floor_of_alcove :
    Session.ofMap alcove true 9 = .ok alcoveSession ∧
    (∀ action ∈ alcoveHistory, action.Inside alcoveSession.bot.start.grid) ∧
    (alcoveSession.applyAll alcoveHistory).1.bot.world.robot = ⟨1, 1, .north⟩ ∧
    (alcoveSession.applyAll alcoveHistory).1.bot.Grounded alcoveSession.bot.start := by
  have opened : Session.ofMap alcove true 9 = .ok alcoveSession := by rfl
  have inside : ∀ action ∈ alcoveHistory, action.Inside alcoveSession.bot.start.grid := by
    simp [alcoveHistory, Session.Action.Inside, alcoveSession, Bot.ofWorld, alcoveWorld]
  exact ⟨opened, inside, by decide +kernel,
    session_stays_on_floor alcove true 9 alcoveSession opened alcoveHistory inside⟩

end Lamplighter
