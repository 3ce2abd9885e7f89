import Lamplighter.Proofs.Run.Lights
import Lamplighter.Proofs.Session.Deeds

/-! Lamps that stay on.

Runs only ever light, each place once for good, so lamps that are on stay on until the
floor is reset. Main statement: `lights_fix_floor`. -/

namespace Lamplighter

theorem World.LitFrom.moveTo {world start : World} (later : world.LitFrom start) {x y : Nat}
    (column : x < start.grid.width) (row : y < start.grid.height) :
    (world.moveTo x y).LitFrom start := by
  obtain ⟨valid, places, lit⟩ := later
  have inside : (world.moveTo x y).Inside := by
    constructor
    · exact lit.width ▸ column
    · exact lit.height ▸ row
  exact ⟨⟨valid.floor, inside⟩, places, lit⟩

namespace Bot

variable {bot : Bot} {start : World}

theorem litFrom_execTree (later : bot.world.LitFrom start) (program : Program) :
    (bot.execTree program).1.world.LitFrom start :=
  program.run_keeps bot.limit bot.verbose (fun world => world.LitFrom start)
    (fun _ opcode held => held.perform opcode) later

end Bot

namespace Session

/-- The action neither resets the floor nor writes cells by hand, and the robot is put
nowhere but on the floor. -/
def Action.Spares (grid : Grid) : Action → Prop
  | .run _ _ | .reset | .resetGrid | .setCell _ _ _ => False
  | .moveTo x y => x < grid.width ∧ y < grid.height
  | _ => True

variable {session : Session} {start : World}

theorem Action.Does.litFrom {bot after : Bot} {action : Action} (does : action.Does bot after)
    (spares : action.Spares start.grid) (later : bot.world.LitFrom start) :
    after.world.LitFrom start := by
  cases does with
  | nothing => exact later
  | tree program => exact Bot.litFrom_execTree later program
  | exec => exact Bot.litFrom_execTree later _
  | turnLeft => exact later.perform .left
  | turnRight => exact later.perform .right
  | moveTo x y => exact later.moveTo spares.1 spares.2
  | run | unread | reset | resetGrid | setCell => exact spares.elim

theorem litFrom_applyAll (later : session.bot.world.LitFrom start) (actions : List Action)
    (spares : ∀ action ∈ actions, action.Spares start.grid) :
    (session.applyAll actions).1.bot.world.LitFrom start :=
  applyAll_keeps (fun bot => bot.world.LitFrom start)
    (fun _ _ _ allowed does later => does.litFrom allowed later) later actions spares

end Session

/-- A run leaves the floor that it found, lit at the places where its verbose log has a
light, and nowhere else. As many lamps are gone from those that were off as there are
places of such lamps among these. In the course of a run, and on through all actions up
to a reset, lamps remain lamps and plain floor plain floor, no lamp goes off again, and
what is solved stays solved. -/
theorem lights_fix_floor (program : Program) (limit : Nat) (verbose : Bool) (world : World)
    (valid : world.Valid) :
    let left := (program.run limit verbose world).machine.world
    let lit := program.lightPlaces limit world
    (∀ x y, (x, y) ∈ lit ↔ ∃ step ∈ (program.run limit true world).machine.log.steps.toList,
      step.rule = .act .light ∧ step.pose.x = x ∧ step.pose.y = y) ∧
    (∀ x y, left.grid.cell x y =
      if (x, y) ∈ lit then (world.grid.cell x y).lit else world.grid.cell x y) ∧
    left.lampsRemaining + (lit.filter fun place => world.grid.cell place.1 place.2 = .lampOff).card =
      world.lampsRemaining ∧
    world.Brighter left ∧
    (∀ first last, program.Visits verbose world first →
      Moment.Reaches program.functions first last →
      first.machine.world.Brighter last.machine.world) ∧
    ∀ session : Session, session.bot.world = world → ∀ actions,
      (∀ action ∈ actions, action.Spares world.grid) →
      world.Brighter (session.applyAll actions).1.bot.world := by
  intro left lit
  have litAt := program.run_litAt limit verbose valid
  have floor := (program.run_spans limit verbose valid.spans).valid.floor
  refine ⟨fun x y => mem_lightPlaces_iff, litAt.cell,
    litAt.count_lampOff_add_card valid.floor floor,
    World.brighter_of_litAt litAt valid.floor floor, ?_, ?_⟩
  · intro first last visited path
    exact path.brighter (visited.spans valid.spans).valid
  · rintro session rfl actions spares
    exact (Session.litFrom_applyAll (.refl valid) actions spares).brighter valid.floor

/-- A lamp at either end. -/
def gallery : World := ⟨⟨3, 1, [[.lampOff, .empty, .lampOff]]⟩, ⟨0, 0, .east⟩⟩

/-- Goes around the edge back to the lamp that it lit first, is stopped by the tile that it
lit next, and fails. -/
def lampRound : Program where
  file := "round"
  functions := ⟨[("F", ⟨"F", [], [.act .light "LIGHT" none, .act .forward "FORWARD" none], none⟩)]⟩
  statements := [.loop (.literal 5) [.call "F" [] none] none, .loop (.identifier "n") [] none]

theorem lights_fix_floor_of_gallery : gallery.Valid ∧
    let left := (lampRound.run 9 false gallery).machine.world
    let lit := lampRound.lightPlaces 9 gallery
    lit = {(0, 0), (1, 0), (2, 0)} ∧
    (∀ x y, left.grid.cell x y =
      if (x, y) ∈ lit then (gallery.grid.cell x y).lit else gallery.grid.cell x y) ∧
    left.lampsRemaining + (lit.filter fun place => gallery.grid.cell place.1 place.2 = .lampOff).card =
      gallery.lampsRemaining ∧
    gallery.Brighter left := by
  have valid : gallery.Valid :=
    ⟨⟨by decide, by decide, by decide, by decide⟩, by decide, by decide⟩
  obtain ⟨_, cells, fewer, brighter, _⟩ := lights_fix_floor lampRound 9 false gallery valid
  exact ⟨valid, by decide, cells, fewer, brighter⟩

end Lamplighter
