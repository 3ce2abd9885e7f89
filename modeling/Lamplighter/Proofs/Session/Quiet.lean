import Lamplighter.Proofs.Run.Agreement
import Lamplighter.Proofs.Run.Verbosity
import Lamplighter.Proofs.Session.Deeds
import Lamplighter.Proofs.Session.History

/-! Quiet sessions and verbose ones.

A quiet session is a verbose one that has forgotten the steps it kept, and no action
brings the two apart. Main statement: `verbosity_only_records`. -/

namespace Lamplighter

namespace Log

/-- The quiet log of the same run. -/
def forget (log : Log) : Log := { log with verbose := false, steps := #[] }

/-- A quiet log holds no step, and a verbose one all that were counted, up to the last. -/
structure Kept (log : Log) (verbose : Bool) : Prop where
  flag : log.verbose = verbose
  nothing : verbose = false → log.steps = #[]
  all : verbose = true → log.steps.size = log.count ∧ log.steps.back? = log.last

theorem kept_start (verbose : Bool) : (start verbose).Kept verbose :=
  ⟨rfl, fun _ => rfl, fun _ => ⟨rfl, rfl⟩⟩

theorem Kept.add {log : Log} {verbose : Bool} (kept : log.Kept verbose) (step : Step) :
    (log.add step).Kept verbose where
  flag := kept.flag
  nothing := by
    rintro rfl
    simp only [Log.add, kept.flag, kept.nothing rfl, Bool.false_eq_true, if_false]
  all := by
    rintro rfl
    have size := (kept.all rfl).1
    simp only [Log.add, kept.flag, if_true, Array.size_push, size, Array.back?_push]
    exact ⟨trivial, trivial⟩

theorem Tallies.eq_forget {quiet log : Log} (tallies : quiet.Tallies log)
    (kept : quiet.Kept false) : quiet = log.forget := by
  obtain ⟨verbose, steps, count, last⟩ := quiet
  obtain ⟨sameCount, sameLast⟩ := tallies
  obtain ⟨rfl, empty, _⟩ := kept
  cases empty rfl
  cases sameCount
  cases sameLast
  rfl

end Log

def Outcome.forget (outcome : Outcome) : Outcome :=
  { outcome with machine := { outcome.machine with log := outcome.machine.log.forget } }

theorem Status.Alike.eq {one two : Status} (alike : Alike Eq one two) : one = two := by
  cases alike with
  | finished | tooDeep => rfl
  | failed faulty => rw [faulty]

namespace Program

variable {program : Program} {verbose : Bool} {world : World}

theorem Visits.kept {moment : Moment} (visited : program.Visits verbose world moment) :
    moment.machine.log.Kept verbose := by
  refine visited.invariant (fun moment => moment.machine.log.Kept verbose)
    (Log.kept_start verbose) ?_
  intro before after _ move kept
  cases move with
  | log => exact kept.add _
  | act | loop | again | through | skip | enter | leave => exact kept

theorem run_kept (program : Program) (limit : Nat) (verbose : Bool) (world : World) :
    (program.run limit verbose world).machine.log.Kept verbose := by
  obtain ⟨last, visited, _, _, logs, _⟩ := program.run_visits limit verbose world
  rw [← logs]
  exact visited.kept

/-- A quiet run is any other run of the program on that world, less the steps it kept. -/
theorem run_quiet (program : Program) (limit : Nat) (verbose : Bool) (world : World) :
    program.run limit false world = (program.run limit verbose world).forget := by
  obtain ⟨⟨worlds, frames, logs⟩, alike⟩ := program.run_verbosity limit false verbose world
  have kept := program.run_kept limit false world
  generalize program.run limit false world = quiet at *
  obtain ⟨⟨_, _, _⟩, _⟩ := quiet
  cases worlds
  cases frames
  cases logs.eq_forget kept
  cases alike.eq
  rfl

end Program

namespace Bot

def forget (bot : Bot) : Bot := { bot with verbose := false, log := bot.log.forget }

variable {bot : Bot}

theorem forget_execTree (bot : Bot) (program : Program) :
    bot.forget.execTree program =
      ((bot.execTree program).1.forget, (bot.execTree program).2) := by
  simp only [execTree, forget, program.run_quiet bot.limit bot.verbose]
  rfl

theorem forget_exec (bot : Bot) (source : Text.Source) (file : String) :
    bot.forget.exec source file =
      ((bot.exec source file).1.forget, (bot.exec source file).2) := by
  cases read : Program.parse source file with
  | error error => simp only [exec, read]
  | ok program => simp only [exec, read, forget_execTree]

theorem forget_run (bot : Bot) (source : Text.Source) (file : String) :
    bot.forget.run source file = ((bot.run source file).1.forget, (bot.run source file).2) :=
  forget_exec bot.reset source file

end Bot

namespace Session

def forget (session : Session) : Session := { session with bot := session.bot.forget }

/-- A quiet session answers the question for its log with an empty one. -/
def Answer.forget : Answer → Answer
  | .log _ => .log []
  | answer => answer

theorem forget_settle (session : Session) (bot : Bot) (status : Status) :
    session.forget.settle bot.forget status =
      ((session.settle bot status).1.forget, (session.settle bot status).2.forget) := by
  cases status <;> rfl

theorem forget_settleParsed (session : Session) (bot : Bot) (status : Except ParseError Status) :
    session.forget.settleParsed (bot.forget, status) =
      ((session.settleParsed (bot, status)).1.forget,
        (session.settleParsed (bot, status)).2.forget) := by
  cases status with
  | error => rfl
  | ok status => exact forget_settle session bot status

/-- A report does not show the steps that are kept. -/
theorem report_forget (session : Session) (write : Traceback → Option String) :
    session.forget.report write = (session.report write).forget := by
  have same (fault : Fault) :
      session.forget.bot.traceback fault = session.bot.traceback fault := rfl
  have last : session.forget.fault = session.fault := rfl
  rw [report, report, last]
  cases session.fault with
  | none => rfl
  | some fault =>
      cases made : write (session.bot.traceback fault) <;> simp only [same, made] <;> rfl

theorem forget_apply (session : Session) (action : Action) :
    session.forget.apply action =
      ((session.apply action).1.forget, (session.apply action).2.forget) := by
  cases action with
  | run source file =>
      have ran := session.bot.forget_run source file
      exact (congrArg session.forget.settleParsed ran).trans (forget_settleParsed ..)
  | exec source file =>
      have ran := session.bot.forget_exec source file
      exact (congrArg session.forget.settleParsed ran).trans (forget_settleParsed ..)
  | execTree program =>
      have ran := session.bot.forget_execTree program
      have settled := forget_settle session (session.bot.execTree program).1
        (session.bot.execTree program).2
      simp only [apply, forget] at ran settled ⊢
      rw [ran, settled]
  | setCell x y cell =>
      simp only [apply, forget, Bot.forget]
      cases session.bot.world.grid.setCell x y cell <;> rfl
  | cellAt x y =>
      simp only [apply, forget, Bot.forget]
      cases session.bot.world.grid.cellAt x y <;> rfl
  | traceback verbose =>
      exact congrArg (Prod.mk session.forget)
        (session.report_forget fun traceback => traceback.text? verbose)
  | tracebackJson => exact congrArg (Prod.mk session.forget) (session.report_forget Traceback.json?)
  | reset | resetGrid | turnLeft | turnRight | moveTo | raise | functions | lastStep | log | ahead
  | wrap | count => rfl

theorem forget_applyAll (session : Session) (actions : List Action) :
    session.forget.applyAll actions =
      ((session.applyAll actions).1.forget, (session.applyAll actions).2.map Answer.forget) := by
  induction actions generalizing session with
  | nil => rfl
  | cons action actions ih =>
      simp only [applyAll, forget_apply, ih, List.map_cons]

theorem forget_ofMap (map : Text.Source) (verbose : Bool) (limit : Nat) :
    ofMap map false limit = (ofMap map verbose limit).map forget := by
  cases read : Map.read map <;> simp only [ofMap, Bot.ofMap, read] <;> rfl

variable {session : Session}

theorem Action.Does.kept {bot after : Bot} {action : Action} (does : action.Does bot after)
    (kept : bot.log.Kept bot.verbose) : after.log.Kept after.verbose := by
  cases does with
  | tree | exec | run => exact Program.run_kept ..
  | nothing | unread | reset | resetGrid | turnLeft | turnRight | moveTo | setCell => exact kept

theorem kept_applyAll (kept : session.bot.log.Kept session.bot.verbose) (actions : List Action) :
    (session.applyAll actions).1.bot.log.Kept (session.applyAll actions).1.bot.verbose :=
  applyAll_keeps (fun bot => bot.log.Kept bot.verbose)
    (fun _ _ _ (_ : True) does kept => does.kept kept) kept actions fun _ _ => trivial

theorem kept_ofMap {map : Text.Source} {verbose : Bool} {limit : Nat}
    (opened : ofMap map verbose limit = .ok session) (actions : List Action) :
    (session.applyAll actions).1.bot.log.Kept verbose := by
  have fresh : session.bot.log.Kept session.bot.verbose := by
    simp only [ofMap, Bot.ofMap, bind_eq_ok] at opened
    obtain ⟨bot, ⟨start, _, opened⟩, result⟩ := opened
    cases opened
    cases result
    exact Log.kept_start verbose
  obtain ⟨start, _, setting⟩ := openedOn_ofMap opened
  have kept := kept_applyAll fresh actions
  rwa [(openedOn_applyAll setting actions).verbose] at kept

end Session

/-- A map opens a quiet session and a verbose one, or neither. After any actions the
quiet session has given the same answers as the verbose one, but for the logs, and is the
verbose one without the steps it kept: in all else they agree, from the world to the last
fault. Its own log is empty, and the verbose one holds as many steps as were counted, and
the last of them last. -/
theorem verbosity_only_records (map : Text.Source) (limit : Nat) :
    Session.ofMap map false limit = (Session.ofMap map true limit).map Session.forget ∧
    ∀ quiet loud, Session.ofMap map false limit = .ok quiet →
      Session.ofMap map true limit = .ok loud → ∀ actions,
        (quiet.applyAll actions).2 = (loud.applyAll actions).2.map Session.Answer.forget ∧
        (quiet.applyAll actions).1 = (loud.applyAll actions).1.forget ∧
        (quiet.applyAll actions).1.bot.log.steps = #[] ∧
        let log := (loud.applyAll actions).1.bot.log
        log.steps.size = log.count ∧ log.steps.back? = log.last := by
  have both := Session.forget_ofMap map true limit
  refine ⟨both, ?_⟩
  intro quiet loud still opened actions
  have kept := Session.kept_ofMap opened actions
  have empty := Session.kept_ofMap still actions
  rw [opened, still] at both
  cases both
  have same := loud.forget_applyAll actions
  exact ⟨congrArg Prod.snd same, congrArg Prod.fst same, empty.nothing rfl, kept.all rfl⟩

/-- A lamp two steps ahead. -/
def hall : Text.Source := .pieces ["R.O"]

def hallSession (verbose : Bool) : Session :=
  ⟨.ofWorld ⟨⟨3, 1, [[.empty, .empty, .lampOff]]⟩, ⟨0, 0, .east⟩⟩ verbose 9, none⟩

/-- A run that fails inside a call, and one that goes on from there; questions for the log
after each of them. -/
def hallHistory : List Session.Action :=
  [.log, .run (.pieces ["FUNCTION F(a)", "REPEAT b", "ENDFUNCTION", "FORWARD", "CALL F(1)"]) "hall",
    .log, .traceback true, .exec (.pieces ["REPEAT 2", "FORWARD", "LIGHT"]) "hall", .log, .lastStep]

theorem verbosity_only_records_of_hall :
    Session.ofMap hall false 9 = .ok (hallSession false) ∧
    Session.ofMap hall true 9 = .ok (hallSession true) ∧
    ((hallSession true).applyAll hallHistory).1.bot.log.count = 5 ∧
    ((hallSession false).applyAll hallHistory).2 =
      ((hallSession true).applyAll hallHistory).2.map Session.Answer.forget ∧
    ((hallSession false).applyAll hallHistory).1 =
      ((hallSession true).applyAll hallHistory).1.forget ∧
    ((hallSession false).applyAll hallHistory).1.bot.log.steps = #[] ∧
    ((hallSession true).applyAll hallHistory).1.bot.log.steps.size = 5 := by
  have still : Session.ofMap hall false 9 = .ok (hallSession false) := by rfl
  have opened : Session.ofMap hall true 9 = .ok (hallSession true) := by rfl
  have counted : ((hallSession true).applyAll hallHistory).1.bot.log.count = 5 := by decide +kernel
  obtain ⟨_, sessions⟩ := verbosity_only_records hall 9
  obtain ⟨answers, same, empty, size, _⟩ := sessions _ _ still opened hallHistory
  exact ⟨still, opened, counted, answers, same, empty, size.trans counted⟩

end Lamplighter
