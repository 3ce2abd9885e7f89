import Lamplighter.Proofs.Json.ReadBack
import Lamplighter.Proofs.Report
import Lamplighter.Proofs.Run.Frames

/-! What a report in JSON tells.

Nothing of a fault is lost on the way: whoever reads the text and asks for the members by their
keys gets the fault, the robot, the calls with what they bind and where they stand, and the floor.
Main statement: `json_report_read_back`. -/

namespace Lamplighter

/-- The calls of a report are those that the fault holds. -/
theorem Bot.frames_traceback (bot : Bot) {fault : Fault} {frames : List Frame}
    (saved : fault.stack = some frames) : (bot.traceback fault).frames = frames := by
  rw [traceback, saved, Option.getD_some]

namespace Json

/-- The member with this key. -/
def get? (value : Json) (key : String) : Option Json :=
  match value with
  | object members => members.lookup key
  | _ => none

def asText? : Json → Option String
  | text value => some value
  | _ => none

def asInt? : Json → Option Int
  | number value => some value
  | _ => none

def asNat? : Json → Option Nat
  | number (.ofNat value) => some value
  | _ => none

def asItems? : Json → Option (List Json)
  | array items => some items
  | _ => none

def asMembers? : Json → Option (List (String × Json))
  | object members => some members
  | _ => none

/-- Null stands for no value. -/
def optional? {α : Type} (decode : Json → Option α) : Json → Option (Option α)
  | null => some none
  | value => (decode value).map some

end Json

namespace Traceback

/-- What a report tells of a call. -/
structure Call where
  name : String
  bindings : List (String × Int)
  place : Option Location
  deriving Repr, DecidableEq

/-- What a report tells. -/
structure Told where
  kind : String
  message : String
  rule : Option String
  step : Option Nat
  robot : Pose
  calls : List Call
  rows : List String
  deriving Repr, DecidableEq

def Call.ofFrame (frame : Frame) : Call :=
  ⟨frame.name, frame.scope.bindings.entries, frame.location⟩

/-- What there is to tell of a fault. -/
def told (traceback : Traceback) : Told where
  kind := traceback.fault.cause.kind
  message := traceback.fault.cause.message
  rule := traceback.fault.cause.rule
  step := traceback.fault.step
  robot := traceback.world.robot
  calls := traceback.frames.map .ofFrame
  rows := traceback.world.rows

/-- A call without a file is one without a place. -/
def placeOf? (frame : Json) : Option (Option Location) :=
  match frame.get? "file" with
  | none => some none
  | some file => do
    let file ← file.asText?
    let line ← frame.get? "line"
    let line ← line.asNat?
    let column ← frame.get? "column"
    let column ← column.asNat?
    let statement ← frame.get? "statement"
    let statement ← statement.asText?
    return some ⟨file, line, column, statement⟩

def bindingOf? (member : String × Json) : Option (String × Int) := do
  let value ← member.2.asInt?
  return (member.1, value)

def Call.ofJson? (frame : Json) : Option Call := do
  let name ← frame.get? "name"
  let name ← name.asText?
  let bindings ← frame.get? "bindings"
  let bindings ← bindings.asMembers?
  let bindings ← bindings.mapM bindingOf?
  let place ← placeOf? frame
  return ⟨name, bindings, place⟩

def directionOf? (name : String) : Option Direction :=
  Direction.all.find? fun direction => direction.name = name

def poseOf? (robot : Json) : Option Pose := do
  let x ← robot.get? "x"
  let x ← x.asNat?
  let y ← robot.get? "y"
  let y ← y.asNat?
  let direction ← robot.get? "direction"
  let direction ← direction.asText?
  let direction ← directionOf? direction
  return ⟨x, y, direction⟩

def Told.ofJson? (report : Json) : Option Told := do
  let error ← report.get? "error"
  let kind ← error.get? "type"
  let kind ← kind.asText?
  let message ← error.get? "message"
  let message ← message.asText?
  let rule ← error.get? "rule"
  let rule ← rule.optional? Json.asText?
  let step ← error.get? "step"
  let step ← step.optional? Json.asNat?
  let robot ← report.get? "robot"
  let robot ← poseOf? robot
  let frames ← report.get? "frames"
  let frames ← frames.asItems?
  let calls ← frames.mapM Call.ofJson?
  let rows ← report.get? "map"
  let rows ← rows.asItems?
  let rows ← rows.mapM Json.asText?
  return ⟨kind, message, rule, step, robot, calls, rows⟩

theorem mapM_map_eq_some {α β γ : Type} {encode : α → β} {decode : β → Option γ} {view : α → γ}
    (told : ∀ value, decode (encode value) = some (view value)) (values : List α) :
    (values.map encode).mapM decode = some (values.map view) := by
  induction values with
  | nil => rfl
  | cons value values ih =>
      rw [List.map_cons, List.mapM_cons, told, ih]
      rfl

theorem directionOf?_name (direction : Direction) :
    directionOf? direction.name = some direction := by
  cases direction <;> decide

theorem placeOf?_frameJson (frame : Frame) : placeOf? (frameJson frame) = some frame.location := by
  rcases frame with ⟨name, scope, callSite, last⟩
  rw [frameJson]
  cases place : Frame.location ⟨name, scope, callSite, last⟩ with
  | none => rfl
  | some location => rfl

theorem Call.ofJson?_frameJson (frame : Frame) :
    Call.ofJson? (frameJson frame) = some (.ofFrame frame) := by
  have binding (entry : String × Int) :
      bindingOf? (entry.1, .number entry.2) = some (id entry) := rfl
  have bound := mapM_map_eq_some binding frame.scope.bindings.entries
  rw [List.map_id] at bound
  have parts : Call.ofJson? (frameJson frame) =
      ((frame.scope.bindings.entries.map fun entry => (entry.1, Json.number entry.2)).mapM
        bindingOf?).bind fun bindings => (placeOf? (frameJson frame)).bind fun place =>
          some ⟨frame.name, bindings, place⟩ := rfl
  rw [parts, bound, placeOf?_frameJson]
  rfl

theorem optional?_text (value : Option String) :
    (Json.ofOption .text value).optional? Json.asText? = some value := by
  cases value <;> rfl

theorem optional?_nat (value : Option Nat) :
    (Json.ofOption .nat value).optional? Json.asNat? = some value := by
  cases value <;> rfl

theorem poseOf?_robot (pose : Pose) :
    poseOf? (.object [("x", .nat pose.x), ("y", .nat pose.y),
      ("direction", .text pose.direction.name)]) = some pose := by
  have parts : poseOf? (.object [("x", .nat pose.x), ("y", .nat pose.y),
      ("direction", .text pose.direction.name)]) =
        (directionOf? pose.direction.name).bind fun direction =>
          some ⟨pose.x, pose.y, direction⟩ := rfl
  rw [parts, directionOf?_name]
  rfl

theorem Told.ofJson?_toJson (traceback : Traceback) :
    Told.ofJson? traceback.toJson = some traceback.told := by
  have calls := mapM_map_eq_some Call.ofJson?_frameJson traceback.frames
  have row (value : String) : (Json.text value).asText? = some (id value) := rfl
  have rows := mapM_map_eq_some row traceback.world.rows
  rw [List.map_id] at rows
  simp [Told.ofJson?, toJson, told, Json.get?, List.lookup_cons, Json.asText?, Json.asItems?,
    optional?_text, optional?_nat, poseOf?_robot, calls, rows]

theorem distinct_ofOption {α : Type} {encode : α → Json} (each : ∀ value, (encode value).Distinct)
    (value : Option α) : (Json.ofOption encode value).Distinct := by
  cases value with
  | none => exact .null
  | some value => exact each value

theorem distinct_frameJson {frame : Frame} (keyed : frame.scope.bindings.keys.Nodup) :
    (frameJson frame).Distinct := by
  have bindings : (Json.object (frame.scope.bindings.entries.map fun entry =>
      (entry.1, .number entry.2))).Distinct := by
    refine .object ?_ ?_
    · rw [List.map_map]
      exact keyed
    · intro member among
      rcases List.mem_map.mp among with ⟨entry, _, rfl⟩
      exact .number entry.2
  rw [frameJson]
  cases frame.location with
  | none =>
      refine .object (by simp) ?_
      simp only [List.append_nil, List.forall_mem_cons]
      exact ⟨.text _, bindings, List.forall_mem_nil _⟩
  | some location =>
      refine .object (by simp) ?_
      simp only [List.cons_append, List.nil_append, List.forall_mem_cons]
      exact ⟨.text _, bindings, .text _, .number _, .number _, .text _, List.forall_mem_nil _⟩

/-- No two members of a report have one key, as no call binds a name twice. -/
theorem distinct_toJson {traceback : Traceback}
    (keyed : ∀ frame ∈ traceback.frames, frame.scope.bindings.keys.Nodup) :
    traceback.toJson.Distinct := by
  have error : (Json.object [("type", .text traceback.fault.cause.kind),
      ("message", .text traceback.fault.cause.message),
      ("rule", .ofOption .text traceback.fault.cause.rule),
      ("step", .ofOption .nat traceback.fault.step)]).Distinct := by
    refine .object (by simp) ?_
    simp only [List.forall_mem_cons]
    exact ⟨.text _, .text _, distinct_ofOption .text _, distinct_ofOption (fun _ => .number _) _,
      List.forall_mem_nil _⟩
  have robot : (Json.object [("x", .nat traceback.world.robot.x),
      ("y", .nat traceback.world.robot.y),
      ("direction", .text traceback.world.robot.direction.name)]).Distinct := by
    refine .object (by simp) ?_
    simp only [List.forall_mem_cons]
    exact ⟨.number _, .number _, .text _, List.forall_mem_nil _⟩
  have frames : (Json.array (traceback.frames.map frameJson)).Distinct := by
    refine .array ?_
    intro item member
    rcases List.mem_map.mp member with ⟨frame, among, rfl⟩
    exact distinct_frameJson (keyed frame among)
  have rows : (Json.array (traceback.world.rows.map .text)).Distinct := by
    refine .array ?_
    intro item member
    rcases List.mem_map.mp member with ⟨row, _, rfl⟩
    exact .text row
  refine .object (by simp) ?_
  simp only [List.forall_mem_cons]
  exact ⟨error, robot, frames, rows, List.forall_mem_nil _⟩

theorem read_json {traceback : Traceback}
    (keyed : ∀ frame ∈ traceback.frames, frame.scope.bindings.keys.Nodup) :
    Json.read? traceback.json = some traceback.toJson :=
  Json.read?_write (distinct_toJson keyed)

end Traceback

/-- The fault ends the run of a program, read from a text or built by hand, or is raised while no
call is active. -/
inductive Fault.Arises (bot : Bot) : Fault → Prop where
  | run {program : Program} {limit : Nat} {verbose : Bool} {world : World} {fault : Fault}
      (failed : (program.run limit verbose world).status = .failed fault) : Arises bot fault
  | raised (cause : Cause) (location : Option Location) (idle : bot.stack = []) :
      Arises bot ⟨cause, location, none, none⟩

theorem Fault.Arises.nodup_keys {bot : Bot} {fault : Fault} (arises : fault.Arises bot) :
    ∀ frame ∈ (bot.traceback fault).frames, frame.scope.bindings.keys.Nodup := by
  cases arises with
  | @run program limit verbose world fault failed =>
      rcases program.run_visits limit verbose world with ⟨last, visited, ends, _⟩
      rw [failed] at ends
      rw [bot.frames_traceback ends.stack_eq]
      exact fun frame active => visited.nodup_keys frame (List.mem_reverse.mp active)
  | raised cause location idle =>
      have frames : (bot.traceback ⟨cause, location, none, none⟩).frames = [] := by
        rw [Bot.traceback, Option.getD_none, idle, List.reverse_nil]
      rw [frames]
      exact fun frame active => absurd active List.not_mem_nil

/-- A fault that a run of any program ended with, or that was raised outside a run: its report in
JSON is printable ASCII and line feeds, and is read as just the value that was written. Its members
tell the fault, the robot, the calls, each with all that it binds in order and with its place if it
has one, and the rows of the floor. It can be made if the numbers that come up in it can be written;
none of the texts, whatever they hold, is in its way. What is made is this report. -/
theorem json_report_read_back (bot : Bot) (fault : Fault) (arises : fault.Arises bot) :
    let report := bot.traceback fault
    Json.Plain report.json.toList ∧
    Json.read? report.json = some report.toJson ∧
    (Json.read? report.json).bind Traceback.Told.ofJson? =
      some { kind := fault.cause.kind
             message := fault.cause.message
             rule := fault.cause.rule
             step := fault.step
             robot := bot.world.robot
             calls := (fault.stack.getD bot.stack.reverse).map fun frame =>
               ⟨frame.name, frame.scope.bindings.entries, frame.location⟩
             rows := bot.world.rows } ∧
    (report.Countable → (∀ frame ∈ report.frames, Traceback.Bound frame) →
      report.json? = some report.json) ∧
    ∀ json, report.json? = some json → json = report.json := by
  intro report
  have read : Json.read? report.json = some report.toJson := Traceback.read_json arises.nodup_keys
  refine ⟨Json.plain_write report.toJson, read, ?_, fun countable => countable.json?_eq_some,
    fun _ made => (Traceback.json?_eq_some_iff.mp made).2.symm⟩
  rw [read, Option.bind_some]
  exact Traceback.Told.ofJson?_toJson report

/-- Names and statements with quotes, backslashes, control characters and characters of every
width, a call without a place, and a value below zero. -/
def thornyProgram : Program :=
  let place : Location := ⟨"a\"b\\c\x07", 3, 2, "CALL \x7f\u2028"⟩
  ⟨"thorny",
    ⟨[("F", ⟨"F\u00e9😀", ["\t", "\"\uffff"], [.loop (.identifier "😀\\u0041") [] none], none⟩)]⟩,
    [.call "F" [.literal (-12), .literal 0] (some place)]⟩

theorem json_report_read_back_of_thorny :
    ∃ fault, (thornyProgram.run 9 true tile).status = .failed fault ∧
      let report := ((Bot.ofWorld tile true 9).execTree thornyProgram).1.traceback fault
      Json.Plain report.json.toList ∧
      Json.read? report.json = some report.toJson ∧
      (Json.read? report.json).bind Traceback.Told.ofJson? =
        some { kind := "UnresolvedReference"
               message := "Unresolved reference '😀\\u0041'"
               rule := some "EVAL"
               step := some 1
               robot := ⟨0, 0, .east⟩
               calls :=
                 [⟨"<top-level>", [], some ⟨"a\"b\\c\x07", 3, 2, "CALL \x7f\u2028"⟩⟩,
                   ⟨"F\u00e9😀", [("\t", -12), ("\"\uffff", 0)], none⟩]
               rows := ["."] } ∧
      report.json? = some report.json := by
  rcases json_report_read_back ((Bot.ofWorld tile true 9).execTree thornyProgram).1 _
    (.run (by rfl : (thornyProgram.run 9 true tile).status = _)) with
      ⟨plain, read, told, written, _⟩
  refine ⟨_, rfl, plain, read, told, written ⟨?_, by decide, by decide, ?_⟩ ?_⟩
  · intro frame active location place
    rcases List.mem_cons.mp active with rfl | active
    · cases place
      decide
    · rw [List.mem_singleton.mp active] at place
      cases place
  · intro step same
    cases same
    decide
  · intro frame active
    rcases List.mem_cons.mp active with rfl | active
    · exact List.forall_mem_nil _
    · rw [List.mem_singleton.mp active]
      exact List.forall_mem_cons.mpr ⟨by decide, List.forall_mem_singleton.mpr (by decide)⟩

end Lamplighter
