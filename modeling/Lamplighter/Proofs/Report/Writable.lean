import Lamplighter.Proofs.Text.Decimal
import Lamplighter.Traceback

/-! Which reports can be made.

An integer of too many digits has no text. A report can be made just if each number that it shows
has one, and then it reads as if there was no such limit. Main statements:
`Traceback.text?_eq_some_iff`, `Traceback.json?_eq_some_iff` and `Traceback.mem_numbers_toJson`. -/

namespace Lamplighter

namespace Text

/-- The first number of more digits than these. -/
def beyond (count : Nat) : Nat := Nat.pow 10 count

theorem length_digits_le_iff {n count : Nat} (positive : 0 < count) :
    (digits n).length ≤ count ↔ n < beyond count :=
  Nat.length_toDigits_le_iff (by decide) positive

theorem convertible_iff {value : Int} : Convertible value ↔ value.natAbs < beyond maxDigits :=
  length_digits_le_iff (by decide)

theorem decimal?_eq_some_iff {value : Int} {text : String} :
    decimal? value = some text ↔ Convertible value ∧ toString value = text := by
  rw [decimal?, Option.ite_none_right_eq_some, Option.some_inj]

end Text

namespace Json

theorem mem_itemNumbers {number : Int} {items : List Json} :
    number ∈ itemNumbers items ↔ ∃ item ∈ items, number ∈ item.numbers := by
  induction items with
  | nil => simp [itemNumbers]
  | cons item items ih => simp [itemNumbers, ih]

theorem mem_memberNumbers {number : Int} {members : List (String × Json)} :
    number ∈ memberNumbers members ↔ ∃ member ∈ members, number ∈ member.2.numbers := by
  induction members with
  | nil => simp [memberNumbers]
  | cons member members ih => simp [memberNumbers, ih]

theorem mem_numbers_ofOption {α : Type} {encode : α → Json} {value : Option α} {number : Int} :
    number ∈ (ofOption encode value).numbers ↔
      ∃ inner, value = some inner ∧ number ∈ (encode inner).numbers := by
  cases value <;> simp [ofOption, numbers]

theorem write?_eq_some_iff {value : Json} {text : String} :
    value.write? = some text ↔
      (∀ number ∈ value.numbers, Text.Convertible number) ∧ value.write = text := by
  rw [write?, Option.ite_none_right_eq_some, Option.some_inj]

end Json

namespace Traceback

/-- The values that the frame binds have texts. -/
def Bound (frame : Frame) : Prop :=
  ∀ entry ∈ frame.scope.bindings.entries, Text.Convertible entry.2

/-- Each number that is shown as text has one. -/
structure Writable (traceback : Traceback) : Prop where
  frames : ∀ frame ∈ traceback.frames, Bound frame ∧
    ∀ location, frame.location = some location → Text.Convertible location.line
  robot : Text.Convertible traceback.world.robot.x ∧ Text.Convertible traceback.world.robot.y
  steps : Text.Convertible traceback.steps

/-- A list is written if each of its members fits. -/
theorem mapM_eq_some_iff {α β : Type} {checked : α → Option β} {plain : α → β} {Fits : α → Prop}
    (each : ∀ value result, checked value = some result ↔ Fits value ∧ plain value = result)
    (values : List α) (results : List β) :
    values.mapM checked = some results ↔
      (∀ value ∈ values, Fits value) ∧ values.map plain = results := by
  induction values generalizing results with
  | nil => simp
  | cons value values ih =>
      simp only [List.mapM_cons, Option.bind_eq_bind, Option.bind_eq_some_iff, Option.pure_def,
        Option.some_inj, each, ih, List.forall_mem_cons, List.map_cons]
      constructor
      · rintro ⟨_, ⟨fits, rfl⟩, _, ⟨others, rfl⟩, rfl⟩
        exact ⟨⟨fits, others⟩, rfl⟩
      · rintro ⟨⟨fits, others⟩, rfl⟩
        exact ⟨_, ⟨fits, rfl⟩, _, ⟨others, rfl⟩, rfl⟩

theorem binding?_eq_some_iff (binding : String × Int) (text : String) :
    binding? binding = some text ↔
      Text.Convertible binding.2 ∧ binding.1 ++ "=" ++ toString binding.2 = text := by
  simp only [binding?, Option.bind_eq_bind, Option.bind_eq_some_iff, Option.pure_def,
    Option.some_inj, Text.decimal?_eq_some_iff, and_assoc, exists_and_left, exists_eq_left']

theorem signature?_eq_some_iff {frame : Frame} {text : String} :
    signature? frame = some text ↔ Bound frame ∧ signature frame = text := by
  rw [signature?, signature, Bound]
  cases frame.scope.bindings.entries with
  | nil => simp
  | cons entry rest =>
      have bindings := mapM_eq_some_iff binding?_eq_some_iff (entry :: rest)
      simp only [Option.bind_eq_bind, Option.bind_eq_some_iff, Option.pure_def, Option.some_inj,
        bindings, and_assoc, exists_and_left, exists_eq_left']

theorem frameLines?_eq_some_iff (frame : Frame) (lines : List String) :
    frameLines? frame = some lines ↔
      (Bound frame ∧ ∀ location, frame.location = some location →
        Text.Convertible location.line) ∧ frameLines frame = lines := by
  rw [frameLines?, frameLines]
  cases frame.location with
  | none => simp [Option.bind_eq_some_iff, signature?_eq_some_iff, and_assoc]
  | some location =>
      simp only [Option.bind_eq_bind, Option.bind_eq_some_iff, Option.pure_def, Option.some_inj,
        signature?_eq_some_iff, Text.decimal?_eq_some_iff, and_assoc, exists_and_left,
        exists_eq_left', forall_eq']
      rfl

variable {traceback : Traceback}

theorem robotLine?_eq_some_iff {line : String} :
    traceback.robotLine? = some line ↔
      ((Text.Convertible traceback.world.robot.x ∧ Text.Convertible traceback.world.robot.y) ∧
        Text.Convertible traceback.steps) ∧ traceback.robotLine = line := by
  simp only [robotLine?, Option.bind_eq_bind, Option.bind_eq_some_iff, Option.pure_def,
    Option.some_inj, Text.decimal?_eq_some_iff, and_assoc, exists_and_left, exists_eq_left']
  rfl

theorem lines?_eq_some_iff {verbose : Bool} {lines : List String} :
    traceback.lines? verbose = some lines ↔
      traceback.Writable ∧ traceback.lines verbose = lines := by
  have frames := mapM_eq_some_iff frameLines?_eq_some_iff traceback.frames
  simp only [lines?, Option.bind_eq_bind, Option.bind_eq_some_iff, Option.pure_def,
    Option.some_inj, frames, robotLine?_eq_some_iff]
  constructor
  · rintro ⟨_, ⟨fits, rfl⟩, _, ⟨⟨robot, steps⟩, rfl⟩, written⟩
    exact ⟨⟨fits, robot, steps⟩, written⟩
  · rintro ⟨⟨fits, robot, steps⟩, written⟩
    exact ⟨_, ⟨fits, rfl⟩, _, ⟨⟨robot, steps⟩, rfl⟩, written⟩

/-- The report as text is that without a limit, if it can be made. -/
theorem text?_eq_some_iff {verbose : Bool} {text : String} :
    traceback.text? verbose = some text ↔
      traceback.Writable ∧ traceback.text verbose = text := by
  simp only [text?, Traceback.text, Option.map_eq_some_iff, lines?_eq_some_iff, and_assoc,
    exists_and_left, exists_eq_left']

/-- The numbers of a frame are its values and those of its place. -/
theorem mem_numbers_frameJson {frame : Frame} {number : Int} :
    number ∈ (frameJson frame).numbers ↔
      (∃ entry ∈ frame.scope.bindings.entries, number = entry.2) ∨
        ∃ location, frame.location = some location ∧
          (number = location.line ∨ number = location.column) := by
  have bindings : number ∈ (Json.object (frame.scope.bindings.entries.map
      fun entry => (entry.1, Json.number entry.2))).numbers ↔
        ∃ entry ∈ frame.scope.bindings.entries, number = entry.2 := by
    simp [Json.numbers, Json.mem_memberNumbers]
  rw [frameJson, ← bindings]
  cases frame.location with
  | none => simp [Json.numbers, Json.memberNumbers]
  | some location => simp [Json.numbers, Json.memberNumbers, Json.nat]

/-- The numbers of the JSON report: the step of the fault, the place of the robot, and those of
the calls. -/
theorem mem_numbers_toJson {number : Int} :
    number ∈ traceback.toJson.numbers ↔
      (∃ step, traceback.fault.step = some step ∧ number = step) ∨
      (number = traceback.world.robot.x ∨ number = traceback.world.robot.y) ∨
      ∃ frame ∈ traceback.frames, number ∈ (frameJson frame).numbers := by
  rcases traceback with ⟨⟨cause, location, step, stack⟩, frames, ⟨grid, ⟨x, y, direction⟩⟩, steps⟩
  have rule : number ∉ (Json.ofOption .text cause.rule).numbers := by
    simp [Json.mem_numbers_ofOption, Json.numbers]
  have rows : number ∉ Json.itemNumbers ((World.rows ⟨grid, ⟨x, y, direction⟩⟩).map .text) := by
    simp [Json.mem_itemNumbers, Json.numbers]
  simp [toJson, Json.numbers, Json.memberNumbers, Json.nat, rule, rows, or_assoc,
    Json.mem_numbers_ofOption, Json.mem_itemNumbers]

theorem json?_eq_some_iff {text : String} :
    traceback.json? = some text ↔
      (∀ number ∈ traceback.toJson.numbers, Text.Convertible number) ∧ traceback.json = text :=
  Json.write?_eq_some_iff

end Traceback
end Lamplighter
