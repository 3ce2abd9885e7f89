import Lamplighter.Json.Writer
import Lamplighter.Proofs.Json.Reader
import Lamplighter.Proofs.Text.Decimal

/-! Strings and numbers written as JSON and read back.

A character of a string stands for itself or is escaped, by a short escape, as one unit or as a
surrogate pair; the reader gives the character back. A number is read up to what cannot belong to
it. Main statements: `Json.scalar?_quoted`, `Json.scalar?_toString` and `Json.plain_quoted`. -/

namespace Lamplighter.Json

section Strings

theorem hexValue?_hexDigit : ∀ n < 16, hexValue? (Text.hexDigit n) = some n := by decide

theorem unit?_hex {n : Nat} (small : n < 0x10000) (rest : List Char) :
    unit? (Text.hex 4 n ++ rest) = some (n, rest) := by
  have digits : Text.hex 4 n = [Text.hexDigit (n / 16 / 16 / 16 % 16),
      Text.hexDigit (n / 16 / 16 % 16), Text.hexDigit (n / 16 % 16), Text.hexDigit (n % 16)] := rfl
  have whole : ((n / 16 / 16 / 16 % 16 * 16 + n / 16 / 16 % 16) * 16 + n / 16 % 16) * 16 + n % 16 =
      n := by omega
  have digit (m : Nat) := hexValue?_hexDigit (m % 16) (Nat.mod_lt m (by decide))
  rw [digits]
  simp only [List.cons_append, List.nil_append, unit?, digit, Option.bind_eq_bind,
    Option.bind_some, whole, Option.pure_def]

theorem char?_unit {n : Nat} (small : n < 0x10000) (rest : List Char) :
    char? (unit n ++ rest) = ofUnit? n rest := by
  have read := unit?_hex small rest
  simp only [unit, List.cons_append, char?, escaped?, if_true, read, Option.bind_eq_bind,
    Option.bind_some]

theorem ofUnit?_alone {n : Nat} (alone : n < 0xD800 ∨ 0xDFFF < n) (rest : List Char) :
    ofUnit? n rest = some (Char.ofNat n, rest) := by
  unfold ofUnit?
  exact if_pos alone

theorem ofUnit?_pair {m : Nat} (small : m < 0x100000) (rest : List Char) :
    ofUnit? (0xD800 + m / 0x400) (unit (0xDC00 + m % 0x400) ++ rest) =
      some (Char.ofNat (0x10000 + m), rest) := by
  have high : 0xD800 + m / 0x400 < 0xDC00 := by omega
  have paired : ¬ (0xD800 + m / 0x400 < 0xD800 ∨ 0xDFFF < 0xD800 + m / 0x400) := by omega
  have low : 0xDC00 + m % 0x400 ≤ 0xDFFF := by omega
  have whole : 0x10000 + (0xD800 + m / 0x400 - 0xD800) * 0x400 + (0xDC00 + m % 0x400 - 0xDC00) =
      0x10000 + m := by omega
  have second : 0xDC00 + m % 0x400 < 0x10000 := by omega
  have read := unit?_hex second rest
  simp only [ofUnit?, if_neg paired, unit, List.cons_append, read, Option.bind_eq_bind,
    Option.bind_some, if_pos (And.intro high (And.intro (Nat.le_add_right ..) low)), whole]

/-- No character is half of a pair. -/
theorem not_surrogate (c : Char) :
    c.toNat < 0xD800 ∨ 0xDFFF < c.toNat ∧ c.toNat < 0x110000 := c.valid

theorem char?_escape (c : Char) (rest : List Char) :
    char? (escape c ++ rest) = some (c, rest) := by
  have valid := not_surrogate c
  unfold escape
  split
  case h_8 quote backslash _ _ _ _ _ =>
    dsimp only
    split
    case isTrue printable =>
      have plain : ¬ (c = '"' ∨ c.toNat < 0x20) := not_or.mpr ⟨quote, Nat.not_lt.mpr printable.1⟩
      rw [List.singleton_append, char?, if_neg backslash, if_neg plain]
    case isFalse =>
      split
      case isTrue small =>
        have alone : c.toNat < 0xD800 ∨ 0xDFFF < c.toNat := valid.imp_right And.left
        rw [char?_unit small, ofUnit?_alone alone, Char.ofNat_toNat]
      case isFalse large =>
        have first : 0xD800 + (c.toNat - 0x10000) / 0x400 < 0x10000 := by omega
        have inside : c.toNat - 0x10000 < 0x100000 := by omega
        have whole : 0x10000 + (c.toNat - 0x10000) = c.toNat := by omega
        rw [List.append_assoc, char?_unit first, ofUnit?_pair inside, whole, Char.ofNat_toNat]
  all_goals rfl

/-- The first character of an escape is no quote. -/
theorem escape_head (c : Char) : ∃ first more, escape c = first :: more ∧ first ≠ '"' := by
  unfold escape
  split
  case h_8 quote _ _ _ _ _ _ =>
    dsimp only
    split
    · exact ⟨c, [], rfl, quote⟩
    · split
      · exact ⟨_, _, rfl, by decide⟩
      · exact ⟨_, _, rfl, by decide⟩
  all_goals exact ⟨_, _, rfl, by decide⟩

theorem string?_escaped {fuel : Nat} {text : List Char} (rest : List Char)
    (enough : (text.flatMap escape).length < fuel) :
    string? fuel (text.flatMap escape ++ '"' :: rest) = some (text, rest) := by
  induction text generalizing fuel with
  | nil =>
      cases fuel with
      | zero => cases enough
      | succ fuel => rfl
  | cons c text ih =>
      rcases escape_head c with ⟨first, more, opens, apart⟩
      rw [List.flatMap_cons, List.length_append, opens, List.length_cons] at enough
      cases fuel with
      | zero => omega
      | succ fuel =>
          have shorter : (text.flatMap escape).length < fuel := by omega
          have head : (escape c ++ (text.flatMap escape ++ '"' :: rest)).head? ≠ some '"' := by
            rw [opens]
            simpa using apart
          rw [List.flatMap_cons, List.append_assoc, string?, if_neg head, char?_escape]
          simp only [Option.bind_eq_bind, Option.bind_some, ih shorter, Option.pure_def]

theorem text?_quoted (text : String) (rest : List Char) :
    text? (quoted text ++ rest) = some (text, rest) := by
  have parts : quoted text ++ rest = '"' :: (text.toList.flatMap escape ++ '"' :: rest) := by
    simp [quoted]
  have enough : (text.toList.flatMap escape).length <
      (text.toList.flatMap escape ++ '"' :: rest).length := by
    simp
  simp only [parts, text?, string?_escaped rest enough, Option.map_some, String.ofList_toList]

theorem scalar?_quoted (value : String) (rest : List Char) :
    scalar? (quoted value ++ rest) = some (.text value, rest) := by
  rw [scalar?, text?_quoted]
  rfl

end Strings

section Numbers

/-- A value ends here: nothing follows, or a comma or a line feed. -/
def Stops (rest : List Char) : Prop := ∀ c, rest.head? = some c → c = ',' ∨ c = '\n'

theorem digits_head (n : Nat) :
    ∃ c more, Text.digits n = c :: more ∧ Text.isDigit c = true := by
  rcases List.exists_cons_of_ne_nil (Text.digits_ne_nil n) with ⟨c, more, written⟩
  have among : c ∈ Text.digits n := by
    rw [written]
    exact .head _
  exact ⟨c, more, written, Text.isDigit_of_mem_digits among⟩

/-- Only zero begins with a zero. -/
theorem digits_zero_cons {n : Nat} {more : List Char} (written : Text.digits n = '0' :: more) :
    more = [] := by
  by_contra some
  have all : ∀ c ∈ more, Text.isDigit c = true := by
    intro c member
    have among : c ∈ Text.digits n := by
      rw [written]
      exact .tail _ member
    exact Text.isDigit_of_mem_digits among
  have same : Text.natOfDigits more = n := by
    rw [← Text.natOfDigits_digits n, written]
    rfl
  have short := Text.length_digits_natOfDigits_le some all
  rw [same, written, List.length_cons] at short
  omega

theorem digits?_digits (n : Nat) {rest : List Char} (stops : Stops rest) :
    digits? (Text.digits n ++ rest) = some (Text.digits n, rest) := by
  have all : ∀ c ∈ Text.digits n, Text.isDigit c = true :=
    fun c member => Text.isDigit_of_mem_digits member
  have past : rest.takeWhile Text.isDigit = [] ∧ rest.dropWhile Text.isDigit = rest := by
    cases rest with
    | nil => exact ⟨rfl, rfl⟩
    | cons c rest =>
        rcases stops c rfl with rfl | rfl
        · exact ⟨rfl, rfl⟩
        · exact ⟨rfl, rfl⟩
  have front : ¬ (Text.digits n = [] ∨
      ((Text.digits n).head? = some '0' ∧ Text.digits n ≠ ['0'])) := by
    rintro (none | ⟨zero, more⟩)
    · exact Text.digits_ne_nil n none
    · rcases List.head?_eq_some_iff.mp zero with ⟨tail, written⟩
      rw [digits_zero_cons written] at written
      exact more written
  have whole : ¬ (rest.head? = some '.' ∨ rest.head? = some 'e' ∨ rest.head? = some 'E') := by
    rintro (point | exponent | exponent)
    · exact absurd (stops _ point) (by decide)
    · exact absurd (stops _ exponent) (by decide)
    · exact absurd (stops _ exponent) (by decide)
  simp only [digits?, List.takeWhile_append_of_pos all, List.dropWhile_append_of_pos all, past,
    List.append_nil, if_neg front, if_neg whole]

theorem number?_toString (value : Int) {rest : List Char} (stops : Stops rest) :
    number? ((toString value).toList ++ rest) = some (value, rest) := by
  have read := digits?_digits value.natAbs stops
  rw [Text.toList_toString, number?]
  by_cases sign : value < 0
  · have same : (⟨true, Text.digits value.natAbs⟩ : Text.Numeral).value = value := by
      rw [Text.Numeral.value, Text.natOfDigits_digits]
      simp only [if_true]
      omega
    simp [if_pos sign, read, same]
  · have same : (⟨false, Text.digits value.natAbs⟩ : Text.Numeral).value = value := by
      rw [Text.Numeral.value, Text.natOfDigits_digits]
      simp only [Bool.false_eq_true, if_false]
      omega
    rcases digits_head value.natAbs with ⟨c, more, written, digit⟩
    have unsigned : c ≠ '-' := by
      rintro rfl
      exact absurd digit (by decide)
    rw [written] at read same
    simp only [if_neg sign, written, List.nil_append, List.cons_append, List.head?_cons,
      Option.some.injEq, if_neg unsigned, decide_eq_false unsigned]
    rw [List.cons_append] at read
    rw [read, Option.map_some, same]

/-- What sets the parts of a text apart, and no number begins with. -/
def marks : List Char := [' ', '\t', '\n', '\r', '"', '[', ']', '\x7b']

theorem unsigned_marks : (marks.all fun mark => mark ≠ '-' && !Text.isDigit mark) = true := by
  decide

theorem isSpace_eq_false {c : Char} (unmarked : c ∉ marks) : isSpace c = false := by
  simp only [marks, List.mem_cons, not_or] at unmarked
  simp [isSpace, unmarked]

theorem toString_head (value : Int) :
    ∃ c more, (toString value).toList = c :: more ∧ c ∉ marks := by
  have some : (toString value).toList ≠ [] := by
    rw [Text.toList_toString]
    exact List.append_ne_nil_of_right_ne_nil _ (Text.digits_ne_nil _)
  rcases List.exists_cons_of_ne_nil some with ⟨c, more, written⟩
  have among : c ∈ (toString value).toList := by
    rw [written]
    exact .head _
  refine ⟨c, more, written, fun marked => ?_⟩
  have mark := List.all_eq_true.mp unsigned_marks c marked
  rcases Text.of_mem_toString among with rfl | digit
  · cases mark
  · simp [digit] at mark

theorem scalar?_toString (value : Int) {rest : List Char} (stops : Stops rest) :
    scalar? ((toString value).toList ++ rest) = some (.number value, rest) := by
  rcases toString_head value with ⟨c, more, written, unmarked⟩
  have unquoted : text? ((toString value).toList ++ rest) = none := by
    rw [written, List.cons_append, text?]
    intro other same
    cases same
    exact unmarked (by decide)
  rw [scalar?, unquoted, number?_toString value stops]
  rfl

end Numbers

section Plain

/-- Printable ASCII and line feeds only. -/
def Plain (cs : List Char) : Prop := ∀ c ∈ cs, c = '\n' ∨ 0x20 ≤ c.toNat ∧ c.toNat < 0x7F

instance (cs : List Char) : Decidable (Plain cs) :=
  decidable_of_iff (cs.all (fun c => c = '\n' ∨ 0x20 ≤ c.toNat ∧ c.toNat < 0x7F) = true)
    (by simp [Plain])

theorem Plain.append {front back : List Char} (first : Plain front) (second : Plain back) :
    Plain (front ++ back) := List.forall_mem_append.mpr ⟨first, second⟩

theorem plain_hex (width n : Nat) : Plain (Text.hex width n) := by
  have digit : ∀ m < 16, Plain [Text.hexDigit m] := by decide
  induction width generalizing n with
  | zero => exact (by decide : Plain [])
  | succ width ih => exact (ih _).append (digit (n % 16) (Nat.mod_lt n (by decide)))

theorem plain_unit (n : Nat) : Plain (unit n) :=
  (by decide : Plain ['\\', 'u']).append (plain_hex 4 n)

theorem plain_escape (c : Char) : Plain (escape c) := by
  unfold escape
  split
  case h_8 =>
    dsimp only
    split
    case isTrue printable => exact List.forall_mem_singleton.mpr (.inr printable)
    case isFalse =>
      split
      · exact plain_unit _
      · exact (plain_unit _).append (plain_unit _)
  all_goals decide

theorem plain_quoted (text : String) : Plain (quoted text) := by
  have escaped : Plain (text.toList.flatMap escape) := by
    intro c member
    rcases List.mem_flatMap.mp member with ⟨source, _, within⟩
    exact plain_escape source c within
  have opened : Plain ('"' :: text.toList.flatMap escape) :=
    (by decide : Plain ['"']).append escaped
  exact opened.append (by decide)

theorem plain_toString (value : Int) : Plain (toString value).toList := by
  intro c member
  rcases Text.of_mem_toString member with rfl | digit
  · exact .inr ⟨by decide, by decide⟩
  · simp only [Text.isDigit, Bool.and_eq_true, decide_eq_true_eq] at digit
    have low : 0x30 ≤ c.toNat := digit.1
    have high : c.toNat ≤ 0x39 := digit.2
    exact .inr ⟨by omega, by omega⟩

end Plain

end Lamplighter.Json
