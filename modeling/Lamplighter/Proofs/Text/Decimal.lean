import Mathlib.Data.List.Induction
import Lamplighter.Program.Parser

/-! The decimal text of an integer.

It is a numeral, it has the value that was written, and as many digits as are
needed for it. -/

namespace Lamplighter.Text

/-- The text of the form `[+-]?[0-9]+`. -/
def IsNumeral (text : String) : Prop := (Numeral.ofChars? text.toList).isSome = true

theorem digits_ne_nil (n : Nat) : digits n ≠ [] := Nat.toDigits_ne_nil

theorem isDigit_of_mem_digits {n : Nat} {c : Char} (member : c ∈ digits n) : isDigit c = true := by
  have digit : c.isDigit = true := Nat.isDigit_of_mem_toDigits (by decide) (by decide) member
  simp only [Char.isDigit, Bool.and_eq_true, decide_eq_true_eq] at digit
  simp only [isDigit, Bool.and_eq_true, decide_eq_true_eq]
  exact digit

theorem natOfDigits_digits (n : Nat) : natOfDigits (digits n) = n :=
  Nat.ofDigitChars_ten_toDigits

theorem Numeral.unsigned?_eq_some_iff {negative : Bool} {digits : List Char} {numeral : Numeral} :
    Numeral.unsigned? negative digits = some numeral ↔
      digits ≠ [] ∧ (∀ c ∈ digits, isDigit c = true) ∧ ⟨negative, digits⟩ = numeral := by
  simp only [Numeral.unsigned?, Option.ite_none_right_eq_some, Bool.and_eq_true, Bool.not_eq_true',
    List.isEmpty_eq_false_iff, List.all_eq_true, Option.some.injEq, and_assoc, ne_eq]

theorem unsigned?_digits (negative : Bool) (n : Nat) :
    Numeral.unsigned? negative (digits n) = some ⟨negative, digits n⟩ :=
  Numeral.unsigned?_eq_some_iff.mpr
    ⟨digits_ne_nil n, fun _ member => isDigit_of_mem_digits member, rfl⟩

/-- A digit is no sign. -/
theorem Numeral.ofChars?_eq_unsigned? {digits : List Char}
    (all : ∀ c ∈ digits, isDigit c = true) :
    Numeral.ofChars? digits = Numeral.unsigned? false digits := by
  unfold Numeral.ofChars?
  split
  case h_1 => exact absurd (all '-' (.head _)) (by decide)
  case h_2 => exact absurd (all '+' (.head _)) (by decide)
  case h_3 => rfl

/-- A numeral is a sign, or none, and digits. -/
theorem Numeral.of_ofChars? {cs : List Char} {numeral : Numeral}
    (read : Numeral.ofChars? cs = some numeral) :
    ∃ sign, (sign = [] ∨ sign = ['-'] ∨ sign = ['+']) ∧ cs = sign ++ numeral.digits ∧
      numeral.digits ≠ [] ∧ ∀ c ∈ numeral.digits, isDigit c = true := by
  unfold Numeral.ofChars? at read
  split at read
  · rcases Numeral.unsigned?_eq_some_iff.mp read with ⟨some, digits, rfl⟩
    exact ⟨['-'], .inr (.inl rfl), rfl, some, digits⟩
  · rcases Numeral.unsigned?_eq_some_iff.mp read with ⟨some, digits, rfl⟩
    exact ⟨['+'], .inr (.inr rfl), rfl, some, digits⟩
  · rcases Numeral.unsigned?_eq_some_iff.mp read with ⟨some, digits, rfl⟩
    exact ⟨[], .inl rfl, rfl, some, digits⟩

theorem Numeral.ofChars?_of_digits {sign digits : List Char}
    (signed : sign = [] ∨ sign = ['-'] ∨ sign = ['+']) (some : digits ≠ [])
    (all : ∀ c ∈ digits, isDigit c = true) :
    ∃ negative, Numeral.ofChars? (sign ++ digits) = .some ⟨negative, digits⟩ := by
  have read (negative : Bool) : Numeral.unsigned? negative digits = .some ⟨negative, digits⟩ :=
    Numeral.unsigned?_eq_some_iff.mpr ⟨some, all, rfl⟩
  rcases signed with rfl | rfl | rfl
  · exact ⟨false, (Numeral.ofChars?_eq_unsigned? all).trans (read false)⟩
  · exact ⟨true, read true⟩
  · exact ⟨false, read false⟩

theorem ofChars?_digits (n : Nat) : Numeral.ofChars? (digits n) = some ⟨false, digits n⟩ :=
  (Numeral.ofChars?_eq_unsigned? fun _ member => isDigit_of_mem_digits member).trans
    (unsigned?_digits false n)

/-- A number has no more digits than it was written with. -/
theorem length_digits_natOfDigits_le {written : List Char} (some : written ≠ [])
    (all : ∀ c ∈ written, isDigit c = true) :
    (digits (natOfDigits written)).length ≤ written.length := by
  have below : natOfDigits written < 10 ^ written.length := by
    clear some
    induction written using List.reverseRecOn with
    | nil => decide
    | append_singleton front c ih =>
        have before := ih fun d member => all d (List.mem_append_left _ member)
        have digit := all c (List.mem_append_right _ (.head _))
        simp only [isDigit, Bool.and_eq_true, decide_eq_true_eq] at digit
        have low : 48 ≤ c.toNat := digit.1
        have high : c.toNat ≤ 57 := digit.2
        have step : natOfDigits (front ++ [c]) = 10 * natOfDigits front + (c.toNat - 48) := by
          rw [natOfDigits, List.foldl_append, natOfDigits]
          rfl
        rw [step, List.length_append, List.length_singleton, Nat.pow_succ]
        omega
  exact (Nat.length_toDigits_le_iff (by decide) (List.length_pos_iff.mpr some)).mpr below

/-- The sign does not count. -/
theorem Numeral.length_digits_value_le {cs : List Char} {numeral : Numeral}
    (read : Numeral.ofChars? cs = some numeral) :
    (Text.digits numeral.value.natAbs).length ≤ numeral.size := by
  rcases Numeral.of_ofChars? read with ⟨_, _, _, some, all⟩
  have same : numeral.value.natAbs = natOfDigits numeral.digits := by
    rw [Numeral.value]
    split <;> simp
  rw [same]
  exact length_digits_natOfDigits_le some all

theorem toList_toString (value : Int) :
    (toString value).toList = (if value < 0 then ['-'] else []) ++ digits value.natAbs := by
  cases value with
  | ofNat n =>
      have sign : ¬ Int.ofNat n < 0 := by simp
      rw [if_neg sign]
      exact Nat.toList_repr
  | negSucc n =>
      rw [if_pos (Int.negSucc_lt_zero n)]
      change ("-" ++ Nat.repr (n + 1)).toList = _
      rw [String.toList_append, Nat.toList_repr]
      rfl

theorem ofChars?_toString (value : Int) :
    Numeral.ofChars? (toString value).toList = some ⟨decide (value < 0), digits value.natAbs⟩ := by
  rw [toList_toString]
  by_cases sign : value < 0
  · rw [if_pos sign, decide_eq_true sign]
    exact unsigned?_digits true _
  · rw [if_neg sign, decide_eq_false sign, List.nil_append, ofChars?_digits]

theorem of_mem_toString {value : Int} {c : Char} (member : c ∈ (toString value).toList) :
    c = '-' ∨ isDigit c = true := by
  rw [toList_toString, List.mem_append] at member
  rcases member with sign | digit
  · split at sign
    case isTrue => exact .inl (List.mem_singleton.mp sign)
    case isFalse => cases sign
  · exact .inr (isDigit_of_mem_digits digit)

/-- An integer whose digits are not too many is read back from its text. -/
theorem expression_toString {value : Int}
    (short : (digits value.natAbs).length ≤ maxDigits) :
    Parser.expression (toString value) = .ok (.literal value) := by
  have same : (⟨decide (value < 0), digits value.natAbs⟩ : Numeral).value = value := by
    simp only [Numeral.value, natOfDigits_digits, decide_eq_true_eq]
    split <;> omega
  rw [Parser.expression, ofChars?_toString]
  simp only [Numeral.size, if_neg (Nat.not_lt.mpr short), same]

end Lamplighter.Text
