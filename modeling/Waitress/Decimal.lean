import Waitress.Python

/-!
# Decimal lengths

A length is one or more digits.  `int` gives it its value, unless it has too
many digits, and `str` writes a length back.
-/

namespace Waitress

def isDecimalChar (c : Char) : Bool := '0' ≤ c && c ≤ '9'

def IsDecimal (text : Str) : Prop := text ≠ [] ∧ text.all isDecimalChar = true

instance (text : Str) : Decidable (IsDecimal text) :=
  inferInstanceAs (Decidable (_ ∧ _))

def decimalValue (text : Str) : Nat :=
  text.foldl (fun value c => 10 * value + (c.toNat - 48)) 0

namespace IsDecimal

theorem digitValue {c : Char} (digit : isDecimalChar c = true) :
    digitValue? c = some (c.toNat - 48) := if_pos digit

theorem ne_of_digit {c other : Char} (digit : isDecimalChar c = true)
    (different : isDecimalChar other = false) : c ≠ other := by
  rintro rfl
  rw [digit] at different
  exact Bool.noConfusion different

theorem digitsValue {text : Str} (digits : text.all isDecimalChar = true) (value : Nat) :
    digitsValue? value text =
      some (text.foldl (fun value c => 10 * value + (c.toNat - 48)) value) := by
  induction text generalizing value with
  | nil => rfl
  | cons c rest inductionHypothesis =>
      rw [List.all_cons, Bool.and_eq_true] at digits
      rw [digitsValue?, digitValue digits.1]
      · exact inductionHypothesis digits.2 _
      · rintro _ _ rfl _
        exact ne_of_digit digits.1 (show isDecimalChar '_' = false from rfl) rfl

theorem decimalToAscii {c : Char} (digit : isDecimalChar c = true) :
    Waitress.decimalToAscii c = c := by
  rw [isDecimalChar, Bool.and_eq_true, decide_eq_true_eq, decide_eq_true_eq] at digit
  have high : c.toNat ≤ 57 := digit.2
  exact if_pos (by omega)

theorem not_asciiSpace {c : Char} (digit : isDecimalChar c = true) : isAsciiSpace c = false := by
  rw [isDecimalChar, Bool.and_eq_true, decide_eq_true_eq, decide_eq_true_eq] at digit
  have low : 48 ≤ c.toNat := digit.1
  simp only [isAsciiSpace, Bool.or_eq_false_iff, Bool.and_eq_false_iff, decide_eq_false_iff_not]
  omega

theorem intText {text : Str} (decimal : IsDecimal text) : Waitress.intText text = text := by
  have plain : ∀ s : Str, s.all isDecimalChar = true → s.dropWhile isAsciiSpace = s := by
    intro s digits
    cases s with
    | nil => rfl
    | cons c rest =>
        rw [List.all_cons, Bool.and_eq_true] at digits
        rw [List.dropWhile_cons_of_neg]
        simp [not_asciiSpace digits.1]
  have same : text.map Waitress.decimalToAscii = text := by
    refine (List.map_congr_left fun c mem => ?_).trans (List.map_id text)
    exact decimalToAscii (List.all_eq_true.mp decimal.2 c mem)
  rw [Waitress.intText, same, plain text decimal.2, plain text.reverse (by simpa using decimal.2),
    List.reverse_reverse]

theorem natOfStr {text : Str} (decimal : IsDecimal text) :
    Waitress.natOfStr text =
      if text.length ≤ intMaxStrDigits then .ok (decimalValue text) else .error .valueError := by
  obtain ⟨nonempty, digits⟩ := decimal
  have noUnderscore : text.filter (· ≠ '_') = text := by
    rw [List.filter_eq_self]
    intro c mem
    exact decide_eq_true (ne_of_digit (List.all_eq_true.mp digits c mem) rfl)
  cases text with
  | nil => exact absurd rfl nonempty
  | cons c rest =>
      rw [List.all_cons, Bool.and_eq_true] at digits
      have value : ((digitValue? c).bind fun d => digitsValue? d rest) =
          some (decimalValue (c :: rest)) := by
        rw [digitValue digits.1, Option.bind_some, digitsValue digits.2, decimalValue,
          List.foldl_cons, Nat.mul_zero, Nat.zero_add]
      simp only [Waitress.natOfStr, value, noUnderscore]

/-- `int` gives a length its value, if it accepts it. -/
theorem intOfStr {text : Str} (decimal : IsDecimal text) :
    Waitress.intOfStr text =
      if text.length ≤ intMaxStrDigits then .ok (decimalValue text : Int)
      else .error .valueError := by
  have unsigned : Waitress.intOfStr text = (Waitress.natOfStr text).map fun n => (n : Int) := by
    rw [Waitress.intOfStr, decimal.intText]
    split
    · exact absurd rfl (ne_of_digit (List.all_eq_true.mp decimal.2 '-' (by simp)) rfl)
    · exact absurd rfl (ne_of_digit (List.all_eq_true.mp decimal.2 '+' (by simp)) rfl)
    · rfl
  rw [unsigned, decimal.natOfStr]
  split <;> rfl

end IsDecimal

theorem natStr_isDecimal (n : Nat) : IsDecimal (natStr n) := by
  refine ⟨Nat.toDigits_ne_nil, List.all_eq_true.mpr fun c mem => ?_⟩
  have digit := Nat.isDigit_of_mem_toDigits (by decide) (by decide) mem
  simpa [Char.isDigit, isDecimalChar, Char.le_def] using digit

/-- `str` writes a length that has the same value. -/
theorem decimalValue_natStr (n : Nat) : decimalValue (natStr n) = n := by
  induction n using Nat.strongRecOn with
  | _ n inductionHypothesis =>
      by_cases small : n < 10
      · rw [natStr, Nat.toDigits_of_lt_base small]
        have value := Nat.toNat_digitChar_sub_48_of_lt_ten small
        simpa [decimalValue] using value
      · have large : 10 ≤ n := Nat.le_of_not_lt small
        have value := Nat.toNat_digitChar_sub_48_of_lt_ten (Nat.mod_lt n (by decide : 10 > 0))
        have shorter := inductionHypothesis (n / 10) (Nat.div_lt_self (by omega) (by decide))
        rw [natStr, Nat.toDigits_of_base_le (by decide) large, decimalValue, List.foldl_append]
        change 10 * decimalValue (natStr (n / 10)) + ((n % 10).digitChar.toNat - 48) = n
        rw [shorter, value]
        exact Nat.div_add_mod n 10

end Waitress
