import Mathlib.Data.List.Lex
import Mathlib.Order.Basic
import Mathlib.Algebra.Order.Ring.Nat
import Mathlib.Tactic.Ring
import Mathlib.Tactic.Linarith

/-! # Decimal text

Numbers written in decimal, and the order of such texts.  Texts of one length
compare as the numbers they denote, so a date written with fixed-width fields
sorts as a date. -/

namespace Aelf.Library.Decimal

/-- The number a string of decimal digits denotes. -/
def value (digits : List Char) : Nat := Nat.ofDigitChars 10 digits 0

def IsDigits (digits : List Char) : Prop := ∀ digit ∈ digits, digit.isDigit = true

instance (digits : List Char) : Decidable (IsDigits digits) :=
  List.decidableBAll _ digits

def digitValue (digit : Char) : Nat := digit.toNat - '0'.toNat

theorem digitValue_lt {digit : Char} (isDigit : digit.isDigit = true) : digitValue digit < 10 := by
  have bounds := Char.isDigit_iff_toNat.mp isDigit
  have low : '0'.toNat = 48 := rfl
  have high : '9'.toNat = 57 := rfl
  unfold digitValue
  omega

theorem digit_lt_iff {first second : Char} (firstDigit : first.isDigit = true)
    (secondDigit : second.isDigit = true) :
    first < second ↔ digitValue first < digitValue second := by
  have firstBounds := Char.isDigit_iff_toNat.mp firstDigit
  have secondBounds := Char.isDigit_iff_toNat.mp secondDigit
  rw [Char.lt_def, UInt32.lt_iff_toNat_lt]
  change first.toNat < second.toNat ↔ _
  unfold digitValue
  omega

theorem digit_eq_iff {first second : Char} (firstDigit : first.isDigit = true)
    (secondDigit : second.isDigit = true) :
    first = second ↔ digitValue first = digitValue second := by
  have firstBounds := Char.isDigit_iff_toNat.mp firstDigit
  have secondBounds := Char.isDigit_iff_toNat.mp secondDigit
  rw [← Char.toNat_inj]
  unfold digitValue
  omega

@[simp] theorem value_nil : value [] = 0 := rfl

theorem value_cons (digit : Char) (digits : List Char) :
    value (digit :: digits) = digitValue digit * 10 ^ digits.length + value digits := by
  unfold value
  rw [Nat.ofDigitChars_cons, Nat.ofDigitChars_eq_ofDigitChars_zero, digitValue]
  ring

theorem value_lt {digits : List Char} (isDigits : IsDigits digits) :
    value digits < 10 ^ digits.length := by
  induction digits with
  | nil => simp
  | cons digit digits inductionHypothesis =>
    have headBound := digitValue_lt (isDigits digit (by simp))
    have tailBound := inductionHypothesis fun other member => isDigits other (by simp [member])
    rw [value_cons, List.length_cons, pow_succ]
    have scaled : digitValue digit * 10 ^ digits.length ≤ 9 * 10 ^ digits.length :=
      Nat.mul_le_mul_right _ (by omega)
    omega

/-- Digit strings of one length are equal exactly when they denote the same number. -/
theorem eq_iff_value_eq {first second : List Char} (firstDigits : IsDigits first)
    (secondDigits : IsDigits second) (sameLength : first.length = second.length) :
    first = second ↔ value first = value second := by
  induction first generalizing second with
  | nil => simp [List.length_eq_zero_iff.mp sameLength.symm]
  | cons digit digits inductionHypothesis =>
    cases second with
    | nil => simp at sameLength
    | cons other others =>
      have lengths : digits.length = others.length := by simpa using sameLength
      have tailDigits : IsDigits digits := fun digit member => firstDigits digit (by simp [member])
      have tailOthers : IsDigits others := fun digit member => secondDigits digit (by simp [member])
      have tailBound := value_lt tailDigits
      have otherBound := value_lt tailOthers
      rw [List.cons.injEq, inductionHypothesis tailDigits tailOthers lengths, value_cons, value_cons,
        digit_eq_iff (firstDigits digit (by simp)) (secondDigits other (by simp)), lengths] at *
      constructor
      · rintro ⟨heads, tails⟩
        rw [heads, tails]
      · intro same
        have heads : digitValue digit = digitValue other := by
          obtain below | equal | above := lt_trichotomy (digitValue digit) (digitValue other)
          · have := Nat.mul_le_mul_right (10 ^ others.length) below
            rw [Nat.succ_mul] at this
            omega
          · exact equal
          · have := Nat.mul_le_mul_right (10 ^ others.length) above
            rw [Nat.succ_mul] at this
            omega
        refine ⟨heads, ?_⟩
        rw [heads] at same
        omega

/-- Digit strings of one length sort as the numbers they denote. -/
theorem lt_iff_value_lt {first second : List Char} (firstDigits : IsDigits first)
    (secondDigits : IsDigits second) (sameLength : first.length = second.length) :
    first < second ↔ value first < value second := by
  induction first generalizing second with
  | nil => simp [List.length_eq_zero_iff.mp sameLength.symm]
  | cons digit digits inductionHypothesis =>
    cases second with
    | nil => simp at sameLength
    | cons other others =>
      have lengths : digits.length = others.length := by simpa using sameLength
      have tailDigits : IsDigits digits := fun digit member => firstDigits digit (by simp [member])
      have tailOthers : IsDigits others := fun digit member => secondDigits digit (by simp [member])
      have tailBound := value_lt tailDigits
      have otherBound := value_lt tailOthers
      have headDigit := firstDigits digit (by simp)
      have headOther := secondDigits other (by simp)
      rw [List.cons_lt_cons_iff, inductionHypothesis tailDigits tailOthers lengths, value_cons,
        value_cons, digit_lt_iff headDigit headOther, digit_eq_iff headDigit headOther, lengths] at *
      obtain below | equal | above := lt_trichotomy (digitValue digit) (digitValue other)
      · have := Nat.mul_le_mul_right (10 ^ others.length) below
        rw [Nat.succ_mul] at this
        omega
      · simp [equal]
      · have := Nat.mul_le_mul_right (10 ^ others.length) above
        rw [Nat.succ_mul] at this
        omega

/-! ## Written numbers -/

theorem isDigits_toDigits (number : Nat) : IsDigits (Nat.toDigits 10 number) :=
  fun _ member => Nat.isDigit_of_mem_toDigits (by decide) (by decide) member

theorem value_toDigits (number : Nat) : value (Nat.toDigits 10 number) = number := Nat.ofDigitChars_ten_toDigits

/-! ## Fixed-width numbers -/

/-- The decimal digits of a number, padded on the left with zeros to the given width. -/
def zeroPad (width number : Nat) : List Char :=
  (Nat.toDigits 10 number).leftpad width '0'

theorem isDigits_zeroPad (width number : Nat) : IsDigits (zeroPad width number) := by
  intro digit member
  rw [zeroPad, List.leftpad, List.mem_append] at member
  obtain padding | written := member
  · rw [List.eq_of_mem_replicate padding]
    decide
  · exact isDigits_toDigits number digit written

@[simp] theorem value_zeroPad (width number : Nat) : value (zeroPad width number) = number := by
  simp [value, zeroPad, List.leftpad, Nat.ofDigitChars_append, Nat.ofDigitChars_replicate_zero,
    Nat.ofDigitChars_ten_toDigits]

theorem length_zeroPad {width number : Nat} (positive : 0 < width) (fits : number < 10 ^ width) :
    (zeroPad width number).length = width := by
  have short := (Nat.length_toDigits_le_iff (by decide : 1 < 10) positive).mpr fits
  simp [zeroPad, List.leftpad]
  omega

theorem zeroPad_ne_nil (width number : Nat) : zeroPad width number ≠ [] := by
  simp [zeroPad, List.leftpad, Nat.toDigits_ne_nil]

/-! ## Comparing concatenated fields -/

/-- A first field of equal length decides the comparison unless it is equal. -/
theorem append_lt_append_iff {first second : List Char} (sameLength : first.length = second.length)
    (firstRest secondRest : List Char) :
    first ++ firstRest < second ++ secondRest ↔
      first < second ∨ first = second ∧ firstRest < secondRest := by
  induction first generalizing second with
  | nil => simp [List.length_eq_zero_iff.mp sameLength.symm]
  | cons head tail inductionHypothesis =>
    cases second with
    | nil => simp at sameLength
    | cons other others =>
      simp only [List.cons_append, List.cons_lt_cons_iff, List.cons.injEq,
        inductionHypothesis (by simpa using sameLength)]
      tauto

/-! ## Reading a number off the front of a text -/

/-- The text does not go on with a digit. -/
def StopsDigits (rest : List Char) : Prop := ∀ next ∈ rest.head?, next.isDigit = false

instance (rest : List Char) : Decidable (StopsDigits rest) :=
  inferInstanceAs (Decidable (∀ next ∈ rest.head?, next.isDigit = false))

@[simp] theorem stopsDigits_nil : StopsDigits [] := by simp [StopsDigits]

theorem stopsDigits_cons {next : Char} (rest : List Char) (stops : next.isDigit = false) :
    StopsDigits (next :: rest) := by
  simp [StopsDigits, stops]

theorem takeWhile_digits {digits rest : List Char} (isDigits : IsDigits digits)
    (stops : StopsDigits rest) : (digits ++ rest).takeWhile Char.isDigit = digits := by
  rw [List.takeWhile_append_of_pos isDigits]
  cases rest with
  | nil => simp
  | cons next rest => simp [stops next (by simp)]

theorem dropWhile_digits {digits rest : List Char} (isDigits : IsDigits digits)
    (stops : StopsDigits rest) : (digits ++ rest).dropWhile Char.isDigit = rest := by
  rw [List.dropWhile_append_of_pos isDigits]
  cases rest with
  | nil => rfl
  | cons next rest => simp [stops next (by simp)]

end Aelf.Library.Decimal
