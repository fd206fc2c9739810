import Aelf.Library.Decimal
import Aelf.Library.Regex
import Mathlib.Data.ENat.Basic
import Mathlib.Data.List.TakeWhile
import Mathlib.Data.Nat.Log

/-! # Text and numbers of JavaScript

The part of the standard library that the scripts of the pages use.  A string is a
list of characters.  The numbers that occur are natural numbers, `Infinity` and `NaN`;
a natural number is exact below 2⁵³ and rounded to 53 significant bits from there. -/

namespace Aelf.Library.JavaScript

open Decimal (IsDigits)

/-! ## Characters -/

/-- `\s` -/
def isSpace (c : Char) : Bool :=
  c.toNat ∈ [0x09, 0x0A, 0x0B, 0x0C, 0x0D, 0x20, 0xA0, 0x1680, 0x2028, 0x2029, 0x202F, 0x205F, 0x3000, 0xFEFF] ||
    (0x2000 ≤ c.toNat && c.toNat ≤ 0x200A)

def isLineTerminator (c : Char) : Bool := c.toNat ∈ [0x0A, 0x0D, 0x2028, 0x2029]

/-- What `.` matches. -/
def isAny (c : Char) : Bool := !isLineTerminator c

/-- `toLowerCase`, on text without letters outside ASCII. -/
def toLowerCase (text : List Char) : List Char := text.map Char.toLower

/-- `toUpperCase`, on text without letters outside ASCII. -/
def toUpperCase (text : List Char) : List Char := text.map Char.toUpper

theorem isDigit_iff {c : Char} : c.isDigit = true ↔ 48 ≤ c.toNat ∧ c.toNat ≤ 57 :=
  Char.isDigit_iff_toNat

theorem isUpper_iff {c : Char} : c.isUpper = true ↔ 65 ≤ c.toNat ∧ c.toNat ≤ 90 := by
  have bounds : c.isUpper = decide ('A'.val ≤ c.val ∧ c.val ≤ 'Z'.val) := rfl
  rw [bounds, decide_eq_true_iff, UInt32.le_iff_toNat_le, UInt32.le_iff_toNat_le, Char.toNat_val]
  rfl

theorem isLower_iff {c : Char} : c.isLower = true ↔ 97 ≤ c.toNat ∧ c.toNat ≤ 122 := by
  have bounds : c.isLower = (decide ('a'.val ≤ c.val) && decide (c.val ≤ 'z'.val)) := rfl
  rw [bounds, Bool.and_eq_true, decide_eq_true_iff, decide_eq_true_iff, UInt32.le_iff_toNat_le,
    UInt32.le_iff_toNat_le, Char.toNat_val]
  rfl

theorem isLower_of_isDigit {c : Char} (digit : c.isDigit = true) : c.isLower = false := by
  rw [isDigit_iff] at digit
  rw [← Bool.not_eq_true, isLower_iff]
  omega

theorem isLower_of_isUpper {c : Char} (upper : c.isUpper = true) : c.isLower = false := by
  rw [isUpper_iff] at upper
  rw [← Bool.not_eq_true, isLower_iff]
  omega

theorem isDigit_of_isLower {c : Char} (lower : c.isLower = true) : c.isDigit = false := by
  rw [isLower_iff] at lower
  rw [← Bool.not_eq_true, isDigit_iff]
  omega

theorem isAlpha_iff {c : Char} :
    c.isAlpha = true ↔ (65 ≤ c.toNat ∧ c.toNat ≤ 90) ∨ (97 ≤ c.toNat ∧ c.toNat ≤ 122) := by
  have either : c.isAlpha = (c.isUpper || c.isLower) := rfl
  rw [either, Bool.or_eq_true, isUpper_iff, isLower_iff]

theorem isAlpha_of_isUpper {c : Char} (upper : c.isUpper = true) : c.isAlpha = true :=
  isAlpha_iff.mpr (.inl (isUpper_iff.mp upper))

theorem isAlpha_of_isLower {c : Char} (lower : c.isLower = true) : c.isAlpha = true :=
  isAlpha_iff.mpr (.inr (isLower_iff.mp lower))

theorem isDigit_of_isAlpha {c : Char} (alpha : c.isAlpha = true) : c.isDigit = false := by
  rw [isAlpha_iff] at alpha
  rw [← Bool.not_eq_true, isDigit_iff]
  omega

theorem isWordChar_of_isDigit {c : Char} (digit : c.isDigit = true) : Regex.isWordChar c = true := by
  simp [Regex.isWordChar, Char.isAlphanum, digit]

theorem isWordChar_of_isAlpha {c : Char} (alpha : c.isAlpha = true) : Regex.isWordChar c = true := by
  simp [Regex.isWordChar, Char.isAlphanum, alpha]

theorem isWordChar_of_isSpace {c : Char} (space : isSpace c = true) : Regex.isWordChar c = false := by
  by_contra word
  have bounds : c.isAlpha = true ∨ c.isDigit = true ∨ c = '_' := by
    rw [Bool.not_eq_false, Regex.isWordChar, Char.isAlphanum, Bool.or_eq_true, Bool.or_eq_true, or_assoc,
      decide_eq_true_eq] at word
    exact word
  rw [isAlpha_iff, isDigit_iff] at bounds
  simp only [isSpace, Bool.or_eq_true, decide_eq_true_eq, List.mem_cons, List.not_mem_nil, or_false,
    Bool.and_eq_true] at space
  obtain alpha | digit | rfl := bounds
  · omega
  · omega
  · revert space
    decide

theorem isDigit_of_isUpper {c : Char} (upper : c.isUpper = true) : c.isDigit = false := by
  rw [isUpper_iff] at upper
  rw [← Bool.not_eq_true, isDigit_iff]
  omega

theorem isAny_of_printable {c : Char} (printable : 32 ≤ c.toNat ∧ c.toNat < 128) : isAny c = true := by
  simp only [isAny, isLineTerminator, Bool.not_eq_true', decide_eq_false_iff_not, List.mem_cons, List.not_mem_nil,
    or_false]
  omega

theorem isAny_of_isDigit {c : Char} (digit : c.isDigit = true) : isAny c = true :=
  isAny_of_printable (by rw [isDigit_iff] at digit; omega)

theorem isAny_of_isUpper {c : Char} (upper : c.isUpper = true) : isAny c = true :=
  isAny_of_printable (by rw [isUpper_iff] at upper; omega)

/-! ## Numbers -/

/-- `none` is `NaN`, which no comparison holds of. -/
abbrev Number := Option ℕ∞

namespace Number

def le : Number → Number → Bool
  | some first, some second => first ≤ second
  | _, _ => false

def lt : Number → Number → Bool
  | some first, some second => first < second
  | _, _ => false

end Number

/-- The nearest number with 53 significant bits, the even one of two. -/
def roundNumber (number : Nat) : Nat :=
  let unit := 2 ^ (Nat.log 2 number - 52)
  let quotient := number / unit
  let remainder := number % unit
  if unit < 2 * remainder ∨ (unit = 2 * remainder ∧ quotient % 2 = 1) then (quotient + 1) * unit
  else quotient * unit

/-- From 2¹⁰²⁴ on, the rounded number is `Infinity`. -/
def toNumber (number : Nat) : ℕ∞ := if Nat.log 2 (roundNumber number) < 1024 then roundNumber number else ⊤

def hexDigitValue (digit : Char) : Nat :=
  if digit.isDigit then digit.toNat - '0'.toNat else digit.toLower.toNat - 'a'.toNat + 10

def isHexDigit (c : Char) : Bool := c.isDigit || ('a' ≤ c.toLower && c.toLower ≤ 'f')

/-- `parseInt`, for text without a minus sign. -/
def parseInt (text : List Char) : Number :=
  match unsigned (text.dropWhile isSpace) with
  | '0' :: x :: rest =>
    if x = 'x' || x = 'X' then number (rest.takeWhile isHexDigit) (rest.takeWhile isHexDigit |>.foldl hexadecimal 0)
    else decimal ('0' :: x :: rest)
  | rest => decimal rest
where
  unsigned : List Char → List Char
    | '+' :: rest => rest
    | rest => rest
  hexadecimal (sum : Nat) (digit : Char) : Nat := 16 * sum + hexDigitValue digit
  number (digits : List Char) (value : Nat) : Number := if digits.isEmpty then none else some (toNumber value)
  decimal (text : List Char) : Number :=
    number (text.takeWhile Char.isDigit) (Decimal.value (text.takeWhile Char.isDigit))

theorem log_lt_of_lt {number : Nat} (small : number < 2 ^ 53) : Nat.log 2 number < 53 :=
  Nat.log_lt_of_lt_pow' (by decide) small

theorem roundNumber_of_lt {number : Nat} (small : number < 2 ^ 53) : roundNumber number = number := by
  have bits : Nat.log 2 number - 52 = 0 := by
    have := log_lt_of_lt small
    omega
  simp [roundNumber, bits, Nat.mod_one]

theorem toNumber_of_lt {number : Nat} (small : number < 2 ^ 53) : toNumber number = number := by
  have bits := log_lt_of_lt small
  rw [toNumber, roundNumber_of_lt small, if_pos (by omega)]

/-- The number that the last of the 53 bits stands for. -/
def lastUnit (number : Nat) : Nat := 2 ^ (Nat.log 2 number - 52)

theorem roundNumber_eq (number : Nat) :
    roundNumber number =
      if lastUnit number < 2 * (number % lastUnit number) ∨
          (lastUnit number = 2 * (number % lastUnit number) ∧ number / lastUnit number % 2 = 1) then
        (number / lastUnit number + 1) * lastUnit number
      else number / lastUnit number * lastUnit number := rfl

theorem roundNumber_bounds (number : Nat) :
    number / lastUnit number * lastUnit number ≤ roundNumber number ∧
      roundNumber number ≤ (number / lastUnit number + 1) * lastUnit number := by
  have wider : number / lastUnit number * lastUnit number ≤ (number / lastUnit number + 1) * lastUnit number :=
    Nat.mul_le_mul_right _ (Nat.le_succ _)
  rw [roundNumber_eq]
  split
  next => exact ⟨wider, Nat.le_refl _⟩
  next => exact ⟨Nat.le_refl _, wider⟩

theorem pow_eq_mul_lastUnit {number bits : Nat} (enough : Nat.log 2 number ≤ bits) :
    2 ^ (bits - (Nat.log 2 number - 52)) * lastUnit number = 2 ^ bits := by
  rw [lastUnit, ← Nat.pow_add]
  congr 1
  omega

theorem roundNumber_le_pow (number : Nat) : roundNumber number ≤ 2 ^ (Nat.log 2 number + 1) := by
  have below : number < 2 ^ (Nat.log 2 number + 1) := Nat.lt_pow_succ_log_self (by decide) number
  rw [← pow_eq_mul_lastUnit (Nat.le_succ _)] at below ⊢
  have quotient := (Nat.div_lt_iff_lt_mul (Nat.two_pow_pos _)).mpr below
  exact (roundNumber_bounds number).2.trans (Nat.mul_le_mul_right _ quotient)

theorem pow_le_roundNumber {number : Nat} (positive : number ≠ 0) : 2 ^ Nat.log 2 number ≤ roundNumber number := by
  have above : 2 ^ Nat.log 2 number ≤ number := Nat.pow_log_le_self 2 positive
  rw [← pow_eq_mul_lastUnit (Nat.le_refl _)] at above ⊢
  have quotient := (Nat.le_div_iff_mul_le (Nat.two_pow_pos _)).mpr above
  exact (Nat.mul_le_mul_right _ quotient).trans (roundNumber_bounds number).1

theorem roundNumber_mono {first second : Nat} (le : first ≤ second) : roundNumber first ≤ roundNumber second := by
  have logs : Nat.log 2 first ≤ Nat.log 2 second := Nat.log_mono_right le
  by_cases sameUnit : lastUnit first = lastUnit second
  · have quotients : first / lastUnit first ≤ second / lastUnit second := by
      rw [sameUnit]
      exact Nat.div_le_div_right le
    obtain sameQuotient | less := quotients.eq_or_lt
    -- between the same two neighbours, what rounds the smaller number up rounds the greater one up
    · have remainders : first % lastUnit second ≤ second % lastUnit second := by
        have splitFirst := Nat.div_add_mod first (lastUnit second)
        have splitSecond := Nat.div_add_mod second (lastUnit second)
        rw [← sameUnit, sameQuotient, sameUnit] at splitFirst
        omega
      rw [roundNumber_eq, roundNumber_eq, sameQuotient, sameUnit]
      split
      next up =>
        rw [if_pos (by omega)]
      next =>
        split
        next => exact Nat.mul_le_mul_right _ (Nat.le_succ _)
        next => exact Nat.le_refl _
    · calc
        roundNumber first ≤ (first / lastUnit first + 1) * lastUnit first := (roundNumber_bounds first).2
        _ ≤ second / lastUnit second * lastUnit second := by
          rw [← sameUnit] at less ⊢
          exact Nat.mul_le_mul_right _ less
        _ ≤ roundNumber second := (roundNumber_bounds second).1
  · have shorter : Nat.log 2 first + 1 ≤ Nat.log 2 second := by
      by_contra same
      exact sameUnit (by rw [lastUnit, lastUnit, Nat.le_antisymm logs (by omega)])
    have positive : second ≠ 0 := by
      rintro rfl
      simp at shorter
    calc
      roundNumber first ≤ 2 ^ (Nat.log 2 first + 1) := roundNumber_le_pow first
      _ ≤ 2 ^ Nat.log 2 second := Nat.pow_le_pow_right (by decide) shorter
      _ ≤ roundNumber second := pow_le_roundNumber positive

theorem toNumber_mono {first second : Nat} (le : first ≤ second) : toNumber first ≤ toNumber second := by
  have rounded := roundNumber_mono le
  have logs : Nat.log 2 (roundNumber first) ≤ Nat.log 2 (roundNumber second) := Nat.log_mono_right rounded
  rw [toNumber, toNumber]
  split
  next =>
    split
    next => exact Nat.cast_le.mpr rounded
    next => exact le_top
  next tooLarge => rw [if_neg (by omega)]

theorem toNumber_zero : toNumber 0 = 0 := toNumber_of_lt (by decide)

theorem isSpace_of_isWordChar {c : Char} (word : Regex.isWordChar c = true) : isSpace c = false := by
  by_contra space
  rw [isWordChar_of_isSpace (by simpa using space)] at word
  cases word

theorem isSpace_of_isDigit {c : Char} (digit : c.isDigit = true) : isSpace c = false :=
  isSpace_of_isWordChar (isWordChar_of_isDigit digit)

/-- 2⁵³ + 1 is the first number that is rounded. -/
theorem toNumber_first_rounded : toNumber 9007199254740993 = (9007199254740992 : Nat) := by
  have bits : Nat.log 2 9007199254740993 = 53 := Nat.log_eq_of_pow_le_of_lt_pow (by decide) (by decide)
  have bitsRounded : Nat.log 2 9007199254740992 = 53 := Nat.log_eq_of_pow_le_of_lt_pow (by decide) (by decide)
  have rounded : roundNumber 9007199254740993 = 9007199254740992 := by
    simp [roundNumber, bits]
  rw [toNumber, rounded, bitsRounded, if_pos (by decide)]

/-- Decimal digits denote the number that they spell, rounded, whatever follows them; only `0x` is not decimal. -/
theorem parseInt_digits_append {digits rest : List Char} (isDigits : IsDigits digits) (nonempty : digits ≠ [])
    (stops : Decimal.StopsDigits rest) (notHex : digits = ['0'] → ∀ c ∈ rest.head?, c ≠ 'x' ∧ c ≠ 'X') :
    parseInt (digits ++ rest) = some (toNumber (Decimal.value digits)) := by
  have decimal : parseInt.decimal (digits ++ rest) = some (toNumber (Decimal.value digits)) := by
    rw [parseInt.decimal, Decimal.takeWhile_digits isDigits stops, parseInt.number, if_neg (by simpa using nonempty)]
  cases digits with
  | nil => exact absurd rfl nonempty
  | cons first others =>
    have firstDigit : first.isDigit = true := isDigits first (by simp)
    have notSpace : (first :: others ++ rest).dropWhile isSpace = first :: others ++ rest :=
      List.dropWhile_cons_of_neg (by simp [isSpace_of_isDigit firstDigit])
    have notSigned : parseInt.unsigned (first :: others ++ rest) = first :: others ++ rest := by
      unfold parseInt.unsigned
      split
      next rest same =>
        obtain ⟨rfl, _⟩ := List.cons.inj same
        exact absurd firstDigit (by decide)
      next => rfl
    rw [parseInt, notSpace, notSigned]
    split
    next x after same =>
      have notX : x ≠ 'x' ∧ x ≠ 'X' := by
        obtain ⟨rfl, tail⟩ := List.cons.inj same
        cases others with
        | nil => exact notHex rfl x (by rw [show rest = x :: after from tail]; rfl)
        -- a second digit is not the x of a hexadecimal number
        | cons second others =>
          obtain ⟨rfl, _⟩ := List.cons.inj tail
          have digit := isDigits second (by simp)
          constructor
          · rintro rfl
            cases digit
          · rintro rfl
            cases digit
      rw [if_neg (by simp [notX]), ← same]
      exact decimal
    next => exact decimal

theorem parseInt_isDigits {digits : List Char} (isDigits : IsDigits digits) (nonempty : digits ≠ []) :
    parseInt digits = some (toNumber (Decimal.value digits)) := by
  have alone := parseInt_digits_append isDigits nonempty Decimal.stopsDigits_nil (by simp)
  rwa [List.append_nil] at alone

/-- Small numbers are read exactly. -/
theorem parseInt_digits {digits : List Char} (isDigits : IsDigits digits) (nonempty : digits ≠ [])
    (small : Decimal.value digits < 2 ^ 53) : parseInt digits = some (Decimal.value digits : ℕ∞) := by
  rw [parseInt_isDigits isDigits nonempty, toNumber_of_lt small]

end Aelf.Library.JavaScript
