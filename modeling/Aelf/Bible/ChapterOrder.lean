import Aelf.Bible.Highlight
import Mathlib.Data.Char
import Mathlib.Data.List.Lex

/-! # The order of chapters

`compare_chapters` is documented as the order of chapters such as 9A and 9B: by number,
then by letter.  It takes the groups of its pattern one too early: the whole text for the
number, and the digits for the letter. -/

namespace Aelf.Bible

open Aelf.Library Aelf.Library.JavaScript

/-! ## Signs of a linear order -/

section Sign

variable {α : Type} [LinearOrder α]

/-- `-1`, `0` or `1`, as the first value is below, at or above the second one. -/
def orderSign (first second : α) : Int := if first < second then -1 else if second < first then 1 else 0

theorem orderSign_swap (first second : α) : orderSign second first = -orderSign first second := by
  rcases lt_trichotomy first second with less | rfl | greater
  · simp [orderSign, less, less.asymm]
  · simp [orderSign]
  · simp [orderSign, greater, greater.asymm]

theorem orderSign_eq_zero {first second : α} : orderSign first second = 0 ↔ first = second := by
  rcases lt_trichotomy first second with less | rfl | greater
  · simp [orderSign, less, less.ne]
  · simp [orderSign]
  · simp [orderSign, greater, greater.asymm, greater.ne']

theorem orderSign_eq_neg_one {first second : α} : orderSign first second = -1 ↔ first < second := by
  rcases lt_trichotomy first second with less | rfl | greater
  · simp [orderSign, less]
  · simp [orderSign]
  · simp [orderSign, greater, greater.asymm]

theorem orderSign_eq_one {first second : α} : orderSign first second = 1 ↔ second < first := by
  rw [orderSign_swap, neg_eq_iff_eq_neg, orderSign_eq_neg_one]

theorem orderSign_nonpos {first second : α} : orderSign first second ≤ 0 ↔ first ≤ second := by
  rcases lt_trichotomy first second with less | rfl | greater
  · simp [orderSign, less, less.le]
  · simp [orderSign]
  · simp [orderSign, greater, greater.asymm]

/-- Lexicographic order looks at the second parts where the first ones are the same. -/
theorem orderSign_toLex {β : Type} [LinearOrder β] (first second : α) (left right : β) :
    orderSign (toLex (first, left)) (toLex (second, right)) =
      if first < second then -1 else if second < first then 1 else orderSign left right := by
  rcases lt_trichotomy first second with less | rfl | greater
  · simp [orderSign, Prod.Lex.toLex_lt_toLex, less]
  · simp [orderSign, Prod.Lex.toLex_lt_toLex]
  · simp [orderSign, Prod.Lex.toLex_lt_toLex, greater, greater.asymm, greater.ne']

end Sign

/-! ## Chapters -/

/-- Digits and at most one letter. -/
structure ChapterRef where
  digits : Text
  letter : Option Char
  isDigits : Decimal.IsDigits digits
  nonempty : digits ≠ []
  isLetter : ∀ c ∈ letter, c.isAlpha = true

namespace ChapterRef

def text (chapter : ChapterRef) : Text := chapter.digits ++ chapter.letter.toList

def number (chapter : ChapterRef) : Nat := Decimal.value chapter.digits

/-- What chapters are to be ordered by: no letter comes before any letter. -/
def documentedKey (chapter : ChapterRef) : ℕ ×ₗ List Char := toLex (chapter.number, chapter.letter.toList)

/-- What they are ordered by: the number as JavaScript has it, and the digits. -/
def actualKey (chapter : ChapterRef) : ℕ∞ ×ₗ List Char := toLex (toNumber chapter.number, chapter.digits)

/-- `compare_chapters` is the documented order for these chapters, and does not take a reference to the second one
for a reference to the first one. -/
structure Documented (chapter_1 chapter_2 : ChapterRef) : Prop where
  compares : compare_chapters chapter_1.text chapter_2.text =
    .ok (orderSign chapter_1.documentedKey chapter_2.documentedKey)
  separates : chapter_1.documentedKey ≠ chapter_2.documentedKey → ∀ reference parsed page,
    parse_reference reference = .ok parsed →
      (∀ range ∈ parsed.ranges, range.chapter_start = chapter_2.text ∧ range.chapter_end = chapter_2.text) →
        highlight_reference_for_chapter reference chapter_1.text page = .ok ⟨page, some ⊤⟩

/-- Where the numbers are the same for JavaScript, the digits as text are in the order of the numbers, or of the
letters of equal numbers. -/
def Ordered (chapter_1 chapter_2 : ChapterRef) : Prop :=
  toNumber chapter_1.number = toNumber chapter_2.number →
    (chapter_1.number < chapter_2.number → chapter_1.digits < chapter_2.digits) ∧
    (chapter_2.number < chapter_1.number → chapter_2.digits < chapter_1.digits) ∧
    (chapter_1.number = chapter_2.number →
      orderSign chapter_1.digits chapter_2.digits = orderSign chapter_1.letter.toList chapter_2.letter.toList)

/-! ## Comparing -/

theorem matchChapter_text (chapter : ChapterRef) : matchChapter chapter.text = .ok (chapter.text, chapter.digits) :=
  matchChapter_eq chapter.isDigits chapter.nonempty chapter.isLetter

/-- The only text that is not read as a decimal number. -/
def IsHexadecimal (chapter : ChapterRef) : Prop := chapter.digits = ['0'] ∧ ∃ c ∈ chapter.letter, c = 'x' ∨ c = 'X'

theorem parseInt_text {chapter : ChapterRef} (decimal : ¬chapter.IsHexadecimal) :
    parseInt chapter.text = some (toNumber chapter.number) := by
  apply parseInt_digits_append chapter.isDigits chapter.nonempty
  · intro next head
    have isLetter : next ∈ chapter.letter := by
      cases letter : chapter.letter <;> simp_all
    exact isDigit_of_isAlpha (chapter.isLetter next isLetter)
  · intro zero next head
    have isLetter : next ∈ chapter.letter := by
      cases letter : chapter.letter <;> simp_all
    constructor
    · rintro rfl
      exact decimal ⟨zero, _, isLetter, .inl rfl⟩
    · rintro rfl
      exact decimal ⟨zero, _, isLetter, .inr rfl⟩

theorem parseInt_hexadecimal {chapter : ChapterRef} (isHex : chapter.IsHexadecimal) : parseInt chapter.text = none := by
  obtain ⟨zero, c, isLetter, isX⟩ := isHex
  rw [text, zero, show chapter.letter = some c from isLetter]
  obtain rfl | rfl := isX <;> rfl

theorem compare_chapters_text (chapter_1 chapter_2 : ChapterRef) :
    compare_chapters chapter_1.text chapter_2.text = .ok (
      if (parseInt chapter_1.text).lt (parseInt chapter_2.text) then -1
      else if (parseInt chapter_2.text).lt (parseInt chapter_1.text) then 1
      else orderSign chapter_1.digits chapter_2.digits) := by
  simp only [compare_chapters, matchChapter_text, bind, Except.bind, pure, Except.pure, orderSign]
  repeat' split
  all_goals rfl

/-- `0` comes before every other number. -/
theorem zero_lt_digits {chapter : ChapterRef} (positive : chapter.number ≠ 0) : ['0'] < chapter.digits := by
  have isDigits := chapter.isDigits
  rw [number] at positive
  cases digits : chapter.digits with
  | nil => exact absurd digits chapter.nonempty
  | cons first others =>
    rw [digits] at isDigits positive
    have firstDigit := isDigits first (by simp)
    rw [List.cons_lt_cons_iff]
    by_cases zero : '0' = first
    · subst zero
      cases others with
      | nil => exact absurd rfl positive
      | cons second others => exact .inr ⟨rfl, List.nil_lt_cons _ _⟩
    · rw [Decimal.digit_eq_iff rfl firstDigit] at zero
      exact .inl ((Decimal.digit_lt_iff rfl firstDigit).mpr (Nat.pos_of_ne_zero (Ne.symm zero)))

/-- In `0x` the number is not a number, and the digits decide; they do it as the number would. -/
theorem compare_hexadecimal {chapter_1 : ChapterRef} (isHex : chapter_1.IsHexadecimal) (chapter_2 : ChapterRef) :
    orderSign chapter_1.digits chapter_2.digits = orderSign chapter_1.actualKey chapter_2.actualKey := by
  have zero : toNumber chapter_1.number = 0 := by
    rw [number, isHex.1]
    exact toNumber_zero
  rw [actualKey, actualKey, orderSign_toLex, zero]
  by_cases same : toNumber chapter_2.number = 0
  · simp [same]
  · have positive : chapter_2.number ≠ 0 := fun isZero => same (by rw [isZero, toNumber_zero])
    rw [if_pos (pos_iff_ne_zero.mpr same), orderSign, isHex.1, if_pos (zero_lt_digits positive)]

theorem compare_chapters_eq (chapter_1 chapter_2 : ChapterRef) :
    compare_chapters chapter_1.text chapter_2.text = .ok (orderSign chapter_1.actualKey chapter_2.actualKey) := by
  rw [compare_chapters_text]
  congr 1
  by_cases isHex_1 : chapter_1.IsHexadecimal
  · rw [parseInt_hexadecimal isHex_1, ← compare_hexadecimal isHex_1]
    cases parseInt chapter_2.text <;> rfl
  · by_cases isHex_2 : chapter_2.IsHexadecimal
    · rw [parseInt_hexadecimal isHex_2, orderSign_swap chapter_2.actualKey, ← compare_hexadecimal isHex_2,
        ← orderSign_swap chapter_2.digits]
      cases parseInt chapter_1.text <;> rfl
    · rw [parseInt_text isHex_1, parseInt_text isHex_2, actualKey, actualKey, orderSign_toLex]
      simp [Number.lt, decide_eq_true_eq]

/-! ## The documented order -/

/-- Two numbers that JavaScript tells apart are in the right order. -/
theorem orderSign_of_toNumber_ne {chapter_1 chapter_2 : ChapterRef}
    (differ : toNumber chapter_1.number ≠ toNumber chapter_2.number) :
    orderSign chapter_1.actualKey chapter_2.actualKey = orderSign chapter_1.documentedKey chapter_2.documentedKey := by
  rw [actualKey, actualKey, documentedKey, documentedKey, orderSign_toLex, orderSign_toLex]
  rcases lt_trichotomy chapter_1.number chapter_2.number with less | same | greater
  · have rounded := (toNumber_mono less.le).lt_of_ne differ
    rw [if_pos rounded, if_pos less]
  · exact absurd (congrArg toNumber same) differ
  · have rounded := (toNumber_mono greater.le).lt_of_ne differ.symm
    rw [if_neg rounded.asymm, if_pos rounded, if_neg greater.asymm, if_pos greater]

/-- Where it does not, the digits decide. -/
theorem orderSign_of_toNumber_eq {chapter_1 chapter_2 : ChapterRef}
    (same : toNumber chapter_1.number = toNumber chapter_2.number) :
    orderSign chapter_1.actualKey chapter_2.actualKey = orderSign chapter_1.digits chapter_2.digits := by
  rw [actualKey, actualKey, orderSign_toLex, same, if_neg (lt_irrefl _), if_neg (lt_irrefl _)]

theorem sameOrder_iff (chapter_1 chapter_2 : ChapterRef) :
    orderSign chapter_1.actualKey chapter_2.actualKey = orderSign chapter_1.documentedKey chapter_2.documentedKey ↔
      chapter_1.Ordered chapter_2 := by
  by_cases same : toNumber chapter_1.number = toNumber chapter_2.number
  · rw [Ordered, forall_prop_of_true same, orderSign_of_toNumber_eq same, documentedKey, documentedKey, orderSign_toLex]
    rcases lt_trichotomy chapter_1.number chapter_2.number with less | equal | greater
    · simp [less, less.asymm, less.ne, orderSign_eq_neg_one]
    · simp [equal]
    · simp [greater, greater.asymm, greater.ne', orderSign_eq_one]
  · exact iff_of_true (orderSign_of_toNumber_ne same) fun equal => absurd equal same

/-! ## Highlighting -/

/-- A range in a chapter that does not compare as equal leaves the page as it is. -/
theorem highlightStep_elsewhere {chapter : Text} {range : Range} {sign : Int} (nonzero : sign ≠ 0)
    (compareStart : compare_chapters chapter range.chapter_start = .ok sign)
    (compareEnd : compare_chapters chapter range.chapter_end = .ok sign) (found : Highlighted) :
    highlightStep chapter found range = .ok found := by
  have outside : sign < 0 ∨ sign > 0 := lt_or_gt_of_ne nonzero
  simp only [highlightStep, compareStart, compareEnd, bind, Except.bind, pure, Except.pure, if_pos outside]

theorem highlight_elsewhere {chapter_1 chapter_2 : ChapterRef} {sign : Int} (nonzero : sign ≠ 0)
    (compares : compare_chapters chapter_1.text chapter_2.text = .ok sign) {reference : Text} {parsed : Parsed}
    (parses : parse_reference reference = .ok parsed)
    (inChapter : ∀ range ∈ parsed.ranges, range.chapter_start = chapter_2.text ∧ range.chapter_end = chapter_2.text)
    (page : List Element) :
    highlight_reference_for_chapter reference chapter_1.text page = .ok ⟨page, some ⊤⟩ := by
  simp only [highlight_reference_for_chapter, parses, bind, Except.bind, highlightRanges]
  generalize parsed.ranges = ranges at inChapter
  -- each range in turn leaves the page as the last one has left it
  induction ranges with
  | nil => rfl
  | cons range ranges inductionHypothesis =>
    obtain ⟨startsIn, endsIn⟩ := inChapter range (by simp)
    have step := highlightStep_elsewhere nonzero (startsIn ▸ compares) (endsIn ▸ compares) ⟨page, some ⊤⟩
    rw [List.foldlM_cons, step]
    exact inductionHypothesis fun later member => inChapter later (by simp [member])

theorem documented_iff (chapter_1 chapter_2 : ChapterRef) :
    chapter_1.Documented chapter_2 ↔ chapter_1.Ordered chapter_2 := by
  rw [← sameOrder_iff]
  constructor
  · intro documented
    have compares := documented.compares
    rw [compare_chapters_eq] at compares
    exact Except.ok.inj compares
  · intro sameOrder
    have compares : compare_chapters chapter_1.text chapter_2.text =
        .ok (orderSign chapter_1.documentedKey chapter_2.documentedKey) := by
      rw [compare_chapters_eq, sameOrder]
    refine ⟨compares, fun differ reference parsed page parses inChapter => ?_⟩
    exact highlight_elsewhere (mt orderSign_eq_zero.mp differ) compares parses inChapter page

/-- `compare_chapters` is antisymmetric and transitive, but the documented order only where the digits happen to be
in it. -/
theorem compare_chapters_documented_iff (chapter_1 chapter_2 chapter_3 : ChapterRef) :
    (chapter_1.Documented chapter_2 ↔ chapter_1.Ordered chapter_2) ∧
    (∃ sign, compare_chapters chapter_1.text chapter_2.text = .ok sign ∧
      compare_chapters chapter_2.text chapter_1.text = .ok (-sign)) ∧
    ∃ first second both,
      compare_chapters chapter_1.text chapter_2.text = .ok first ∧
      compare_chapters chapter_2.text chapter_3.text = .ok second ∧
      compare_chapters chapter_1.text chapter_3.text = .ok both ∧ (first ≤ 0 → second ≤ 0 → both ≤ 0) := by
  refine ⟨documented_iff chapter_1 chapter_2, ?_, ?_⟩
  · refine ⟨_, compare_chapters_eq chapter_1 chapter_2, ?_⟩
    rw [compare_chapters_eq, orderSign_swap]
  · refine ⟨_, _, _, compare_chapters_eq _ _, compare_chapters_eq _ _, compare_chapters_eq _ _, fun first second => ?_⟩
    exact orderSign_nonpos.mpr ((orderSign_nonpos.mp first).trans (orderSign_nonpos.mp second))

def psalm9A : ChapterRef := ⟨['9'], some 'A', by decide, by decide, by simp⟩

def psalm9B : ChapterRef := ⟨['9'], some 'B', by decide, by decide, by simp⟩

/-- Psalms 9A and 9B compare as equal, and a verse of the one is highlighted on the page of the other. -/
theorem psalm9_not_documented :
    compare_chapters psalm9B.text psalm9A.text = .ok 0 ∧ psalm9A.documentedKey < psalm9B.documentedKey ∧
      highlight_reference_for_chapter "9A,2".toList psalm9B.text [⟨"verse-2".toList, false⟩] =
        .ok ⟨[⟨"verse-2".toList, true⟩], some 2⟩ ∧ ¬psalm9B.Documented psalm9A := by
  have compared : compare_chapters psalm9B.text psalm9A.text = .ok 0 := by decide +kernel
  have above : psalm9A.documentedKey < psalm9B.documentedKey := by decide +kernel
  refine ⟨compared, above, by decide +kernel, fun documented => ?_⟩
  have compares := documented.compares
  rw [compared, orderSign_eq_one.mpr above] at compares
  cases compares

end ChapterRef

end Aelf.Bible
