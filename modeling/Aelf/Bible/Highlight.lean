import Aelf.Bible.Reference
import Mathlib.Data.ENat.Lattice
import Mathlib.Data.Prod.Lex

/-! # `highlight_reference_for_chapter`

The part of `chapter.js` that marks the verses of a reference on the page of a
chapter.  A page is the list of its elements that have an id; the element that is
moved into the visible area at the end is a matter of the display and is left out. -/

namespace Aelf.Bible

open Aelf.Library Aelf.Library.JavaScript
open Aelf.Library.Regex

/-! ## Comparing chapters -/

/-- `^([0-9]+)([a-z]?)$`, without regard to case.  The whole match is group 0. -/
def chapterPattern : Regex := .group 0 <| .sequence
  [.startOfInput, .group 1 (.plus (.satisfies Char.isDigit)), .group 2 (.opt (.satisfies Char.isAlpha)), .endOfInput]

/-- The whole match and the first group; reading them off `null` is a type error. -/
def matchChapter (chapter : Text) : Except ScriptError (Text × Text) :=
  match chapterPattern.firstMatch chapter with
  | none => .error .typeError
  | some captures => .ok ((captures 0).getD [], (captures 1).getD [])

def compare_chapters (chapter_1 chapter_2 : Text) : Except ScriptError Int := do
  let (whole_1, letter_1) ← matchChapter chapter_1
  let (whole_2, letter_2) ← matchChapter chapter_2
  let number_1 := parseInt whole_1
  let number_2 := parseInt whole_2
  if number_1.lt number_2 then return -1
  if number_2.lt number_1 then return 1
  if letter_1 < letter_2 then return -1
  if letter_2 < letter_1 then return 1
  return 0

/-! ## Marking verses -/

structure Element where
  id : Text
  highlight : Bool
deriving DecidableEq

/-- `[id ^= verse-]` -/
def Element.isVerse (element : Element) : Bool := "verse-".toList.isPrefixOf element.id

def Element.verse_id (element : Element) : Number := (element.id.splitOn '-')[1]?.bind parseInt

def highlight_range (verse_start verse_end : Number) (page : List Element) : List Element :=
  page.map fun verse =>
    if verse.isVerse && (verse_start.le verse.verse_id && verse.verse_id.le verse_end) then
      { verse with highlight := true }
    else verse

/-- What the loop over the ranges changes. -/
structure Highlighted where
  page : List Element
  first_verse_id : Number
deriving DecidableEq

/-- `if (first_verse_id > verse_start) first_verse_id = verse_start` -/
def lowerFirst (first_verse_id verse_start : Number) : Number :=
  if verse_start.lt first_verse_id then verse_start else first_verse_id

/-- One iteration. -/
def highlightStep (chapter : Text) (found : Highlighted) (range : Range) : Except ScriptError Highlighted := do
  let compare_start ← compare_chapters chapter range.chapter_start
  let compare_end ← compare_chapters chapter range.chapter_end
  if compare_start < 0 ∨ compare_end > 0 then
    return found
  if compare_start = 0 ∧ compare_end = 0 then
    return ⟨highlight_range range.verse_start range.verse_end found.page,
      lowerFirst found.first_verse_id range.verse_start⟩
  if compare_start > 0 ∧ compare_end < 0 then
    return ⟨highlight_range (some 0) (some ⊤) found.page, some 0⟩
  if compare_start = 0 then
    return ⟨highlight_range range.verse_start (some ⊤) found.page, lowerFirst found.first_verse_id range.verse_start⟩
  if compare_end = 0 then
    return ⟨highlight_range (some 0) range.verse_end found.page, some 0⟩
  return found

/-- The loop over the ranges of a reference. -/
def highlightRanges (reference_ranges : List Range) (chapter : Text) (page : List Element) :
    Except ScriptError Highlighted :=
  reference_ranges.foldlM (highlightStep chapter) ⟨page, some ⊤⟩

def highlight_reference_for_chapter (reference chapter : Text) (page : List Element) :
    Except ScriptError Highlighted := do
  let parsed ← parse_reference reference
  highlightRanges parsed.ranges chapter page

/-! ## Passages -/

/-- A number that is written in decimal without leading zeros, small enough to be exact. -/
structure PlainNumber where
  value : Nat
  small : value < 2 ^ 53

def PlainNumber.text (number : PlainNumber) : Text := Nat.toDigits 10 number.value

/-- A range between two positions of a book, both of them included. -/
structure Passage where
  chapter_start : PlainNumber
  verse_start : ℕ∞
  chapter_end : PlainNumber
  verse_end : ℕ∞

namespace Passage

def range (passage : Passage) : Range :=
  ⟨passage.chapter_start.text, some passage.verse_start, passage.chapter_end.text, some passage.verse_end⟩

/-- The position lies between the two ends, in lexicographic order. -/
def Covers (passage : Passage) (chapter : Nat) (verse : ℕ∞) : Prop :=
  toLex (passage.chapter_start.value, passage.verse_start) ≤ toLex (chapter, verse) ∧
    toLex (chapter, verse) ≤ toLex (passage.chapter_end.value, passage.verse_end)

/-- The chapter lies between the chapters of the two ends. -/
def Meets (passage : Passage) (chapter : Nat) : Prop :=
  passage.chapter_start.value ≤ chapter ∧ chapter ≤ passage.chapter_end.value

/-- Where the passage starts in a chapter that it meets. -/
def firstVerse (passage : Passage) (chapter : Nat) : ℕ∞ :=
  if passage.chapter_start.value = chapter then passage.verse_start else 0

theorem covers_iff {passage : Passage} {chapter : Nat} {verse : ℕ∞} :
    passage.Covers chapter verse ↔
      (passage.chapter_start.value < chapter ∨ passage.chapter_start.value = chapter ∧ passage.verse_start ≤ verse) ∧
        (chapter < passage.chapter_end.value ∨ chapter = passage.chapter_end.value ∧ verse ≤ passage.verse_end) := by
  rw [Covers, Prod.Lex.toLex_le_toLex, Prod.Lex.toLex_le_toLex]

instance (passage : Passage) (chapter : Nat) (verse : ℕ∞) : Decidable (passage.Covers chapter verse) :=
  decidable_of_iff _ covers_iff.symm

end Passage

/-! ## Matching chapters -/

/-- The first group has the digits without the letter. -/
theorem matchChapter_eq {digits : Text} {letter : Option Char} (isDigits : Decimal.IsDigits digits)
    (nonempty : digits ≠ []) (isLetter : ∀ c ∈ letter, c.isAlpha = true) :
    matchChapter (digits ++ letter.toList) = .ok (digits ++ letter.toList, digits) := by
  have matched : Yields (chapterPattern.firstMatch (digits ++ letter.toList)) fun captures =>
      captures 0 = some (digits ++ letter.toList) ∧ captures 1 = some digits := by
    cases digits with
    | nil => exact absurd rfl nonempty
    | cons first others =>
      have othersDigits : ∀ c ∈ others, c.isDigit = true := fun c member => isDigits c (by simp [member])
      apply yields_firstMatch
      rw [chapterPattern, run_group, run_sequence_cons, run_startOfInput, run_sequence_cons, run_group, run_plus,
        List.cons_append, run_satisfies_cons, if_pos (isDigits first (by simp))]
      cases letter with
      | none =>
        apply yields_star_longest othersDigits stops_nil
        rw [State.close_eq _ _ _ (first :: others) (by simp), run_sequence_cons, run_group, run_opt, run_satisfies_nil,
          Option.none_or, State.close_eq _ _ _ [] (by simp), run_sequence_cons, run_endOfInput_nil, run_sequence_nil,
          State.close_eq _ _ _ (first :: others) (by simp), yields_some]
        simp
      | some letter =>
        have alpha := isLetter letter rfl
        rw [Option.toList_some]
        apply yields_star_longest othersDigits (stops_cons.mpr (isDigit_of_isAlpha alpha))
        rw [State.close_eq _ _ _ (first :: others) (by simp), run_sequence_cons, run_group, run_opt, run_satisfies_cons,
          if_pos alpha]
        apply Yields.or_left
        rw [State.close_eq _ _ _ [letter] (by simp), run_sequence_cons, run_endOfInput_nil, run_sequence_nil,
          State.close_eq _ _ _ (first :: others ++ [letter]) (by simp), yields_some]
        simp
  obtain ⟨captures, found, whole, number⟩ := matched
  rw [matchChapter, found]
  simp [whole, number]

/-! ## Plain chapters -/

namespace PlainNumber

theorem isDigits (number : PlainNumber) : Decimal.IsDigits number.text := Decimal.isDigits_toDigits number.value

theorem nonempty (number : PlainNumber) : number.text ≠ [] := Nat.toDigits_ne_nil

theorem parseInt_text (number : PlainNumber) : parseInt number.text = some (number.value : ℕ∞) := by
  have spelled : Decimal.value number.text = number.value := Decimal.value_toDigits number.value
  have small : Decimal.value number.text < 2 ^ 53 := spelled.trans_lt number.small
  rw [parseInt_digits number.isDigits number.nonempty small, spelled]

theorem matchChapter_text (number : PlainNumber) : matchChapter number.text = .ok (number.text, number.text) := by
  have alone := matchChapter_eq number.isDigits number.nonempty (show ∀ c ∈ (none : Option Char), c.isAlpha = true by simp)
  rwa [Option.toList_none, List.append_nil] at alone

/-- Plain chapters compare as numbers: equal numbers are written alike. -/
theorem compare_chapters_text (first second : PlainNumber) :
    compare_chapters first.text second.text =
      .ok (if first.value < second.value then -1 else if second.value < first.value then 1 else 0) := by
  have step : compare_chapters first.text second.text = .ok (
      if first.value < second.value then -1 else if second.value < first.value then 1
      else if first.text < second.text then -1 else if second.text < first.text then 1 else 0) := by
    simp only [compare_chapters, matchChapter_text, parseInt_text, bind, Except.bind, pure, Except.pure, Number.lt,
      decide_eq_true_eq, Nat.cast_lt]
    repeat' split
    all_goals rfl
  rw [step]
  by_cases below : first.value < second.value
  · rw [if_pos below, if_pos below]
  · by_cases above : second.value < first.value
    · rw [if_neg below, if_neg below, if_pos above, if_pos above]
    · have same : first.text = second.text := by
        rw [text, text, Nat.le_antisymm (not_lt.mp above) (not_lt.mp below)]
      rw [if_neg below, if_neg above, if_neg below, if_neg above, same, if_neg (List.lt_irrefl _),
        if_neg (List.lt_irrefl _)]

end PlainNumber

/-! ## The loop -/

/-- The element after the passages have been highlighted. -/
def Element.markedBy (passages : List Passage) (chapter : Nat) (element : Element) : Element :=
  { element with
    highlight := element.highlight || (element.isVerse && element.verse_id.any fun verse =>
      passages.any fun passage => decide (passage.Covers chapter verse)) }

theorem markedBy_nil (chapter : Nat) (element : Element) : element.markedBy [] chapter = element := by
  cases verse : element.verse_id <;> simp [Element.markedBy, verse]

theorem markedBy_cons (passage : Passage) (passages : List Passage) (chapter : Nat) (element : Element) :
    element.markedBy (passage :: passages) chapter =
      (element.markedBy [passage] chapter).markedBy passages chapter := by
  have sameId : ∀ flag, (Element.mk element.id flag).isVerse = element.isVerse ∧
      (Element.mk element.id flag).verse_id = element.verse_id := fun _ => ⟨rfl, rfl⟩
  cases verse : element.verse_id with
  | none => simp [Element.markedBy, sameId, verse]
  | some verse => simp [Element.markedBy, sameId, verse, Bool.and_or_distrib_left, Bool.or_assoc]

/-- A call of `highlight_range` whose bounds say what the passage covers in the chapter. -/
theorem highlight_range_eq {passage : Passage} {chapter : Nat} {verse_start verse_end : ℕ∞}
    (covers : ∀ verse, passage.Covers chapter verse ↔ verse_start ≤ verse ∧ verse ≤ verse_end) (page : List Element) :
    highlight_range (some verse_start) (some verse_end) page = page.map (Element.markedBy [passage] chapter) := by
  apply List.map_congr_left
  intro element _
  cases known : element.verse_id with
  | none => simp [Element.markedBy, known, Number.le]
  | some verse =>
    by_cases inside : verse_start ≤ verse ∧ verse ≤ verse_end
    · cases isVerse : element.isVerse <;> simp [Element.markedBy, known, Number.le, covers, isVerse, inside]
    · have outside : (decide (verse_start ≤ verse) && decide (verse ≤ verse_end)) = false := by
        simpa using inside
      simp [Element.markedBy, known, Number.le, covers, outside]

/-- Outside the chapters of the passage, nothing is covered. -/
theorem map_markedBy_of_not_meets {passage : Passage} {chapter : Nat} (outside : ¬passage.Meets chapter)
    (page : List Element) : page.map (Element.markedBy [passage] chapter) = page := by
  have nothing : ∀ verse, ¬passage.Covers chapter verse := by
    intro verse covered
    rw [Passage.covers_iff] at covered
    apply outside
    exact ⟨by omega, by omega⟩
  apply List.map_id''
  intro element
  cases known : element.verse_id <;> simp [Element.markedBy, known, nothing]

/-- What a passage contributes to the minimum. -/
noncomputable def Passage.contribution (passage : Passage) (chapter : Nat) : ℕ∞ :=
  ⨅ _ : passage.Meets chapter, passage.firstVerse chapter

theorem lowerFirst_some (first verse_start : ℕ∞) :
    lowerFirst (some first) (some verse_start) = some (first ⊓ verse_start) := by
  by_cases lower : verse_start < first
  · simp [lowerFirst, Number.lt, lower, lower.le]
  · simp [lowerFirst, Number.lt, lower, not_lt.mp lower]

theorem highlightStep_passage (passage : Passage) (chapter : PlainNumber) (page : List Element) (first : ℕ∞) :
    highlightStep chapter.text ⟨page, some first⟩ passage.range =
      .ok ⟨page.map (Element.markedBy [passage] chapter.value),
        some (first ⊓ passage.contribution chapter.value)⟩ := by
  simp only [highlightStep, Passage.range, PlainNumber.compare_chapters_text, bind, Except.bind, pure, Except.pure]
  -- the cases are those of the code: which ends of the range lie in the chapter
  by_cases meets : passage.Meets chapter.value
  · have contribution : passage.contribution chapter.value = passage.firstVerse chapter.value := by
      simp [Passage.contribution, meets]
    obtain ⟨afterStart, beforeEnd⟩ := meets
    by_cases starts : passage.chapter_start.value = chapter.value
    · have firstVerse : passage.firstVerse chapter.value = passage.verse_start := if_pos starts
      by_cases ends : chapter.value = passage.chapter_end.value
      · -- the full range is in the chapter
        have covers : ∀ verse, passage.Covers chapter.value verse ↔
            passage.verse_start ≤ verse ∧ verse ≤ passage.verse_end := by
          simp [Passage.covers_iff, starts, ends]
        simp [starts, ← ends, lowerFirst_some, highlight_range_eq covers, contribution, firstVerse]
      · -- the chapter contains the first part of the range
        have before : chapter.value < passage.chapter_end.value := by omega
        have covers : ∀ verse, passage.Covers chapter.value verse ↔ passage.verse_start ≤ verse ∧ verse ≤ ⊤ := by
          simp [Passage.covers_iff, starts, before]
        simp [starts, before, lowerFirst_some, highlight_range_eq covers, contribution, firstVerse]
    · have after : passage.chapter_start.value < chapter.value := by omega
      have firstVerse : passage.firstVerse chapter.value = 0 := if_neg starts
      by_cases ends : chapter.value = passage.chapter_end.value
      · -- the chapter contains the end part of the range
        have covers : ∀ verse, passage.Covers chapter.value verse ↔ 0 ≤ verse ∧ verse ≤ passage.verse_end := by
          simp [Passage.covers_iff, after, ← ends]
        simp [after, after.not_gt, ← ends, highlight_range_eq covers, contribution, firstVerse]
      · -- the chapter is fully contained in the range
        have before : chapter.value < passage.chapter_end.value := by omega
        have covers : ∀ verse, passage.Covers chapter.value verse ↔ 0 ≤ verse ∧ verse ≤ ⊤ := by
          simp [Passage.covers_iff, after, before]
        simp [after, after.not_gt, before, highlight_range_eq covers, contribution, firstVerse]
  · have nothing : passage.contribution chapter.value = ⊤ := by
      simp [Passage.contribution, meets]
    -- before or after the range, where the code goes on to the next one
    rw [map_markedBy_of_not_meets meets, nothing, inf_top_eq]
    by_cases before : chapter.value < passage.chapter_start.value
    · simp [before]
    · have after : passage.chapter_end.value < chapter.value := by
        by_contra notAfter
        exact meets ⟨by omega, by omega⟩
      simp [after, Nat.not_lt.mpr after.le]

theorem highlightRanges_passages (passages : List Passage) (chapter : PlainNumber) (page : List Element) :
    highlightRanges (passages.map Passage.range) chapter.text page =
      .ok ⟨page.map (Element.markedBy passages chapter.value),
        some (⨅ passage ∈ passages, passage.contribution chapter.value)⟩ := by
  suffices general : ∀ page first, (passages.map Passage.range).foldlM (highlightStep chapter.text) ⟨page, some first⟩ =
      .ok ⟨page.map (Element.markedBy passages chapter.value),
        some (first ⊓ ⨅ passage ∈ passages, passage.contribution chapter.value)⟩ by
    rw [highlightRanges, general, top_inf_eq]
  induction passages with
  | nil =>
    intro page first
    have unmarked : page.map (Element.markedBy [] chapter.value) = page := List.map_id'' (markedBy_nil _) page
    simp [unmarked, pure, Except.pure]
  | cons passage passages inductionHypothesis =>
    intro page first
    have marked : (page.map (Element.markedBy [passage] chapter.value)).map (Element.markedBy passages chapter.value) =
        page.map (Element.markedBy (passage :: passages) chapter.value) := by
      rw [List.map_map]
      exact List.map_congr_left fun element _ => (markedBy_cons passage passages chapter.value element).symm
    rw [List.map_cons, List.foldlM_cons, highlightStep_passage]
    simp only [bind, Except.bind]
    rw [inductionHypothesis, marked, inf_assoc]
    simp [iInf_or, iInf_inf_eq]

/-! ## Pages -/

def verseId (number : Nat) : Text := "verse-".toList ++ Nat.toDigits 10 number

/-- A page whose verse elements are numbered, with numbers that JavaScript represents exactly. -/
structure Page where
  elements : List Element
  numbered : ∀ element ∈ elements, element.isVerse = true →
    ∃ number : Nat, toNumber number = number ∧ element.id = verseId number

theorem isVerse_verseId (number : Nat) (flag : Bool) : (Element.mk (verseId number) flag).isVerse = true := by
  rw [Element.isVerse, List.isPrefixOf_iff_prefix]
  exact List.prefix_append _ _

theorem verse_id_verseId (number : Nat) (flag : Bool) :
    (Element.mk (verseId number) flag).verse_id = some (toNumber number) := by
  have isDigits := Decimal.isDigits_toDigits number
  have noDash : '-' ∉ Nat.toDigits 10 number := fun member => absurd (isDigits '-' member) (by decide)
  have split : (verseId number).splitOn '-' = ["verse".toList, Nat.toDigits 10 number] := by
    have shape : verseId number = "verse".toList ++ '-' :: Nat.toDigits 10 number := rfl
    rw [shape, List.splitOn_append_cons_self_of_not_mem (by decide), List.splitOn_eq_singleton noDash]
  rw [Element.verse_id, split]
  change parseInt (Nat.toDigits 10 number) = _
  rw [parseInt_isDigits isDigits Nat.toDigits_ne_nil, Decimal.value_toDigits]

theorem verseId_injective {first second : Nat} (same : verseId first = verseId second) : first = second := by
  have digits : Nat.toDigits 10 first = Nat.toDigits 10 second := List.append_cancel_left same
  rw [← Decimal.value_toDigits first, digits, Decimal.value_toDigits]

/-- An element is marked when it is a verse of one of the passages. -/
theorem Page.markedBy_iff (page : Page) {element : Element} (member : element ∈ page.elements)
    (passages : List Passage) (chapter : Nat) :
    (element.markedBy passages chapter).highlight = true ↔ element.highlight = true ∨
      ∃ number, element.id = verseId number ∧ ∃ passage ∈ passages, passage.Covers chapter number := by
  obtain ⟨id, flag⟩ := element
  cases isVerse : (Element.mk id flag).isVerse with
  | false =>
    have notVerse : ∀ number, id ≠ verseId number := by
      rintro number rfl
      rw [isVerse_verseId] at isVerse
      exact absurd isVerse (by decide)
    simp [Element.markedBy, isVerse, notVerse]
  | true =>
    obtain ⟨number, exact, rfl⟩ := page.numbered _ member isVerse
    have known : (Element.mk (verseId number) flag).verse_id = some (number : ℕ∞) := by
      rw [verse_id_verseId, exact]
    have only : ∀ other, verseId number = verseId other ↔ other = number :=
      fun other => ⟨fun same => (verseId_injective same).symm, fun same => same ▸ rfl⟩
    simp [Element.markedBy, isVerse, known, only]

/-- The verses that are marked are those that lie in one of the passages; the first verse is the least of those
that the passages start with in this chapter; and the order of the passages does not matter. -/
theorem highlight_marks_lexicographic_intervals (passages : List Passage) (chapter : PlainNumber) (page : Page) :
    ∃ found : Highlighted,
      highlightRanges (passages.map Passage.range) chapter.text page.elements = .ok found ∧
      (∀ reference errors, parse_reference reference = .ok ⟨passages.map Passage.range, errors⟩ →
        highlight_reference_for_chapter reference chapter.text page.elements = .ok found) ∧
      List.Forall₂ (fun before after : Element => after.id = before.id ∧
        (after.highlight = true ↔ before.highlight = true ∨ ∃ number : Nat, before.id = verseId number ∧
          ∃ passage ∈ passages,
            toLex (passage.chapter_start.value, passage.verse_start) ≤ toLex (chapter.value, (number : ℕ∞)) ∧
              toLex (chapter.value, (number : ℕ∞)) ≤ toLex (passage.chapter_end.value, passage.verse_end)))
        page.elements found.page ∧
      found.first_verse_id = some (⨅ passage ∈ passages,
        ⨅ _ : passage.chapter_start.value ≤ chapter.value ∧ chapter.value ≤ passage.chapter_end.value,
          if passage.chapter_start.value = chapter.value then passage.verse_start else 0) ∧
      ∀ permuted, passages.Perm permuted →
        highlightRanges (permuted.map Passage.range) chapter.text page.elements = .ok found := by
  refine ⟨_, highlightRanges_passages passages chapter page.elements, ?_, ?_, rfl, ?_⟩
  · intro reference errors parsed
    rw [highlight_reference_for_chapter, parsed]
    exact highlightRanges_passages passages chapter page.elements
  · rw [List.forall₂_map_right_iff, List.forall₂_same]
    intro element member
    exact ⟨rfl, page.markedBy_iff member passages chapter.value⟩
  · intro permuted perm
    have sameAny : ∀ holds : Passage → Bool, permuted.any holds = passages.any holds :=
      fun holds => (perm.any_eq).symm
    have sameMembers : ∀ passage, passage ∈ permuted ↔ passage ∈ passages := fun passage => perm.mem_iff.symm
    have sameMarks : Element.markedBy permuted chapter.value = Element.markedBy passages chapter.value := by
      funext element
      simp only [Element.markedBy, sameAny]
    rw [highlightRanges_passages, sameMarks]
    simp only [sameMembers]

namespace RoundedVerse

def one : PlainNumber := ⟨1, by decide⟩

def passage : Passage := ⟨one, 0, one, (9007199254740992 : Nat)⟩

theorem markedBy_passage : (Element.mk (verseId 9007199254740993) false).markedBy [passage] 1 =
    ⟨verseId 9007199254740993, true⟩ := by
  have covered : passage.Covers 1 (9007199254740992 : Nat) := by
    simp [Passage.covers_iff, passage, one]
  simpa [Element.markedBy, isVerse_verseId, verse_id_verseId, toNumber_first_rounded] using covered

theorem contribution_passage : passage.contribution 1 = 0 := by
  simp [Passage.contribution, Passage.Meets, Passage.firstVerse, passage, one]

/-- 2⁵³ + 1 is read as 2⁵³, so it is marked although it lies behind the end of the only range. -/
theorem highlight_marks_rounded_verse :
    highlightRanges [⟨"1".toList, some 0, "1".toList, some (9007199254740992 : Nat)⟩] "1".toList
        [⟨"verse-9007199254740993".toList, false⟩] =
      .ok ⟨[⟨"verse-9007199254740993".toList, true⟩], some 0⟩ ∧
    ¬(toLex (1, 0) ≤ toLex (1, ((9007199254740993 : Nat) : ℕ∞)) ∧
      toLex (1, ((9007199254740993 : Nat) : ℕ∞)) ≤ toLex (1, ((9007199254740992 : Nat) : ℕ∞))) := by
  constructor
  · have text : one.text = "1".toList := by decide
    have verse : verseId 9007199254740993 = "verse-9007199254740993".toList := by decide
    have found := highlightRanges_passages [passage] one [⟨verseId 9007199254740993, false⟩]
    simp only [List.map_cons, List.map_nil, List.mem_singleton, iInf_iInf_eq_left] at found
    rw [show one.value = 1 from rfl, markedBy_passage, contribution_passage, verse, Passage.range,
      show passage.chapter_start = one from rfl, show passage.chapter_end = one from rfl, text] at found
    exact found
  · simp only [Prod.Lex.toLex_le_toLex, Nat.cast_le]
    decide

end RoundedVerse

end Aelf.Bible
