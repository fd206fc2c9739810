import Aelf.Bible.AnyReference
import Mathlib.Data.List.DropRight

/-! # Groups of a reference

`;` starts a new group.  It is meant to put one reference after another, but a group that
is only a chapter cannot be followed by it, and neither can one that ends in a separator. -/

namespace Aelf.Bible

open Aelf.Library Aelf.Library.JavaScript
open Aelf.Library.Regex

/-- The characters of a number. -/
def isNumeric (c : Char) : Bool := c.isDigit || c.isUpper

/-- What stands after the last `;`. -/
def lastGroup (reference : Text) : Text := reference.rtakeWhile (· ≠ ';')

/-- A bare chapter has neither verses nor a last chapter. -/
def hasVersesOrRange (group : Text) : Bool := group.any fun c => c = ',' || c = '-'

/-- The reference ends in a number, and its last group is not a bare chapter. -/
def EndsGroup (reference : Text) : Prop :=
  (withoutLetters reference).getLast?.any isNumeric = true ∧
    hasVersesOrRange (lastGroup (withoutLetters reference)) = true

instance (reference : Text) : Decidable (EndsGroup reference) := inferInstanceAs (Decidable (_ ∧ _))

/-! ## Where a group may end -/

/-- The same for the rest of a reference, of which a number for this slot comes first. -/
def EndsFrom (slot : Slot) (rest : Text) : Prop :=
  rest.getLast?.any isNumeric = true ∧
    ((slot ≠ .chapter_start ∧ ';' ∉ rest) ∨ hasVersesOrRange (lastGroup rest) = true)

theorem endsGroup_iff {reference : Text} : EndsGroup reference ↔ EndsFrom .chapter_start (withoutLetters reference) := by
  simp [EndsGroup, EndsFrom]

theorem lastGroup_of_notMem {text : Text} (absent : ';' ∉ text) : lastGroup text = text := by
  rw [lastGroup, List.rtakeWhile_eq_self_iff]
  intro c member
  simpa using fun same : c = ';' => absent (same ▸ member)

theorem lastGroup_semicolon (first rest : Text) : lastGroup (first ++ ';' :: rest) = lastGroup rest := by
  rw [lastGroup, lastGroup, List.rtakeWhile, List.rtakeWhile, List.reverse_append, List.reverse_cons, List.append_assoc,
    List.takeWhile_append]
  split
  next whole =>
    -- there is no other `;` in the rest
    have all : rest.reverse.takeWhile (· ≠ ';') = rest.reverse := List.takeWhile_prefix _ |>.eq_of_length whole
    rw [all]
    simp
  next => rfl

theorem isNumeric_numeral (number : Numeral) : ∀ c ∈ number.text, isNumeric c = true := by
  intro c member
  obtain digit | upper := List.mem_append.mp member
  · simp [isNumeric, number.isDigits c digit]
  · simp [isNumeric, number.areUpper c upper]

theorem isNumeric_separator {slot next : Slot} {separator : Char} (isNext : slot.next separator = some next) :
    isNumeric separator = false := by
  have all : ∀ c ∈ [',', '.', '-', ';', '–'], isNumeric c = false := by simp [isNumeric]
  exact all separator (Slot.next_mem isNext)

theorem semicolon_notMem_numeral (number : Numeral) : ';' ∉ number.text := by
  intro member
  have numeric := isNumeric_numeral number _ member
  cases numeric

theorem hasVersesOrRange_numeral (number : Numeral) : hasVersesOrRange number.text = false := by
  rw [hasVersesOrRange, List.any_eq_false]
  intro c member
  have numeric := isNumeric_numeral number c member
  simp only [Bool.or_eq_true, decide_eq_true_eq, not_or]
  refine ⟨?_, ?_⟩ <;> rintro rfl <;> cases numeric

theorem getLast_numeral (number : Numeral) : number.text.getLast?.any isNumeric = true := by
  have nonempty : number.text ≠ [] := by simp [Chapter.text, number.nonempty]
  rw [List.getLast?_eq_getLast_of_ne_nil nonempty]
  exact isNumeric_numeral number _ (List.getLast_mem nonempty)

/-- A number alone ends a group unless it is a chapter that starts one. -/
theorem endsFrom_numeral (slot : Slot) (number : Numeral) : EndsFrom slot number.text ↔ slot ≠ .chapter_start := by
  simp [EndsFrom, getLast_numeral, semicolon_notMem_numeral, lastGroup_of_notMem, hasVersesOrRange_numeral]

theorem Slot.next_eq_chapter_start {slot next : Slot} {separator : Char} (isNext : slot.next separator = some next) :
    next = .chapter_start ↔ separator = ';' := by
  revert isNext
  fun_cases Slot.next slot separator <;> simp +contextual [eq_comm]

theorem Slot.next_of_chapter_start {next : Slot} {separator : Char}
    (isNext : Slot.next .chapter_start separator = some next) : separator = ',' ∨ separator = '-' := by
  by_contra neither
  rw [not_or] at neither
  simp [Slot.next, neither] at isNext

theorem getLast_more {slot next : Slot} {separator : Char} (isNext : slot.next separator = some next) (number : Numeral)
    (rest : Text) : (number.text ++ separator :: rest).getLast?.any isNumeric = rest.getLast?.any isNumeric := by
  cases rest with
  | nil => simp [isNumeric_separator isNext]
  | cons c rest => simp [List.getLast?_eq_some_getLast]

/-- A separator hands the question on to the rest. -/
theorem endsFrom_more {slot next : Slot} {separator : Char} (isNext : slot.next separator = some next)
    (number : Numeral) (rest : Text) :
    EndsFrom slot (number.text ++ separator :: rest) ↔ EndsFrom next rest := by
  rw [EndsFrom, EndsFrom, getLast_more isNext]
  refine and_congr_right fun _ => ?_
  by_cases semicolon : separator = ';'
  -- a new group starts
  · subst semicolon
    simp [lastGroup_semicolon, (Slot.next_eq_chapter_start isNext).mpr rfl]
  · have notStart : next ≠ .chapter_start := fun start => semicolon ((Slot.next_eq_chapter_start isNext).mp start)
    by_cases member : ';' ∈ rest
    · obtain ⟨group, others, rfl⟩ := List.append_of_mem member
      have sameGroup : lastGroup (number.text ++ separator :: (group ++ ';' :: others)) =
          lastGroup (group ++ ';' :: others) := by
        rw [lastGroup_semicolon, ← List.cons_append, ← List.append_assoc, lastGroup_semicolon]
      simp [sameGroup]
    -- the whole text is one group, in which the separator after a chapter can be seen
    · have absent : ';' ∉ number.text ++ separator :: rest := by
        simp [semicolon_notMem_numeral, member, Ne.symm semicolon]
      rw [lastGroup_of_notMem absent, iff_true_right (.inl ⟨notStart, member⟩)]
      by_cases start : slot = .chapter_start
      · subst start
        obtain rfl | rfl := Slot.next_of_chapter_start isNext <;> simp [hasVersesOrRange]
      · exact .inl ⟨start, absent⟩

/-! ## Two runs in one -/

theorem Numeral.before_cons {number : Numeral} {c : Char} {rest : Text} (before : number.Before (c :: rest))
    (otherRest : Text) : number.Before (c :: otherRest) := by
  obtain ⟨stopsDigits, stopsUpper⟩ := before
  refine ⟨?_, by simpa using stopsUpper⟩
  cases letters : number.letters with
  | nil => simpa [letters] using stopsDigits
  | cons letter others => simpa [letters] using stopsDigits

/-- After a number that ends a group, the second reference is read from the start. -/
theorem parseFrom_last_semicolon {tail : Text} {more : List Range} (plain : Plain tail)
    (parsesTail : parseFrom .chapter_start tail = .ok ⟨more, []⟩) (state : ParseState) (number : Numeral) :
    parseFrom state (number.text ++ ';' :: tail) = .ok ⟨state.finish number.text :: more, []⟩ ↔
      state.slot ≠ .chapter_start := by
  have isNext : Slot.next .verse_start ';' = some .chapter_start := rfl
  have plainRest : Plain (';' :: tail) := plain_cons.mpr ⟨rfl, plain⟩
  rw [parseFrom_more (number.before_separator isNext tail) plainRest]
  cases state with
  | chapter_start => simp [transition, continueWith, ParseState.slot]
  | verse_start current => simp [transition, continueWith, ParseState.slot, parsesTail, Except.map, ParseState.finish]
  | verse_end current => simp [transition, continueWith, ParseState.slot, parsesTail, Except.map, ParseState.finish]
  | chapter_end current => simp [transition, continueWith, ParseState.slot, parsesTail, Except.map, ParseState.finish]

theorem continueWith_next_iff {separator : Char} {rest : ParseState → Except ScriptError Parsed} {next : ParseState}
    (pushed : List Range) {ranges : List Range} {errors : List Text} :
    continueWith separator rest (pushed, .next next) = .ok ⟨pushed ++ ranges, errors⟩ ↔
      rest next = .ok ⟨ranges, errors⟩ := by
  constructor
  · intro continued
    obtain ⟨later, parses, same⟩ := continueWith_next continued
    obtain ⟨sameRanges, rfl⟩ := Parsed.mk.inj same
    rw [parses, List.append_cancel_left sameRanges]
  · intro parses
    rw [continueWith, parses]
    rfl

/-- The run on two references is the run on the first one, followed by the run on the second one. -/
theorem parseFrom_semicolon_iff {tail : Text} {more : List Range}
    (parsesTail : parseFrom .chapter_start tail = .ok ⟨more, []⟩) {reference : Text} {state : ParseState}
    {ranges : List Range} (parses : parseFrom state reference = .ok ⟨ranges, []⟩) :
    parseFrom state (reference ++ ';' :: tail) = .ok ⟨ranges ++ more, []⟩ ↔ EndsFrom state.slot reference := by
  have plain := (numbered_of_parseFrom parsesTail).1
  induction reference using reference_induction generalizing state ranges with
  | nil =>
    have unreadable : parseFrom state (';' :: tail) = .error .typeError := parseFrom_unreadable (.inl rfl)
    rw [List.nil_append, unreadable]
    simp [EndsFrom]
  | unreadable c rest unreadable =>
    rw [parseFrom_unreadable unreadable] at parses
    cases parses
  | last number =>
    rw [parseFrom_last] at parses
    cases parses
    rw [endsFrom_numeral, List.singleton_append]
    exact parseFrom_last_semicolon plain parsesTail state number
  | more number separator rest before plainRest inductionHypothesis =>
    rw [parseFrom_more before plainRest] at parses
    -- the loop takes the same steps on the longer text, up to its last number
    have plainWhole : Plain (separator :: (rest ++ ';' :: tail)) := by
      rw [plain_cons] at plainRest ⊢
      exact ⟨plainRest.1, plain_append.mpr ⟨plainRest.2, plain_cons.mpr ⟨rfl, plain⟩⟩⟩
    rw [List.append_assoc, List.cons_append, parseFrom_more (Numeral.before_cons before _) plainWhole]
    obtain ⟨_, moves⟩ | ⟨pushed, next, separates, moves⟩ := transition_separator state number.text separator
    · rw [moves] at parses
      cases parses
    · rw [moves] at parses ⊢
      obtain ⟨later, parsesRest, same⟩ := continueWith_next parses
      obtain ⟨rfl, noError⟩ := Parsed.mk.inj same
      have parsesLater : parseFrom next rest = .ok ⟨later.ranges, []⟩ := by rw [parsesRest, noError]
      rw [List.append_assoc, continueWith_next_iff, endsFrom_more separates]
      exact inductionHypothesis parsesLater

theorem withoutLetters_semicolon (first second : Text) :
    withoutLetters (first ++ ';' :: second) = withoutLetters first ++ ';' :: withoutLetters second := by
  simp [withoutLetters]

/-- References that are read without an error may be joined with `;` exactly when the first one ends a group. -/
theorem parse_reference_semicolon_iff {first second : Text} {ranges more : List Range}
    (parsesFirst : parse_reference first = .ok ⟨ranges, []⟩) (parsesSecond : parse_reference second = .ok ⟨more, []⟩) :
    parse_reference (first ++ ';' :: second) = .ok ⟨ranges ++ more, []⟩ ↔ EndsGroup first := by
  rw [parse_reference_eq] at parsesFirst parsesSecond ⊢
  rw [withoutLetters_semicolon, endsGroup_iff]
  exact parseFrom_semicolon_iff parsesSecond parsesFirst

theorem verse_then_chapter :
    parse_reference ("1,2a".toList ++ ';' :: "3".toList) =
      .ok ⟨[⟨['1'], some 2, ['1'], some 2⟩] ++ [⟨['3'], some 0, ['3'], some ⊤⟩], []⟩ := by
  have parsesFirst : parse_reference "1,2a".toList = .ok ⟨[⟨['1'], some 2, ['1'], some 2⟩], []⟩ := by decide +kernel
  have parsesSecond : parse_reference "3".toList = .ok ⟨[⟨['3'], some 0, ['3'], some ⊤⟩], []⟩ := by decide +kernel
  exact (parse_reference_semicolon_iff parsesFirst parsesSecond).mpr (by decide +kernel)

/-- In `chapter_start` the group separator is an error, so two whole chapters cannot be joined. -/
theorem chapter_then_chapter :
    parse_reference "1".toList = .ok ⟨[⟨['1'], some 0, ['1'], some ⊤⟩], []⟩ ∧
      parse_reference "2".toList = .ok ⟨[⟨['2'], some 0, ['2'], some ⊤⟩], []⟩ ∧
        parse_reference ("1".toList ++ ';' :: "2".toList) = .ok ⟨[], [invalidSeparatorError [';']]⟩ := by
  decide +kernel

end Aelf.Bible
