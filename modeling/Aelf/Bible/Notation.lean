import Aelf.Bible.Reference

/-! # The notation of Bible references

The sentences that `parse_reference` is written for, as syntax trees, with the text
they are written as and the ranges they denote.  The state machine reads every one of
them. -/

namespace Aelf.Bible

open Aelf.Library Aelf.Library.JavaScript

/-! ## Sentences -/

/-- Digits and optional uppercase letters. -/
structure Chapter where
  digits : Text
  letters : Text
  isDigits : Decimal.IsDigits digits
  nonempty : digits ≠ []
  areUpper : ∀ c ∈ letters, c.isUpper = true

/-- Digits, of a number that JavaScript represents exactly (as it does every number below 2⁵³), and optional
lowercase letters. -/
structure Verse where
  digits : Text
  letters : Text
  isDigits : Decimal.IsDigits digits
  nonempty : digits ≠ []
  areLower : ∀ c ∈ letters, c.isLower = true
  exact : toNumber (Decimal.value digits) = Decimal.value digits

inductive Separator where
  | dot
  | comma

mutual
/-- What follows the dash of a cross-chapter range. -/
inductive Tail where
  | chapter (chapter : Chapter)
  | verse (chapter : Chapter) (verse : Verse)
  | verseItems (chapter : Chapter) (verse : Verse) (separator : Separator) (items : Items)
  | items (chapter : Chapter) (items : Items)

/-- Verses of a chapter. -/
inductive Items where
  | verse (verse : Verse)
  | range (first last : Verse)
  | verseItems (verse : Verse) (separator : Separator) (items : Items)
  | rangeItems (first last : Verse) (separator : Separator) (items : Items)
  | cross (verse : Verse) (tail : Tail)
end

inductive Group where
  | chapters (chapter : Chapter) (tail : Tail)
  | verses (chapter : Chapter) (items : Items)

/-- Groups, of which only the last one may be a bare chapter. -/
inductive Reference where
  | bare (chapter : Chapter)
  | last (group : Group)
  | more (group : Group) (reference : Reference)

/-! ## Text -/

def Chapter.text (chapter : Chapter) : Text := chapter.digits ++ chapter.letters

def Verse.text (verse : Verse) : Text := verse.digits ++ verse.letters

def Separator.char : Separator → Char
  | .dot => '.'
  | .comma => ','

section Render

-- How verses are written: with their letters, or without.
variable (verseText : Verse → Text)

mutual
def Tail.render : Tail → Text
  | .chapter chapter => chapter.text
  | .verse chapter verse => chapter.text ++ ',' :: verseText verse
  | .verseItems chapter verse separator items =>
    chapter.text ++ ',' :: (verseText verse ++ separator.char :: items.render)
  | .items chapter items => chapter.text ++ '.' :: items.render

def Items.render : Items → Text
  | .verse verse => verseText verse
  | .range first last => verseText first ++ '-' :: verseText last
  | .verseItems verse separator items => verseText verse ++ separator.char :: items.render
  | .rangeItems first last separator items =>
    verseText first ++ '-' :: (verseText last ++ separator.char :: items.render)
  | .cross verse tail => verseText verse ++ '–' :: tail.render
end

def Group.render : Group → Text
  | .chapters chapter tail => chapter.text ++ '-' :: tail.render verseText
  | .verses chapter items => chapter.text ++ ',' :: items.render verseText

def Reference.render : Reference → Text
  | .bare chapter => chapter.text
  | .last group => group.render verseText
  | .more group reference => group.render verseText ++ ';' :: reference.render

end Render

def Reference.text (reference : Reference) : Text := reference.render Verse.text

/-! ## Denotation -/

def Verse.number (verse : Verse) : Number := some (Decimal.value verse.digits : ℕ∞)

mutual
/-- The ranges of a tail, for a range that started at a chapter and a verse. -/
def Tail.ranges (chapter_start : Text) (verse_start : Number) : Tail → List Range
  | .chapter chapter => [⟨chapter_start, verse_start, chapter.text, some ⊤⟩]
  | .verse chapter verse => [⟨chapter_start, verse_start, chapter.text, verse.number⟩]
  | .verseItems chapter verse _ items =>
    ⟨chapter_start, verse_start, chapter.text, verse.number⟩ :: items.ranges chapter.text
  | .items chapter items => ⟨chapter_start, verse_start, chapter.text, some ⊤⟩ :: items.ranges chapter.text

/-- The ranges of verses in the current chapter. -/
def Items.ranges (chapter : Text) : Items → List Range
  | .verse verse => [⟨chapter, verse.number, chapter, verse.number⟩]
  | .range first last => [⟨chapter, first.number, chapter, last.number⟩]
  | .verseItems verse _ items => ⟨chapter, verse.number, chapter, verse.number⟩ :: items.ranges chapter
  | .rangeItems first last _ items => ⟨chapter, first.number, chapter, last.number⟩ :: items.ranges chapter
  | .cross verse tail => tail.ranges chapter verse.number
end

def Group.ranges : Group → List Range
  | .chapters chapter tail => tail.ranges chapter.text (some 0)
  | .verses chapter items => items.ranges chapter.text

def Reference.ranges : Reference → List Range
  | .bare chapter => [⟨chapter.text, some 0, chapter.text, some ⊤⟩]
  | .last group => group.ranges
  | .more group reference => group.ranges ++ reference.ranges

/-! ## Removing the letters of the verses -/

theorem filter_chapter (chapter : Chapter) : chapter.text.filter (fun c => !c.isLower) = chapter.text := by
  rw [List.filter_eq_self]
  intro c member
  obtain digit | letter := List.mem_append.mp member
  · simp [isLower_of_isDigit (chapter.isDigits c digit)]
  · simp [isLower_of_isUpper (chapter.areUpper c letter)]

theorem filter_verse (verse : Verse) : verse.text.filter (fun c => !c.isLower) = verse.digits := by
  have digits : verse.digits.filter (fun c => !c.isLower) = verse.digits := by
    rw [List.filter_eq_self]
    intro c member
    simp [isLower_of_isDigit (verse.isDigits c member)]
  have letters : verse.letters.filter (fun c => !c.isLower) = [] := by
    rw [List.filter_eq_nil_iff]
    intro c member
    simp [verse.areLower c member]
  rw [Verse.text, List.filter_append, digits, letters, List.append_nil]

theorem filter_separator (separator : Separator) (rest : Text) :
    (separator.char :: rest).filter (fun c => !c.isLower) = separator.char :: rest.filter fun c => !c.isLower := by
  cases separator <;> rfl

mutual
theorem Tail.filter_render (tail : Tail) :
    (tail.render Verse.text).filter (fun c => !c.isLower) = tail.render Verse.digits := by
  cases tail with
  | chapter chapter => simp [Tail.render, filter_chapter]
  | verse chapter verse => simp [Tail.render, filter_chapter, filter_verse]
  | verseItems chapter verse separator items =>
    simp [Tail.render, filter_chapter, filter_verse, filter_separator, items.filter_render]
  | items chapter items => simp [Tail.render, filter_chapter, items.filter_render]

theorem Items.filter_render (items : Items) :
    (items.render Verse.text).filter (fun c => !c.isLower) = items.render Verse.digits := by
  cases items with
  | verse verse => simp [Items.render, filter_verse]
  | range first last => simp [Items.render, filter_verse]
  | verseItems verse separator items => simp [Items.render, filter_verse, filter_separator, items.filter_render]
  | rangeItems first last separator items =>
    simp [Items.render, filter_verse, filter_separator, items.filter_render]
  | cross verse tail => simp [Items.render, filter_verse, tail.filter_render]
end

theorem Group.filter_render (group : Group) :
    (group.render Verse.text).filter (fun c => !c.isLower) = group.render Verse.digits := by
  cases group with
  | chapters chapter tail => simp [Group.render, filter_chapter, tail.filter_render]
  | verses chapter items => simp [Group.render, filter_chapter, items.filter_render]

theorem Reference.filter_render (reference : Reference) :
    (reference.render Verse.text).filter (fun c => !c.isLower) = reference.render Verse.digits := by
  induction reference with
  | bare chapter => simp [Reference.render, filter_chapter]
  | last group => simp [Reference.render, group.filter_render]
  | more group reference inductionHypothesis => simp [Reference.render, group.filter_render, inductionHypothesis]

/-! ## Reading sentences -/

/-- Text that `.` matches all along. -/
def Plain (text : Text) : Prop := ∀ c ∈ text, isAny c = true

@[simp] theorem plain_nil : Plain [] := by
  intro c member
  cases member

@[simp] theorem plain_cons {c : Char} {text : Text} : Plain (c :: text) ↔ isAny c = true ∧ Plain text := by
  simp [Plain]

@[simp] theorem plain_append {first second : Text} : Plain (first ++ second) ↔ Plain first ∧ Plain second := by
  simp [Plain, or_imp, forall_and]

theorem plain_chapter (chapter : Chapter) : Plain chapter.text := by
  rw [Chapter.text, plain_append]
  exact ⟨fun c member => isAny_of_isDigit (chapter.isDigits c member),
    fun c member => isAny_of_isUpper (chapter.areUpper c member)⟩

theorem plain_digits (verse : Verse) : Plain verse.digits :=
  fun c member => isAny_of_isDigit (verse.isDigits c member)

theorem isAny_of_punctuation {c : Char} (punctuation : c ∈ [',', '.', '-', ';', '–']) : isAny c = true := by
  simp only [List.mem_cons, List.not_mem_nil, or_false] at punctuation
  obtain rfl | rfl | rfl | rfl | rfl := punctuation <;> rfl

theorem isAny_separator (separator : Separator) : isAny separator.char = true := by
  cases separator <;> rfl

mutual
theorem Tail.plain_render (tail : Tail) : Plain (tail.render Verse.digits) := by
  cases tail with
  | chapter chapter => simp [Tail.render, plain_chapter]
  | verse chapter verse => simp [Tail.render, plain_chapter, plain_digits, isAny_of_punctuation]
  | verseItems chapter verse separator items =>
    simp [Tail.render, plain_chapter, plain_digits, isAny_separator, items.plain_render,
      isAny_of_punctuation]
  | items chapter items =>
    simp [Tail.render, plain_chapter, items.plain_render, isAny_of_punctuation]

theorem Items.plain_render (items : Items) : Plain (items.render Verse.digits) := by
  cases items with
  | verse verse => simp [Items.render, plain_digits]
  | range first last => simp [Items.render, plain_digits, isAny_of_punctuation]
  | verseItems verse separator items =>
    simp [Items.render, plain_digits, isAny_separator, items.plain_render]
  | rangeItems first last separator items =>
    simp [Items.render, plain_digits, isAny_separator, items.plain_render, isAny_of_punctuation]
  | cross verse tail => simp [Items.render, plain_digits, tail.plain_render, isAny_of_punctuation]
end

theorem Group.plain_render (group : Group) : Plain (group.render Verse.digits) := by
  cases group with
  | chapters chapter tail =>
    simp [Group.render, plain_chapter, tail.plain_render, isAny_of_punctuation]
  | verses chapter items =>
    simp [Group.render, plain_chapter, items.plain_render, isAny_of_punctuation]

/-- Text that a number may be followed by. -/
structure Separated (rest : Text) : Prop where
  digits : Regex.Stops Char.isDigit rest
  uppers : Regex.Stops Char.isUpper rest
  plain : Plain rest

theorem separated_nil : Separated [] := ⟨by simp, by simp, by simp⟩

theorem separated_cons (c : Char) {rest : Text} (isSeparator : c ∈ [',', '.', '-', ';', '–']) (plain : Plain rest) :
    Separated (c :: rest) := by
  have all : ∀ c ∈ [',', '.', '-', ';', '–'], c.isDigit = false ∧ c.isUpper = false := by simp
  obtain ⟨notDigit, notUpper⟩ := all c isSeparator
  exact ⟨by simpa using notDigit, by simpa using notUpper, plain_cons.mpr ⟨isAny_of_punctuation isSeparator, plain⟩⟩

theorem Separator.mem (separator : Separator) : separator.char ∈ [',', '.', '-', ';', '–'] := by
  cases separator <;> decide

theorem Chapter.isNumber (chapter : Chapter) {rest : Text} (separated : Separated rest) :
    IsNumber chapter.text rest := by
  refine ⟨by simp [Chapter.text, chapter.nonempty], ?_⟩
  apply chunk_eq chapter.isDigits chapter.nonempty chapter.areUpper _ separated.uppers separated.plain
  cases letters : chapter.letters with
  | nil => exact separated.digits
  | cons c others =>
    have upper := chapter.areUpper c (by simp [letters])
    simpa using isDigit_of_isUpper upper

theorem Verse.isNumber (verse : Verse) {rest : Text} (separated : Separated rest) :
    IsNumber verse.digits rest := by
  refine ⟨verse.nonempty, ?_⟩
  have read : chunk (verse.digits ++ [] ++ rest) = some (verse.digits ++ [], rest.take 1, rest.drop 1) :=
    chunk_eq verse.isDigits verse.nonempty (by simp) separated.digits separated.uppers separated.plain
  rwa [List.append_nil] at read

theorem Verse.parseInt_digits (verse : Verse) : parseInt verse.digits = verse.number := by
  rw [parseInt_isDigits verse.isDigits verse.nonempty, verse.exact, Verse.number]

/-- What may follow a group: the end, or other groups. -/
structure Follows (after : Text) (later : List Range) : Prop where
  separated : Separated after
  parses : (after = [] ∧ later = []) ∨ ∃ more, after = ';' :: more ∧ Parses .chapter_start more later

/-- The number that ends a group. -/
theorem parses_end {state : ParseState} {number after : Text} {range : Range} {later : List Range}
    (follows : Follows after later) (isNumber : IsNumber number after)
    (stops : transition state number [] = ([range], .stop))
    (restarts : transition state number [';'] = ([range], .next .chapter_start)) :
    Parses state (number ++ after) (range :: later) := by
  obtain ⟨rfl, rfl⟩ | ⟨more, rfl, parses⟩ := follows.parses
  · rw [List.append_nil]
    exact parses_last isNumber stops
  · exact parses_push isNumber restarts parses

theorem plain_verse (verse : Verse) {rest : Text} (plain : Plain rest) : Plain (verse.digits ++ rest) :=
  plain_append.mpr ⟨plain_digits verse, plain⟩

theorem plain_items (items : Items) {after : Text} {later : List Range} (follows : Follows after later) :
    Plain (items.render Verse.digits ++ after) :=
  plain_append.mpr ⟨items.plain_render, follows.separated.plain⟩

theorem plain_tail (tail : Tail) {after : Text} {later : List Range} (follows : Follows after later) :
    Plain (tail.render Verse.digits ++ after) :=
  plain_append.mpr ⟨tail.plain_render, follows.separated.plain⟩

theorem transition_verse_start (verse : Verse) (separator : Separator) (chapter : Text)
    (verse_start verse_end : Number) :
    transition (.verse_start ⟨chapter, verse_start, chapter, verse_end⟩) verse.digits [separator.char] =
      ([⟨chapter, verse.number, chapter, verse.number⟩], .next (.verse_start ⟨chapter, some 0, chapter, some 0⟩)) := by
  cases separator <;> simp [transition, Separator.char, nextCurrent, verse.parseInt_digits]

theorem transition_dash (verse : Verse) (chapter : Text) (verse_start verse_end : Number) :
    transition (.verse_start ⟨chapter, verse_start, chapter, verse_end⟩) verse.digits ['-'] =
      ([], .next (.verse_end ⟨chapter, verse.number, chapter, verse.number⟩)) := by
  simp [transition, verse.parseInt_digits]

theorem transition_longDash (verse : Verse) (chapter : Text) (verse_start verse_end : Number) :
    transition (.verse_start ⟨chapter, verse_start, chapter, verse_end⟩) verse.digits ['–'] =
      ([], .next (.chapter_end ⟨chapter, verse.number, chapter, some ⊤⟩)) := by
  simp [transition, verse.parseInt_digits]

theorem transition_verse_end (verse : Verse) (separator : Separator) (current : Range) :
    transition (.verse_end current) verse.digits [separator.char] =
      ([{ current with verse_end := verse.number }],
        .next (.verse_start ⟨current.chapter_end, some 0, current.chapter_end, some 0⟩)) := by
  cases separator <;> simp [transition, Separator.char, nextCurrent, verse.parseInt_digits]

/-- In `verse_end`, a verse finishes the range that the state holds. -/
theorem parses_verse_end (verse : Verse) (current : Range) {after : Text} {later : List Range}
    (follows : Follows after later) :
    Parses (.verse_end current) (verse.digits ++ after) ({ current with verse_end := verse.number } :: later) := by
  apply parses_end follows (verse.isNumber follows.separated)
  · simp [transition, verse.parseInt_digits]
  · simp [transition, verse.parseInt_digits]

mutual
/-- In `chapter_end`, a tail finishes the range that the state holds. -/
theorem Tail.parses (tail : Tail) {after : Text} {later : List Range} (follows : Follows after later)
    (chapter_start : Text) (verse_start : Number) (chapter_end : Text) (verse_end : Number) :
    Parses (.chapter_end ⟨chapter_start, verse_start, chapter_end, verse_end⟩) (tail.render Verse.digits ++ after)
      (tail.ranges chapter_start verse_start ++ later) := by
  cases tail with
  | chapter chapter => exact parses_end follows (chapter.isNumber follows.separated) rfl rfl
  | verse chapter verse =>
    have isNumber := chapter.isNumber (separated_cons ',' (by simp) (plain_verse verse follows.separated.plain))
    rw [Tail.render, List.append_assoc, List.cons_append]
    exact parses_silent isNumber rfl (parses_verse_end verse _ follows)
  | verseItems chapter verse separator items =>
    have separated := separated_cons _ separator.mem (plain_items items follows)
    have isNumber := chapter.isNumber (separated_cons ',' (by simp) (plain_verse verse separated.plain))
    have rest := items.parses follows chapter.text (some 0) (some 0)
    rw [Tail.render, List.append_assoc, List.cons_append, List.append_assoc, List.cons_append]
    apply parses_silent isNumber rfl
    exact parses_push (verse.isNumber separated) (transition_verse_end verse separator _) rest
  | items chapter items =>
    have isNumber := chapter.isNumber (separated_cons '.' (by simp) (plain_items items follows))
    rw [Tail.render, List.append_assoc, List.cons_append]
    exact parses_push isNumber rfl (items.parses follows chapter.text (some 0) (some 0))

/-- In `verse_start`, items are verses of the chapter that the state holds. -/
theorem Items.parses (items : Items) {after : Text} {later : List Range} (follows : Follows after later)
    (chapter : Text) (verse_start verse_end : Number) :
    Parses (.verse_start ⟨chapter, verse_start, chapter, verse_end⟩) (items.render Verse.digits ++ after)
      (items.ranges chapter ++ later) := by
  -- the verses of `current` are overwritten by the first number, so they may be anything
  cases items with
  | verse verse =>
    apply parses_end follows (verse.isNumber follows.separated)
    · simp [transition, verse.parseInt_digits]
    · simp [transition, verse.parseInt_digits]
  | range first last =>
    have isNumber := first.isNumber (separated_cons '-' (by simp) (plain_verse last follows.separated.plain))
    rw [Items.render, List.append_assoc, List.cons_append]
    apply parses_silent isNumber (transition_dash first chapter _ _)
    exact parses_verse_end last _ follows
  | verseItems verse separator items =>
    have isNumber := verse.isNumber (separated_cons _ separator.mem (plain_items items follows))
    rw [Items.render, List.append_assoc, List.cons_append]
    exact parses_push isNumber (transition_verse_start verse separator chapter _ _)
      (items.parses follows chapter (some 0) (some 0))
  | rangeItems first last separator items =>
    have separated := separated_cons _ separator.mem (plain_items items follows)
    have isNumber := first.isNumber (separated_cons '-' (by simp) (plain_verse last separated.plain))
    rw [Items.render, List.append_assoc, List.cons_append, List.append_assoc, List.cons_append]
    apply parses_silent isNumber (transition_dash first chapter _ _)
    exact parses_push (last.isNumber separated) (transition_verse_end last separator _)
      (items.parses follows chapter (some 0) (some 0))
  | cross verse tail =>
    have isNumber := verse.isNumber (separated_cons '–' (by simp) (plain_tail tail follows))
    rw [Items.render, List.append_assoc, List.cons_append]
    -- the chapter changes in the tail, and with it the chapter of the items after it
    apply parses_silent isNumber (transition_longDash verse chapter _ _)
    exact tail.parses follows chapter verse.number chapter (some ⊤)
end

theorem Group.parses (group : Group) {after : Text} {later : List Range} (follows : Follows after later) :
    Parses .chapter_start (group.render Verse.digits ++ after) (group.ranges ++ later) := by
  cases group with
  | chapters chapter tail =>
    have isNumber := chapter.isNumber (separated_cons '-' (by simp) (plain_tail tail follows))
    rw [Group.render, List.append_assoc, List.cons_append]
    exact parses_silent isNumber rfl (tail.parses follows _ _ _ _)
  | verses chapter items =>
    have isNumber := chapter.isNumber (separated_cons ',' (by simp) (plain_items items follows))
    rw [Group.render, List.append_assoc, List.cons_append]
    exact parses_silent isNumber rfl (items.parses follows _ _ _)

theorem Reference.plain_render (reference : Reference) : Plain (reference.render Verse.digits) := by
  induction reference with
  | bare chapter => exact plain_chapter chapter
  | last group => exact group.plain_render
  | more group reference inductionHypothesis =>
    rw [Reference.render, plain_append, plain_cons]
    exact ⟨group.plain_render, by decide, inductionHypothesis⟩

theorem Reference.parses (reference : Reference) :
    Parses .chapter_start (reference.render Verse.digits) reference.ranges := by
  induction reference with
  | bare chapter => exact parses_last (chapter.isNumber separated_nil) rfl
  | last group =>
    have parses := group.parses ⟨separated_nil, .inl ⟨rfl, rfl⟩⟩
    rwa [List.append_nil, List.append_nil] at parses
  | more group reference inductionHypothesis =>
    have separated := separated_cons ';' (by simp) reference.plain_render
    exact group.parses ⟨separated, .inr ⟨_, rfl, inductionHypothesis⟩⟩

theorem Reference.removeAll_text (reference : Reference) :
    Regex.removeAll (.star (.satisfies Char.isLower)) reference.text = reference.render Verse.digits := by
  rw [Regex.removeAll_star, Reference.text, Reference.filter_render]

/-- Every sentence is read without an error and yields exactly the ranges that it denotes. -/
theorem parse_reference_sentence (reference : Reference) :
    parse_reference reference.text = .ok ⟨reference.ranges, []⟩ := by
  rw [parse_reference, reference.removeAll_text]
  exact reference.parses _ (Nat.le_refl _)

example : parse_reference "19,25-27a.30;20".toList = .ok ⟨[⟨"19".toList, some 25, "19".toList, some 27⟩,
    ⟨"19".toList, some 30, "19".toList, some 30⟩, ⟨"20".toList, some 0, "20".toList, some ⊤⟩], []⟩ := by
  decide +kernel

end Aelf.Bible
