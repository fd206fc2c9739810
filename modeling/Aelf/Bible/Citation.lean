import Aelf.Bible.Linkify
import Mathlib.Data.List.Induction

/-! # Citations

The references of the readings, as they are written in the offices: a book, a chapter,
its number in the other numbering, and verses.  Every one of them becomes a link. -/

namespace Aelf.Bible

open Aelf.Library Aelf.Library.JavaScript
open Aelf.Library.Regex

/-! ## Syntax -/

structure Spaces where
  text : Text
  areSpaces : ∀ c ∈ text, isSpace c = true

structure Digits where
  text : Text
  isDigits : Decimal.IsDigits text
  nonempty : text ≠ []

inductive BookNumber where
  | one
  | two
  | three

inductive VerseItem where
  | verse (verse : Verse)
  | range (first last : Verse)

inductive VerseList where
  | last (item : VerseItem)
  | more (item : VerseItem) (before : Spaces) (separator : Separator) (after : Spaces) (verses : VerseList)

structure Citation where
  number : Option (BookNumber × Spaces)
  book : Text
  bookLetters : ∀ c ∈ book, c.isAlpha = true
  bookNonempty : book ≠ []
  notCantique : ¬"CANTIQUE".toList <+: book
  afterBook : Spaces
  chapter : Digits
  alternate : Option (Spaces × Digits)
  verses : Option (Spaces × VerseList)

/-- What may precede a citation.  No match of the extractor can start in it. -/
structure Lead where
  text : Text
  plain : Plain text
  noDigit : ∀ c ∈ text, c.isDigit = false
  ends : (∀ c ∈ text, isSpace c = true) ∨ ∃ start last spaces, text = start ++ last :: spaces ∧
    isWordChar last = false ∧ isSpace last = false ∧ ∀ c ∈ spaces, isSpace c = true

/-! ## Text -/

def BookNumber.char : BookNumber → Char
  | .one => '1'
  | .two => '2'
  | .three => '3'

def VerseItem.text : VerseItem → Text
  | .verse single => single.text
  | .range first last => first.text ++ '-' :: last.text

def VerseList.text : VerseList → Text
  | .last item => item.text
  | .more item before separator after verses =>
    item.text ++ (before.text ++ separator.char :: (after.text ++ verses.text))

namespace Citation

def numberText (citation : Citation) : Text :=
  match citation.number with
  | none => []
  | some (number, spaces) => number.char :: spaces.text

def alternateText (citation : Citation) : Text :=
  match citation.alternate with
  | none => []
  | some (spaces, digits) => spaces.text ++ '(' :: (digits.text ++ [')'])

def versesText (citation : Citation) : Text :=
  match citation.verses with
  | none => []
  | some (spaces, verses) => ',' :: (spaces.text ++ verses.text)

def textAfterBook (citation : Citation) : Text :=
  citation.afterBook.text ++ (citation.chapter.text ++ (citation.alternateText ++ citation.versesText))

def text (citation : Citation) : Text :=
  citation.numberText ++ (citation.book ++ citation.textAfterBook)

end Citation

/-! ## Denotation -/

def VerseList.items : VerseList → Items
  | .last (.verse single) => .verse single
  | .last (.range first final) => .range first final
  | .more (.verse single) _ separator _ verses => .verseItems single separator verses.items
  | .more (.range first final) _ separator _ verses => .rangeItems first final separator verses.items

namespace Citation

/-- The number of the book, and its name with only the first letter in upper case. -/
def bookRef (citation : Citation) : Text :=
  (citation.number.map fun number => number.1.char).toList ++ capitalize (toLowerCase citation.book)

def chapterRef (citation : Citation) : Text := citation.chapter.text

/-- The verses of the chapter, or all of it. -/
def ranges (citation : Citation) : List Range :=
  match citation.verses with
  | none => [⟨citation.chapterRef, some 0, citation.chapterRef, some ⊤⟩]
  | some (_, verses) => verses.items.ranges citation.chapterRef

end Citation

/-! ## Lists of verses -/

/-- What the inner repetition of the extractor reads, up to a verse. -/
inductive IsVerseText : Text → Prop where
  | last {digits letters : Text} (isDigits : Decimal.IsDigits digits) (nonempty : digits ≠ [])
      (areLower : ∀ c ∈ letters, c.isLower = true) : IsVerseText (digits ++ letters)
  | separator {c : Char} {text : Text} (isSeparator : isListChar c = true) (isVerseText : IsVerseText text) :
      IsVerseText (c :: text)
  | verse {digits letters : Text} {c : Char} {text : Text} (isDigits : Decimal.IsDigits digits)
      (nonempty : digits ≠ []) (areLower : ∀ c ∈ letters, c.isLower = true) (isSeparator : isListChar c = true)
      (isVerseText : IsVerseText (c :: text)) : IsVerseText (digits ++ (letters ++ c :: text))

theorem isListChar_cases {c : Char} (isSeparator : isListChar c = true) :
    c.isDigit = false ∧ c.isLower = false := by
  have outside : ¬(48 ≤ c.toNat ∧ c.toNat ≤ 57) ∧ ¬(97 ≤ c.toNat ∧ c.toNat ≤ 122) := by
    simp only [isListChar, isSpace, Bool.or_eq_true, decide_eq_true_eq, List.mem_cons, List.not_mem_nil, or_false,
      Bool.and_eq_true] at isSeparator
    obtain ((rfl | space) | rfl) | rfl := isSeparator
    · decide
    · omega
    · decide
    · decide
  exact ⟨by rw [← Bool.not_eq_true, isDigit_iff]; exact outside.1,
    by rw [← Bool.not_eq_true, isLower_iff]; exact outside.2⟩

theorem isListChar_of_isDigit {c : Char} (digit : c.isDigit = true) : isListChar c = false :=
  Bool.eq_false_iff.mpr fun isSeparator => by simp [(isListChar_cases isSeparator).1] at digit

theorem isListChar_of_isLower {c : Char} (lower : c.isLower = true) : isListChar c = false :=
  Bool.eq_false_iff.mpr fun isSeparator => by simp [(isListChar_cases isSeparator).2] at lower

section VerseTexts

variable {next : State → Option State} {before : Text} {captures : Nat → Option Text} {holds : State → Prop}

/-- `[a-z0-9]\b`, and what follows it. -/
def verseEnd (next : State → Option State) : State → Option State :=
  (Regex.sequence [.satisfies isVerseChar, .wordBoundary]).run next

theorem run_verseListPattern_digit {c : Char} (digit : c.isDigit = true) (rest : Text) :
    verseListPattern.run next ⟨before, c :: rest, captures⟩ =
      (Regex.star (.satisfies Char.isDigit)).run ((Regex.star (.satisfies Char.isLower)).run next)
        ⟨c :: before, rest, captures⟩ := by
  rw [verseListPattern, run_alt, run_satisfies_cons, isListChar_of_isDigit digit, if_neg (by decide), Option.none_or,
    run_seq, run_plus, run_satisfies_cons, if_pos digit]

theorem run_verseList_nil :
    (Regex.star verseListPattern).run (verseEnd next) ⟨before, [], captures⟩ = none := by
  rw [run_star]
  rfl

theorem afterProgress_nil {state : State} :
    afterProgress state ((Regex.star verseListPattern).run (verseEnd next)) ⟨before, [], captures⟩ = none := by
  rw [afterProgress, run_verseList_nil, ite_self]

theorem yields_afterProgress {state later : State} (shorter : later.after.length < state.after.length)
    (yields : Yields (next later) holds) : Yields (afterProgress state next later) holds := by
  rw [afterProgress, if_pos shorter]
  exact yields

/-- The last character of the verses is left for the end of the pattern. -/
theorem yields_verseList_single {c : Char} (isVerse : isVerseChar c = true)
    (succeeds : Yields (next ⟨c :: before, [], captures⟩) holds) :
    Yields ((Regex.star verseListPattern).run (verseEnd next) ⟨before, [c], captures⟩) holds := by
  have isWord : isWordChar c = true := by
    cases Bool.or_eq_true_iff.mp isVerse with
    | inl lower => exact isWordChar_of_isAlpha (isAlpha_of_isLower lower)
    | inr digit => simp [isWordChar, Char.isAlphanum, digit]
  have ended : verseEnd next ⟨before, [c], captures⟩ = next ⟨c :: before, [], captures⟩ := by
    rw [verseEnd, run_sequence_cons, run_satisfies_cons, if_pos isVerse, run_sequence_cons]
    simp [Regex.run, atWordBoundary, isWord, run_sequence_nil]
  rw [run_star, ended]
  apply succeeds.or_right
  -- another iteration would reach the end of the text, where no verse is left
  cases Bool.or_eq_true_iff.mp isVerse with
  | inl lower =>
    rw [verseListPattern, run_alt, run_satisfies_cons, isListChar_of_isLower lower, if_neg (by decide), run_seq,
      run_plus, run_satisfies_cons, isDigit_of_isLower lower, if_neg (by decide)]
    rfl
  | inr digit =>
    rw [run_verseListPattern_digit digit, run_star_of_stops stops_nil, run_star_of_stops stops_nil, afterProgress_nil]

/-- The last verse: its last letter or its last digit is given back. -/
theorem yields_verseList_last {digits letters : Text} (isDigits : Decimal.IsDigits digits) (nonempty : digits ≠ [])
    (areLower : ∀ c ∈ letters, c.isLower = true)
    (succeeds : Yields (next ⟨(digits ++ letters).reverse ++ before, [], captures⟩) holds) :
    Yields ((Regex.star verseListPattern).run (verseEnd next) ⟨before, digits ++ letters, captures⟩) holds := by
  cases digits with
  | nil => exact absurd rfl nonempty
  | cons first others =>
    have firstDigit := isDigits first (by simp)
    have othersDigits : ∀ c ∈ others, c.isDigit = true := fun c member => isDigits c (by simp [member])
    cases letters using List.reverseRecOn with
    | append_singleton letters letter =>
      -- the letters give the last one back
      have isLetter : letter.isLower = true := areLower letter (by simp)
      have stopsDigits : Stops Char.isDigit (letters ++ [letter]) := by
        cases letters with
        | nil => simpa using isDigit_of_isLower isLetter
        | cons c letters => simpa using isDigit_of_isLower (areLower c (by simp))
      rw [run_star, List.cons_append, run_verseListPattern_digit firstDigit]
      apply Yields.or_left
      apply yields_star_longest othersDigits stopsDigits
      apply yields_star_giveBack (fun c member => areLower c (by simp [member])) isLetter stops_nil afterProgress_nil
      apply yields_afterProgress (by simp)
      exact yields_verseList_single (by simp [isVerseChar, isLetter]) (by simpa using succeeds)
    | nil =>
      cases others using List.reverseRecOn with
      | nil => exact yields_verseList_single (by simp [isVerseChar, firstDigit]) (by simpa using succeeds)
      | append_singleton others digit =>
        -- without letters it is the digits that do, and a last iteration on that digit fails
        have isDigit : digit.isDigit = true := othersDigits digit (by simp)
        rw [run_star, List.cons_append, run_verseListPattern_digit firstDigit]
        apply Yields.or_left
        rw [List.append_nil]
        apply yields_star_giveBack (fun c member => othersDigits c (by simp [member])) isDigit stops_nil
        · rw [run_star_of_stops stops_nil, afterProgress_nil]
        · rw [run_star_of_stops (by simpa using isLower_of_isDigit isDigit)]
          apply yields_afterProgress (by simp)
          exact yields_verseList_single (by simp [isVerseChar, isDigit]) (by simpa using succeeds)

theorem yields_verseList {text : Text} (isVerseText : IsVerseText text)
    (succeeds : Yields (next ⟨text.reverse ++ before, [], captures⟩) holds) :
    Yields ((Regex.star verseListPattern).run (verseEnd next) ⟨before, text, captures⟩) holds := by
  induction isVerseText generalizing before with
  | @last digits letters isDigits nonempty areLower => exact yields_verseList_last isDigits nonempty areLower succeeds
  | @separator c text isSeparator isVerseText inductionHypothesis =>
    rw [run_star, verseListPattern, run_alt, run_satisfies_cons, if_pos isSeparator]
    apply Yields.or_left
    apply Yields.or_left
    exact yields_afterProgress (by simp) (inductionHypothesis (by simpa using succeeds))
  | @verse digits letters c text isDigits nonempty areLower isSeparator isVerseText inductionHypothesis =>
    cases digits with
    | nil => exact absurd rfl nonempty
    | cons first others =>
      have separated := isListChar_cases isSeparator
      have stopsDigits : Stops Char.isDigit (letters ++ c :: text) := by
        cases letters with
        | nil => simpa using separated.1
        | cons letter letters => simpa using isDigit_of_isLower (areLower letter (by simp))
      rw [run_star, List.cons_append, run_verseListPattern_digit (isDigits first (by simp))]
      apply Yields.or_left
      apply yields_star_longest (fun c member => isDigits c (by simp [member])) stopsDigits
      apply yields_star_longest areLower (by simpa using separated.2)
      apply yields_afterProgress (by simp; omega)
      exact inductionHypothesis (by simpa using succeeds)

end VerseTexts

theorem isListChar_of_isSpace {c : Char} (space : isSpace c = true) : isListChar c = true := by
  simp [isListChar, space]

theorem isListChar_separator (separator : Separator) : isListChar separator.char = true := by
  cases separator <;> decide

theorem Spaces.isVerseText (spaces : Spaces) {text : Text} (isVerseText : IsVerseText text) :
    IsVerseText (spaces.text ++ text) := by
  obtain ⟨spaces, areSpaces⟩ := spaces
  induction spaces with
  | nil => exact isVerseText
  | cons c spaces inductionHypothesis =>
    exact .separator (isListChar_of_isSpace (areSpaces c (by simp)))
      (inductionHypothesis fun c member => areSpaces c (by simp [member]))

theorem Verse.isVerseText (verse : Verse) : IsVerseText verse.text :=
  .last verse.isDigits verse.nonempty verse.areLower

/-- A verse that a list goes on after. -/
theorem Verse.isVerseText_append (verse : Verse) {c : Char} {text : Text} (isSeparator : isListChar c = true)
    (isVerseText : IsVerseText (c :: text)) : IsVerseText (verse.text ++ c :: text) := by
  rw [Verse.text, List.append_assoc]
  exact .verse verse.isDigits verse.nonempty verse.areLower isSeparator isVerseText

theorem VerseItem.isVerseText (item : VerseItem) : IsVerseText item.text := by
  cases item with
  | verse single => exact single.isVerseText
  | range first last =>
    exact first.isVerseText_append (by decide) (.separator (by decide) last.isVerseText)

theorem VerseItem.isVerseText_append (item : VerseItem) {c : Char} {text : Text} (isSeparator : isListChar c = true)
    (isVerseText : IsVerseText (c :: text)) : IsVerseText (item.text ++ c :: text) := by
  cases item with
  | verse single => exact single.isVerseText_append isSeparator isVerseText
  | range first last =>
    have rest := last.isVerseText_append isSeparator isVerseText
    rw [VerseItem.text, List.append_assoc, List.cons_append]
    exact first.isVerseText_append (by decide) (.separator (by decide) rest)

theorem VerseList.isVerseText (verses : VerseList) : IsVerseText verses.text := by
  induction verses with
  | last item => exact item.isVerseText
  | more item before separator after verses inductionHypothesis =>
    have rest : IsVerseText (separator.char :: (after.text ++ verses.text)) :=
      .separator (isListChar_separator separator) (after.isVerseText inductionHypothesis)
    rw [VerseList.text]
    obtain ⟨spaces, areSpaces⟩ := before
    cases spaces with
    | nil => exact item.isVerseText_append (isListChar_separator separator) rest
    | cons c spaces =>
      have spaced : IsVerseText (c :: spaces ++ separator.char :: (after.text ++ verses.text)) :=
        Spaces.isVerseText ⟨c :: spaces, areSpaces⟩ rest
      exact item.isVerseText_append (isListChar_of_isSpace (areSpaces c (by simp))) spaced

/-! ## Reading a citation -/

theorem isDigit_of_isBookNumber {c : Char} (isNumber : isBookNumber c = true) : c.isDigit = true := by
  simp only [isBookNumber, Bool.or_eq_true, decide_eq_true_eq] at isNumber
  obtain (rfl | rfl) | rfl := isNumber <;> rfl

/-- The parts of the reference pattern from the book on, and what follows it. -/
def runFromBook (next : State → Option State) : State → Option State :=
  (Regex.plus (.satisfies Char.isAlpha)).run <| (Regex.star (.satisfies isWordChar)).run <|
    (Regex.star (.satisfies isSpace)).run <| (Regex.plus (.satisfies Char.isDigit)).run <|
      alternatePattern.run <| versesPattern.run next

/-- The parts after the letters of the book. -/
def runAfterBook (next : State → Option State) : State → Option State :=
  (Regex.star (.satisfies isWordChar)).run <| (Regex.star (.satisfies isSpace)).run <|
    (Regex.plus (.satisfies Char.isDigit)).run <| alternatePattern.run <| versesPattern.run next

theorem run_referencePattern (next : State → Option State) (state : State) :
    referencePattern.run next state = bookNumberPattern.run (runFromBook next) state := rfl

namespace Citation

variable {next : State → Option State} {before : Text} {captures : Nat → Option Text} {holds : State → Prop}

theorem yields_versesText (citation : Citation)
    (succeeds : Yields (next ⟨citation.versesText.reverse ++ before, [], captures⟩) holds) :
    Yields (versesPattern.run next ⟨before, citation.versesText, captures⟩) holds := by
  cases present : citation.verses with
  | none =>
    have absent : citation.versesText = [] := by rw [versesText, present]
    rw [absent] at succeeds ⊢
    rw [versesPattern, run_opt]
    exact succeeds.or_right rfl
  | some verses =>
    obtain ⟨spaces, verses⟩ := verses
    have text : citation.versesText = ',' :: (spaces.text ++ verses.text) := by rw [versesText, present]
    rw [text] at succeeds ⊢
    rw [versesPattern, run_opt, run_sequence_cons, run_character_self,
      run_sequence_cons]
    apply Yields.or_left
    apply yields_verseList (spaces.isVerseText verses.isVerseText)
    simpa using succeeds

theorem stops_versesText (citation : Citation) {accepts : Char → Bool} (notComma : accepts ',' = false) :
    Stops accepts citation.versesText := by
  cases present : citation.verses with
  | none => simp [versesText, present]
  | some verses => simpa [versesText, present] using notComma

theorem yields_alternateText (citation : Citation)
    (succeeds : Yields (next ⟨citation.alternateText.reverse ++ before, citation.versesText, captures⟩) holds) :
    Yields (alternatePattern.run next ⟨before, citation.alternateText ++ citation.versesText, captures⟩) holds := by
  cases present : citation.alternate with
  | none =>
    have absent : citation.alternateText = [] := by rw [alternateText, present]
    rw [absent] at succeeds ⊢
    rw [alternatePattern, run_opt, List.nil_append]
    apply succeeds.or_right
    -- without a parenthesis the optional part fails at the comma or at the end
    rw [run_sequence_cons, run_star_of_stops (citation.stops_versesText (by decide)), run_sequence_cons]
    cases text : citation.versesText with
    | nil => rw [run_character_nil]
    | cons c rest =>
      have notParenthesis : Stops (fun c => c = '(') citation.versesText := citation.stops_versesText (by decide)
      rw [text] at notParenthesis
      rw [run_character_of_ne _ _ _ _ (by simpa using notParenthesis)]
  | some alternate =>
    obtain ⟨spaces, digits, isDigits, nonempty⟩ := alternate
    have text : citation.alternateText = spaces.text ++ '(' :: (digits ++ [')']) := by rw [alternateText, present]
    cases digits with
    | nil => exact absurd rfl nonempty
    | cons first others =>
      rw [text] at succeeds ⊢
      rw [alternatePattern, run_opt, run_sequence_cons, List.append_assoc]
      apply Yields.or_left
      apply yields_star_longest spaces.areSpaces (by simp; decide)
      rw [List.cons_append, run_sequence_cons, run_character_self, run_sequence_cons,
        run_plus, List.cons_append, List.cons_append, run_satisfies_cons, if_pos (isDigits first (by simp)),
        List.append_assoc]
      apply yields_star_longest (fun c member => isDigits c (by simp [member])) (by simp)
      rw [List.cons_append, run_sequence_cons, run_character_self, run_sequence_nil]
      simpa using succeeds

/-- After the chapter come spaces, and then no word character. -/
theorem after_chapter (citation : Citation) :
    ∃ spaces rest, citation.alternateText ++ citation.versesText = spaces ++ rest ∧
      (∀ c ∈ spaces, isSpace c = true) ∧ Stops isSpace rest ∧ Stops isWordChar rest := by
  cases present : citation.alternate with
  | none =>
    exact ⟨[], citation.versesText, by rw [alternateText, present], by simp, citation.stops_versesText (by decide),
      citation.stops_versesText (by decide)⟩
  | some alternate =>
    obtain ⟨spaces, digits⟩ := alternate
    have text : citation.alternateText = spaces.text ++ '(' :: (digits.text ++ [')']) := by rw [alternateText, present]
    refine ⟨spaces.text, '(' :: (digits.text ++ [')']) ++ citation.versesText, ?_, spaces.areSpaces, ?_, ?_⟩
    · rw [text, List.append_assoc]
    · simp
      decide
    · simp
      decide

theorem stops_after_chapter (citation : Citation) :
    Stops isWordChar (citation.alternateText ++ citation.versesText) := by
  obtain ⟨spaces, rest, split, areSpaces, _, stops⟩ := citation.after_chapter
  rw [split]
  cases spaces with
  | nil => exact stops
  | cons c spaces => simpa using isWordChar_of_isSpace (areSpaces c (by simp))

/-- No chapter can be read after the chapter. -/
theorem run_digits_after_chapter (citation : Citation) (next : State → Option State) :
    (Regex.star (.satisfies isSpace)).run ((Regex.plus (.satisfies Char.isDigit)).run next)
      ⟨before, citation.alternateText ++ citation.versesText, captures⟩ = none := by
  obtain ⟨spaces, rest, split, areSpaces, stopsSpaces, stops⟩ := citation.after_chapter
  rw [split]
  apply run_star_eq_none stopsSpaces
  intro taken left isSplit
  cases left with
  | nil =>
    cases rest with
    | nil => rw [run_plus, List.nil_append, run_satisfies_nil]
    | cons c rest =>
      have notDigit : Stops Char.isDigit (c :: rest) := stops.mono fun c => isWordChar_of_isDigit
      rw [run_plus, List.nil_append, run_satisfies_cons, if_neg (by simpa using notDigit)]
  | cons c left =>
    have space : isSpace c = true := areSpaces c (by simp [isSplit])
    have notDigit : c.isDigit = false :=
      Bool.eq_false_iff.mpr fun digit => by simp [isSpace_of_isDigit digit] at space
    rw [run_plus, List.cons_append, run_satisfies_cons, if_neg (by simp [notDigit])]

theorem yields_afterChapter (citation : Citation)
    (succeeds : Yields (next ⟨(citation.alternateText ++ citation.versesText).reverse ++ before, [], captures⟩) holds) :
    Yields (alternatePattern.run (versesPattern.run next)
      ⟨before, citation.alternateText ++ citation.versesText, captures⟩) holds := by
  apply citation.yields_alternateText
  apply citation.yields_versesText
  simpa using succeeds

/-- The chapter, with or without spaces before it. -/
theorem yields_chapter (citation : Citation)
    (succeeds : Yields (next ⟨citation.textAfterBook.reverse ++ before, [], captures⟩) holds) :
    Yields (runAfterBook next ⟨before, citation.textAfterBook, captures⟩) holds := by
  have stops := citation.stops_after_chapter
  have stopsDigits : Stops Char.isDigit (citation.alternateText ++ citation.versesText) :=
    stops.mono fun c => isWordChar_of_isDigit
  have isDigits := citation.chapter.isDigits
  have areSpaces := citation.afterBook.areSpaces
  rw [textAfterBook] at succeeds ⊢
  rw [runAfterBook]
  cases spaces : citation.afterBook.text with
  | nil =>
    -- the repetition of word characters takes the chapter too, and gives its last digit back
    cases digits : citation.chapter.text using List.reverseRecOn with
    | nil => exact absurd digits citation.chapter.nonempty
    | append_singleton others digit =>
      have isDigit : digit.isDigit = true := isDigits digit (by simp [digits])
      rw [List.nil_append, List.append_assoc, List.singleton_append]
      apply yields_star_giveBack (fun c member => isWordChar_of_isDigit (isDigits c (by simp [digits, member])))
        (isWordChar_of_isDigit isDigit) stops (citation.run_digits_after_chapter _)
      rw [run_star_of_stops (by simpa using isSpace_of_isDigit isDigit), run_plus, run_satisfies_cons, if_pos isDigit,
        run_star_of_stops stopsDigits]
      apply citation.yields_afterChapter
      simpa [spaces, digits] using succeeds
  | cons space others =>
    cases digits : citation.chapter.text with
    | nil => exact absurd digits citation.chapter.nonempty
    | cons first rest =>
      have firstDigit : first.isDigit = true := isDigits first (by simp [digits])
      rw [run_star_of_stops (by simpa using isWordChar_of_isSpace (areSpaces space (by simp [spaces])))]
      apply yields_star_longest (fun c member => areSpaces c (by rwa [spaces]))
        (by simpa using isSpace_of_isDigit firstDigit)
      rw [run_plus, List.cons_append, run_satisfies_cons, if_pos firstDigit]
      apply yields_star_longest (fun c member => isDigits c (by simp [digits, member])) stopsDigits
      apply citation.yields_afterChapter
      simpa [spaces, digits] using succeeds

theorem stops_after_book (citation : Citation) : Stops Char.isAlpha citation.textAfterBook := by
  rw [textAfterBook]
  cases spaces : citation.afterBook.text with
  | nil =>
    cases digits : citation.chapter.text with
    | nil => exact absurd digits citation.chapter.nonempty
    | cons first rest =>
      have firstDigit : first.isDigit = true := citation.chapter.isDigits first (by simp [digits])
      have notAlpha : first.isAlpha = false :=
        Bool.eq_false_iff.mpr fun alpha => by simp [isDigit_of_isAlpha alpha] at firstDigit
      simpa using notAlpha
  | cons space others =>
    have isSpace : isSpace space = true := citation.afterBook.areSpaces space (by simp [spaces])
    have notAlpha : space.isAlpha = false :=
      Bool.eq_false_iff.mpr fun alpha => by simp [isSpace_of_isWordChar (isWordChar_of_isAlpha alpha)] at isSpace
    simpa using notAlpha

/-- The letters of the book are read up to what follows them. -/
theorem yields_book (citation : Citation) {after : Text} (stops : Stops Char.isAlpha after)
    (succeeds : Yields (runAfterBook next ⟨citation.book.reverse ++ before, after, captures⟩) holds) :
    Yields (runFromBook next ⟨before, citation.book ++ after, captures⟩) holds := by
  cases book : citation.book with
  | nil => exact absurd book citation.bookNonempty
  | cons first others =>
    rw [runFromBook, List.cons_append, run_plus, run_satisfies_cons,
      if_pos (citation.bookLetters first (by simp [book]))]
    apply yields_star_longest (fun c member => citation.bookLetters c (by simp [book, member])) stops
    simpa [book, runAfterBook] using succeeds

/-- The number of the book, the book, and what follows them. -/
theorem yields_upToBook (citation : Citation) {after : Text} (stops : Stops Char.isAlpha after)
    (succeeds : Yields (runAfterBook next
      ⟨(citation.numberText ++ citation.book).reverse ++ before, after, captures⟩) holds) :
    Yields (referencePattern.run next ⟨before, citation.numberText ++ (citation.book ++ after), captures⟩) holds := by
  rw [run_referencePattern, bookNumberPattern, run_opt, run_seq]
  cases book : citation.book with
  | nil => exact absurd book citation.bookNonempty
  | cons first others =>
    have firstLetter : first.isAlpha = true := citation.bookLetters first (by simp [book])
    cases present : citation.number with
    | none =>
      have noNumber : citation.numberText = [] := by rw [numberText, present]
      have notNumber : isBookNumber first = false :=
        Bool.eq_false_iff.mpr fun isNumber => by
          simpa [isDigit_of_isBookNumber isNumber] using isDigit_of_isAlpha firstLetter
      rw [noNumber, List.nil_append] at succeeds ⊢
      have fromBook := citation.yields_book stops succeeds
      rw [book, List.cons_append] at fromBook
      rw [List.cons_append]
      apply fromBook.or_right
      rw [run_satisfies_cons, if_neg (by simp [notNumber])]
    | some number =>
      obtain ⟨number, spaces⟩ := number
      have isText : citation.numberText = number.char :: spaces.text := by rw [numberText, present]
      have isNumber : isBookNumber number.char = true := by cases number <;> rfl
      have notSpace : isSpace first = false := isSpace_of_isWordChar (isWordChar_of_isAlpha firstLetter)
      -- the number comes first, since the optional part is greedy
      rw [isText] at succeeds ⊢
      rw [List.cons_append, run_satisfies_cons, if_pos isNumber, ← book]
      apply Yields.or_left
      apply yields_star_longest spaces.areSpaces (by simpa [book] using notSpace)
      apply citation.yields_book stops
      simpa using succeeds

/-- The extractor reads a whole citation. -/
theorem yields_reference (citation : Citation)
    (succeeds : Yields (next ⟨citation.text.reverse ++ before, [], captures⟩) holds) :
    Yields (referencePattern.run next ⟨before, citation.text, captures⟩) holds := by
  apply citation.yields_upToBook citation.stops_after_book
  apply citation.yields_chapter
  simpa [text] using succeeds

end Citation

/-! ## What precedes a citation -/

section Leads

variable {next : State → Option State} {before : Text} {captures : Nat → Option Text}

/-- Between letters and a digit there are only word characters and spaces. -/
theorem runFromBook_blocked {text rest : Text} {last : Char} (noDigit : ∀ c ∈ text, c.isDigit = false)
    (notWord : isWordChar last = false) (notSpace : isSpace last = false) :
    runFromBook next ⟨before, text ++ last :: rest, captures⟩ = none := by
  have notDigit : last.isDigit = false :=
    Bool.eq_false_iff.mpr fun digit => by simp [isWordChar_of_isDigit digit] at notWord
  have notAlpha : last.isAlpha = false :=
    Bool.eq_false_iff.mpr fun alpha => by simp [isWordChar_of_isAlpha alpha] at notWord
  -- the digits of the chapter are missing wherever the three repetitions before them end
  have digits : ∀ (left before : Text) (next : State → Option State), (∀ c ∈ left, c.isDigit = false) →
      (Regex.plus (.satisfies Char.isDigit)).run next ⟨before, left ++ last :: rest, captures⟩ = none := by
    intro left before next noDigit
    cases left with
    | nil => rw [run_plus, List.nil_append, run_satisfies_cons, if_neg (by simp [notDigit])]
    | cons c left => rw [run_plus, List.cons_append, run_satisfies_cons, if_neg (by simp [noDigit c])]
  rw [runFromBook, run_plus]
  cases text with
  | nil => rw [List.nil_append, run_satisfies_cons, if_neg (by simp [notAlpha])]
  | cons c text =>
    rw [List.cons_append, run_satisfies_cons]
    split
    next =>
      apply run_star_eq_none (by simpa using notAlpha)
      intro letters afterLetters isSplit
      apply run_star_eq_none (by simpa using notWord)
      intro word afterWord isSplitWord
      apply run_star_eq_none (by simpa using notSpace)
      intro spaces afterSpaces isSplitSpaces
      apply digits
      intro c member
      exact noDigit c (by simp [isSplit, isSplitWord, isSplitSpaces, member])
    next => rfl

/-- No match starts at a character that is neither a letter nor a book number. -/
theorem run_referencePattern_blocked {c : Char} {text : Text} (notNumber : isBookNumber c = false)
    (blocked : runFromBook next ⟨before, c :: text, captures⟩ = none) :
    referencePattern.run next ⟨before, c :: text, captures⟩ = none := by
  rw [run_referencePattern, bookNumberPattern, run_opt, run_seq, run_satisfies_cons, notNumber, if_neg (by decide),
    blocked, Option.or_none]

theorem run_referencePattern_space {c : Char} {text : Text} (space : isSpace c = true) :
    referencePattern.run next ⟨before, c :: text, captures⟩ = none := by
  have notWord := isWordChar_of_isSpace space
  have notNumber : isBookNumber c = false := Bool.eq_false_iff.mpr fun isNumber => by
    simp [isWordChar_of_isDigit (isDigit_of_isBookNumber isNumber)] at notWord
  have notAlpha : c.isAlpha = false :=
    Bool.eq_false_iff.mpr fun alpha => by simp [isWordChar_of_isAlpha alpha] at notWord
  apply run_referencePattern_blocked notNumber
  rw [runFromBook, run_plus, run_satisfies_cons, if_neg (by simp [notAlpha])]

theorem Lead.run_referencePattern (lead : Lead) {taken left rest : Text} {c : Char}
    (isSplit : lead.text = taken ++ c :: left) :
    referencePattern.run next ⟨before, c :: left ++ rest, captures⟩ = none := by
  have noDigit : ∀ d ∈ c :: left, d.isDigit = false := fun d member => lead.noDigit d (by simp [isSplit, member])
  have notNumber : isBookNumber c = false := Bool.eq_false_iff.mpr fun isNumber => by
    simpa [isDigit_of_isBookNumber isNumber] using noDigit c (by simp)
  obtain areSpaces | ⟨start, last, spaces, shape, notWord, notSpace, areSpaces⟩ := lead.ends
  · exact run_referencePattern_space (areSpaces c (by simp [isSplit]))
  -- a match that starts before `last` would have to pass it, one behind it would start with a space
  · rw [shape, List.append_eq_append_iff] at isSplit
    obtain ⟨more, _, split⟩ | ⟨more, isStart, split⟩ := isSplit
    · cases more with
      | nil =>
        obtain ⟨rfl, rfl⟩ := List.cons.inj split
        have blocked : runFromBook next ⟨before, [] ++ last :: (spaces ++ rest), captures⟩ = none :=
          runFromBook_blocked (by simp) notWord notSpace
        exact run_referencePattern_blocked notNumber blocked
      | cons d more =>
        have space : isSpace c = true := areSpaces c (by simp [(List.cons.inj split).2])
        exact run_referencePattern_space space
    · have blocked : runFromBook next ⟨before, more ++ last :: (spaces ++ rest), captures⟩ = none :=
        runFromBook_blocked (fun d member => lead.noDigit d (by simp [shape, isStart, member])) notWord notSpace
      have same : c :: (left ++ rest) = more ++ last :: (spaces ++ rest) := by
        rw [← List.cons_append, split, List.append_assoc, List.cons_append]
      rw [← same] at blocked
      exact run_referencePattern_blocked notNumber blocked

end Leads

/-! ## The extractor -/

theorem extract_citation (lead : Lead) (citation : Citation) :
    Yields (reference_extractor.firstMatch (lead.text ++ citation.text)) fun parts =>
      parts 1 = some lead.text ∧ parts 2 = some citation.text ∧ parts 3 = some [] := by
  apply yields_firstMatch
  rw [reference_extractor, run_sequence_cons, run_startOfInput, run_sequence_cons, run_group]
  apply yields_lazyStar lead.plain
  · intro taken c left isSplit
    rw [State.close_eq _ _ _ taken (by simp [isSplit]), run_sequence_cons, run_group]
    exact lead.run_referencePattern isSplit
  · rw [State.close_eq _ _ _ lead.text (by simp), run_sequence_cons, run_group]
    apply citation.yields_reference
    rw [State.close_eq _ _ _ citation.text (by simp), run_sequence_cons, run_group, run_lazyStar]
    apply Yields.or_left
    rw [State.close_eq _ _ _ [] (by simp), run_sequence_cons, run_endOfInput_nil, run_sequence_nil, yields_some]
    simp

end Aelf.Bible
