import Aelf.Bible.CitationLink

/-! # Links to the halves of a psalm

Psalms 9 and 113 have two halves, which the database calls 9A, 9B, 113A and 113B.  The
second expression of `lecture.js` has a place for such a letter, but the extractor before
it stops at the digits: what it hands over has neither the letter nor the verses. -/

namespace Aelf.Bible

open Aelf.Library Aelf.Library.JavaScript
open Aelf.Library.Regex

/-! ## Syntax -/

/-- A book, a number, a letter after it, and verses. -/
structure PsalmCitation where
  upToNumber : Citation
  noAlternate : upToNumber.alternate = none
  noVerses : upToNumber.verses = none
  afterNumber : Spaces
  letter : Char
  isLetter : letter ∈ ['A', 'B', 'a', 'b']
  beforeVerses : Spaces
  verses : VerseList

namespace PsalmCitation

def versesText (psalm : PsalmCitation) : Text := psalm.beforeVerses.text ++ psalm.verses.text

/-- What follows the number. -/
def tail (psalm : PsalmCitation) : Text := psalm.afterNumber.text ++ psalm.letter :: ',' :: psalm.versesText

def text (psalm : PsalmCitation) : Text := psalm.upToNumber.text ++ psalm.tail

def bookRef (psalm : PsalmCitation) : Text := psalm.upToNumber.bookRef

/-- What the database calls the psalm. -/
def chapterRef (psalm : PsalmCitation) : Text := psalm.upToNumber.chapterRef ++ [psalm.letter.toUpper]

def ranges (psalm : PsalmCitation) : List Range := psalm.verses.items.ranges psalm.chapterRef

/-- The element becomes a link that selects the psalm, and whose parameter denotes its verses. -/
def IsReached [UriCodec] (psalm : PsalmCitation) (textContent : Text) : Prop :=
  ∃ linked reference, linkify textContent = .ok (some linked) ∧
    Uri.getQueryParameter linked.link "reference".toList = .ok (some reference) ∧
    parse_reference reference = .ok ⟨psalm.ranges, []⟩ ∧
    ∀ (parts : List BiblePart) (getBookChapters : Text → List Text),
      (∃ part ∈ parts, ∃ entry ∈ part.bibleBookEntries, entry.bookRef = some psalm.bookRef) →
      psalm.chapterRef ∈ getBookChapters psalm.bookRef →
      ∃ fragment index, newInstance parts getBookChapters linked.link = .ok (some fragment) ∧
        fragment.bibleChapterId = ((index : Nat) : Int) ∧
        (getBookChapters psalm.bookRef)[index]? = some psalm.chapterRef

/-! ## What stands after the number -/

theorem upToNumber_text (psalm : PsalmCitation) :
    psalm.upToNumber.text = psalm.upToNumber.numberText ++ (psalm.upToNumber.book ++
      (psalm.upToNumber.afterBook.text ++ psalm.upToNumber.chapter.text)) := by
  simp [Citation.text, Citation.textAfterBook, Citation.alternateText, Citation.versesText, psalm.noAlternate,
    psalm.noVerses]

/-- The comma after the letter divides the text. -/
theorem text_eq (psalm : PsalmCitation) :
    psalm.text = psalm.upToNumber.text ++ (psalm.afterNumber.text ++ [psalm.letter]) ++ ',' :: psalm.versesText := by
  simp [text, tail]

theorem letter_isAlpha (psalm : PsalmCitation) : psalm.letter.isAlpha = true := by
  have all : ∀ c ∈ ['A', 'B', 'a', 'b'], c.isAlpha = true := by simp
  exact all psalm.letter psalm.isLetter

theorem letter_isDigit (psalm : PsalmCitation) : psalm.letter.isDigit = false := isDigit_of_isAlpha psalm.letter_isAlpha

theorem isDigit_of_isSpace {c : Char} (space : isSpace c = true) : c.isDigit = false :=
  Bool.eq_false_iff.mpr fun digit => by simp [isSpace_of_isDigit digit] at space

/-- What is left when the number has been passed: no digit before the comma. -/
def Passed (psalm : PsalmCitation) (rest : Text) : Prop :=
  ∃ front, rest = front ++ ',' :: psalm.versesText ∧ ∀ c ∈ front, c.isDigit = false

theorem noDigit_letter (psalm : PsalmCitation) :
    ∀ c ∈ psalm.afterNumber.text ++ [psalm.letter], c.isDigit = false := by
  rw [List.forall_mem_append]
  exact ⟨fun c member => isDigit_of_isSpace (psalm.afterNumber.areSpaces c member), by simpa using psalm.letter_isDigit⟩

theorem passed_tail (psalm : PsalmCitation) : psalm.Passed psalm.tail :=
  ⟨psalm.afterNumber.text ++ [psalm.letter], by simp [tail], psalm.noDigit_letter⟩

theorem keeps_passed (psalm : PsalmCitation) {accepts : Char → Bool} (refused : accepts ',' = false) :
    (Regex.satisfies accepts).Keeps psalm.Passed := by
  rintro c rest ⟨front, split, noDigit⟩ accepted
  cases front with
  | nil =>
    obtain ⟨rfl, _⟩ := List.cons.inj split
    rw [refused] at accepted
    cases accepted
  | cons first front =>
    obtain ⟨rfl, rfl⟩ := List.cons.inj split
    exact ⟨front, rfl, fun c member => noDigit c (by simp [member])⟩

theorem passed_of_append (psalm : PsalmCitation) {word rest : Text} (areWord : ∀ c ∈ word, isWordChar c = true)
    (passed : psalm.Passed (word ++ rest)) : psalm.Passed rest := by
  induction word with
  | nil => exact passed
  | cons c word inductionHypothesis =>
    have step : psalm.Passed (word ++ rest) :=
      psalm.keeps_passed (show isWordChar ',' = false by decide) c _ passed (areWord c (by simp))
    exact inductionHypothesis (fun other member => areWord other (by simp [member])) step

/-- Behind the number, there is no other number before the comma. -/
theorem digits_fail_on_passed (psalm : PsalmCitation) (next : State → Option State) :
    FailsOn psalm.Passed ((Regex.plus (.satisfies Char.isDigit)).run next) := by
  rintro ⟨before, after, captures⟩ ⟨front, split, noDigit⟩
  obtain rfl : after = front ++ ',' :: psalm.versesText := split
  rw [run_plus]
  cases front with
  | nil => rw [List.nil_append, run_satisfies_cons, if_neg (by decide)]
  | cons first front => rw [List.cons_append, run_satisfies_cons, if_neg (by simp [noDigit first])]

/-! ## The optional parts -/

section Optional

variable {next : State → Option State} {before after : Text} {captures : Nat → Option Text} {holds : State → Prop}

/-- Without a parenthesis there is no other numbering. -/
theorem run_alternatePattern_absent (absent : '(' ∉ after) :
    alternatePattern.run next ⟨before, after, captures⟩ = next ⟨before, after, captures⟩ := by
  have keeps : (Regex.star (.satisfies isSpace)).Keeps ('(' ∉ ·) := fun c rest absent _ => fun member => absent (by simp [member])
  have fails : FailsOn ('(' ∉ ·) ((Regex.sequence [.character '(', .plus (.satisfies Char.isDigit), .character ')']).run
      next) := by
    rintro ⟨before, after, captures⟩ absent
    cases after with
    | nil => rfl
    | cons c rest => rw [run_sequence_cons, run_character_of_ne _ _ _ _ fun same => absent (by simp [same])]
  rw [alternatePattern, run_opt, run_sequence_cons, run_of_keeps keeps _ fails _ absent, Option.none_or]

/-- Without a comma there are no verses. -/
theorem run_versesPattern_absent (stops : Stops (· = ',') after) :
    versesPattern.run next ⟨before, after, captures⟩ = next ⟨before, after, captures⟩ := by
  rw [versesPattern, run_opt, run_sequence_cons]
  cases after with
  | nil => rw [run_character_nil, Option.none_or]
  | cons c rest => rw [run_character_of_ne _ _ _ _ (by simpa using stops), Option.none_or]

theorem isVerseText_chars {text : Text} (isVerseText : IsVerseText text) :
    ∀ c ∈ text, isListChar c = true ∨ c.isDigit = true ∨ c.isLower = true := by
  induction isVerseText with
  | @last digits letters isDigits nonempty areLower =>
    rw [List.forall_mem_append]
    exact ⟨fun c member => .inr (.inl (isDigits c member)), fun c member => .inr (.inr (areLower c member))⟩
  | @separator c text isSeparator _ inductionHypothesis =>
    rw [List.forall_mem_cons]
    exact ⟨.inl isSeparator, inductionHypothesis⟩
  | @verse digits letters c text isDigits nonempty areLower isSeparator _ inductionHypothesis =>
    rw [List.forall_mem_append, List.forall_mem_append]
    exact ⟨fun c member => .inr (.inl (isDigits c member)), fun c member => .inr (.inr (areLower c member)),
      inductionHypothesis⟩

theorem parenthesis_notMem_tail (psalm : PsalmCitation) : '(' ∉ psalm.tail := by
  have verses := isVerseText_chars (psalm.beforeVerses.isVerseText psalm.verses.isVerseText)
  intro member
  rw [tail, List.mem_append, List.mem_cons, List.mem_cons] at member
  obtain inSpaces | isLetter | isComma | inVerses := member
  · exact absurd (psalm.afterNumber.areSpaces '(' inSpaces) (by decide)
  · have alpha := psalm.letter_isAlpha
    rw [← isLetter] at alpha
    exact absurd alpha (by decide)
  · exact absurd isComma (by decide)
  · exact absurd (verses '(' inVerses) (by decide)

/-- After the number comes a space or the letter. -/
theorem stops_tail (psalm : PsalmCitation) {accepts : Char → Bool} (notSpace : ∀ c, isSpace c = true → accepts c = false)
    (notLetter : accepts psalm.letter = false) : Stops accepts psalm.tail := by
  rw [tail]
  cases spaces : psalm.afterNumber.text with
  | nil => simpa using notLetter
  | cons c others => simpa using notSpace c (psalm.afterNumber.areSpaces c (by simp [spaces]))

theorem stopsDigits_tail (psalm : PsalmCitation) : Stops Char.isDigit psalm.tail :=
  psalm.stops_tail (fun _ => isDigit_of_isSpace) psalm.letter_isDigit

theorem stopsComma_tail (psalm : PsalmCitation) : Stops (· = ',') psalm.tail := by
  apply psalm.stops_tail
  · intro c space
    rw [decide_eq_false_iff_not]
    rintro rfl
    exact absurd space (by decide)
  · rw [decide_eq_false_iff_not]
    intro isComma
    have alpha := psalm.letter_isAlpha
    rw [isComma] at alpha
    exact absurd alpha (by decide)

/-! ## The extractor on one line -/

/-- Where the number has been read, the letter stops the pattern. -/
theorem run_afterNumber (psalm : PsalmCitation) :
    alternatePattern.run (versesPattern.run next) ⟨before, psalm.tail, captures⟩ =
      next ⟨before, psalm.tail, captures⟩ := by
  rw [run_alternatePattern_absent psalm.parenthesis_notMem_tail, run_versesPattern_absent psalm.stopsComma_tail]

theorem yields_number (psalm : PsalmCitation)
    (succeeds : Yields (next ⟨(psalm.upToNumber.afterBook.text ++ psalm.upToNumber.chapter.text).reverse ++ before,
      psalm.tail, captures⟩) holds) :
    Yields (runAfterBook next ⟨before, psalm.upToNumber.afterBook.text ++ (psalm.upToNumber.chapter.text ++ psalm.tail),
      captures⟩) holds := by
  have isDigits := psalm.upToNumber.chapter.isDigits
  have areSpaces := psalm.upToNumber.afterBook.areSpaces
  rw [runAfterBook]
  cases spaces : psalm.upToNumber.afterBook.text with
  | nil =>
    cases digits : psalm.upToNumber.chapter.text using List.reverseRecOn with
    | nil => exact absurd digits psalm.upToNumber.chapter.nonempty
    | append_singleton others digit =>
      -- the word characters go on to the comma, or to a space; one digit has to be left for the number
      have isDigit : digit.isDigit = true := isDigits digit (by simp [digits])
      obtain ⟨word, rest, split, areWord, stops⟩ := exists_longestRun isWordChar psalm.tail
      have isRun : ∀ c ∈ others ++ digit :: word, isWordChar c = true := by
        rw [List.forall_mem_append, List.forall_mem_cons]
        exact ⟨fun c member => isWordChar_of_isDigit (isDigits c (by simp [digits, member])),
          isWordChar_of_isDigit isDigit, areWord⟩
      have whole : [] ++ (others ++ [digit] ++ psalm.tail) = others ++ (digit :: word ++ rest) := by simp [split]
      rw [whole]
      apply yields_star_backtrack isRun stops
      · intro more after isSplit nonempty
        cases more with
        | nil => exact absurd rfl nonempty
        | cons first more =>
          have isWord : word = more ++ after := (List.cons.inj isSplit).2
          rw [isWord, List.append_assoc] at split
          have passed : psalm.Passed (after ++ rest) :=
            psalm.passed_of_append (fun c member => areWord c (by simp [isWord, member])) (split ▸ psalm.passed_tail)
          have keeps : (Regex.star (.satisfies isSpace)).Keeps psalm.Passed := psalm.keeps_passed (by decide)
          exact run_of_keeps keeps _ (psalm.digits_fail_on_passed _) _ passed
      · rw [List.cons_append, ← split, run_star_of_stops (by simpa using isSpace_of_isDigit isDigit), run_plus,
          run_satisfies_cons, if_pos isDigit, run_star_of_stops psalm.stopsDigits_tail, run_afterNumber]
        simpa [spaces, digits] using succeeds
  | cons space otherSpaces =>
    cases digits : psalm.upToNumber.chapter.text with
    | nil => exact absurd digits psalm.upToNumber.chapter.nonempty
    | cons first others =>
      have firstDigit : first.isDigit = true := isDigits first (by simp [digits])
      rw [run_star_of_stops (by simpa using isWordChar_of_isSpace (areSpaces space (by simp [spaces])))]
      apply yields_star_longest (fun c member => areSpaces c (by rwa [spaces]))
        (by simpa using isSpace_of_isDigit firstDigit)
      rw [run_plus, List.cons_append, run_satisfies_cons, if_pos firstDigit]
      apply yields_star_longest (fun c member => isDigits c (by simp [digits, member])) psalm.stopsDigits_tail
      rw [run_afterNumber]
      simpa [spaces, digits] using succeeds

theorem stops_afterBook (psalm : PsalmCitation) :
    Stops Char.isAlpha (psalm.upToNumber.afterBook.text ++ (psalm.upToNumber.chapter.text ++ psalm.tail)) := by
  have stops := psalm.upToNumber.stops_after_book
  have nonempty : psalm.upToNumber.afterBook.text ++ psalm.upToNumber.chapter.text ≠ [] := by
    simp [psalm.upToNumber.chapter.nonempty]
  simp only [Citation.textAfterBook, Citation.alternateText, Citation.versesText, psalm.noAlternate, psalm.noVerses,
    List.append_nil] at stops
  intro c head
  rw [← List.append_assoc, List.head?_append_of_ne_nil _ nonempty] at head
  exact stops c head

theorem yields_upToNumber (psalm : PsalmCitation)
    (succeeds : Yields (next ⟨psalm.upToNumber.text.reverse ++ before, psalm.tail, captures⟩) holds) :
    Yields (referencePattern.run next ⟨before, psalm.text, captures⟩) holds := by
  rw [text, upToNumber_text, List.append_assoc, List.append_assoc, List.append_assoc]
  apply psalm.upToNumber.yields_upToBook psalm.stops_afterBook
  apply psalm.yields_number
  rw [upToNumber_text] at succeeds
  simpa using succeeds

end Optional

/-- On one line, the reference is the part up to the number, and the rest is the suffix. -/
theorem extract_psalm (psalm : PsalmCitation) (onOneLine : Plain psalm.tail) (lead : Lead) :
    Yields (reference_extractor.firstMatch (lead.text ++ psalm.text)) fun parts =>
      parts 1 = some lead.text ∧ parts 2 = some psalm.upToNumber.text ∧ parts 3 = some psalm.tail := by
  apply yields_firstMatch
  rw [reference_extractor, run_sequence_cons, run_startOfInput, run_sequence_cons, run_group]
  apply yields_lazyStar lead.plain
  · intro taken c left isSplit
    rw [State.close_eq _ _ _ taken (by simp [isSplit]), run_sequence_cons, run_group]
    exact lead.run_referencePattern isSplit
  · rw [State.close_eq _ _ _ lead.text (by simp), run_sequence_cons, run_group]
    apply psalm.yields_upToNumber
    rw [State.close_eq _ _ _ psalm.upToNumber.text (by simp [text]), run_sequence_cons, run_group, ← List.append_nil psalm.tail]
    apply yields_lazyStar onOneLine
    · intro taken c left isSplit
      rfl
    · rw [State.close_eq _ _ _ psalm.tail (by simp), run_sequence_cons, run_endOfInput_nil, run_sequence_nil, yields_some]
      simp

/-! ## The extractor on several lines -/

end PsalmCitation

/-- No digit can be reached from here through word characters and spaces. -/
def Blocked (rest : Text) : Prop :=
  ∃ front, (∀ c ∈ front, c.isDigit = false) ∧
    (rest = front ∨ ∃ last others, rest = front ++ last :: others ∧ isWordChar last = false ∧ isSpace last = false)

/-- From no letter of the text can a digit be reached. -/
def Quiet (text : Text) : Prop := ∀ rest, rest <:+ text → Stops Char.isAlpha rest ∨ Blocked rest

theorem runFromBook_of_blocked {rest : Text} (blocked : Blocked rest) (next : State → Option State) (before : Text)
    (captures : Nat → Option Text) : runFromBook next ⟨before, rest, captures⟩ = none := by
  obtain ⟨front, noDigit, rfl | ⟨last, others, rfl, notWord, notSpace⟩⟩ := blocked
  · let holds : Text → Prop := fun rest => ∀ c ∈ rest, c.isDigit = false
    have keeps : ∀ accepts, (Regex.satisfies accepts).Keeps holds :=
      fun accepts c rest noDigit _ other member => noDigit other (by simp [member])
    have fails : FailsOn holds ((Regex.plus (.satisfies Char.isDigit)).run (alternatePattern.run (versesPattern.run next))) := by
      rintro ⟨before, after, captures⟩ noDigit
      cases after with
      | nil => rfl
      | cons c rest => rw [run_plus, run_satisfies_cons, if_neg (by simp [noDigit c])]
    have keepsAll : (Regex.sequence [.plus (.satisfies Char.isAlpha), .star (.satisfies isWordChar),
        .star (.satisfies isSpace)]).Keeps holds := ⟨⟨keeps _, keeps _⟩, keeps _, keeps _, trivial⟩
    exact run_of_keeps keepsAll _ fails _ noDigit
  · exact runFromBook_blocked noDigit notWord notSpace

/-- No match starts in a quiet text. -/
theorem referencePattern_failsOn_quiet {text : Text} (quiet : Quiet text) (next : State → Option State) :
    FailsOn (· <:+ text) (referencePattern.run next) := by
  have keeps : bookNumberPattern.Keeps (· <:+ text) :=
    ⟨⟨fun c rest isSuffix _ => (List.suffix_cons c rest).trans isSuffix,
      fun c rest isSuffix _ => (List.suffix_cons c rest).trans isSuffix⟩, trivial⟩
  have fails : FailsOn (· <:+ text) (runFromBook next) := by
    rintro ⟨before, after, captures⟩ isSuffix
    obtain stops | blocked := quiet after isSuffix
    · rw [runFromBook, run_plus]
      cases after with
      | nil => rfl
      | cons c rest => rw [run_satisfies_cons, if_neg (by simpa using stops)]
    · exact runFromBook_of_blocked blocked next before captures
  exact run_of_keeps keeps _ fails

theorem blocked_nil : Blocked [] := ⟨[], by simp, .inl rfl⟩

theorem blocked_mark {c : Char} (notWord : isWordChar c = false) (notSpace : isSpace c = false) (rest : Text) :
    Blocked (c :: rest) := ⟨[], by simp, .inr ⟨c, rest, rfl, notWord, notSpace⟩⟩

theorem Blocked.append {front rest : Text} (noDigit : ∀ c ∈ front, c.isDigit = false) (blocked : Blocked rest) :
    Blocked (front ++ rest) := by
  obtain ⟨middle, noDigitMiddle, shape⟩ := blocked
  refine ⟨front ++ middle, List.forall_mem_append.mpr ⟨noDigit, noDigitMiddle⟩, ?_⟩
  obtain rfl | ⟨last, others, rfl, notWord, notSpace⟩ := shape
  · exact .inl rfl
  · exact .inr ⟨last, others, by simp, notWord, notSpace⟩

theorem quiet_nil : Quiet [] := by
  intro rest isSuffix
  obtain rfl := List.suffix_nil.mp isSuffix
  exact .inl stops_nil

theorem Quiet.cons {c : Char} {text : Text} (quiet : Quiet text) (notAlpha : c.isAlpha = false) : Quiet (c :: text) := by
  intro rest isSuffix
  obtain rfl | shorter := List.suffix_cons_iff.mp isSuffix
  · exact .inl (by simpa using notAlpha)
  · exact quiet rest shorter

theorem Quiet.letters {letters text : Text} (quiet : Quiet text) (blocked : Blocked text)
    (noDigit : ∀ c ∈ letters, c.isDigit = false) : Quiet (letters ++ text) := by
  induction letters with
  | nil => exact quiet
  | cons c letters inductionHypothesis =>
    intro rest isSuffix
    obtain rfl | shorter := List.suffix_cons_iff.mp isSuffix
    · exact .inr (Blocked.append noDigit blocked)
    · exact inductionHypothesis (fun other member => noDigit other (by simp [member])) rest shorter

theorem Quiet.append {front text : Text} (quiet : Quiet text) (notAlpha : ∀ c ∈ front, c.isAlpha = false) :
    Quiet (front ++ text) := by
  induction front with
  | nil => exact quiet
  | cons c front inductionHypothesis =>
    exact (inductionHypothesis fun other member => notAlpha other (by simp [member])).cons (notAlpha c (by simp))

/-! ### Verses are quiet -/

theorem isAlpha_of_isDigit {c : Char} (digit : c.isDigit = true) : c.isAlpha = false :=
  Bool.eq_false_iff.mpr fun alpha => by simp [isDigit_of_isAlpha alpha] at digit

theorem isAlpha_of_isSpace {c : Char} (space : isSpace c = true) : c.isAlpha = false :=
  Bool.eq_false_iff.mpr fun alpha => by simp [isSpace_of_isWordChar (isWordChar_of_isAlpha alpha)] at space

theorem Verse.quiet (verse : Verse) {text : Text} (quiet : Quiet text) (blocked : Blocked text) :
    Quiet (verse.text ++ text) := by
  rw [Verse.text, List.append_assoc]
  apply Quiet.append _ fun c member => isAlpha_of_isDigit (verse.isDigits c member)
  exact quiet.letters blocked fun c member => isDigit_of_isLower (verse.areLower c member)

theorem VerseItem.quiet (item : VerseItem) {text : Text} (quiet : Quiet text) (blocked : Blocked text) :
    Quiet (item.text ++ text) := by
  cases item with
  | verse single => exact single.quiet quiet blocked
  | range first last =>
    have rest : Quiet ('-' :: (last.text ++ text)) := (last.quiet quiet blocked).cons (by decide)
    rw [VerseItem.text, List.append_assoc, List.cons_append]
    exact first.quiet rest (blocked_mark (by decide) (by decide) _)

theorem VerseList.quiet (verses : VerseList) : Quiet verses.text := by
  induction verses with
  | last item =>
    have alone := item.quiet quiet_nil blocked_nil
    rwa [List.append_nil] at alone
  | more item before separator after verses inductionHypothesis =>
    have notAlpha : separator.char.isAlpha = false := by cases separator <;> decide
    have notWord : isWordChar separator.char = false := by cases separator <;> decide
    have notSpace : isSpace separator.char = false := by cases separator <;> decide
    have afterSeparator : Quiet (after.text ++ verses.text) :=
      inductionHypothesis.append fun c member => isAlpha_of_isSpace (after.areSpaces c member)
    have spaced : Quiet (before.text ++ separator.char :: (after.text ++ verses.text)) :=
      (afterSeparator.cons notAlpha).append fun c member => isAlpha_of_isSpace (before.areSpaces c member)
    have blocked : Blocked (before.text ++ separator.char :: (after.text ++ verses.text)) :=
      Blocked.append (fun c member => PsalmCitation.isDigit_of_isSpace (before.areSpaces c member))
        (blocked_mark notWord notSpace _)
    exact item.quiet spaced blocked

namespace PsalmCitation

variable (psalm : PsalmCitation)

theorem quiet_verses : Quiet (',' :: psalm.versesText) := by
  apply Quiet.cons _ (by decide)
  exact psalm.verses.quiet.append fun c member => isAlpha_of_isSpace (psalm.beforeVerses.areSpaces c member)

/-! ### Up to the letter -/

/-- Up to the number there are only word characters and spaces. -/
theorem upToNumber_chars : ∀ c ∈ psalm.upToNumber.text, isWordChar c = true ∨ isSpace c = true := by
  have number : ∀ c ∈ psalm.upToNumber.numberText, isWordChar c = true ∨ isSpace c = true := by
    rw [Citation.numberText]
    cases psalm.upToNumber.number with
    | none => simp
    | some number =>
      rw [List.forall_mem_cons]
      exact ⟨.inl (by cases number.1 <;> rfl), fun c member => .inr (number.2.areSpaces c member)⟩
  rw [upToNumber_text]
  simp only [List.forall_mem_append]
  exact ⟨number, fun c member => .inl (isWordChar_of_isAlpha (psalm.upToNumber.bookLetters c member)),
    fun c member => .inr (psalm.upToNumber.afterBook.areSpaces c member),
    fun c member => .inl (isWordChar_of_isDigit (psalm.upToNumber.chapter.isDigits c member))⟩

/-- A rest of the text that has part of the number, or all of it, ahead. -/
def InNumber (rest : Text) : Prop := ∃ front, rest = front ++ psalm.tail ∧ front <:+ psalm.upToNumber.text

/-- A rest of the text that has the comma after the letter ahead. -/
def InName (rest : Text) : Prop :=
  ∃ front, rest = front ++ ',' :: psalm.versesText ∧
    front <:+ psalm.upToNumber.text ++ (psalm.afterNumber.text ++ [psalm.letter])

theorem keeps_inName {accepts : Char → Bool} (refused : accepts ',' = false) :
    (Regex.satisfies accepts).Keeps psalm.InName := by
  rintro c rest ⟨front, split, isSuffix⟩ accepted
  cases front with
  | nil =>
    obtain ⟨rfl, _⟩ := List.cons.inj split
    rw [refused] at accepted
    cases accepted
  | cons first front =>
    obtain ⟨rfl, rfl⟩ := List.cons.inj split
    exact ⟨front, rfl, (List.suffix_cons _ _).trans isSuffix⟩

theorem keeps_inNumber : (Regex.satisfies Char.isDigit).Keeps psalm.InNumber := by
  rintro c rest ⟨front, split, isSuffix⟩ digit
  cases front with
  | nil =>
    have notDigit := psalm.stopsDigits_tail c (by rw [← List.nil_append psalm.tail, ← split]; rfl)
    rw [notDigit] at digit
    cases digit
  | cons first front =>
    obtain ⟨rfl, rfl⟩ := List.cons.inj split
    exact ⟨front, rfl, (List.suffix_cons _ _).trans isSuffix⟩

variable {bad : Char} (ahead : bad ∈ psalm.tail) {next : State → Option State} (fails : FailsOn (bad ∈ ·) next)

include ahead fails

/-- From the number on, the pattern can only end before the letter, with the line break ahead. -/
theorem afterNumber_failsOn : FailsOn psalm.InNumber (alternatePattern.run (versesPattern.run next)) := by
  rintro ⟨before, after, captures⟩ ⟨front, split, isSuffix⟩
  obtain rfl : after = front ++ psalm.tail := split
  have chars : ∀ c ∈ front, isWordChar c = true ∨ isSpace c = true :=
    fun c member => psalm.upToNumber_chars c (isSuffix.mem member)
  have noParenthesis : '(' ∉ front ++ psalm.tail := by
    rw [List.mem_append, not_or]
    exact ⟨fun member => absurd (chars '(' member) (by decide), psalm.parenthesis_notMem_tail⟩
  have noComma : Stops (· = ',') (front ++ psalm.tail) := by
    cases front with
    | nil => exact psalm.stopsComma_tail
    | cons c front =>
      rw [List.cons_append, stops_cons, decide_eq_false_iff_not]
      rintro rfl
      exact absurd (chars ',' (by simp)) (by decide)
  rw [run_alternatePattern_absent noParenthesis, run_versesPattern_absent noComma]
  exact fails _ (List.mem_append_right front ahead)

theorem digits_failOn_inName :
    FailsOn psalm.InName ((Regex.plus (.satisfies Char.isDigit)).run (alternatePattern.run (versesPattern.run next))) := by
  rintro ⟨before, after, captures⟩ ⟨front, split, start, isSuffix⟩
  obtain rfl : after = front ++ ',' :: psalm.versesText := split
  obtain ⟨middle, isStart, rfl⟩ | ⟨middle, isStart, isTail⟩ := List.append_eq_append_iff.mp isSuffix
  · have inNumber : psalm.InNumber (middle ++ (psalm.afterNumber.text ++ [psalm.letter]) ++ ',' :: psalm.versesText) :=
      ⟨middle, by simp [tail], start, isStart.symm⟩
    have keeps : (Regex.plus (.satisfies Char.isDigit)).Keeps psalm.InNumber := ⟨psalm.keeps_inNumber, psalm.keeps_inNumber⟩
    exact run_of_keeps keeps _ (psalm.afterNumber_failsOn ahead fails) _ inNumber
  · have noDigit : ∀ c ∈ front, c.isDigit = false :=
      fun c member => psalm.noDigit_letter c (by rw [isTail]; exact List.mem_append_right middle member)
    exact psalm.digits_fail_on_passed _ _ ⟨front, rfl, noDigit⟩

/-- A match that starts before the comma ends before the letter, so the line break is in its suffix. -/
theorem referencePattern_failsOn_inName : FailsOn psalm.InName (referencePattern.run next) := by
  have keeps : (Regex.sequence [bookNumberPattern, .plus (.satisfies Char.isAlpha), .star (.satisfies isWordChar),
      .star (.satisfies isSpace)]).Keeps psalm.InName := by
    have letters : (Regex.satisfies Char.isAlpha).Keeps psalm.InName := psalm.keeps_inName (by decide)
    have spaces : (Regex.satisfies isSpace).Keeps psalm.InName := psalm.keeps_inName (by decide)
    exact ⟨⟨⟨psalm.keeps_inName (by decide), spaces⟩, trivial⟩, ⟨letters, letters⟩, psalm.keeps_inName (by decide), spaces,
      trivial⟩
  exact run_of_keeps keeps _ (psalm.digits_failOn_inName ahead fails)

/-- With a line break after the number there is no match at all. -/
theorem referencePattern_failsOn_text (lead : Lead) :
    FailsOn (· <:+ lead.text ++ psalm.text) (referencePattern.run next) := by
  rintro ⟨before, after, captures⟩ ⟨start, isSuffix⟩
  have inName := psalm.referencePattern_failsOn_inName ahead fails
  rw [psalm.text_eq] at isSuffix
  obtain ⟨middle, isLead, isAfter⟩ | ⟨middle, _, isText⟩ := List.append_eq_append_iff.mp isSuffix
  · subst isAfter
    cases middle with
    | nil => exact inName _ ⟨_, by rw [List.nil_append], List.suffix_rfl⟩
    | cons c left => exact lead.run_referencePattern isLead
  · obtain ⟨middle, _, isVerses⟩ | ⟨front, isFront, isAfter⟩ := List.append_eq_append_iff.mp isText
    · exact referencePattern_failsOn_quiet psalm.quiet_verses next _ ⟨_, isVerses.symm⟩
    · exact inName _ ⟨front, isAfter, middle, isFront.symm⟩

end PsalmCitation

theorem extract_psalm_none {psalm : PsalmCitation} (severalLines : ¬Plain psalm.tail) (lead : Lead) :
    reference_extractor.firstMatch (lead.text ++ psalm.text) = none := by
  obtain ⟨bad, ahead, refused⟩ : ∃ c ∈ psalm.tail, isAny c = false := by simpa [Plain] using severalLines
  -- the rest of the expression never gets past the character it cannot match
  have suffix : FailsOn (bad ∈ ·)
      ((Regex.sequence [.group 3 (.lazyStar (.satisfies isAny)), .endOfInput]).run (some : State → Option State)) := by
    have keeps : (Regex.group 3 (.lazyStar (.satisfies isAny))).Keeps (bad ∈ ·) := keeps_mem refused
    exact run_of_keeps keeps _ (endOfInput_failsOn (by simp) some)
  have reference : FailsOn (· <:+ lead.text ++ psalm.text) ((Regex.sequence [.group 2 referencePattern,
      .group 3 (.lazyStar (.satisfies isAny)), .endOfInput]).run (some : State → Option State)) := by
    intro state isSuffix
    rw [run_sequence_cons, run_group]
    refine psalm.referencePattern_failsOn_text ahead ?_ lead state isSuffix
    intro later laterAhead
    exact suffix (later.close state 2) laterAhead
  have keeps : (Regex.group 1 (.lazyStar (.satisfies isAny))).Keeps (· <:+ lead.text ++ psalm.text) :=
    fun c rest isSuffix _ => (List.suffix_cons c rest).trans isSuffix
  rw [firstMatch_anchored reference_extractor_anchored, reference_extractor, run_sequence_cons, run_startOfInput, run_sequence_cons,
    run_of_keeps keeps _ reference _ List.suffix_rfl, Option.map_none]

/-! ## The link -/

namespace PsalmCitation

/-- The element is linked by what stands before the letter, or not at all. -/
theorem linkify_text (psalm : PsalmCitation) (first : Char) (lead : Lead) {linked : Linked}
    (isLinked : linkify (first :: (lead.text ++ psalm.text)) = .ok (some linked)) :
    linked.link = psalm.upToNumber.link := by
  by_cases onOneLine : Plain psalm.tail
  · obtain ⟨parts, extracted, _, isText, _⟩ := psalm.extract_psalm onOneLine lead
    rw [psalm.upToNumber.linkify_extracted extracted isText] at isLinked
    cases isLinked
    rfl
  · simp only [linkify, List.drop_succ_cons, List.drop_zero, extract_psalm_none onOneLine lead] at isLinked
    cases isLinked

theorem chapterRef_ne (psalm : PsalmCitation) : psalm.upToNumber.chapterRef ≠ psalm.chapterRef := by
  simp [chapterRef]

theorem head_ranges (verses : VerseList) (chapter : Text) :
    ∃ range ranges, verses.items.ranges chapter = range :: ranges ∧ range.chapter_start = chapter := by
  cases verses with
  | last item => cases item <;> exact ⟨_, _, rfl, rfl⟩
  | more item before separator after verses => cases item <;> exact ⟨_, _, rfl, rfl⟩

theorem not_isReached [UriCodec] (escapesOnly : Uri.DecodesEscapesOnly) (psalm : PsalmCitation) (first : Char)
    (lead : Lead) : ¬psalm.IsReached (first :: (lead.text ++ psalm.text)) := by
  rintro ⟨linked, reference, isLinked, parameter, parses, _⟩
  rw [psalm.linkify_text first lead isLinked, psalm.upToNumber.getQueryParameter_link escapesOnly, if_pos rfl] at parameter
  obtain rfl := Option.some.inj (Except.ok.inj parameter)
  -- the parameter denotes the whole of a chapter without a letter
  rw [psalm.upToNumber.parse_parameter] at parses
  have sameRanges : psalm.upToNumber.ranges = psalm.ranges := congrArg Parsed.ranges (Except.ok.inj parses)
  obtain ⟨range, ranges, isHead, inChapter⟩ := head_ranges psalm.verses psalm.chapterRef
  rw [Citation.ranges, psalm.noVerses, PsalmCitation.ranges, isHead] at sameRanges
  obtain ⟨rfl, _⟩ := List.cons.inj sameRanges
  exact psalm.chapterRef_ne inChapter

/-- Where no chapter has the number alone, the router falls back on the first one. -/
theorem selects_first [UriCodec] (escapesOnly : Uri.DecodesEscapesOnly) (psalm : PsalmCitation) (first : Char)
    (lead : Lead) {linked : Linked} (isLinked : linkify (first :: (lead.text ++ psalm.text)) = .ok (some linked))
    {parts : List BiblePart} {getBookChapters : Text → List Text}
    (bookExists : ∃ part ∈ parts, ∃ entry ∈ part.bibleBookEntries, entry.bookRef = some psalm.bookRef)
    (absent : psalm.upToNumber.chapterRef ∉ getBookChapters psalm.bookRef) :
    ∃ fragment, newInstance parts getBookChapters linked.link = .ok (some fragment) ∧ fragment.bibleChapterId = 0 := by
  have path := psalm.upToNumber.getPath_link escapesOnly
  have query := psalm.upToNumber.getQueryParameter_link escapesOnly "query".toList
  have parameter := psalm.upToNumber.getQueryParameter_link escapesOnly "reference".toList
  have notSlash : ∀ {text : Text}, (∀ c ∈ text, c.isAlphanum = true) → '/' ∉ text :=
    fun alphanum member => absurd (alphanum '/' member) (by decide)
  rw [psalm.linkify_text first lead isLinked]
  obtain ⟨partIndex, bookIndex, part, entry, selected, _, _, _⟩ := newInstance_book getBookChapters
    (notSlash psalm.upToNumber.bookRef_isAlphanum) (notSlash psalm.upToNumber.chapterRef_isAlphanum)
    psalm.upToNumber.chapter.nonempty path query parameter bookExists
  -- the number alone is no chapter of the book, so the selection stays at the first one
  have notFound : locateChapter psalm.upToNumber.chapterRef (getBookChapters psalm.upToNumber.bookRef) = none := by
    rw [locateChapter, locate_absent, Option.map_none]
    rintro ⟨candidate, member, same⟩
    exact absent (of_decide_eq_true same ▸ member)
  rw [notFound] at selected
  exact ⟨_, selected, rfl⟩

end PsalmCitation

/-- No reference with a letter reaches its psalm.  Where the psalms are only known with their letters, its link opens
the first one of the book. -/
theorem psalm_not_reached [UriCodec] (escapesOnly : Uri.DecodesEscapesOnly) (first : Char) (lead : Lead)
    (psalm : PsalmCitation) :
    ¬psalm.IsReached (first :: (lead.text ++ psalm.text)) ∧
      ∀ linked, linkify (first :: (lead.text ++ psalm.text)) = .ok (some linked) →
        ∀ (parts : List BiblePart) (getBookChapters : Text → List Text),
          (∃ part ∈ parts, ∃ entry ∈ part.bibleBookEntries, entry.bookRef = some psalm.bookRef) →
          psalm.upToNumber.chapterRef ∉ getBookChapters psalm.bookRef →
          ∃ fragment, newInstance parts getBookChapters linked.link = .ok (some fragment) ∧
            fragment.bibleChapterId = 0 :=
  ⟨psalm.not_isReached escapesOnly first lead, fun _ isLinked _ _ bookExists absent =>
    psalm.selects_first escapesOnly first lead isLinked bookExists absent⟩

namespace Psalm9

theorem areSpaces : ∀ c ∈ [' '], isSpace c = true := by simp [isSpace]

theorem areDigits : Decimal.IsDigits ['9'] := by decide

theorem someDigit : ['9'] ≠ [] := by decide

theorem noLetter : ∀ c ∈ ([] : Text), c.isLower = true := by simp

def lead : Lead where
  text := [' ']
  plain := by simp [Plain, isAny, isLineTerminator]
  noDigit := by simp
  ends := .inl (by simp [isSpace])

def upToNumber : Citation where
  number := none
  book := ['P', 's']
  bookLetters := by simp
  bookNonempty := by decide
  notCantique := by simp
  afterBook := ⟨[' '], areSpaces⟩
  chapter := ⟨['9'], areDigits, someDigit⟩
  alternate := none
  verses := none

def verse (digit : Char) (isDigit : digit.isDigit = true) : Verse where
  digits := [digit]
  letters := []
  isDigits := by simpa [Decimal.IsDigits] using isDigit
  nonempty := by simp
  areLower := noLetter
  exact := by
    have small : Decimal.value [digit] < 10 ^ 1 := Decimal.value_lt (by simpa [Decimal.IsDigits] using isDigit)
    exact toNumber_of_lt (by omega)

def citation : PsalmCitation where
  upToNumber := upToNumber
  noAlternate := rfl
  noVerses := rfl
  afterNumber := ⟨[], by simp⟩
  letter := 'A'
  isLetter := by simp
  beforeVerses := ⟨[' '], areSpaces⟩
  verses := .last (.range (verse '2' rfl) (verse '3' rfl))

def parts : List BiblePart := [⟨[⟨some "Ps".toList⟩]⟩]

def getBookChapters (_ : Text) : List Text := ["8".toList, "9A".toList, "9B".toList]

theorem text_eq : '—' :: (lead.text ++ citation.text) = "— Ps 9A, 2-3".toList := by decide +kernel

/-- The reference of the reading is in psalm 9A; its link opens psalm 8, with no such verses. -/
theorem opens_another_psalm :
    letI : UriCodec := ⟨fun _ text => text⟩
    (∃ linked, linkify "— Ps 9A, 2-3".toList = .ok (some linked) ∧
      newInstance parts getBookChapters linked.link = .ok (some ⟨0, 0, 0, none, some "9".toList⟩)) ∧
    parse_reference "9".toList = .ok ⟨[⟨"9".toList, some 0, "9".toList, some ⊤⟩], []⟩ ∧
    ¬citation.IsReached "— Ps 9A, 2-3".toList := by
  let _ : UriCodec := ⟨fun _ text => text⟩
  have notReached := citation.not_isReached (fun _ _ _ _ => rfl) '—' lead
  rw [text_eq] at notReached
  refine ⟨⟨⟨"https://www.aelf.org/bible/Ps/9?reference=9".toList,
    buildContent "https://www.aelf.org/bible/Ps/9?reference=9".toList " Ps 9A, 2-3".toList⟩, ?_, ?_⟩, ?_, notReached⟩
  · decide +kernel
  · decide +kernel
  · decide +kernel

theorem not_reached_anywhere :
    letI : UriCodec := ⟨fun _ text => text⟩
    ¬citation.IsReached "— Ps 9A, 2-3".toList ∧
      ∀ linked, linkify "— Ps 9A, 2-3".toList = .ok (some linked) →
        ∃ fragment, newInstance parts getBookChapters linked.link = .ok (some fragment) ∧
          fragment.bibleChapterId = 0 := by
  let _ : UriCodec := ⟨fun _ text => text⟩
  obtain ⟨notReached, selects⟩ := psalm_not_reached (fun _ _ _ _ => rfl) '—' lead citation
  rw [text_eq] at notReached selects
  exact ⟨notReached, fun linked isLinked =>
    selects linked isLinked parts getBookChapters (by decide +kernel) (by decide +kernel)⟩

end Psalm9

end Aelf.Bible
