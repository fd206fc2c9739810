import Aelf.Bible.BookFragment
import Aelf.Bible.Citation
import Mathlib

/-! # Citations become links

From the text of an element to the passage that its link opens: the reference that the
extractor found is cleaned and taken apart, the link is built, and the router and
`parse_reference` read it. -/

namespace Aelf.Bible

open Aelf.Library Aelf.Library.JavaScript
open Aelf.Library.Regex

/-! ## Lower case and spaces -/

/-- The first two rewriting passes. -/
def stripped (text : Text) : Text := (toLowerCase text).filter fun c => !isSpace c

theorem stripped_append (first second : Text) : stripped (first ++ second) = stripped first ++ stripped second := by
  simp [stripped, toLowerCase]

theorem stripped_cons {c : Char} (notUpper : c.isUpper = false) (notSpace : isSpace c = false) (text : Text) :
    stripped (c :: text) = c :: stripped text := by
  have same : c.toLower = c := Char.toLower_eq_of_not_isUpper (by simp [notUpper])
  simp [stripped, toLowerCase, same, notSpace]

theorem stripped_eq_self {text : Text} (keeps : ∀ c ∈ text, c.isUpper = false ∧ isSpace c = false) :
    stripped text = text := by
  induction text with
  | nil => rfl
  | cons c text inductionHypothesis =>
    obtain ⟨notUpper, notSpace⟩ := keeps c (by simp)
    rw [stripped_cons notUpper notSpace, inductionHypothesis fun c member => keeps c (by simp [member])]

theorem isUpper_of_isDigit {c : Char} (digit : c.isDigit = true) : c.isUpper = false :=
  Bool.eq_false_iff.mpr fun upper => by simp [isDigit_of_isUpper upper] at digit

theorem isUpper_of_isLower {c : Char} (lower : c.isLower = true) : c.isUpper = false :=
  Bool.eq_false_iff.mpr fun upper => by simp [isLower_of_isUpper upper] at lower

theorem isSpace_of_isLower {c : Char} (lower : c.isLower = true) : isSpace c = false :=
  isSpace_of_isWordChar (isWordChar_of_isAlpha (isAlpha_of_isLower lower))

theorem Spaces.stripped (spaces : Spaces) : stripped spaces.text = [] := by
  rw [Bible.stripped, List.filter_eq_nil_iff]
  intro c member
  obtain ⟨space, isMember, rfl⟩ := List.mem_map.mp member
  have isSpace := spaces.areSpaces space isMember
  have notUpper : ¬space.isUpper = true := by
    intro upper
    simp [isSpace_of_isWordChar (isWordChar_of_isAlpha (isAlpha_of_isUpper upper))] at isSpace
  simp [Char.toLower_eq_of_not_isUpper notUpper, isSpace]

theorem stripped_digits {digits : Text} (isDigits : Decimal.IsDigits digits) : stripped digits = digits :=
  stripped_eq_self fun c member =>
    ⟨isUpper_of_isDigit (isDigits c member), isSpace_of_isDigit (isDigits c member)⟩

theorem Verse.stripped (verse : Verse) : stripped verse.text = verse.text := by
  have letters : Bible.stripped verse.letters = verse.letters := stripped_eq_self fun c member =>
    ⟨isUpper_of_isLower (verse.areLower c member), isSpace_of_isLower (verse.areLower c member)⟩
  rw [Verse.text, stripped_append, stripped_digits verse.isDigits, letters]

theorem stripped_letters {book : Text} (letters : ∀ c ∈ book, c.isAlpha = true) :
    stripped book = toLowerCase book := by
  rw [stripped, List.filter_eq_self]
  intro c member
  obtain ⟨letter, isMember, rfl⟩ := List.mem_map.mp member
  have lower : letter.toLower.isLower = true := by simp [letters letter isMember]
  simp [isSpace_of_isLower lower]

theorem VerseList.stripped (verses : VerseList) : stripped verses.text = verses.items.render Verse.text := by
  have dash : ∀ text, Bible.stripped ('-' :: text) = '-' :: Bible.stripped text :=
    stripped_cons (by decide) (by decide)
  have separated : ∀ (separator : Separator) text,
      Bible.stripped (separator.char :: text) = separator.char :: Bible.stripped text := by
    intro separator text
    cases separator <;> exact stripped_cons (by decide) (by decide) text
  induction verses with
  | last item =>
    cases item with
    | verse single => exact single.stripped
    | range first final =>
      simp [VerseList.text, VerseItem.text, VerseList.items, Items.render, stripped_append, dash, Verse.stripped]
  | more item before separator after verses inductionHypothesis =>
    cases item with
    | verse single =>
      simp [VerseList.text, VerseItem.text, VerseList.items, Items.render, stripped_append, separated,
        Verse.stripped, Spaces.stripped, inductionHypothesis]
    | range first final =>
      simp [VerseList.text, VerseItem.text, VerseList.items, Items.render, stripped_append, dash, separated,
        Verse.stripped, Spaces.stripped, inductionHypothesis]

/-! ## The characters of a reference -/

/-- What the verses of a link are written with. -/
def isReferenceChar (c : Char) : Bool := c.isDigit || c.isLower || c = '-' || c = ',' || c = '.'

theorem isReferenceChar_of_isDigit {c : Char} (digit : c.isDigit = true) : isReferenceChar c = true := by
  simp [isReferenceChar, digit]

theorem isAny_of_isReferenceChar {c : Char} (isReference : isReferenceChar c = true) : isAny c = true := by
  simp only [isReferenceChar, Bool.or_eq_true, decide_eq_true_eq, isDigit_iff, isLower_iff] at isReference
  obtain (((digit | lower) | rfl) | rfl) | rfl := isReference
  · exact isAny_of_printable (by omega)
  · exact isAny_of_printable (by omega)
  · decide
  · decide
  · decide

theorem Verse.isReferenceChar (verse : Verse) : ∀ c ∈ verse.text, isReferenceChar c = true := by
  intro c member
  cases List.mem_append.mp member with
  | inl digit => exact isReferenceChar_of_isDigit (verse.isDigits c digit)
  | inr letter => simp [Bible.isReferenceChar, verse.areLower c letter]

theorem Separator.isReferenceChar (separator : Separator) : isReferenceChar separator.char = true := by
  cases separator <;> decide

theorem VerseList.isReferenceChar (verses : VerseList) :
    ∀ c ∈ verses.items.render Verse.text, isReferenceChar c = true := by
  have verse := Verse.isReferenceChar
  have dash : Bible.isReferenceChar '-' = true := by decide
  induction verses with
  | last item =>
    cases item with
    | verse single => exact verse single
    | range first final =>
      simp only [VerseList.items, Items.render, List.forall_mem_append, List.forall_mem_cons]
      exact ⟨verse first, dash, verse final⟩
  | more item before separator after verses inductionHypothesis =>
    cases item with
    | verse single =>
      simp only [VerseList.items, Items.render, List.forall_mem_append, List.forall_mem_cons]
      exact ⟨verse single, separator.isReferenceChar, inductionHypothesis⟩
    | range first final =>
      simp only [VerseList.items, Items.render, List.forall_mem_append, List.forall_mem_cons]
      exact ⟨verse first, dash, verse final, separator.isReferenceChar, inductionHypothesis⟩

/-- A dash is not followed by a Roman numeral. -/
def NoSuffix (rest : Text) : Prop := rest.IsChain fun c next => c = '-' → isRomanChar next = false

theorem noSuffix_append {first second : Text} (noDash : '-' ∉ first) (noSuffix : NoSuffix second) :
    NoSuffix (first ++ second) := by
  induction first with
  | nil => exact noSuffix
  | cons c first inductionHypothesis =>
    rw [List.mem_cons, not_or] at noDash
    exact (inductionHypothesis noDash.2).cons fun next _ isDash => absurd isDash.symm noDash.1

theorem Verse.noSuffix (verse : Verse) {rest : Text} (noSuffix : NoSuffix rest) : NoSuffix (verse.text ++ rest) := by
  apply noSuffix_append _ noSuffix
  intro member
  cases List.mem_append.mp member with
  | inl digit => exact absurd (verse.isDigits '-' digit) (by decide)
  | inr letter => exact absurd (verse.areLower '-' letter) (by decide)

theorem Verse.noSuffix_dash (verse : Verse) {rest : Text} (noSuffix : NoSuffix rest) :
    NoSuffix ('-' :: (verse.text ++ rest)) := by
  refine (verse.noSuffix noSuffix).cons fun next head _ => ?_
  have digit : next.isDigit = true := by
    cases digits : verse.digits with
    | nil => exact absurd digits verse.nonempty
    | cons first others =>
      rw [Verse.text, digits] at head
      obtain rfl := Option.some.inj head
      exact verse.isDigits first (by simp [digits])
  rw [isDigit_iff] at digit
  simp only [isRomanChar, Bool.or_eq_false_iff, decide_eq_false_iff_not, Bool.and_eq_false_iff]
  refine ⟨⟨?_, ?_⟩, by omega⟩
  · rintro rfl
    exact absurd digit (by decide)
  · rintro rfl
    exact absurd digit (by decide)

theorem VerseList.noSuffix (verses : VerseList) : NoSuffix (verses.items.render Verse.text) := by
  have separated : ∀ (separator : Separator) {rest : Text}, NoSuffix rest → NoSuffix (separator.char :: rest) := by
    intro separator rest noSuffix
    cases separator <;> exact noSuffix.cons fun next _ isDash => absurd isDash (by decide)
  have ended : NoSuffix [] := .nil
  induction verses with
  | last item =>
    cases item with
    | verse single => simpa [VerseList.items, Items.render] using single.noSuffix ended
    | range first final => simpa [VerseList.items, Items.render] using first.noSuffix (final.noSuffix_dash ended)
  | more item before separator after verses inductionHypothesis =>
    cases item with
    | verse single => exact single.noSuffix (separated separator inductionHypothesis)
    | range first final => exact first.noSuffix (final.noSuffix_dash (separated separator inductionHypothesis))

/-! ## The second expression -/

section Chunks

variable {number name chapter rest : Text} {before : Text} {captures : Nat → Option Text}

/-- Nothing but the end of the text matches the end of the expression. -/
theorem run_suffix_none {c : Char} {left : Text} (noSuffix : NoSuffix (c :: left)) :
    (Regex.sequence [.star (.seq (.character '-') (.plus (.satisfies isRomanChar))), .endOfInput]).run
      (some : State → Option State) ⟨before, c :: left, captures⟩ = none := by
  rw [run_sequence_cons, run_star, run_sequence_cons, run_endOfInput_cons, Option.or_none, run_seq]
  by_cases isDash : c = '-'
  · rw [isDash, run_character_self, run_plus]
    cases left with
    | nil => rw [run_satisfies_nil]
    | cons next left =>
      have notRoman : isRomanChar next = false := (List.isChain_cons_cons.mp noSuffix).1 isDash
      rw [run_satisfies_cons, if_neg (by simp [notRoman])]
  · rw [run_character_of_ne _ _ _ _ isDash]

/-- The chunks after the comma. -/
theorem yields_rest (plain : Plain rest) (noSuffix : NoSuffix rest) (before : Text) (captures : Nat → Option Text) :
    Yields ((Regex.sequence [.group 5 (.lazyStar (.satisfies isAny)),
      .star (.seq (.character '-') (.plus (.satisfies isRomanChar))), .endOfInput]).run some ⟨before, rest, captures⟩)
        fun final => final.captures = Function.update captures 5 (some rest) := by
  rw [run_sequence_cons, run_group]
  have whole : rest = rest ++ [] := (List.append_nil rest).symm
  rw [whole]
  apply yields_lazyStar plain
  · intro taken c left isSplit
    rw [State.close_eq _ _ _ taken (by simp [isSplit]), List.append_nil]
    have suffix : NoSuffix (taken ++ c :: left) := isSplit ▸ noSuffix
    exact run_suffix_none suffix.right_of_append
  · rw [State.close_eq _ _ _ rest (by simp), run_sequence_cons, run_star, run_sequence_cons, run_endOfInput_nil,
      run_sequence_nil, run_seq, run_character_nil, Option.none_or, yields_some, List.append_nil]

/-- What follows the chapter: nothing, or a comma and verses. -/
structure AfterChapter (comma rest : Text) : Prop where
  shape : (comma = [] ∧ rest = []) ∨ comma = [',']
  plain : Plain rest
  noSuffix : NoSuffix rest

theorem AfterChapter.stops {comma rest : Text} (after : AfterChapter comma rest) {accepts : Char → Bool}
    (notComma : accepts ',' = false) : Stops accepts (comma ++ rest) := by
  obtain ⟨rfl, rfl⟩ | rfl := after.shape
  · exact stops_nil
  · simpa using notComma

theorem yields_comma {comma rest : Text} (after : AfterChapter comma rest) :
    Yields ((Regex.sequence [.group 4 (.opt (.character ',')), .group 5 (.lazyStar (.satisfies isAny)),
      .star (.seq (.character '-') (.plus (.satisfies isRomanChar))), .endOfInput]).run some
        ⟨before, comma ++ rest, captures⟩)
        fun final => final.captures = Function.update (Function.update captures 4 (some comma)) 5 (some rest) := by
  have verses := yields_rest after.plain after.noSuffix
  rw [run_sequence_cons, run_group, run_opt]
  obtain ⟨rfl, rfl⟩ | rfl := after.shape
  · rw [List.nil_append, run_character_nil, Option.none_or, State.close_eq _ _ _ [] (by simp)]
    exact verses _ _
  · rw [List.singleton_append, run_character_self, State.close_eq _ _ _ [','] (by simp)]
    exact (verses _ _).or_left _

/-- The chunks from the name of the book on. -/
theorem yields_name {comma rest : Text} (after : AfterChapter comma rest) (isLower : ∀ c ∈ name, c.isLower = true)
    (nameNonempty : name ≠ []) (isDigits : Decimal.IsDigits chapter) (chapterNonempty : chapter ≠ [])
    (before : Text) (captures : Nat → Option Text) :
    Yields ((Regex.sequence [.group 2 (.plus (.satisfies Char.isLower)),
      .group 3 (.seq (.star (.satisfies Char.isDigit)) (.star (.satisfies fun c => c = 'a' || c = 'b'))),
      .group 4 (.opt (.character ',')), .group 5 (.lazyStar (.satisfies isAny)),
      .star (.seq (.character '-') (.plus (.satisfies isRomanChar))), .endOfInput]).run some
        ⟨before, name ++ (chapter ++ (comma ++ rest)), captures⟩)
        fun final => final.captures = Function.update (Function.update (Function.update (Function.update captures
          2 (some name)) 3 (some chapter)) 4 (some comma)) 5 (some rest) := by
  have stops : Stops Char.isLower (chapter ++ (comma ++ rest)) := by
    cases chapter with
    | nil => exact absurd rfl chapterNonempty
    | cons first others => simpa using isLower_of_isDigit (isDigits first (by simp))
  cases name with
  | nil => exact absurd rfl nameNonempty
  | cons first others =>
    rw [run_sequence_cons, run_group, run_plus, List.cons_append, run_satisfies_cons,
      if_pos (isLower first (by simp))]
    apply yields_star_longest (fun c member => isLower c (by simp [member])) stops
    rw [State.close_eq _ _ _ (first :: others) (by simp), run_sequence_cons, run_group, run_seq]
    apply yields_star_longest isDigits (after.stops (by decide))
    rw [run_star_of_stops (after.stops (by decide)), State.close_eq _ _ _ chapter rfl]
    exact yields_comma after

/-- The second expression reads a cleaned reference, whose number has one digit at most. -/
theorem yields_chunks {comma rest : Text} (after : AfterChapter comma rest) (isNumber : Decimal.IsDigits number)
    (short : number.length ≤ 1) (isLower : ∀ c ∈ name, c.isLower = true) (nameNonempty : name ≠ [])
    (isDigits : Decimal.IsDigits chapter) (chapterNonempty : chapter ≠ []) :
    Yields (chunksPattern.firstMatch (number ++ (name ++ (chapter ++ (comma ++ rest))))) fun chunks =>
      chunks 1 = some number ∧ chunks 2 = some name ∧ chunks 3 = some chapter ∧ chunks 4 = some comma ∧
        chunks 5 = some rest := by
  apply yields_firstMatch
  rw [chunksPattern, run_sequence_cons, run_group, run_opt]
  have fromName := yields_name after isLower nameNonempty isDigits chapterNonempty
  cases number with
  | nil =>
    -- the name starts with a letter, so the first group is empty
    obtain ⟨final, found, captured⟩ := fromName [] (Function.update (fun _ => none) 1 (some []))
    refine Yields.or_right ⟨final, ?_, ?_⟩ ?_
    · rw [State.close_eq _ _ _ [] (by simp), List.nil_append]
      exact found
    · simp [captured]
    · cases name with
      | nil => exact absurd rfl nameNonempty
      | cons first others =>
        rw [List.nil_append, List.cons_append, run_satisfies_cons,
          if_neg (by simp [isDigit_of_isLower (isLower first (by simp))])]
  | cons digit more =>
    obtain rfl : more = [] := List.length_eq_zero_iff.mp (by simpa using short)
    obtain ⟨final, found, captured⟩ := fromName [digit] (Function.update (fun _ => none) 1 (some [digit]))
    rw [List.singleton_append, run_satisfies_cons, if_pos (isNumber digit (by simp)),
      State.close_eq _ _ _ [digit] (by simp)]
    exact Yields.or_left ⟨final, found, by simp [captured]⟩ _

end Chunks

/-! ## Cleaning a citation -/

theorem parenthesisPattern_startsWith : StartsWith parenthesisPattern '(' := by
  intro before c rest captures other
  rw [parenthesisPattern, run_sequence_cons, run_character_of_ne _ _ _ _ other]

theorem parenthesisPattern_matches {digits : Text} (isDigits : Decimal.IsDigits digits) (rest before : Text) :
    ∃ final : State, parenthesisPattern.run some ⟨before, '(' :: (digits ++ [')'] ++ rest), fun _ => none⟩ = some final ∧
      final.after = rest := by
  change Yields _ fun final : State => final.after = rest
  rw [parenthesisPattern, run_sequence_cons, run_character_self, run_sequence_cons,
    List.append_assoc]
  apply yields_star_longest isDigits (by simp)
  rw [List.singleton_append, run_sequence_cons, run_opt, run_satisfies_cons, if_neg (by decide), Option.none_or,
    run_sequence_cons, run_character_self, run_sequence_nil, yields_some]

namespace Citation

/-- The parts of the cleaned reference. -/
def numberChars (citation : Citation) : Text := (citation.number.map fun number => number.1.char).toList

def comma (citation : Citation) : Text := if citation.verses.isSome then [','] else []

def rest (citation : Citation) : Text :=
  match citation.verses with
  | none => []
  | some (_, verses) => verses.items.render Verse.text

theorem afterChapter (citation : Citation) : AfterChapter citation.comma citation.rest := by
  cases present : citation.verses with
  | none => exact ⟨.inl ⟨by simp [comma, present], by rw [rest, present]⟩, by simp [rest, present],
      by rw [rest, present]; exact .nil⟩
  | some verses =>
    obtain ⟨spaces, verses⟩ := verses
    have text : citation.rest = verses.items.render Verse.text := by rw [rest, present]
    rw [text]
    exact ⟨.inr (by simp [comma, present]), fun c member => isAny_of_isReferenceChar (verses.isReferenceChar c member),
      verses.noSuffix⟩

theorem isReferenceChar_rest (citation : Citation) : ∀ c ∈ citation.comma ++ citation.rest, isReferenceChar c = true := by
  cases present : citation.verses with
  | none => simp [comma, rest, present]
  | some verses =>
    obtain ⟨spaces, verses⟩ := verses
    have text : citation.comma ++ citation.rest = ',' :: verses.items.render Verse.text := by
      simp [comma, rest, present]
    rw [text, List.forall_mem_cons]
    exact ⟨by decide, verses.isReferenceChar⟩

theorem numberChars_isDigits (citation : Citation) : Decimal.IsDigits citation.numberChars := by
  intro c member
  cases present : citation.number with
  | none => simp [numberChars, present] at member
  | some number =>
    obtain rfl : c = number.1.char := by simpa [numberChars, present] using member
    cases number.1 <;> rfl

theorem numberChars_length (citation : Citation) : citation.numberChars.length ≤ 1 := by
  cases present : citation.number <;> simp [numberChars, present]

theorem lowerBook_isLower (citation : Citation) : ∀ c ∈ toLowerCase citation.book, c.isLower = true := by
  intro c member
  obtain ⟨letter, isMember, rfl⟩ := List.mem_map.mp member
  simp [citation.bookLetters letter isMember]

theorem stripped_text (citation : Citation) :
    stripped citation.text = citation.numberChars ++ (toLowerCase citation.book ++ (citation.chapter.text ++
      (stripped citation.alternateText ++ (citation.comma ++ citation.rest)))) := by
  have number : stripped citation.numberText = citation.numberChars := by
    cases present : citation.number with
    | none => simp [numberText, numberChars, present, stripped, toLowerCase]
    | some number =>
      have digit : number.1.char.isDigit = true := by cases number.1 <;> rfl
      have kept := stripped_cons (isUpper_of_isDigit digit) (isSpace_of_isDigit digit) number.2.text
      simp [numberText, numberChars, present, kept, number.2.stripped]
  have verses : stripped citation.versesText = citation.comma ++ citation.rest := by
    cases present : citation.verses with
    | none => simp [versesText, comma, rest, present, stripped, toLowerCase]
    | some verses =>
      have kept := stripped_cons (show ','.isUpper = false by decide) (by decide) (verses.1.text ++ verses.2.text)
      simp [versesText, comma, rest, present, kept, stripped_append, verses.1.stripped, verses.2.stripped]
  rw [text, textAfterBook, stripped_append, stripped_append, stripped_append, stripped_append, stripped_append, number,
    stripped_letters citation.bookLetters, citation.afterBook.stripped, stripped_digits citation.chapter.isDigits, verses,
    List.nil_append]

theorem cleanReference_text (citation : Citation) :
    cleanReference citation.text = citation.numberChars ++ (toLowerCase citation.book ++ (citation.chapter.text ++
      (citation.comma ++ citation.rest))) := by
  have beforeAlternate : '(' ∉ citation.numberChars ++ (toLowerCase citation.book ++ citation.chapter.text) := by
    simp only [List.mem_append, not_or]
    exact ⟨fun member => absurd (citation.numberChars_isDigits '(' member) (by decide),
      fun member => absurd (citation.lowerBook_isLower '(' member) (by decide),
      fun member => absurd (citation.chapter.isDigits '(' member) (by decide)⟩
  have afterAlternate : '(' ∉ citation.comma ++ citation.rest :=
    fun member => absurd (citation.isReferenceChar_rest '(' member) (by decide)
  have passes : cleanReference citation.text = removeAll parenthesisPattern (stripped citation.text) := by
    rw [cleanReference, removeAll_star, stripped]
  have grouped : ∀ middle : Text, citation.numberChars ++ (toLowerCase citation.book ++ (citation.chapter.text ++
      (middle ++ (citation.comma ++ citation.rest)))) = (citation.numberChars ++ (toLowerCase citation.book ++
        citation.chapter.text)) ++ (middle ++ (citation.comma ++ citation.rest)) := by
    simp
  rw [passes, stripped_text]
  -- the only parenthesis is that of the other numbering
  cases present : citation.alternate with
  | none =>
    have absent : stripped citation.alternateText = [] := by
      rw [alternateText, present]
      rfl
    rw [absent, List.nil_append]
    apply removeAll_absent parenthesisPattern_startsWith
    simp only [List.mem_append, not_or] at beforeAlternate afterAlternate ⊢
    exact ⟨beforeAlternate.1, beforeAlternate.2.1, beforeAlternate.2.2, afterAlternate⟩
  | some alternate =>
    have kept : stripped citation.alternateText = '(' :: (alternate.2.text ++ [')']) := by
      have opening := stripped_cons (show '('.isUpper = false by decide) (by decide) (alternate.2.text ++ [')'])
      have closing := stripped_cons (show ')'.isUpper = false by decide) (by decide) []
      have nothing : stripped [] = [] := rfl
      simp [alternateText, present, stripped_append, alternate.1.stripped, opening, closing, nothing,
        stripped_digits alternate.2.isDigits]
    rw [kept, grouped, List.cons_append, removeAll_once parenthesisPattern_startsWith beforeAlternate afterAlternate
      (parenthesisPattern_matches alternate.2.isDigits (citation.comma ++ citation.rest))]
    simp

/-! ## The link -/

theorem bookNonempty_lower (citation : Citation) : toLowerCase citation.book ≠ [] := by
  simpa [toLowerCase] using citation.bookNonempty

/-- The letters of a book end where it ends. -/
theorem text_not_cantique (citation : Citation) : "CANTIQUE".toList.isPrefixOf citation.text = false := by
  rw [← Bool.not_eq_true, List.isPrefixOf_iff_prefix]
  intro starts
  cases present : citation.number with
  | some number =>
    have head : citation.text.head? = some number.1.char := by
      rw [text, numberText, present]
      rfl
    obtain ⟨after, shape⟩ := starts
    rw [← shape] at head
    have isLetter : 'C' = number.1.char := Option.some.inj head
    cases isNumber : number.1 <;> rw [isNumber] at isLetter <;> exact absurd isLetter (by decide)
  | none =>
    have shape : citation.text = citation.book ++ citation.textAfterBook := by
      rw [text, numberText, present, List.nil_append]
    rw [shape] at starts
    cases List.prefix_or_prefix_of_prefix starts (List.prefix_append citation.book citation.textAfterBook) with
    | inl inBook => exact citation.notCantique inBook
    | inr shorter =>
      -- the rest of the word would start where the book ends, and nothing there is a letter
      obtain ⟨letters, split⟩ := shorter
      cases letters with
      | nil => exact citation.notCantique (by rw [← split, List.append_nil])
      | cons letter letters =>
        have isLetter : ∀ c ∈ "CANTIQUE".toList, c.isAlpha = true := List.all_eq_true.mp (by rfl)
        have member : letter ∈ citation.book ++ letter :: letters := by simp
        have alpha : letter.isAlpha = true := isLetter letter (split ▸ member)
        rw [← split, List.prefix_append_right_inj] at starts
        obtain ⟨after, starts⟩ := starts
        have stops := citation.stops_after_book letter (by rw [← starts]; rfl)
        simp [alpha] at stops

/-- The link of a citation. -/
def link (citation : Citation) : Text :=
  buildLink citation.numberChars (toLowerCase citation.book) citation.chapter.text
    (toUpperCase citation.chapter.text ++ citation.comma ++ citation.rest)

/-- The link depends only on the reference that was extracted. -/
theorem linkify_extracted (citation : Citation) {content : Text} {parts : Nat → Option Text}
    (extracted : reference_extractor.firstMatch content = some parts) (isText : parts 2 = some citation.text)
    (first : Char) :
    linkify (first :: content) = .ok (some ⟨citation.link,
      buildContent citation.link ((parts 1).getD [] ++ citation.text ++ (parts 3).getD [])⟩) := by
  obtain ⟨chunks, matched, isNumber, isName, isChapter, isComma, isRest⟩ :=
    yields_chunks citation.afterChapter citation.numberChars_isDigits citation.numberChars_length
      citation.lowerBook_isLower citation.bookNonempty_lower citation.chapter.isDigits citation.chapter.nonempty
  have nonempty : (citation.numberChars ++ (toLowerCase citation.book ++ (citation.chapter.text ++
      (citation.comma ++ citation.rest)))).isEmpty = false := by
    simp [citation.bookNonempty_lower]
  simp only [linkify, List.drop_succ_cons, List.drop_zero, extracted, isText, Option.getD_some, citation.text_not_cantique, citation.cleanReference_text,
    nonempty, matched, isNumber, isName, isChapter, isComma, isRest, Bool.false_eq_true, if_false, link]

theorem linkify_text (first : Char) (lead : Lead) (citation : Citation) :
    linkify (first :: (lead.text ++ citation.text)) =
      .ok (some ⟨citation.link, buildContent citation.link (lead.text ++ citation.text)⟩) := by
  obtain ⟨parts, extracted, isLead, isText, isSuffix⟩ := extract_citation lead citation
  rw [citation.linkify_extracted extracted isText, isLead, isSuffix, Option.getD_some, Option.getD_some, List.append_nil]

theorem toUpperCase_digits {digits : Text} (isDigits : Decimal.IsDigits digits) : toUpperCase digits = digits :=
  calc digits.map Char.toUpper
    _ = digits.map id := List.map_congr_left fun c member =>
      Char.toUpper_eq_of_not_isLower (by simp [isLower_of_isDigit (isDigits c member)])
    _ = digits := List.map_id digits

/-- The link has the book and the chapter in its path, and the verses in its only parameter. -/
theorem link_eq (citation : Citation) :
    citation.link = Uri.link "https".toList "www.aelf.org".toList
      ("/bible/".toList ++ (citation.bookRef ++ '/' :: citation.chapterRef)) "reference".toList
      (citation.chapterRef ++ (citation.comma ++ citation.rest)) := by
  delta link buildLink
  simp [Uri.link, toUpperCase_digits citation.chapter.isDigits, bookRef, chapterRef, numberChars]

/-! ## The characters of the link -/

theorem bookRef_isAlphanum (citation : Citation) : ∀ c ∈ citation.bookRef, c.isAlphanum = true := by
  intro c member
  rw [bookRef, List.mem_append] at member
  cases member with
  | inl inNumber => simp [Char.isAlphanum, citation.numberChars_isDigits c inNumber]
  | inr inBook =>
    have lower := citation.lowerBook_isLower
    have alpha : c.isAlpha = true := by
      cases List.mem_append.mp inBook with
      | inl inFirst =>
        obtain ⟨letter, isMember, rfl⟩ := List.mem_map.mp inFirst
        simp [Char.isAlpha, lower letter (List.mem_of_mem_take isMember)]
      | inr inOthers => exact isAlpha_of_isLower (lower c (List.mem_of_mem_drop inOthers))
    simp [Char.isAlphanum, alpha]

theorem chapterRef_isAlphanum (citation : Citation) : ∀ c ∈ citation.chapterRef, c.isAlphanum = true :=
  fun c member => by simp [Char.isAlphanum, citation.chapter.isDigits c member]

/-- The path is made of letters, digits and slashes. -/
theorem path_isPlain (citation : Citation) :
    ∀ c ∈ "/bible/".toList ++ (citation.bookRef ++ '/' :: citation.chapterRef), c.isAlphanum = true ∨ c = '/' := by
  have start : ∀ c ∈ "/bible/".toList, c.isAlphanum = true ∨ c = '/' := by simp
  rw [List.forall_mem_append, List.forall_mem_append, List.forall_mem_cons]
  exact ⟨start, fun c member => .inl (citation.bookRef_isAlphanum c member), .inr rfl,
    fun c member => .inl (citation.chapterRef_isAlphanum c member)⟩

theorem path_endsPath (citation : Citation) :
    ∀ c ∈ "/bible/".toList ++ (citation.bookRef ++ '/' :: citation.chapterRef), Uri.endsPath c = false := by
  intro c member
  cases citation.path_isPlain c member with
  | inl alphanum =>
    have notEnd : ∀ c, c = '?' ∨ c = '#' → c.isAlphanum = false := by simp
    exact Bool.eq_false_iff.mpr fun ends => by simp [notEnd c (by simpa [Uri.endsPath] using ends)] at alphanum
  | inr slash => simp [slash, Uri.endsPath]

theorem parameter_isReferenceChar (citation : Citation) :
    ∀ c ∈ citation.chapterRef ++ (citation.comma ++ citation.rest), isReferenceChar c = true := by
  rw [List.forall_mem_append]
  exact ⟨fun c member => isReferenceChar_of_isDigit (citation.chapter.isDigits c member),
    citation.isReferenceChar_rest⟩

theorem getPath_link [UriCodec] (escapesOnly : Uri.DecodesEscapesOnly) (citation : Citation) :
    Uri.getPath citation.link = some ("/bible/".toList ++ (citation.bookRef ++ '/' :: citation.chapterRef)) := by
  have absent : ∀ c ∈ ['%', '+'], ¬(c.isAlphanum = true ∨ c = '/') := by simp
  have inPath := citation.path_isPlain
  rw [link_eq]
  exact Uri.getPath_link escapesOnly (by simp) (by simp [Uri.endsAuthority, Uri.endsPath]) (by simp)
    citation.path_endsPath (fun member => absent '%' (by simp) (inPath '%' member))
    (fun member => absent '+' (by simp) (inPath '+' member))

theorem getQueryParameter_link [UriCodec] (escapesOnly : Uri.DecodesEscapesOnly) (citation : Citation)
    (wanted : Text) :
    Uri.getQueryParameter citation.link wanted = .ok (if wanted = "reference".toList
      then some (citation.chapterRef ++ (citation.comma ++ citation.rest)) else none) := by
  have absent : ∀ c ∈ ['#', '&', '%', '+'], isReferenceChar c = false := by simp [isReferenceChar]
  have inValue : ∀ c ∈ ['#', '&', '%', '+'], c ∉ citation.chapterRef ++ (citation.comma ++ citation.rest) := by
    intro c other member
    simpa [absent c other] using citation.parameter_isReferenceChar c member
  have inQuery : ∀ c ∈ ['#', '&'],
      c ∉ "reference".toList ++ '=' :: (citation.chapterRef ++ (citation.comma ++ citation.rest)) := by
    have inKey : ∀ c ∈ ['#', '&'], c ∉ "reference".toList ++ ['='] := by simp
    intro c other member
    have listed : c ∈ ['#', '&', '%', '+'] := List.mem_append_left ['%', '+'] other
    rw [← List.singleton_append, ← List.append_assoc] at member
    cases List.mem_append.mp member with
    | inl member => exact inKey c other member
    | inr member => exact inValue c listed member
  rw [link_eq]
  exact Uri.getQueryParameter_link escapesOnly (by simp) (by simp [Uri.endsAuthority, Uri.endsPath])
    citation.path_endsPath (inQuery '#' (by simp)) (inQuery '&' (by simp)) (by simp) (inValue '%' (by simp))
    (inValue '+' (by simp)) wanted

/-! ## The verses -/

/-- The parameter of the link, as a sentence of the notation of references. -/
def notationReference (citation : Citation) : Reference :=
  let chapter : Chapter := ⟨citation.chapter.text, [], citation.chapter.isDigits, citation.chapter.nonempty, by simp⟩
  match citation.verses with
  | none => .bare chapter
  | some (_, verses) => .last (.verses chapter verses.items)

theorem notationReference_text (citation : Citation) :
    citation.notationReference.text = citation.chapterRef ++ (citation.comma ++ citation.rest) := by
  cases present : citation.verses with
  | none => simp [notationReference, present, Reference.text, Reference.render, Chapter.text, chapterRef, comma, rest]
  | some verses =>
    simp [notationReference, present, Reference.text, Reference.render, Group.render, Chapter.text, chapterRef, comma,
      rest]

theorem notationReference_ranges (citation : Citation) : citation.notationReference.ranges = citation.ranges := by
  cases present : citation.verses with
  | none => simp [notationReference, present, Reference.ranges, Chapter.text, chapterRef, ranges]
  | some verses => simp [notationReference, present, Reference.ranges, Group.ranges, Chapter.text, chapterRef, ranges]

theorem parse_parameter (citation : Citation) :
    parse_reference (citation.chapterRef ++ (citation.comma ++ citation.rest)) = .ok ⟨citation.ranges, []⟩ := by
  rw [← notationReference_text, parse_reference, Reference.removeAll_text, ← notationReference_ranges]
  exact citation.notationReference.parses _ (Nat.le_refl _)

end Citation

/-- The link of a citation leads to the book and the chapter that it names, and its parameter is read as the verses
that it names. -/
theorem citation_links_to_passage [UriCodec] (escapesOnly : Uri.DecodesEscapesOnly) (first : Char) (lead : Lead)
    (citation : Citation) :
    ∃ linked reference, linkify (first :: (lead.text ++ citation.text)) = .ok (some linked) ∧
      Uri.getPath linked.link = some ("/bible/".toList ++ (citation.bookRef ++ '/' :: citation.chapterRef)) ∧
      Uri.getQueryParameter linked.link "reference".toList = .ok (some reference) ∧
      parse_reference reference = .ok ⟨citation.ranges, []⟩ ∧
      ∀ (parts : List BiblePart) (getBookChapters : Text → List Text),
        (∃ part ∈ parts, ∃ entry ∈ part.bibleBookEntries, entry.bookRef = some citation.bookRef) →
        citation.chapterRef ∈ getBookChapters citation.bookRef →
        ∃ fragment part entry index, newInstance parts getBookChapters linked.link = .ok (some fragment) ∧
          parts[fragment.biblePartId]? = some part ∧ part.bibleBookEntries[fragment.bibleBookId]? = some entry ∧
          entry.bookRef = some citation.bookRef ∧ fragment.bibleChapterId = ((index : Nat) : Int) ∧
          (getBookChapters citation.bookRef)[index]? = some citation.chapterRef ∧ fragment.query = none ∧
          fragment.reference = some reference := by
  have path := citation.getPath_link escapesOnly
  have parameter := citation.getQueryParameter_link escapesOnly "reference".toList
  have query := citation.getQueryParameter_link escapesOnly "query".toList
  rw [if_pos rfl] at parameter
  rw [if_neg (by simp)] at query
  refine ⟨_, _, citation.linkify_text first lead, path, parameter, citation.parse_parameter, ?_⟩
  intro parts getBookChapters bookExists chapterExists
  have notSlash : ∀ {text : Text}, (∀ c ∈ text, c.isAlphanum = true) → '/' ∉ text :=
    fun alphanum member => absurd (alphanum '/' member) (by decide)
  exact newInstance_chapter (notSlash citation.bookRef_isAlphanum) (notSlash citation.chapterRef_isAlphanum)
    citation.chapter.nonempty path query parameter bookExists chapterExists

namespace StabatMater

def lead : Lead where
  text := "Stabat Mater. ".toList
  plain := by simp [Plain, isAny, isLineTerminator]
  noDigit := by simp
  ends := .inr ⟨"Stabat Mater".toList, '.', [' '], by simp, by decide, by decide, by simp [isSpace]⟩

def verse (digits letters : Text) (isDigits : Decimal.IsDigits digits) (nonempty : digits ≠ [])
    (areLower : ∀ c ∈ letters, c.isLower = true) (small : Decimal.value digits < 2 ^ 53) : Verse :=
  ⟨digits, letters, isDigits, nonempty, areLower, toNumber_of_lt small⟩

def citation : Citation where
  number := none
  book := ['J', 'n']
  bookLetters := by simp
  bookNonempty := by decide
  notCantique := by simp
  afterBook := ⟨[' '], by simp [isSpace]⟩
  chapter := ⟨['1', '9'], by decide, by decide⟩
  alternate := none
  verses := some (⟨[' '], by simp [isSpace]⟩, .last (.range
    (verse ['2', '5'] [] (by decide) (by decide) (by simp) (by decide))
    (verse ['2', '7'] ['a'] (by decide) (by decide) (by simp) (by decide))))

def parts : List BiblePart := [⟨[⟨none⟩, ⟨some "Lc".toList⟩, ⟨some "Jn".toList⟩]⟩]

def getBookChapters (_ : Text) : List Text := ["18".toList, "19".toList]

theorem links_to_john_19 :
    letI : UriCodec := ⟨fun _ text => text⟩
    ∃ linked reference, linkify "—Stabat Mater. Jn 19, 25-27a".toList = .ok (some linked) ∧
      Uri.getPath linked.link = some "/bible/Jn/19".toList ∧
      parse_reference reference = .ok ⟨[⟨"19".toList, some 25, "19".toList, some 27⟩], []⟩ ∧
      ∃ fragment, newInstance parts getBookChapters linked.link = .ok (some fragment) ∧
        fragment.reference = some reference := by
  let _ : UriCodec := ⟨fun _ text => text⟩
  have text : '—' :: (lead.text ++ citation.text) = "—Stabat Mater. Jn 19, 25-27a".toList := by decide +kernel
  have path : "/bible/".toList ++ (citation.bookRef ++ '/' :: citation.chapterRef) = "/bible/Jn/19".toList := by
    decide +kernel
  have ranges : citation.ranges = [⟨"19".toList, some 25, "19".toList, some 27⟩] := by decide +kernel
  obtain ⟨linked, reference, isLinked, isPath, _, isParsed, selects⟩ :=
    citation_links_to_passage (fun _ _ _ _ => rfl) '—' lead citation
  obtain ⟨fragment, _, _, _, isFragment, _, _, _, _, _, _, isReference⟩ :=
    selects parts getBookChapters (by decide +kernel) (by decide +kernel)
  rw [text] at isLinked
  rw [path] at isPath
  rw [ranges] at isParsed
  exact ⟨linked, reference, isLinked, isPath, isParsed, fragment, isFragment, isReference⟩

end StabatMater

namespace RoundedCitation

def digits : Text := "9007199254740993".toList

theorem parseInt_digits : parseInt digits = some ((9007199254740992 : Nat) : ℕ∞) := by
  have isDigits : Decimal.IsDigits digits := by decide +kernel
  have value : Decimal.value digits = 9007199254740993 := by decide +kernel
  rw [parseInt_isDigits isDigits (by decide +kernel), value, toNumber_first_rounded]

theorem parses : Parses .chapter_start ("19".toList ++ ',' :: digits)
    [⟨"19".toList, some (9007199254740992 : Nat), "19".toList, some (9007199254740992 : Nat)⟩] := by
  have chapter : IsNumber "19".toList (',' :: digits) := ⟨by simp, by decide +kernel⟩
  have verse : IsNumber digits [] := ⟨by decide +kernel, by decide +kernel⟩
  apply parses_silent chapter rfl
  apply parses_last verse
  simp [transition, parseInt_digits]

/-- The link is the right one, but its verse is rounded when it is read. -/
theorem verse_is_rounded :
    (∃ linked, linkify "—Jn 19,9007199254740993".toList = .ok (some linked) ∧
      linked.link = "https://www.aelf.org/bible/Jn/19?reference=19,9007199254740993".toList) ∧
    parse_reference "19,9007199254740993".toList = .ok ⟨[⟨"19".toList, some (9007199254740992 : Nat), "19".toList,
      some (9007199254740992 : Nat)⟩], []⟩ ∧
    ((9007199254740992 : Nat) : ℕ∞) ≠ (9007199254740993 : Nat) := by
  refine ⟨⟨⟨"https://www.aelf.org/bible/Jn/19?reference=19,9007199254740993".toList,
    buildContent "https://www.aelf.org/bible/Jn/19?reference=19,9007199254740993".toList
      "Jn 19,9007199254740993".toList⟩, by decide +kernel, rfl⟩, ?_, ?_⟩
  · have noLetters : removeAll (.star (.satisfies Char.isLower)) "19,9007199254740993".toList =
        "19".toList ++ ',' :: digits := by
      rw [removeAll_star]
      decide +kernel
    rw [parse_reference, noLetters]
    exact parses _ (Nat.le_refl _)
  · rw [Ne, Nat.cast_inj]
    decide

end RoundedCitation

end Aelf.Bible
