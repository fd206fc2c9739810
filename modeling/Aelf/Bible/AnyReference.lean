import Aelf.Bible.Notation

/-! # `parse_reference` on any text

The state machine reads a number, then the separator after it, which says what the next
number stands for.  This is followed here on every text, sentence or not: what the loop
does with it, when it stops with an exception, and which texts it takes for shorter
references than they are. -/

namespace Aelf.Bible

open Aelf.Library Aelf.Library.JavaScript
open Aelf.Library.Regex

/-! ## The notation of the state machine -/

/-- What a number stands for, in the order in which the numbers of one range are read. -/
inductive Slot where
  | chapter_start
  | verse_start
  | chapter_end
  | verse_end
deriving DecidableEq, Repr

/-- The separators that may follow a number, with the slot of the number that comes next. -/
def Slot.next : Slot → Char → Option Slot
  | .chapter_start, ',' => some .verse_start
  | .chapter_start, '-' => some .chapter_end
  | .verse_start, '.' | .verse_start, ',' => some .verse_start
  | .verse_start, ';' => some .chapter_start
  | .verse_start, '-' => some .verse_end
  | .verse_start, '–' => some .chapter_end
  | .chapter_end, ',' => some .verse_end
  | .chapter_end, '.' => some .verse_start
  | .chapter_end, ';' => some .chapter_start
  | .verse_end, '.' | .verse_end, ',' => some .verse_start
  | .verse_end, ';' => some .chapter_start
  | _, _ => none

def Slot.rank : Slot → Nat
  | .chapter_start => 0
  | .verse_start => 1
  | .chapter_end => 2
  | .verse_end => 3

/-- `[0-9]+[A-Z]*`: every number is written as a chapter may be. -/
abbrev Numeral := Chapter

/-- A complete sentence, with its numbers and what they stand for. -/
inductive Sentence : Slot → List (Slot × Text) → Text → Prop where
  | last (slot : Slot) (number : Numeral) : Sentence slot [(slot, number.text)] number.text
  | more {slot next : Slot} {separator : Char} {numbers : List (Slot × Text)} {rest : Text} (number : Numeral)
      (separates : slot.next separator = some next) (sentence : Sentence next numbers rest) :
      Sentence slot ((slot, number.text) :: numbers) (number.text ++ separator :: rest)

/-- The number is what the range has in its slot. -/
def Range.Has (range : Range) : Slot × Text → Prop
  | (.chapter_start, number) => range.chapter_start = number
  | (.verse_start, number) => range.verse_start = parseInt number
  | (.chapter_end, number) => range.chapter_end = number
  | (.verse_end, number) => range.verse_end = parseInt number

/-- The numbers that a range is made of, no two for one slot. -/
structure Makes (source : List (Slot × Text)) (range : Range) : Prop where
  ordered : source.Pairwise fun first second => first.1.rank < second.1.rank
  has : ∀ number ∈ source, range.Has number

/-- Each number has its place in one of the ranges. -/
def Contribute (numbers : List (Slot × Text)) (ranges : List Range) : Prop :=
  ∃ sources : List (List (Slot × Text)), sources.flatten = numbers ∧ List.Forall₂ Makes sources ranges

def withoutLetters (reference : Text) : Text := reference.filter fun c => !c.isLower

/-- The reference is read or refused, and what is read without an error is read completely. -/
def ReadsOrRefuses (reference : Text) : Prop :=
  ∃ parsed, parse_reference reference = .ok parsed ∧
    (parsed.errors = [] → withoutLetters reference = [] ∨
      ∃ numbers, Sentence .chapter_start numbers (withoutLetters reference) ∧ Contribute numbers parsed.ranges)

/-! ## Numbers in their places -/

/-- Where a character stands: where a number has to start, or inside one. -/
inductive Place where
  | start (slot : Slot)
  | digits (slot : Slot)
  | letters (slot : Slot)

/-- Up to the first character that may not stand where it does, no number is missing. -/
def numbered : Place → Text → Bool
  | .start _, [] => false
  | .digits _, [] | .letters _, [] => true
  | .start slot, c :: rest => c.isDigit && numbered (.digits slot) rest
  | .digits slot, c :: rest =>
    if c.isDigit then numbered (.digits slot) rest
    else if c.isUpper then numbered (.letters slot) rest
    else
      match slot.next c with
      | none => true
      | some next => numbered (.start next) rest
  | .letters slot, c :: rest =>
    if c.isUpper then numbered (.letters slot) rest
    else
      match slot.next c with
      | none => true
      | some next => numbered (.start next) rest

/-- No line ends in the reference, and it is empty or has all its numbers. -/
def Numbered (reference : Text) : Prop :=
  (withoutLetters reference).all isAny = true ∧
    (withoutLetters reference = [] ∨ numbered (.start .chapter_start) (withoutLetters reference) = true)

instance (reference : Text) : Decidable (Numbered reference) := inferInstanceAs (Decidable (_ ∧ _))

/-- What follows a number. -/
structure Numeral.Before (number : Numeral) (rest : Text) : Prop where
  digits : Stops Char.isDigit (number.letters ++ rest)
  uppers : Stops Char.isUpper rest

/-! ## Chunks of any text -/

theorem Numeral.isNumber {number : Numeral} {rest : Text} (before : number.Before rest) (plain : Plain rest) :
    IsNumber number.text rest :=
  ⟨by simp [Chapter.text, number.nonempty],
    chunk_eq number.isDigits number.nonempty number.areUpper before.digits before.uppers plain⟩

theorem Numeral.before_nil (number : Numeral) : number.Before [] := by
  refine ⟨?_, stops_nil⟩
  cases letters : number.letters with
  | nil => exact stops_nil
  | cons c others =>
    have upper := number.areUpper c (by simp [letters])
    simpa using isDigit_of_isUpper upper

/-- A text that starts with a digit starts with a number. -/
theorem exists_numeral {c : Char} (digit : c.isDigit = true) (rest : Text) :
    ∃ (number : Numeral) (after : Text), c :: rest = number.text ++ after ∧ number.Before after := by
  obtain ⟨digits, afterDigits, split, areDigits, stopsDigits⟩ := exists_longestRun Char.isDigit rest
  obtain ⟨letters, after, splitLetters, areUpper, stopsUpper⟩ := exists_longestRun Char.isUpper afterDigits
  have isDigits : Decimal.IsDigits (c :: digits) := by
    intro other member
    obtain rfl | member := List.mem_cons.mp member
    · exact digit
    · exact areDigits other member
  refine ⟨⟨c :: digits, letters, isDigits, by simp, areUpper⟩, after, ?_, ?_, stopsUpper⟩
  · simp [Chapter.text, split, splitLetters]
  · rw [← splitLetters]
    exact stopsDigits

theorem chunkPattern_anchored (state : State) (inside : state.before ≠ []) :
    chunkPattern.run (some : State → Option State) state = none := by
  rw [chunkPattern, run_sequence_cons]
  exact if_neg (by simpa using inside)

theorem chunk_eq_none {reference : Text} (fails : chunkPattern.run some ⟨[], reference, fun _ => none⟩ = none) :
    chunk reference = none := by
  rw [chunk, firstMatch_anchored chunkPattern_anchored, fails]
  rfl

/-- `.` does not match the end of a line, and the pattern has to reach the end of the text. -/
theorem chunk_of_not_plain {reference : Text} (notPlain : ¬Plain reference) : chunk reference = none := by
  obtain ⟨bad, member, refused⟩ : ∃ c ∈ reference, isAny c = false := by
    simpa [Plain] using notPlain
  have notDigit : bad.isDigit = false := by
    by_contra digit
    rw [isAny_of_isDigit (by simpa using digit)] at refused
    cases refused
  have notUpper : bad.isUpper = false := by
    by_contra upper
    rw [isAny_of_isUpper (by simpa using upper)] at refused
    cases refused
  have keeps : (Regex.sequence [.startOfInput,
      .group 1 (.seq (.plus (.satisfies Char.isDigit)) (.star (.satisfies Char.isUpper))),
      .group 2 (.opt (.satisfies isAny)), .group 3 (.star (.satisfies isAny))]).Keeps (bad ∈ ·) :=
    ⟨trivial, ⟨⟨keeps_mem notDigit, keeps_mem notDigit⟩, keeps_mem notUpper⟩, ⟨keeps_mem refused, trivial⟩,
      keeps_mem refused, trivial⟩
  exact chunk_eq_none (run_of_keeps keeps _ (endOfInput_failsOn (by simp) some) _ member)

theorem chunk_of_not_digit {c : Char} (notDigit : c.isDigit = false) (rest : Text) : chunk (c :: rest) = none := by
  apply chunk_eq_none
  rw [chunkPattern, run_sequence_cons, run_startOfInput, run_sequence_cons, run_group, run_seq, run_plus,
    run_satisfies_cons, if_neg (by simp [notDigit])]

/-- A text that is not empty is unreadable, or starts with a number. -/
theorem reference_induction {motive : Text → Prop} (nil : motive [])
    (unreadable : ∀ c rest, c.isDigit = false ∨ ¬Plain (c :: rest) → motive (c :: rest))
    (last : ∀ number : Numeral, motive number.text)
    (more : ∀ (number : Numeral) (separator : Char) (rest : Text), number.Before (separator :: rest) →
      Plain (separator :: rest) → motive rest → motive (number.text ++ separator :: rest))
    (reference : Text) : motive reference := by
  -- a number is taken off with the character that follows it, so what is left is shorter
  induction length : reference.length using Nat.strong_induction_on generalizing reference with
  | _ size inductionHypothesis =>
    cases reference with
    | nil => exact nil
    | cons c rest =>
      by_cases readable : c.isDigit = true ∧ Plain (c :: rest)
      · obtain ⟨digit, plain⟩ := readable
        obtain ⟨number, after, split, before⟩ := exists_numeral digit rest
        rw [split]
        rw [split, plain_append] at plain
        cases after with
        | nil => simpa using last number
        | cons separator after =>
          have shorter : after.length < size := by
            rw [← length, split, List.length_append, List.length_cons]
            omega
          exact more number separator after before plain.2 (inductionHypothesis _ shorter after rfl)
      · rw [not_and_or, Bool.not_eq_true] at readable
        exact unreadable c rest readable

/-! ## The loop -/

/-- The loop with enough fuel. -/
def parseFrom (state : ParseState) (reference : Text) : Except ScriptError Parsed :=
  parseLoop reference.length state reference

theorem parse_reference_eq (reference : Text) :
    parse_reference reference = parseFrom .chapter_start (withoutLetters reference) := by
  rw [parse_reference, removeAll_star]
  rfl

theorem chunk_unreadable {c : Char} {rest : Text} (unreadable : c.isDigit = false ∨ ¬Plain (c :: rest)) :
    chunk (c :: rest) = none := by
  obtain notDigit | notPlain := unreadable
  · exact chunk_of_not_digit notDigit rest
  · exact chunk_of_not_plain notPlain

theorem parseLoop_unreadable {c : Char} {rest : Text} (unreadable : c.isDigit = false ∨ ¬Plain (c :: rest))
    (fuel : Nat) (state : ParseState) : parseLoop (fuel + 1) state (c :: rest) = .error .typeError := by
  simp only [parseLoop, chunk_unreadable unreadable]

/-- What the loop does with a separator, given what it does with the rest. -/
def continueWith (separator : Char) (rest : ParseState → Except ScriptError Parsed) :
    List Range × Move → Except ScriptError Parsed
  | (pushed, .stop) => .ok ⟨pushed, []⟩
  | (pushed, .invalidSeparator) => .ok ⟨pushed, [invalidSeparatorError [separator]]⟩
  | (pushed, .next state) => (rest state).map fun parsed => ⟨pushed ++ parsed.ranges, parsed.errors⟩

theorem parseLoop_more {number : Numeral} {separator : Char} {rest : Text} (before : number.Before (separator :: rest))
    (plain : Plain (separator :: rest)) (fuel : Nat) (state : ParseState) :
    parseLoop (fuel + 1) state (number.text ++ separator :: rest) =
      continueWith separator (parseLoop fuel · rest) (transition state number.text [separator]) := by
  rw [parseLoop_number (Numeral.isNumber before plain), List.take_succ_cons, List.take_zero, List.drop_succ_cons,
    List.drop_zero]
  obtain ⟨pushed, move⟩ := transition state number.text [separator]
  cases move with
  | next state =>
    cases outcome : parseLoop fuel state rest with
    | error error => simp [continueWith, outcome, bind, Except.bind, Except.map]
    | ok parsed => simp [continueWith, outcome, bind, Except.bind, Except.map, pure, Except.pure]
  | stop => rfl
  | invalidSeparator => rfl

theorem continueWith_next {separator : Char} {rest : ParseState → Except ScriptError Parsed} {pushed : List Range}
    {next : ParseState} {parsed : Parsed} (continued : continueWith separator rest (pushed, .next next) = .ok parsed) :
    ∃ later, rest next = .ok later ∧ parsed = ⟨pushed ++ later.ranges, later.errors⟩ := by
  cases outcome : rest next with
  | error error =>
    rw [continueWith, outcome] at continued
    cases continued
  | ok later =>
    rw [continueWith, outcome] at continued
    cases continued
    exact ⟨later, rfl, rfl⟩

/-- The range as it stands when a number is the last one. -/
def ParseState.finish : ParseState → Text → Range
  | .chapter_start, number => ⟨number, some 0, number, some ⊤⟩
  | .verse_start current, number => { current with verse_start := parseInt number, verse_end := parseInt number }
  | .verse_end current, number => { current with verse_end := parseInt number }
  | .chapter_end current, number => { current with chapter_end := number, verse_end := some ⊤ }

theorem transition_last (state : ParseState) (number : Text) :
    transition state number [] = ([state.finish number], .stop) := by
  cases state <;> rfl

theorem parses_numeral (state : ParseState) (number : Numeral) :
    Parses state number.text [state.finish number.text] :=
  parses_last (Numeral.isNumber number.before_nil plain_nil) (transition_last state number.text)

/-- More fuel than there is text changes nothing. -/
theorem parseLoop_fuel (reference : Text) (state : ParseState) (fuel otherFuel : Nat)
    (enough : reference.length ≤ fuel) (otherEnough : reference.length ≤ otherFuel) :
    parseLoop fuel state reference = parseLoop otherFuel state reference := by
  induction reference using reference_induction generalizing state fuel otherFuel with
  | nil => cases fuel <;> cases otherFuel <;> rfl
  | unreadable c rest unreadable =>
    cases fuel with
    | zero => simp at enough
    | succ fuel =>
      cases otherFuel with
      | zero => simp at otherEnough
      | succ otherFuel => rw [parseLoop_unreadable unreadable, parseLoop_unreadable unreadable]
  | last number => rw [parses_numeral state number fuel enough, parses_numeral state number otherFuel otherEnough]
  | more number separator rest before plain inductionHypothesis =>
    rw [List.length_append, List.length_cons] at enough otherEnough
    -- one unit of fuel goes to the number, and the rest still has enough
    cases fuel with
    | zero => omega
    | succ fuel =>
      cases otherFuel with
      | zero => omega
      | succ otherFuel =>
        have sameRest : (parseLoop fuel · rest) = (parseLoop otherFuel · rest) := by
          funext next
          exact inductionHypothesis next fuel otherFuel (by omega) (by omega)
        rw [parseLoop_more before plain, parseLoop_more before plain, sameRest]

section

variable {state : ParseState} {number : Numeral} {separator c : Char} {rest : Text}

theorem parseFrom_unreadable (unreadable : c.isDigit = false ∨ ¬Plain (c :: rest)) :
    parseFrom state (c :: rest) = .error .typeError := parseLoop_unreadable unreadable _ _

theorem parseFrom_last : parseFrom state number.text = .ok ⟨[state.finish number.text], []⟩ :=
  parses_numeral state number _ (Nat.le_refl _)

theorem parseFrom_more (before : number.Before (separator :: rest)) (plain : Plain (separator :: rest)) :
    parseFrom state (number.text ++ separator :: rest) =
      continueWith separator (parseFrom · rest) (transition state number.text [separator]) := by
  have fuel : (number.text ++ separator :: rest).length = number.text.length + rest.length + 1 := by
    simp [Nat.add_assoc]
  have sameRest : (parseLoop (number.text.length + rest.length) · rest) = (parseFrom · rest) := by
    funext next
    exact parseLoop_fuel rest next _ _ (by omega) (Nat.le_refl _)
  rw [parseFrom, fuel, parseLoop_more before plain, sameRest]

end

/-! ## What a separator does -/

def ParseState.slot : ParseState → Slot
  | .chapter_start => .chapter_start
  | .verse_start _ => .verse_start
  | .verse_end _ => .verse_end
  | .chapter_end _ => .chapter_end

/-- The range that is being built. -/
def ParseState.current? : ParseState → Option Range
  | .chapter_start => none
  | .verse_start current | .verse_end current | .chapter_end current => some current

/-- These numbers have been read into the range that is being built. -/
structure ParseState.Holds (state : ParseState) (opened : List (Slot × Text)) : Prop where
  ordered : opened.Pairwise fun first second => first.1.rank < second.1.rank
  earlier : ∀ number ∈ opened, number.1.rank < state.slot.rank
  has : ∀ number ∈ opened, ∃ current ∈ state.current?, current.Has number

theorem ParseState.holds_nil (state : ParseState) : state.Holds [] := ⟨.nil, by simp, by simp⟩

/-- How a separator is taken: it is invalid, it ends the range, or the range goes on. -/
inductive Separates (state : ParseState) (number : Text) (separator : Char) : Prop where
  | invalid (isInvalid : state.slot.next separator = none)
      (moves : transition state number [separator] = ([], .invalidSeparator))
  | ends (next : ParseState) (separates : state.slot.next separator = some next.slot)
      (moves : transition state number [separator] = ([state.finish number], .next next))
  | continues (next : ParseState) (separates : state.slot.next separator = some next.slot)
      (moves : transition state number [separator] = ([], .next next)) (later : state.slot.rank < next.slot.rank)
      (keeps : ∀ read : Slot × Text, read.1.rank ≤ state.slot.rank → (state.finish number).Has read →
        ∃ current ∈ next.current?, current.Has read)

theorem separates (state : ParseState) (number : Text) (separator : Char) : Separates state number separator := by
  by_cases known : separator ∈ [',', '.', '-', ';', '–']
  · simp only [List.mem_cons, List.not_mem_nil, or_false] at known
    obtain rfl | rfl | rfl | rfl | rfl := known
    · cases state with
      | chapter_start => exact .continues (.verse_start _) rfl rfl (Nat.lt_add_one 0) fun _ _ has => ⟨_, rfl, has⟩
      | verse_start current => exact .ends (.verse_start _) rfl rfl
      | verse_end current => exact .ends (.verse_start _) rfl rfl
      | chapter_end current =>
        exact .continues (.verse_end _) rfl rfl (Nat.lt_add_one 2) fun _ _ has => ⟨_, rfl, has⟩
    · cases state with
      | chapter_start => exact .invalid rfl rfl
      | verse_start current => exact .ends (.verse_start _) rfl rfl
      | verse_end current => exact .ends (.verse_start _) rfl rfl
      | chapter_end current => exact .ends (.verse_start _) rfl rfl
    · cases state with
      | chapter_start =>
        exact .continues (.chapter_end _) rfl rfl (Nat.zero_lt_succ 1) fun _ _ has => ⟨_, rfl, has⟩
      | verse_start current =>
        exact .continues (.verse_end _) rfl rfl (Nat.succ_lt_succ (Nat.zero_lt_succ 1)) fun _ _ has => ⟨_, rfl, has⟩
      | verse_end current => exact .invalid rfl rfl
      | chapter_end current => exact .invalid rfl rfl
    · cases state with
      | chapter_start => exact .invalid rfl rfl
      | verse_start current => exact .ends .chapter_start rfl rfl
      | verse_end current => exact .ends .chapter_start rfl rfl
      | chapter_end current => exact .ends .chapter_start rfl rfl
    · cases state with
      | chapter_start => exact .invalid rfl rfl
      | verse_start current =>
        refine .continues (.chapter_end _) rfl rfl (Nat.lt_add_one 1) fun read early has => ⟨_, rfl, ?_⟩
        -- the end of the range is overwritten, but no number has been read for it yet
        obtain ⟨slot, number⟩ := read
        cases slot with
        | chapter_start => exact has
        | verse_start => exact has
        | chapter_end => simp [ParseState.slot, Slot.rank] at early
        | verse_end => simp [ParseState.slot, Slot.rank] at early
      | verse_end current => exact .invalid rfl rfl
      | chapter_end current => exact .invalid rfl rfl
  · simp only [List.mem_cons, List.not_mem_nil, or_false, not_or] at known
    obtain ⟨comma, dot, dash, semicolon, longDash⟩ := known
    apply Separates.invalid
    · cases state <;> simp [ParseState.slot, Slot.next, comma, dot, dash, semicolon, longDash]
    · cases state <;> simp [transition, comma, dot, dash, semicolon, longDash]

/-- A separator of the notation leads to the state of the slot that it announces. -/
theorem transition_separator (state : ParseState) (number : Text) (separator : Char) :
    (state.slot.next separator = none ∧ transition state number [separator] = ([], .invalidSeparator)) ∨
      ∃ pushed next, state.slot.next separator = some (ParseState.slot next) ∧
        transition state number [separator] = (pushed, .next next) := by
  cases separates state number separator with
  | invalid isInvalid moves => exact .inl ⟨isInvalid, moves⟩
  | ends next separates moves => exact .inr ⟨_, next, separates, moves⟩
  | continues next separates moves later keeps => exact .inr ⟨_, next, separates, moves⟩

/-- A number overwrites its own slot and later ones. -/
theorem ParseState.finish_has {state : ParseState} {current : Range} {read : Slot × Text}
    (isCurrent : current ∈ state.current?) (earlier : read.1.rank < state.slot.rank) (has : current.Has read)
    (number : Text) : (state.finish number).Has read := by
  obtain ⟨slot, text⟩ := read
  cases state with
  | chapter_start => cases isCurrent
  | verse_start range =>
    obtain rfl := Option.some.inj isCurrent
    cases slot <;> first | exact has | simp [ParseState.slot, Slot.rank] at earlier
  | verse_end range =>
    obtain rfl := Option.some.inj isCurrent
    cases slot <;> first | exact has | simp [ParseState.slot, Slot.rank] at earlier
  | chapter_end range =>
    obtain rfl := Option.some.inj isCurrent
    cases slot <;> first | exact has | simp [ParseState.slot, Slot.rank] at earlier

/-- The last number of a range takes its place beside those that are already there. -/
theorem ParseState.Holds.makes {state : ParseState} {opened : List (Slot × Text)} (holds : state.Holds opened)
    (number : Text) : Makes (opened ++ [(state.slot, number)]) (state.finish number) := by
  constructor
  · rw [List.pairwise_append]
    refine ⟨holds.ordered, List.pairwise_singleton _ _, ?_⟩
    intro first isOpened last isLast
    rw [List.mem_singleton.mp isLast]
    exact holds.earlier first isOpened
  · intro read member
    obtain isOpened | isLast := List.mem_append.mp member
    · obtain ⟨current, isCurrent, has⟩ := holds.has read isOpened
      exact ParseState.finish_has isCurrent (holds.earlier read isOpened) has number
    · rw [List.mem_singleton.mp isLast]
      cases state <;> rfl

/-- A range that goes on holds the number that has just been read as well. -/
theorem ParseState.Holds.snoc {state next : ParseState} {opened : List (Slot × Text)} {number : Text}
    (holds : state.Holds opened) (later : state.slot.rank < next.slot.rank)
    (keeps : ∀ read : Slot × Text, read.1.rank ≤ state.slot.rank → (state.finish number).Has read →
      ∃ current ∈ next.current?, current.Has read) : next.Holds (opened ++ [(state.slot, number)]) := by
  have makes := holds.makes number
  have upTo : ∀ read ∈ opened ++ [(state.slot, number)], read.1.rank ≤ state.slot.rank := by
    intro read member
    obtain isOpened | isLast := List.mem_append.mp member
    · exact (holds.earlier read isOpened).le
    · rw [List.mem_singleton.mp isLast]
  exact ⟨makes.ordered, fun read member => (upTo read member).trans_lt later,
    fun read member => keeps read (upTo read member) (makes.has read member)⟩

/-! ## Texts that have all their numbers -/

theorem numbered_letters (slot : Slot) {letters rest : Text} (areUpper : ∀ c ∈ letters, c.isUpper = true) :
    numbered (.letters slot) (letters ++ rest) = numbered (.letters slot) rest := by
  induction letters with
  | nil => rfl
  | cons c letters inductionHypothesis =>
    rw [List.cons_append, numbered, if_pos (areUpper c (by simp))]
    exact inductionHypothesis fun other member => areUpper other (by simp [member])

theorem numbered_digits (slot : Slot) {digits rest : Text} (areDigits : ∀ c ∈ digits, c.isDigit = true) :
    numbered (.digits slot) (digits ++ rest) = numbered (.digits slot) rest := by
  induction digits with
  | nil => rfl
  | cons c digits inductionHypothesis =>
    rw [List.cons_append, numbered, if_pos (areDigits c (by simp))]
    exact inductionHypothesis fun other member => areDigits other (by simp [member])

/-- After a number, the next character decides. -/
theorem numbered_numeral (slot : Slot) {number : Numeral} {rest : Text} (before : number.Before rest) :
    numbered (.start slot) (number.text ++ rest) = numbered (.letters slot) rest := by
  obtain ⟨digits, letters, isDigits, nonempty, areUpper⟩ := number
  obtain ⟨stopsDigits, stopsUpper⟩ := before
  cases digits with
  | nil => exact absurd rfl nonempty
  | cons first digits =>
    rw [Chapter.text, List.cons_append, List.cons_append, numbered, isDigits first (by simp), Bool.true_and,
      List.append_assoc, numbered_digits slot fun c member => isDigits c (by simp [member])]
    cases letters with
    | nil =>
      cases rest with
      | nil => rfl
      | cons c rest =>
        -- without letters the character after the digits is read twice, in two states that agree on it
        have notDigit : c.isDigit = false := by simpa using stopsDigits
        rw [List.nil_append, numbered, numbered, notDigit, if_neg Bool.false_ne_true]
    | cons letter letters =>
      have upper := areUpper letter (by simp)
      rw [List.cons_append, numbered, isDigit_of_isUpper upper, if_neg Bool.false_ne_true, if_pos upper]
      exact numbered_letters slot fun c member => areUpper c (by simp [member])

theorem numbered_separator (slot : Slot) {separator : Char} (notUpper : separator.isUpper = false) (rest : Text) :
    numbered (.letters slot) (separator :: rest) =
      match slot.next separator with
      | none => true
      | some next => numbered (.start next) rest := by
  rw [numbered, notUpper, if_neg Bool.false_ne_true]

theorem Slot.next_mem {slot next : Slot} {separator : Char} (isNext : slot.next separator = some next) :
    separator ∈ [',', '.', '-', ';', '–'] := by
  revert isNext
  fun_cases Slot.next slot separator <;> simp

/-- A separator of the notation ends a number. -/
theorem Numeral.before_separator (number : Numeral) {slot next : Slot} {separator : Char}
    (isNext : slot.next separator = some next) (rest : Text) : number.Before (separator :: rest) := by
  have separated := separated_cons separator (Slot.next_mem isNext) plain_nil
  obtain ⟨stopsDigits, _⟩ := number.before_nil
  refine ⟨?_, by simpa using separated.uppers⟩
  cases letters : number.letters with
  | nil => simpa using separated.digits
  | cons letter others => simpa [letters] using stopsDigits

/-- A sentence has all its numbers. -/
theorem Sentence.numbered {slot : Slot} {numbers : List (Slot × Text)} {reference : Text}
    (sentence : Sentence slot numbers reference) : Bible.numbered (.start slot) reference = true := by
  induction sentence with
  | last slot number =>
    have read := numbered_numeral slot number.before_nil
    rwa [List.append_nil] at read
  | @more slot next separator numbers rest number separates _ inductionHypothesis =>
    have before := number.before_separator separates rest
    rw [numbered_numeral slot before, numbered_separator slot (by simpa using before.uppers), separates]
    exact inductionHypothesis

/-- Where a number is missing, the text is unreadable or at its end. -/
theorem not_numbered {c : Char} {rest : Text} (plain : Plain (c :: rest))
    (unreadable : c.isDigit = false ∨ ¬Plain (c :: rest)) (slot : Slot) :
    numbered (.start slot) (c :: rest) = false := by
  obtain notDigit | notPlain := unreadable
  · rw [numbered, notDigit, Bool.false_and]
  · exact absurd plain notPlain

/-- A text with all its numbers is refused, or each of them contributes to a range. -/
theorem reads_of_numbered {reference : Text} (plain : Plain reference) (state : ParseState)
    (isNumbered : numbered (.start state.slot) reference = true) {opened : List (Slot × Text)}
    (holds : state.Holds opened) :
    ∃ parsed, parseFrom state reference = .ok parsed ∧
      (parsed.errors = [] → ∃ numbers, Sentence state.slot numbers reference ∧
        Contribute (opened ++ numbers) parsed.ranges) := by
  induction reference using reference_induction generalizing state opened with
  | nil => cases isNumbered
  | unreadable c rest unreadable =>
    rw [not_numbered plain unreadable] at isNumbered
    cases isNumbered
  | last number =>
    have contribute : Contribute (opened ++ [(state.slot, number.text)]) [state.finish number.text] :=
      ⟨[opened ++ [(state.slot, number.text)]], by simp, .cons (holds.makes number.text) .nil⟩
    exact ⟨_, parseFrom_last, fun _ => ⟨_, .last state.slot number, contribute⟩⟩
  | more number separator rest before plainRest inductionHypothesis =>
    rw [parseFrom_more before plainRest]
    rw [numbered_numeral _ before, numbered_separator _ (by simpa using before.uppers)] at isNumbered
    rw [plain_cons] at plainRest
    cases separates state number.text separator with
    | invalid isInvalid moves =>
      rw [moves]
      exact ⟨_, rfl, fun noError => by cases noError⟩
    | ends next separates moves =>
      rw [separates] at isNumbered
      -- the range is closed, and the next one holds no number yet
      obtain ⟨parsed, parses, reads⟩ := inductionHypothesis plainRest.2 next isNumbered next.holds_nil
      rw [moves]
      refine ⟨_, by rw [continueWith, parses]; rfl, fun noError => ?_⟩
      obtain ⟨numbers, sentence, sources, rfl, makes⟩ := reads noError
      exact ⟨_, .more number separates sentence, (opened ++ [(state.slot, number.text)]) :: sources, by simp,
        .cons (holds.makes number.text) makes⟩
    | continues next separates moves later keeps =>
      rw [separates] at isNumbered
      -- the number joins those of the open range
      obtain ⟨parsed, parses, reads⟩ := inductionHypothesis plainRest.2 next isNumbered (holds.snoc later keeps)
      rw [moves]
      refine ⟨_, by rw [continueWith, parses]; rfl, fun noError => ?_⟩
      obtain ⟨numbers, sentence, contribute⟩ := reads noError
      exact ⟨_, .more number separates sentence, by simpa using contribute⟩

/-- Without an exception no line ends, and an error is only logged after the numbers that belong there. -/
theorem numbered_of_parseFrom {reference : Text} {state : ParseState} {parsed : Parsed}
    (parses : parseFrom state reference = .ok parsed) :
    Plain reference ∧ (parsed.errors ≠ [] → numbered (.start state.slot) reference = true) := by
  induction reference using reference_induction generalizing state parsed with
  | nil =>
    cases parses
    exact ⟨plain_nil, fun hasError => absurd rfl hasError⟩
  | unreadable c rest unreadable =>
    rw [parseFrom_unreadable unreadable] at parses
    cases parses
  | last number =>
    rw [parseFrom_last] at parses
    cases parses
    exact ⟨plain_chapter number, fun hasError => absurd rfl hasError⟩
  | more number separator rest before plainRest inductionHypothesis =>
    refine ⟨plain_append.mpr ⟨plain_chapter number, plainRest⟩, fun hasError => ?_⟩
    rw [parseFrom_more before plainRest] at parses
    rw [numbered_numeral _ before, numbered_separator _ (by simpa using before.uppers)]
    obtain ⟨isInvalid, _⟩ | ⟨pushed, next, separates, moves⟩ := transition_separator state number.text separator
    · rw [isInvalid]
    · rw [moves] at parses
      obtain ⟨later, parsesRest, rfl⟩ := continueWith_next parses
      rw [separates]
      exact (inductionHypothesis parsesRest).2 hasError

/-! ## Every reference -/

theorem plain_iff_all {text : Text} : Plain text ↔ text.all isAny = true := List.all_eq_true.symm

theorem ReadsOrRefuses.numbered {reference : Text} (readsOrRefuses : ReadsOrRefuses reference) :
    Numbered reference := by
  obtain ⟨parsed, parses, reads⟩ := readsOrRefuses
  rw [parse_reference_eq] at parses
  obtain ⟨plain, refused⟩ := numbered_of_parseFrom parses
  refine ⟨plain_iff_all.mp plain, ?_⟩
  by_cases noError : parsed.errors = []
  · obtain empty | ⟨numbers, sentence, _⟩ := reads noError
    · exact .inl empty
    · exact .inr sentence.numbered
  · exact .inr (refused noError)

theorem Numbered.readsOrRefuses {reference : Text} (isNumbered : Numbered reference) : ReadsOrRefuses reference := by
  obtain ⟨onOneLine, empty | isNumbered⟩ := isNumbered
  · refine ⟨⟨[], []⟩, ?_, fun _ => .inl empty⟩
    rw [parse_reference_eq, empty]
    rfl
  · obtain ⟨parsed, parses, reads⟩ :=
      reads_of_numbered (plain_iff_all.mpr onOneLine) .chapter_start isNumbered (ParseState.holds_nil _)
    exact ⟨parsed, (parse_reference_eq reference).trans parses, fun noError => .inr (reads noError)⟩

/-- A reference is read or refused exactly when it is empty or has all its numbers, on one line. -/
theorem parse_reference_readsOrRefuses_iff (reference : Text) : ReadsOrRefuses reference ↔ Numbered reference :=
  ⟨ReadsOrRefuses.numbered, Numbered.readsOrRefuses⟩

/-- After a last separator the loop just ends: the range that was begun is neither returned nor reported. -/
theorem trailing_comma_not_readsOrRefuses :
    parse_reference "1,".toList = .ok ⟨[], []⟩ ∧ ¬ReadsOrRefuses "1,".toList := by
  refine ⟨by decide +kernel, fun readsOrRefuses => ?_⟩
  have missing : ¬Numbered "1,".toList := by decide +kernel
  exact missing readsOrRefuses.numbered

end Aelf.Bible
