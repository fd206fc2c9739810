import Aelf.Library.JavaScript

/-! # `parse_reference`

The state machine of `chapter.js` that reads a Bible reference.  The range that is
being built is part of the states that read it; `current` is overwritten before use in
`chapter_start`. -/

namespace Aelf.Bible

open Aelf.Library Aelf.Library.JavaScript
open Aelf.Library.Regex

abbrev Text := List Char

/-- What a script stops with when it reads a property of `null`. -/
inductive ScriptError where
  | typeError
deriving DecidableEq, Repr

structure Range where
  chapter_start : Text
  verse_start : Number
  chapter_end : Text
  verse_end : Number
deriving DecidableEq

/-! ## One chunk -/

/-- `^([0-9]+[A-Z]*)(.?)(.*)$` -/
def chunkPattern : Regex := .sequence
  [.startOfInput, .group 1 (.seq (.plus (.satisfies Char.isDigit)) (.star (.satisfies Char.isUpper))),
    .group 2 (.opt (.satisfies isAny)), .group 3 (.star (.satisfies isAny)), .endOfInput]

/-- The number, the separator and the rest of a reference. -/
def chunk (reference : Text) : Option (Text × Text × Text) := do
  let captures ← chunkPattern.firstMatch reference
  return (← captures 1, ← captures 2, ← captures 3)

/-- A number is read up to the separator that follows it. -/
theorem chunk_eq {digits letters rest : Text} (isDigits : Decimal.IsDigits digits) (nonempty : digits ≠ [])
    (areUpper : ∀ c ∈ letters, c.isUpper = true) (stopsDigits : Regex.Stops Char.isDigit (letters ++ rest))
    (stopsUpper : Regex.Stops Char.isUpper rest) (plain : ∀ c ∈ rest, isAny c = true) :
    chunk (digits ++ letters ++ rest) = some (digits ++ letters, rest.take 1, rest.drop 1) := by
  cases digits with
  | nil => exact absurd rfl nonempty
  | cons first others =>
    have firstDigit : first.isDigit = true := isDigits first (by simp)
    have othersDigits : ∀ c ∈ others, c.isDigit = true := fun c member => isDigits c (by simp [member])
    have matched : Yields (chunkPattern.firstMatch (first :: others ++ letters ++ rest)) fun captures =>
        captures 1 = some (first :: others ++ letters) ∧ captures 2 = some (rest.take 1) ∧
          captures 3 = some (rest.drop 1) := by
      apply yields_firstMatch
      rw [chunkPattern, run_sequence_cons, run_startOfInput, run_sequence_cons, run_group, run_seq, run_plus,
        List.cons_append, List.cons_append, run_satisfies_cons, if_pos firstDigit, List.append_assoc]
      apply yields_star_longest othersDigits stopsDigits
      apply yields_star_longest areUpper stopsUpper
      rw [State.close_eq _ _ _ (first :: others ++ letters) (by simp), run_sequence_cons, run_group, run_opt]
      -- the separator is the next character, whatever it is
      cases rest with
      | nil =>
        rw [run_satisfies_nil, Option.none_or, State.close_eq _ _ _ [] (by simp), run_sequence_cons, run_group,
          run_star_of_stops stops_nil, State.close_eq _ _ _ [] (by simp), run_sequence_cons, run_endOfInput_nil,
          run_sequence_nil, yields_some]
        simp
      | cons separator rest =>
        rw [run_satisfies_cons, if_pos (plain separator (by simp))]
        apply Yields.or_left
        rw [State.close_eq _ _ _ [separator] (by simp), run_sequence_cons, run_group, ← List.append_nil rest]
        apply yields_star_longest (fun c member => plain c (by simp [member])) stops_nil
        rw [State.close_eq _ _ _ rest (by simp), run_sequence_cons, run_endOfInput_nil, run_sequence_nil, yields_some]
        simp
    obtain ⟨captures, found, number, separator, remaining⟩ := matched
    rw [chunk, found]
    simp only [bind, Option.bind, pure, number, separator, remaining]

/-! ## The state machine -/

inductive ParseState where
  | chapter_start
  | verse_start (current : Range)
  | verse_end (current : Range)
  | chapter_end (current : Range)

/-- How an iteration of the loop ends. -/
inductive Move where
  | next (state : ParseState)
  | stop
  | invalidSeparator

/-- The range that is started after another one was pushed. -/
def nextCurrent (current : Range) : Range := ⟨current.chapter_end, some 0, current.chapter_end, some 0⟩

/-- One iteration: the ranges it pushes, and where it goes on. -/
def transition (state : ParseState) (number separator : Text) : List Range × Move :=
  match state with
  | .chapter_start =>
    let current : Range := ⟨number, some 0, number, some ⊤⟩
    match separator with
    | [] => ([current], .stop)
    | [','] => ([], .next (.verse_start current))
    | ['-'] => ([], .next (.chapter_end current))
    | _ => ([], .invalidSeparator)
  | .verse_start current =>
    let current := { current with verse_start := parseInt number, verse_end := parseInt number }
    match separator with
    | [] => ([current], .stop)
    | ['.'] | [','] => ([current], .next (.verse_start (nextCurrent current)))
    | [';'] => ([current], .next .chapter_start)
    | ['-'] => ([], .next (.verse_end current))
    | ['–'] => ([], .next (.chapter_end { current with verse_end := some ⊤ }))
    | _ => ([], .invalidSeparator)
  | .verse_end current =>
    let current := { current with verse_end := parseInt number }
    match separator with
    | [] => ([current], .stop)
    | ['.'] | [','] => ([current], .next (.verse_start (nextCurrent current)))
    | [';'] => ([current], .next .chapter_start)
    | _ => ([], .invalidSeparator)
  | .chapter_end current =>
    let current := { current with chapter_end := number, verse_end := some ⊤ }
    match separator with
    | [] => ([current], .stop)
    | [','] => ([], .next (.verse_end current))
    | ['.'] => ([current], .next (.verse_start (nextCurrent current)))
    | [';'] => ([current], .next .chapter_start)
    | _ => ([], .invalidSeparator)

/-- The ranges that are returned, and what was logged with `console.error`. -/
structure Parsed where
  ranges : List Range
  errors : List Text
deriving DecidableEq

def invalidSeparatorError (separator : Text) : Text :=
  "Failed to parse reference: invalid separator '".toList ++ separator ++ "'".toList

/-- The loop.  Each iteration reads at least one digit, so the length of the reference is enough fuel. -/
def parseLoop : Nat → ParseState → Text → Except ScriptError Parsed
  | 0, _, _ => .ok ⟨[], []⟩
  | _ + 1, _, [] => .ok ⟨[], []⟩
  | fuel + 1, state, reference =>
    match chunk reference with
    | none => .error .typeError
    | some (number, separator, rest) =>
      match transition state number separator with
      | (pushed, .stop) => .ok ⟨pushed, []⟩
      | (pushed, .invalidSeparator) => .ok ⟨pushed, [invalidSeparatorError separator]⟩
      | (pushed, .next state) => do
        let parsed ← parseLoop fuel state rest
        return ⟨pushed ++ parsed.ranges, parsed.errors⟩

def parse_reference (reference : Text) : Except ScriptError Parsed :=
  let reference := Regex.removeAll (.star (.satisfies Char.isLower)) reference
  parseLoop reference.length .chapter_start reference

/-! ## Rules for the loop -/

/-- From this state, the rest of the reference is read without an error and yields these ranges. -/
def Parses (state : ParseState) (reference : Text) (ranges : List Range) : Prop :=
  ∀ fuel, reference.length ≤ fuel → parseLoop fuel state reference = .ok ⟨ranges, []⟩

/-- A number as the grammar has it, and the text that may follow one. -/
structure IsNumber (number rest : Text) : Prop where
  nonempty : number ≠ []
  isChunk : chunk (number ++ rest) = some (number, rest.take 1, rest.drop 1)

theorem parseLoop_number {number rest : Text} (isNumber : IsNumber number rest) (state : ParseState) (fuel : Nat) :
    parseLoop (fuel + 1) state (number ++ rest) =
      match transition state number (rest.take 1) with
      | (pushed, .stop) => .ok ⟨pushed, []⟩
      | (pushed, .invalidSeparator) => .ok ⟨pushed, [invalidSeparatorError (rest.take 1)]⟩
      | (pushed, .next state) => do
        let parsed ← parseLoop fuel state (rest.drop 1)
        return ⟨pushed ++ parsed.ranges, parsed.errors⟩ := by
  have isChunk := isNumber.isChunk
  cases text : number ++ rest with
  | nil => exact absurd (List.append_eq_nil_iff.mp text).1 isNumber.nonempty
  | cons c others =>
    rw [text] at isChunk
    simp only [parseLoop, isChunk]

/-- The last number of a reference. -/
theorem parses_last {state : ParseState} {number : Text} {range : Range} (isNumber : IsNumber number [])
    (stops : transition state number [] = ([range], .stop)) : Parses state number [range] := by
  intro fuel enough
  cases fuel with
  | zero => exact absurd (List.length_eq_zero_iff.mp (Nat.le_zero.mp enough)) isNumber.nonempty
  | succ fuel =>
    have step := parseLoop_number isNumber state fuel
    rw [List.append_nil, List.take_nil, stops] at step
    exact step

/-- A number, a separator and what follows them. -/
theorem parses_step {state next : ParseState} {number rest : Text} {separator : Char} {pushed ranges : List Range}
    (isNumber : IsNumber number (separator :: rest))
    (moves : transition state number [separator] = (pushed, .next next)) (parses : Parses next rest ranges) :
    Parses state (number ++ separator :: rest) (pushed ++ ranges) := by
  intro fuel enough
  cases fuel with
  | zero => simp at enough
  | succ fuel =>
    have shorter : rest.length ≤ fuel := by
      rw [List.length_append, List.length_cons] at enough
      omega
    rw [parseLoop_number isNumber, List.take_succ_cons, List.take_zero, moves]
    simp [parses fuel shorter, bind, Except.bind, pure, Except.pure]

/-- A step that pushes nothing. -/
theorem parses_silent {state next : ParseState} {number rest : Text} {separator : Char} {ranges : List Range}
    (isNumber : IsNumber number (separator :: rest))
    (moves : transition state number [separator] = ([], .next next)) (parses : Parses next rest ranges) :
    Parses state (number ++ separator :: rest) ranges :=
  parses_step isNumber moves parses

/-- A step that pushes the current range. -/
theorem parses_push {state next : ParseState} {number rest : Text} {separator : Char} {range : Range}
    {ranges : List Range} (isNumber : IsNumber number (separator :: rest))
    (moves : transition state number [separator] = ([range], .next next)) (parses : Parses next rest ranges) :
    Parses state (number ++ separator :: rest) (range :: ranges) :=
  parses_step isNumber moves parses

end Aelf.Bible
