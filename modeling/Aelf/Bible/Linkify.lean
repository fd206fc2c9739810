import Aelf.Bible.Notation

/-! # Links to the passages of the readings

The loop of `lecture.js` that turns the reference of a reading into a link.  Its text is
matched against one regular expression, cleaned, and taken apart by another one. -/

namespace Aelf.Bible

open Aelf.Library Aelf.Library.JavaScript
open Aelf.Library.Regex

/-! ## The regular expressions -/

def isBookNumber (c : Char) : Bool := c = '1' || c = '2' || c = '3'

/-- `[-\s,.]` -/
def isListChar (c : Char) : Bool := c = '-' || isSpace c || c = ',' || c = '.'

/-- `[a-z0-9]` -/
def isVerseChar (c : Char) : Bool := c.isLower || c.isDigit

/-- `[ivⅠ-Ⅿ]` -/
def isRomanChar (c : Char) : Bool := c = 'i' || c = 'v' || (0x2160 ≤ c.toNat && c.toNat ≤ 0x216F)

/-- `(?:[1-3]\s*)?` -/
def bookNumberPattern : Regex := .opt (.seq (.satisfies isBookNumber) (.star (.satisfies isSpace)))

/-- `(?:\s*\([0-9]+\))?` -/
def alternatePattern : Regex := .opt <| .sequence
  [.star (.satisfies isSpace), .character '(', .plus (.satisfies Char.isDigit), .character ')']

/-- `[-\s,.]|(?:[0-9]+[a-z]*)` -/
def verseListPattern : Regex :=
  .alt (.satisfies isListChar) (.seq (.plus (.satisfies Char.isDigit)) (.star (.satisfies Char.isLower)))

/-- `(?:,(?:[-\s,.]|(?:[0-9]+[a-z]*))*[a-z0-9]\b)?` -/
def versesPattern : Regex := .opt <| .sequence
  [.character ',', .star verseListPattern, .satisfies isVerseChar, .wordBoundary]

/-- The group `reference` of the extractor. -/
def referencePattern : Regex := .sequence
  [bookNumberPattern, .plus (.satisfies Char.isAlpha), .star (.satisfies isWordChar), .star (.satisfies isSpace),
    .plus (.satisfies Char.isDigit), alternatePattern, versesPattern]

def reference_extractor : Regex := .sequence
  [.startOfInput, .group 1 (.lazyStar (.satisfies isAny)), .group 2 referencePattern,
    .group 3 (.lazyStar (.satisfies isAny)), .endOfInput]

theorem reference_extractor_anchored (state : State) (inside : state.before ≠ []) :
    reference_extractor.run (some : State → Option State) state = none := by
  rw [reference_extractor, run_sequence_cons]
  exact if_neg (by simpa using inside)

/-- `\([0-9]*[A-Z]?\)`, without regard to case. -/
def parenthesisPattern : Regex := .sequence
  [.character '(', .star (.satisfies Char.isDigit), .opt (.satisfies Char.isAlpha), .character ')']

/-- `([0-9]?)([a-z]+)([0-9]*[a-b]*)(,?)(.*?)(?:-[ivⅠ-Ⅿ]+)*$` -/
def chunksPattern : Regex := .sequence
  [.group 1 (.opt (.satisfies Char.isDigit)), .group 2 (.plus (.satisfies Char.isLower)),
    .group 3 (.seq (.star (.satisfies Char.isDigit)) (.star (.satisfies fun c => c = 'a' || c = 'b'))),
    .group 4 (.opt (.character ',')), .group 5 (.lazyStar (.satisfies isAny)),
    .star (.seq (.character '-') (.plus (.satisfies isRomanChar))), .endOfInput]

/-! ## One element -/

def capitalize (text : Text) : Text := toUpperCase (text.take 1) ++ text.drop 1

/-- The three rewriting passes. -/
def cleanReference (reference : Text) : Text :=
  removeAll parenthesisPattern (removeAll (.star (.satisfies isSpace)) (toLowerCase reference))

/-- The link of an element, and what its content becomes. -/
structure Linked where
  link : Text
  innerHTML : Text
deriving DecidableEq

def buildLink (book_number book_name chapter verses : Text) : Text :=
  "https://www.aelf.org/bible/".toList ++ book_number ++ capitalize book_name ++ "/".toList ++ chapter ++
    "?reference=".toList ++ verses

def buildContent (link content : Text) : Text :=
  "<span aria-hidden=\"true\">—</span> <a aria-hidden=\"false\" href=\"".toList ++ link ++ "\">".toList ++ content ++
    "</a>".toList

/-- One iteration; `none` when the element is left as it is. -/
def linkify (textContent : Text) : Except ScriptError (Option Linked) :=
  let reference_full_string := textContent.drop 1
  match reference_extractor.firstMatch reference_full_string with
  | none => .ok none
  | some reference_parts =>
    let reference_prefix := (reference_parts 1).getD []
    let reference_text := (reference_parts 2).getD []
    let reference_suffix := (reference_parts 3).getD []
    -- `split('(', 1)` has one element at most, so that `[1]` is undefined and has no `rsplit`
    if "CANTIQUE".toList.isPrefixOf reference_text then .error .typeError
    else
      let reference := cleanReference reference_text
      if reference.isEmpty then .ok none
      else match chunksPattern.firstMatch reference with
        | none => .ok none
        | some chunks =>
          let book_number := (chunks 1).getD []
          let book_name := (chunks 2).getD []
          let chapter := (chunks 3).getD []
          let comma := (chunks 4).getD []
          let rest := (chunks 5).getD []
          let verses := toUpperCase chapter ++ comma ++ rest
          let link := buildLink book_number book_name chapter verses
          .ok (some ⟨link, buildContent link ( reference_prefix ++ reference_text ++ reference_suffix)⟩)

/-- The elements of a page, in order.  An exception ends the script, so the elements after it keep their content. -/
def linkifyAll : List Text → List (Option Linked)
  | [] => []
  | textContent :: later =>
    match linkify textContent with
    | .error _ => none :: later.map fun _ => none
    | .ok linked => linked :: linkifyAll later

/-- An element is linked as if it were alone, unless an element before it ends the script. -/
theorem linkifyAll_of_ok {earlier later : List Text} {textContent : Text} {linked : Option Linked}
    (passes : ∀ text ∈ earlier, ∃ result, linkify text = .ok result) (isLinked : linkify textContent = .ok linked) :
    (linkifyAll (earlier ++ textContent :: later))[earlier.length]? = some linked := by
  induction earlier with
  | nil =>
    rw [List.nil_append, linkifyAll, isLinked]
    rfl
  | cons text earlier inductionHypothesis =>
    obtain ⟨result, passed⟩ := passes text (by simp)
    have rest := inductionHypothesis fun text member => passes text (by simp [member])
    rw [List.cons_append, linkifyAll, passed]
    simpa using rest

end Aelf.Bible
