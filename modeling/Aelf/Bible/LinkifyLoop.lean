import Aelf.Bible.Linkify
import Aelf.Library.RegexPaths

/-! # The elements of a page

The loop of `lecture.js` over the elements, with the variables that its iterations share.
Every variable is assigned before it is read, so the elements do not influence each other,
but the branch for canticles throws and ends the loop. -/

namespace Aelf.Bible

open Aelf.Library Aelf.Library.JavaScript
open Aelf.Library.Regex

/-! ## The loop -/

/-- The `var` of the loop belong to the script, not to one iteration. -/
structure Globals where
  reference_full_string : Text
  reference_parts : Option (Nat → Option (List Char))
  reference_prefix : Text
  reference_text : Text
  reference_suffix : Text
  reference : Text
  chunks : Option (Nat → Option (List Char))
  book_number : Text
  book_name : Text
  chapter : Text
  comma : Text
  rest : Text
  verses : Text
  link : Text
deriving Inhabited

namespace Globals

/-- The assignments of the components of the extracted reference. -/
def setParts (globals : Globals) (reference_parts : Nat → Option (List Char)) : Globals :=
  let globals := { globals with
    reference_prefix := (reference_parts 1).getD []
    reference_text := (reference_parts 2).getD []
    reference_suffix := (reference_parts 3).getD [] }
  { globals with reference := globals.reference_text }

/-- The assignments that clean the reference. -/
def cleanReference (globals : Globals) : Globals :=
  let globals := { globals with reference := toLowerCase globals.reference }
  let globals := { globals with reference := removeAll (.star (.satisfies isSpace)) globals.reference }
  { globals with reference := removeAll parenthesisPattern globals.reference }

/-- The assignments from the chunks to the link. -/
def setLink (globals : Globals) (chunks : Nat → Option (List Char)) : Globals :=
  let globals := { globals with
    book_number := (chunks 1).getD []
    book_name := (chunks 2).getD []
    chapter := (chunks 3).getD []
    comma := (chunks 4).getD []
    rest := (chunks 5).getD [] }
  let globals := { globals with verses := toUpperCase globals.chapter ++ globals.comma ++ globals.rest }
  { globals with link := buildLink globals.book_number globals.book_name globals.chapter globals.verses }

/-- The new content of the element. -/
def linked (globals : Globals) : Linked :=
  ⟨globals.link, buildContent globals.link
    ( Globals.reference_prefix globals ++ globals.reference_text ++ globals.reference_suffix)⟩

end Globals

/-- One iteration, one assignment after the other. -/
def linkifyStep (globals : Globals) (textContent : Text) : Except ScriptError (Option Linked) × Globals :=
  let globals := { globals with reference_full_string := textContent.drop 1 }
  let globals := { globals with reference_parts := reference_extractor.firstMatch globals.reference_full_string }
  match globals.reference_parts with
  | none => (.ok none, globals)
  | some reference_parts =>
    let globals := globals.setParts reference_parts
    if "CANTIQUE".toList.isPrefixOf globals.reference then (.error .typeError, globals)
    else
      let globals := globals.cleanReference
      if globals.reference.isEmpty then (.ok none, globals)
      else
        let globals := { globals with chunks := chunksPattern.firstMatch globals.reference }
        match globals.chunks with
        | none => (.ok none, globals)
        | some chunks =>
          let globals := globals.setLink chunks
          (.ok (some globals.linked), globals)

/-- What the loop makes of each element, and the exception that ended it. -/
structure LinkedPage where
  elements : List (Option Linked)
  error : Option ScriptError

def linkifyPage (globals : Globals) : List Text → LinkedPage
  | [] => ⟨[], none⟩
  | textContent :: later =>
    match linkifyStep globals textContent with
    | (.error error, _) => ⟨none :: later.map fun _ => none, some error⟩
    | (.ok linked, globals) =>
      let page := linkifyPage globals later
      ⟨linked :: page.elements, page.error⟩

/-- The earlier iterations leave nothing that an iteration reads. -/
theorem linkifyStep_eq_linkify (globals : Globals) (textContent : Text) :
    (linkifyStep globals textContent).1 = linkify textContent := by
  dsimp only [linkifyStep, linkify]
  generalize reference_extractor.firstMatch (textContent.drop 1) = extracted
  cases extracted with
  | none => rfl
  | some reference_parts =>
    dsimp only
    generalize isParts : Globals.setParts _ reference_parts = withParts
    have parts : withParts.reference = (reference_parts 2).getD [] := by rw [← isParts, Globals.setParts]
    have cleaned : withParts.cleanReference.reference = cleanReference ((reference_parts 2).getD []) := by
      rw [← parts, Globals.cleanReference, cleanReference]
    rw [parts, cleaned]
    by_cases canticle : "CANTIQUE".toList.isPrefixOf ((reference_parts 2).getD []) = true
    · rw [if_pos canticle, if_pos canticle]
    · rw [if_neg canticle, if_neg canticle]
      by_cases nothingLeft : (cleanReference ((reference_parts 2).getD [])).isEmpty = true
      · rw [if_pos nothingLeft, if_pos nothingLeft]
      · rw [if_neg nothingLeft, if_neg nothingLeft]
        generalize chunksPattern.firstMatch (cleanReference ((reference_parts 2).getD [])) = chunks
        cases chunks with
        | none => rfl
        | some chunks =>
          rw [← isParts]
          rfl

theorem linkifyPage_elements (globals : Globals) (texts : List Text) :
    (linkifyPage globals texts).elements = linkifyAll texts := by
  induction texts generalizing globals with
  | nil => rfl
  | cons textContent later inductionHypothesis =>
    have step := linkifyStep_eq_linkify globals textContent
    rw [linkifyPage, linkifyAll, ← step]
    obtain ⟨outcome, afterwards⟩ := linkifyStep globals textContent
    cases outcome with
    | error error => rfl
    | ok linked => exact congrArg (linked :: ·) (inductionHypothesis afterwards)

theorem linkifyPage_error_eq_none_iff (globals : Globals) (texts : List Text) :
    (linkifyPage globals texts).error = none ↔ ∀ text ∈ texts, ∃ linked, linkify text = .ok linked := by
  induction texts generalizing globals with
  | nil => simp [linkifyPage]
  | cons textContent later inductionHypothesis =>
    have step := linkifyStep_eq_linkify globals textContent
    rw [linkifyPage, List.forall_mem_cons, ← step]
    obtain ⟨outcome, afterwards⟩ := linkifyStep globals textContent
    cases outcome with
    | error error => simp
    | ok linked => simpa using inductionHypothesis afterwards

/-! ## Canticles -/

/-- A reference can begin here, and what follows it ends with the line. -/
def ReferenceAt (before after : Text) : Prop :=
  ∃ finish : Position, referencePattern.Takes (before.reverse, after) finish ∧ ∀ c ∈ finish.2, isAny c = true

/-- The first place where a reference can begin is after the lead, which is on one line. -/
structure FirstReference (lead left : Text) : Prop where
  plain : ∀ c ∈ lead, isAny c = true
  here : ReferenceAt lead left
  notEarlier : ∀ earlier c more, lead = earlier ++ c :: more → ¬ReferenceAt earlier (c :: more ++ left)

/-- The first place of the text where a reference can begin has `CANTIQUE`. -/
def CanticleFirst (text : Text) : Prop :=
  ∃ lead rest, text = lead ++ ("CANTIQUE".toList ++ rest) ∧ FirstReference lead ("CANTIQUE".toList ++ rest)

theorem FirstReference.unique {lead left otherLead otherLeft : Text} (first : FirstReference lead left)
    (other : FirstReference otherLead otherLeft) (same : lead ++ left = otherLead ++ otherLeft) : left = otherLeft := by
  obtain ⟨between, longer, ahead⟩ | ⟨between, longer, ahead⟩ := List.append_eq_append_iff.mp same
  · cases between with
    | nil => exact ahead
    | cons c between => exact absurd (ahead ▸ first.here) (other.notEarlier lead c between longer)
  · cases between with
    | nil => exact ahead.symm
    | cons c between => exact absurd (ahead ▸ other.here) (first.notEarlier otherLead c between longer)

/-- The part of the extractor after its first group. -/
def afterLead : Regex := .sequence
  [.group 2 referencePattern, .group 3 (.lazyStar (.satisfies isAny)), .endOfInput]

/-- What follows the reference. -/
def afterReference : Regex := .sequence [.group 3 (.lazyStar (.satisfies isAny)), .endOfInput]

theorem afterReference_eq_some {before text : Text} {captures : Nat → Option (List Char)} {final : State}
    (found : afterReference.run some ⟨before, text, captures⟩ = some final) :
    (∀ c ∈ text, isAny c = true) ∧ final.captures 2 = captures 2 := by
  rw [afterReference, run_sequence_cons, run_group] at found
  obtain ⟨taken, left, rfl, plain, _, ends⟩ := run_lazyStar_eq_some found
  cases left with
  | nil =>
    obtain rfl := Option.some.inj ends
    rw [List.append_nil]
    exact ⟨plain, by simp [State.close]⟩
  | cons c left => cases ends

theorem isSome_afterReference {state : State} (plain : ∀ c ∈ state.after, isAny c = true) :
    (afterReference.run (some : State → Option State) state).isSome := by
  have toTheEnd := takes_star plain state.before []
  rw [List.append_nil] at toTheEnd
  exact isSome_run ⟨_, toTheEnd, _, ⟨rfl, rfl⟩, rfl⟩ fun _ _ => rfl

theorem afterLead_eq_some {state final : State} (found : afterLead.run some state = some final) :
    ∃ later : State, referencePattern.Takes state.position later.position ∧ (∀ c ∈ later.after, isAny c = true) ∧
      final.captures 2 = some (state.after.take (state.after.length - later.after.length)) := by
  rw [afterLead, run_sequence_cons, run_group] at found
  obtain ⟨later, takes, goesOn⟩ := exists_takes_of_run found
  obtain ⟨plain, captured⟩ := afterReference_eq_some goesOn
  refine ⟨later, takes, plain, ?_⟩
  rw [captured, Function.update_self]

theorem isSome_afterLead_iff (state : State) :
    (afterLead.run (some : State → Option State) state).isSome ↔ ReferenceAt state.before.reverse state.after := by
  rw [ReferenceAt, List.reverse_reverse]
  constructor
  · intro found
    obtain ⟨final, isFinal⟩ := Option.isSome_iff_exists.mp found
    obtain ⟨later, takes, plain, _⟩ := afterLead_eq_some isFinal
    exact ⟨later.position, takes, plain⟩
  · rintro ⟨finish, takes, plain⟩
    rw [afterLead, run_sequence_cons, run_group]
    refine isSome_run takes ?_
    rintro later rfl
    exact isSome_afterReference plain

/-- A reference goes on at least to its first digit. -/
theorem length_le_of_referencePattern {word rest before : Text} (noDigit : ∀ c ∈ word, c.isDigit = false)
    {finish : Position} (takes : referencePattern.Takes (before, word ++ rest) finish) :
    finish.2.length ≤ rest.length := by
  obtain ⟨afterNumber, number, afterLetters, letters, afterWord, words, beforeDigits, spaces, afterDigits, digits,
    remaining⟩ := takes
  obtain ⟨taken, ahead, _⟩ := number.follows.trans (letters.follows.trans (words.follows.trans spaces.follows))
  obtain ⟨furtherTaken, aheadDigits, _⟩ := digits.follows.trans remaining.follows
  obtain ⟨_, ⟨digit, left, startsWithDigit, isDigit, _⟩, _⟩ := digits
  have shorter : beforeDigits.2.length ≤ rest.length := by
    rw [startsWithDigit] at ahead ⊢
    obtain ⟨between, _, inRest⟩ | ⟨between, inWord, onward⟩ := List.append_eq_append_iff.mp ahead
    · rw [inRest, List.length_append]
      exact Nat.le_add_left _ _
    · -- the digit is not in the word
      cases between with
      | nil => rw [onward, List.nil_append]
      | cons first between =>
        obtain ⟨rfl, _⟩ := List.cons.inj onward
        have refused := noDigit digit (by simp [inWord])
        rw [refused] at isDigit
        cases isDigit
  rw [aheadDigits, List.length_append] at shorter
  omega

/-! ## The group of the reference -/

theorem reference_extractor_eq_some {text : Text} {parts : Nat → Option (List Char)}
    (found : reference_extractor.firstMatch text = some parts) :
    ∃ lead left covered, text = lead ++ left ∧ FirstReference lead left ∧ parts 2 = some covered ∧
      ∃ finish : Position, referencePattern.Takes (lead.reverse, left) finish ∧ left = covered ++ finish.2 := by
  rw [firstMatch_anchored reference_extractor_anchored, Option.map_eq_some_iff] at found
  obtain ⟨final, run, rfl⟩ := found
  rw [reference_extractor, run_sequence_cons, run_startOfInput, run_sequence_cons, run_group] at run
  obtain ⟨lead, left, rfl, plain, earlierFail, succeeds⟩ := run_lazyStar_eq_some run
  have here := (isSome_afterLead_iff _).mp (Option.isSome_of_eq_some succeeds)
  obtain ⟨later, takes, _, captured⟩ := afterLead_eq_some succeeds
  obtain ⟨covered, ahead, _⟩ := takes.follows
  change left = covered ++ later.after at ahead
  refine ⟨lead, left, covered, rfl, ⟨plain, ?_, ?_⟩, ?_, later.position, ?_, ahead⟩
  · simpa [State.close] using here
  · intro earlier c more split
    have fails := (isSome_afterLead_iff _).not.mp (Option.not_isSome_iff_eq_none.mpr (earlierFail earlier c more split))
    simpa [State.close] using fails
  · rw [captured]
    simp [State.close, ahead]
  · simpa [State.close, State.position] using takes

theorem FirstReference.extracted {lead left : Text} (first : FirstReference lead left) :
    ∃ parts, reference_extractor.firstMatch (lead ++ left) = some parts := by
  obtain ⟨finish, takes, plain⟩ := first.here
  have alongLead := takes_star first.plain [] left
  have toTheEnd := takes_star plain finish.1 []
  rw [List.append_nil] at alongLead toTheEnd
  have found : (reference_extractor.run (some : State → Option State) ⟨[], lead ++ left, fun _ => none⟩).isSome :=
    isSome_run ⟨_, ⟨rfl, rfl⟩, _, alongLead, _, takes, _, toTheEnd, _, ⟨rfl, rfl⟩, rfl⟩ fun _ _ => rfl
  obtain ⟨final, isFinal⟩ := Option.isSome_iff_exists.mp found
  exact ⟨final.captures, by rw [firstMatch_anchored reference_extractor_anchored, isFinal, Option.map_some]⟩

/-- The group of the reference starts with the word when the place does, as no digit is in the word. -/
theorem canticle_extracted_iff (text : Text) :
    (∃ parts, reference_extractor.firstMatch text = some parts ∧
      "CANTIQUE".toList.isPrefixOf ((parts 2).getD []) = true) ↔ CanticleFirst text := by
  constructor
  · rintro ⟨parts, extracted, canticle⟩
    obtain ⟨lead, left, covered, rfl, first, captured, finish, _, split⟩ := reference_extractor_eq_some extracted
    rw [captured, Option.getD_some, List.isPrefixOf_iff_prefix] at canticle
    obtain ⟨rest, rfl⟩ := canticle
    rw [List.append_assoc] at split
    subst split
    exact ⟨lead, rest ++ finish.2, rfl, first⟩
  · rintro ⟨lead, rest, rfl, first⟩
    obtain ⟨parts, extracted⟩ := first.extracted
    refine ⟨parts, extracted, ?_⟩
    obtain ⟨otherLead, left, covered, same, isFirst, captured, finish, takes, split⟩ :=
      reference_extractor_eq_some extracted
    obtain rfl := first.unique isFirst same
    have reached := length_le_of_referencePattern (by simp) takes
    rw [captured, Option.getD_some, List.isPrefixOf_iff_prefix]
    refine List.prefix_of_prefix_length_le (List.prefix_append _ rest) (split ▸ List.prefix_append covered finish.2) ?_
    have lengths := congrArg List.length split
    rw [List.length_append, List.length_append] at lengths
    omega

/-! ## Every element by itself -/

/-- What is extracted from the text still has the chunks of a reference once it is cleaned. -/
def HasUsableReference (textContent : Text) : Prop :=
  ∃ parts, reference_extractor.firstMatch (textContent.drop 1) = some parts ∧
    cleanReference ((parts 2).getD []) ≠ [] ∧
    (chunksPattern.firstMatch (cleanReference ((parts 2).getD []))).isSome

theorem linkify_of_canticle {textContent : Text} (canticle : CanticleFirst (textContent.drop 1)) :
    linkify textContent = .error .typeError := by
  obtain ⟨parts, extracted, isCanticle⟩ := (canticle_extracted_iff _).mpr canticle
  dsimp only [linkify]
  rw [extracted]
  exact if_pos isCanticle

/-- Without a canticle, an element is linked when its reference is usable. -/
theorem linkify_of_not_canticle {textContent : Text} (other : ¬CanticleFirst (textContent.drop 1)) :
    ∃ linked, linkify textContent = .ok linked ∧ (linked.isSome ↔ HasUsableReference textContent) := by
  rw [← canticle_extracted_iff] at other
  dsimp only [linkify, HasUsableReference]
  generalize reference_extractor.firstMatch (textContent.drop 1) = extracted at other ⊢
  cases extracted with
  | none => exact ⟨none, rfl, by simp⟩
  | some parts =>
    have notCanticle : ¬"CANTIQUE".toList.isPrefixOf ((parts 2).getD []) = true :=
      fun canticle => other ⟨parts, rfl, canticle⟩
    dsimp only
    rw [if_neg notCanticle]
    simp only [Option.some.injEq, exists_eq_left']
    generalize cleanReference ((parts 2).getD []) = reference
    by_cases nothingLeft : reference.isEmpty = true
    · rw [if_pos nothingLeft]
      exact ⟨none, rfl, by simpa using fun nonempty => absurd (List.isEmpty_iff.mp nothingLeft) nonempty⟩
    · rw [if_neg nothingLeft]
      rw [List.isEmpty_iff] at nothingLeft
      generalize chunksPattern.firstMatch reference = chunks
      cases chunks with
      | none => exact ⟨none, rfl, by simp⟩
      | some chunks => exact ⟨some _, rfl, by simpa using nothingLeft⟩

/-- The loop reaches every element, leaves those without a usable reference as they are, and links the
others as it would on a page of their own. -/
structure LinksIndependently (texts : List Text) : Prop where
  completes : ∀ globals, (linkifyPage globals texts).error = none
  unchanged : ∀ globals (i : Nat) text, texts[i]? = some text → ¬HasUsableReference text →
    (linkifyPage globals texts).elements[i]? = some none
  asAlone : ∀ globals otherGlobals (i : Nat) text, texts[i]? = some text → HasUsableReference text →
    ∃ linked, (linkifyPage globals texts).elements[i]? = some (some linked) ∧
      (linkifyPage otherGlobals [text]).elements = [some linked]

/-- The element at a position, when no element ends the loop. -/
theorem linkifyPage_getElem {texts : List Text} (passes : ∀ text ∈ texts, ∃ linked, linkify text = .ok linked)
    (globals : Globals) {i : Nat} {text : Text} (isText : texts[i]? = some text) {linked : Option Linked}
    (isLinked : linkify text = .ok linked) : (linkifyPage globals texts).elements[i]? = some linked := by
  obtain ⟨inRange, rfl⟩ := List.getElem?_eq_some_iff.mp isText
  have split : texts = texts.take i ++ texts[i] :: texts.drop (i + 1) := by simp
  have position : (linkifyAll (texts.take i ++ texts[i] :: texts.drop (i + 1)))[(texts.take i).length]? = some linked :=
    linkifyAll_of_ok (fun text member => passes text (List.mem_of_mem_take member)) isLinked
  rw [← split, List.length_take, Nat.min_eq_left inRange.le] at position
  rw [linkifyPage_elements, position]

/-- The elements are independent of each other as long as none has a canticle for its first reference. -/
theorem linksIndependently_iff (texts : List Text) :
    LinksIndependently texts ↔ ∀ text ∈ texts, ¬CanticleFirst (text.drop 1) := by
  constructor
  · intro independent text member canticle
    obtain ⟨linked, isLinked⟩ :=
      (linkifyPage_error_eq_none_iff default texts).mp (independent.completes default) text member
    rw [linkify_of_canticle canticle] at isLinked
    cases isLinked
  · intro noCanticle
    have passes : ∀ text ∈ texts, ∃ linked, linkify text = .ok linked := by
      intro text member
      obtain ⟨linked, isLinked, _⟩ := linkify_of_not_canticle (noCanticle text member)
      exact ⟨linked, isLinked⟩
    refine ⟨fun globals => (linkifyPage_error_eq_none_iff globals texts).mpr passes, ?_, ?_⟩
    · intro globals i text isText unusable
      obtain ⟨linked, isLinked, usableIff⟩ := linkify_of_not_canticle (noCanticle text (List.mem_of_getElem? isText))
      cases linked with
      | none => exact linkifyPage_getElem passes globals isText isLinked
      | some linked => exact absurd (usableIff.mp rfl) unusable
    · intro globals otherGlobals i text isText usable
      obtain ⟨linked, isLinked, usableIff⟩ := linkify_of_not_canticle (noCanticle text (List.mem_of_getElem? isText))
      obtain ⟨linked, rfl⟩ := Option.isSome_iff_exists.mp (usableIff.mpr usable)
      refine ⟨linked, linkifyPage_getElem passes globals isText isLinked, ?_⟩
      rw [linkifyPage_elements, linkifyAll, isLinked]
      rfl

/-- The reference of the second element keeps its text, though it would be linked alone. -/
theorem canticle_ends_loop :
    ¬LinksIndependently ["—CANTIQUE 3".toList, "—Jn 3, 16".toList] ∧
      (linkifyPage default ["—CANTIQUE 3".toList, "—Jn 3, 16".toList]).elements = [none, none] ∧
      (linkifyAll ["—Jn 3, 16".toList]).map (Option.map Linked.link) =
        [some "https://www.aelf.org/bible/Jn/3?reference=3,16".toList] := by
  have throws : linkify "—CANTIQUE 3".toList = .error .typeError := by rfl
  refine ⟨?_, ?_, by decide +kernel⟩
  · intro independent
    obtain ⟨linked, isLinked⟩ := (linkifyPage_error_eq_none_iff default _).mp (independent.completes default)
      "—CANTIQUE 3".toList (by simp)
    rw [throws] at isLinked
    cases isLinked
  · rw [linkifyPage_elements, linkifyAll, throws]
    rfl

end Aelf.Bible
