import Aelf.Bible.LinkifyLoop
import Aelf.Library.Html
import Aelf.Library.RegexCharacters
import Mathlib

/-! # The page behind the links

`lecture.js` reads the text of an element, and writes markup into it.  The text is what is
left of the markup that was there, so characters that were escaped are not when they are
written again; a text without them is shown as before, but for the blank after the dash. -/

namespace Aelf.Bible

open Aelf.Library Aelf.Library.JavaScript Aelf.Library.Html
open Aelf.Library.Regex

/-! ## The script -/

/-- What the assignment to `innerHTML` makes of an element; `none` inside when there is no assignment. -/
def setInnerHTML : Option Linked → Option (Option Nodes)
  | none => some none
  | some linked => (parse linked.innerHTML).map some

/-- The document after `lecture.js`.  The elements are found before the first one is changed. -/
def runLectureScript (document : Nodes) : Option Nodes := do
  let references_elements := document.querySelectorAll "small".toList "i".toList
  let page := linkifyPage default (references_elements.map Nodes.textContent)
  let contents ← page.elements.mapM setInnerHTML
  return document.replaceSelected "small".toList "i".toList false contents

/-! ## The parts of the reference -/

/-- The three groups cover the text. -/
theorem extracted_parts {text : Text} {parts : Nat → Option (List Char)}
    (found : reference_extractor.firstMatch text = some parts) :
    (parts 1).getD [] ++ (parts 2).getD [] ++ (parts 3).getD [] = text := by
  rw [firstMatch_anchored reference_extractor_anchored, Option.map_eq_some_iff] at found
  obtain ⟨final, run, rfl⟩ := found
  rw [reference_extractor, run_sequence_cons, run_startOfInput, run_sequence_cons, run_group] at run
  obtain ⟨lead, left, rfl, _, _, afterwards⟩ := run_lazyStar_eq_some run
  rw [run_sequence_cons, run_group] at afterwards
  obtain ⟨later, ⟨covered, ahead, _⟩, captures, goesOn⟩ := exists_follows_of_run rfl afterwards
  obtain ⟨before, rest, laterCaptures⟩ := later
  have isLeft : left = covered ++ rest := ahead
  rw [run_sequence_cons, run_group] at goesOn
  obtain ⟨suffix, nothing, rfl, _, _, ends⟩ := run_lazyStar_eq_some goesOn
  cases nothing with
  | cons c nothing => cases ends
  | nil =>
    obtain rfl := Option.some.inj ends
    have sameCaptures : laterCaptures = _ := captures
    subst sameCaptures isLeft
    simp [State.close, Function.update]

/-- Nothing in a reference ends the value of an attribute. -/
theorem quote_notMem_reference {text : Text} {parts : Nat → Option (List Char)}
    (found : reference_extractor.firstMatch text = some parts) : '"' ∉ (parts 2).getD [] := by
  obtain ⟨lead, left, covered, rfl, _, captured, finish, takes, isLeft⟩ := reference_extractor_eq_some found
  obtain ⟨taken, ahead, all⟩ := takes.followsAlong
  have same : covered = taken := List.append_cancel_right (isLeft.symm.trans ahead)
  rw [captured, Option.getD_some, same]
  intro member
  have refused : referencePattern.mayTake '"' = false := by decide
  rw [all _ member] at refused
  cases refused

theorem quote_notMem_cleanReference {reference : Text} (noQuote : '"' ∉ reference) : '"' ∉ cleanReference reference := by
  intro member
  have inLower := mem_of_mem_removeAll (mem_of_mem_removeAll member)
  obtain ⟨c, inReference, isQuote⟩ := List.mem_map.mp inLower
  by_cases upper : c.isUpper = true
  · -- a letter stays a letter
    have letter : c.toLower.isLower = true := by
      rw [Char.isLower_toLower_eq_isAlpha]
      exact isAlpha_of_isUpper upper
    rw [isQuote] at letter
    cases letter
  · rw [Char.toLower_eq_of_not_isUpper upper] at isQuote
    exact noQuote (isQuote ▸ inReference)

theorem quote_notMem_toUpperCase {text : Text} (noQuote : '"' ∉ text) : '"' ∉ toUpperCase text := by
  intro member
  obtain ⟨c, inText, isQuote⟩ := List.mem_map.mp member
  by_cases lower : c.isLower = true
  · have letter : c.toUpper.isUpper = true := by
      rw [Char.isUpper_toUpper_eq_isAlpha]
      exact isAlpha_of_isLower lower
    rw [isQuote] at letter
    cases letter
  · rw [Char.toUpper_eq_of_not_isLower lower] at isQuote
    exact noQuote (isQuote ▸ inText)

theorem quote_notMem_link {book_number book_name chapter comma rest : Text} (noQuote : '"' ∉ book_number ∧
    '"' ∉ book_name ∧ '"' ∉ chapter ∧ '"' ∉ comma ∧ '"' ∉ rest) :
    '"' ∉ buildLink book_number book_name chapter (toUpperCase chapter ++ comma ++ rest) := by
  obtain ⟨inNumber, inName, inChapter, inComma, inRest⟩ := noQuote
  have inStart : '"' ∉ toUpperCase (book_name.take 1) :=
    quote_notMem_toUpperCase fun member => inName (List.mem_of_mem_take member)
  have inEnd : '"' ∉ book_name.drop 1 := fun member => inName (List.mem_of_mem_drop member)
  have inVerses := quote_notMem_toUpperCase inChapter
  have inAddress : '"' ∉ "https://www.aelf.org/bible/".toList := by decide +kernel
  have inSlash : '"' ∉ "/".toList := by decide +kernel
  have inQuery : '"' ∉ "?reference=".toList := by decide +kernel
  delta buildLink capitalize
  generalize "https://www.aelf.org/bible/".toList = address at inAddress ⊢
  generalize "/".toList = slash at inSlash ⊢
  generalize "?reference=".toList = query at inQuery ⊢
  simp only [List.mem_append, inAddress, inSlash, inQuery, inNumber, inStart, inEnd, inChapter, inVerses, inComma, inRest,
    or_self, not_false_eq_true]

/-- What is written into an element: a link around the whole of its text behind the dash. -/
theorem linkify_eq_some {textContent : Text} {linked : Linked} (isLinked : linkify textContent = .ok (some linked)) :
    linked.innerHTML = buildContent linked.link (textContent.drop 1) ∧ '"' ∉ linked.link := by
  dsimp only [linkify] at isLinked
  cases extracted : reference_extractor.firstMatch (textContent.drop 1) with
  | none =>
    rw [extracted] at isLinked
    cases isLinked
  | some parts =>
    rw [extracted] at isLinked
    dsimp only at isLinked
    have noQuote := quote_notMem_cleanReference (quote_notMem_reference extracted)
    have whole := extracted_parts extracted
    generalize cleanReference ((parts 2).getD []) = reference at isLinked noQuote
    split at isLinked
    next => cases isLinked
    next =>
      split at isLinked
      next => cases isLinked
      next =>
        cases found : chunksPattern.firstMatch reference with
        | none =>
          rw [found] at isLinked
          cases isLinked
        | some chunks =>
          rw [found] at isLinked
          obtain rfl := Option.some.inj (Except.ok.inj isLinked)
          have inGroup (index : Nat) : '"' ∉ (chunks index).getD [] := by
            intro member
            have others : ∀ c ∈ reference, c ≠ '"' := fun c member same => noQuote (same ▸ member)
            exact firstMatch_within others found index _ member rfl
          rw [whole]
          exact ⟨rfl, quote_notMem_link ⟨inGroup 1, inGroup 2, inGroup 3, inGroup 4, inGroup 5⟩⟩

/-! ## The new content -/

def hiddenTag : Tag := ⟨false, "span".toList, [("aria-hidden".toList, "true".toList)]⟩

def linkTag (link : Text) : Tag := ⟨false, "a".toList, [("aria-hidden".toList, "false".toList), ("href".toList, link)]⟩

/-- The dash, a blank, and the link. -/
def linkNodes (link content : Text) : Nodes :=
  .element hiddenTag (.ofText "—".toList) (.text ' ' (.element (linkTag link) (.ofText content) .nil))

theorem linkTag_wellFormed {link : Text} (noQuote : '"' ∉ link) : (linkTag link).WellFormed where
  letter := rfl
  name := by
    show "a".toList.all isNameCharacter = true
    decide +kernel
  attributes := by
    intro pair member
    obtain rfl | later := List.mem_cons.mp member
    · decide +kernel
    · obtain rfl := List.mem_singleton.mp later
      have isName : "href".toList ≠ [] ∧ "href".toList.all isNameCharacter = true := by decide +kernel
      exact ⟨isName.1, isName.2, noQuote⟩

theorem markup_linkTag (link : Text) :
    (linkTag link).markup = "<a aria-hidden=\"false\" href=\"".toList ++ (link ++ "\">".toList) := by
  have start : "<a aria-hidden=\"false\" href=\"".toList = '<' :: ("a".toList ++
      (attributeMarkup ("aria-hidden".toList, "false".toList) ++ ' ' :: ("href".toList ++ ['=', '"']))) := by
    decide +kernel
  have finish : "\">".toList = ['"', '>'] := rfl
  rw [start, finish]
  simp [Tag.markup, linkTag, attributeMarkup]

theorem renders_buildContent {link content : Text} (noQuote : '"' ∉ link) (noBracket : '<' ∉ content)
    (noReference : '&' ∉ content) : Renders (buildContent link content) (linkNodes link content) := by
  have dash : Renders "<span aria-hidden=\"true\">—</span> ".toList
      (.element hiddenTag (.ofText "—".toList) (.text ' ' .nil)) :=
    ⟨by decide +kernel, rfl, by decide +kernel, trivial, trivial⟩
  have closes : Reads "</a>".toList [.tag (linkTag link).ending] := rfl
  have anchor : Renders ((linkTag link).markup ++ content ++ "</a>".toList)
      (.element (linkTag link) (.ofText content) .nil) :=
    .element (.tag (linkTag_wellFormed noQuote)) closes rfl rfl (.plain noBracket noReference)
  have same : buildContent link content =
      "<span aria-hidden=\"true\">—</span> ".toList ++ ((linkTag link).markup ++ content ++ "</a>".toList) := by
    have start : "<span aria-hidden=\"true\">—</span> <a aria-hidden=\"false\" href=\"".toList =
        "<span aria-hidden=\"true\">—</span> ".toList ++ "<a aria-hidden=\"false\" href=\"".toList := by decide +kernel
    delta buildContent
    rw [markup_linkTag, start]
    generalize "<span aria-hidden=\"true\">—</span> ".toList = dash
    generalize "<a aria-hidden=\"false\" href=\"".toList = opened
    simp
  rw [same]
  exact dash.append anchor

theorem textContent_linkNodes (link content : Text) :
    (linkNodes link content).textContent = '—' :: ' ' :: content := by
  simp [linkNodes, Nodes.textContent, Nodes.textContent_ofText]

/-! ## The text of the page -/

/-- A dash, and nothing that is markup when it is not escaped. -/
structure PlainCitation (textContent : Text) : Prop where
  dash : textContent.head? = some '—'
  noBracket : '<' ∉ textContent
  noReference : '&' ∉ textContent

theorem PlainCitation.setInnerHTML {textContent : Text} (plain : PlainCitation textContent) {linked : Option Linked}
    (isLinked : linked = none ∨ linkify textContent = .ok linked) :
    ∃ content, setInnerHTML linked = some content ∧ ∀ new, content = some new →
      new.textContent.filter (· ≠ ' ') = textContent.filter (· ≠ ' ') := by
  cases linked with
  | none => exact ⟨none, rfl, by simp⟩
  | some linked =>
    obtain absurdity | isLinked := isLinked
    · cases absurdity
    obtain ⟨isContent, noQuote⟩ := linkify_eq_some isLinked
    have renders : Renders linked.innerHTML (linkNodes linked.link (textContent.drop 1)) := by
      rw [isContent]
      exact renders_buildContent noQuote (fun member => plain.noBracket (List.mem_of_mem_drop member))
        fun member => plain.noReference (List.mem_of_mem_drop member)
    refine ⟨some (linkNodes linked.link (textContent.drop 1)), ?_, ?_⟩
    · rw [Bible.setInnerHTML, renders.parse]
      rfl
    · intro new isNew
      obtain rfl := Option.some.inj isNew
      rw [textContent_linkNodes]
      obtain ⟨dash, noBracket, noReference⟩ := plain
      cases textContent with
      | nil => cases dash
      | cons first rest =>
        obtain rfl : first = '—' := Option.some.inj dash
        simp

/-- What the loop makes of each element is nothing, or what it makes of it alone. -/
theorem linkifyAll_getElem {texts : List Text} {i : Nat} {linked : Option Linked}
    (isLinked : (linkifyAll texts)[i]? = some linked) :
    ∃ text, texts[i]? = some text ∧ (linked = none ∨ linkify text = .ok linked) := by
  induction texts generalizing i with
  | nil => cases isLinked
  | cons text texts inductionHypothesis =>
    rw [linkifyAll] at isLinked
    cases outcome : linkify text with
    | error error =>
      rw [outcome] at isLinked
      cases i with
      | zero => exact ⟨text, rfl, .inl (Option.some.inj isLinked).symm⟩
      | succ i =>
        rw [List.getElem?_cons_succ, List.getElem?_map, Option.map_eq_some_iff] at isLinked
        obtain ⟨later, isLater, rfl⟩ := isLinked
        exact ⟨later, isLater, .inl rfl⟩
    | ok result =>
      rw [outcome] at isLinked
      cases i with
      | zero =>
        obtain rfl := Option.some.inj isLinked
        exact ⟨text, rfl, .inr outcome⟩
      | succ i => exact inductionHypothesis isLinked

theorem mapM_setInnerHTML {elements : List (Option Linked)} (sets : ∀ linked ∈ elements, (setInnerHTML linked).isSome) :
    ∃ contents, elements.mapM setInnerHTML = some contents ∧
      ∀ (i : Nat) content, contents[i]? = some content →
        ∃ linked, elements[i]? = some linked ∧ setInnerHTML linked = some content := by
  induction elements with
  | nil => exact ⟨[], rfl, by simp⟩
  | cons linked elements inductionHypothesis =>
    obtain ⟨content, isContent⟩ := Option.isSome_iff_exists.mp (sets linked List.mem_cons_self)
    obtain ⟨contents, isContents, each⟩ :=
      inductionHypothesis fun linked member => sets linked (List.mem_cons_of_mem _ member)
    refine ⟨content :: contents, by rw [List.mapM_cons, isContent, isContents]; rfl, ?_⟩
    intro i other isOther
    cases i with
    | zero =>
      obtain rfl := Option.some.inj isOther
      exact ⟨linked, rfl, isContent⟩
    | succ i => exact each i other isOther

/-- The script shows the text of the page as it was, blanks apart, also when it ends before the last element. -/
theorem script_keeps_text {document : Nodes}
    (plain : ∀ element ∈ document.querySelectorAll "small".toList "i".toList, PlainCitation element.textContent) :
    ∃ shown, runLectureScript document = some shown ∧
      shown.textContent.filter (· ≠ ' ') = document.textContent.filter (· ≠ ' ') := by
  generalize isElements : document.querySelectorAll "small".toList "i".toList = elements at plain
  -- what is assigned to each element
  have assigned (i : Nat) (linked : Option Linked)
      (isLinked : (linkifyAll (elements.map Nodes.textContent))[i]? = some linked) :
      ∃ element ∈ elements, elements[i]? = some element ∧ ∃ content, setInnerHTML linked = some content ∧
        ∀ new, content = some new →
          new.textContent.filter (· ≠ ' ') = element.textContent.filter (· ≠ ' ') := by
    obtain ⟨text, isText, outcome⟩ := linkifyAll_getElem isLinked
    rw [List.getElem?_map, Option.map_eq_some_iff] at isText
    obtain ⟨element, isElement, rfl⟩ := isText
    have member := List.mem_of_getElem? isElement
    exact ⟨element, member, isElement, (plain element member).setInnerHTML outcome⟩
  have sets : ∀ linked ∈ linkifyAll (elements.map Nodes.textContent), (setInnerHTML linked).isSome := by
    intro linked member
    obtain ⟨i, isLinked⟩ := List.mem_iff_getElem?.mp member
    obtain ⟨_, _, _, content, isContent, _⟩ := assigned i linked isLinked
    exact Option.isSome_of_eq_some isContent
  obtain ⟨contents, isContents, each⟩ := mapM_setInnerHTML sets
  refine ⟨document.replaceSelected "small".toList "i".toList false contents, ?_, ?_⟩
  · rw [runLectureScript, isElements, linkifyPage_elements, isContents]
    rfl
  · refine Nodes.textContent_replaceSelected _ _ _ _ document contents ?_
    intro i old new isOld isNew
    obtain ⟨linked, isLinked, isContent⟩ := each i (some new) isNew
    obtain ⟨element, _, isElement, content, isSame, keeps⟩ := assigned i linked isLinked
    obtain rfl : element = old := by
      rw [← isElements, Nodes.querySelectorAll, isOld] at isElement
      exact (Option.some.inj isElement).symm
    obtain rfl := Option.some.inj (isContent.symm.trans isSame)
    exact keeps new rfl

end Aelf.Bible
