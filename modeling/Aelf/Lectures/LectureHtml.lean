import Aelf.Bible.ChapterPage
import Aelf.Bible.LinkedPage
import Aelf.Lectures.IntentUri

/-! # The page of a lecture

`Lecture.toHtml` writes the fields of a lecture into markup, and `LectureFragment` puts a
page around it.  Titles, references and antiphons are escaped; the text, the verse and the
response come as markup and are written as they are. -/

namespace Aelf.Lectures.LectureHtml

open Aelf.Library Aelf.Library.Html
open Aelf.Bible (appended PlainCitation runLectureScript)

/-! ## The lecture -/

inductive AntiennePosition where
  | none
  | initial
  | final
  | both
deriving DecidableEq

/-- The fields of a lecture that are displayed.  A field that is missing in the answer keeps its default. -/
structure Lecture where
  key : Option Text
  longTitle : Option Text
  reference : Option Text
  antienne : Option Text
  hasAntienne : Option AntiennePosition := some .both
  hasDoxology : Bool := false
  verset : Option Text
  repons : Option Text
  text : Option Text

/-- `TextUtils.htmlEncode` -/
def htmlEncode (text : Text) : Text := escape text

/-- `field != null && !field.isEmpty()` -/
def present (field : Option Text) : Option Text := field.filter fun text => !text.isEmpty

namespace Lecture

def should_display_initial_antienne (lecture : Lecture) : Bool :=
  lecture.antienne.isSome && (lecture.hasAntienne = some .initial || lecture.hasAntienne = some .both)

def should_display_final_antienne (lecture : Lecture) : Bool :=
  lecture.antienne.isSome && (lecture.hasAntienne = some .final || lecture.hasAntienne = some .both)

def should_display_doxology (lecture : Lecture) : Bool := lecture.hasDoxology

def referenceHtml (reference : Text) : Text :=
  "<small><i><span aria-hidden=\"true\">—</span> ".toList ++ htmlEncode reference ++ "</i></small>".toList

def titleHtml (lecture : Lecture) : Text :=
  match present lecture.longTitle with
  | none => []
  | some longTitle =>
    "<h3 role=\"paragraph\">".toList ++ htmlEncode longTitle ++
      ((present lecture.reference).map referenceHtml).getD [] ++ "</h3>".toList ++
      "<div style=\"clear: both;\"></div>".toList

/-- The antiphon, with what follows the key in its identifier. -/
def antienneHtml (lecture : Lecture) (afterKey : Text) : Text :=
  "<div class=\"antienne\"><span tabindex=\"0\" id=\"".toList ++ appended lecture.key ++ afterKey ++
    "\" class=\"line\"><span class=\"antienne-title\">Antienne&nbsp;:</span> ".toList ++
    htmlEncode (appended lecture.antienne) ++ "</span></div>".toList

def doxologyHtml (lecture : Lecture) : Text :=
  "<div class=\"doxology\"><p>".toList ++
    "<span tabindex=\"0\" id=\"".toList ++ appended lecture.key ++
    "-doxology-1\" class=\"line line-wrap\">Gloire au Père, et au Fils, et au Saint-Esprit,</span>".toList ++
    "<span tabindex=\"0\" id=\"".toList ++ appended lecture.key ++
    "-doxology-2\" class=\"line line-wrap\">pour les siècles des siècles. Amen.</span>".toList ++
    "</p></div>".toList

def versetHtml (verset : Text) : Text := "<p class=\"verset\">".toList ++ verset ++ "</p>".toList

def reponsHtml (repons : Text) : Text := "<p class=\"repons\">".toList ++ repons ++ "</p>".toList

def toHtml (lecture : Lecture) : Text :=
  lecture.titleHtml ++
    (if lecture.should_display_initial_antienne then lecture.antienneHtml "-antienne-1".toList else []) ++
    appended lecture.text ++
    (if lecture.should_display_doxology then lecture.doxologyHtml else []) ++
    (if lecture.should_display_final_antienne then lecture.antienneHtml "-antienne-2".toList else []) ++
    ((present lecture.verset).map versetHtml).getD [] ++
    ((present lecture.repons).map reponsHtml).getD []

end Lecture

/-! ## The page -/

def getThemeCss (nightMode : Bool) : Text :=
  "css/theme-".toList ++ (if nightMode then "dark".toList else "light".toList) ++ ".css".toList

/-- An `int` in decimal digits. -/
def intText (number : Int) : Text := (if number < 0 then ['-'] else []) ++ Nat.toDigits 10 number.natAbs

/-- The sum is an `int`, and the adjustment that stands for none makes it overflow. -/
def getAccessibilityCss (fontWeightAdjustment : Int) : Text :=
  "body \x7bfont-weight: ".toList ++ intText ((400 + fontWeightAdjustment).bmod (2 ^ 32)) ++ ";\x7d".toList

/-- The page that `LectureFragment.loadText` builds. -/
def buildPage (nightMode : Bool) (fontWeightAdjustment : Int) (lecture : Lecture) : Text :=
  "<!DOCTYPE html><html><head>".toList ++
    "<link href=\"css/common.css\" type=\"text/css\" rel=\"stylesheet\" media=\"screen\" />".toList ++
    "<link href=\"".toList ++ getThemeCss nightMode ++
    "\" type=\"text/css\" rel=\"stylesheet\" media=\"screen\" />".toList ++
    "<style>".toList ++ getAccessibilityCss fontWeightAdjustment ++ "</style>".toList ++
    "</head>".toList ++ "<body>".toList ++ lecture.toHtml ++
    "<script src=\"js/lecture.js\" charset=\"utf-8\"></script>\n".toList ++ "</body></html>".toList

/-! ## What the markup stands for -/

/-- A start tag. -/
def start (name : String) (attributes : List (String × Text)) : Tag :=
  ⟨false, name.toList, attributes.map fun (name, value) => (name.toList, value)⟩

/-- An element without anything behind it. -/
def inElement (tag : Tag) (children : Nodes) : Nodes := .element tag children .nil

def referenceNodes (reference : Text) : Nodes :=
  inElement (start "small" []) (inElement (start "i" [])
    (inElement (start "span" [("aria-hidden", "true".toList)]) (.ofText "—".toList) ++ .ofText (' ' :: reference)))

def titleNodes (longTitle : Text) (reference : Option Text) : Nodes :=
  inElement (start "h3" [("role", "paragraph".toList)])
      (.ofText longTitle ++ (reference.map referenceNodes).getD .nil) ++
    inElement (start "div" [("style", "clear: both;".toList)]) .nil

/-- A line that can be selected. -/
def line (id lineClass : Text) : Tag := start "span" [("tabindex", "0".toList), ("id", id), ("class", lineClass)]

/-- With the blank that does not break the line before the colon. -/
def antienneTitle : Text := "Antienne".toList ++ [Char.ofNat 160, ':']

def antienneNodes (id antienne : Text) : Nodes :=
  inElement (start "div" [("class", "antienne".toList)]) (inElement (line id "line".toList)
    (inElement (start "span" [("class", "antienne-title".toList)]) (.ofText antienneTitle) ++ .ofText (' ' :: antienne)))

def glory : Text := "Gloire au Père, et au Fils, et au Saint-Esprit,".toList

def amen : Text := "pour les siècles des siècles. Amen.".toList

def doxologyNodes (key : Text) : Nodes :=
  inElement (start "div" [("class", "doxology".toList)]) (inElement (start "p" [])
    (inElement (line (key ++ "-doxology-1".toList) "line line-wrap".toList) (.ofText glory) ++
      inElement (line (key ++ "-doxology-2".toList) "line line-wrap".toList) (.ofText amen)))

/-- What the fields that come as markup are read as. -/
structure Raw where
  text : Nodes
  verset : Nodes
  repons : Nodes

namespace Lecture

def nodes (lecture : Lecture) (raw : Raw) : Nodes :=
  ((present lecture.longTitle).map fun longTitle => titleNodes longTitle (present lecture.reference)).getD .nil ++
    (if lecture.should_display_initial_antienne then
      antienneNodes (appended lecture.key ++ "-antienne-1".toList) (appended lecture.antienne) else .nil) ++
    raw.text ++
    (if lecture.should_display_doxology then doxologyNodes (appended lecture.key) else .nil) ++
    (if lecture.should_display_final_antienne then
      antienneNodes (appended lecture.key ++ "-antienne-2".toList) (appended lecture.antienne) else .nil) ++
    ((present lecture.verset).map fun _ => inElement (start "p" [("class", "verset".toList)]) raw.verset).getD .nil ++
    ((present lecture.repons).map fun _ => inElement (start "p" [("class", "repons".toList)]) raw.repons).getD .nil

/-- The fields that are not escaped are markup that stands for itself. -/
structure Written (lecture : Lecture) (raw : Raw) : Prop where
  key : '"' ∉ appended lecture.key
  text : Renders (appended lecture.text) raw.text
  verset : Renders (lecture.verset.getD []) raw.verset
  repons : Renders (lecture.repons.getD []) raw.repons

end Lecture

def styleSheet (href : Text) : Tag :=
  start "link" [("href", href), ("type", "text/css".toList), ("rel", "stylesheet".toList), ("media", "screen".toList)]

def headNodes (nightMode : Bool) (fontWeightAdjustment : Int) : Nodes :=
  inElement (styleSheet "css/common.css".toList) .nil ++ inElement (styleSheet (getThemeCss nightMode)) .nil ++
    inElement (start "style" []) (.ofText (getAccessibilityCss fontWeightAdjustment))

def scriptNodes : Nodes :=
  inElement (start "script" [("src", "js/lecture.js".toList), ("charset", "utf-8".toList)]) .nil ++ .ofText ['\n']

def pageNodes (nightMode : Bool) (fontWeightAdjustment : Int) (lectureNodes : Nodes) : Nodes :=
  inElement (start "html" []) (inElement (start "head" []) (headNodes nightMode fontWeightAdjustment) ++
    inElement (start "body" []) (lectureNodes ++ scriptNodes))

/-! ## Pieces of markup -/

/-- The fixed pieces of markup that are read as they stand. -/
structure FixedTags : Prop where
  dash : Reads "<span aria-hidden=\"true\">—</span> ".toList
    (inElement (start "span" [("aria-hidden", "true".toList)]) (.ofText "—".toList) ++ .ofText [' ']).tokens
  heading : Reads "<h3 role=\"paragraph\">".toList [.tag (start "h3" [("role", "paragraph".toList)])]
  divider : Reads "<div style=\"clear: both;\"></div>".toList
    (inElement (start "div" [("style", "clear: both;".toList)]) .nil).tokens
  antienne : Reads "<div class=\"antienne\">".toList [.tag (start "div" [("class", "antienne".toList)])]
  antienneTitle : Reads "<span class=\"antienne-title\">Antienne&nbsp;:</span> ".toList
    (inElement (start "span" [("class", "antienne-title".toList)]) (.ofText antienneTitle) ++ .ofText [' ']).tokens
  doxology : Reads "<div class=\"doxology\">".toList [.tag (start "div" [("class", "doxology".toList)])]
  glory : Reads glory (texts glory)
  amen : Reads amen (texts amen)
  verset : Reads "<p class=\"verset\">".toList [.tag (start "p" [("class", "verset".toList)])]
  repons : Reads "<p class=\"repons\">".toList [.tag (start "p" [("class", "repons".toList)])]
  doctype : Reads "<!DOCTYPE html><html>".toList [.tag (start "html" [])]
  styleSheets : ∀ nightMode,
    Reads ("<link href=\"css/common.css\" type=\"text/css\" rel=\"stylesheet\" media=\"screen\" />".toList ++
      ("<link href=\"".toList ++ (getThemeCss nightMode ++
        "\" type=\"text/css\" rel=\"stylesheet\" media=\"screen\" />".toList)))
      [.tag (styleSheet "css/common.css".toList), .tag (styleSheet (getThemeCss nightMode))]
  script : Reads "<script src=\"js/lecture.js\" charset=\"utf-8\"></script>\n".toList scriptNodes.tokens

theorem fixedTags : FixedTags := by
  constructor <;> decide +kernel

/-- Where the pieces that are written together are cut between the elements. -/
structure Cuts : Prop where
  reference : "<small><i><span aria-hidden=\"true\">—</span> ".toList =
    "<small>".toList ++ ("<i>".toList ++ "<span aria-hidden=\"true\">—</span> ".toList)
  referenceEnd : "</i></small>".toList = "</i>".toList ++ "</small>".toList
  antienne : "<div class=\"antienne\"><span tabindex=\"0\" id=\"".toList =
    "<div class=\"antienne\">".toList ++ "<span tabindex=\"0\" id=\"".toList
  antienneTitle : "\" class=\"line\"><span class=\"antienne-title\">Antienne&nbsp;:</span> ".toList =
    "\" class=\"".toList ++ ("line".toList ++ ("\">".toList ++
      "<span class=\"antienne-title\">Antienne&nbsp;:</span> ".toList))
  antienneEnd : "</span></div>".toList = "</span>".toList ++ "</div>".toList
  doxology : "<div class=\"doxology\"><p>".toList = "<div class=\"doxology\">".toList ++ "<p>".toList
  glory : "-doxology-1\" class=\"line line-wrap\">Gloire au Père, et au Fils, et au Saint-Esprit,</span>".toList =
    "-doxology-1".toList ++ ("\" class=\"".toList ++ ("line line-wrap".toList ++ ("\">".toList ++
      (glory ++ "</span>".toList))))
  amen : "-doxology-2\" class=\"line line-wrap\">pour les siècles des siècles. Amen.</span>".toList =
    "-doxology-2".toList ++ ("\" class=\"".toList ++ ("line line-wrap".toList ++ ("\">".toList ++
      (amen ++ "</span>".toList))))
  doxologyEnd : "</p></div>".toList = "</p>".toList ++ "</div>".toList
  head : "<!DOCTYPE html><html><head>".toList = "<!DOCTYPE html><html>".toList ++ "<head>".toList
  bodyEnd : "</body></html>".toList = "</body>".toList ++ "</html>".toList

theorem cuts : Cuts := by
  constructor <;> decide +kernel

/-- What is written into the value of an attribute does not end it. -/
structure QuoteFree : Prop where
  line : '"' ∉ "line".toList
  lineWrap : '"' ∉ "line line-wrap".toList
  glory : '"' ∉ "-doxology-1".toList
  amen : '"' ∉ "-doxology-2".toList
  initial : '"' ∉ "-antienne-1".toList
  final : '"' ∉ "-antienne-2".toList

theorem quoteFree : QuoteFree := by
  constructor <;> decide +kernel

/-! ## The markup is what it stands for -/

theorem renders_of_eq {html other : Text} {nodes : Nodes} (same : html = other) (renders : Renders other nodes) :
    Renders html nodes := same ▸ renders

theorem renders_referenceHtml (reference : Text) :
    Renders (Lecture.referenceHtml reference) (referenceNodes reference) := by
  have dash : Renders "<span aria-hidden=\"true\">—</span> ".toList
      (inElement (start "span" [("aria-hidden", "true".toList)]) (.ofText "—".toList) ++ .ofText [' ']) :=
    ⟨fixedTags.dash, rfl, nofun, trivial, trivial⟩
  have inItalic : Renders ("<i>".toList ++ _ ++ "</i>".toList) (inElement (start "i" []) _) :=
    .element rfl rfl rfl rfl (dash.append (.escape reference))
  have inSmall : Renders ("<small>".toList ++ _ ++ "</small>".toList) (inElement (start "small" []) _) :=
    .element rfl rfl rfl rfl inItalic
  refine renders_of_eq ?_ inSmall
  delta Lecture.referenceHtml htmlEncode
  rw [cuts.reference, cuts.referenceEnd]
  simp only [List.append_assoc]

theorem renders_titleHtml (lecture : Lecture) : Renders lecture.titleHtml
    (((present lecture.longTitle).map fun longTitle => titleNodes longTitle (present lecture.reference)).getD .nil) := by
  delta Lecture.titleHtml
  cases present lecture.longTitle with
  | none => exact .nil
  | some longTitle =>
    have reference : Renders (((present lecture.reference).map Lecture.referenceHtml).getD [])
        (((present lecture.reference).map referenceNodes).getD .nil) := by
      cases present lecture.reference with
      | none => exact .nil
      | some reference => exact renders_referenceHtml reference
    have heading : Renders ("<h3 role=\"paragraph\">".toList ++ _ ++ "</h3>".toList)
        (inElement (start "h3" [("role", "paragraph".toList)]) _) :=
      .element fixedTags.heading rfl rfl rfl (.append (.escape longTitle) reference)
    have divider : Renders "<div style=\"clear: both;\"></div>".toList
        (inElement (start "div" [("style", "clear: both;".toList)]) .nil) :=
      ⟨fixedTags.divider, rfl, fun _ => rfl, trivial, trivial⟩
    refine renders_of_eq ?_ (heading.append divider)
    delta htmlEncode
    simp only [List.append_assoc]

theorem line_wellFormed {id lineClass : Text} (noQuote : '"' ∉ id) (noQuoteInClass : '"' ∉ lineClass) :
    (line id lineClass).WellFormed where
  letter := rfl
  name := by
    show "span".toList.all isNameCharacter = true
    decide +kernel
  attributes := by
    have isName : "id".toList ≠ [] ∧ "id".toList.all isNameCharacter = true ∧
        "class".toList ≠ [] ∧ "class".toList.all isNameCharacter = true := by decide +kernel
    intro pair member
    obtain rfl | later := List.mem_cons.mp member
    · decide +kernel
    obtain rfl | later := List.mem_cons.mp later
    · exact ⟨isName.1, isName.2.1, noQuote⟩
    · obtain rfl := List.mem_singleton.mp later
      exact ⟨isName.2.2.1, isName.2.2.2, noQuoteInClass⟩

theorem markup_line (id lineClass : Text) : (line id lineClass).markup =
    "<span tabindex=\"0\" id=\"".toList ++ (id ++ ("\" class=\"".toList ++ (lineClass ++ "\">".toList))) := by
  simp [Tag.markup, line, start, attributeMarkup]

/-- The tag of a line is written around its key. -/
theorem renders_line (lineClass : Text) {id content : Text} {children : Nodes} (noQuote : '"' ∉ id)
    (noQuoteInClass : '"' ∉ lineClass) (inside : Renders content children) :
    Renders ("<span tabindex=\"0\" id=\"".toList ++ (id ++ ("\" class=\"".toList ++ (lineClass ++ ("\">".toList ++
      (content ++ "</span>".toList)))))) (inElement (line id lineClass) children) := by
  have around : Renders ((line id lineClass).markup ++ content ++ "</span>".toList)
      (inElement (line id lineClass) children) :=
    .element (.tag (line_wellFormed noQuote noQuoteInClass)) rfl rfl rfl inside
  refine renders_of_eq ?_ around
  rw [markup_line]
  simp only [List.append_assoc]

theorem renders_antienneHtml (lecture : Lecture) {afterKey : Text} (noQuote : '"' ∉ appended lecture.key ++ afterKey) :
    Renders (lecture.antienneHtml afterKey)
      (antienneNodes (appended lecture.key ++ afterKey) (appended lecture.antienne)) := by
  have title : Renders "<span class=\"antienne-title\">Antienne&nbsp;:</span> ".toList
      (inElement (start "span" [("class", "antienne-title".toList)]) (.ofText antienneTitle) ++ .ofText [' ']) :=
    ⟨fixedTags.antienneTitle, rfl, nofun, trivial, trivial⟩
  have selectable := renders_line "line".toList noQuote quoteFree.line
    (title.append (.escape (appended lecture.antienne)))
  have around : Renders ("<div class=\"antienne\">".toList ++ _ ++ "</div>".toList)
      (inElement (start "div" [("class", "antienne".toList)]) _) := .element fixedTags.antienne rfl rfl rfl selectable
  refine renders_of_eq ?_ around
  delta Lecture.antienneHtml htmlEncode
  rw [cuts.antienne, cuts.antienneTitle, cuts.antienneEnd]
  simp only [List.append_assoc]

theorem quote_notMem_append {key : Text} (noQuote : '"' ∉ key) (suffix : Text) (noQuoteInSuffix : '"' ∉ suffix) :
    '"' ∉ key ++ suffix := by
  simp [noQuote, noQuoteInSuffix]

theorem renders_doxologyHtml (lecture : Lecture) (noQuote : '"' ∉ appended lecture.key) :
    Renders lecture.doxologyHtml (doxologyNodes (appended lecture.key)) := by
  generalize isKey : appended lecture.key = key at noQuote ⊢
  have isText {text : Text} (reads : Reads text (texts text)) : Renders text (.ofText text) :=
    ⟨by rw [Nodes.tokens_ofText]; exact reads, Nodes.wellFormed_ofText text⟩
  have first := renders_line "line line-wrap".toList (quote_notMem_append noQuote "-doxology-1".toList quoteFree.glory)
    quoteFree.lineWrap (isText fixedTags.glory)
  have second := renders_line "line line-wrap".toList (quote_notMem_append noQuote "-doxology-2".toList quoteFree.amen)
    quoteFree.lineWrap (isText fixedTags.amen)
  have paragraph : Renders ("<p>".toList ++ _ ++ "</p>".toList) (inElement (start "p" []) _) :=
    .element rfl rfl rfl rfl (first.append second)
  have around : Renders ("<div class=\"doxology\">".toList ++ _ ++ "</div>".toList)
      (inElement (start "div" [("class", "doxology".toList)]) _) := .element fixedTags.doxology rfl rfl rfl paragraph
  refine renders_of_eq ?_ around
  delta Lecture.doxologyHtml
  rw [isKey, cuts.doxology, cuts.glory, cuts.amen, cuts.doxologyEnd]
  simp only [List.append_assoc]

/-- A field that is shown when it is there. -/
theorem renders_present {field : Option Text} {html : Text → Text} {nodes : Nodes}
    (renders : ∀ text, field = some text → Renders (html text) nodes) :
    Renders (((present field).map html).getD []) (((present field).map fun _ => nodes).getD .nil) := by
  cases isPresent : present field with
  | none => exact .nil
  | some text => exact renders text (Option.filter_eq_some_iff.mp isPresent).1

theorem renders_ite {shown : Bool} {html : Text} {nodes : Nodes} (renders : Renders html nodes) :
    Renders (if shown then html else []) (if shown then nodes else .nil) := by
  cases shown with
  | false => exact .nil
  | true => exact renders

theorem renders_toHtml {lecture : Lecture} {raw : Raw} (written : lecture.Written raw) :
    Renders lecture.toHtml (lecture.nodes raw) := by
  have initial := renders_antienneHtml lecture (quote_notMem_append written.key "-antienne-1".toList quoteFree.initial)
  have final := renders_antienneHtml lecture (quote_notMem_append written.key "-antienne-2".toList quoteFree.final)
  have verset : ∀ text, lecture.verset = some text →
      Renders (Lecture.versetHtml text) (inElement (start "p" [("class", "verset".toList)]) raw.verset) := by
    intro text isText
    have inside := written.verset
    rw [isText] at inside
    exact .element fixedTags.verset rfl rfl rfl inside
  have repons : ∀ text, lecture.repons = some text →
      Renders (Lecture.reponsHtml text) (inElement (start "p" [("class", "repons".toList)]) raw.repons) := by
    intro text isText
    have inside := written.repons
    rw [isText] at inside
    exact .element fixedTags.repons rfl rfl rfl inside
  exact ((((((renders_titleHtml lecture).append (renders_ite initial)).append written.text).append
    (renders_ite (renders_doxologyHtml lecture written.key))).append (renders_ite final)).append
    (renders_present verset)).append (renders_present repons)

/-! ## The page is what it stands for -/

theorem noMarkup_intText (number : Int) : '<' ∉ intText number ∧ '&' ∉ intText number := by
  have digits (c : Char) (notDigit : c.isDigit = false) : c ∉ Nat.toDigits 10 number.natAbs := by
    intro member
    rw [Decimal.isDigits_toDigits _ c member] at notDigit
    cases notDigit
  rw [intText]
  split
  case isTrue => simp [digits '<' (by decide), digits '&' (by decide)]
  case isFalse => simp [digits '<' (by decide), digits '&' (by decide)]

theorem renders_getAccessibilityCss (fontWeightAdjustment : Int) :
    Renders (getAccessibilityCss fontWeightAdjustment) (.ofText (getAccessibilityCss fontWeightAdjustment)) := by
  have around : '<' ∉ "body \x7bfont-weight: ".toList ∧ '&' ∉ "body \x7bfont-weight: ".toList ∧
      '<' ∉ ";\x7d".toList ∧ '&' ∉ ";\x7d".toList := by decide +kernel
  obtain ⟨noBracket, noReference, noBracketBehind, noReferenceBehind⟩ := around
  have number := noMarkup_intText ((400 + fontWeightAdjustment).bmod (2 ^ 32))
  delta getAccessibilityCss
  generalize (400 + fontWeightAdjustment).bmod (2 ^ 32) = weight at number ⊢
  generalize "body \x7bfont-weight: ".toList = opening at noBracket noReference ⊢
  generalize ";\x7d".toList = closing at noBracketBehind noReferenceBehind ⊢
  refine .plain ?_ ?_
  · simp [noBracket, noBracketBehind, number.1]
  · simp [noReference, noReferenceBehind, number.2]

theorem renders_page {lecture : Lecture} {lectureNodes : Nodes} (body : Renders lecture.toHtml lectureNodes)
    (nightMode : Bool) (fontWeightAdjustment : Int) :
    Renders (buildPage nightMode fontWeightAdjustment lecture)
      (pageNodes nightMode fontWeightAdjustment lectureNodes) := by
  have style : Renders ("<style>".toList ++ _ ++ "</style>".toList) (inElement (start "style" []) _) :=
    .element rfl rfl rfl rfl (renders_getAccessibilityCss fontWeightAdjustment)
  have styleSheets : Renders _
      (inElement (styleSheet "css/common.css".toList) .nil ++ inElement (styleSheet (getThemeCss nightMode)) .nil) :=
    ⟨fixedTags.styleSheets nightMode, rfl, fun _ => rfl, trivial, rfl, fun _ => rfl, trivial, trivial⟩
  have inHead : Renders ("<head>".toList ++ _ ++ "</head>".toList) (inElement (start "head" []) _) :=
    .element rfl rfl rfl rfl (styleSheets.append style)
  have script : Renders "<script src=\"js/lecture.js\" charset=\"utf-8\"></script>\n".toList scriptNodes :=
    ⟨fixedTags.script, rfl, fun _ => rfl, trivial, trivial⟩
  have inBody : Renders ("<body>".toList ++ _ ++ "</body>".toList) (inElement (start "body" []) _) :=
    .element rfl rfl rfl rfl (body.append script)
  have whole : Renders ("<!DOCTYPE html><html>".toList ++ _ ++ "</html>".toList) (inElement (start "html" []) _) :=
    .element fixedTags.doctype rfl rfl rfl (inHead.append inBody)
  refine renders_of_eq ?_ whole
  delta buildPage
  rw [cuts.head, cuts.bodyEnd]
  simp only [List.append_assoc]

/-! ## What is displayed -/

/-- The texts that `lecture.js` takes for references. -/
def citationsIn (nodes : Nodes) : List Text :=
  (nodes.querySelectorAll "small".toList "i".toList).map Nodes.textContent

namespace Lecture

/-- The text of the page, from top to bottom. -/
def displayed (lecture : Lecture) (raw : Raw) : Text :=
  ((present lecture.longTitle).map fun longTitle =>
      longTitle ++ ((present lecture.reference).map fun reference => '—' :: ' ' :: reference).getD []).getD [] ++
    (if lecture.should_display_initial_antienne then antienneTitle ++ ' ' :: appended lecture.antienne else []) ++
    raw.text.textContent ++
    (if lecture.should_display_doxology then glory ++ amen else []) ++
    (if lecture.should_display_final_antienne then antienneTitle ++ ' ' :: appended lecture.antienne else []) ++
    ((present lecture.verset).map fun _ => raw.verset.textContent).getD [] ++
    ((present lecture.repons).map fun _ => raw.repons.textContent).getD []

/-- The references that `lecture.js` finds: the one of the title, and those in the markup that was received. -/
def citations (lecture : Lecture) (raw : Raw) : List Text :=
  ((present lecture.longTitle).bind fun _ => present lecture.reference).toList.map
      (fun reference => '—' :: ' ' :: reference) ++
    (citationsIn raw.text ++ ((present lecture.verset).map fun _ => citationsIn raw.verset).getD [] ++
      ((present lecture.repons).map fun _ => citationsIn raw.repons).getD [])

end Lecture

theorem textContent_inElement (tag : Tag) (children : Nodes) :
    (inElement tag children).textContent = children.textContent := by
  rw [inElement, Nodes.textContent, Nodes.textContent, List.append_nil]

theorem textContent_getD {α : Type} (field : Option α) (nodes : α → Nodes) :
    ((field.map nodes).getD .nil).textContent = (field.map fun value => (nodes value).textContent).getD [] := by
  cases field <;> rfl

theorem textContent_titleNodes (longTitle : Text) (reference : Option Text) :
    (titleNodes longTitle reference).textContent =
      longTitle ++ (reference.map fun reference => '—' :: ' ' :: reference).getD [] := by
  have citation (reference : Text) : (referenceNodes reference).textContent = '—' :: ' ' :: reference := by
    simp [referenceNodes, textContent_inElement, Nodes.textContent_append, Nodes.textContent_ofText]
  simp [titleNodes, textContent_inElement, Nodes.textContent_append, Nodes.textContent_ofText, textContent_getD, citation,
    Nodes.textContent]

theorem textContent_antienneNodes (id antienne : Text) :
    (antienneNodes id antienne).textContent = antienneTitle ++ ' ' :: antienne := by
  simp [antienneNodes, textContent_inElement, Nodes.textContent_append, Nodes.textContent_ofText]

theorem textContent_doxologyNodes (key : Text) : (doxologyNodes key).textContent = glory ++ amen := by
  simp [doxologyNodes, textContent_inElement, Nodes.textContent_append, Nodes.textContent_ofText]

theorem textContent_nodes (lecture : Lecture) (raw : Raw) : (lecture.nodes raw).textContent = lecture.displayed raw := by
  delta Lecture.nodes Lecture.displayed
  simp only [Nodes.textContent_append, textContent_getD, apply_ite Nodes.textContent, textContent_titleNodes,
    textContent_antienneNodes, textContent_doxologyNodes, textContent_inElement]
  rfl

/-! ## What the script finds -/

theorem citationsIn_append (before after : Nodes) :
    citationsIn (before ++ after) = citationsIn before ++ citationsIn after := by
  rw [citationsIn, Nodes.querySelectorAll, Nodes.select_append, List.map_append]
  rfl

theorem citationsIn_ofText (text : Text) : citationsIn (.ofText text) = [] := by
  rw [citationsIn, Nodes.querySelectorAll, Nodes.select_ofText, List.map_nil]

/-- An element that no reference of the script begins with. -/
theorem citationsIn_inElement (name : String) (attributes : List (String × Text)) (other : name.toList ≠ "small".toList)
    (children : Nodes) : citationsIn (inElement (start name attributes) children) = citationsIn children := by
  rw [citationsIn, Nodes.querySelectorAll, inElement, Nodes.select, Nodes.select, List.append_nil, Bool.false_and,
    Bool.false_or, start, decide_eq_false other]
  rfl

theorem citationsIn_getD {α : Type} (field : Option α) (nodes : α → Nodes) :
    citationsIn ((field.map nodes).getD .nil) = (field.map fun value => citationsIn (nodes value)).getD [] := by
  cases field <;> rfl

theorem citationsIn_referenceNodes (reference : Text) :
    citationsIn (referenceNodes reference) = ['—' :: ' ' :: reference] := by
  have inItalic (children : Nodes) (nothing : children.select "small".toList "i".toList true = []) :
      citationsIn (inElement (start "small" []) (inElement (start "i" []) children)) = [children.textContent] := by
    have found : (inElement (start "small" []) (inElement (start "i" []) children)).querySelectorAll
        "small".toList "i".toList = [children] ++ (children.select "small".toList "i".toList true ++ []) ++ [] := rfl
    rw [citationsIn, found, nothing]
    rfl
  rw [referenceNodes, inItalic]
  · simp [textContent_inElement, Nodes.textContent_append, Nodes.textContent_ofText]
  · rw [Nodes.select_append, Nodes.select_ofText, List.append_nil]
    rfl

theorem citationsIn_line (id lineClass : Text) (children : Nodes) :
    citationsIn (inElement (line id lineClass) children) = citationsIn children :=
  citationsIn_inElement "span" _ (by decide) children

theorem citationsIn_antienneNodes (id antienne : Text) : citationsIn (antienneNodes id antienne) = [] := by
  rw [antienneNodes, citationsIn_inElement "div" _ (by decide), citationsIn_line, citationsIn_append,
    citationsIn_inElement "span" _ (by decide), citationsIn_ofText, citationsIn_ofText, List.append_nil]

theorem citationsIn_doxologyNodes (key : Text) : citationsIn (doxologyNodes key) = [] := by
  rw [doxologyNodes, citationsIn_inElement "div" _ (by decide), citationsIn_inElement "p" _ (by decide),
    citationsIn_append, citationsIn_line, citationsIn_line, citationsIn_ofText, citationsIn_ofText, List.append_nil]

theorem citationsIn_titleNodes (longTitle : Text) (reference : Option Text) :
    citationsIn (titleNodes longTitle reference) = reference.toList.map fun reference => '—' :: ' ' :: reference := by
  rw [titleNodes, citationsIn_append, citationsIn_inElement "h3" _ (by decide), citationsIn_append,
    citationsIn_ofText, citationsIn_inElement "div" _ (by decide)]
  cases reference with
  | none => rfl
  | some reference =>
    rw [Option.map_some, Option.getD_some, citationsIn_referenceNodes]
    rfl

theorem citationsIn_nodes (lecture : Lecture) (raw : Raw) :
    citationsIn (lecture.nodes raw) = lecture.citations raw := by
  have atNil : citationsIn .nil = [] := rfl
  delta Lecture.nodes Lecture.citations
  simp only [citationsIn_append, citationsIn_getD, apply_ite citationsIn, citationsIn_titleNodes,
    citationsIn_antienneNodes, citationsIn_doxologyNodes, citationsIn_inElement "p" _ (by decide), atNil, ite_self,
    List.append_nil]
  cases present lecture.longTitle with
  | none => simp
  | some longTitle => simp

theorem citationsIn_headNodes (nightMode : Bool) (fontWeightAdjustment : Int) :
    citationsIn (headNodes nightMode fontWeightAdjustment) = [] := by
  have inLink (href : Text) : citationsIn (inElement (styleSheet href) .nil) = [] :=
    citationsIn_inElement "link" _ (by decide) .nil
  delta headNodes
  rw [citationsIn_append, citationsIn_append, inLink, inLink, citationsIn_inElement "style" _ (by decide),
    citationsIn_ofText, List.append_nil, List.append_nil]

theorem citationsIn_pageNodes (nightMode : Bool) (fontWeightAdjustment : Int) (lectureNodes : Nodes) :
    citationsIn (pageNodes nightMode fontWeightAdjustment lectureNodes) = citationsIn lectureNodes := by
  have inScript : citationsIn scriptNodes = [] := by
    rw [scriptNodes, citationsIn_append, citationsIn_inElement "script" _ (by decide), citationsIn_ofText]
    rfl
  delta pageNodes
  rw [citationsIn_inElement "html" _ (by decide), citationsIn_append,
    citationsIn_inElement "head" _ (by decide), citationsIn_inElement "body" _ (by decide),
    citationsIn_headNodes, citationsIn_append, inScript, List.append_nil, List.nil_append]

theorem textContent_pageNodes (nightMode : Bool) (fontWeightAdjustment : Int) (lectureNodes : Nodes) :
    (pageNodes nightMode fontWeightAdjustment lectureNodes).textContent =
      getAccessibilityCss fontWeightAdjustment ++ lectureNodes.textContent ++ ['\n'] := by
  simp [pageNodes, headNodes, scriptNodes, textContent_inElement, Nodes.textContent_append, Nodes.textContent_ofText,
    Nodes.textContent]

/-! ## From the fields to the screen -/

/-- The page has the lecture as its text, before and after the script: nothing in an escaped field becomes markup,
the references that the script finds are those of the title and of the received markup, and the links it makes of
them show the text that was there. -/
theorem page_displays_lecture {lecture : Lecture} {raw : Raw} (written : lecture.Written raw)
    (plain : ∀ citation ∈ lecture.citations raw, PlainCitation citation) (nightMode : Bool) (fontWeightAdjustment : Int) :
    ∃ document shown, parse (buildPage nightMode fontWeightAdjustment lecture) = some document ∧
      document.textContent = getAccessibilityCss fontWeightAdjustment ++ lecture.displayed raw ++ ['\n'] ∧
      citationsIn document = lecture.citations raw ∧
      runLectureScript document = some shown ∧
      shown.textContent.filter (· ≠ ' ') = document.textContent.filter (· ≠ ' ') := by
  have renders := renders_page (renders_toHtml written) nightMode fontWeightAdjustment
  have found : citationsIn (pageNodes nightMode fontWeightAdjustment (lecture.nodes raw)) = lecture.citations raw := by
    rw [citationsIn_pageNodes, citationsIn_nodes]
  obtain ⟨shown, isShown, keeps⟩ : ∃ shown,
      runLectureScript (pageNodes nightMode fontWeightAdjustment (lecture.nodes raw)) = some shown ∧ _ := by
    refine Bible.script_keeps_text ?_
    intro element member
    refine plain element.textContent ?_
    rw [← found]
    exact List.mem_map_of_mem member
  refine ⟨_, shown, renders.parse, ?_, found, isShown, keeps⟩
  rw [textContent_pageNodes, textContent_nodes]

namespace Psalm

def lecture : Lecture where
  key := some "psaume_1".toList
  longTitle := some "Psaume <1> & \"antienne\"".toList
  reference := some "Ps 1, 1-3".toList
  antienne := some "Heureux <est> l'homme".toList
  verset := none
  repons := some "R/ Amen".toList
  text := some "<p>Heureux <b>est</b> l'homme<br/></p>".toList

def raw : Raw where
  text := inElement (start "p" [])
    (.ofText "Heureux ".toList ++ inElement (start "b" []) (.ofText "est".toList) ++ .ofText " l'homme".toList ++
      inElement (start "br" []) .nil)
  verset := .nil
  repons := .ofText "R/ Amen".toList

theorem written : lecture.Written raw where
  key := by decide +kernel
  text := ⟨by decide +kernel, rfl, nofun, ⟨rfl, nofun, trivial, rfl, fun _ => rfl, trivial, trivial⟩, trivial⟩
  verset := .nil
  repons := .plain (by decide +kernel) (by decide +kernel)

theorem citations_eq : lecture.citations raw = ["— Ps 1, 1-3".toList] := by decide +kernel

theorem psalm_displayed : ∃ document shown, parse (buildPage true 0 lecture) = some document ∧
    document.textContent = getAccessibilityCss 0 ++ lecture.displayed raw ++ ['\n'] ∧
    citationsIn document = lecture.citations raw ∧ runLectureScript document = some shown ∧
    shown.textContent.filter (· ≠ ' ') = document.textContent.filter (· ≠ ' ') := by
  refine page_displays_lecture written ?_ true 0
  intro citation member
  rw [citations_eq] at member
  obtain rfl := List.mem_singleton.mp member
  exact ⟨rfl, by decide +kernel, by decide +kernel⟩

end Psalm

end Aelf.Lectures.LectureHtml
