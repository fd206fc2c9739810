import Mathlib.Data.List.Basic

/-! # Markup

A page is read character by character into tags and text.  What is written so that it reads
back is collected in `Reads`: escaped text, tags with quoted attributes, and anything put
together from such pieces.

A character reference ends with a semicolon here, and a declaration or a comment at its first
closing bracket. -/

namespace Aelf.Library.Html

/-! ## Reading -/

/-- Names are in lower case; a value is kept as it is written. -/
structure Tag where
  isEnd : Bool
  name : List Char
  attributes : List (List Char × List Char)
deriving DecidableEq

inductive Token where
  | text (c : Char)
  | tag (tag : Tag)
deriving DecidableEq

def texts (text : List Char) : List Token := text.map .text

/-- What has been read of the text, of a reference or of a tag. -/
inductive Mode where
  | data
  | reference (read : List Char)
  | tagOpen (isEnd : Bool)
  | tagName (isEnd : Bool) (name : List Char)
  | beforeAttribute (tag : Tag)
  | attributeName (tag : Tag) (name : List Char)
  | beforeValue (tag : Tag) (name : List Char)
  | quotedValue (tag : Tag) (name : List Char) (quote : Char) (value : List Char)
  | unquotedValue (tag : Tag) (name value : List Char)
  | declaration
deriving DecidableEq

def isBlank (c : Char) : Bool := c = ' ' || c = '\t' || c = '\n' || c = '\r'

def apostrophe : Char := Char.ofNat 39

/-- The references that are known here. -/
def character : List Char → Option Char
  | ['a', 'm', 'p'] => some '&'
  | ['l', 't'] => some '<'
  | ['g', 't'] => some '>'
  | ['q', 'u', 'o', 't'] => some '"'
  | ['#', '3', '9'] => some apostrophe
  | ['n', 'b', 's', 'p'] => some (Char.ofNat 160)
  | _ => none

def Tag.add (tag : Tag) (name value : List Char) : Tag := { tag with attributes := tag.attributes ++ [(name, value)] }

def stepData (c : Char) : List Token × Mode :=
  if c = '<' then ([], .tagOpen false)
  else if c = '&' then ([], .reference [])
  else ([.text c], .data)

/-- What was read before turns out to be text. -/
def stepAfter (text : List Char) (c : Char) : List Token × Mode := (texts text ++ (stepData c).1, (stepData c).2)

def step : Mode → Char → List Token × Mode
  | .data, c => stepData c
  | .reference read, c =>
    if c = ';' then
      match character read with
      | some known => ([.text known], .data)
      | none => (texts ('&' :: read ++ [';']), .data)
    else if c.isAlphanum || c = '#' then ([], .reference (read ++ [c]))
    else stepAfter ('&' :: read) c
  | .tagOpen isEnd, c =>
    if c.isAlpha then ([], .tagName isEnd [c.toLower])
    else if isEnd then (if c = '>' then ([], .data) else ([], .declaration))
    else if c = '/' then ([], .tagOpen true)
    else if c = '!' || c = '?' then ([], .declaration)
    else stepAfter ['<'] c
  | .tagName isEnd name, c =>
    if c = '>' then ([.tag ⟨isEnd, name, []⟩], .data)
    else if isBlank c || c = '/' then ([], .beforeAttribute ⟨isEnd, name, []⟩)
    else ([], .tagName isEnd (name ++ [c.toLower]))
  | .beforeAttribute tag, c =>
    if c = '>' then ([.tag tag], .data)
    else if isBlank c || c = '/' then ([], .beforeAttribute tag)
    else ([], .attributeName tag [c.toLower])
  | .attributeName tag name, c =>
    if c = '>' then ([.tag (tag.add name [])], .data)
    else if c = '=' then ([], .beforeValue tag name)
    else if isBlank c || c = '/' then ([], .beforeAttribute (tag.add name []))
    else ([], .attributeName tag (name ++ [c.toLower]))
  | .beforeValue tag name, c =>
    if c = '>' then ([.tag (tag.add name [])], .data)
    else if isBlank c then ([], .beforeValue tag name)
    else if c = '"' || c = apostrophe then ([], .quotedValue tag name c [])
    else ([], .unquotedValue tag name [c])
  | .quotedValue tag name quote value, c =>
    if c = quote then ([], .beforeAttribute (tag.add name value)) else ([], .quotedValue tag name quote (value ++ [c]))
  | .unquotedValue tag name value, c =>
    if c = '>' then ([.tag (tag.add name value)], .data)
    else if isBlank c then ([], .beforeAttribute (tag.add name value))
    else ([], .unquotedValue tag name (value ++ [c]))
  | .declaration, c => if c = '>' then ([], .data) else ([], .declaration)

/-- The tokens of a text, and where it ends. -/
def read : Mode → List Char → List Token × Mode
  | mode, [] => ([], mode)
  | mode, c :: rest =>
    let (tokens, next) := step mode c
    let (moreTokens, last) := read next rest
    (tokens ++ moreTokens, last)

theorem read_cons (mode : Mode) (c : Char) (rest : List Char) : read mode (c :: rest) =
    ((step mode c).1 ++ (read (step mode c).2 rest).1, (read (step mode c).2 rest).2) := rfl

theorem read_append (mode : Mode) (before after : List Char) :
    read mode (before ++ after) =
      ((read mode before).1 ++ (read (read mode before).2 after).1, (read (read mode before).2 after).2) := by
  induction before generalizing mode with
  | nil => rfl
  | cons c before inductionHypothesis =>
    simp only [List.cons_append, read_cons, inductionHypothesis, List.append_assoc]

/-! ## Pieces of markup -/

/-- The markup reads as the tokens and leaves nothing open. -/
def Reads (html : List Char) (tokens : List Token) : Prop := read .data html = (tokens, .data)

instance (html : List Char) (tokens : List Token) : Decidable (Reads html tokens) :=
  inferInstanceAs (Decidable (_ = _))

namespace Reads

theorem nil : Reads [] [] := rfl

theorem append {before after : List Char} {tokens moreTokens : List Token} (first : Reads before tokens)
    (second : Reads after moreTokens) : Reads (before ++ after) (tokens ++ moreTokens) := by
  rw [Reads, read_append, first]
  dsimp only
  rw [second]

/-- Characters without a meaning of their own. -/
theorem plain {text : List Char} (noBracket : '<' ∉ text) (noReference : '&' ∉ text) : Reads text (texts text) := by
  induction text with
  | nil => rfl
  | cons c text inductionHypothesis =>
    rw [List.mem_cons, not_or] at noBracket noReference
    have here : stepData c = ([.text c], .data) := by
      rw [stepData, if_neg (Ne.symm noBracket.1), if_neg (Ne.symm noReference.1)]
    have rest := inductionHypothesis noBracket.2 noReference.2
    rw [Reads] at rest ⊢
    rw [read_cons, step, here, rest]
    rfl

end Reads

/-! ## Escaped text -/

def escapeCharacter (c : Char) : List Char :=
  if c = '<' then ['&', 'l', 't', ';']
  else if c = '>' then ['&', 'g', 't', ';']
  else if c = '&' then ['&', 'a', 'm', 'p', ';']
  else if c = apostrophe then ['&', '#', '3', '9', ';']
  else if c = '"' then ['&', 'q', 'u', 'o', 't', ';']
  else [c]

def escape (text : List Char) : List Char := text.flatMap escapeCharacter

theorem reads_escapeCharacter (c : Char) : Reads (escapeCharacter c) [.text c] := by
  unfold escapeCharacter
  split
  case isTrue same => rw [same]; decide
  case isFalse notLess =>
    split
    case isTrue same => rw [same]; decide
    case isFalse =>
      split
      case isTrue same => rw [same]; decide
      case isFalse notAmpersand =>
        split
        case isTrue same => rw [same]; decide
        case isFalse =>
          split
          case isTrue same => rw [same]; decide
          case isFalse => exact Reads.plain (by simpa using Ne.symm notLess) (by simpa using Ne.symm notAmpersand)

/-- Escaped text is read as the text it was. -/
theorem Reads.escape (text : List Char) : Reads (escape text) (texts text) := by
  induction text with
  | nil => exact .nil
  | cons c text inductionHypothesis => exact (reads_escapeCharacter c).append inductionHypothesis

/-! ## Tags -/

def attributeMarkup (pair : List Char × List Char) : List Char :=
  ' ' :: (pair.1 ++ '=' :: '"' :: (pair.2 ++ ['"']))

def Tag.markup (tag : Tag) : List Char :=
  '<' :: ((if tag.isEnd then ['/'] else []) ++ (tag.name ++ (tag.attributes.flatMap attributeMarkup ++ ['>'])))

/-- A character of a name. -/
def isNameCharacter (c : Char) : Bool := c.toLower = c && !isBlank c && c ≠ '/' && c ≠ '>' && c ≠ '='

theorem of_isNameCharacter {name : List Char} (isName : name.all isNameCharacter = true) {c : Char} (member : c ∈ name) :
    c.toLower = c ∧ isBlank c = false ∧ c ≠ '/' ∧ c ≠ '>' ∧ c ≠ '=' := by
  simpa [isNameCharacter, and_assoc] using List.all_eq_true.mp isName c member

/-- The tag has a name, which starts with a letter, and no value holds the quote that ends it. -/
structure Tag.WellFormed (tag : Tag) : Prop where
  letter : tag.name.head?.any Char.isAlpha = true
  name : tag.name.all isNameCharacter = true
  attributes : ∀ pair ∈ tag.attributes, pair.1 ≠ [] ∧ pair.1.all isNameCharacter = true ∧ '"' ∉ pair.2

/-- Characters that a mode only collects. -/
theorem read_collect (mode : List Char → Mode) {text : List Char}
    (collects : ∀ c ∈ text, ∀ read, step (mode read) c = ([], mode (read ++ [c]))) (collected rest : List Char) :
    read (mode collected) (text ++ rest) = read (mode (collected ++ text)) rest := by
  induction text generalizing collected with
  | nil => simp
  | cons c text inductionHypothesis =>
    have later := inductionHypothesis fun c member => collects c (List.mem_cons_of_mem _ member)
    rw [List.cons_append, read_cons, collects c List.mem_cons_self, later, List.append_assoc]
    rfl

theorem read_attribute (tag : Tag) {pair : List Char × List Char} (nonempty : pair.1 ≠ [])
    (isName : pair.1.all isNameCharacter = true) (noQuote : '"' ∉ pair.2) (rest : List Char) :
    read (.beforeAttribute tag) (attributeMarkup pair ++ rest) =
      read (.beforeAttribute (tag.add pair.1 pair.2)) rest := by
  obtain ⟨name, value⟩ := pair
  obtain ⟨first, name, rfl⟩ := List.exists_cons_of_ne_nil nonempty
  obtain ⟨lower, notBlank, notSlash, notClose, notEquals⟩ := of_isNameCharacter isName (List.mem_cons_self (a := first))
  have collectName : ∀ c ∈ name, ∀ collected,
      step (.attributeName tag collected) c = ([], .attributeName tag (collected ++ [c])) := by
    intro c member collected
    obtain ⟨lower, notBlank, notSlash, notClose, notEquals⟩ :=
      of_isNameCharacter isName (List.mem_cons_of_mem first member)
    simp [step, notClose, notEquals, notBlank, notSlash, lower]
  have collectValue : ∀ c ∈ value, ∀ collected,
      step (.quotedValue tag (first :: name) '"' collected) c =
        ([], .quotedValue tag (first :: name) '"' (collected ++ [c])) := by
    intro c member collected
    have different : c ≠ '"' := fun same => noQuote (same ▸ member)
    simp [step, different]
  have start : step (.beforeAttribute tag) first = ([], .attributeName tag [first]) := by
    simp [step, notClose, notBlank, notSlash, lower]
  have opened : read (.attributeName tag (first :: name)) ('=' :: '"' :: (value ++ '"' :: rest)) =
      read (.quotedValue tag (first :: name) '"' []) (value ++ '"' :: rest) := rfl
  have closed : read (.quotedValue tag (first :: name) '"' value) ('"' :: rest) =
      read (.beforeAttribute (tag.add (first :: name) value)) rest := rfl
  calc read (.beforeAttribute tag) (attributeMarkup (first :: name, value) ++ rest)
      = read (.beforeAttribute tag) (first :: (name ++ '=' :: '"' :: (value ++ '"' :: rest))) := by
        simp [attributeMarkup, read_cons, step, isBlank]
    _ = read (.attributeName tag [first]) (name ++ '=' :: '"' :: (value ++ '"' :: rest)) := by
        rw [read_cons, start]
        rfl
    _ = read (.attributeName tag (first :: name)) ('=' :: '"' :: (value ++ '"' :: rest)) :=
        read_collect (.attributeName tag) collectName [first] _
    _ = read (.quotedValue tag (first :: name) '"' value) ('"' :: rest) := by
        rw [opened]
        exact read_collect (.quotedValue tag (first :: name) '"') collectValue [] _
    _ = read (.beforeAttribute (tag.add (first :: name) value)) rest := closed

theorem read_attributes (tag : Tag) {attributes : List (List Char × List Char)}
    (wellFormed : ∀ pair ∈ attributes, pair.1 ≠ [] ∧ pair.1.all isNameCharacter = true ∧ '"' ∉ pair.2) :
    read (.beforeAttribute tag) (attributes.flatMap attributeMarkup ++ ['>']) =
      ([.tag { tag with attributes := tag.attributes ++ attributes }], .data) := by
  induction attributes generalizing tag with
  | nil => simp [read_cons, step, read]
  | cons pair attributes inductionHypothesis =>
    obtain ⟨nonempty, isName, noQuote⟩ := wellFormed pair (by simp)
    rw [List.flatMap_cons, List.append_assoc, read_attribute tag nonempty isName noQuote,
      inductionHypothesis _ fun other member => wellFormed other (by simp [member])]
    simp [Tag.add]

/-- Behind the name the attributes are read the same way as behind another attribute. -/
theorem read_tagName (isEnd : Bool) (name : List Char) (attributes : List (List Char × List Char)) :
    read (.tagName isEnd name) (attributes.flatMap attributeMarkup ++ ['>']) =
      read (.beforeAttribute ⟨isEnd, name, []⟩) (attributes.flatMap attributeMarkup ++ ['>']) := by
  cases attributes with
  | nil => rfl
  | cons pair attributes => simp [attributeMarkup, read_cons, step, isBlank]

theorem Reads.tag {tag : Tag} (wellFormed : tag.WellFormed) : Reads tag.markup [.tag tag] := by
  obtain ⟨isEnd, name, attributes⟩ := tag
  obtain ⟨letter, isName, wellFormedAttributes⟩ := wellFormed
  dsimp only at letter isName wellFormedAttributes
  cases name with
  | nil => cases letter
  | cons first name =>
    have isLetter : first.isAlpha = true := by simpa using letter
    obtain ⟨lower, notBlank, notSlash, notClose, -⟩ := of_isNameCharacter isName (List.mem_cons_self (a := first))
    have collects : ∀ c ∈ name, ∀ collected,
        step (.tagName isEnd collected) c = ([], .tagName isEnd (collected ++ [c])) := by
      intro c member collected
      obtain ⟨lower, notBlank, notSlash, notClose, -⟩ := of_isNameCharacter isName (List.mem_cons_of_mem first member)
      simp [step, notClose, notBlank, notSlash, lower]
    have named (rest : List Char) : read (.tagOpen isEnd) (first :: rest) = read (.tagName isEnd [first]) rest := by
      simp [read_cons, step, isLetter, lower]
    have opened (rest : List Char) : read .data ('<' :: ((if isEnd then ['/'] else []) ++ first :: rest)) =
        read (.tagOpen isEnd) (first :: rest) := by
      cases isEnd with
      | false => rfl
      | true => rfl
    calc read .data (Tag.markup ⟨isEnd, first :: name, attributes⟩)
        = read (.tagName isEnd [first]) (name ++ (attributes.flatMap attributeMarkup ++ ['>'])) :=
          (opened _).trans (named _)
      _ = read (.tagName isEnd (first :: name)) (attributes.flatMap attributeMarkup ++ ['>']) :=
          read_collect (.tagName isEnd) collects [first] _
      _ = read (.beforeAttribute ⟨isEnd, first :: name, []⟩) (attributes.flatMap attributeMarkup ++ ['>']) :=
          read_tagName isEnd (first :: name) attributes
      _ = ([.tag ⟨isEnd, first :: name, attributes⟩], .data) := read_attributes _ wellFormedAttributes

/-! ## Documents -/

/-- Nodes that follow each other. -/
inductive Nodes where
  | nil
  | text (c : Char) (next : Nodes)
  | element (tag : Tag) (children next : Nodes)
deriving DecidableEq

/-- The elements without an end tag. -/
def voidNames : List (List Char) :=
  [['a', 'r', 'e', 'a'], ['b', 'a', 's', 'e'], ['b', 'r'], ['c', 'o', 'l'], ['e', 'm', 'b', 'e', 'd'], ['h', 'r'],
    ['i', 'm', 'g'], ['i', 'n', 'p', 'u', 't'], ['l', 'i', 'n', 'k'], ['m', 'e', 't', 'a'],
    ['s', 'o', 'u', 'r', 'c', 'e'], ['t', 'r', 'a', 'c', 'k'], ['w', 'b', 'r']]

def Tag.isVoid (tag : Tag) : Bool := voidNames.contains tag.name

def Tag.ending (tag : Tag) : Tag := ⟨true, tag.name, []⟩

namespace Nodes

def append : Nodes → Nodes → Nodes
  | nil, after => after
  | text c next, after => text c (next.append after)
  | element tag children next, after => element tag children (next.append after)

instance : Append Nodes := ⟨append⟩

def ofText : List Char → Nodes
  | [] => nil
  | c :: rest => text c (ofText rest)

def tokens : Nodes → List Token
  | nil => []
  | text c next => .text c :: next.tokens
  | element tag children next =>
    .tag tag :: (children.tokens ++ (if tag.isVoid then [] else [.tag tag.ending]) ++ next.tokens)

/-- What the elements may be. -/
def WellFormed : Nodes → Prop
  | nil => True
  | text _ next => next.WellFormed
  | element tag children next =>
    tag.isEnd = false ∧ (tag.isVoid = true → children = nil) ∧ children.WellFormed ∧ next.WellFormed

section Equations

variable (c : Char) (tag : Tag) (children next after : Nodes)

@[simp] theorem nil_append : nil ++ after = after := rfl

@[simp] theorem text_append : text c next ++ after = text c (next ++ after) := rfl

@[simp] theorem element_append : element tag children next ++ after = element tag children (next ++ after) := rfl

end Equations

@[simp] theorem append_nil (nodes : Nodes) : nodes ++ nil = nodes := by
  induction nodes with
  | nil => rfl
  | text c next inductionHypothesis => rw [text_append, inductionHypothesis]
  | element tag children next _ inductionHypothesis => rw [element_append, inductionHypothesis]

theorem tokens_append (before after : Nodes) : (before ++ after).tokens = before.tokens ++ after.tokens := by
  induction before with
  | nil => rfl
  | text c next inductionHypothesis => simp [tokens, inductionHypothesis]
  | element tag children next _ inductionHypothesis => simp [tokens, inductionHypothesis]

theorem tokens_ofText (text : List Char) : (ofText text).tokens = texts text := by
  induction text with
  | nil => rfl
  | cons c text inductionHypothesis => simp [ofText, tokens, texts, inductionHypothesis]

theorem wellFormed_append {before after : Nodes} (first : before.WellFormed) (second : after.WellFormed) :
    (before ++ after).WellFormed := by
  induction before with
  | nil => exact second
  | text c next inductionHypothesis => exact inductionHypothesis first
  | element tag children next _ inductionHypothesis =>
    obtain ⟨starts, empty, inside, later⟩ := first
    exact ⟨starts, empty, inside, inductionHypothesis later⟩

theorem wellFormed_ofText (text : List Char) : (ofText text).WellFormed := by
  induction text with
  | nil => trivial
  | cons c text inductionHypothesis => exact inductionHypothesis

end Nodes

/-! ## From tokens to nodes -/

/-- What has been put together from the end of the document: the nodes that come next, and for each element
that is still without its start the name in its end tag and the nodes behind it. -/
structure Building where
  next : Nodes
  ended : List (List Char × Nodes)

def Building.put : Token → Building → Option Building
  | .text c, building => some { building with next := .text c building.next }
  | .tag tag, building =>
    if tag.isEnd then some ⟨.nil, (tag.name, building.next) :: building.ended⟩
    else if tag.isVoid then some { building with next := .element tag .nil building.next }
    else match building.ended with
      | [] => none
      | (name, behind) :: ended => if name = tag.name then some ⟨.element tag building.next behind, ended⟩ else none

/-- Each end tag has to end the element that was opened last. -/
def build : List Token → Option Building
  | [] => some ⟨.nil, []⟩
  | token :: tokens => (build tokens).bind (Building.put token)

/-- The document of a page whose tags are all properly nested. -/
def parse (html : List Char) : Option Nodes := do
  let building ← build (read .data html).1
  if (read .data html).2 = .data ∧ building.ended = [] then some building.next else none

theorem build_tokens_append {nodes : Nodes} (wellFormed : nodes.WellFormed) (tokens : List Token) :
    build (nodes.tokens ++ tokens) =
      (build tokens).map fun building => { building with next := nodes ++ building.next } := by
  induction nodes generalizing tokens with
  | nil =>
    show build tokens = _
    cases build tokens <;> rfl
  | text c next inductionHypothesis =>
    rw [Nodes.tokens, List.cons_append, build, inductionHypothesis wellFormed]
    cases build tokens <;> rfl
  | element tag children next childrenHypothesis nextHypothesis =>
    obtain ⟨starts, empty, inside, later⟩ := wellFormed
    cases isVoid : tag.isVoid with
    | true =>
      obtain rfl := empty isVoid
      simp only [Nodes.tokens, isVoid, if_true, List.nil_append, List.cons_append, build, nextHypothesis later]
      cases build tokens with
      | none => rfl
      | some building => simp [Building.put, starts, isVoid]
    | false =>
      simp only [Nodes.tokens, isVoid, Bool.false_eq_true, if_false, List.cons_append, List.append_assoc, build,
        childrenHypothesis inside, nextHypothesis later, List.nil_append]
      cases build tokens with
      | none => rfl
      | some building => simp [Building.put, starts, isVoid, Tag.ending]

/-- The page is the markup of the nodes. -/
structure Renders (html : List Char) (nodes : Nodes) : Prop where
  reads : Reads html nodes.tokens
  wellFormed : nodes.WellFormed

namespace Renders

theorem parse {html : List Char} {nodes : Nodes} (renders : Renders html nodes) : parse html = some nodes := by
  have built : build nodes.tokens = some ⟨nodes, []⟩ := by
    simpa [build] using build_tokens_append renders.wellFormed []
  have isRead : read .data html = (nodes.tokens, .data) := renders.reads
  rw [Html.parse, isRead, built]
  rfl

theorem nil : Renders [] .nil := ⟨.nil, trivial⟩

theorem append {before after : List Char} {nodes moreNodes : Nodes} (first : Renders before nodes)
    (second : Renders after moreNodes) : Renders (before ++ after) (nodes ++ moreNodes) := by
  refine ⟨?_, Nodes.wellFormed_append first.wellFormed second.wellFormed⟩
  rw [Nodes.tokens_append]
  exact first.reads.append second.reads

theorem plain {text : List Char} (noBracket : '<' ∉ text) (noReference : '&' ∉ text) :
    Renders text (.ofText text) := by
  refine ⟨?_, Nodes.wellFormed_ofText text⟩
  rw [Nodes.tokens_ofText]
  exact .plain noBracket noReference

theorem escape (text : List Char) : Renders (escape text) (.ofText text) := by
  refine ⟨?_, Nodes.wellFormed_ofText text⟩
  rw [Nodes.tokens_ofText]
  exact .escape text

/-- An element around the nodes of its content. -/
theorem element {tag : Tag} {start content ending : List Char} {children : Nodes} (opens : Reads start [.tag tag])
    (closes : Reads ending [.tag tag.ending]) (starts : tag.isEnd = false) (notVoid : tag.isVoid = false)
    (inside : Renders content children) : Renders (start ++ content ++ ending) (.element tag children .nil) := by
  refine ⟨?_, starts, by simp [notVoid], inside.wellFormed, trivial⟩
  simpa [Nodes.tokens, notVoid] using (opens.append inside.reads).append closes

end Renders

/-! ## Elements of a document -/

namespace Nodes

/-- The text of the nodes and of all that is in them. -/
def textContent : Nodes → List Char
  | nil => []
  | text c next => c :: next.textContent
  | element _ children next => children.textContent ++ next.textContent

/-- `outer inner` as a selector: the content of each such element, in the order of the document. -/
def select (outer inner : List Char) : Bool → Nodes → List Nodes
  | _, nil => []
  | inside, text _ next => select outer inner inside next
  | inside, element tag children next =>
    (if inside && tag.name = inner then [children] else []) ++
      (select outer inner (inside || tag.name = outer) children ++ select outer inner inside next)

def querySelectorAll (outer inner : List Char) (nodes : Nodes) : List Nodes := select outer inner false nodes

/-- The document once some of the selected elements have got another content.  What was inside such an element
is no longer part of the document. -/
def replaceSelected (outer inner : List Char) : Bool → Nodes → List (Option Nodes) → Nodes
  | _, nil, _ => nil
  | inside, text c next, contents => text c (next.replaceSelected outer inner inside contents)
  | inside, element tag children next, contents =>
    let selected := inside && tag.name = inner
    let inChildren := if selected then contents.tail else contents
    element tag
      ((if selected then contents.head?.join else none).getD
        (children.replaceSelected outer inner (inside || tag.name = outer) inChildren))
      (next.replaceSelected outer inner inside
        (inChildren.drop (children.select outer inner (inside || tag.name = outer)).length))

theorem textContent_append (before after : Nodes) :
    (before ++ after).textContent = before.textContent ++ after.textContent := by
  induction before with
  | nil => rfl
  | text c next inductionHypothesis => simp [textContent, inductionHypothesis]
  | element tag children next _ inductionHypothesis => simp [textContent, inductionHypothesis]

theorem textContent_ofText (text : List Char) : (ofText text).textContent = text := by
  induction text with
  | nil => rfl
  | cons c text inductionHypothesis => simp [ofText, textContent, inductionHypothesis]

variable (outer inner : List Char) (inside : Bool)

theorem select_append (before after : Nodes) :
    (before ++ after).select outer inner inside =
      before.select outer inner inside ++ after.select outer inner inside := by
  induction before with
  | nil => rfl
  | text c next inductionHypothesis => simp [select, inductionHypothesis]
  | element tag children next _ inductionHypothesis => simp [select, inductionHypothesis]

theorem select_ofText (text : List Char) : (ofText text).select outer inner inside = [] := by
  induction text with
  | nil => rfl
  | cons c text inductionHypothesis => simpa [ofText, select] using inductionHypothesis

/-- A new content that has the text of the old one, as far as it counts, leaves the text of the document as it is. -/
theorem textContent_replaceSelected (counts : Char → Bool) (nodes : Nodes) (contents : List (Option Nodes))
    (same : ∀ (i : Nat) old new, (nodes.select outer inner inside)[i]? = some old → contents[i]? = some (some new) →
      new.textContent.filter counts = old.textContent.filter counts) :
    (nodes.replaceSelected outer inner inside contents).textContent.filter counts =
      nodes.textContent.filter counts := by
  induction nodes generalizing inside contents with
  | nil => rfl
  | text c next inductionHypothesis =>
    simp only [replaceSelected, textContent, List.filter_cons, inductionHypothesis inside contents same]
  | element tag children next childrenHypothesis nextHypothesis =>
    simp only [replaceSelected, textContent, List.filter_append]
    simp only [select] at same
    generalize selectedHere : (inside && decide (tag.name = inner)) = selected at same ⊢
    generalize (inside || decide (tag.name = outer)) = insideChildren at same ⊢
    cases selected with
    | false =>
      simp only [Bool.false_eq_true, if_false, List.nil_append, Option.getD_none] at same ⊢
      rw [childrenHypothesis insideChildren contents, nextHypothesis inside]
      · intro i old new isOld isNew
        rw [List.getElem?_drop] at isNew
        refine same _ old new ?_ isNew
        rw [List.getElem?_append_right (Nat.le_add_right _ _), Nat.add_sub_cancel_left]
        exact isOld
      · intro i old new isOld isNew
        refine same i old new ?_ isNew
        rw [List.getElem?_append_left (List.getElem?_eq_some_iff.mp isOld).1]
        exact isOld
    | true =>
      simp only [if_true, List.cons_append, List.nil_append] at same ⊢
      rw [nextHypothesis inside]
      · congr 1
        cases contents with
        | nil => exact childrenHypothesis insideChildren [] (by simp)
        | cons content contents =>
          cases content with
          | some new => exact same 0 children new rfl rfl
          | none =>
            refine childrenHypothesis insideChildren contents ?_
            intro i old new isOld isNew
            refine same (i + 1) old new ?_ isNew
            rw [List.getElem?_cons_succ, List.getElem?_append_left (List.getElem?_eq_some_iff.mp isOld).1]
            exact isOld
      · intro i old new isOld isNew
        rw [List.getElem?_drop, List.getElem?_tail] at isNew
        refine same _ old new ?_ isNew
        rw [List.getElem?_cons_succ, List.getElem?_append_right (Nat.le_add_right _ _), Nat.add_sub_cancel_left]
        exact isOld

end Nodes

end Aelf.Library.Html
