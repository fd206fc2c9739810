import Aelf.Library.JavaScript
import Mathlib.Data.List.Infix

/-! # Scripts inside a page

A script element ends at the first end tag, whatever the script is.  Inside it, a
single-quoted literal ends at the first quote that no backslash escapes, and a line
terminator breaks it off.  The scripts read here are sequences of declarations
`var name='text';`. -/

namespace Aelf.Library.InlineScript

open Aelf.Library.JavaScript

def quote : Char := Char.ofNat 39

/-! ## The end of a script element -/

section EndTag

-- tag names are compared with or without regard to case
variable (ignoreCase : Bool)

/-- A letter of the tag, or its capital. -/
def sameLetter (letter c : Char) : Bool := c = letter || ignoreCase && letter.isLower && c = letter.toUpper

def startsWith : List Char → List Char → Bool
  | [], _ => true
  | _ :: _, [] => false
  | letter :: tag, c :: text => sameLetter ignoreCase letter c && startsWith tag text

def endTag : List Char := ['<', '/', 's', 'c', 'r', 'i', 'p', 't']

def startsEndTag (text : List Char) : Bool := startsWith ignoreCase endTag text

/-- The text of a script element and what follows the name in its end tag. -/
def rawText : List Char → Option (List Char × List Char)
  | [] => none
  | c :: text =>
    if startsEndTag ignoreCase (c :: text) then some ([], (c :: text).drop endTag.length)
    else (rawText text).map fun (script, rest) => (c :: script, rest)

/-- An end tag starts somewhere in the text. -/
def HoldsEndTag (text : List Char) : Prop := ∃ suffix, suffix <:+ text ∧ startsEndTag ignoreCase suffix = true

variable {ignoreCase}

theorem rawText_endTag (rest : List Char) : rawText ignoreCase (endTag ++ rest) = some ([], rest) := by
  cases ignoreCase <;> rfl

theorem rawText_append {before rest : List Char}
    (absent : ∀ suffix, suffix <:+ before → suffix ≠ [] → startsEndTag ignoreCase (suffix ++ rest) = false) :
    rawText ignoreCase (before ++ rest) =
      (rawText ignoreCase rest).map fun (script, after) => (before ++ script, after) := by
  induction before with
  | nil => simp
  | cons c before inductionHypothesis =>
    have here := absent (c :: before) (List.suffix_refl _) (by simp)
    have later := inductionHypothesis fun suffix isSuffix nonempty =>
      absent suffix (isSuffix.trans (List.suffix_cons c before)) nonempty
    rw [List.cons_append] at here ⊢
    rw [rawText, here, later]
    cases rawText ignoreCase rest <;> rfl

/-- Text that holds no opening bracket belongs to the script. -/
theorem rawText_append_plain {before : List Char} (noBracket : '<' ∉ before) (rest : List Char) :
    rawText ignoreCase (before ++ rest) =
      (rawText ignoreCase rest).map fun (script, after) => (before ++ script, after) := by
  apply rawText_append
  intro suffix isSuffix nonempty
  cases suffix with
  | nil => exact absurd rfl nonempty
  | cons c suffix =>
    have member : c ∈ before := isSuffix.subset (by simp)
    have different : c ≠ '<' := fun same => noBracket (same ▸ member)
    simp [startsEndTag, endTag, startsWith, sameLetter, different]

/-- A tag that starts before a character that is none of its letters ends before it too. -/
theorem startsWith_append {tag text : List Char} {stop : Char}
    (foreign : ∀ letter ∈ tag, sameLetter ignoreCase letter stop = false) (rest : List Char)
    (starts : startsWith ignoreCase tag (text ++ stop :: rest) = true) : startsWith ignoreCase tag text = true := by
  induction tag generalizing text with
  | nil => rfl
  | cons letter tag inductionHypothesis =>
    cases text with
    | nil => simp [startsWith, foreign letter (by simp)] at starts
    | cons c text =>
      simp only [List.cons_append, startsWith, Bool.and_eq_true] at starts ⊢
      exact ⟨starts.1, inductionHypothesis (fun other member => foreign other (by simp [member])) starts.2⟩

theorem quote_foreign : ∀ letter ∈ endTag, sameLetter ignoreCase letter quote = false := by
  cases ignoreCase <;> simp [endTag, sameLetter, quote]

/-- Quoted text that holds no end tag belongs to the script. -/
theorem rawText_append_quoted {before : List Char} (absent : ¬HoldsEndTag ignoreCase before) (rest : List Char) :
    rawText ignoreCase (before ++ quote :: rest) =
      (rawText ignoreCase (quote :: rest)).map fun (script, after) => (before ++ script, after) := by
  apply rawText_append
  intro suffix isSuffix nonempty
  by_contra starts
  rw [Bool.not_eq_false] at starts
  exact absent ⟨suffix, isSuffix, startsWith_append quote_foreign rest starts⟩

theorem startsWith_extends {tag text : List Char} (starts : startsWith ignoreCase tag text = true) (rest : List Char) :
    startsWith ignoreCase tag (text ++ rest) = true := by
  induction tag generalizing text with
  | nil => rfl
  | cons letter tag inductionHypothesis =>
    cases text with
    | nil => cases starts
    | cons c text =>
      simp only [List.cons_append, startsWith, Bool.and_eq_true] at starts ⊢
      exact ⟨starts.1, inductionHypothesis starts.2⟩

theorem length_le_of_startsWith {tag text : List Char} (starts : startsWith ignoreCase tag text = true) :
    tag.length ≤ text.length := by
  induction tag generalizing text with
  | nil => exact Nat.zero_le _
  | cons letter tag inductionHypothesis =>
    cases text with
    | nil => cases starts
    | cons c text =>
      simp only [startsWith, Bool.and_eq_true] at starts
      exact Nat.succ_le_succ (inductionHypothesis starts.2)

/-- The script ends where an end tag starts, and none starts earlier. -/
theorem rawText_divides {text script rest : List Char} (read : rawText ignoreCase text = some (script, rest)) :
    ∃ tagged, text = script ++ tagged ∧ startsEndTag ignoreCase tagged = true ∧ rest = tagged.drop endTag.length ∧
      ∀ before middle, script = before ++ middle → middle ≠ [] → startsEndTag ignoreCase (middle ++ tagged) = false := by
  induction text generalizing script with
  | nil => cases read
  | cons c text inductionHypothesis =>
    rw [rawText] at read
    split at read
    next starts =>
      obtain ⟨rfl, rfl⟩ := Prod.mk.inj (Option.some.inj read)
      refine ⟨c :: text, rfl, starts, rfl, fun before middle empty nonempty => ?_⟩
      exact absurd (List.append_eq_nil_iff.mp empty.symm).2 nonempty
    next notHere =>
      obtain ⟨⟨later, after⟩, readLater, same⟩ := Option.map_eq_some_iff.mp read
      obtain ⟨rfl, rfl⟩ := Prod.mk.inj same
      obtain ⟨tagged, divided, starts, remaining, earliest⟩ := inductionHypothesis readLater
      refine ⟨tagged, by rw [divided, List.cons_append], starts, remaining, fun before middle parts nonempty => ?_⟩
      cases before with
      | nil =>
        have whole : c :: later = middle := parts
        rw [← whole, List.cons_append, ← divided]
        exact Bool.not_eq_true _ ▸ notHere
      | cons first before => exact earliest before middle (List.cons.inj parts).2 nonempty

/-- No part of a script holds an end tag. -/
theorem not_holdsEndTag_of_rawText {text script data rest : List Char}
    (read : rawText ignoreCase text = some (script, rest)) (part : data <:+: script) :
    ¬HoldsEndTag ignoreCase data := by
  rintro ⟨suffix, ⟨start, parts⟩, starts⟩
  obtain ⟨before, after, whole⟩ := part
  obtain ⟨tagged, _, _, _, earliest⟩ := rawText_divides read
  have nonempty : suffix ++ after ≠ [] := by
    intro empty
    rw [(List.append_eq_nil_iff.mp empty).1] at starts
    cases starts
  have absent := earliest (before ++ start) (suffix ++ after) (by simp [← whole, ← parts]) nonempty
  rw [startsEndTag, List.append_assoc, startsWith_extends starts] at absent
  cases absent

end EndTag

/-! ## Literals and declarations -/

section Literal

-- what a backslash and a character stand for: a character, or nothing
variable (escaped : Char → Option Char)

/-- The value of a literal after its opening quote, and what follows it. -/
def literal : List Char → Option (List Char × List Char)
  | [] => none
  | c :: text =>
    if c = quote then some ([], text)
    else if c = '\\' then
      match text with
      | [] => none
      | next :: text => (literal text).map fun (value, rest) => ((escaped next).toList ++ value, rest)
    else if isLineTerminator c then none
    else (literal text).map fun (value, rest) => (c :: value, rest)

def keyword (word text : List Char) : Option (List Char) :=
  if word.isPrefixOf text then some (text.drop word.length) else none

def isIdentifierPart (c : Char) : Bool := c.isAlphanum || c = '_' || c = '$'

/-- `var name='value';` -/
def declaration (text : List Char) : Option ((List Char × List Char) × List Char) := do
  let text ← keyword "var ".toList text
  let name := text.takeWhile isIdentifierPart
  let text ← keyword ['=', quote] (text.dropWhile isIdentifierPart)
  let (value, text) ← literal escaped text
  let text ← keyword [';'] text
  return ((name, value), text)

/-- A whole script of declarations, with more fuel than there are declarations. -/
def declarationsFrom : Nat → List Char → Option (List (List Char × List Char))
  | 0, _ => none
  | fuel + 1, text =>
    match text.dropWhile isSpace with
    | [] => some []
    | c :: text =>
      match declaration escaped (c :: text) with
      | none => none
      | some (declared, rest) => (declarationsFrom fuel rest).map (declared :: ·)

def declarations (script : List Char) : Option (List (List Char × List Char)) :=
  declarationsFrom escaped (script.length + 1) script

/-- The texts that a literal holds as they are. -/
def PlainLiteral (text : List Char) : Prop := '\\' ∉ text ∧ ∀ c ∈ text, isLineTerminator c = false

/-- A declaration on a line of its own. -/
def line (name value : List Char) : List Char :=
  "var ".toList ++ (name ++ '=' :: quote :: (value ++ [quote, ';', '\n']))

variable {escaped}

theorem infix_line (name value : List Char) : value <:+: line name value :=
  ⟨"var ".toList ++ (name ++ ['=', quote]), [quote, ';', '\n'], by simp [line]⟩

theorem literal_cons (c : Char) (text : List Char) :
    literal escaped (c :: text) =
      if c = quote then some ([], text)
      else if c = '\\' then
        match text with
        | [] => none
        | next :: text => (literal escaped text).map fun (value, rest) => ((escaped next).toList ++ value, rest)
      else if isLineTerminator c then none
      else (literal escaped text).map fun (value, rest) => (c :: value, rest) := by
  rw [literal.eq_def]

theorem literal_plain {value : List Char} (noQuote : quote ∉ value) (plain : PlainLiteral value) (rest : List Char) :
    literal escaped (value ++ quote :: rest) = some (value, rest) := by
  induction value with
  | nil => rw [List.nil_append, literal_cons, if_pos rfl]
  | cons c value inductionHypothesis =>
    obtain ⟨noBackslash, sameLine⟩ := plain
    rw [List.mem_cons, not_or] at noQuote noBackslash
    rw [List.forall_mem_cons] at sameLine
    have tail := inductionHypothesis noQuote.2 ⟨noBackslash.2, sameLine.2⟩
    rw [List.cons_append, literal_cons, if_neg (Ne.symm noQuote.1), if_neg (Ne.symm noBackslash.1),
      if_neg (by simp [sameLine.1]), tail]
    rfl

/-- A literal closes at its own quote, because the line ends right after it, and every escape makes
its value shorter than its text. -/
theorem literal_inv {value : List Char} (noQuote : quote ∉ value) {read rest after : List Char}
    (result : literal escaped (value ++ quote :: ';' :: '\n' :: rest) = some (read, after)) :
    after = ';' :: '\n' :: rest ∧ read.length ≤ value.length ∧ (read = value → PlainLiteral value) := by
  match value with
  | [] =>
    rw [List.nil_append, literal_cons, if_pos rfl] at result
    obtain ⟨rfl, rfl⟩ := Prod.mk.inj (Option.some.inj result)
    exact ⟨rfl, Nat.le_refl _, fun _ => ⟨by simp, by simp⟩⟩
  | c :: value =>
    rw [List.mem_cons, not_or] at noQuote
    rw [List.cons_append, literal_cons, if_neg (Ne.symm noQuote.1)] at result
    split at result
    next backslash =>
      match value with
      | [] =>
        -- the closing quote is escaped, and the literal runs into the end of the line
        have broken : literal escaped (';' :: '\n' :: rest) = none := by
          simp [literal_cons, quote, isLineTerminator]
        simp [broken] at result
      | next :: value =>
        obtain ⟨⟨tail, stop⟩, readTail, same⟩ := Option.map_eq_some_iff.mp result
        obtain ⟨rfl, rfl⟩ := Prod.mk.inj same
        obtain ⟨closed, shorter, _⟩ := literal_inv (fun member => noQuote.2 (by simp [member])) readTail
        have single : (escaped next).toList.length ≤ 1 := by cases escaped next <;> simp
        have lengths : ((escaped next).toList ++ tail).length < (c :: next :: value).length := by
          simp only [List.length_append, List.length_cons]
          omega
        exact ⟨closed, Nat.le_of_lt lengths, fun same => absurd (congrArg List.length same) (Nat.ne_of_lt lengths)⟩
    next notBackslash =>
      split at result
      next => cases result
      next sameLine =>
        obtain ⟨⟨tail, stop⟩, readTail, same⟩ := Option.map_eq_some_iff.mp result
        obtain ⟨rfl, rfl⟩ := Prod.mk.inj same
        obtain ⟨closed, shorter, plain⟩ := literal_inv noQuote.2 readTail
        refine ⟨closed, Nat.succ_le_succ shorter, fun same => ?_⟩
        obtain ⟨noBackslash, sameLines⟩ := plain (List.cons.inj same).2
        constructor
        · rw [List.mem_cons, not_or]
          exact ⟨Ne.symm notBackslash, noBackslash⟩
        · rw [List.forall_mem_cons]
          exact ⟨by simpa using sameLine, sameLines⟩

theorem keyword_append (word rest : List Char) : keyword word (word ++ rest) = some rest := by
  rw [keyword, if_pos (List.isPrefixOf_iff_prefix.mpr (List.prefix_append word rest)), List.drop_left]

theorem declaration_line {name : List Char} (identifier : ∀ c ∈ name, isIdentifierPart c = true)
    (value rest : List Char) :
    declaration escaped (line name value ++ rest) =
      (literal escaped (value ++ quote :: ';' :: '\n' :: rest)).bind fun (read, after) =>
        (keyword [';'] after).map fun after => ((name, read), after) := by
  have shape : line name value ++ rest =
      "var ".toList ++ (name ++ ('=' :: quote :: (value ++ quote :: ';' :: '\n' :: rest))) := by
    simp [line]
  have notPart : isIdentifierPart '=' = false := by decide
  have taken : (name ++ '=' :: quote :: (value ++ quote :: ';' :: '\n' :: rest)).takeWhile isIdentifierPart = name := by
    rw [List.takeWhile_append_of_pos identifier]
    simp [notPart]
  have dropped : (name ++ '=' :: quote :: (value ++ quote :: ';' :: '\n' :: rest)).dropWhile isIdentifierPart =
      ['=', quote] ++ (value ++ quote :: ';' :: '\n' :: rest) := by
    rw [List.dropWhile_append_of_pos identifier]
    simp [notPart]
  rw [declaration, shape, keyword_append]
  simp only [Option.bind_eq_bind, Option.bind_some, taken, dropped, keyword_append]
  cases literal escaped (value ++ quote :: ';' :: '\n' :: rest) with
  | none => rfl
  | some result =>
    simp only [Option.bind_some]
    cases keyword [';'] result.2 <;> rfl

theorem declarationsFrom_newline (fuel : Nat) (rest : List Char) :
    declarationsFrom escaped fuel ('\n' :: rest) = declarationsFrom escaped fuel rest := by
  cases fuel with
  | zero => rfl
  | succ fuel =>
    have skipped : ('\n' :: rest).dropWhile isSpace = rest.dropWhile isSpace := by
      rw [List.dropWhile_cons_of_pos (by decide)]
    rw [declarationsFrom, declarationsFrom, skipped]

theorem declarationsFrom_line (fuel : Nat) {name : List Char} (identifier : ∀ c ∈ name, isIdentifierPart c = true)
    (value rest : List Char) :
    declarationsFrom escaped (fuel + 1) (line name value ++ rest) =
      (literal escaped (value ++ quote :: ';' :: '\n' :: rest)).bind fun (read, after) =>
        (keyword [';'] after).bind fun after => (declarationsFrom escaped fuel after).map ((name, read) :: ·) := by
  have start : ∃ tail, line name value ++ rest = 'v' :: tail := ⟨_, rfl⟩
  obtain ⟨tail, start⟩ := start
  have notSpace : ('v' :: tail).dropWhile isSpace = 'v' :: tail := by
    rw [List.dropWhile_cons_of_neg (by decide)]
  rw [declarationsFrom, start, notSpace]
  simp only
  rw [← start, declaration_line identifier]
  cases literal escaped (value ++ quote :: ';' :: '\n' :: rest) with
  | none => rfl
  | some result =>
    simp only [Option.bind_some]
    cases keyword [';'] result.2 <;> rfl

/-- A plain value is declared as it is. -/
theorem declarationsFrom_plain (fuel : Nat) {name value : List Char}
    (identifier : ∀ c ∈ name, isIdentifierPart c = true) (noQuote : quote ∉ value) (plain : PlainLiteral value)
    (rest : List Char) :
    declarationsFrom escaped (fuel + 1) (line name value ++ rest) =
      (declarationsFrom escaped fuel rest).map ((name, value) :: ·) := by
  have semicolon : keyword [';'] (';' :: '\n' :: rest) = some ('\n' :: rest) := keyword_append [';'] _
  rw [declarationsFrom_line fuel identifier, literal_plain noQuote plain]
  simp only [Option.bind_some, semicolon, declarationsFrom_newline]

/-- A value that is declared as it is was plain, and the script goes on on the next line. -/
theorem declarationsFrom_inv {fuel : Nat} {name value rest : List Char}
    (identifier : ∀ c ∈ name, isIdentifierPart c = true) (noQuote : quote ∉ value)
    {others : List (List Char × List Char)}
    (declared : declarationsFrom escaped (fuel + 1) (line name value ++ rest) = some ((name, value) :: others)) :
    PlainLiteral value ∧ declarationsFrom escaped fuel rest = some others := by
  have semicolon : keyword [';'] (';' :: '\n' :: rest) = some ('\n' :: rest) := keyword_append [';'] _
  rw [declarationsFrom_line fuel identifier] at declared
  obtain ⟨⟨read, after⟩, result, declared⟩ := Option.bind_eq_some_iff.mp declared
  obtain ⟨rfl, _, plain⟩ := literal_inv noQuote result
  simp only [semicolon, Option.bind_some, declarationsFrom_newline] at declared
  obtain ⟨later, readLater, same⟩ := Option.map_eq_some_iff.mp declared
  obtain ⟨sameDeclaration, rfl⟩ := List.cons.inj same
  exact ⟨plain (Prod.mk.inj sameDeclaration).2, readLater⟩

end Literal

end Aelf.Library.InlineScript
