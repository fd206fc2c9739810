import Aelf.Bible.BookFragment
import Aelf.Library.InlineScript

/-! # The page of a chapter

`BibleChapterFragment.loadText` writes the page that the web view shows.  The query,
the reference and the chapter reach the scripts of the page through three literals,
and the only thing taken out of them is the quote. -/

namespace Aelf.Bible

open Aelf.Library Aelf.Library.InlineScript
open Aelf.Library.JavaScript (isLineTerminator)

/-- The arguments of `BibleChapterFragment`. -/
structure ChapterArguments where
  text_html : Option Text
  highlight : Option Text
  reference : Option Text
  book_ref : Option Text
  chapter : Option Text

/-- `replace("'", "")` -/
def withoutQuotes (text : Text) : Text := text.filter (· ≠ quote)

/-- The three declarations. -/
def inlineScript (highlight reference chapter : Text) : Text :=
  line "highlight".toList (withoutQuotes highlight) ++
    (line "reference".toList (withoutQuotes reference) ++
      line "current_chapter".toList (withoutQuotes chapter))

/-- What follows the name of the end tag of the inline script. -/
def afterScript : Text :=
  ">".toList ++ ("<script src=\"js/mark.8.11.1.min.js\" charset=\"utf-8\"></script>\n".toList ++
    ("<script src=\"js/chapter.js\" charset=\"utf-8\"></script>\n".toList ++ "</body></html>".toList))

/-- What follows the start tag of the inline script. -/
def inlineMarkup (highlight reference chapter : Text) : Text :=
  inlineScript highlight reference chapter ++ (endTag ++ afterScript)

/-- Everything up to the start tag of the inline script. -/
def pageStart (themeCss accessibilityCss body : Text) : Text :=
  "<!DOCTYPE html><html><head>".toList ++
  "<link href=\"css/common.css\" type=\"text/css\" rel=\"stylesheet\" media=\"screen\" />".toList ++
  "<link href=\"".toList ++ themeCss ++ "\" type=\"text/css\" rel=\"stylesheet\" media=\"screen\" />".toList ++
  "<style>".toList ++ accessibilityCss ++ "</style>".toList ++ "</head><body>".toList ++ body ++ "<script>".toList

/-- `append(body)`, which spells a null reference out. -/
def appended (text : Option Text) : Text := text.getD "null".toList

/-- The page and the address it is filed under in the history. -/
def loadText (themeCss accessibilityCss : Text) (args : Option ChapterArguments) : Text × Text :=
  let body := match args with
    | none => []
    | some args => appended args.text_html
  let argument (field : ChapterArguments → Option Text) : Text := (args.bind field).getD []
  let highlight := argument ChapterArguments.highlight
  let reference := argument ChapterArguments.reference
  let book_ref := argument ChapterArguments.book_ref
  let chapter := argument ChapterArguments.chapter
  let html := pageStart themeCss accessibilityCss body ++ inlineMarkup highlight reference chapter
  let url := (if book_ref.isEmpty then [] else "aelf:bible/".toList ++ book_ref ++ "/".toList ++ chapter) ++
    (if reference.isEmpty then [] else "#ref=".toList ++ reference)
  (html, url)

/-- `BibleChapterPagerAdapter.getItem`: only the selected chapter is highlighted, every chapter gets the
reference. -/
def chapterArguments (fragment : BibleBookFragment) (position : Int) (content : Text) (bookRef : Option Text)
    (chapterRef : Text) : ChapterArguments where
  text_html := some content
  highlight := if position = fragment.bibleChapterId then fragment.query else none
  reference := fragment.reference
  book_ref := bookRef
  chapter := some chapterRef

/-! ## What stays data -/

section Script

variable {ignoreCase : Bool} {escaped : Char → Option Char} {highlight reference chapter : Text}

/-- The script element holds three declarations of the given texts, and the page goes on as it always does. -/
def StaysData (ignoreCase : Bool) (escaped : Char → Option Char) (highlight reference chapter : Text) : Prop :=
  ∃ script, rawText ignoreCase (inlineMarkup highlight reference chapter) = some (script, afterScript) ∧
    declarations escaped script = some [("highlight".toList, withoutQuotes highlight),
      ("reference".toList, withoutQuotes reference), ("current_chapter".toList, withoutQuotes chapter)]

/-- Neither a backslash nor a line terminator, nor an end tag once the quotes are gone. -/
def Harmless (ignoreCase : Bool) (text : Text) : Prop :=
  PlainLiteral text ∧ ¬HoldsEndTag ignoreCase (withoutQuotes text)

theorem quote_not_mem_withoutQuotes (text : Text) : quote ∉ withoutQuotes text := by
  simp [withoutQuotes]

theorem plain_withoutQuotes (text : Text) : PlainLiteral (withoutQuotes text) ↔ PlainLiteral text := by
  have backslash : '\\' ≠ quote := by decide
  have terminator : isLineTerminator quote = false := by decide
  unfold PlainLiteral withoutQuotes
  simp only [List.mem_filter, decide_eq_true_eq]
  constructor
  · rintro ⟨noBackslash, sameLine⟩
    refine ⟨fun member => noBackslash ⟨member, backslash⟩, fun c member => ?_⟩
    by_cases same : c = quote
    · rw [same, terminator]
    · exact sameLine c ⟨member, same⟩
  · rintro ⟨noBackslash, sameLine⟩
    exact ⟨fun member => noBackslash member.1, fun c member => sameLine c member.1⟩

theorem identifiers : (∀ c ∈ "highlight".toList, isIdentifierPart c = true) ∧
    (∀ c ∈ "reference".toList, isIdentifierPart c = true) ∧
    ∀ c ∈ "current_chapter".toList, isIdentifierPart c = true := by
  refine ⟨?_, ?_, ?_⟩ <;> simp [isIdentifierPart]

/-- The line of a declaration belongs to the script when its value holds no end tag. -/
theorem rawText_line {name value : Text} (noBracket : '<' ∉ name) (absent : ¬HoldsEndTag ignoreCase value)
    (rest : Text) :
    rawText ignoreCase (line name value ++ rest) =
      (rawText ignoreCase rest).map fun (script, after) => (line name value ++ script, after) := by
  have shape (tail : Text) : line name value ++ tail =
      ("var ".toList ++ (name ++ ['=', quote])) ++ (value ++ ([quote, ';', '\n'] ++ tail)) := by
    simp [line]
  have start : '<' ∉ "var ".toList ++ (name ++ ['=', quote]) := by
    simp [noBracket, quote]
  have stop : '<' ∉ [quote, ';', '\n'] := by
    simp [quote]
  rw [shape rest, rawText_append_plain start]
  change Option.map _ (rawText ignoreCase (value ++ quote :: ([';', '\n'] ++ rest))) = _
  rw [rawText_append_quoted absent]
  change Option.map _ (Option.map _ (rawText ignoreCase ([quote, ';', '\n'] ++ rest))) = _
  rw [rawText_append_plain stop]
  cases rawText ignoreCase rest with
  | none => rfl
  | some result => simp [line]

theorem rawText_inlineMarkup (harmless : ¬HoldsEndTag ignoreCase (withoutQuotes highlight) ∧
      ¬HoldsEndTag ignoreCase (withoutQuotes reference) ∧ ¬HoldsEndTag ignoreCase (withoutQuotes chapter)) :
    rawText ignoreCase (inlineMarkup highlight reference chapter) =
      some (inlineScript highlight reference chapter, afterScript) := by
  obtain ⟨inHighlight, inReference, inChapter⟩ := harmless
  rw [inlineMarkup, inlineScript, List.append_assoc, List.append_assoc, rawText_line (by decide) inHighlight,
    rawText_line (by decide) inReference, rawText_line (by decide) inChapter, rawText_endTag]
  simp

/-- When the page goes on as it always does, the script element holds the whole script. -/
theorem script_eq_inlineScript {script : Text}
    (read : rawText ignoreCase (inlineMarkup highlight reference chapter) = some (script, afterScript)) :
    script = inlineScript highlight reference chapter := by
  obtain ⟨tagged, divided, starts, remaining, _⟩ := rawText_divides read
  have long := length_le_of_startsWith starts
  have lengths := congrArg List.length divided
  have after := congrArg List.length remaining
  rw [List.length_drop] at after
  rw [inlineMarkup] at divided lengths
  simp only [List.length_append] at lengths
  have sameLength : script.length = (inlineScript highlight reference chapter).length := by omega
  exact (List.append_inj divided sameLength.symm).1.symm

theorem declarations_inlineScript (highlightPlain : PlainLiteral (withoutQuotes highlight))
    (referencePlain : PlainLiteral (withoutQuotes reference)) (chapterPlain : PlainLiteral (withoutQuotes chapter)) :
    declarations escaped (inlineScript highlight reference chapter) =
      some [("highlight".toList, withoutQuotes highlight), ("reference".toList, withoutQuotes reference),
        ("current_chapter".toList, withoutQuotes chapter)] := by
  obtain ⟨fuel, enough⟩ : ∃ fuel, (inlineScript highlight reference chapter).length + 1 = fuel + 4 :=
    ⟨(inlineScript highlight reference chapter).length - 3, by simp [inlineScript, line]⟩
  have last : declarationsFrom escaped (fuel + 2) (line "current_chapter".toList (withoutQuotes chapter)) =
      some [("current_chapter".toList, withoutQuotes chapter)] := by
    rw [← List.append_nil (line _ (withoutQuotes chapter)),
      declarationsFrom_plain _ identifiers.2.2 (quote_not_mem_withoutQuotes chapter) chapterPlain]
    rfl
  rw [declarations, enough, inlineScript,
    declarationsFrom_plain _ identifiers.1 (quote_not_mem_withoutQuotes highlight) highlightPlain,
    declarationsFrom_plain _ identifiers.2.1 (quote_not_mem_withoutQuotes reference) referencePlain, last]
  rfl

theorem plain_of_declarations
    (declared : declarations escaped (inlineScript highlight reference chapter) =
      some [("highlight".toList, withoutQuotes highlight), ("reference".toList, withoutQuotes reference),
        ("current_chapter".toList, withoutQuotes chapter)]) :
    PlainLiteral (withoutQuotes highlight) ∧ PlainLiteral (withoutQuotes reference) ∧ PlainLiteral (withoutQuotes chapter) := by
  obtain ⟨fuel, enough⟩ : ∃ fuel, (inlineScript highlight reference chapter).length + 1 = fuel + 3 :=
    ⟨(inlineScript highlight reference chapter).length - 2, by simp [inlineScript, line]⟩
  rw [declarations, enough, inlineScript] at declared
  obtain ⟨highlightPlain, later⟩ :=
    declarationsFrom_inv identifiers.1 (quote_not_mem_withoutQuotes highlight) declared
  obtain ⟨referencePlain, last⟩ :=
    declarationsFrom_inv identifiers.2.1 (quote_not_mem_withoutQuotes reference) later
  rw [← List.append_nil (line _ (withoutQuotes chapter))] at last
  obtain ⟨chapterPlain, _⟩ :=
    declarationsFrom_inv identifiers.2.2 (quote_not_mem_withoutQuotes chapter) last
  exact ⟨highlightPlain, referencePlain, chapterPlain⟩

/-- The texts stay data exactly when each of them is harmless. -/
theorem staysData_iff (ignoreCase : Bool) (escaped : Char → Option Char) (highlight reference chapter : Text) :
    StaysData ignoreCase escaped highlight reference chapter ↔
      Harmless ignoreCase highlight ∧ Harmless ignoreCase reference ∧ Harmless ignoreCase chapter := by
  constructor
  · rintro ⟨script, read, declared⟩
    obtain rfl := script_eq_inlineScript read
    obtain ⟨highlightPlain, referencePlain, chapterPlain⟩ := plain_of_declarations declared
    rw [plain_withoutQuotes] at highlightPlain referencePlain chapterPlain
    -- the three values are parts of the script
    have inHighlight : withoutQuotes highlight <:+: inlineScript highlight reference chapter :=
      (infix_line _ _).trans (List.prefix_append _ _).isInfix
    have inReference : withoutQuotes reference <:+: inlineScript highlight reference chapter :=
      (infix_line _ _).trans ((List.prefix_append _ _).isInfix.trans (List.suffix_append _ _).isInfix)
    have inChapter : withoutQuotes chapter <:+: inlineScript highlight reference chapter :=
      (infix_line _ _).trans ((List.suffix_append _ _).isInfix.trans (List.suffix_append _ _).isInfix)
    exact ⟨⟨highlightPlain, not_holdsEndTag_of_rawText read inHighlight⟩,
      ⟨referencePlain, not_holdsEndTag_of_rawText read inReference⟩,
      ⟨chapterPlain, not_holdsEndTag_of_rawText read inChapter⟩⟩
  · rintro ⟨⟨highlightPlain, inHighlight⟩, ⟨referencePlain, inReference⟩, ⟨chapterPlain, inChapter⟩⟩
    rw [← plain_withoutQuotes] at highlightPlain referencePlain chapterPlain
    exact ⟨_, rawText_inlineMarkup ⟨inHighlight, inReference, inChapter⟩,
      declarations_inlineScript highlightPlain referencePlain chapterPlain⟩

end Script

/-- A query that ends in a backslash swallows the closing quote. -/
theorem backslash_breaks_script : ¬StaysData true (fun c => some c) "\\".toList "".toList "1".toList := by
  rintro ⟨script, read, declared⟩
  obtain rfl := script_eq_inlineScript read
  obtain ⟨plain, _⟩ := plain_of_declarations declared
  exact plain.1 (by decide)

end Aelf.Bible
