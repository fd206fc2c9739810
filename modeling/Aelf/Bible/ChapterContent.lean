import Aelf.Bible.Reference
import Aelf.Library.RegexReplace

/-! # The text of a chapter

The verses of a chapter become HTML.  Brackets, pluses and stars are hidden from screen
readers, each run of them in a span of its own. -/

namespace Aelf.Bible

open Aelf.Library
open Aelf.Library.Regex

/-! ## From the database to the page -/

/-- A row of the table `verses`; the column `verse` may be null. -/
structure VerseRow where
  rowid : Int
  book : Text
  chapter : Text
  verse : Option Text
  text : Text
deriving DecidableEq

structure BibleVerse where
  mRef : Option Text
  mText : Text

/-- A null reference is read as an empty one. -/
def BibleVerse.ofRow (row : VerseRow) : BibleVerse := ⟨some (row.verse.getD []), row.text⟩

/-- The rows of a chapter, `ORDER BY rowid`. -/
def queryVerses (verses : List VerseRow) (bookRef chapterRef : Text) : List VerseRow :=
  (verses.filter fun row => row.book = bookRef ∧ row.chapter = chapterRef).mergeSort fun first second =>
    first.rowid ≤ second.rowid

def getBookChapterVerses (verses : List VerseRow) (bookRef chapterRef : Text) : List BibleVerse :=
  (queryVerses verses bookRef chapterRef).map BibleVerse.ofRow

/-- `[\[\]+*]` -/
def isMark (c : Char) : Bool := c = '[' || c = ']' || c = '+' || c = '*'

/-- `<span aria-hidden="true">$0</span>` -/
def hidden (covered : Text) : Text := "<span aria-hidden=\"true\">".toList ++ covered ++ "</span>".toList

/-- `verse.replaceAll("[\\[\\]+*]*", ...)` -/
def hideMarks (verse : Text) : Text := replaceAll (.star (.satisfies isMark)) hidden verse

def verseMarkup (bibleVerse : BibleVerse) : Text :=
  let verse := hideMarks bibleVerse.mText
  let hasRef := bibleVerse.mRef.any fun verseRef => !verseRef.isEmpty
  let verseRef := bibleVerse.mRef.getD []
  "<span class=\"line\"".toList ++
    (if hasRef then " id=\"verse-".toList ++ verseRef ++ "\"".toList else []) ++
    " tabindex=\"0\">".toList ++
    (if hasRef then "<span aria-hidden=\"true\" class=\"verse\">".toList ++ verseRef ++ "</span>".toList else []) ++
    verse ++ "</span>".toList

structure BibleBookChapter where
  mBookRef : Text
  mChapterRef : Text
  mChapterName : Text
  mContent : Option Text

/-- The constructor. -/
def BibleBookChapter.new (bookRef chapterRef chapterName : Text) : BibleBookChapter :=
  ⟨bookRef, chapterRef, chapterName, none⟩

/-- `getContent`, with the chapter that has kept its content. -/
def BibleBookChapter.getContent (verses : List VerseRow) (chapter : BibleBookChapter) : Text × BibleBookChapter :=
  match chapter.mContent with
  | some content => (content, chapter)
  | none =>
    let content := "<h3 role=\"paragraph\">".toList ++ chapter.mChapterName ++ "</h3>".toList ++ "<p>".toList ++
      (getBookChapterVerses verses chapter.mBookRef chapter.mChapterRef).flatMap verseMarkup ++ "</p>".toList
    (content, { chapter with mContent := some content })

/-- The content is computed once. -/
theorem BibleBookChapter.getContent_again (verses : List VerseRow) (chapter : BibleBookChapter) :
    (chapter.getContent verses).2.getContent verses = chapter.getContent verses := by
  unfold getContent
  cases cached : chapter.mContent with
  | none => rfl
  | some content => simp only [cached]

/-! ## What a reader expects -/

/-- Each maximal run of marks is in one span, and nothing else is added to the text of the verse.  The verse
has an id and a number when it has a reference that is not empty. -/
def faithfulVerse (row : VerseRow) : Text :=
  "<span class=\"line\"".toList ++
    (match row.verse with
      | none | some [] => " tabindex=\"0\">".toList
      | some verseRef =>
        " id=\"verse-".toList ++ verseRef ++ "\"".toList ++ " tabindex=\"0\">".toList ++
          "<span aria-hidden=\"true\" class=\"verse\">".toList ++ verseRef ++ "</span>".toList) ++
    rewriteRuns isMark hidden [] row.text ++ "</span>".toList

/-- The content is the title and the verses of the chapter, in the order of the database. -/
def RendersFaithfully (verses : List VerseRow) (bookRef chapterRef chapterName content : Text) : Prop :=
  ∃ ordered : List VerseRow,
    ordered.Perm (verses.filter fun row => row.book = bookRef ∧ row.chapter = chapterRef) ∧
    ordered.Pairwise (fun first second => first.rowid ≤ second.rowid) ∧
    content = "<h3 role=\"paragraph\">".toList ++ chapterName ++ "</h3>".toList ++ "<p>".toList ++
      ordered.flatMap faithfulVerse ++ "</p>".toList

/-! ## What is added -/

/-- An empty span before every character that is not a mark, and one at the end of the verse. -/
theorem hideMarks_eq (verse : Text) : hideMarks verse = rewriteRuns isMark hidden (hidden []) verse :=
  replaceAll_star isMark hidden verse

example : hideMarks "a[b".toList =
    hidden [] ++ "a".toList ++ hidden "[".toList ++ hidden [] ++ "b".toList ++ hidden [] := by decide +kernel

theorem length_verseMarkup (row : VerseRow) :
    (verseMarkup (.ofRow row)).length =
      (faithfulVerse row).length + (row.text.countP (fun c => !isMark c) + 1) * (hidden []).length := by
  have added : (hideMarks row.text).length = (rewriteRuns isMark hidden [] row.text).length +
      (row.text.countP (fun c => !isMark c) + 1) * (hidden []).length := by
    rw [hideMarks_eq, length_rewriteRuns]
  obtain ⟨rowid, book, chapter, verse, text⟩ := row
  dsimp only [verseMarkup, faithfulVerse, BibleVerse.ofRow] at added ⊢
  generalize (text.countP (fun c => !isMark c) + 1) * (hidden []).length = extra at added ⊢
  match verse with
  | none =>
    simp only [Option.getD_none, Option.any_some, List.isEmpty_nil, Bool.not_true, Bool.false_eq_true, if_false,
      List.length_append, List.length_nil, added]
    omega
  | some [] =>
    simp only [Option.getD_some, Option.any_some, List.isEmpty_nil, Bool.not_true, Bool.false_eq_true, if_false,
      List.length_append, List.length_nil, added]
    omega
  | some (c :: verseRef) =>
    simp only [Option.getD_some, Option.any_some, List.isEmpty_cons, Bool.not_false, if_true, List.length_append, added]
    omega

theorem length_flatMap_verseMarkup (rows : List VerseRow) :
    (rows.flatMap faithfulVerse).length + rows.length ≤ ((rows.map BibleVerse.ofRow).flatMap verseMarkup).length := by
  induction rows with
  | nil => exact Nat.le_refl _
  | cons row rows inductionHypothesis =>
    have markup := length_verseMarkup row
    have added : 1 ≤ (row.text.countP (fun c => !isMark c) + 1) * (hidden []).length :=
      Nat.mul_pos (Nat.succ_pos _) (by decide)
    simp only [List.map_cons, List.flatMap_cons, List.length_append, List.length_cons]
    omega

/-- The content has more characters than the title and the verses of the chapter. -/
theorem not_rendersFaithfully_of_mem {verses : List VerseRow} {bookRef chapterRef : Text} (chapterName : Text)
    {row : VerseRow} (member : row ∈ verses) (inChapter : row.book = bookRef ∧ row.chapter = chapterRef) :
    ¬RendersFaithfully verses bookRef chapterRef chapterName
      ((BibleBookChapter.new bookRef chapterRef chapterName).getContent verses).1 := by
  rintro ⟨ordered, isChapter, _, content⟩
  have isQuery : ordered.Perm (queryVerses verses bookRef chapterRef) := isChapter.trans (List.mergeSort_perm _ _).symm
  have found : row ∈ queryVerses verses bookRef chapterRef := by
    rw [← isQuery.mem_iff, isChapter.mem_iff, List.mem_filter]
    exact ⟨member, decide_eq_true inChapter⟩
  have someVerse := List.length_pos_of_mem found
  have longer := length_flatMap_verseMarkup (queryVerses verses bookRef chapterRef)
  have sameLength := (isQuery.flatMap_right faithfulVerse).length_eq
  have lengths := congrArg List.length content
  simp only [BibleBookChapter.new, BibleBookChapter.getContent, getBookChapterVerses, List.length_append] at lengths
  omega

theorem rendersFaithfully_iff (verses : List VerseRow) (bookRef chapterRef chapterName : Text) :
    RendersFaithfully verses bookRef chapterRef chapterName
        ((BibleBookChapter.new bookRef chapterRef chapterName).getContent verses).1 ↔
      ∀ row ∈ verses, ¬(row.book = bookRef ∧ row.chapter = chapterRef) := by
  constructor
  · intro faithful row member inChapter
    exact not_rendersFaithfully_of_mem chapterName member inChapter faithful
  · intro noVerse
    have nothing : queryVerses verses bookRef chapterRef = [] := by
      rw [queryVerses, List.filter_eq_nil_iff.mpr, List.mergeSort_nil]
      intro row member
      simpa using noVerse row member
    refine ⟨[], ?_, List.Pairwise.nil, ?_⟩
    · rw [← nothing]
      exact List.mergeSort_perm _ _
    · simp only [BibleBookChapter.new, BibleBookChapter.getContent, getBookChapterVerses, nothing, List.map_nil,
        List.flatMap_nil]

/-- A verse of one word has an empty span before each of its letters. -/
theorem one_verse_not_faithful :
    ¬RendersFaithfully [⟨1, "Gn".toList, "1".toList, some "1".toList, "Dieu".toList⟩] "Gn".toList "1".toList
      "Chapitre 1".toList
      ((BibleBookChapter.new "Gn".toList "1".toList "Chapitre 1".toList).getContent
        [⟨1, "Gn".toList, "1".toList, some "1".toList, "Dieu".toList⟩]).1 :=
  not_rendersFaithfully_of_mem _ (List.mem_singleton.mpr rfl) ⟨rfl, rfl⟩

end Aelf.Bible
