import Aelf.Bible.Reference
import Aelf.Library.Uri

/-! # The router of the Bible pages

`BibleBookFragment.newInstance` finds the book and the chapter that a URI names.  The
chapters of a book come from the database. -/

namespace Aelf.Bible

open Aelf.Library

/-- The entry of a section has no reference. -/
structure BibleBookEntry where
  bookRef : Option Text
deriving DecidableEq

structure BiblePart where
  bibleBookEntries : List BibleBookEntry
deriving DecidableEq

/-- The arguments of the fragment. -/
structure BibleBookFragment where
  biblePartId : Nat
  bibleBookId : Nat
  bibleChapterId : Int
  query : Option Text
  reference : Option Text
deriving DecidableEq

/-- `path.split("/")`: empty texts at the end are dropped, unless there was nothing to split. -/
def splitPath (path : Text) : List Text :=
  if '/' ∈ path then ((path.splitOn '/').reverse.dropWhile List.isEmpty).reverse else [path]

/-- A loop that counts the candidates until it meets the wanted one. -/
def locate {α : Type} (isWanted : α → Bool) (position : Nat) : List α → Option (Nat × α)
  | [] => none
  | candidate :: candidates =>
    if isWanted candidate then some (position, candidate) else locate isWanted (position + 1) candidates

/-- The loop over the entries of a part. -/
def locateEntry (bookRef : Text) (entries : List BibleBookEntry) : Option (Nat × BibleBookEntry) :=
  locate (fun candidate => candidate.bookRef = some bookRef) 0 entries

/-- The loop over the parts. -/
def locateBook (bookRef : Text) (biblePartId : Nat) : List BiblePart → Option (Nat × Nat × BibleBookEntry)
  | [] => none
  | part :: parts =>
    match locateEntry bookRef part.bibleBookEntries with
    | some (bibleBookId, entry) => some (biblePartId, bibleBookId, entry)
    | none => locateBook bookRef (biblePartId + 1) parts

/-- The loop over the chapters of a book. -/
def locateChapter (chapterRef : Text) (chapters : List Text) : Option Nat :=
  (locate (fun candidate => candidate = chapterRef) 0 chapters).map Prod.fst

/-- `getChapters` of an entry, which asks the database for the chapters of its book. -/
def BibleBookEntry.getChapters (getBookChapters : Text → List Text) (entry : BibleBookEntry) : List Text :=
  match entry.bookRef with
  | none => []
  | some bookRef => getBookChapters bookRef

/-- `null` when the book is not found. -/
def newInstance [UriCodec] (parts : List BiblePart) (getBookChapters : Text → List Text) (uri : Text) :
    Except Uri.UriError (Option BibleBookFragment) := do
  let path := (Uri.getPath uri).getD []
  let chunks := splitPath path
  let query ← Uri.getQueryParameter uri "query".toList
  let reference ← Uri.getQueryParameter uri "reference".toList
  match chunks[2]? with
  | none => return some ⟨0, 0, 0, query, reference⟩
  | some bookRef =>
    match locateBook bookRef 0 parts with
    | none => return none
    | some (biblePartId, bibleBookId, bibleBookEntry) =>
      let bibleChapterId := match chunks[3]? with
        | none => 0
        | some chapterRef => (locateChapter chapterRef (bibleBookEntry.getChapters getBookChapters)).getD 0
      return some ⟨biblePartId, bibleBookId, bibleChapterId, query, reference⟩

/-! ## What the loops find -/

theorem locate_found {α : Type} {isWanted : α → Bool} {candidates : List α}
    (present : ∃ candidate ∈ candidates, isWanted candidate = true) (position : Nat) :
    ∃ index candidate, locate isWanted position candidates = some (position + index, candidate) ∧
      candidates[index]? = some candidate ∧ isWanted candidate = true := by
  induction candidates generalizing position with
  | nil =>
    obtain ⟨candidate, member, _⟩ := present
    cases member
  | cons candidate candidates inductionHypothesis =>
    by_cases wanted : isWanted candidate = true
    · exact ⟨0, candidate, by rw [locate, if_pos wanted, Nat.add_zero], rfl, wanted⟩
    · have later : ∃ candidate ∈ candidates, isWanted candidate = true := by
        obtain ⟨other, member, found⟩ := present
        cases member with
        | head => exact absurd found wanted
        | tail _ member => exact ⟨other, member, found⟩
      obtain ⟨index, other, located, atIndex, found⟩ := inductionHypothesis later (position + 1)
      refine ⟨index + 1, other, ?_, by simpa using atIndex, found⟩
      rw [locate, if_neg wanted, located, Nat.add_assoc, Nat.add_comm 1 index]

theorem locate_absent {α : Type} {isWanted : α → Bool} {candidates : List α}
    (absent : ¬∃ candidate ∈ candidates, isWanted candidate = true) (position : Nat) :
    locate isWanted position candidates = none := by
  induction candidates generalizing position with
  | nil => rfl
  | cons candidate candidates inductionHypothesis =>
    have notHere : ¬isWanted candidate = true := fun wanted => absent ⟨candidate, by simp, wanted⟩
    rw [locate, if_neg notHere]
    exact inductionHypothesis (fun ⟨other, member, wanted⟩ => absent ⟨other, by simp [member], wanted⟩) _

/-- A book of the list is found in the part and at the position that have it. -/
theorem locateBook_found {bookRef : Text} {parts : List BiblePart}
    (present : ∃ part ∈ parts, ∃ entry ∈ part.bibleBookEntries, entry.bookRef = some bookRef) (biblePartId : Nat) :
    ∃ partIndex bookIndex part entry, locateBook bookRef biblePartId parts =
        some (biblePartId + partIndex, bookIndex, entry) ∧ parts[partIndex]? = some part ∧
      part.bibleBookEntries[bookIndex]? = some entry ∧ entry.bookRef = some bookRef := by
  induction parts generalizing biblePartId with
  | nil =>
    obtain ⟨part, member, _⟩ := present
    cases member
  | cons part parts inductionHypothesis =>
    by_cases here : ∃ entry ∈ part.bibleBookEntries, decide (entry.bookRef = some bookRef) = true
    · obtain ⟨index, entry, located, atIndex, found⟩ := locate_found here 0
      refine ⟨0, index, part, entry, ?_, rfl, atIndex, of_decide_eq_true found⟩
      rw [locateBook, locateEntry, located, Nat.zero_add]
      rfl
    · have later : ∃ part ∈ parts, ∃ entry ∈ part.bibleBookEntries, entry.bookRef = some bookRef := by
        obtain ⟨other, member, entry, isEntry, found⟩ := present
        cases member with
        | head => exact absurd ⟨entry, isEntry, decide_eq_true found⟩ here
        | tail _ member => exact ⟨other, member, entry, isEntry, found⟩
      obtain ⟨partIndex, bookIndex, other, entry, located, atPart, atBook, found⟩ :=
        inductionHypothesis later (biblePartId + 1)
      refine ⟨partIndex + 1, bookIndex, other, entry, ?_, by simpa using atPart, atBook, found⟩
      rw [locateBook, locateEntry, locate_absent here, located, Nat.add_assoc, Nat.add_comm 1 partIndex]

theorem locateChapter_found {chapterRef : Text} {chapters : List Text} (present : chapterRef ∈ chapters) :
    ∃ index, locateChapter chapterRef chapters = some index ∧ chapters[index]? = some chapterRef := by
  have wanted : ∃ candidate ∈ chapters, decide (candidate = chapterRef) = true := ⟨chapterRef, present, by simp⟩
  obtain ⟨index, candidate, located, atIndex, found⟩ := locate_found wanted 0
  obtain rfl := of_decide_eq_true found
  exact ⟨index, by rw [locateChapter, located, Nat.zero_add, Option.map_some], atIndex⟩

/-! ## Links to a chapter -/

theorem splitPath_chapter {bookRef chapterRef : Text} (inBook : '/' ∉ bookRef) (inChapter : '/' ∉ chapterRef)
    (nonempty : chapterRef ≠ []) :
    splitPath ("/bible/".toList ++ (bookRef ++ '/' :: chapterRef)) = [[], "bible".toList, bookRef, chapterRef] := by
  have shape : "/bible/".toList ++ (bookRef ++ '/' :: chapterRef) =
      [] ++ '/' :: ("bible".toList ++ '/' :: (bookRef ++ '/' :: chapterRef)) := rfl
  have parts : ("/bible/".toList ++ (bookRef ++ '/' :: chapterRef)).splitOn '/' =
      [[], "bible".toList, bookRef, chapterRef] := by
    rw [shape, List.splitOn_append_cons_self_of_not_mem (by simp),
      List.splitOn_append_cons_self_of_not_mem (by decide), List.splitOn_append_cons_self_of_not_mem inBook,
      List.splitOn_eq_singleton inChapter]
  rw [splitPath, if_pos (by simp), parts]
  simp [nonempty]

/-- A link to a chapter selects the book that it names, and the chapter where the loop finds it. -/
theorem newInstance_book [UriCodec] {parts : List BiblePart} (getBookChapters : Text → List Text)
    {uri bookRef chapterRef : Text} {query reference : Option Text} (inBook : '/' ∉ bookRef) (inChapter : '/' ∉ chapterRef)
    (nonempty : chapterRef ≠ [])
    (path : Uri.getPath uri = some ("/bible/".toList ++ (bookRef ++ '/' :: chapterRef)))
    (queryRead : Uri.getQueryParameter uri "query".toList = .ok query)
    (referenceRead : Uri.getQueryParameter uri "reference".toList = .ok reference)
    (bookExists : ∃ part ∈ parts, ∃ entry ∈ part.bibleBookEntries, entry.bookRef = some bookRef) :
    ∃ partIndex bookIndex part entry, newInstance parts getBookChapters uri = .ok (some ⟨partIndex, bookIndex,
        (locateChapter chapterRef (getBookChapters bookRef)).getD 0, query, reference⟩) ∧
      parts[partIndex]? = some part ∧ part.bibleBookEntries[bookIndex]? = some entry ∧
      entry.bookRef = some bookRef := by
  obtain ⟨partIndex, bookIndex, part, entry, located, atPart, atBook, found⟩ := locateBook_found bookExists 0
  rw [Nat.zero_add] at located
  refine ⟨partIndex, bookIndex, part, entry, ?_, atPart, atBook, found⟩
  have chapters : entry.getChapters getBookChapters = getBookChapters bookRef := by
    rw [BibleBookEntry.getChapters, found]
  simp only [newInstance, path, Option.getD_some, splitPath_chapter inBook inChapter nonempty, queryRead, referenceRead, bind,
    Except.bind, List.getElem?_cons_succ, List.getElem?_cons_zero, located, chapters]
  rfl

/-- A link to a chapter selects the book and the chapter that it names, when they exist. -/
theorem newInstance_chapter [UriCodec] {parts : List BiblePart} {getBookChapters : Text → List Text}
    {uri bookRef chapterRef : Text} {query reference : Option Text} (inBook : '/' ∉ bookRef) (inChapter : '/' ∉ chapterRef)
    (nonempty : chapterRef ≠ [])
    (path : Uri.getPath uri = some ("/bible/".toList ++ (bookRef ++ '/' :: chapterRef)))
    (queryRead : Uri.getQueryParameter uri "query".toList = .ok query)
    (referenceRead : Uri.getQueryParameter uri "reference".toList = .ok reference)
    (bookExists : ∃ part ∈ parts, ∃ entry ∈ part.bibleBookEntries, entry.bookRef = some bookRef)
    (chapterExists : chapterRef ∈ getBookChapters bookRef) :
    ∃ fragment part entry index, newInstance parts getBookChapters uri = .ok (some fragment) ∧
      parts[fragment.biblePartId]? = some part ∧ part.bibleBookEntries[fragment.bibleBookId]? = some entry ∧
      entry.bookRef = some bookRef ∧ fragment.bibleChapterId = ((index : Nat) : Int) ∧
      (getBookChapters bookRef)[index]? = some chapterRef ∧ fragment.query = query ∧
      fragment.reference = reference := by
  obtain ⟨partIndex, bookIndex, part, entry, selected, atPart, atBook, found⟩ :=
    newInstance_book getBookChapters inBook inChapter nonempty path queryRead referenceRead bookExists
  obtain ⟨index, locatedChapter, atChapter⟩ := locateChapter_found chapterExists
  rw [locatedChapter] at selected
  exact ⟨_, part, entry, index, selected, atPart, atBook, found, rfl, atChapter, rfl, rfl⟩

end Aelf.Bible
