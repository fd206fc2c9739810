import Aelf.Bible.SearchLinks

/-! # Links into the Bible

`onLink` hands every URI that is neither the menu nor the search to the router of the
books.  The router counts parts, entries and chapters in three loops, and starts from the
first entry of the first part, which a path without a book leaves as it is. -/

namespace Aelf.Bible

open Aelf.Library

/-! ## The list of the books -/

/-- The entry that begins a section. -/
def sectionEntry : BibleBookEntry := ⟨none⟩

def bookEntries (bookRefs : List String) : List BibleBookEntry := bookRefs.map fun bookRef => ⟨some bookRef.toList⟩

def ancien : BiblePart where
  bibleBookEntries :=
    sectionEntry :: bookEntries ["Gn", "Ex", "Lv", "Nb", "Dt"] ++
    sectionEntry :: bookEntries ["Jos", "Jg", "Rt", "1S", "2S", "1R", "2R", "1Ch", "2Ch", "Esd", "Ne", "Tb", "Jdt",
      "Est", "1M", "2M"] ++
    sectionEntry :: bookEntries ["Jb", "Pr", "Qo", "Ct", "Sg", "Si"] ++
    sectionEntry :: bookEntries ["Is", "Jr", "Lm", "Ba", "1Jr", "Ez", "Dn", "Os", "Jl", "Am", "Ab", "Jon", "Mi", "Na",
      "Ha", "So", "Ag", "Za", "Ml"]

/-- One entry for each psalm, and two for the psalms that have two halves. -/
def psaumes : BiblePart where
  bibleBookEntries := (List.range' 1 150).flatMap fun i =>
    if i = 9 ∨ i = 113 then bookEntries ["Ps", "Ps"] else bookEntries ["Ps"]

def nouveau : BiblePart where
  bibleBookEntries :=
    sectionEntry :: bookEntries ["Mt", "Mc", "Lc", "Jn"] ++
    sectionEntry :: bookEntries ["Ac"] ++
    sectionEntry :: bookEntries ["Rm", "1Co", "2Co", "Ga", "Ep", "Ph", "Col", "1Th", "2Th", "1Tm", "2Tm", "Tt", "Phm",
      "He"] ++
    sectionEntry :: bookEntries ["Jc", "1P", "2P", "1Jn", "2Jn", "3Jn", "Jude"] ++
    sectionEntry :: bookEntries ["Ap"]

def bibleBookList : List BiblePart := [ancien, psaumes, nouveau]

/-! ## Routing -/

/-- The URIs for the router of the books. -/
def opensBook [UriCodec] (uri : Text) : Bool :=
  match Uri.getPath uri with
  | none => true
  | some path => path ≠ "/bible".toList && path ≠ "/search".toList

def chunksOf [UriCodec] (uri : Text) : List Text := splitPath ((Uri.getPath uri).getD [])

/-! ## What the loops find first -/

theorem locate_first {α : Type} {isWanted : α → Bool} {candidates : List α} {position index : Nat} {found : α}
    (located : locate isWanted position candidates = some (index, found)) :
    position ≤ index ∧ candidates[index - position]? = some found ∧ isWanted found = true ∧
      ∀ other candidate, candidates[other]? = some candidate → isWanted candidate = true → index ≤ position + other := by
  induction candidates generalizing position with
  | nil => cases located
  | cons candidate candidates inductionHypothesis =>
    rw [locate] at located
    split at located
    case isTrue wanted =>
      cases located
      refine ⟨Nat.le_refl _, by simp, wanted, ?_⟩
      intro other candidate _ _
      omega
    case isFalse unwanted =>
      obtain ⟨after, atIndex, wanted, first⟩ := inductionHypothesis located
      -- the positions of the rest are one further on
      have shift : index - position = index - (position + 1) + 1 := by omega
      refine ⟨by omega, by rw [shift]; simpa using atIndex, wanted, ?_⟩
      intro other earlier isCandidate isWantedThere
      cases other with
      | zero =>
        cases isCandidate
        exact absurd isWantedThere unwanted
      | succ other =>
        have later := first other earlier (by simpa using isCandidate) isWantedThere
        omega

/-- A position comes no later than another in the order of the list. -/
def NoLater (part book otherPart otherBook : Nat) : Prop := part < otherPart ∨ part = otherPart ∧ book ≤ otherBook

theorem locateBook_first {bookRef : Text} {parts : List BiblePart} {start partIndex bookIndex : Nat}
    {entry : BibleBookEntry} (located : locateBook bookRef start parts = some (partIndex, bookIndex, entry)) :
    start ≤ partIndex ∧ (∃ part, parts[partIndex - start]? = some part ∧
      part.bibleBookEntries[bookIndex]? = some entry) ∧ entry.bookRef = some bookRef ∧
    ∀ otherPart otherBook part other, parts[otherPart]? = some part → part.bibleBookEntries[otherBook]? = some other →
      other.bookRef = some bookRef → NoLater partIndex bookIndex (start + otherPart) otherBook := by
  induction parts generalizing start with
  | nil => cases located
  | cons part parts inductionHypothesis =>
    rw [locateBook] at located
    split at located
    next bibleBookId found here =>
      cases located
      obtain ⟨-, atIndex, wanted, first⟩ := locate_first here
      refine ⟨Nat.le_refl _, ⟨part, by simp, by simpa using atIndex⟩, of_decide_eq_true wanted, ?_⟩
      intro otherPart otherBook otherEntries other isPart isEntry sameRef
      cases otherPart with
      | zero =>
        cases isPart
        have early := first otherBook other isEntry (decide_eq_true sameRef)
        exact .inr ⟨rfl, by omega⟩
      | succ otherPart => exact .inl (by omega)
    next absent =>
      obtain ⟨after, ⟨found, atPart, atBook⟩, sameRef, first⟩ := inductionHypothesis located
      have shift : partIndex - start = partIndex - (start + 1) + 1 := by omega
      refine ⟨by omega, ⟨found, by rw [shift]; simpa using atPart, atBook⟩, sameRef, ?_⟩
      intro otherPart otherBook otherEntries other isPart isEntry otherRef
      cases otherPart with
      | zero =>
        -- the part that was passed over has no such book
        cases isPart
        have present : ∃ candidate ∈ part.bibleBookEntries, decide (candidate.bookRef = some bookRef) = true :=
          ⟨other, List.mem_of_getElem? isEntry, decide_eq_true otherRef⟩
        obtain ⟨index, candidate, locatedHere, -⟩ := locate_found present 0
        rw [locateEntry, locatedHere] at absent
        cases absent
      | succ otherPart =>
        have later := first otherPart otherBook otherEntries other (by simpa using isPart) isEntry otherRef
        rwa [show start + (otherPart + 1) = start + 1 + otherPart by omega]

theorem locate_eq (wanted : Text) (candidates : List Text) (position : Nat) :
    (locate (fun candidate => candidate = wanted) position candidates).map Prod.fst =
      if wanted ∈ candidates then some (position + candidates.idxOf wanted) else none := by
  induction candidates generalizing position with
  | nil => rfl
  | cons candidate candidates inductionHypothesis =>
    rw [locate]
    by_cases here : candidate = wanted
    · subst here
      simp
    · have later := inductionHypothesis (position + 1)
      rw [if_neg (by simpa using here), later, List.idxOf_cons_ne candidates here]
      have notHead : wanted ≠ candidate := fun same => here same.symm
      simp only [List.mem_cons, notHead, false_or]
      rw [show position + 1 + candidates.idxOf wanted = position + (candidates.idxOf wanted + 1) by omega]

/-! ## Books that links address -/

/-- The index of the chapter that a path names, or of the first one. -/
def chapterIndex (chapters : List Text) : Option Text → Nat
  | none => 0
  | some chapterRef => if chapterRef ∈ chapters then chapters.idxOf chapterRef else 0

/-- The arguments are the position of a book, the first one with the reference of the path if there is
one, and the index of the chapter of the path. -/
def AddressesBook (parts : List BiblePart) (getBookChapters : Text → List Text) (chunks : List Text)
    (fragment : BibleBookFragment) : Prop :=
  ∃ part entry bookRef, parts[fragment.biblePartId]? = some part ∧
    part.bibleBookEntries[fragment.bibleBookId]? = some entry ∧ entry.bookRef = some bookRef ∧
    (∀ chunk, chunks[2]? = some chunk → bookRef = chunk ∧
      ∀ otherPart otherBook part other, parts[otherPart]? = some part → part.bibleBookEntries[otherBook]? = some other →
        other.bookRef = some chunk → NoLater fragment.biblePartId fragment.bibleBookId otherPart otherBook) ∧
    fragment.bibleChapterId = chapterIndex (getBookChapters bookRef) chunks[3]?

/-- The router answers, and what it answers is the position of a book. -/
def RoutesToBook [UriCodec] (parts : List BiblePart) (getBookChapters : Text → List Text) (uri : Text) : Prop :=
  ∃ answer, newInstance parts getBookChapters uri = .ok answer ∧
    ∀ fragment ∈ answer, AddressesBook parts getBookChapters (chunksOf uri) fragment

/-- The first entry of the first part is a book. -/
def startsWithBook (parts : List BiblePart) : Bool :=
  (parts.head?.bind fun part => part.bibleBookEntries.head?).any fun entry => entry.bookRef.isSome

theorem newInstance_notHierarchical [UriCodec] {parts : List BiblePart} {getBookChapters : Text → List Text} {uri : Text}
    (isOpaque : Uri.hierarchicalPart uri = none) :
    newInstance parts getBookChapters uri = .error .notHierarchical := by
  simp [newInstance, Uri.getQueryParameter, isOpaque, bind, Except.bind]

section Hierarchical

variable [UriCodec] {parts : List BiblePart} {getBookChapters : Text → List Text} {uri : Text}
  (hierarchical : (Uri.hierarchicalPart uri).isSome = true)

include hierarchical

theorem getQueryParameter_hierarchical (key : Text) : ∃ value, Uri.getQueryParameter uri key = .ok value := by
  obtain ⟨part, isPart⟩ := Option.isSome_iff_exists.mp hierarchical
  exact ⟨_, by rw [Uri.getQueryParameter, isPart]⟩

theorem newInstance_default (noBook : (chunksOf uri)[2]? = none) :
    ∃ query reference, newInstance parts getBookChapters uri = .ok (some ⟨0, 0, 0, query, reference⟩) := by
  obtain ⟨query, queryRead⟩ := getQueryParameter_hierarchical hierarchical "query".toList
  obtain ⟨reference, referenceRead⟩ := getQueryParameter_hierarchical hierarchical "reference".toList
  refine ⟨query, reference, ?_⟩
  unfold chunksOf at noBook
  simp only [newInstance, queryRead, referenceRead, bind, Except.bind, noBook]
  rfl

theorem newInstance_missing {bookRef : Text} (book : (chunksOf uri)[2]? = some bookRef)
    (absent : locateBook bookRef 0 parts = none) : newInstance parts getBookChapters uri = .ok none := by
  obtain ⟨query, queryRead⟩ := getQueryParameter_hierarchical hierarchical "query".toList
  obtain ⟨reference, referenceRead⟩ := getQueryParameter_hierarchical hierarchical "reference".toList
  unfold chunksOf at book
  simp only [newInstance, queryRead, referenceRead, bind, Except.bind, book, absent]
  rfl

theorem newInstance_located {bookRef : Text} {biblePartId bibleBookId : Nat} {entry : BibleBookEntry}
    (book : (chunksOf uri)[2]? = some bookRef)
    (located : locateBook bookRef 0 parts = some (biblePartId, bibleBookId, entry)) :
    ∃ query reference, newInstance parts getBookChapters uri = .ok (some
      ⟨biblePartId, bibleBookId, chapterIndex (entry.getChapters getBookChapters) (chunksOf uri)[3]?, query, reference⟩) := by
  obtain ⟨query, queryRead⟩ := getQueryParameter_hierarchical hierarchical "query".toList
  obtain ⟨reference, referenceRead⟩ := getQueryParameter_hierarchical hierarchical "reference".toList
  refine ⟨query, reference, ?_⟩
  unfold chunksOf at book ⊢
  simp only [newInstance, queryRead, referenceRead, bind, Except.bind, book, located]
  cases chapter : (splitPath ((Uri.getPath uri).getD []))[3]? with
  | none => rfl
  | some chapterRef =>
    -- the first chapter stands in for one that is not found
    have index : (locateChapter chapterRef (entry.getChapters getBookChapters)).getD 0 =
        chapterIndex (entry.getChapters getBookChapters) (some chapterRef) := by
      rw [locateChapter, locate_eq, chapterIndex]
      split <;> simp
    rw [← index]
    rfl

/-- A book that a path names is addressed. -/
theorem routesToBook_of_book {bookRef : Text} (book : (chunksOf uri)[2]? = some bookRef) :
    RoutesToBook parts getBookChapters uri := by
  cases located : locateBook bookRef 0 parts with
  | none => exact ⟨none, newInstance_missing hierarchical book located, fun fragment member => by cases member⟩
  | some found =>
    obtain ⟨biblePartId, bibleBookId, entry⟩ := found
    obtain ⟨query, reference, answer⟩ := newInstance_located hierarchical book located
    obtain ⟨-, ⟨part, atPart, atBook⟩, sameRef, first⟩ := locateBook_first located
    refine ⟨_, answer, ?_⟩
    intro fragment isFragment
    obtain rfl := Option.some.inj isFragment
    have chapters : entry.getChapters getBookChapters = getBookChapters bookRef := by
      rw [BibleBookEntry.getChapters, sameRef]
    refine ⟨part, entry, bookRef, by simpa using atPart, atBook, sameRef, ?_, by rw [chapters]⟩
    intro chunk isChunk
    obtain rfl : bookRef = chunk := by simpa [book] using isChunk
    refine ⟨rfl, ?_⟩
    intro otherPart otherBook other entry isPart isEntry otherRef
    simpa using first otherPart otherBook other entry isPart isEntry otherRef

/-- Without a book in the path, the first entry of the list has to be one. -/
theorem routesToBook_default_iff (noBook : (chunksOf uri)[2]? = none) :
    RoutesToBook parts getBookChapters uri ↔ startsWithBook parts = true := by
  have defaults : ∃ query reference, newInstance parts getBookChapters uri = .ok (some ⟨0, 0, 0, query, reference⟩) :=
    newInstance_default hierarchical noBook
  obtain ⟨query, reference, answer⟩ := defaults
  -- a path without a book has no chapter either
  have noChapter : (chunksOf uri)[3]? = none := by
    rw [List.getElem?_eq_none_iff] at noBook ⊢
    omega
  constructor
  · rintro ⟨other, sameAnswer, addresses⟩
    obtain rfl := Except.ok.inj (answer.symm.trans sameAnswer)
    obtain ⟨part, entry, bookRef, atPart, atBook, isBook, -⟩ := addresses _ rfl
    rw [← List.head?_eq_getElem?] at atPart atBook
    simp [startsWithBook, atPart, atBook, isBook]
  · intro starts
    obtain ⟨entry, first, isBook⟩ := (Option.any_eq_true _ _).mp starts
    obtain ⟨part, atPart, atBook⟩ := Option.bind_eq_some_iff.mp first
    obtain ⟨bookRef, sameRef⟩ := Option.isSome_iff_exists.mp isBook
    refine ⟨_, answer, ?_⟩
    intro fragment isFragment
    obtain rfl := Option.some.inj isFragment
    refine ⟨part, entry, bookRef, ?_, ?_, sameRef, ?_, ?_⟩
    · rw [← List.head?_eq_getElem?, atPart]
    · rw [← List.head?_eq_getElem?, atBook]
    · intro chunk isChunk
      rw [noBook] at isChunk
      cases isChunk
    · rw [noChapter]
      rfl

theorem routesToBook_of_startsWithBook (starts : startsWithBook parts = true) :
    RoutesToBook parts getBookChapters uri := by
  cases book : (chunksOf uri)[2]? with
  | none => exact (routesToBook_default_iff hierarchical book).mpr starts
  | some bookRef => exact routesToBook_of_book hierarchical book

end Hierarchical

theorem addressesBook_of_newInstance [UriCodec] {parts : List BiblePart} {getBookChapters : Text → List Text}
    {uri : Text} {fragment : BibleBookFragment} (starts : startsWithBook parts = true)
    (answered : newInstance parts getBookChapters uri = .ok (some fragment)) :
    AddressesBook parts getBookChapters (chunksOf uri) fragment := by
  cases hierarchical : Uri.hierarchicalPart uri with
  | none =>
    rw [newInstance_notHierarchical hierarchical] at answered
    cases answered
  | some part =>
    have routes : RoutesToBook parts getBookChapters uri :=
      routesToBook_of_startsWithBook (by rw [hierarchical]; rfl) starts
    obtain ⟨answer, sameAnswer, addresses⟩ := routes
    obtain rfl := Except.ok.inj (answered.symm.trans sameAnswer)
    exact addresses fragment rfl

/-- With a book at the start of the list, no link shows anything else than a book of the list. -/
theorem onLink_book [UriCodec] {parts : List BiblePart} {getBookChapters : Text → List Text} {link : Option Text}
    {fragment : BibleBookFragment} (starts : startsWithBook parts = true)
    (shown : onLink parts getBookChapters link = .ok (.book fragment)) :
    ∃ uri, link = some uri ∧ AddressesBook parts getBookChapters (chunksOf uri) fragment := by
  cases link with
  | none => cases shown
  | some uri =>
    refine ⟨uri, rfl, ?_⟩
    simp only [onLink] at shown
    split at shown
    case isTrue => cases shown
    case isFalse =>
      split at shown
      case isTrue =>
        -- a search link shows the results, or fails on one of its two parameters
        cases query : Uri.getQueryParameter uri "query".toList with
        | error exception =>
          rw [query] at shown
          cases shown
        | ok value =>
          rw [query] at shown
          cases sort : Uri.getQueryParameter uri "sort".toList with
          | error exception =>
            rw [sort] at shown
            cases shown
          | ok order =>
            rw [sort] at shown
            cases shown
      case isFalse =>
        cases answered : newInstance parts getBookChapters uri with
        | error exception =>
          rw [answered] at shown
          cases shown
        | ok answer =>
          rw [answered] at shown
          cases answer with
          | none => cases shown
          | some found =>
            cases shown
            exact addressesBook_of_newInstance starts answered

/-- The router addresses a book exactly when the URI has a path, and this path names a book or the list
starts with one. -/
theorem newInstance_routesToBook_iff [UriCodec] (parts : List BiblePart) (getBookChapters : Text → List Text)
    (uri : Text) :
    RoutesToBook parts getBookChapters uri ↔
      (Uri.hierarchicalPart uri).isSome = true ∧ (2 < (chunksOf uri).length ∨ startsWithBook parts = true) := by
  by_cases hierarchical : (Uri.hierarchicalPart uri).isSome = true
  · cases book : (chunksOf uri)[2]? with
    | none =>
      have short : ¬2 < (chunksOf uri).length := by
        rw [List.getElem?_eq_none_iff] at book
        omega
      rw [routesToBook_default_iff hierarchical book]
      simp [hierarchical, short]
    | some bookRef =>
      have long : 2 < (chunksOf uri).length := (List.getElem?_eq_some_iff.mp book).1
      exact iff_of_true (routesToBook_of_book hierarchical book) ⟨hierarchical, .inl long⟩
  · refine iff_of_false ?_ (fun both => hierarchical both.1)
    rintro ⟨answer, answered, -⟩
    have isOpaque : Uri.hierarchicalPart uri = none := by simpa using hierarchical
    rw [newInstance_notHierarchical isOpaque] at answered
    cases answered

/-- The menu with a slash after it opens the first entry of the list, the title of a section. -/
theorem menu_slash_not_routesToBook :
    opensBook "https://www.aelf.org/bible/".toList = true ∧
    ¬RoutesToBook bibleBookList (fun _ => ["1".toList]) "https://www.aelf.org/bible/".toList := by
  refine ⟨by decide +kernel, ?_⟩
  have hierarchical : (Uri.hierarchicalPart "https://www.aelf.org/bible/".toList).isSome = true := by decide +kernel
  have noBook : (chunksOf "https://www.aelf.org/bible/".toList)[2]? = none := by decide +kernel
  rw [routesToBook_default_iff hierarchical noBook]
  simp [startsWithBook, bibleBookList, ancien, sectionEntry]

end Aelf.Bible
