import Aelf.Bible.BookFragment
import Aelf.Library.PercentCoding

/-! # Links that carry a search

Four places write an address with the text of a search in it: the search box, the
list of results, and the routes of the search page and of the book page, which are
also what is saved as the last page.  Only the route of the search page encodes the
text.  All of them are read back by the same routers. -/

namespace Aelf.Bible

open Aelf.Library
open Aelf.Library.PercentCoding (Transparent)

/-! ## The pages -/

/-- `BibleController.Sort` -/
inductive SearchSort where
  | relevance
  | bible
deriving DecidableEq, Repr

/-- The name of the constant. -/
def SearchSort.name : SearchSort → Text
  | relevance => "Relevance".toList
  | bible => "Bible".toList

/-- The arguments of the fragment that a link opens.  The menu opens on the part that its fragment names. -/
inductive BibleFragment where
  | menu (part : Option Text)
  | search (query : Option Text) (sort : Option Text)
  | book (fragment : BibleBookFragment)
deriving DecidableEq

/-- The query that a page shows: `getString(BIBLE_SEARCH_QUERY, "")` on the search page. -/
def BibleFragment.query : BibleFragment → Option Text
  | menu _ => none
  | search query _ => some (query.getD [])
  | book fragment => fragment.query

def BibleFragment.reference : BibleFragment → Option Text
  | menu _ | search _ _ => none
  | book fragment => fragment.reference

/-! ## Reading links -/

section Router

variable [UriCodec] (parts : List BiblePart) (getBookChapters : Text → List Text)

/-- `SectionBibleFragment.onLink`, with the fragment that it starts. -/
def onLink (uri : Option Text) : Except Uri.UriError BibleFragment := do
  match uri with
  | none => return .menu none
  | some uri =>
    let path := Uri.getPath uri
    if path = some "/bible".toList then
      return .menu (Uri.getFragment uri)
    else if path = some "/search".toList then
      return .search (← Uri.getQueryParameter uri "query".toList) (← Uri.getQueryParameter uri "sort".toList)
    else
      match ← newInstance parts getBookChapters uri with
      | some fragment => return .book fragment
      -- the book is not in the list
      | none => return .menu (Uri.getFragment uri)

/-- The fragments that `onHome` starts, the last one on top. -/
def onHome (lastPageStr : Option Text) : Except Uri.UriError (List BibleFragment) := do
  let lastPage := lastPageStr.getD "https://www.aelf.org/bible".toList
  let restored ← onLink parts getBookChapters (some lastPage)
  match Uri.getPath lastPage with
  | none => return [restored]
  | some path =>
    if path = "/bible".toList then return [restored]
    else return [.menu none, restored]

end Router

/-! ## Writing links -/

/-- The address that `SectionBibleFragment.onSearch` opens. -/
def onSearch (query : Text) : Text := "https://www.aelf.org/search?query=".toList ++ query

/-- The link of a result of `BibleSearchResultAdapter`. -/
def resultLink (book chapter query : Text) : Text :=
  "https://www.aelf.org/bible/".toList ++ book ++ '/' :: chapter ++ "?query=".toList ++ query

/-- `BibleSearchFragment.getRoute` -/
def searchRoute (mQuery : Text) (mSort : SearchSort) : Text :=
  "/search?query=".toList ++ PercentCoding.encode mQuery ++ "&sort=".toList ++ PercentCoding.encode mSort.name

/-- `BibleChapterPagerAdapter.getRoute`: the position is clamped to the chapters there are. -/
def chapterRoute (bookRef : Text) (chapters : List Text) (position : Int) : Text :=
  match chapters[(min position (chapters.length - 1)).toNat]? with
  | none => []
  | some chapter => '/' :: bookRef ++ '/' :: chapter

/-- `BibleBookFragment.getRoute` -/
def bookRoute (chapterRoute : Text) (query reference : Option Text) : Text :=
  let route := "/bible".toList ++ chapterRoute
  match query, reference with
  | none, none => route
  | some query, none => route ++ "?query=".toList ++ query
  | none, some reference => route ++ "?reference=".toList ++ reference
  | some query, some reference => route ++ "?query=".toList ++ query ++ "&reference=".toList ++ reference

/-- `SectionBibleFragment.getUri`, which `onPause` saves as the last page. -/
def getUri (route : Text) : Text := "https://www.aelf.org".toList ++ route

/-! ## The data of the Bible -/

/-- A reference of a book or of a chapter: in the list of books and in the database all of them are made
of letters and digits. -/
structure Ref where
  text : Text
  alphanumeric : ∀ c ∈ text, c.isAlphanum = true
  nonempty : text ≠ []

theorem Ref.not_mem (ref : Ref) {c : Char} (other : c.isAlphanum = false) : c ∉ ref.text := by
  intro member
  rw [ref.alphanumeric c member] at other
  cases other

/-- A book on the screen: one of the list, with the chapters that the database has for it. -/
structure ShownBook (parts : List BiblePart) (getBookChapters : Text → List Text) where
  bookRef : Ref
  listed : ∃ part ∈ parts, ∃ entry ∈ part.bibleBookEntries, entry.bookRef = some bookRef.text
  chapters : List Ref
  fromDatabase : getBookChapters bookRef.text = chapters.map Ref.text
  nonempty : chapters ≠ []
  /-- The current item of the pager. -/
  position : Int

section Pages

variable {parts : List BiblePart} {getBookChapters : Text → List Text}

def ShownBook.route (book : ShownBook parts getBookChapters) : Text :=
  chapterRoute book.bookRef.text (getBookChapters book.bookRef.text) book.position

theorem ShownBook.route_eq (book : ShownBook parts getBookChapters) :
    ∃ chapter ∈ book.chapters, book.route = '/' :: book.bookRef.text ++ '/' :: chapter.text := by
  have positive : 0 < book.chapters.length := List.length_pos_iff.mpr book.nonempty
  have inside : (min book.position (book.chapters.length - 1)).toNat < book.chapters.length := by omega
  refine ⟨book.chapters[(min book.position (book.chapters.length - 1)).toNat], List.getElem_mem _, ?_⟩
  rw [route, chapterRoute, book.fromDatabase]
  simp [inside]

/-- The path of a page of the website: letters, digits and slashes. -/
def PlainPath (path : Text) : Prop := ∀ c ∈ path, c.isAlphanum = true ∨ c = '/'

theorem PlainPath.endsPath {path : Text} (plain : PlainPath path) : ∀ c ∈ path, Uri.endsPath c = false := by
  intro c member
  obtain alphanumeric | rfl := plain c member
  · by_contra ends
    simp only [Uri.endsPath, Bool.not_eq_false, Bool.or_eq_true, decide_eq_true_eq] at ends
    obtain rfl | rfl := ends <;> exact absurd alphanumeric (by decide)
  · rfl

theorem PlainPath.not_mem {path : Text} (plain : PlainPath path) {c : Char} (other : c.isAlphanum = false)
    (notSlash : c ≠ '/') : c ∉ path := by
  intro member
  obtain alphanumeric | slash := plain c member
  · rw [alphanumeric] at other
    cases other
  · exact notSlash slash

theorem plainPath_chapter (bookRef chapter : Ref) :
    PlainPath ("/bible/".toList ++ (bookRef.text ++ '/' :: chapter.text)) := by
  intro c member
  simp only [List.mem_append, List.mem_cons] at member
  obtain start | book | slash | chapter' := member
  · have : ∀ c ∈ "/bible/".toList, c.isAlphanum = true ∨ c = '/' := by simp
    exact this c start
  · exact .inl (bookRef.alphanumeric c book)
  · exact .inr slash
  · exact .inl (chapter.alphanumeric c chapter')

theorem plainPath_search : PlainPath "/search".toList := by
  simp [PlainPath]

/-- A page of the website with a first parameter. -/
def websiteLink (path key value : Text) : Text := Uri.link "https".toList "www.aelf.org".toList path key value

theorem website_scheme : ':' ∉ "https".toList := by decide

theorem website_authority : ∀ c ∈ "www.aelf.org".toList, Uri.endsAuthority c = false := by
  simp [Uri.endsAuthority, Uri.endsPath]

theorem getPath_websiteLink {path : Text} (plain : PlainPath path) (absolute : path.head? = some '/')
    (key value : Text) : Uri.getPath (websiteLink path key value) = some path :=
  Uri.getPath_link PercentCoding.decodesEscapesOnly website_scheme website_authority absolute plain.endsPath
    (plain.not_mem (by decide) (by decide)) (plain.not_mem (by decide) (by decide))

/-- The first parameter reads back exactly when it is transparent. -/
theorem first_parameter_iff {path key : Text} (plain : PlainPath path) (plainKey : Uri.PlainKey key) (value : Text) :
    Uri.getQueryParameter (websiteLink path key value) key = .ok (some value) ↔ Transparent value := by
  rw [websiteLink, Uri.getQueryParameter_first website_scheme website_authority plain.endsPath plainKey,
    Except.ok.injEq, Option.some.injEq]
  exact PercentCoding.decode_readableValue_eq_iff value

theorem first_of_two_iff {path key : Text} (plain : PlainPath path) (plainKey : Uri.PlainKey key) (value rest : Text) :
    Uri.getQueryParameter (websiteLink path key (value ++ '&' :: rest)) key = .ok (some value) ↔
      Transparent value := by
  rw [websiteLink, Uri.getQueryParameter_first website_scheme website_authority plain.endsPath plainKey,
    Except.ok.injEq, Option.some.injEq, PercentCoding.readableValue_append]
  exact PercentCoding.decode_readableValue_eq_iff value

theorem second_of_two_iff {path key second : Text} (plain : PlainPath path) (plainKey : Uri.PlainKey key)
    (plainSecond : Uri.PlainKey second) (different : second ≠ key) {value : Text} (transparent : Transparent value)
    (secondValue : Text) :
    Uri.getQueryParameter (websiteLink path key (value ++ '&' :: (second ++ '=' :: secondValue))) second =
      .ok (some secondValue) ↔ Transparent secondValue := by
  rw [websiteLink, Uri.getQueryParameter_second website_scheme website_authority plain.endsPath plainKey plainSecond
    different transparent.1 transparent.2.1, Except.ok.injEq, Option.some.injEq]
  exact PercentCoding.decode_readableValue_eq_iff secondValue

/-! ## What the builders write -/

theorem onSearch_eq (query : Text) : onSearch query = websiteLink "/search".toList "query".toList query := by
  delta onSearch websiteLink Uri.link
  simp

theorem resultLink_eq (book chapter query : Text) :
    resultLink book chapter query =
      websiteLink ("/bible/".toList ++ (book ++ '/' :: chapter)) "query".toList query := by
  delta resultLink websiteLink Uri.link
  simp

theorem getUri_searchRoute (mQuery : Text) (mSort : SearchSort) :
    getUri (searchRoute mQuery mSort) = websiteLink "/search".toList "query".toList
      (PercentCoding.encode mQuery ++ '&' :: ("sort".toList ++ '=' :: PercentCoding.encode mSort.name)) := by
  delta getUri searchRoute websiteLink Uri.link
  simp

theorem getUri_bookRoute (book chapter : Text) (query : Text) :
    getUri (bookRoute ('/' :: book ++ '/' :: chapter) (some query) none) =
      websiteLink ("/bible/".toList ++ (book ++ '/' :: chapter)) "query".toList query := by
  delta getUri bookRoute websiteLink Uri.link
  simp

theorem getUri_bookRoute_reference (book chapter : Text) (query reference : Text) :
    getUri (bookRoute ('/' :: book ++ '/' :: chapter) (some query) (some reference)) =
      websiteLink ("/bible/".toList ++ (book ++ '/' :: chapter)) "query".toList
        (query ++ '&' :: ("reference".toList ++ '=' :: reference)) := by
  delta getUri bookRoute websiteLink Uri.link
  simp

/-! ## The texts that survive -/

/-- `shown` is on top when the page is reopened from the home entry. -/
def Reopens (parts : List BiblePart) (getBookChapters : Text → List Text) (lastPage : Text) (shown : BibleFragment) :
    Prop :=
  ∃ below, onHome parts getBookChapters (some lastPage) = .ok (below ++ [shown])

/-- Every link that carries the query, and the reference where there is one, gives them back, and so do
the pages saved as the last one. -/
structure Survives (book : ShownBook parts getBookChapters) (resultBook resultChapter : Ref) (sort : SearchSort)
    (query : Text) (reference : Option Text) : Prop where
  searchBox : Uri.getQueryParameter (onSearch query) "query".toList = .ok (some query)
  result : Uri.getQueryParameter (resultLink resultBook.text resultChapter.text query) "query".toList =
    .ok (some query)
  searchPage : Uri.getQueryParameter (getUri (searchRoute query sort)) "query".toList = .ok (some query)
  bookPageQuery : Uri.getQueryParameter (getUri (bookRoute book.route (some query) reference)) "query".toList =
    .ok (some query)
  bookPageReference : Uri.getQueryParameter (getUri (bookRoute book.route (some query) reference))
    "reference".toList = .ok reference
  searchPageReopens : ∃ shown, Reopens parts getBookChapters (getUri (searchRoute query sort)) shown ∧
    shown.query = some query
  bookPageReopens : ∃ shown, Reopens parts getBookChapters (getUri (bookRoute book.route (some query) reference)) shown ∧
    shown.query = some query ∧ shown.reference = reference

theorem plainKeys : Uri.PlainKey "query".toList ∧ Uri.PlainKey "reference".toList ∧ Uri.PlainKey "sort".toList := by
  decide

/-- The search page encodes its query, so that every query reads back. -/
theorem searchRoute_reads (query : Text) (sort : SearchSort) :
    Uri.getQueryParameter (getUri (searchRoute query sort)) "query".toList = .ok (some query) := by
  rw [getUri_searchRoute, websiteLink, Uri.getQueryParameter_first website_scheme website_authority
    plainPath_search.endsPath plainKeys.1, PercentCoding.readableValue_append]
  exact congrArg (fun read => Except.ok (some read)) (PercentCoding.decode_readableValue_encode query)

theorem searchRoute_reopens (query : Text) (sort : SearchSort) :
    ∃ shown, Reopens parts getBookChapters (getUri (searchRoute query sort)) shown ∧ shown.query = some query := by
  have path : Uri.getPath (getUri (searchRoute query sort)) = some "/search".toList := by
    rw [getUri_searchRoute]
    exact getPath_websiteLink plainPath_search rfl _ _
  have sortRead : ∃ read, Uri.getQueryParameter (getUri (searchRoute query sort)) "sort".toList = .ok read := by
    rw [getUri_searchRoute, websiteLink, Uri.getQueryParameter_second website_scheme website_authority
      plainPath_search.endsPath plainKeys.1 plainKeys.2.2 (by decide)
      (PercentCoding.not_mem_encode '&' (by decide) (by decide) query)
      (PercentCoding.not_mem_encode '#' (by decide) (by decide) query)]
    exact ⟨_, rfl⟩
  obtain ⟨read, sortRead⟩ := sortRead
  refine ⟨.search (some query) read, ⟨[.menu none], ?_⟩, rfl⟩
  have notMenu : "/search".toList ≠ "/bible".toList := by decide
  simp only [onHome, onLink, Option.getD_some, path, Option.some.injEq, if_neg notMenu, searchRoute_reads, sortRead]
  rfl

/-- A chapter of a listed book is reopened with what its address says. -/
theorem chapter_reopens (book : ShownBook parts getBookChapters) {chapter : Ref} (inBook : chapter ∈ book.chapters)
    {key value : Text} {query reference : Option Text}
    (queryRead : Uri.getQueryParameter
      (websiteLink ("/bible/".toList ++ (book.bookRef.text ++ '/' :: chapter.text)) key value) "query".toList = .ok query)
    (referenceRead : Uri.getQueryParameter
      (websiteLink ("/bible/".toList ++ (book.bookRef.text ++ '/' :: chapter.text)) key value) "reference".toList =
        .ok reference) :
    ∃ shown, Reopens parts getBookChapters
        (websiteLink ("/bible/".toList ++ (book.bookRef.text ++ '/' :: chapter.text)) key value) shown ∧
      shown.query = query ∧ shown.reference = reference := by
  have path := getPath_websiteLink (plainPath_chapter book.bookRef chapter) rfl key value
  have listedChapter : chapter.text ∈ getBookChapters book.bookRef.text := by
    rw [book.fromDatabase]
    exact List.mem_map_of_mem inBook
  obtain ⟨fragment, _, _, _, located, _, _, _, _, _, sameQuery, sameReference⟩ := newInstance_chapter
    (book.bookRef.not_mem (by decide)) (chapter.not_mem (by decide)) chapter.nonempty path queryRead referenceRead
    book.listed listedChapter
  refine ⟨.book fragment, ⟨[.menu none], ?_⟩, sameQuery, sameReference⟩
  have notMenu : "/bible/".toList ++ (book.bookRef.text ++ '/' :: chapter.text) ≠ "/bible".toList := by
    intro same
    have lengths := congrArg List.length same
    simp at lengths
  have notSearch : "/bible/".toList ++ (book.bookRef.text ++ '/' :: chapter.text) ≠ "/search".toList := by
    intro same
    simp at same
  simp only [onHome, onLink, Option.getD_some, path, Option.some.injEq, if_neg notMenu, if_neg notSearch, located]
  rfl

/-- A page of a book gives transparent texts back. -/
theorem bookRoute_reads (book : ShownBook parts getBookChapters) {query : Text} {reference : Option Text}
    (transparent : Transparent query) (referenceTransparent : ∀ text, reference = some text → Transparent text) :
    Uri.getQueryParameter (getUri (bookRoute book.route (some query) reference)) "query".toList = .ok (some query) ∧
      Uri.getQueryParameter (getUri (bookRoute book.route (some query) reference)) "reference".toList =
        .ok reference := by
  obtain ⟨chapter, _, route⟩ := book.route_eq
  have plain := plainPath_chapter book.bookRef chapter
  rw [route]
  cases reference with
  | none =>
    rw [getUri_bookRoute]
    refine ⟨(first_parameter_iff plain plainKeys.1 query).mpr transparent, ?_⟩
    rw [websiteLink, Uri.getQueryParameter_link PercentCoding.decodesEscapesOnly website_scheme website_authority
      plain.endsPath (by simp [transparent.2.1]) (by simp [transparent.1]) (by decide) transparent.2.2.2
      transparent.2.2.1, if_neg (by decide)]
  | some text =>
    rw [getUri_bookRoute_reference]
    exact ⟨(first_of_two_iff plain plainKeys.1 query _).mpr transparent,
      (second_of_two_iff plain plainKeys.1 plainKeys.2.1 (by decide) transparent text).mpr
        (referenceTransparent text rfl)⟩

/-- The links give every text back exactly when the query and the reference are transparent: no
ampersand, number sign, plus or percent sign. -/
theorem survives_iff (book : ShownBook parts getBookChapters) (resultBook resultChapter : Ref) (sort : SearchSort)
    (query : Text) (reference : Option Text) :
    Survives book resultBook resultChapter sort query reference ↔
      Transparent query ∧ ∀ text, reference = some text → Transparent text := by
  obtain ⟨chapter, inBook, route⟩ := book.route_eq
  have plain := plainPath_chapter book.bookRef chapter
  constructor
  · intro survives
    -- the search box does not escape the query
    have transparent : Transparent query := by
      have read := survives.searchBox
      rw [onSearch_eq] at read
      exact (first_parameter_iff plainPath_search plainKeys.1 query).mp read
    refine ⟨transparent, ?_⟩
    rintro text rfl
    have read := survives.bookPageReference
    rw [route, getUri_bookRoute_reference] at read
    exact (second_of_two_iff plain plainKeys.1 plainKeys.2.1 (by decide) transparent text).mp read
  · rintro ⟨transparent, referenceTransparent⟩
    have bookReads := bookRoute_reads book transparent referenceTransparent
    refine ⟨?_, ?_, searchRoute_reads query sort, bookReads.1, bookReads.2, searchRoute_reopens query sort, ?_⟩
    · rw [onSearch_eq]
      exact (first_parameter_iff plainPath_search plainKeys.1 query).mpr transparent
    · rw [resultLink_eq]
      exact (first_parameter_iff (plainPath_chapter resultBook resultChapter) plainKeys.1 query).mpr transparent
    · obtain ⟨queryRead, referenceRead⟩ := bookReads
      rw [route] at queryRead referenceRead ⊢
      cases reference with
      | none =>
        rw [getUri_bookRoute] at queryRead referenceRead ⊢
        exact chapter_reopens book inBook queryRead referenceRead
      | some text =>
        rw [getUri_bookRoute_reference] at queryRead referenceRead ⊢
        exact chapter_reopens book inBook queryRead referenceRead

end Pages

namespace Genesis

def parts : List BiblePart := [⟨[⟨some "Gn".toList⟩]⟩]

def getBookChapters (_ : Text) : List Text := ["1".toList]

def bookRef : Ref := ⟨"Gn".toList, by simp, by decide⟩

def chapterRef : Ref := ⟨"1".toList, by simp, by decide⟩

def book : ShownBook parts getBookChapters where
  bookRef := bookRef
  listed := ⟨⟨[⟨some "Gn".toList⟩]⟩, by simp [parts], ⟨some "Gn".toList⟩, by simp, rfl⟩
  chapters := [chapterRef]
  fromDatabase := rfl
  nonempty := by simp
  position := 0

/-- The search box cuts a query at its ampersand. -/
theorem ampersand_lost : ¬Survives book bookRef chapterRef .relevance "terre & ciel".toList none := by
  intro survives
  have read := survives.searchBox
  rw [onSearch_eq, first_parameter_iff plainPath_search plainKeys.1] at read
  exact read.1 (by decide)

end Genesis

end Aelf.Bible
