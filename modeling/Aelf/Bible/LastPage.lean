import Aelf.Bible.SearchLinks
import Aelf.Library.Runs

/-! # The pages of the Bible and the last one visited

A section of the Bible has a stack of pages: the menu, a search, or a book at one of its
chapters.  When it is paused it writes the address of its page into the preferences, and the
entry of the drawer reads it back.  Addresses, parts and chapters are counted and looked up
on the way; the reader only knows the places. -/

namespace Aelf.Bible.LastPage

open Aelf.Library
open Aelf.Library.PercentCoding (Transparent)

/-! ## The data of the Bible -/

/-- An entry of the menu: the title of a section, a book, or one chapter of a book. -/
structure MenuEntry where
  bookRef : Option Text
  chapterRef : Option Text

structure MenuPart where
  partRef : Text
  bibleBookEntries : List MenuEntry

/-- The list of the books, and the chapters that the database has. -/
structure Data where
  mParts : List MenuPart
  getBookChapters : Text → List Text

/-- What the router of the books reads of the list. -/
def Data.parts (bible : Data) : List BiblePart :=
  bible.mParts.map fun part => ⟨part.bibleBookEntries.map fun entry => ⟨entry.bookRef⟩⟩

/-- The loop of `BibleMenuFragment.newInstance`. -/
def Data.partPosition (bible : Data) (fragment : Option Text) : Nat :=
  ((locate (fun candidate => some candidate.partRef = fragment) 0 bible.mParts).map Prod.fst).getD 0

/-- It throws when the database does not have the chapter. -/
def MenuEntry.getChapterRefPosition (entry : MenuEntry) (getBookChapters : Text → List Text) : Option Nat :=
  match entry.chapterRef with
  | none => some 0
  | some chapterRef => entry.bookRef.bind fun bookRef => locateChapter chapterRef (getBookChapters bookRef)

/-- The chapter that a fragment opens with: the one it was started for, or the one of its entry. -/
def MenuEntry.startPosition (entry : MenuEntry) (getBookChapters : Text → List Text) (bibleChapterId : Int) :
    Option Int :=
  if bibleChapterId < 0 then (entry.getChapterRefPosition getBookChapters).map Int.ofNat else some bibleChapterId

/-! ## Pages -/

/-- A page with its view, and where its pager is. -/
inductive Page where
  | menu (currentItem : Nat)
  | search (mQuery : Text) (mSort : SearchSort)
  | book (bookRef : Text) (query reference : Option Text) (currentItem : Nat)
deriving DecidableEq

/-- The pager stays within its pages. -/
def setCurrentItem (count : Nat) (item : Int) : Nat := (min item (count - 1)).toNat

/-- `Sort.valueOf`, or the sort of a new search where there is no such name. -/
def SearchSort.valueOf (name : Option Text) : SearchSort :=
  if name = some SearchSort.bible.name then .bible else .relevance

/-- The arguments of the fragment that the menu starts for an entry: no chapter is chosen yet. -/
def openBook (biblePartId bibleBookId : Nat) : BibleFragment := .book ⟨biblePartId, bibleBookId, -1, none, none⟩

/-- `onCreateView`; the title of a section has no chapters to ask the database for. -/
def createView (bible : Data) : BibleFragment → Option Page
  | .menu part => some (.menu (setCurrentItem bible.mParts.length (bible.partPosition part)))
  | .search query sort => some (.search (query.getD []) (SearchSort.valueOf sort))
  | .book fragment => do
    let part ← bible.mParts[fragment.biblePartId]?
    let entry ← part.bibleBookEntries[fragment.bibleBookId]?
    let bookRef ← entry.bookRef
    let bibleChapterId ← entry.startPosition bible.getBookChapters fragment.bibleChapterId
    return .book bookRef fragment.query fragment.reference
      (setCurrentItem (bible.getBookChapters bookRef).length bibleChapterId)

def getRoute (bible : Data) : Page → Option Text
  | .menu currentItem => (bible.mParts[currentItem]?).map fun part => "/bible#".toList ++ part.partRef
  | .search mQuery mSort => some (searchRoute mQuery mSort)
  | .book bookRef query reference currentItem =>
    some (bookRoute (chapterRoute bookRef (bible.getBookChapters bookRef) currentItem) query reference)

/-! ## Places -/

/-- Where a reader is. -/
inductive Place where
  | menu (partRef : Text)
  | search (query : Text) (sort : SearchSort)
  | chapter (bookRef chapterRef : Text) (query reference : Option Text)
deriving DecidableEq

/-- The address of a place, as pages share it and other pages link to it. -/
def Place.address : Place → Text
  | .menu partRef => getUri ("/bible#".toList ++ partRef)
  | .search query sort => getUri (searchRoute query sort)
  | .chapter bookRef chapterRef query reference =>
    getUri (bookRoute ('/' :: bookRef ++ '/' :: chapterRef) query reference)

/-! ## The section -/

/-- The pages of a section, the shown one first. -/
structure BibleSection where
  current : Page
  backStack : List Page

/-- The preference, the sections of the Bible that the activity keeps, and whether the first of them is on the screen. -/
structure State where
  lastPage : Option Text
  sections : List BibleSection
  isShown : Bool

/-- Why a section is opened. -/
inductive Target where
  /-- The entry of the drawer, which is not offered while the Bible is shown. -/
  | home
  | link (place : Place)
  | search (query : Text)
  | menu

inductive Event where
  | enter (target : Target)
  | onPause
  | onResume
  /-- Going back from the first page leaves the section. -/
  | exit
  | onBibleEntryClick (biblePartId bibleBookId : Nat)
  | onSearchClick
  | search (query : Text)
  | setSort (sort : SearchSort)
  | onPageSelected (position : Nat)
  | popBackStack

/-- The address of the entry of the drawer. -/
def bibleHome : Text := "https://www.aelf.org/bible/home".toList

/-- The address and the text of the search with which the section is opened. -/
def Target.intent : Target → Option Text × Option Text
  | .home => (some bibleHome, none)
  | .link place => (some place.address, none)
  | .search query => (none, some query)
  | .menu => (none, none)

namespace BibleSection

/-- `setFragment`: the first page is not put on the back stack. -/
def setFragment (shown : Option BibleSection) (page : Page) : BibleSection :=
  match shown with
  | none => ⟨page, []⟩
  | some shown => ⟨page, shown.current :: shown.backStack⟩

/-- The fragments that `onCreateView` starts, the last one on top. -/
def fragments (bible : Data) (lastPage : Option Text) : Option Text × Option Text →
    Except Uri.UriError (List BibleFragment)
  | (some uri, _) =>
    if Uri.getPath uri = some "/bible/home".toList then onHome bible.parts bible.getBookChapters lastPage
    else return [← onLink bible.parts bible.getBookChapters (some uri)]
  | (none, some query) => return [← onLink bible.parts bible.getBookChapters (some (onSearch query))]
  | (none, none) => return [← onLink bible.parts bible.getBookChapters none]

def start (bible : Data) (shown : Option BibleSection) : List BibleFragment → Option (Option BibleSection)
  | [] => some shown
  | fragment :: fragments => do
    let page ← createView bible fragment
    start bible (some (setFragment shown page)) fragments

def onCreateView (bible : Data) (lastPage : Option Text) (intent : Option Text × Option Text) :
    Option BibleSection := do
  let fragments ← (fragments bible lastPage intent).toOption
  (← start bible none fragments)

def openFragment (bible : Data) (shown : BibleSection) (fragment : BibleFragment) : Option BibleSection :=
  (createView bible fragment).map (setFragment (some shown))

/-- The button of the search is there on every page, and opens the search unless it is shown. -/
def onSearchClick (bible : Data) (shown : BibleSection) : Option BibleSection :=
  match shown.current with
  | .search _ _ => some shown
  | _ => do
    let fragment ← (onLink bible.parts bible.getBookChapters (some (onSearch []))).toOption
    shown.openFragment bible fragment

def search (query : Text) (shown : BibleSection) : BibleSection :=
  match shown.current with
  | .search _ mSort => { shown with current := .search query mSort }
  | _ => shown

def setSort (sort : SearchSort) (shown : BibleSection) : BibleSection :=
  match shown.current with
  | .search mQuery _ => { shown with current := .search mQuery sort }
  | _ => shown

def onPageSelected (position : Nat) (shown : BibleSection) : BibleSection :=
  match shown.current with
  | .menu _ => { shown with current := .menu position }
  | .search _ _ => shown
  | .book bookRef query reference _ => { shown with current := .book bookRef query reference position }

def popBackStack (shown : BibleSection) : BibleSection :=
  match shown.backStack with
  | [] => shown
  | page :: backStack => ⟨page, backStack⟩

end BibleSection

namespace State

/-- The section on the screen changes. -/
def withShown (state : State) (change : BibleSection → Option BibleSection) : Option State :=
  match state.isShown, state.sections with
  | true, shown :: sections => (change shown).map fun shown => { state with sections := shown :: sections }
  | _, _ => some state

/-- The section on the screen writes its page into the preference. -/
def onPause (bible : Data) (state : State) : Option State :=
  match state.isShown, state.sections with
  | true, shown :: _ => do
    let route ← getRoute bible shown.current
    return { state with lastPage := some (getUri route), isShown := false }
  | _, _ => some { state with isShown := false }

/-- The new section reads the preference before the one it replaces is paused. -/
def enter (bible : Data) (state : State) (target : Target) : Option State := do
  let shown ← BibleSection.onCreateView bible state.lastPage target.intent
  let paused ← state.onPause bible
  return { paused with sections := shown :: paused.sections, isShown := true }

def exit (bible : Data) (state : State) : Option State := do
  let paused ← state.onPause bible
  return { paused with sections := paused.sections.tail }

def apply (bible : Data) (state : State) : Event → Option State
  | .enter target => state.enter bible target
  | .onPause => state.onPause bible
  | .onResume => some { state with isShown := !state.sections.isEmpty }
  | .exit => state.exit bible
  | .onBibleEntryClick biblePartId bibleBookId => state.withShown (·.openFragment bible (openBook biblePartId bibleBookId))
  | .onSearchClick => state.withShown (·.onSearchClick bible)
  | .search query => state.withShown fun shown => some (shown.search query)
  | .setSort sort => state.withShown fun shown => some (shown.setSort sort)
  | .onPageSelected position => state.withShown fun shown => some (shown.onPageSelected position)
  | .popBackStack => state.withShown fun shown => some shown.popBackStack

def run (bible : Data) (state : State) (events : List Event) : Option State := events.foldlM (apply bible) state

/-- A new installation. -/
def start : State := ⟨none, [], false⟩

end State

/-! ## The reader -/

/-- The places of a section, the shown one first. -/
structure Visit where
  current : Place
  below : List Place

/-- A reader with a bookmark. -/
structure Reader where
  bookmark : Option Place
  visits : List Visit
  isShown : Bool

namespace Data

/-- The menu at its first part. -/
def frontPage (bible : Data) : Place := .menu ((bible.mParts.head?.map MenuPart.partRef).getD [])

/-- The place of an entry of the menu: its chapter, or the first one of its book. -/
def entryPlace (bible : Data) (biblePartId bibleBookId : Nat) : Option Place := do
  let part ← bible.mParts[biblePartId]?
  let entry ← part.bibleBookEntries[bibleBookId]?
  let bookRef ← entry.bookRef
  let chapterRef ← entry.chapterRef.or (bible.getBookChapters bookRef).head?
  return .chapter bookRef chapterRef none none

/-- Where the pager of a place leads, if it has so many pages. -/
def turnTo (bible : Data) (position : Nat) : Place → Option Place
  | .menu _ => (bible.mParts[position]?).map fun part => .menu part.partRef
  | .search query sort => some (.search query sort)
  | .chapter bookRef _ query reference =>
    ((bible.getBookChapters bookRef)[position]?).map fun chapterRef => .chapter bookRef chapterRef query reference

end Data

namespace Visit

/-- The menu lies below the bookmark, unless the bookmark is the menu. -/
def atBookmark (bible : Data) : Option Place → Visit
  | none => ⟨bible.frontPage, []⟩
  | some (.menu partRef) => ⟨.menu partRef, []⟩
  | some place => ⟨place, [bible.frontPage]⟩

def ofTarget (bible : Data) (bookmark : Option Place) : Target → Visit
  | .home => atBookmark bible bookmark
  | .link place => ⟨place, []⟩
  | .search query => ⟨.search query .relevance, []⟩
  | .menu => ⟨bible.frontPage, []⟩

def goTo (visit : Visit) (place : Place) : Visit := ⟨place, visit.current :: visit.below⟩

def goBack (visit : Visit) : Visit :=
  match visit.below with
  | [] => visit
  | place :: below => ⟨place, below⟩

def onSearchClick (visit : Visit) : Visit :=
  match visit.current with
  | .search _ _ => visit
  | _ => visit.goTo (.search [] .relevance)

/-- What the search page does to its query and its sort. -/
def editSearch (edit : Text → SearchSort → Place) (visit : Visit) : Visit :=
  match visit.current with
  | .search query sort => { visit with current := edit query sort }
  | _ => visit

end Visit

namespace Reader

def withVisit (reader : Reader) (change : Visit → Visit) : Reader :=
  match reader.isShown, reader.visits with
  | true, visit :: visits => { reader with visits := change visit :: visits }
  | _, _ => reader

/-- The place that is shown is where the bookmark is left. -/
def onPause (reader : Reader) : Reader :=
  match reader.isShown, reader.visits with
  | true, visit :: _ => { reader with bookmark := some visit.current, isShown := false }
  | _, _ => { reader with isShown := false }

def apply (bible : Data) (reader : Reader) : Event → Reader
  | .enter target =>
    { reader.onPause with visits := .ofTarget bible reader.bookmark target :: reader.visits, isShown := true }
  | .onPause => reader.onPause
  | .onResume => { reader with isShown := !reader.visits.isEmpty }
  | .exit => { reader.onPause with visits := reader.visits.tail }
  | .onBibleEntryClick biblePartId bibleBookId =>
    reader.withVisit fun visit => ((bible.entryPlace biblePartId bibleBookId).map visit.goTo).getD visit
  | .onSearchClick => reader.withVisit Visit.onSearchClick
  | .search query => reader.withVisit (.editSearch fun _ sort => .search query sort)
  | .setSort sort => reader.withVisit (.editSearch fun query _ => .search query sort)
  | .onPageSelected position =>
    reader.withVisit fun visit => { visit with current := (bible.turnTo position visit.current).getD visit.current }
  | .popBackStack => reader.withVisit Visit.goBack

def run (bible : Data) (reader : Reader) (events : List Event) : Reader := events.foldl (apply bible) reader

def start : Reader := ⟨none, [], false⟩

end Reader

/-! ## Well-formed data, and places that exist -/

/-- What the list of the books and the database have in common: there are parts, references of books and chapters are
made of letters and digits, a listed book has chapters, and the chapter of an entry is one of them. -/
structure WellFormed (bible : Data) : Prop where
  nonempty : bible.mParts ≠ []
  plain : ∀ part ∈ bible.mParts, '%' ∉ part.partRef
  bookRef : ∀ part ∈ bible.mParts, ∀ entry ∈ part.bibleBookEntries, ∀ bookRef, entry.bookRef = some bookRef →
    ∃ ref : Ref, ref.text = bookRef
  chapters : ∀ part ∈ bible.mParts, ∀ entry ∈ part.bibleBookEntries, ∀ bookRef, entry.bookRef = some bookRef →
    bible.getBookChapters bookRef ≠ [] ∧ (∀ chapterRef, entry.chapterRef = some chapterRef →
      chapterRef ∈ bible.getBookChapters bookRef) ∧ ∀ chapter ∈ bible.getBookChapters bookRef, ∃ ref : Ref, ref.text = chapter

/-- The book is in the list. -/
def Data.Lists (bible : Data) (bookRef : Text) : Prop :=
  ∃ part ∈ bible.mParts, ∃ entry ∈ part.bibleBookEntries, entry.bookRef = some bookRef

/-- A part of the menu, a search, or a chapter of a listed book with texts that need no encoding. -/
def Place.Exists (bible : Data) : Place → Prop
  | .menu partRef => ∃ part ∈ bible.mParts, part.partRef = partRef
  | .search _ _ => True
  | .chapter bookRef chapterRef query reference =>
    bible.Lists bookRef ∧ chapterRef ∈ bible.getBookChapters bookRef ∧ (∀ text, query = some text → Transparent text) ∧
      ∀ text, reference = some text → Transparent text

/-- The page shows the place. -/
inductive Shows (bible : Data) : Place → Page → Prop where
  | menu {currentItem : Nat} {part : MenuPart} (here : bible.mParts[currentItem]? = some part) :
      Shows bible (.menu part.partRef) (.menu currentItem)
  | search (query : Text) (sort : SearchSort) : Shows bible (.search query sort) (.search query sort)
  | chapter {bookRef chapterRef : Text} {query reference : Option Text} {currentItem : Nat}
      (listed : bible.Lists bookRef) (here : (bible.getBookChapters bookRef)[currentItem]? = some chapterRef)
      (transparent : ∀ text, query = some text → Transparent text)
      (referenceTransparent : ∀ text, reference = some text → Transparent text) :
      Shows bible (.chapter bookRef chapterRef query reference) (.book bookRef query reference currentItem)

theorem Shows.exists {bible : Data} {place : Place} {page : Page} (shows : Shows bible place page) :
    place.Exists bible := by
  cases shows with
  | menu here => exact ⟨_, List.mem_of_getElem? here, rfl⟩
  | search query sort => trivial
  | chapter listed here transparent referenceTransparent =>
    exact ⟨listed, List.mem_of_getElem? here, transparent, referenceTransparent⟩

/-! ## Addresses of places -/

/-- The address that a page writes is the one of its place. -/
theorem Shows.getRoute {bible : Data} {place : Place} {page : Page} (shows : Shows bible place page) :
    ∃ route, LastPage.getRoute bible page = some route ∧ getUri route = place.address := by
  cases shows with
  | menu here => exact ⟨_, by rw [LastPage.getRoute, here, Option.map_some], rfl⟩
  | search query sort => exact ⟨_, rfl, rfl⟩
  | @chapter bookRef chapterRef query reference currentItem listed here transparent referenceTransparent =>
    obtain ⟨bound, -⟩ := List.getElem?_eq_some_iff.mp here
    have inside : (min (currentItem : Int) ((bible.getBookChapters bookRef).length - 1)).toNat = currentItem := by omega
    have route : chapterRoute bookRef (bible.getBookChapters bookRef) currentItem = '/' :: bookRef ++ '/' :: chapterRef := by
      rw [chapterRoute, inside, here]
    exact ⟨_, rfl, by rw [route, Place.address]⟩

def Place.path : Place → Text
  | .menu _ => "/bible".toList
  | .search _ _ => "/search".toList
  | .chapter bookRef chapterRef _ _ => "/bible/".toList ++ (bookRef ++ '/' :: chapterRef)

/-- A page of the website without parameters. -/
def websitePage (path : Text) (fragment : Option Text) : Text :=
  Uri.page "https".toList "www.aelf.org".toList path fragment

theorem address_menu (partRef : Text) : (Place.menu partRef).address = websitePage "/bible".toList (some partRef) := by
  delta Place.address getUri websitePage Uri.page Uri.fragmentSuffix
  simp

theorem address_chapter (bookRef chapterRef : Text) :
    (Place.chapter bookRef chapterRef none none).address =
      websitePage ("/bible/".toList ++ (bookRef ++ '/' :: chapterRef)) none := by
  delta Place.address getUri bookRoute websitePage Uri.page Uri.fragmentSuffix
  simp

theorem address_reference (bookRef chapterRef reference : Text) :
    (Place.chapter bookRef chapterRef none (some reference)).address =
      websiteLink ("/bible/".toList ++ (bookRef ++ '/' :: chapterRef)) "reference".toList reference := by
  delta Place.address getUri bookRoute websiteLink Uri.link
  simp

theorem decode_plainPath {path : Text} (plain : PlainPath path) : UriCodec.decode false path = path :=
  PercentCoding.decodesEscapesOnly false path (plain.not_mem (by decide) (by decide)) (plain.not_mem (by decide) (by decide))

theorem getPath_websitePage {path : Text} (plain : PlainPath ('/' :: path)) (fragment : Option Text) :
    Uri.getPath (websitePage ('/' :: path) fragment) = some ('/' :: path) := by
  have inPath : ∀ c ∈ path, Uri.endsPath c = false := fun c member => plain.endsPath c (by simp [member])
  rw [websitePage, Uri.getPath_page website_scheme website_authority inPath, decode_plainPath plain]

/-- A page without a question mark has no parameters. -/
theorem getQueryParameter_websitePage {path : Text} (plain : PlainPath path) (key : Text) :
    Uri.getQueryParameter (websitePage path none) key = .ok none := by
  have hierarchical : Uri.hierarchicalPart (websitePage path none) =
      some ('/' :: '/' :: ("www.aelf.org".toList ++ (path ++ []))) := by
    rw [Uri.hierarchicalPart, websitePage, Uri.page, Uri.dropWhile_ne website_scheme]
    rfl
  have noQuery : Uri.getEncodedQuery ('/' :: '/' :: ("www.aelf.org".toList ++ (path ++ []))) = none := by
    have absent : '?' ∉ '/' :: '/' :: ("www.aelf.org".toList ++ (path ++ [])) := by
      have inPath := plain.not_mem (c := '?') (by decide) (by decide)
      simp [inPath]
    have nothing : ∀ text : Text, '?' ∉ text → (text.takeWhile (· ≠ '#')).dropWhile (· ≠ '?') = [] := by
      intro text absent
      rw [List.dropWhile_eq_nil_iff]
      intro c member
      simpa using fun same : c = '?' => absent (same ▸ (List.takeWhile_sublist _).subset member)
    rw [Uri.getEncodedQuery, nothing _ absent]
  rw [Uri.getQueryParameter, hierarchical]
  simp only [noQuery, Option.bind_none]

section Addresses

variable {bible : Data} (wellFormed : WellFormed bible)
include wellFormed

theorem exists_refs {bookRef chapterRef : Text} (listed : bible.Lists bookRef)
    (inBook : chapterRef ∈ bible.getBookChapters bookRef) :
    ∃ book chapter : Ref, book.text = bookRef ∧ chapter.text = chapterRef := by
  obtain ⟨part, isPart, entry, isEntry, isBook⟩ := listed
  obtain ⟨book, sameBook⟩ := wellFormed.bookRef part isPart entry isEntry bookRef isBook
  obtain ⟨chapter, sameChapter⟩ := (wellFormed.chapters part isPart entry isEntry bookRef isBook).2.2 chapterRef inBook
  exact ⟨book, chapter, sameBook, sameChapter⟩

theorem getPath_address {place : Place} (exist : place.Exists bible) :
    Uri.getPath place.address = some place.path := by
  cases place with
  | menu partRef =>
    have plain : PlainPath "/bible".toList := by simp [PlainPath]
    rw [address_menu]
    exact getPath_websitePage plain (some partRef)
  | search query sort =>
    rw [Place.address, getUri_searchRoute]
    exact getPath_websiteLink plainPath_search rfl _ _
  | chapter bookRef chapterRef query reference =>
    obtain ⟨listed, inBook, -, -⟩ := exist
    obtain ⟨book, chapter, rfl, rfl⟩ := exists_refs wellFormed listed inBook
    have plain := plainPath_chapter book chapter
    cases query with
    | none =>
      cases reference with
      | none =>
        rw [address_chapter]
        exact getPath_websitePage plain none
      | some reference =>
        rw [address_reference]
        exact getPath_websiteLink plain rfl _ _
    | some query =>
      cases reference with
      | none =>
        rw [Place.address, getUri_bookRoute]
        exact getPath_websiteLink plain rfl _ _
      | some reference =>
        rw [Place.address, getUri_bookRoute_reference]
        exact getPath_websiteLink plain rfl _ _

/-- The address of a chapter gives its texts back. -/
theorem address_chapter_reads {bookRef chapterRef : Text} {query reference : Option Text}
    (exist : (Place.chapter bookRef chapterRef query reference).Exists bible) :
    Uri.getQueryParameter (Place.chapter bookRef chapterRef query reference).address "query".toList = .ok query ∧
      Uri.getQueryParameter (Place.chapter bookRef chapterRef query reference).address "reference".toList =
        .ok reference := by
  obtain ⟨listed, inBook, transparent, referenceTransparent⟩ := exist
  obtain ⟨book, chapter, rfl, rfl⟩ := exists_refs wellFormed listed inBook
  have plain := plainPath_chapter book chapter
  -- A parameter that stands alone leaves the other one out.
  have alone {key value : Text} (plainKey : Uri.PlainKey key) (isTransparent : Transparent value) (wanted : Text) :
      Uri.getQueryParameter (websiteLink ("/bible/".toList ++ (book.text ++ '/' :: chapter.text)) key value) wanted =
        .ok (if wanted = key then some value else none) := by
    obtain ⟨noSeparator, noFragment, noPlus, noEscape⟩ := isTransparent
    obtain ⟨noEquals, noKeySeparator, noKeyFragment⟩ := plainKey
    exact Uri.getQueryParameter_link PercentCoding.decodesEscapesOnly website_scheme website_authority plain.endsPath
      (by simp [noFragment, noKeyFragment]) (by simp [noSeparator, noKeySeparator]) noEquals noEscape noPlus wanted
  cases query with
  | none =>
    cases reference with
    | none =>
      rw [address_chapter]
      exact ⟨getQueryParameter_websitePage plain _, getQueryParameter_websitePage plain _⟩
    | some reference =>
      rw [address_reference]
      have isTransparent := referenceTransparent reference rfl
      refine ⟨(alone plainKeys.2.1 isTransparent _).trans ?_, (alone plainKeys.2.1 isTransparent _).trans ?_⟩
      · rw [if_neg (by decide)]
      · rw [if_pos rfl]
  | some query =>
    have isTransparent := transparent query rfl
    cases reference with
    | none =>
      rw [Place.address, getUri_bookRoute]
      refine ⟨(alone plainKeys.1 isTransparent _).trans ?_, (alone plainKeys.1 isTransparent _).trans ?_⟩
      · rw [if_pos rfl]
      · rw [if_neg (by decide)]
    | some reference =>
      rw [Place.address, getUri_bookRoute_reference]
      exact ⟨(first_of_two_iff plain plainKeys.1 query _).mpr isTransparent,
        (second_of_two_iff plain plainKeys.1 plainKeys.2.1 (by decide) isTransparent reference).mpr
          (referenceTransparent reference rfl)⟩

end Addresses

/-! ## Opening an address -/

section Opening

variable {bible : Data}

theorem setCurrentItem_of_lt {count item : Nat} (inside : item < count) : setCurrentItem count item = item := by
  unfold setCurrentItem
  omega

/-- A fragment of a listed book shows the chapter that it was started for. -/
theorem createView_book {fragment : BibleBookFragment} {part : MenuPart} {entry : MenuEntry} {bookRef chapterRef : Text}
    {index : Nat} (atPart : bible.mParts[fragment.biblePartId]? = some part)
    (atEntry : part.bibleBookEntries[fragment.bibleBookId]? = some entry) (isBook : entry.bookRef = some bookRef)
    (chosen : fragment.bibleChapterId = (index : Int) ∨
      fragment.bibleChapterId < 0 ∧ entry.getChapterRefPosition bible.getBookChapters = some index)
    (here : (bible.getBookChapters bookRef)[index]? = some chapterRef)
    (transparent : ∀ text, fragment.query = some text → Transparent text)
    (referenceTransparent : ∀ text, fragment.reference = some text → Transparent text) :
    ∃ page, createView bible (.book fragment) = some page ∧
      Shows bible (.chapter bookRef chapterRef fragment.query fragment.reference) page := by
  have listed : bible.Lists bookRef :=
    ⟨part, List.mem_of_getElem? atPart, entry, List.mem_of_getElem? atEntry, isBook⟩
  obtain ⟨inside, -⟩ := List.getElem?_eq_some_iff.mp here
  refine ⟨.book bookRef fragment.query fragment.reference index, ?_, .chapter listed here transparent
    referenceTransparent⟩
  have position : entry.startPosition bible.getBookChapters fragment.bibleChapterId = some (index : Int) := by
    rw [MenuEntry.startPosition]
    obtain same | ⟨negative, found⟩ := chosen
    · rw [same, if_neg (by omega)]
    · rw [if_pos negative, found]
      rfl
  simp only [createView, atPart, atEntry, isBook, position, Option.bind_eq_bind, Option.bind_some,
    setCurrentItem_of_lt inside]
  rfl

/-- The parts and the entries that the router counts are those of the menu. -/
theorem exists_menuEntry {biblePartId bibleBookId : Nat} {part : BiblePart} {entry : BibleBookEntry}
    (atPart : bible.parts[biblePartId]? = some part) (atEntry : part.bibleBookEntries[bibleBookId]? = some entry) :
    ∃ menuPart menuEntry, bible.mParts[biblePartId]? = some menuPart ∧
      menuPart.bibleBookEntries[bibleBookId]? = some menuEntry ∧ menuEntry.bookRef = entry.bookRef := by
  rw [Data.parts, List.getElem?_map, Option.map_eq_some_iff] at atPart
  obtain ⟨menuPart, atMenuPart, rfl⟩ := atPart
  rw [List.getElem?_map, Option.map_eq_some_iff] at atEntry
  obtain ⟨menuEntry, atMenuEntry, rfl⟩ := atEntry
  exact ⟨menuPart, menuEntry, atMenuPart, atMenuEntry, rfl⟩

theorem listed_parts {bookRef : Text} (listed : bible.Lists bookRef) :
    ∃ part ∈ bible.parts, ∃ entry ∈ part.bibleBookEntries, entry.bookRef = some bookRef := by
  obtain ⟨part, isPart, entry, isEntry, isBook⟩ := listed
  exact ⟨_, List.mem_map_of_mem isPart, _, List.mem_map_of_mem isEntry, isBook⟩

theorem onLink_menu {uri : Text} (path : Uri.getPath uri = some "/bible".toList) :
    onLink bible.parts bible.getBookChapters (some uri) = .ok (.menu (Uri.getFragment uri)) := by
  simp only [onLink, path, if_true]
  rfl

theorem onLink_search {uri : Text} {query sort : Option Text} (path : Uri.getPath uri = some "/search".toList)
    (queryRead : Uri.getQueryParameter uri "query".toList = .ok query)
    (sortRead : Uri.getQueryParameter uri "sort".toList = .ok sort) :
    onLink bible.parts bible.getBookChapters (some uri) = .ok (.search query sort) := by
  have notMenu : "/search".toList ≠ "/bible".toList := by decide
  simp only [onLink, path, Option.some.injEq, if_neg notMenu, if_true, queryRead, sortRead, bind, Except.bind]
  rfl

theorem onLink_chapter {uri path : Text} {fragment : BibleBookFragment} (isPath : Uri.getPath uri = some path)
    (notMenu : path ≠ "/bible".toList) (notSearch : path ≠ "/search".toList)
    (routed : newInstance bible.parts bible.getBookChapters uri = .ok (some fragment)) :
    onLink bible.parts bible.getBookChapters (some uri) = .ok (.book fragment) := by
  simp only [onLink, isPath, Option.some.injEq, if_neg notMenu, if_neg notSearch, routed, bind, Except.bind]
  rfl

theorem chapter_ne_menu (bookRef chapterRef : Text) :
    "/bible/".toList ++ (bookRef ++ '/' :: chapterRef) ≠ "/bible".toList := by
  intro same
  have lengths := congrArg List.length same
  simp at lengths

/-- The link to a place opens it. -/
def Opens (bible : Data) (uri : Option Text) (place : Place) : Prop :=
  ∃ fragment page, onLink bible.parts bible.getBookChapters uri = .ok fragment ∧ createView bible fragment = some page ∧
    Shows bible place page

variable (wellFormed : WellFormed bible)
include wellFormed

theorem createView_frontPage :
    ∃ page, createView bible (.menu none) = some page ∧ Shows bible bible.frontPage page := by
  obtain ⟨part, parts, isFirst⟩ := List.exists_cons_of_ne_nil wellFormed.nonempty
  have noPart : bible.partPosition none = 0 := by
    have absent : ¬∃ candidate ∈ bible.mParts, decide (some candidate.partRef = none) = true := by simp
    rw [Data.partPosition, locate_absent absent]
    rfl
  have here : bible.mParts[0]? = some part := by rw [isFirst, List.getElem?_cons_zero]
  have inside : 0 < bible.mParts.length := by simp [isFirst]
  have first : bible.frontPage = .menu part.partRef := by rw [Data.frontPage, isFirst]; rfl
  refine ⟨.menu 0, ?_, first ▸ .menu here⟩
  rw [createView, noPart, setCurrentItem_of_lt inside]

theorem opens_menu {partRef : Text} (exist : (Place.menu partRef).Exists bible) :
    Opens bible (some (Place.menu partRef).address) (.menu partRef) := by
  have path := getPath_address wellFormed exist
  obtain ⟨part, isPart, rfl⟩ := exist
  have wanted : ∃ candidate ∈ bible.mParts, decide (some candidate.partRef = some part.partRef) = true :=
    ⟨part, isPart, by simp⟩
  obtain ⟨index, candidate, located, atIndex, found⟩ := locate_found wanted 0
  have sameRef : candidate.partRef = part.partRef := Option.some.inj (of_decide_eq_true found)
  obtain ⟨inside, -⟩ := List.getElem?_eq_some_iff.mp atIndex
  have fragment : Uri.getFragment (Place.menu part.partRef).address = some part.partRef := by
    have plain : ∀ c ∈ "bible".toList, Uri.endsPath c = false := by simp [Uri.endsPath]
    have decoded : UriCodec.decode false part.partRef = part.partRef :=
      (PercentCoding.decode_eq_self_iff false part.partRef).mpr ⟨wellFormed.plain part isPart, by simp⟩
    rw [address_menu]
    exact (Uri.getFragment_page website_scheme website_authority plain).trans (congrArg some decoded)
  refine ⟨.menu (some part.partRef), .menu index, ?_, ?_, sameRef ▸ .menu atIndex⟩
  · rw [onLink_menu path, fragment]
  · have position : bible.partPosition (some part.partRef) = index := by
      rw [Data.partPosition, located, Nat.zero_add]
      rfl
    rw [createView, position, setCurrentItem_of_lt inside]

omit wellFormed in
theorem valueOf_name (sort : SearchSort) : SearchSort.valueOf (some sort.name) = sort := by
  cases sort <;> decide

theorem opens_search (query : Text) (sort : SearchSort) :
    Opens bible (some (Place.search query sort).address) (.search query sort) := by
  have exist : (Place.search query sort).Exists bible := trivial
  have path := getPath_address wellFormed exist
  have queryRead : Uri.getQueryParameter (Place.search query sort).address "query".toList = .ok (some query) :=
    searchRoute_reads query sort
  have sortRead : Uri.getQueryParameter (Place.search query sort).address "sort".toList = .ok (some sort.name) := by
    rw [Place.address, getUri_searchRoute, websiteLink, Uri.getQueryParameter_second website_scheme website_authority
      plainPath_search.endsPath plainKeys.1 plainKeys.2.2 (by decide)
      (PercentCoding.not_mem_encode '&' (by decide) (by decide) query)
      (PercentCoding.not_mem_encode '#' (by decide) (by decide) query)]
    exact congrArg (fun read => Except.ok (some read)) (PercentCoding.decode_readableValue_encode sort.name)
  refine ⟨.search (some query) (some sort.name), .search query sort, onLink_search path queryRead sortRead, ?_,
    .search query sort⟩
  rw [createView, valueOf_name, Option.getD_some]

theorem opens_chapter {bookRef chapterRef : Text} {query reference : Option Text}
    (exist : (Place.chapter bookRef chapterRef query reference).Exists bible) :
    Opens bible (some (Place.chapter bookRef chapterRef query reference).address)
      (.chapter bookRef chapterRef query reference) := by
  have path := getPath_address wellFormed exist
  obtain ⟨queryRead, referenceRead⟩ := address_chapter_reads wellFormed exist
  obtain ⟨listed, inBook, transparent, referenceTransparent⟩ := exist
  obtain ⟨book, chapter, rfl, rfl⟩ := exists_refs wellFormed listed inBook
  obtain ⟨fragment, part, entry, index, routed, atPart, atEntry, isBook, isIndex, here, rfl, rfl⟩ := newInstance_chapter
    (book.not_mem (by decide)) (chapter.not_mem (by decide)) chapter.nonempty path queryRead referenceRead
    (listed_parts listed) inBook
  obtain ⟨menuPart, menuEntry, atMenuPart, atMenuEntry, sameRef⟩ := exists_menuEntry atPart atEntry
  obtain ⟨page, created, shows⟩ := createView_book atMenuPart atMenuEntry (sameRef.trans isBook) (.inl isIndex) here
    transparent referenceTransparent
  have notSearch : "/bible/".toList ++ (book.text ++ '/' :: chapter.text) ≠ "/search".toList := by
    intro same
    simp at same
  exact ⟨.book fragment, page, onLink_chapter path (chapter_ne_menu book.text chapter.text) notSearch routed, created,
    shows⟩

omit wellFormed in
/-- The search box does not encode its text. -/
theorem opens_onSearch {query : Text} (transparent : Transparent query) :
    Opens bible (some (onSearch query)) (.search query .relevance) := by
  obtain ⟨noSeparator, noFragment, noPlus, noEscape⟩ := transparent
  have path : Uri.getPath (onSearch query) = some "/search".toList := by
    rw [onSearch_eq]
    exact getPath_websiteLink plainPath_search rfl _ _
  have read (wanted : Text) : Uri.getQueryParameter (onSearch query) wanted =
      .ok (if wanted = "query".toList then some query else none) := by
    rw [onSearch_eq]
    exact Uri.getQueryParameter_link PercentCoding.decodesEscapesOnly website_scheme website_authority
      plainPath_search.endsPath (by simp [noFragment]) (by simp [noSeparator]) (by decide) noEscape noPlus wanted
  have queryRead := read "query".toList
  have sortRead := read "sort".toList
  rw [if_pos rfl] at queryRead
  rw [if_neg (by decide)] at sortRead
  exact ⟨.search (some query) none, .search query .relevance, onLink_search path queryRead sortRead, rfl,
    .search query .relevance⟩

theorem opens_address {place : Place} (exist : place.Exists bible) : Opens bible (some place.address) place := by
  cases place with
  | menu partRef => exact opens_menu wellFormed exist
  | search query sort => exact opens_search wellFormed query sort
  | chapter bookRef chapterRef query reference => exact opens_chapter wellFormed exist

end Opening

/-! ## The section follows the reader -/

structure Visited (bible : Data) (visit : Visit) (shown : BibleSection) : Prop where
  current : Shows bible visit.current shown.current
  below : List.Forall₂ (Shows bible) visit.below shown.backStack

/-- The preference holds the address of the bookmark. -/
structure Related (bible : Data) (reader : Reader) (state : State) : Prop where
  bookmark : Option.Rel (fun place lastPage => place.Exists bible ∧ lastPage = place.address) reader.bookmark
    state.lastPage
  visits : List.Forall₂ (Visited bible) reader.visits state.sections
  isShown : reader.isShown = state.isShown

/-- Links lead to places that exist and a search needs no encoding, the drawer offers the Bible while it is not shown,
only books can be clicked on, and a pager has the pages that it turns to. -/
def Guard (bible : Data) (reader : Reader) : Event → Prop
  | .enter .home => reader.isShown = false
  | .enter (.link place) => place.Exists bible
  | .enter (.search query) => Transparent query
  | .onBibleEntryClick biblePartId bibleBookId => (bible.entryPlace biblePartId bibleBookId).isSome
  | .onPageSelected position => ∀ visit, reader.visits.head? = some visit → (bible.turnTo position visit.current).isSome
  | _ => True

section Simulation

variable {bible : Data} {reader : Reader} {state : State}

theorem Related.withShown (related : Related bible reader state) {change : Visit → Visit}
    {changeSection : BibleSection → Option BibleSection}
    (simulates : ∀ visit shown, reader.visits.head? = some visit → Visited bible visit shown →
      ∃ next, changeSection shown = some next ∧ Visited bible (change visit) next) :
    ∃ next, state.withShown changeSection = some next ∧ Related bible (reader.withVisit change) next := by
  obtain ⟨bookmark, visits, isShown⟩ := reader
  obtain ⟨lastPage, sections, isShown'⟩ := state
  obtain rfl : isShown = isShown' := related.isShown
  cases isShown with
  | false => exact ⟨_, rfl, related⟩
  | true =>
    cases related.visits with
    | nil => exact ⟨_, rfl, related⟩
    | @cons visit shown visits sections visited rest =>
      obtain ⟨next, changed, kept⟩ := simulates visit shown rfl visited
      refine ⟨⟨lastPage, next :: sections, true⟩, ?_, related.bookmark, .cons kept rest, rfl⟩
      simp only [State.withShown, changed, Option.map_some]

theorem Related.onPause (related : Related bible reader state) :
    ∃ next, state.onPause bible = some next ∧ Related bible reader.onPause next ∧ next.sections = state.sections := by
  obtain ⟨bookmark, visits, isShown⟩ := reader
  obtain ⟨lastPage, sections, isShown'⟩ := state
  obtain rfl : isShown = isShown' := related.isShown
  cases isShown with
  | false => exact ⟨_, rfl, ⟨related.bookmark, related.visits, rfl⟩, rfl⟩
  | true =>
    cases related.visits with
    | nil => exact ⟨_, rfl, ⟨related.bookmark, .nil, rfl⟩, rfl⟩
    | @cons visit shown visits sections visited rest =>
      obtain ⟨route, written, address⟩ := visited.current.getRoute
      refine ⟨⟨some (getUri route), shown :: sections, false⟩, ?_, ⟨?_, .cons visited rest, rfl⟩, rfl⟩
      · simp only [State.onPause, written, Option.bind_eq_bind, Option.bind_some]
        rfl
      · exact .some ⟨visited.current.exists, address⟩

theorem Visited.goTo {visit : Visit} {shown : BibleSection} (visited : Visited bible visit shown) {place : Place}
    {page : Page} (shows : Shows bible place page) :
    Visited bible (visit.goTo place) (BibleSection.setFragment (some shown) page) :=
  ⟨shows, .cons visited.current visited.below⟩

/-- An entry of the menu opens its own chapter. -/
theorem createView_openBook (wellFormed : WellFormed bible) {biblePartId bibleBookId : Nat} {place : Place}
    (entered : bible.entryPlace biblePartId bibleBookId = some place) :
    ∃ page, createView bible (openBook biblePartId bibleBookId) = some page ∧ Shows bible place page := by
  obtain ⟨part, atPart, entered⟩ := Option.bind_eq_some_iff.mp entered
  obtain ⟨entry, atEntry, entered⟩ := Option.bind_eq_some_iff.mp entered
  obtain ⟨bookRef, isBook, entered⟩ := Option.bind_eq_some_iff.mp entered
  obtain ⟨chapterRef, isChapter, entered⟩ := Option.bind_eq_some_iff.mp entered
  obtain rfl := Option.some.inj entered
  obtain ⟨-, inBook, -⟩ := wellFormed.chapters part (List.mem_of_getElem? atPart) entry (List.mem_of_getElem? atEntry)
    bookRef isBook
  have position : ∃ index, entry.getChapterRefPosition bible.getBookChapters = some index ∧
      (bible.getBookChapters bookRef)[index]? = some chapterRef := by
    unfold MenuEntry.getChapterRefPosition
    cases chosen : entry.chapterRef with
    | none =>
      rw [chosen, Option.none_or, List.head?_eq_getElem?] at isChapter
      exact ⟨0, rfl, isChapter⟩
    | some own =>
      rw [chosen, Option.some_or] at isChapter
      obtain rfl := Option.some.inj isChapter
      obtain ⟨index, located, here⟩ := locateChapter_found (inBook own chosen)
      exact ⟨index, by simp only [isBook, Option.bind_some, located], here⟩
  obtain ⟨index, found, here⟩ := position
  have negative : (-1 : Int) < 0 := by decide
  exact createView_book atPart atEntry isBook (.inr ⟨negative, found⟩) here nofun nofun

theorem Visited.openBook (wellFormed : WellFormed bible) {visit : Visit} {shown : BibleSection}
    (visited : Visited bible visit shown) {biblePartId bibleBookId : Nat}
    (isBook : (bible.entryPlace biblePartId bibleBookId).isSome) :
    ∃ next, shown.openFragment bible (LastPage.openBook biblePartId bibleBookId) = some next ∧
      Visited bible (((bible.entryPlace biblePartId bibleBookId).map visit.goTo).getD visit) next := by
  obtain ⟨place, entered⟩ := Option.isSome_iff_exists.mp isBook
  obtain ⟨page, created, shows⟩ := createView_openBook wellFormed entered
  refine ⟨_, by rw [BibleSection.openFragment, created, Option.map_some], ?_⟩
  rw [entered, Option.map_some, Option.getD_some]
  exact visited.goTo shows

theorem transparent_nil : Transparent [] := ⟨nofun, nofun, nofun, nofun⟩

theorem Visited.onSearchClick {visit : Visit} {shown : BibleSection} (visited : Visited bible visit shown) :
    ∃ next, shown.onSearchClick bible = some next ∧ Visited bible visit.onSearchClick next := by
  obtain ⟨fragment, page, routed, created, shows⟩ := (opens_onSearch transparent_nil : Opens bible _ _)
  have opened : (do
      let fragment ← (onLink bible.parts bible.getBookChapters (some (onSearch []))).toOption
      shown.openFragment bible fragment) = some (BibleSection.setFragment (some shown) page) := by
    rw [routed]
    exact congrArg (Option.map (BibleSection.setFragment (some shown))) created
  obtain ⟨current, below⟩ := visit
  obtain ⟨page', backStack⟩ := shown
  cases visited.current with
  | search query sort => exact ⟨_, rfl, visited⟩
  | menu here => exact ⟨_, opened, visited.goTo shows⟩
  | chapter listed here transparent referenceTransparent => exact ⟨_, opened, visited.goTo shows⟩

theorem Visited.search {visit : Visit} {shown : BibleSection} (visited : Visited bible visit shown) (query : Text) :
    Visited bible (visit.editSearch fun _ sort => .search query sort) (shown.search query) := by
  obtain ⟨current, below⟩ := visit
  obtain ⟨page, backStack⟩ := shown
  cases visited.current with
  | search _ sort => exact ⟨.search query sort, visited.below⟩
  | menu here => exact visited
  | chapter listed here transparent referenceTransparent => exact visited

theorem Visited.setSort {visit : Visit} {shown : BibleSection} (visited : Visited bible visit shown)
    (sort : SearchSort) : Visited bible (visit.editSearch fun query _ => .search query sort) (shown.setSort sort) := by
  obtain ⟨current, below⟩ := visit
  obtain ⟨page, backStack⟩ := shown
  cases visited.current with
  | search query _ => exact ⟨.search query sort, visited.below⟩
  | menu here => exact visited
  | chapter listed here transparent referenceTransparent => exact visited

theorem Visited.onPageSelected {visit : Visit} {shown : BibleSection} (visited : Visited bible visit shown)
    {position : Nat} (hasPage : (bible.turnTo position visit.current).isSome) :
    Visited bible { visit with current := (bible.turnTo position visit.current).getD visit.current }
      (shown.onPageSelected position) := by
  obtain ⟨place, turned⟩ := Option.isSome_iff_exists.mp hasPage
  obtain ⟨current, below⟩ := visit
  obtain ⟨page, backStack⟩ := shown
  refine ⟨?_, ?_⟩
  · simp only [turned, Option.getD_some]
    cases visited.current with
    | search query sort =>
      obtain rfl := Option.some.inj turned
      exact .search query sort
    | menu here =>
      obtain ⟨part, atPart, rfl⟩ := Option.map_eq_some_iff.mp turned
      exact .menu atPart
    | chapter listed here transparent referenceTransparent =>
      obtain ⟨chapterRef, atChapter, rfl⟩ := Option.map_eq_some_iff.mp turned
      exact .chapter listed atChapter transparent referenceTransparent
  · cases visited.current <;> exact visited.below

theorem Visited.popBackStack {visit : Visit} {shown : BibleSection} (visited : Visited bible visit shown) :
    Visited bible visit.goBack shown.popBackStack := by
  obtain ⟨current, below⟩ := visit
  obtain ⟨page, backStack⟩ := shown
  cases visited.below with
  | nil => exact visited
  | cons shows rest => exact ⟨shows, rest⟩

/-! ## Entering a section -/

theorem getPath_bibleHome : Uri.getPath bibleHome = some "/bible/home".toList := by decide +kernel

/-- The home page has one slash less than a chapter. -/
theorem chapter_ne_home (bookRef chapterRef : Text) :
    "/bible/".toList ++ (bookRef ++ '/' :: chapterRef) ≠ "/bible/home".toList := by
  intro same
  have slashes := congrArg (List.count '/') same
  have before : List.count '/' "/bible/".toList = 2 := by decide
  have home : List.count '/' "/bible/home".toList = 2 := by decide
  rw [List.count_append, List.count_append, List.count_cons_self, before, home] at slashes
  omega

theorem path_ne_home (place : Place) : place.path ≠ "/bible/home".toList := by
  cases place with
  | menu partRef =>
    show "/bible".toList ≠ "/bible/home".toList
    decide
  | search query sort =>
    show "/search".toList ≠ "/bible/home".toList
    decide
  | chapter bookRef chapterRef query reference => exact chapter_ne_home bookRef chapterRef

/-- A section that is opened with one page shows it. -/
theorem visited_single {place : Place} {page : Page} {fragment : BibleFragment} {lastPage : Option Text}
    {intent : Option Text × Option Text} (started : BibleSection.fragments bible lastPage intent = .ok [fragment])
    (created : createView bible fragment = some page) (shows : Shows bible place page) :
    ∃ shown, BibleSection.onCreateView bible lastPage intent = some shown ∧ Visited bible ⟨place, []⟩ shown := by
  refine ⟨⟨page, []⟩, ?_, shows, .nil⟩
  simp only [BibleSection.onCreateView, started, Except.toOption, BibleSection.start, created, Option.bind_eq_bind,
    Option.bind_some]
  rfl

theorem visited_link (wellFormed : WellFormed bible) {place : Place} (exist : place.Exists bible)
    (lastPage : Option Text) :
    ∃ shown, BibleSection.onCreateView bible lastPage (some place.address, none) = some shown ∧
      Visited bible ⟨place, []⟩ shown := by
  obtain ⟨fragment, page, routed, created, shows⟩ := opens_address wellFormed exist
  refine visited_single ?_ created shows
  have notHome : Uri.getPath place.address ≠ some "/bible/home".toList := by
    rw [getPath_address wellFormed exist]
    exact fun same => path_ne_home place (Option.some.inj same)
  rw [BibleSection.fragments, if_neg notHome, routed]
  rfl

theorem visited_search {query : Text} (transparent : Transparent query) (lastPage : Option Text) :
    ∃ shown, BibleSection.onCreateView bible lastPage (none, some query) = some shown ∧
      Visited bible ⟨.search query .relevance, []⟩ shown := by
  obtain ⟨fragment, page, routed, created, shows⟩ := (opens_onSearch transparent : Opens bible _ _)
  refine visited_single ?_ created shows
  rw [BibleSection.fragments, routed]
  rfl

theorem visited_menu (wellFormed : WellFormed bible) (lastPage : Option Text) :
    ∃ shown, BibleSection.onCreateView bible lastPage (none, none) = some shown ∧
      Visited bible ⟨bible.frontPage, []⟩ shown := by
  obtain ⟨page, created, shows⟩ := createView_frontPage wellFormed
  exact visited_single rfl created shows

theorem fragments_home (lastPage : Option Text) (query : Option Text) :
    BibleSection.fragments bible lastPage (some bibleHome, query) =
      onHome bible.parts bible.getBookChapters lastPage := by
  rw [BibleSection.fragments, if_pos getPath_bibleHome]

theorem onHome_none : onHome bible.parts bible.getBookChapters none = .ok [.menu none] := by
  have path : Uri.getPath "https://www.aelf.org/bible".toList = some "/bible".toList := by decide +kernel
  have fragment : Uri.getFragment "https://www.aelf.org/bible".toList = none := by decide +kernel
  have routed : onLink bible.parts bible.getBookChapters (some "https://www.aelf.org/bible".toList) =
      .ok (.menu none) := by
    rw [onLink_menu path, fragment]
  simp only [onHome, Option.getD_none, routed, path, if_true, bind, Except.bind]
  rfl

theorem onHome_some {lastPage path : Text} {restored : BibleFragment} (isPath : Uri.getPath lastPage = some path)
    (routed : onLink bible.parts bible.getBookChapters (some lastPage) = .ok restored) :
    onHome bible.parts bible.getBookChapters (some lastPage) =
      .ok (if path = "/bible".toList then [restored] else [.menu none, restored]) := by
  simp only [onHome, Option.getD_some, routed, isPath, bind, Except.bind]
  split <;> rfl

/-- The entry of the drawer opens the bookmark, with the menu below it. -/
theorem visited_home (wellFormed : WellFormed bible) {bookmark : Option Place} {lastPage : Option Text}
    (saved : Option.Rel (fun place lastPage => place.Exists bible ∧ lastPage = place.address) bookmark lastPage) :
    ∃ shown, BibleSection.onCreateView bible lastPage (some bibleHome, none) = some shown ∧
      Visited bible (.atBookmark bible bookmark) shown := by
  obtain ⟨front, frontCreated, frontShows⟩ := createView_frontPage wellFormed
  cases saved with
  | none => exact visited_single ((fragments_home none none).trans onHome_none) frontCreated frontShows
  | @some place lastPage isSaved =>
    obtain ⟨exist, rfl⟩ := isSaved
    obtain ⟨fragment, page, routed, created, shows⟩ := opens_address wellFormed exist
    have started := (fragments_home (some place.address) none).trans
      (onHome_some (getPath_address wellFormed exist) routed)
    -- below anything but the menu
    have below (notMenu : place.path ≠ "/bible".toList) :
        ∃ shown, BibleSection.onCreateView bible (some place.address) (some bibleHome, none) = some shown ∧
          Visited bible ⟨place, [bible.frontPage]⟩ shown := by
      rw [if_neg notMenu] at started
      refine ⟨⟨page, [front]⟩, ?_, shows, .cons frontShows .nil⟩
      simp only [BibleSection.onCreateView, started, Except.toOption, BibleSection.start, frontCreated, created,
        Option.bind_eq_bind, Option.bind_some]
      rfl
    cases place with
    | menu partRef =>
      have isMenu : (Place.menu partRef).path = "/bible".toList := rfl
      rw [if_pos isMenu] at started
      exact visited_single started created shows
    | search query sort =>
      have notMenu : "/search".toList ≠ "/bible".toList := by decide
      exact below notMenu
    | chapter bookRef chapterRef query reference =>
      exact below (chapter_ne_menu bookRef chapterRef)

theorem visited_target (wellFormed : WellFormed bible) (related : Related bible reader state) (target : Target)
    (guarded : Guard bible reader (.enter target)) :
    ∃ shown, BibleSection.onCreateView bible state.lastPage target.intent = some shown ∧
      Visited bible (.ofTarget bible reader.bookmark target) shown := by
  cases target with
  | home => exact visited_home wellFormed related.bookmark
  | link place => exact visited_link wellFormed guarded state.lastPage
  | search query => exact visited_search guarded state.lastPage
  | menu => exact visited_menu wellFormed state.lastPage

/-! ## Steps and runs -/

theorem Related.enter (wellFormed : WellFormed bible) (related : Related bible reader state) (target : Target)
    (guarded : Guard bible reader (.enter target)) :
    ∃ next, state.enter bible target = some next ∧ Related bible (reader.apply bible (.enter target)) next := by
  obtain ⟨shown, created, visited⟩ := visited_target wellFormed related target guarded
  obtain ⟨paused, pausing, pausedRelated, sameSections⟩ := related.onPause
  refine ⟨{ paused with sections := shown :: paused.sections, isShown := true }, ?_, pausedRelated.bookmark, ?_, rfl⟩
  · simp only [State.enter, created, pausing, Option.bind_eq_bind, Option.bind_some]
    rfl
  · rw [sameSections]
    exact .cons visited related.visits

theorem forall₂_tail {visits : List Visit} {sections : List BibleSection}
    (visited : List.Forall₂ (Visited bible) visits sections) :
    List.Forall₂ (Visited bible) visits.tail sections.tail := by
  cases visited with
  | nil => exact .nil
  | cons first rest => exact rest

theorem Related.exit (related : Related bible reader state) :
    ∃ next, state.exit bible = some next ∧ Related bible (reader.apply bible .exit) next := by
  obtain ⟨paused, pausing, pausedRelated, sameSections⟩ := related.onPause
  refine ⟨{ paused with sections := paused.sections.tail }, ?_, pausedRelated.bookmark, ?_, pausedRelated.isShown⟩
  · simp only [State.exit, pausing, Option.bind_eq_bind, Option.bind_some]
    rfl
  · rw [sameSections]
    exact forall₂_tail related.visits

theorem Related.onResume (related : Related bible reader state) :
    Related bible { reader with isShown := !reader.visits.isEmpty } { state with isShown := !state.sections.isEmpty } := by
  refine ⟨related.bookmark, related.visits, ?_⟩
  obtain ⟨bookmark, visits, isShown⟩ := reader
  obtain ⟨lastPage, sections, isShown'⟩ := state
  cases related.visits <;> rfl

theorem Related.apply (wellFormed : WellFormed bible) (related : Related bible reader state) {event : Event}
    (guarded : Guard bible reader event) :
    ∃ next, state.apply bible event = some next ∧ Related bible (reader.apply bible event) next := by
  cases event with
  | enter target => exact related.enter wellFormed target guarded
  | onPause =>
    obtain ⟨paused, pausing, pausedRelated, -⟩ := related.onPause
    exact ⟨paused, pausing, pausedRelated⟩
  | onResume => exact ⟨_, rfl, related.onResume⟩
  | exit => exact related.exit
  | onBibleEntryClick biblePartId bibleBookId =>
    exact related.withShown fun visit shown _ visited => visited.openBook wellFormed guarded
  | onSearchClick => exact related.withShown fun visit shown _ visited => visited.onSearchClick
  | search query => exact related.withShown fun visit shown _ visited => ⟨_, rfl, visited.search query⟩
  | setSort sort => exact related.withShown fun visit shown _ visited => ⟨_, rfl, visited.setSort sort⟩
  | onPageSelected position =>
    exact related.withShown fun visit shown isFirst visited =>
      ⟨_, rfl, visited.onPageSelected (guarded visit isFirst)⟩
  | popBackStack => exact related.withShown fun visit shown _ visited => ⟨_, rfl, visited.popBackStack⟩

/-- At a bookmark the menu is below, unless it is the bookmark. -/
theorem visited_atBookmark {place : Place} {shown : BibleSection}
    (visited : Visited bible (.atBookmark bible (some place)) shown) :
    Shows bible place shown.current ∧
      (shown.backStack = [] ∨ ∃ front, shown.backStack = [front] ∧ Shows bible bible.frontPage front) := by
  have overMenu {backStack : List Page} (lower : List.Forall₂ (Shows bible) [bible.frontPage] backStack) :
      ∃ front, backStack = [front] ∧ Shows bible bible.frontPage front := by
    cases lower with
    | cons front nothing =>
      cases nothing
      exact ⟨_, rfl, front⟩
  obtain ⟨page, backStack⟩ := shown
  obtain ⟨current, lower⟩ := visited
  cases place with
  | menu partRef =>
    refine ⟨current, .inl ?_⟩
    cases lower
    rfl
  | search query sort => exact ⟨current, .inr (overMenu lower)⟩
  | chapter bookRef chapterRef query reference => exact ⟨current, .inr (overMenu lower)⟩

/-- Left and opened again, a section shows the place that it showed. -/
theorem Related.reopen (wellFormed : WellFormed bible) (related : Related bible reader state)
    (isShown : state.isShown = true) {shown : BibleSection} (onScreen : state.sections.head? = some shown) :
    ∃ paused after reopened place, state.onPause bible = some paused ∧ paused.enter bible .home = some after ∧
      after.sections.head? = some reopened ∧ Shows bible place shown.current ∧ Shows bible place reopened.current ∧
      (reopened.backStack = [] ∨ ∃ front, reopened.backStack = [front] ∧ Shows bible bible.frontPage front) := by
  obtain ⟨paused, pausing, pausedRelated, -⟩ := related.onPause
  obtain ⟨bookmark, visits, readerShown⟩ := reader
  obtain ⟨lastPage, sections, stateShown⟩ := state
  obtain rfl : stateShown = true := isShown
  obtain rfl : readerShown = true := related.isShown
  cases related.visits with
  | nil => cases onScreen
  | @cons visit first visits sections visited rest =>
    obtain rfl : first = shown := Option.some.inj onScreen
    have guarded : Guard bible (Reader.onPause ⟨bookmark, visit :: visits, true⟩) (.enter .home) := rfl
    obtain ⟨after, entered, afterRelated⟩ := pausedRelated.enter wellFormed .home guarded
    have reopenedVisits := afterRelated.visits
    cases after with
    | mk lastPage' sections' isShown' =>
      cases reopenedVisits with
      | @cons _ reopened _ sections' reopenedVisited _ =>
        exact ⟨paused, _, reopened, visit.current, pausing, entered, rfl, visited.current,
          visited_atBookmark reopenedVisited⟩

theorem related_start : Related bible .start .start := ⟨.none, .nil, rfl⟩

/-- Whatever a reader opens, turns, searches, leaves and comes back to, nothing is thrown, and the pages and the
preference are where the reader and the bookmark are. -/
theorem section_follows_reader (wellFormed : WellFormed bible) {events : List Event}
    (allowed : Runs.Allowed (Reader.apply bible) (Guard bible) .start events) :
    ∃ final, State.start.run bible events = some final ∧ Related bible (Reader.start.run bible events) final :=
  Runs.simulation_foldlM (State.apply bible) (Reader.apply bible) (Related bible)
    (fun _ _ _ guarded related => related.apply wellFormed guarded) allowed related_start

/-- A reader who leaves the Bible at any time comes back to the place that was left, through an address in the
preferences: to the same part of the menu, the same search, or the same chapter with the same texts, and finds the
menu below it. -/
theorem reopens_where_left (wellFormed : WellFormed bible) {events : List Event}
    (allowed : Runs.Allowed (Reader.apply bible) (Guard bible) .start events) {before : State}
    (ran : State.start.run bible events = some before) (isShown : before.isShown = true) {shown : BibleSection}
    (onScreen : before.sections.head? = some shown) :
    ∃ after reopened place, State.start.run bible (events ++ [.onPause, .enter .home]) = some after ∧
      after.sections.head? = some reopened ∧ Shows bible place shown.current ∧ Shows bible place reopened.current ∧
      (reopened.backStack = [] ∨ ∃ front, reopened.backStack = [front] ∧ Shows bible bible.frontPage front) := by
  obtain ⟨final, same, related⟩ := Runs.simulation_foldlM (State.apply bible) (Reader.apply bible) (Related bible)
    (fun _ _ _ guarded related => related.apply wellFormed guarded) allowed related_start
  obtain rfl := Option.some.inj (same.symm.trans ran)
  obtain ⟨paused, after, reopened, place, pausing, entered, isFirst, shows, reopenedShows, below⟩ :=
    related.reopen wellFormed isShown onScreen
  refine ⟨after, reopened, place, ?_, isFirst, shows, reopenedShows, below⟩
  rw [State.run, List.foldlM_append, same]
  simp only [List.foldlM_cons, List.foldlM_nil, State.apply, pausing, entered, Option.bind_eq_bind, Option.bind_some]
  rfl

end Simulation

namespace Psalm9

def bible : Data where
  mParts := [⟨"ancien".toList, [⟨none, none⟩, ⟨some "Gn".toList, none⟩]⟩,
    ⟨"psaumes".toList, [⟨some "Ps".toList, some "9A".toList⟩, ⟨some "Ps".toList, some "9B".toList⟩]⟩]
  getBookChapters := fun bookRef => if bookRef = "Ps".toList then ["8".toList, "9A".toList, "9B".toList] else ["1".toList]

theorem entries {part : MenuPart} (isPart : part ∈ bible.mParts) {entry : MenuEntry}
    (isEntry : entry ∈ part.bibleBookEntries) {bookRef : Text} (isBook : entry.bookRef = some bookRef) :
    bookRef = "Gn".toList ∧ entry.chapterRef = none ∨
      bookRef = "Ps".toList ∧ (entry.chapterRef = some "9A".toList ∨ entry.chapterRef = some "9B".toList) := by
  simp only [bible, List.mem_cons, List.not_mem_nil, or_false] at isPart
  obtain rfl | rfl := isPart
  · simp only [List.mem_cons, List.not_mem_nil, or_false] at isEntry
    obtain rfl | rfl := isEntry
    · cases isBook
    · exact .inl ⟨(Option.some.inj isBook).symm, rfl⟩
  · simp only [List.mem_cons, List.not_mem_nil, or_false] at isEntry
    obtain rfl | rfl := isEntry
    · exact .inr ⟨(Option.some.inj isBook).symm, .inl rfl⟩
    · exact .inr ⟨(Option.some.inj isBook).symm, .inr rfl⟩

theorem wellFormed : WellFormed bible where
  nonempty := by simp [bible]
  plain := by simp [bible]
  bookRef := by
    intro part isPart entry isEntry bookRef isBook
    obtain ⟨rfl, -⟩ | ⟨rfl, -⟩ := entries isPart isEntry isBook
    · exact ⟨⟨"Gn".toList, by simp, by decide⟩, rfl⟩
    · exact ⟨⟨"Ps".toList, by simp, by decide⟩, rfl⟩
  chapters := by
    intro part isPart entry isEntry bookRef isBook
    have chapter (text : Text) (isChapter : text ∈ ["1".toList, "8".toList, "9A".toList, "9B".toList]) :
        ∃ ref : Ref, ref.text = text := by
      have each : ["1".toList, "8".toList, "9A".toList, "9B".toList].all
          (fun text => !text.isEmpty && text.all Char.isAlphanum) = true := by decide +kernel
      obtain ⟨nonempty, alphanumeric⟩ := Bool.and_eq_true_iff.mp (List.all_eq_true.mp each text isChapter)
      exact ⟨⟨text, List.all_eq_true.mp alphanumeric, by simpa using nonempty⟩, rfl⟩
    obtain ⟨rfl, whole⟩ | ⟨rfl, half⟩ := entries isPart isEntry isBook
    · have chapters : bible.getBookChapters "Gn".toList = ["1".toList] := by decide +kernel
      rw [chapters, whole]
      exact ⟨by simp, nofun, fun text isChapter => chapter text (by simp_all)⟩
    · have chapters : bible.getBookChapters "Ps".toList = ["8".toList, "9A".toList, "9B".toList] := by decide +kernel
      rw [chapters]
      refine ⟨by simp, fun text isHalf => ?_, fun text isChapter => chapter text (List.mem_cons_of_mem _ isChapter)⟩
      obtain first | second := half
      · obtain rfl := Option.some.inj (first.symm.trans isHalf)
        decide +kernel
      · obtain rfl := Option.some.inj (second.symm.trans isHalf)
        decide +kernel

/-- The menu is opened, the psalms are turned to, and the second half of psalm 9 is clicked on. -/
def events : List Event := [.enter .menu, .onPageSelected 1, .onBibleEntryClick 1 1]

theorem allowed : Runs.Allowed (Reader.apply bible) (Guard bible) .start events := by
  refine ⟨trivial, ?_, ?_, trivial⟩
  · intro visit isFirst
    obtain rfl := Option.some.inj isFirst
    decide +kernel
  · show (bible.entryPlace 1 1).isSome = true
    decide +kernel

theorem psalm_shown :
    ∃ final, State.start.run bible events = some final ∧ Related bible (Reader.start.run bible events) final :=
  section_follows_reader wellFormed allowed

theorem psalm_reopened :
    ∃ after reopened place, State.start.run bible (events ++ [.onPause, .enter .home]) = some after ∧
      after.sections.head? = some reopened ∧ Shows bible place (.book "Ps".toList none none 2) ∧
      Shows bible place reopened.current ∧
      (reopened.backStack = [] ∨ ∃ front, reopened.backStack = [front] ∧ Shows bible bible.frontPage front) := by
  have ran : State.start.run bible events =
      some ⟨none, [⟨.book "Ps".toList none none 2, [.menu 1]⟩], true⟩ := by rfl
  exact reopens_where_left wellFormed allowed ran rfl rfl

end Psalm9

end Aelf.Bible.LastPage
