import Aelf.Lectures.DateLabels
import Aelf.Lectures.IntentUri
import Aelf.Library.Runs

/-! # Moving between the sections

The activity shows one section at a time, the lectures of an office or the Bible, and
keeps the sections that were left on a back stack.  The drawer and the calendar write the
address of an office and open it like any other link; the drawer takes the day from
`defaultDate`, which every load of an office sets. -/

namespace Aelf.Lectures.Navigation

open Aelf.Library
open Aelf.Library.Calendar (Date Moment)
open Aelf.Bible (splitPath)

/-! ## The sections -/

/-- The fields of `SectionLecturesFragment` that say what it shows, and the slide its pager is at. -/
structure LecturesSection where
  whatwhen : WhatWhen
  position : Int
  currentItem : Int

/-- A section; the Bible has a back stack of its own. -/
inductive SectionFragment where
  | lectures (fragment : LecturesSection)
  | bible (backStackEntryCount : Nat)

structure State where
  current : Option SectionFragment
  backStack : List SectionFragment
  defaultDate : Option AelfDate

/-- Why the activity does not go on: an exception, or there is nothing left to go back to. -/
inductive Halt where
  | exception (exception : JavaException)
  | finished
deriving DecidableEq, Repr

def throwing {α : Type} : Except JavaException α → Except Halt α
  | .ok value => .ok value
  | .error exception => .error (.exception exception)

/-- The activity ends when there is nothing to go back to. -/
def orFinish {α : Type} : Option α → Except Halt α
  | some value => .ok value
  | none => .error .finished

/-- The entries of the drawer. -/
inductive MenuItem where
  | office (what : OfficeTypes)
  | bible
  | other

inductive Event where
  /-- The activity starts without a link. -/
  | onCreate (onlyMass : Bool) (now : Moment)
  /-- A link, from a page or from another application. -/
  | onIntent (uri : Text) (now : Moment)
  | onSearch
  | onNavigationItemSelected (item : MenuItem) (isChecked : Bool) (now : Moment)
  | onCalendarDialogPicked (date : Date) (now : Moment)
  /-- The pager goes to another slide. -/
  | onPageSelected (position : Int)
  | onRefresh
  /-- The Bible moves on to another of its pages. -/
  | setBibleFragment
  | onBackPressed

/-! ## The fragment of the lectures -/

namespace LecturesSection

/-- `onCreateView` for an address, or without one for the office of the hour; the pager has no slide yet. -/
def onCreateView [Locale] (uri : Option Text) (onlyMass : Bool) (now : Moment) :
    Except JavaException LecturesSection := do
  match uri with
  | some uri =>
    let shown ← parseIntentUri now uri
    return ⟨shown.whatwhen, shown.position, 0⟩
  | none =>
    let whatwhen : WhatWhen := ⟨none, some ⟨now⟩, none⟩
    if onlyMass then return ⟨{ whatwhen with what := some .messe }, 0, 0⟩
    else return ⟨← computeCurrentOffice true whatwhen, 0, 0⟩

def onPause (fragment : LecturesSection) : LecturesSection :=
  { fragment with whatwhen := { fragment.whatwhen with anchor := none }, position := fragment.currentItem }

/-- The view is created again, with the fields that the fragment has kept. -/
def onBack (fragment : LecturesSection) : LecturesSection := { fragment with currentItem := 0 }

end LecturesSection

namespace SectionFragment

def onPause : SectionFragment → SectionFragment
  | lectures fragment => lectures fragment.onPause
  | bible backStackEntryCount => bible backStackEntryCount

def onBack : SectionFragment → SectionFragment
  | lectures fragment => lectures fragment.onBack
  | bible backStackEntryCount => bible backStackEntryCount

end SectionFragment

/-! ## The activity -/

namespace State

/-- The first section replaces nothing. -/
def replaceSection (state : State) (fragment : SectionFragment) : State :=
  match state.current with
  | none => { state with current := some fragment }
  | some current =>
    { state with current := some fragment, backStack := current.onPause :: state.backStack }

/-- `loadLecture` makes the date of the fragment the default one. -/
def loadLecture (state : State) (fragment : LecturesSection) : State :=
  { state with defaultDate := fragment.whatwhen.when }

def setSection [Locale] (state : State) (uri : Option Text) (onlyMass : Bool) (now : Moment) :
    Section → Except Halt State
  | .bible => return state.replaceSection (.bible 0)
  | .lectures => do
    let fragment ← throwing (LecturesSection.onCreateView uri onlyMass now)
    return (state.replaceSection (.lectures fragment)).loadLecture fragment

def onRefresh (state : State) : Except Halt State :=
  match state.current with
  | none => .error (.exception .runtimeException)
  | some (.bible _) => .ok state
  | some (.lectures fragment) =>
    let fragment := fragment.onPause
    .ok ({ state with current := some (.lectures fragment) }.loadLecture fragment)

/-- What `onLink` decides. -/
def act [Locale] (uri : Text) (now : Moment) (state : State) : Action → Except Halt State
  | .setSection shown => state.setSection (some uri) false now shown
  | .onRefresh _ => state.onRefresh
  | .onApplyOptimalSyncSettings => state.onRefresh

def onIntent [Locale] (state : State) (uri : Text) (now : Moment) : Except Halt State :=
  (onLink uri).foldlM (act uri now) state

def bibleHome : Text := "https://www.aelf.org/bible/home".toList

def onNavigationItemSelected [Locale] (state : State) (item : MenuItem) (isChecked : Bool) (now : Moment) :
    Except Halt State := do
  if isChecked then return state
  match item with
  | .office what =>
    let defaultDate ← throwing (deref state.defaultDate)
    state.onIntent (buildUri what defaultDate "romain".toList none) now
  | .bible => state.onIntent bibleHome now
  | .other => return state

/-- The dialog of the calendar belongs to the lectures. -/
def onCalendarDialogPicked [Locale] (state : State) (date : Date) (now : Moment) : Except Halt State := do
  match state.current with
  | some (.lectures fragment) =>
    let when ← throwing (deref fragment.whatwhen.when)
    if when.isSameDay (.ofDay date) then return state
    let what ← throwing (deref fragment.whatwhen.what)
    state.onIntent (buildUri what (.ofDay date) "romain".toList none) now
  | _ => return state

/-- The section on top of the back stack comes back; an office is loaded again. -/
def popBackStack (state : State) : Option State :=
  match state.backStack with
  | [] => none
  | fragment :: backStack =>
    let state := { state with current := some fragment.onBack, backStack := backStack }
    match fragment.onBack with
    | .lectures fragment => some (state.loadLecture fragment)
    | .bible _ => some state

/-- The Bible first goes back through its own pages, and then never leaves the activity. -/
def onBackPressed (state : State) : Except Halt State :=
  match state.current with
  | some (.bible (backStackEntryCount + 1)) => .ok { state with current := some (.bible backStackEntryCount) }
  | some (.bible 0) => .ok (state.popBackStack.getD state)
  | _ => orFinish state.popBackStack

def apply [Locale] (state : State) : Event → Except Halt State
  | .onCreate onlyMass now => state.setSection none onlyMass now .lectures
  | .onIntent uri now => state.onIntent uri now
  | .onSearch => .ok (state.replaceSection (.bible 0))
  | .onNavigationItemSelected item isChecked now => state.onNavigationItemSelected item isChecked now
  | .onCalendarDialogPicked date now => state.onCalendarDialogPicked date now
  | .onPageSelected position => match state.current with
    | some (.lectures fragment) =>
      .ok { state with current := some (.lectures { fragment with currentItem := position }) }
    | _ => .ok state
  | .onRefresh => state.onRefresh
  | .setBibleFragment => match state.current with
    | some (.bible backStackEntryCount) => .ok { state with current := some (.bible (backStackEntryCount + 1)) }
    | _ => .ok state
  | .onBackPressed => state.onBackPressed

def run [Locale] (state : State) (events : List Event) : Except Halt State := events.foldlM apply state

/-- The activity before it has a section, in a process that started on the given date. -/
def start (processStart : Moment) : State where
  current := none
  backStack := []
  defaultDate := some ⟨processStart⟩

end State

/-! ## What the user sees -/

/-- An office of a day, or the Bible. -/
inductive Page where
  | office (what : OfficeTypes) (day : Date)
  | bible (backStackEntryCount : Nat)

def Page.dayAfter (day : Date) : Page → Date
  | office _ shown => shown
  | bible _ => day

/-- The page shown, the pages left for it, and the day of the office that was shown last. -/
structure Tour where
  current : Option Page
  left : List Page
  day : Date

namespace Tour

def visit (tour : Tour) (page : Page) : Tour where
  current := some page
  left := tour.current.toList ++ tour.left
  day := page.dayAfter tour.day

/-- The office that an address asks for. -/
def addressed [Locale] (uri : Text) (now : Moment) : Except Halt Page := throwing do
  let shown ← parseIntentUri now uri
  return .office (← deref shown.whatwhen.what) (← deref shown.whatwhen.when).day

/-- The office of the hour, or mass. -/
def ofTheHour (onlyMass : Bool) (now : Moment) : Page :=
  if onlyMass then .office .messe now.date
  else if now.hour < 3 then .office .complies (now.date.addDays (-1))
  else if now.hour < 6 then .office .lectures now.date
  else if now.hour < 9 then .office .laudes now.date
  else if now.hour < 15 then .office .messe now.date
  else if now.hour < 21 then .office .vepres now.date
  else .office .complies now.date

def act [Locale] (uri : Text) (now : Moment) (tour : Tour) : Action → Except Halt Tour
  | .setSection .lectures => do return tour.visit (← addressed uri now)
  | .setSection .bible => return tour.visit (.bible 0)
  | .onRefresh _ | .onApplyOptimalSyncSettings =>
    if tour.current.isSome then .ok tour else .error (.exception .runtimeException)

def goBack (tour : Tour) : Option Tour :=
  match tour.left with
  | [] => none
  | page :: left => some ⟨some page, left, page.dayAfter tour.day⟩

/-- The drawer keeps the day, the calendar keeps the office. -/
def apply [Locale] (tour : Tour) : Event → Except Halt Tour
  | .onCreate onlyMass now => .ok (tour.visit (ofTheHour onlyMass now))
  | .onIntent uri now => (onLink uri).foldlM (act uri now) tour
  | .onSearch => .ok (tour.visit (.bible 0))
  | .onNavigationItemSelected item isChecked _ =>
    if isChecked then .ok tour
    else match item with
      | .office what => .ok (tour.visit (.office what tour.day))
      | .bible => .ok (tour.visit (.bible 0))
      | .other => .ok tour
  | .onCalendarDialogPicked date _ => match tour.current with
    | some (.office what day) => .ok (if day = date then tour else tour.visit (.office what date))
    | _ => .ok tour
  | .onPageSelected _ => .ok tour
  | .onRefresh => if tour.current.isSome then .ok tour else .error (.exception .runtimeException)
  | .setBibleFragment => match tour.current with
    | some (.bible backStackEntryCount) => .ok { tour with current := some (.bible (backStackEntryCount + 1)) }
    | _ => .ok tour
  | .onBackPressed => match tour.current with
    | some (.bible (backStackEntryCount + 1)) => .ok { tour with current := some (.bible backStackEntryCount) }
    | some (.bible 0) => .ok (tour.goBack.getD tour)
    | _ => orFinish tour.goBack

def run [Locale] (tour : Tour) (events : List Event) : Except Halt Tour := events.foldlM apply tour

def start (processStart : Moment) : Tour where
  current := none
  left := []
  day := processStart.date

end Tour

/-! ## Sections and pages -/

def Shows : Page → SectionFragment → Prop
  | .office what day, .lectures fragment =>
    fragment.whatwhen.what = some what ∧ fragment.whatwhen.when.map AelfDate.day = some day
  | .bible count, .bible backStackEntryCount => count = backStackEntryCount
  | _, _ => False

theorem Shows.onPause {page : Page} {fragment : SectionFragment} (shows : Shows page fragment) :
    Shows page fragment.onPause := by
  cases page <;> cases fragment <;> exact shows

theorem Shows.onBack {page : Page} {fragment : SectionFragment} (shows : Shows page fragment) :
    Shows page fragment.onBack := by
  cases page <;> cases fragment <;> exact shows

/-- An office is shown by a section of lectures, and the Bible by its own. -/
theorem Shows.cases {page : Page} {fragment : SectionFragment} (shows : Shows page fragment) :
    (∃ what day lectures, page = .office what day ∧ fragment = .lectures lectures) ∨
      ∃ count, page = .bible count ∧ fragment = .bible count := by
  cases page with
  | office what day =>
    cases fragment with
    | lectures lectures => exact .inl ⟨what, day, lectures, rfl, rfl⟩
    | bible _ => exact shows.elim
  | bible count =>
    cases fragment with
    | lectures _ => exact shows.elim
    | bible backStackEntryCount =>
      obtain rfl : count = backStackEntryCount := shows
      exact .inr ⟨count, rfl, rfl⟩

structure Related (tour : Tour) (state : State) : Prop where
  current : Option.Rel Shows tour.current state.current
  left : List.Forall₂ Shows tour.left state.backStack
  day : state.defaultDate.map AelfDate.day = some tour.day
  latest : ∀ what day, tour.current = some (.office what day) → tour.day = day

theorem related_start (processStart : Moment) : Related (.start processStart) (.start processStart) where
  current := .none
  left := .nil
  day := rfl
  latest := fun _ _ shown => nomatch shown

section Visits

variable {tour : Tour} {state : State}

theorem Related.left_replaceSection (related : Related tour state) (page : Page) (fragment : SectionFragment) :
    List.Forall₂ Shows (tour.visit page).left (state.replaceSection fragment).backStack := by
  obtain ⟨tourCurrent, tourLeft, tourDay⟩ := tour
  obtain ⟨current, backStack, defaultDate⟩ := state
  cases related.current with
  | none => exact related.left
  | some shows => exact .cons shows.onPause related.left

theorem State.replaceSection_current (state : State) (fragment : SectionFragment) :
    (state.replaceSection fragment).current = some fragment := by
  obtain ⟨current, backStack, defaultDate⟩ := state
  cases current <;> rfl

theorem State.replaceSection_defaultDate (state : State) (fragment : SectionFragment) :
    (state.replaceSection fragment).defaultDate = state.defaultDate := by
  obtain ⟨current, backStack, defaultDate⟩ := state
  cases current <;> rfl

theorem Related.visit_bible (related : Related tour state) :
    Related (tour.visit (.bible 0)) (state.replaceSection (.bible 0)) where
  current := state.replaceSection_current _ ▸ .some rfl
  left := related.left_replaceSection _ _
  day := state.replaceSection_defaultDate _ ▸ related.day
  latest := fun _ _ shown => nomatch shown

theorem Related.visit_office (related : Related tour state) {what : OfficeTypes} {day : Date}
    {fragment : LecturesSection} (shows : Shows (.office what day) (.lectures fragment)) :
    Related (tour.visit (.office what day)) ((state.replaceSection (.lectures fragment)).loadLecture fragment) where
  current := by
    show Option.Rel Shows _ (state.replaceSection (.lectures fragment)).current
    rw [state.replaceSection_current]
    exact .some shows
  left := related.left_replaceSection _ _
  day := shows.2
  latest := by
    intro other shown same
    cases same
    rfl

/-- Going back shows the page that was left, and its day is the latest one again. -/
theorem Related.goBack (related : Related tour state) :
    Option.Rel Related tour.goBack state.popBackStack := by
  obtain ⟨tourCurrent, tourLeft, tourDay⟩ := tour
  obtain ⟨current, backStack, defaultDate⟩ := state
  cases related.left with
  | nil => exact .none
  | @cons page fragment _ _ shows rest =>
    obtain ⟨what, day, lectures, rfl, rfl⟩ | ⟨count, rfl, rfl⟩ := shows.cases
    · refine .some ⟨.some shows.onBack, rest, shows.2, ?_⟩
      intro other shown same
      cases same
      rfl
    · exact .some ⟨.some shows, rest, related.day, fun _ _ same => nomatch same⟩

theorem agree_onRefresh {tour : Tour} {state : State} (related : Related tour state) :
    Runs.Agree Related (if tour.current.isSome then .ok tour else .error (.exception .runtimeException))
      state.onRefresh := by
  obtain ⟨tourCurrent, tourLeft, tourDay⟩ := tour
  obtain ⟨current, backStack, defaultDate⟩ := state
  cases related.current with
  | none => exact .error _
  | @some page fragment shows =>
    obtain ⟨what, day, lectures, rfl, rfl⟩ | ⟨count, rfl, rfl⟩ := shows.cases
    case inr => exact .ok related
    case inl =>
      refine .ok ⟨.some shows.onPause, related.left, ?_, related.latest⟩
      have same : tourDay = day := related.latest what day rfl
      rw [same]
      exact shows.2

theorem agree_onBackPressed [Locale] (related : Related tour state) :
    Runs.Agree Related (tour.apply .onBackPressed) state.onBackPressed := by
  have popped := related.goBack
  have leaves : Runs.Agree Related (orFinish tour.goBack) (orFinish state.popBackStack) := by
    generalize tour.goBack = before at popped ⊢
    generalize state.popBackStack = after at popped ⊢
    cases popped with
    | none => exact .error Halt.finished
    | some related => exact .ok related
  have stays : Related (tour.goBack.getD tour) (state.popBackStack.getD state) := by
    generalize tour.goBack = before at popped ⊢
    generalize state.popBackStack = after at popped ⊢
    cases popped with
    | none => exact related
    | some related => exact related
  obtain ⟨tourCurrent, tourLeft, tourDay⟩ := tour
  obtain ⟨current, backStack, defaultDate⟩ := state
  cases related.current with
  | none => exact leaves
  | @some page fragment shows =>
    obtain ⟨what, day, lectures, rfl, rfl⟩ | ⟨count, rfl, rfl⟩ := shows.cases
    case inl => exact leaves
    case inr =>
      cases count with
      | zero => exact .ok stays
      | succ count => exact .ok ⟨.some rfl, related.left, related.day, fun _ _ same => nomatch same⟩

theorem agree_onPageSelected [Locale] (related : Related tour state) (position : Int) :
    Runs.Agree Related (tour.apply (.onPageSelected position)) (state.apply (.onPageSelected position)) := by
  obtain ⟨tourCurrent, tourLeft, tourDay⟩ := tour
  obtain ⟨current, backStack, defaultDate⟩ := state
  cases related.current with
  | none => exact .ok related
  | @some page fragment shows =>
    obtain ⟨what, day, lectures, rfl, rfl⟩ | ⟨count, rfl, rfl⟩ := shows.cases
    case inl => exact .ok ⟨.some shows, related.left, related.day, related.latest⟩
    case inr => exact .ok related

theorem agree_setBibleFragment [Locale] (related : Related tour state) :
    Runs.Agree Related (tour.apply .setBibleFragment) (state.apply .setBibleFragment) := by
  obtain ⟨tourCurrent, tourLeft, tourDay⟩ := tour
  obtain ⟨current, backStack, defaultDate⟩ := state
  cases related.current with
  | none => exact .ok related
  | @some page fragment shows =>
    obtain ⟨what, day, lectures, rfl, rfl⟩ | ⟨count, rfl, rfl⟩ := shows.cases
    case inl => exact .ok related
    case inr => exact .ok ⟨.some rfl, related.left, related.day, fun _ _ same => nomatch same⟩

end Visits

/-! ## Addresses -/

/-- Only the day of a date is written. -/
theorem buildUri_ofDay (what : OfficeTypes) (when : AelfDate) (region : Text) (key : Option Text) :
    buildUri what when region key = buildUri what (.ofDay when.day) region key := by
  unfold buildUri
  rw [AelfDate.toIsoString_congr (AelfDate.day_ofDay when.day)]

theorem onLink_buildUri (what : OfficeTypes) (date : Date) :
    onLink (buildUri what (.ofDay date) "romain".toList none) = [.setSection .lectures] := by
  have inRegion : ∀ c ∈ "romain".toList, Uri.endsPath c = false := by simp [Uri.endsPath]
  have noSlash : '/' ∉ dayText date := not_mem_dayText (by decide) (by decide) date
  have scheme : Uri.getScheme (buildUri what (.ofDay date) "romain".toList none) ≠ some "aelf".toList := by
    rw [buildUri_eq_page, Uri.getScheme, Uri.page, Uri.takeWhile_ne website_plain.1]
    simp
  obtain ⟨others, chunks, -⟩ := splitPath_dated (dayText_ne_nil date) noSlash
    (PercentCoding.decode false ("romain".toList ++ '/' :: what.urlName.toList))
  have notBible : dayText date ≠ "bible".toList := by
    intro same
    exact not_mem_dayText (by decide) (by decide) date (same ▸ (by simp : 'b' ∈ "bible".toList))
  have notSearch : dayText date ≠ "search".toList := by
    intro same
    exact not_mem_dayText (by decide) (by decide) date (same ▸ (by simp : 's' ∈ "search".toList))
  rw [onLink_website (getHost_buildUri what date), if_neg scheme, getPath_buildUri what date inRegion, Option.getD_some,
    chunks, routeChunks]
  simpa using And.intro notBible notSearch

theorem onLink_bibleHome : onLink State.bibleHome = [.setSection .bible] := by
  decide +kernel

section Addresses

variable [Locale]

/-- Whatever an address says, an office and a date are set. -/
theorem parseIntentUri_named {now : Moment} {uri : Text} {shown : Shown} (parsed : parseIntentUri now uri = .ok shown) :
    ∃ what when, shown.whatwhen.what = some what ∧ shown.whatwhen.when = some when := by
  by_cases website : (Uri.getHost uri).getD [] = "www.aelf.org".toList
  · rw [parseIntentUri, if_pos website] at parsed
    by_cases indexable : Indexable (splitPath ((Uri.getPath uri).getD []))
    · obtain ⟨after, chunks, falls⟩ := parseChunks_ok (Uri.getFragment uri) indexable (fallsBack_default now _)
      rw [chunks] at parsed
      obtain rfl := Except.ok.inj parsed
      obtain ⟨⟨what, office, -⟩, when, date, -⟩ := falls
      exact ⟨what, when, office, date⟩
    · rw [parseChunks_error _ indexable] at parsed
      cases parsed
  · rw [parseIntentUri, if_neg website] at parsed
    obtain rfl := Except.ok.inj parsed
    exact ⟨.messe, ⟨now⟩, rfl, rfl⟩

theorem agree_address {tour : Tour} {state : State} (related : Related tour state) (uri : Text) (now : Moment) :
    Runs.Agree Related (tour.act uri now (.setSection .lectures)) (state.setSection (some uri) false now .lectures) := by
  simp only [Tour.act, Tour.addressed, State.setSection, LecturesSection.onCreateView]
  cases parsed : parseIntentUri now uri with
  | error exception => exact .error (Halt.exception exception)
  | ok shown =>
    obtain ⟨what, when, office, date⟩ := parseIntentUri_named parsed
    simp only [office, date, deref, bind, Except.bind, pure, Except.pure, throwing]
    refine .ok (related.visit_office ⟨office, ?_⟩)
    show Option.map AelfDate.day shown.whatwhen.when = _
    rw [date]
    rfl

theorem agree_act {tour : Tour} {state : State} (related : Related tour state) (uri : Text) (now : Moment)
    (action : Action) : Runs.Agree Related (tour.act uri now action) (state.act uri now action) := by
  match action with
  | .setSection .lectures => exact agree_address related uri now
  | .setSection .bible => exact .ok related.visit_bible
  | .onRefresh _ => exact agree_onRefresh related
  | .onApplyOptimalSyncSettings => exact agree_onRefresh related

theorem agree_onIntent {tour : Tour} {state : State} (related : Related tour state) (uri : Text) (now : Moment) :
    Runs.Agree Related ((onLink uri).foldlM (Tour.act uri now) tour) (state.onIntent uri now) :=
  Runs.agree_foldlM (fun _ _ action _ related => agree_act related uri now action)
    (Runs.allowedUntil_true _ tour (onLink uri)) related

theorem onCreateView_ofTheHour (onlyMass : Bool) (now : Moment) :
    ∃ fragment, LecturesSection.onCreateView none onlyMass now = .ok fragment ∧
      Shows (Tour.ofTheHour onlyMass now) (.lectures fragment) := by
  cases onlyMass with
  | true => exact ⟨_, rfl, rfl, rfl⟩
  | false =>
    refine ⟨_, rfl, ?_⟩
    simp only [Tour.ofTheHour, Bool.and_true, decide_eq_true_eq, Bool.false_eq_true, if_false]
    split_ifs <;> exact ⟨rfl, rfl⟩

theorem agree_onCreate {tour : Tour} {state : State} (related : Related tour state) (onlyMass : Bool) (now : Moment) :
    Runs.Agree Related (.ok (tour.visit (Tour.ofTheHour onlyMass now)))
      (state.setSection none onlyMass now .lectures) := by
  obtain ⟨fragment, created, shows⟩ := onCreateView_ofTheHour onlyMass now
  rw [State.setSection, created]
  match Tour.ofTheHour onlyMass now, shows with
  | .office what day, shows => exact .ok (related.visit_office shows)

end Addresses

/-! ## Every run shows what the user sees -/

/-- The days that an address can carry. -/
def InCentury (date : Date) : Prop := 2000 ≤ date.year ∧ date.year ≤ 2099

/-- The drawer and the calendar write the address of a day of this century. -/
def Tour.Addressable (tour : Tour) : Event → Prop
  | .onNavigationItemSelected (.office _) _ _ => InCentury tour.day
  | .onCalendarDialogPicked date _ => InCentury date
  | _ => True

section Refinement

variable [Locale] (capitals : ∀ what : OfficeTypes, Locale.toUpperCase what.urlName.toList = what.name)
include capitals

theorem onCreateView_buildUri (what : OfficeTypes) {date : Date} (inCentury : InCentury date) (now : Moment) :
    ∃ fragment, LecturesSection.onCreateView (some (buildUri what (.ofDay date) "romain".toList none)) false now =
        .ok fragment ∧ Shows (.office what date) (.lectures fragment) := by
  have inRegion : ∀ c ∈ "romain".toList, Uri.endsPath c = false := by simp [Uri.endsPath]
  have fourDigits : FourDigitYear date := ⟨by have := inCentury.1; omega, by have := inCentury.2; omega⟩
  have keeps : KeepsOffice what "romain".toList := keepsOffice_of_plain (by decide) (by decide) (capitals what)
  obtain ⟨others, second, parsed⟩ :=
    parseIntentUri_buildUri what date now inRegion (by simp : ∀ text, none = some text → '%' ∉ text)
  refine ⟨_, by rw [LecturesSection.onCreateView, parsed]; rfl, ?_, ?_⟩
  · show (parseDated ([] :: dayText date :: others) none (.default now)).what = some what
    rw [parseDated_what, second]
    exact congrArg some keeps
  · show (parseDated ([] :: dayText date :: others) none (.default now)).when.map AelfDate.day = some date
    rw [parseDated_when fourDigits]
    exact congrArg some (if_pos inCentury)

/-- An address that the application has written opens the office that it was written for. -/
theorem agree_written {tour : Tour} {state : State} (related : Related tour state) (what : OfficeTypes) (when : AelfDate)
    (inCentury : InCentury when.day) (now : Moment) :
    Runs.Agree Related (.ok (tour.visit (.office what when.day)))
      (state.onIntent (buildUri what when "romain".toList none) now) := by
  obtain ⟨fragment, created, shows⟩ := onCreateView_buildUri capitals what inCentury now
  rw [buildUri_ofDay, State.onIntent, onLink_buildUri, List.foldlM_cons]
  simp only [State.act, State.setSection, created, throwing]
  exact .ok (related.visit_office shows)

/-- The calendar keeps the office. -/
theorem agree_onCalendarDialogPicked {tour : Tour} {state : State} (related : Related tour state) {date : Date}
    {now : Moment} (addressable : tour.Addressable (.onCalendarDialogPicked date now)) :
    Runs.Agree Related (tour.apply (.onCalendarDialogPicked date now))
      (state.apply (.onCalendarDialogPicked date now)) := by
  obtain ⟨tourCurrent, tourLeft, tourDay⟩ := tour
  obtain ⟨current, backStack, defaultDate⟩ := state
  cases related.current with
  | none => exact .ok related
  | @some page fragment shows =>
    obtain ⟨what, day, lectures, rfl, rfl⟩ | ⟨count, rfl, rfl⟩ := shows.cases
    case inr => exact .ok related
    case inl =>
      obtain ⟨when, set, sameDay⟩ := Option.map_eq_some_iff.mp shows.2
      have written := agree_written capitals related what (.ofDay date) addressable now
      have same : when.isSameDay (.ofDay date) = decide (day = date) := by
        rw [Bool.eq_iff_iff, AelfDate.isSameDay_iff, decide_eq_true_eq, ← sameDay]
        exact Date.dayNumber_injective.eq_iff
      simp only [Tour.apply, State.apply, State.onCalendarDialogPicked, set, shows.1, deref, throwing, bind,
        Except.bind, same, decide_eq_true_eq]
      split
      · exact .ok related
      · exact written

theorem agree_apply {tour : Tour} {state : State} (event : Event) (addressable : tour.Addressable event)
    (related : Related tour state) : Runs.Agree Related (tour.apply event) (state.apply event) := by
  cases event with
  | onCreate onlyMass now => exact agree_onCreate related onlyMass now
  | onIntent uri now => exact agree_onIntent related uri now
  | onSearch => exact .ok related.visit_bible
  | onNavigationItemSelected item isChecked now =>
    cases isChecked with
    | true => exact .ok related
    | false =>
      cases item with
      | other => exact .ok related
      | bible =>
        simp only [Tour.apply, State.apply, State.onNavigationItemSelected, State.onIntent, onLink_bibleHome]
        exact .ok related.visit_bible
      | office what =>
        obtain ⟨defaultDate, set, sameDay⟩ := Option.map_eq_some_iff.mp related.day
        rw [Tour.Addressable, ← sameDay] at addressable
        have written := agree_written capitals related what defaultDate addressable now
        rw [sameDay] at written
        simp only [Tour.apply, State.apply, State.onNavigationItemSelected, set, deref, throwing, bind, Except.bind,
          Bool.false_eq_true, if_false]
        exact written
  | onCalendarDialogPicked date now => exact agree_onCalendarDialogPicked capitals related addressable
  | onPageSelected position => exact agree_onPageSelected related position
  | onRefresh => exact agree_onRefresh related
  | setBibleFragment => exact agree_setBibleFragment related
  | onBackPressed => exact agree_onBackPressed related

/-- From the start of the application on, whatever links, drawer entries, days of the calendar and backs follow each
other, the activity shows what the user expects: the drawer changes the office and keeps the day that was shown last,
the calendar changes the day and keeps the office, and going back shows the page that was left. -/
theorem navigation_refines (processStart : Moment) (events : List Event)
    (addressable : Runs.AllowedUntil Tour.apply Tour.Addressable (.start processStart) events) :
    Runs.Agree Related ((Tour.start processStart).run events) ((State.start processStart).run events) :=
  Runs.agree_foldlM (fun _ _ event addressable related => agree_apply capitals event addressable related) addressable
    (related_start processStart)

end Refinement

/-! ## Going back -/

theorem onLink_cases (uri : Text) : onLink uri = [] ∨ ∃ action, onLink uri = [action] := by
  have routed (chunks : List Text) : routeChunks chunks = [] ∨ ∃ action, routeChunks chunks = [action] := by
    rw [routeChunks]
    split
    · exact .inr ⟨_, rfl⟩
    · split
      · exact .inr ⟨_, rfl⟩
      · exact .inl rfl
  rw [onLink]
  split
  · split
    · split
      · exact .inr ⟨_, rfl⟩
      · split
        · exact .inr ⟨_, rfl⟩
        · exact .inl rfl
    · exact .inl rfl
  · split
    · exact routed _
    · exact .inl rfl

/-- What an event does to the sections: nothing, leave one for another, or come back to one. -/
inductive Moves (state next : State) : Prop where
  | stays (same : next.backStack = state.backStack)
  | leaves (current : SectionFragment) (left : state.current = some current)
      (pushed : next.backStack = current.onPause :: state.backStack)
  | returns (fragment : SectionFragment) (popped : state.backStack = fragment :: next.backStack)
      (shown : next.current = some fragment.onBack)

section Moves

variable {state next : State}

theorem moves_replaceSection (state : State) (fragment : SectionFragment) :
    Moves state (state.replaceSection fragment) := by
  obtain ⟨current, backStack, defaultDate⟩ := state
  cases current with
  | none => exact .stays rfl
  | some current => exact .leaves current rfl rfl

theorem moves_popBackStack (popped : state.popBackStack = some next) : Moves state next := by
  obtain ⟨current, backStack, defaultDate⟩ := state
  cases backStack with
  | nil => cases popped
  | cons fragment backStack =>
    cases fragment with
    | lectures fragment =>
      obtain rfl := Option.some.inj popped
      exact .returns (.lectures fragment) rfl rfl
    | bible count =>
      obtain rfl := Option.some.inj popped
      exact .returns (.bible count) rfl rfl

theorem moves_onRefresh (refreshed : state.onRefresh = .ok next) : Moves state next := by
  obtain ⟨current, backStack, defaultDate⟩ := state
  match current with
  | none => cases refreshed
  | some (.bible count) =>
    obtain rfl := Except.ok.inj refreshed
    exact .stays rfl
  | some (.lectures fragment) =>
    obtain rfl := Except.ok.inj refreshed
    exact .stays rfl

theorem moves_onBackPressed (pressed : state.onBackPressed = .ok next) : Moves state next := by
  have leaving (popped : orFinish state.popBackStack = .ok next) : Moves state next := by
    cases result : state.popBackStack with
    | none =>
      rw [result] at popped
      cases popped
    | some after =>
      rw [result] at popped
      obtain rfl := Except.ok.inj popped
      exact moves_popBackStack result
  have staying (popped : state.popBackStack.getD state = next) : Moves state next := by
    cases result : state.popBackStack with
    | none =>
      rw [result] at popped
      exact popped ▸ .stays rfl
    | some after =>
      rw [result] at popped
      exact moves_popBackStack (popped ▸ result)
  match current : state.current with
  | none =>
    rw [State.onBackPressed, current] at pressed
    exact leaving pressed
  | some (.lectures fragment) =>
    rw [State.onBackPressed, current] at pressed
    exact leaving pressed
  | some (.bible 0) =>
    rw [State.onBackPressed, current] at pressed
    exact staying (Except.ok.inj pressed)
  | some (.bible (count + 1)) =>
    rw [State.onBackPressed, current] at pressed
    obtain rfl := Except.ok.inj pressed
    exact .stays rfl

variable [Locale]

theorem moves_setSection {uri : Option Text} {onlyMass : Bool} {now : Moment} {shown : Section}
    (set : state.setSection uri onlyMass now shown = .ok next) : Moves state next := by
  cases shown with
  | bible =>
    obtain rfl := Except.ok.inj set
    exact moves_replaceSection state _
  | lectures =>
    obtain ⟨fragment, -, shown⟩ := Runs.exists_of_bind_eq_ok set
    obtain rfl := Except.ok.inj shown
    cases moves_replaceSection state (.lectures fragment) with
    | stays same => exact .stays same
    | leaves current left pushed => exact .leaves current left pushed
    | returns fragment popped shown => exact .returns fragment popped shown

theorem moves_onIntent {uri : Text} {now : Moment} (handled : state.onIntent uri now = .ok next) :
    Moves state next := by
  rw [State.onIntent] at handled
  obtain nothing | ⟨action, link⟩ := onLink_cases uri
  · rw [nothing] at handled
    obtain rfl := Except.ok.inj handled
    exact .stays rfl
  · have acted : state.act uri now action = .ok next := by
      rw [link, List.foldlM_cons] at handled
      obtain ⟨after, acted, last⟩ := Runs.exists_of_bind_eq_ok handled
      obtain rfl := Except.ok.inj last
      exact acted
    cases action with
    | setSection shown => exact moves_setSection acted
    | onRefresh reason => exact moves_onRefresh acted
    | onApplyOptimalSyncSettings => exact moves_onRefresh acted

theorem moves_onNavigationItemSelected {item : MenuItem} {isChecked : Bool} {now : Moment}
    (selected : state.onNavigationItemSelected item isChecked now = .ok next) : Moves state next := by
  unfold State.onNavigationItemSelected at selected
  cases isChecked with
  | true =>
    obtain rfl := Except.ok.inj selected
    exact .stays rfl
  | false =>
    cases item with
    | other =>
      obtain rfl := Except.ok.inj selected
      exact .stays rfl
    | bible => exact moves_onIntent selected
    | office what =>
      obtain ⟨defaultDate, -, handled⟩ := Runs.exists_of_bind_eq_ok selected
      exact moves_onIntent handled

theorem moves_onCalendarDialogPicked {date : Date} {now : Moment}
    (picked : state.onCalendarDialogPicked date now = .ok next) : Moves state next := by
  match current : state.current with
  | none =>
    rw [State.onCalendarDialogPicked, current] at picked
    obtain rfl := Except.ok.inj picked
    exact .stays rfl
  | some (.bible count) =>
    rw [State.onCalendarDialogPicked, current] at picked
    obtain rfl := Except.ok.inj picked
    exact .stays rfl
  | some (.lectures fragment) =>
    rw [State.onCalendarDialogPicked, current] at picked
    obtain ⟨when, -, rest⟩ := Runs.exists_of_bind_eq_ok picked
    split at rest
    · obtain rfl := Except.ok.inj rest
      exact .stays rfl
    · obtain ⟨what, -, handled⟩ := Runs.exists_of_bind_eq_ok rest
      exact moves_onIntent handled

theorem moves_apply {event : Event} (applied : state.apply event = .ok next) : Moves state next := by
  cases event with
  | onCreate onlyMass now =>
    rw [State.apply] at applied
    exact moves_setSection applied
  | onIntent uri now => exact moves_onIntent applied
  | onSearch =>
    obtain rfl := Except.ok.inj applied
    exact moves_replaceSection state _
  | onNavigationItemSelected item isChecked now => exact moves_onNavigationItemSelected applied
  | onCalendarDialogPicked date now => exact moves_onCalendarDialogPicked applied
  | onPageSelected position =>
    obtain ⟨current, backStack, defaultDate⟩ := state
    match current with
    | none | some (.bible _) | some (.lectures _) =>
      obtain rfl := Except.ok.inj applied
      exact .stays rfl
  | onRefresh => exact moves_onRefresh applied
  | setBibleFragment =>
    obtain ⟨current, backStack, defaultDate⟩ := state
    match current with
    | none | some (.bible _) | some (.lectures _) =>
      obtain rfl := Except.ok.inj applied
      exact .stays rfl
  | onBackPressed => exact moves_onBackPressed applied

/-- The sections that were left stay where they are as long as the user does not go back to one of them. -/
theorem suffix_apply {left : List SectionFragment} {event : Event} (below : left <:+ state.backStack)
    (applied : state.apply event = .ok next) (above : left.length ≤ next.backStack.length) :
    left <:+ next.backStack := by
  cases moves_apply applied with
  | stays same => rwa [same]
  | leaves current shown pushed =>
    rw [pushed]
    exact below.trans (List.suffix_cons _ _)
  | returns fragment popped shown =>
    rw [popped] at below
    rcases List.suffix_cons_iff.mp below with whole | kept
    · rw [whole, List.length_cons] at above
      omega
    · exact kept

/-- An excursion keeps at least the given number of sections on the back stack. -/
def Away (depth : Nat) (state : State) (events : List Event) : Prop :=
  Runs.AllowedUntil State.apply (fun state event => ∀ next, state.apply event = .ok next → depth ≤ next.backStack.length)
    state events

theorem suffix_run {left : List SectionFragment} {events : List Event} (below : left <:+ state.backStack)
    (away : Away left.length state events) (ran : state.run events = .ok next) : left <:+ next.backStack :=
  Runs.invariant_foldlM (fun state => left <:+ state.backStack)
    (fun _ _ _ stays below applied => suffix_apply below applied (stays _ applied)) away below ran

/-- Whatever the user does after leaving a section, the back that returns from it shows the same office, the same day
and the same slide again, and behind it the sections that were left before. -/
theorem back_returns {opened away returned : State} {current : SectionFragment} {first : Event} {events : List Event}
    (shown : state.current = some current) (opens : state.apply first = .ok opened)
    (left : opened.backStack.length = state.backStack.length + 1)
    (excursion : Away (state.backStack.length + 1) opened events) (ran : opened.run events = .ok away)
    (top : away.backStack.length = state.backStack.length + 1) (back : away.apply .onBackPressed = .ok returned)
    (leaves : returned.backStack.length = state.backStack.length) :
    returned.current = some current.onPause.onBack ∧ returned.backStack = state.backStack := by
  have pushed : opened.backStack = current.onPause :: state.backStack := by
    cases moves_apply opens with
    | stays same =>
      rw [same] at left
      omega
    | leaves other shownToo pushed =>
      obtain rfl := Option.some.inj (shown.symm.trans shownToo)
      exact pushed
    | returns fragment popped _ =>
      rw [popped, List.length_cons] at left
      omega
  have kept : current.onPause :: state.backStack <:+ away.backStack :=
    suffix_run (pushed ▸ List.suffix_refl _) excursion ran
  have whole : current.onPause :: state.backStack = away.backStack :=
    kept.eq_of_length (by rw [top, List.length_cons])
  cases moves_apply back with
  | stays same =>
    rw [same] at leaves
    omega
  | leaves other _ pushed =>
    rw [pushed, List.length_cons] at leaves
    omega
  | returns fragment popped shown =>
    rw [← whole] at popped
    obtain ⟨rfl, rest⟩ := List.cons.inj popped
    exact ⟨shown, rest.symm⟩

end Moves

namespace Laudes

def fragment : LecturesSection := ⟨⟨some .laudes, some ⟨Website.now⟩, some "psaume".toList⟩, 0, 3⟩

def state : State := ⟨some (.lectures fragment), [], some ⟨Website.now⟩⟩

/-- The fourth slide of laudes is left for the Bible, where another page is opened and closed again. -/
theorem laudes_return_from_the_bible :
    letI := Website.latinLocale
    ∃ returned, state.run [.onSearch, .setBibleFragment, .onBackPressed, .onBackPressed] = .ok returned ∧
      returned.current = some (.lectures ⟨⟨some .laudes, some ⟨Website.now⟩, none⟩, 3, 0⟩) ∧
      returned.backStack = [] := by
  let _ := Website.latinLocale
  have excursion : Away 1 (state.replaceSection (.bible 0)) [.setBibleFragment, .onBackPressed] := by
    refine .cons (fun next applied => ?_) rfl (.cons (fun next applied => ?_) rfl trivial)
    · obtain rfl := Except.ok.inj applied
      exact Nat.le_refl 1
    · obtain rfl := Except.ok.inj applied
      exact Nat.le_refl 1
  refine ⟨_, rfl, ?_⟩
  exact back_returns (rfl : state.current = some (.lectures fragment)) (rfl : state.apply .onSearch = .ok _) rfl
    excursion rfl rfl rfl rfl

end Laudes

namespace Week

def sunday : Date := ⟨2024, 5, 26, by decide⟩

/-- Mass of the day, then laudes of the same day, then laudes of the next Sunday, then back. -/
def events : List Event :=
  [.onCreate true Website.now, .onNavigationItemSelected (.office .laudes) false Website.now,
    .onCalendarDialogPicked sunday Website.now, .onNavigationItemSelected .bible false Website.now,
    .onNavigationItemSelected (.office .vepres) false Website.now, .onBackPressed, .onBackPressed]

theorem sunday_kept :
    letI := Website.latinLocale
    ∃ tour, (Tour.start Website.now).run events = .ok tour ∧ tour.current = some (.office .laudes sunday) ∧
      Runs.Agree Related (.ok tour) ((State.start Website.now).run events) := by
  let _ := Website.latinLocale
  have capitals : ∀ what : OfficeTypes, Locale.toUpperCase what.urlName.toList = what.name := by
    intro what
    cases what <;> decide
  have inMay : InCentury Website.now.date := ⟨by decide, by decide⟩
  have onSunday : InCentury sunday := ⟨by decide, by decide⟩
  exact ⟨_, rfl, rfl, navigation_refines capitals Website.now events
    (.cons trivial rfl (.cons inMay rfl (.cons onSunday rfl (.cons trivial rfl (.cons onSunday rfl
      (.cons trivial rfl (.cons trivial rfl trivial)))))))⟩

end Week

end Aelf.Lectures.Navigation
