import Aelf.Bible.BookFragment
import Aelf.Lectures.Dates
import Aelf.Lectures.Office
import Aelf.Library.PercentCoding

/-! # The addresses of the offices

`SectionLecturesFragment.buildUri` writes the address of an office on the website,
`parseIntentUri` reads one, and `LecturesActivity.onLink` decides which section
opens it.  Both readers split the path the way Java does, without the empty chunks
at its end. -/

namespace Aelf.Lectures

open Aelf.Library
open Aelf.Library.Calendar (Date Moment)
open Aelf.Bible (splitPath)

abbrev Text := List Char

/-- `String.toUpperCase` in the locale of the device. -/
class Locale where
  toUpperCase : Text → Text

/-! ## The state that a link sets -/

structure WhatWhen where
  what : Option OfficeTypes
  when : Option AelfDate
  anchor : Option Text

/-- The fields of the fragment that say what is shown. -/
structure Shown where
  whatwhen : WhatWhen
  position : Int

namespace OfficeTypes

/-- The name of the constant. -/
def name : OfficeTypes → Text
  | messe => "MESSE".toList
  | lectures => "LECTURES".toList
  | laudes => "LAUDES".toList
  | tierce => "TIERCE".toList
  | sexte => "SEXTE".toList
  | none => "NONE".toList
  | vepres => "VEPRES".toList
  | complies => "COMPLIES".toList

/-- `valueOf`, or nothing where it throws an `IllegalArgumentException`. -/
def valueOf (text : Text) : Option OfficeTypes := values.find? fun what => what.name = text

theorem valueOf_name (what : OfficeTypes) : valueOf what.name = some what := by
  cases what <;> rfl

end OfficeTypes

namespace AelfDate

/-- `set(year, month, day)`, except that the month counts from 1 here: fields out of range roll over. -/
def set (date : AelfDate) (year month day : Int) : AelfDate :=
  ⟨{ date.moment with date := Date.ofFields year month day }⟩

@[simp] theorem day_set (date : AelfDate) (year month day : Int) :
    (date.set year month day).day = Date.ofFields year month day := rfl

end AelfDate

/-! ## Writing an address -/

def buildUri (what : OfficeTypes) (when : AelfDate) (region : Text) (key : Option Text) : Text :=
  let url := "https://www.aelf.org/".toList ++ when.toIsoString.toList ++ '/' :: region ++ '/' :: what.urlName.toList
  match key with
  | none => url
  | some key => url ++ '#' :: key

/-! ## Reading an address -/

/-- `chunks[index]` -/
def chunkAt (chunks : List Text) (index : Nat) : Except JavaException Text := deref chunks[index]?

/-- `matches("20[0-9]{2}-[0-9]{2}-[0-9]{2}")` -/
def looksLikeDate : Text → Bool
  | ['2', '0', y₃, y₄, '-', m₁, m₂, '-', d₁, d₂] => [y₃, y₄, m₁, m₂, d₁, d₂].all Char.isDigit
  | _ => false

/-- `Integer.parseInt` of the three parts of a date. -/
def dateFields (potential_date : Text) : Int × Int × Int :=
  let date_chunks := potential_date.splitOn '-'
  (Decimal.value (date_chunks.getD 0 []), Decimal.value (date_chunks.getD 1 []),
    Decimal.value (date_chunks.getD 2 []))

/-- The date in an address, put in the place of the one that is set already. -/
def parseDate (potential_date : Text) (whatwhen : WhatWhen) : WhatWhen :=
  if looksLikeDate potential_date then
    let (year, month, day) := dateFields potential_date
    { whatwhen with when := whatwhen.when.map fun when => when.set year month day }
  else whatwhen

/-- The office of the given name, or mass. -/
def parseOffice [Locale] (chunk : Text) (whatwhen : WhatWhen) : WhatWhen :=
  match OfficeTypes.valueOf (Locale.toUpperCase chunk) with
  | some what => { whatwhen with what := some what }
  | none => { whatwhen with what := some .messe }

/-- Set the office based on the time of day. -/
def computeCurrentOffice (includeMass : Bool) (whatwhen : WhatWhen) : Except JavaException WhatWhen := do
  let when ← deref whatwhen.when
  let hour := when.moment.hour
  return if hour < 3 then { whatwhen with what := some .complies, when := some (when.addDays (-1)) }
    else if hour < 6 then { whatwhen with what := some .lectures }
    else if hour < 9 then { whatwhen with what := some .laudes }
    else if hour < 15 && includeMass then { whatwhen with what := some .messe }
    else if hour < 21 then { whatwhen with what := some .vepres }
    else { whatwhen with what := some .complies }

/-- The addresses that start with a date. -/
def parseDated [Locale] (chunks : List Text) (fragment : Option Text) (whatwhen : WhatWhen) : WhatWhen :=
  let whatwhen := match chunks[1]? with
    | none => whatwhen
    | some potential_date => parseDate potential_date whatwhen
  let whatwhen := match chunks[3]? with
    | none => whatwhen
    | some office_name => parseOffice office_name whatwhen
  { whatwhen with anchor := fragment }

/-- The chunks of an address of the website. -/
def parseChunks [Locale] (chunks : List Text) (fragment : Option Text) (whatwhen : WhatWhen) :
    Except JavaException WhatWhen := do
  if chunks.length = 2 && "office-".toList.isPrefixOf (chunks.getD 1 []) then
    return parseOffice ((chunks.getD 1 []).drop 7) whatwhen
  else if (← chunkAt chunks 1) = "shortcut".toList then
    if (← chunkAt chunks 2) = "messe".toList then
      return { whatwhen with what := some .messe }
    else if (← chunkAt chunks 2) = "office".toList then
      computeCurrentOffice false whatwhen
    else
      return whatwhen
  else
    return parseDated chunks fragment whatwhen

/-- Mass of the given day, without an anchor. -/
def WhatWhen.default (now : Moment) : WhatWhen := ⟨some .messe, some ⟨now⟩, none⟩

def parseIntentUri [UriCodec] [Locale] (now : Moment) (uri : Text) : Except JavaException Shown := do
  let path := (Uri.getPath uri).getD []
  let host := (Uri.getHost uri).getD []
  let fragment := Uri.getFragment uri
  if host = "www.aelf.org".toList then
    return ⟨← parseChunks (splitPath path) fragment (.default now), 0⟩
  else
    return ⟨.default now, 0⟩

/-! ## Choosing a section -/

inductive Section where
  | lectures
  | bible
deriving DecidableEq, Repr

/-- What the activity does with a link. -/
inductive Action where
  | setSection (shown : Section)
  | onRefresh (reason : String)
  | onApplyOptimalSyncSettings
deriving DecidableEq, Repr

/-- The section for the chunks of an address of the website. -/
def routeChunks (chunks : List Text) : List Action :=
  if 2 ≤ chunks.length ∧ (chunks.getD 1 [] = "bible".toList ∨ chunks.getD 1 [] = "search".toList) then
    [.setSection .bible]
  else if chunks.length = 1 ∨ 2 ≤ chunks.length then
    [.setSection .lectures]
  else []

def onLink [UriCodec] (link : Text) : List Action :=
  let scheme := (Uri.getScheme link).getD []
  let host := (Uri.getHost link).getD []
  let path := (Uri.getPath link).getD []
  let chunks := splitPath path
  if scheme = "aelf".toList then
    if host = "app.epitre.co".toList then
      if path = "/action/refresh".toList then [.onRefresh "lectureLink"]
      else if path = "/action/apply-optimal-sync-settings".toList then [.onApplyOptimalSyncSettings]
      else []
    else []
  else if host = "www.aelf.org".toList then routeChunks chunks
  else []

/-! ## What an address says -/

/-- `/shortcut/office` -/
def AsksCurrentOffice (chunks : List Text) : Prop :=
  chunks[1]? = some "shortcut".toList ∧ chunks[2]? = some "office".toList

/-- `/2017-01-27/…`, or the office of the hour, which may be yesterday's. -/
def RecognisesDate (chunks : List Text) : Prop :=
  (∃ potential_date, chunks[1]? = some potential_date ∧ looksLikeDate potential_date = true) ∨
    AsksCurrentOffice chunks

/-- `/office-laudes`, `/shortcut/messe`, `/shortcut/office` or `/2017-01-27/romain/laudes`. -/
def RecognisesOffice [Locale] (chunks : List Text) : Prop :=
  (∃ office_name what, chunks.tail = ["office-".toList ++ office_name] ∧
    OfficeTypes.valueOf (Locale.toUpperCase office_name) = some what) ∨
  (chunks[1]? = some "shortcut".toList ∧ chunks[2]? = some "messe".toList) ∨ AsksCurrentOffice chunks ∨
  ∃ office_name what, chunks[3]? = some office_name ∧
    OfficeTypes.valueOf (Locale.toUpperCase office_name) = some what

/-- An office and a date are there: mass and today, unless the address says otherwise. -/
structure FallsBack [Locale] (now : Moment) (chunks : List Text) (whatwhen : WhatWhen) : Prop where
  office : ∃ what, whatwhen.what = some what ∧ (¬RecognisesOffice chunks → what = .messe)
  date : ∃ when, whatwhen.when = some when ∧ (¬RecognisesDate chunks → when = ⟨now⟩)

/-- Exactly one section is selected, and the lectures section can show the address. -/
def Opens [UriCodec] [Locale] (now : Moment) (uri : Text) : Prop :=
  ∃ shown, onLink uri = [.setSection shown] ∧ (shown = .lectures →
    ∃ state, parseIntentUri now uri = .ok state ∧
      FallsBack now (splitPath ((Uri.getPath uri).getD [])) state.whatwhen)

section Falling

variable [Locale] {now : Moment} {chunks : List Text} {whatwhen : WhatWhen}

theorem fallsBack_default (now : Moment) (chunks : List Text) : FallsBack now chunks (.default now) where
  office := ⟨.messe, rfl, fun _ => rfl⟩
  date := ⟨⟨now⟩, rfl, fun _ => rfl⟩

/-- Reading an office leaves the date alone. -/
theorem fallsBack_parseOffice (office_name : Text) (before : FallsBack now chunks whatwhen)
    (recognised : (OfficeTypes.valueOf (Locale.toUpperCase office_name)).isSome → RecognisesOffice chunks) :
    FallsBack now chunks (parseOffice office_name whatwhen) := by
  unfold parseOffice
  cases found : OfficeTypes.valueOf (Locale.toUpperCase office_name) with
  | none => exact ⟨⟨.messe, rfl, fun _ => rfl⟩, before.date⟩
  | some what => exact ⟨⟨what, rfl, fun absent => absurd (recognised (by rw [found]; rfl)) absent⟩, before.date⟩

/-- Reading a date leaves the office alone. -/
theorem fallsBack_parseDate {potential_date : Text} (before : FallsBack now chunks whatwhen)
    (present : chunks[1]? = some potential_date) : FallsBack now chunks (parseDate potential_date whatwhen) := by
  unfold parseDate
  split
  next date =>
    obtain ⟨when, set, _⟩ := before.date
    refine ⟨before.office, ⟨_, by rw [set]; rfl, fun absent => ?_⟩⟩
    exact absurd (.inl ⟨potential_date, present, date⟩) absent
  next => exact before

theorem fallsBack_parseDated (fragment : Option Text) (before : FallsBack now chunks whatwhen) :
    FallsBack now chunks (parseDated chunks fragment whatwhen) := by
  have dated : FallsBack now chunks (match chunks[1]? with
      | none => whatwhen
      | some potential_date => parseDate potential_date whatwhen) := by
    cases present : chunks[1]? with
    | none => exact before
    | some potential_date => exact fallsBack_parseDate before present
  unfold parseDated
  cases present : chunks[3]? with
  | none => exact ⟨dated.office, dated.date⟩
  | some office_name =>
    have named := fallsBack_parseOffice office_name dated fun found => by
      obtain ⟨what, found⟩ := Option.isSome_iff_exists.mp found
      exact .inr (.inr (.inr ⟨office_name, what, present, found⟩))
    exact ⟨named.office, named.date⟩

theorem fallsBack_computeCurrentOffice {includeMass : Bool} (asked : AsksCurrentOffice chunks)
    (before : FallsBack now chunks whatwhen) :
    ∃ after, computeCurrentOffice includeMass whatwhen = .ok after ∧ FallsBack now chunks after := by
  obtain ⟨when, set, _⟩ := before.date
  have recognised : RecognisesOffice chunks := .inr (.inr (.inl asked))
  have anyOffice (what : OfficeTypes) : ∃ named, some what = some named ∧ (¬RecognisesOffice chunks → named = .messe) :=
    ⟨what, rfl, fun absent => absurd recognised absent⟩
  have anyDate (date : AelfDate) : ∃ set, some date = some set ∧ (¬RecognisesDate chunks → set = ⟨now⟩) :=
    ⟨date, rfl, fun absent => absurd (.inr asked) absent⟩
  refine ⟨_, by rw [computeCurrentOffice, set]; rfl, ?_⟩
  -- every branch sets the office, and the first one the date too
  repeat' split
  all_goals exact ⟨anyOffice _, anyDate _⟩

/-- The chunks that `parseIntentUri` can index. -/
def Indexable (chunks : List Text) : Prop := 2 ≤ chunks.length ∧ chunks.tail ≠ ["shortcut".toList]

theorem parseChunks_ok (fragment : Option Text) (indexable : Indexable chunks)
    (before : FallsBack now chunks whatwhen) :
    ∃ after, parseChunks chunks fragment whatwhen = .ok after ∧ FallsBack now chunks after := by
  obtain ⟨long, notBare⟩ := indexable
  obtain ⟨first, second, rest, rfl⟩ : ∃ first second rest, chunks = first :: second :: rest := by
    match chunks, long with
    | first :: second :: rest, _ => exact ⟨first, second, rest, rfl⟩
  unfold parseChunks
  split
  next legacy =>
    -- the address of an office before the website changed
    rw [Bool.and_eq_true, decide_eq_true_eq] at legacy
    obtain ⟨office_name, written⟩ := List.isPrefixOf_iff_prefix.mp legacy.2
    have alone : rest = [] := by simpa using legacy.1
    subst alone
    change "office-".toList ++ office_name = second at written
    have name : second.drop 7 = office_name := by
      rw [← written]
      rfl
    refine ⟨_, rfl, fallsBack_parseOffice _ before fun found => ?_⟩
    obtain ⟨what, found⟩ := Option.isSome_iff_exists.mp found
    change OfficeTypes.valueOf (Locale.toUpperCase (second.drop 7)) = some what at found
    rw [name] at found
    exact .inl ⟨office_name, what, by rw [List.tail_cons, written], found⟩
  next =>
    simp only [chunkAt, List.getElem?_cons_succ, List.getElem?_cons_zero, deref, bind, Except.bind]
    split
    next shortcut =>
      subst shortcut
      cases rest with
      | nil => exact absurd rfl notBare
      | cons third rest =>
        simp only [List.getElem?_cons_zero]
        split
        next messe =>
          subst messe
          exact ⟨_, rfl, ⟨⟨.messe, rfl, fun _ => rfl⟩, before.date⟩⟩
        next =>
          split
          next office =>
            subst office
            exact fallsBack_computeCurrentOffice ⟨rfl, rfl⟩ before
          next => exact ⟨_, rfl, before⟩
    next => exact ⟨_, rfl, fallsBack_parseDated fragment before⟩

theorem parseChunks_error (fragment : Option Text) (notIndexable : ¬Indexable chunks) :
    parseChunks chunks fragment whatwhen = .error .runtimeException := by
  match chunks with
  | [] => rfl
  | [first] => rfl
  | first :: second :: rest =>
    have bare : second :: rest = ["shortcut".toList] := by
      by_contra other
      exact notIndexable ⟨by simp, other⟩
    obtain ⟨rfl, rfl⟩ := List.cons.inj bare
    rfl

end Falling

/-! ## Which addresses open -/

theorem routeChunks_of_indexable {chunks : List Text} (indexable : Indexable chunks) :
    ∃ shown, routeChunks chunks = [.setSection shown] := by
  unfold routeChunks
  split
  next => exact ⟨.bible, rfl⟩
  next => exact ⟨.lectures, by rw [if_pos (.inr indexable.1)]⟩

/-- Chunks that cannot be indexed never go to the Bible. -/
theorem routeChunks_of_not_indexable {chunks : List Text} (notIndexable : ¬Indexable chunks) :
    routeChunks chunks = [] ∨ routeChunks chunks = [.setSection .lectures] := by
  match chunks with
  | [] => exact .inl rfl
  | [first] => exact .inr rfl
  | first :: second :: rest =>
    have bare : second :: rest = ["shortcut".toList] := by
      by_contra other
      exact notIndexable ⟨by simp, other⟩
    obtain ⟨rfl, rfl⟩ := List.cons.inj bare
    exact .inr rfl

section Website

variable [UriCodec] {uri : Text} (host : Uri.getHost uri = some "www.aelf.org".toList)
include host

theorem onLink_website : onLink uri = if Uri.getScheme uri = some "aelf".toList then []
    else routeChunks (splitPath ((Uri.getPath uri).getD [])) := by
  have scheme : (Uri.getScheme uri).getD [] = "aelf".toList ↔ Uri.getScheme uri = some "aelf".toList := by
    cases Uri.getScheme uri with
    | none => simp
    | some scheme => simp
  have notApp : "www.aelf.org".toList ≠ "app.epitre.co".toList := by decide
  simp only [onLink, host, Option.getD_some, scheme, if_neg notApp, if_true]

theorem parseIntentUri_website [Locale] (now : Moment) :
    parseIntentUri now uri =
      (parseChunks (splitPath ((Uri.getPath uri).getD [])) (Uri.getFragment uri) (.default now)).map (⟨·, 0⟩) := by
  simp only [parseIntentUri, host, Option.getD_some, if_true]
  cases parseChunks (splitPath ((Uri.getPath uri).getD [])) (Uri.getFragment uri) (.default now) <;> rfl

/-- An address of the website opens something exactly when its scheme is not the one of the
application's own actions, its path has a chunk after a slash, and that is not a bare `shortcut`. -/
theorem opens_iff [Locale] (now : Moment) :
    Opens now uri ↔ Uri.getScheme uri ≠ some "aelf".toList ∧
      Indexable (splitPath ((Uri.getPath uri).getD [])) := by
  unfold Opens
  rw [onLink_website host, parseIntentUri_website host]
  constructor
  · rintro ⟨shown, selected, parses⟩
    split at selected
    next => cases selected
    next notAction =>
      refine ⟨notAction, ?_⟩
      by_contra notIndexable
      -- nothing is selected, or the lectures are and their parser throws
      obtain nothing | lectures := routeChunks_of_not_indexable notIndexable
      · rw [nothing] at selected
        cases selected
      · rw [lectures] at selected
        cases selected
        obtain ⟨state, parsed, _⟩ := parses rfl
        rw [parseChunks_error _ notIndexable] at parsed
        cases parsed
  · rintro ⟨notAction, indexable⟩
    obtain ⟨shown, selected⟩ := routeChunks_of_indexable indexable
    obtain ⟨after, parsed, fallsBack⟩ := parseChunks_ok (Uri.getFragment uri) indexable (fallsBack_default now _)
    refine ⟨shown, by rw [if_neg notAction, selected], fun _ => ⟨⟨after, 0⟩, by rw [parsed]; rfl, fallsBack⟩⟩

end Website

namespace Website

/-- Capital letters as every locale of the Latin alphabet but the Turkish ones writes them. -/
@[reducible] def latinLocale : Locale := ⟨fun text => text.map Char.toUpper⟩

def now : Moment := ⟨⟨2024, 5, 20, isDate_20_may_2024⟩, 0, midnight_lt⟩

def homePage : Text := "http://www.aelf.org/".toList

/-- The home page of the website, mass of the day, selects no section. -/
theorem home_page_opens_nothing :
    letI := latinLocale
    Uri.getHost homePage = some "www.aelf.org".toList ∧ ¬Opens now homePage := by
  refine ⟨by decide, ?_⟩
  rintro ⟨shown, selected, _⟩
  have nothing : onLink homePage = [] := by decide
  rw [nothing] at selected
  cases selected

def laudes : Text := "http://www.aelf.org/2017-01-27/romain/laudes".toList

theorem laudes_opens :
    letI := latinLocale
    Uri.getHost laudes = some "www.aelf.org".toList ∧ Opens now laudes := by
  let _ := latinLocale
  have host : Uri.getHost laudes = some "www.aelf.org".toList := by decide
  exact ⟨host, (opens_iff host now).mpr ⟨by decide, by unfold Indexable; decide⟩⟩

end Website

/-! ## Addresses that come back -/

theorem isDigits_pair {text : Text} (isDigits : Decimal.IsDigits text) (length : text.length = 2) :
    ∃ tens units, text = [tens, units] ∧ tens.isDigit = true ∧ units.isDigit = true := by
  match text, length with
  | [tens, units], _ => exact ⟨tens, units, rfl, isDigits tens (by simp), isDigits units (by simp)⟩

/-- The pattern of the parser accepts the dates of one century. -/
theorem looksLikeDate_dayText {date : Date} (fourDigits : FourDigitYear date) :
    looksLikeDate (dayText date) = true ↔ 2000 ≤ date.year ∧ date.year ≤ 2099 := by
  have era := yearOfEra_of_pos fourDigits.1
  have yearDigits := Decimal.isDigits_zeroPad 4 (yearOfEra date.year)
  have yearValue := Decimal.value_zeroPad 4 (yearOfEra date.year)
  have yearLength := length_yearText fourDigits
  obtain ⟨m₁, m₂, month, m₁Digit, m₂Digit⟩ := isDigits_pair (Decimal.isDigits_zeroPad 2 date.month) (length_monthText date)
  obtain ⟨d₁, d₂, day, d₁Digit, d₂Digit⟩ := isDigits_pair (Decimal.isDigits_zeroPad 2 date.day) (length_dayOfMonthText date)
  rw [dayText, month, day]
  generalize Decimal.zeroPad 4 (yearOfEra date.year) = year at yearDigits yearValue yearLength
  obtain ⟨y₁, y₂, y₃, y₄, rfl⟩ : ∃ y₁ y₂ y₃ y₄, year = [y₁, y₂, y₃, y₄] := List.length_eq_four.mp yearLength
  have y₁Digit := yearDigits y₁ (by simp)
  have y₂Digit := yearDigits y₂ (by simp)
  have y₃Digit := yearDigits y₃ (by simp)
  have y₄Digit := yearDigits y₄ (by simp)
  -- of a date the pattern only looks at the first two digits of the year
  have accepted : looksLikeDate ([y₁, y₂, y₃, y₄] ++ '-' :: ([m₁, m₂] ++ '-' :: [d₁, d₂])) = true ↔
      y₁ = '2' ∧ y₂ = '0' := by
    by_cases century : y₁ = '2' ∧ y₂ = '0'
    · obtain ⟨rfl, rfl⟩ := century
      simp [looksLikeDate, y₃Digit, y₄Digit, m₁Digit, m₂Digit, d₁Digit, d₂Digit]
    · simp only [century, iff_false]
      simp only [List.cons_append, List.nil_append]
      unfold looksLikeDate
      split
      next shape => simp_all
      next => simp
  have two : Decimal.digitValue '2' = 2 := rfl
  have zero : Decimal.digitValue '0' = 0 := rfl
  have low₂ := Decimal.digitValue_lt y₂Digit
  have low₃ := Decimal.digitValue_lt y₃Digit
  have low₄ := Decimal.digitValue_lt y₄Digit
  rw [accepted, Decimal.digit_eq_iff y₁Digit (by decide), Decimal.digit_eq_iff y₂Digit (by decide), two, zero]
  simp only [Decimal.value_cons, Decimal.value_nil, List.length_cons, List.length_nil] at yearValue
  omega

theorem dateFields_dayText {date : Date} (currentEra : 1 ≤ date.year) :
    dateFields (dayText date) = (date.year, (date.month : Int), (date.day : Int)) := by
  have noDash (width number : Nat) : '-' ∉ Decimal.zeroPad width number := fun member =>
    absurd (Decimal.isDigits_zeroPad width number '-' member) (by decide)
  have chunks : (dayText date).splitOn '-' =
      [Decimal.zeroPad 4 (yearOfEra date.year), Decimal.zeroPad 2 date.month, Decimal.zeroPad 2 date.day] := by
    rw [dayText, List.splitOn_append_cons_self_of_not_mem (noDash _ _),
      List.splitOn_append_cons_self_of_not_mem (noDash _ _), List.splitOn_eq_singleton (noDash _ _)]
  simp [dateFields, chunks, yearOfEra_of_pos currentEra]

/-- Splitting goes on behind a first chunk that is not empty. -/
theorem splitPath_dated {chunk : Text} (nonempty : chunk ≠ []) (inside : '/' ∉ chunk) (rest : Text) :
    ∃ others, splitPath ('/' :: (chunk ++ '/' :: rest)) = [] :: chunk :: others ∧
      others[1]? = (splitPath rest)[1]? := by
  have parts : ('/' :: (chunk ++ '/' :: rest)).splitOn '/' = [] :: chunk :: rest.splitOn '/' := by
    rw [← List.nil_append ('/' :: _), List.splitOn_append_cons_self_of_not_mem (by simp),
      List.splitOn_append_cons_self_of_not_mem inside]
  have trimmed : splitPath ('/' :: (chunk ++ '/' :: rest)) =
      [] :: chunk :: ((rest.splitOn '/').reverse.dropWhile List.isEmpty).reverse := by
    rw [splitPath, if_pos (by simp), parts, List.reverse_cons, List.reverse_cons, List.append_assoc,
      List.dropWhile_append]
    split
    next empty =>
      rw [List.isEmpty_iff] at empty
      simp [empty, nonempty]
    next => simp
  refine ⟨_, trimmed, ?_⟩
  rw [splitPath]
  split
  next => rfl
  next noSlash =>
    rw [List.splitOn_eq_singleton noSlash]
    cases rest with
    | nil => rfl
    | cons c rest => rfl

/-- The chunk after the region, where the parser looks for the office. -/
def officeChunk (what : OfficeTypes) (region : Text) : Option Text :=
  (splitPath (PercentCoding.decode false (region ++ '/' :: what.urlName.toList)))[1]?

/-- The office that a chunk names: mass when it names none, or is not there. -/
def officeIn [Locale] : Option Text → OfficeTypes
  | none => .messe
  | some office_name => (OfficeTypes.valueOf (Locale.toUpperCase office_name)).getD .messe

/-- The office read after the region is the one that was written. -/
def KeepsOffice [Locale] (what : OfficeTypes) (region : Text) : Prop :=
  officeIn (officeChunk what region) = what

/-- Reading a written address gives back the office, the day and the key, at any time. -/
def RoundTrips [Locale] (what : OfficeTypes) (date : Date) (region : Text) (key : Option Text) : Prop :=
  ∀ now, ∃ state, parseIntentUri now (buildUri what (.ofDay date) region key) = .ok state ∧
    state.whatwhen.what = some what ∧ state.whatwhen.when.map AelfDate.day = some date ∧
    state.whatwhen.anchor = key

theorem buildUri_eq_page (what : OfficeTypes) (date : Date) (region : Text) (key : Option Text) :
    buildUri what (.ofDay date) region key = Uri.page "https".toList "www.aelf.org".toList
      ('/' :: (dayText date ++ '/' :: (region ++ '/' :: what.urlName.toList))) key := by
  have start : "https://www.aelf.org/".toList =
      "https".toList ++ ':' :: '/' :: '/' :: ("www.aelf.org".toList ++ ['/']) := by decide
  have day : (AelfDate.ofDay date).toIsoString.toList = dayText date := by
    rw [AelfDate.toIsoString, String.toList_ofList]
    rfl
  delta buildUri Uri.page
  rw [start, day]
  cases key with
  | none => simp [Uri.fragmentSuffix]
  | some key => simp [Uri.fragmentSuffix]

theorem urlName_chars (what : OfficeTypes) {c : Char} (member : c ∈ what.urlName.toList) : c.isAlpha = true := by
  have letters : what.urlName.toList.all Char.isAlpha = true := by cases what <;> rfl
  exact List.all_eq_true.mp letters c member

theorem dayText_chars {date : Date} {c : Char} (member : c ∈ dayText date) : c.isDigit = true ∨ c = '-' := by
  simp only [dayText, List.mem_append, List.mem_cons] at member
  obtain year | dash | month | dash | day := member
  · exact .inl (Decimal.isDigits_zeroPad _ _ c year)
  · exact .inr dash
  · exact .inl (Decimal.isDigits_zeroPad _ _ c month)
  · exact .inr dash
  · exact .inl (Decimal.isDigits_zeroPad _ _ c day)

theorem not_mem_dayText {c : Char} (notDigit : c.isDigit = false) (notDash : c ≠ '-') (date : Date) :
    c ∉ dayText date := by
  intro member
  obtain digit | dash := dayText_chars member
  · rw [notDigit] at digit
    cases digit
  · exact notDash dash

theorem dayText_ne_nil (date : Date) : dayText date ≠ [] := by
  simp [dayText]

/-- What the parser makes of chunks that start with a date. -/
theorem parseChunks_dayText [Locale] {now : Moment} {date : Date} {others : List Text} (fragment : Option Text) :
    parseChunks ([] :: dayText date :: others) fragment (.default now) =
      .ok (parseDated ([] :: dayText date :: others) fragment (.default now)) := by
  have notLegacy : "office-".toList.isPrefixOf (dayText date) = false := by
    by_contra isPrefix
    rw [Bool.not_eq_false, List.isPrefixOf_iff_prefix] at isPrefix
    exact not_mem_dayText (by decide) (by decide) date (isPrefix.subset (by simp : 'o' ∈ "office-".toList))
  have notShortcut : dayText date ≠ "shortcut".toList := by
    intro same
    exact not_mem_dayText (by decide) (by decide) date (same ▸ (by simp : 's' ∈ "shortcut".toList))
  have second : ([] :: dayText date :: others : List Text).getD 1 [] = dayText date := rfl
  simp only [parseChunks, second, notLegacy, Bool.and_false, Bool.false_eq_true, if_false, chunkAt,
    List.getElem?_cons_succ, List.getElem?_cons_zero, deref, bind, Except.bind, if_neg notShortcut]
  rfl

section Written

variable {region : Text} {key : Option Text}

theorem endsPath_officePath (what : OfficeTypes) (date : Date) (inRegion : ∀ c ∈ region, Uri.endsPath c = false) :
    ∀ c ∈ dayText date ++ '/' :: (region ++ '/' :: what.urlName.toList), Uri.endsPath c = false := by
  intro c member
  simp only [List.mem_append, List.mem_cons] at member
  obtain day | rfl | inside | rfl | name := member
  · obtain digit | rfl := dayText_chars day
    · by_contra ends
      simp only [Uri.endsPath, Bool.not_eq_false, Bool.or_eq_true, decide_eq_true_eq] at ends
      obtain rfl | rfl := ends <;> exact absurd digit (by decide)
    · rfl
  · rfl
  · exact inRegion c inside
  · rfl
  · by_contra ends
    simp only [Uri.endsPath, Bool.not_eq_false, Bool.or_eq_true, decide_eq_true_eq] at ends
    have letter := urlName_chars what name
    obtain rfl | rfl := ends <;> exact absurd letter (by decide)

theorem website_plain : ':' ∉ "https".toList ∧ ∀ c ∈ "www.aelf.org".toList, Uri.endsAuthority c = false := by
  refine ⟨by decide, ?_⟩
  simp [Uri.endsAuthority, Uri.endsPath]

theorem getHost_buildUri (what : OfficeTypes) (date : Date) :
    Uri.getHost (buildUri what (.ofDay date) region key) = some "www.aelf.org".toList := by
  rw [buildUri_eq_page, Uri.getHost_page website_plain.1 website_plain.2]
  decide

theorem getFragment_buildUri (what : OfficeTypes) (date : Date) (inRegion : ∀ c ∈ region, Uri.endsPath c = false)
    (inKey : ∀ text, key = some text → '%' ∉ text) :
    Uri.getFragment (buildUri what (.ofDay date) region key) = key := by
  rw [buildUri_eq_page, Uri.getFragment_page website_plain.1 website_plain.2 (endsPath_officePath what date inRegion)]
  cases key with
  | none => rfl
  | some key =>
    have same := (PercentCoding.decode_eq_self_iff false key).mpr ⟨inKey key rfl, by simp⟩
    rw [Option.map_some]
    exact congrArg some same

theorem getPath_buildUri (what : OfficeTypes) (date : Date) (inRegion : ∀ c ∈ region, Uri.endsPath c = false) :
    Uri.getPath (buildUri what (.ofDay date) region key) = some ('/' :: (dayText date ++
      '/' :: PercentCoding.decode false (region ++ '/' :: what.urlName.toList))) := by
  -- the day has nothing to decode, so that decoding starts after it
  have noEscape : '%' ∉ '/' :: (dayText date ++ ['/']) := by
    have inDay : '%' ∉ dayText date := not_mem_dayText (by decide) (by decide) date
    simp [inDay]
  have noPlus : '+' ∉ '/' :: (dayText date ++ ['/']) := by
    have inDay : '+' ∉ dayText date := not_mem_dayText (by decide) (by decide) date
    simp [inDay]
  have shape : '/' :: (dayText date ++ '/' :: (region ++ '/' :: what.urlName.toList)) =
      '/' :: (dayText date ++ ['/']) ++ (region ++ '/' :: what.urlName.toList) := by simp
  rw [buildUri_eq_page, Uri.getPath_page website_plain.1 website_plain.2 (endsPath_officePath what date inRegion), shape]
  change some (PercentCoding.decode false _) = _
  rw [PercentCoding.decode_append noEscape noPlus]
  simp

end Written

section RoundTrip

variable [Locale] {date : Date} {region : Text} {key : Option Text}

/-- What the parser makes of a written address. -/
theorem parseIntentUri_buildUri (what : OfficeTypes) (date : Date) (now : Moment) (inRegion : ∀ c ∈ region, Uri.endsPath c = false)
    (inKey : ∀ text, key = some text → '%' ∉ text) :
    ∃ others : List Text, others[1]? = officeChunk what region ∧
      parseIntentUri now (buildUri what (.ofDay date) region key) =
        .ok ⟨parseDated ([] :: dayText date :: others) key (.default now), 0⟩ := by
  have noSlash : '/' ∉ dayText date := not_mem_dayText (by decide) (by decide) date
  obtain ⟨others, chunks, second⟩ := splitPath_dated (dayText_ne_nil date) noSlash
    (PercentCoding.decode false (region ++ '/' :: what.urlName.toList))
  refine ⟨others, second, ?_⟩
  rw [parseIntentUri_website (getHost_buildUri what date), getPath_buildUri what date inRegion, Option.getD_some, chunks,
    getFragment_buildUri what date inRegion inKey, parseChunks_dayText]
  rfl

theorem parseDated_what (fragment : Option Text) (others : List Text) (now : Moment) :
    (parseDated ([] :: dayText date :: others) fragment (.default now)).what =
      some (officeIn others[1]?) := by
  have mass : (parseDate (dayText date) (.default now)).what = some .messe := by
    unfold parseDate
    split <;> rfl
  simp only [parseDated, List.getElem?_cons_succ, List.getElem?_cons_zero]
  cases others[1]? with
  | none => exact mass
  | some office_name =>
    simp only [parseOffice, officeIn]
    cases OfficeTypes.valueOf (Locale.toUpperCase office_name) <;> rfl

theorem parseDated_when (fourDigits : FourDigitYear date) (fragment : Option Text) (others : List Text)
    (now : Moment) :
    (parseDated ([] :: dayText date :: others) fragment (.default now)).when.map AelfDate.day =
      some (if 2000 ≤ date.year ∧ date.year ≤ 2099 then date else now.date) := by
  have read : (parseDate (dayText date) (.default now)).when.map AelfDate.day =
      some (if 2000 ≤ date.year ∧ date.year ≤ 2099 then date else now.date) := by
    simp only [parseDate, looksLikeDate_dayText fourDigits, dateFields_dayText fourDigits.1]
    split
    next => exact congrArg some (Date.ofFields_self date)
    next => rfl
  simp only [parseDated, List.getElem?_cons_succ, List.getElem?_cons_zero]
  cases others[1]? with
  | none => exact read
  | some office_name =>
    simp only [parseOffice]
    cases OfficeTypes.valueOf (Locale.toUpperCase office_name) <;> exact read

/-- A region without escapes leaves the office where it is. -/
theorem keepsOffice_of_plain {what : OfficeTypes} (noEscape : '%' ∉ region) (noSlash : '/' ∉ region)
    (capitals : Locale.toUpperCase what.urlName.toList = what.name) : KeepsOffice what region := by
  have letters : ∀ c ∈ what.urlName.toList, c.isAlpha = true := fun c => urlName_chars what
  have plain : '%' ∉ region ++ '/' :: what.urlName.toList := by
    simp only [List.mem_append, List.mem_cons, not_or]
    exact ⟨noEscape, by decide, fun member => absurd (letters '%' member) (by decide)⟩
  have decoded := (PercentCoding.decode_eq_self_iff false _).mpr ⟨plain, by simp⟩
  have nameNoSlash : '/' ∉ what.urlName.toList := fun member => absurd (letters '/' member) (by decide)
  have nonempty : what.urlName.toList ≠ [] := by cases what <;> decide
  have chunks : splitPath (region ++ '/' :: what.urlName.toList) = [region, what.urlName.toList] := by
    rw [splitPath, if_pos (by simp), List.splitOn_append_cons_self_of_not_mem noSlash,
      List.splitOn_eq_singleton nameNoSlash]
    simp [nonempty]
  rw [KeepsOffice, officeChunk, decoded, chunks]
  simp [officeIn, capitals, OfficeTypes.valueOf_name]

end RoundTrip

namespace Website

end Website

end Aelf.Lectures
