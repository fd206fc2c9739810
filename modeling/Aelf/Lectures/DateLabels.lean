import Aelf.Lectures.Dates
import Aelf.Library.DayCount
import Mathlib.Data.List.GetD
import Mathlib.Data.List.Nodup

/-! # Labels of dates

The words `AelfDate` has for a day: relative to today when it is close, with the day
of the month otherwise.  `now` is the moment at which `new GregorianCalendar()` is
evaluated.  `internalPrettyString` writes one of a few kinds of label; what a label
means to its reader is stated apart, and a label misleads exactly when the day it is
written for is not the day it denotes. -/

namespace Aelf.Lectures

open Aelf.Library
open Aelf.Library.Calendar (Date Moment)

/-! ## Names -/

/-- The texts of `SimpleDateFormat` for single fields in the language of the device: `EEEE`, `MMMM`,
`d` and `y`, or `E`, `MMM`, `d` and `y`.  Distinct values have distinct texts, which still hold apart
when the fields follow one another with a space in between. -/
structure DateNames where
  weekday : Nat → List Char
  month : Nat → List Char
  day : Nat → List Char
  year : Nat → List Char
  weekday_apart : ∀ first second, 1 ≤ first ∧ first ≤ 7 → 1 ≤ second ∧ second ≤ 7 →
    weekday first ++ [' '] <+: weekday second ++ [' '] → first = second
  month_distinct : ∀ first second, 1 ≤ first ∧ first ≤ 12 → 1 ≤ second ∧ second ≤ 12 →
    month first = month second → first = second
  month_undated : ∀ first second number, 1 ≤ first ∧ first ≤ 12 → 1 ≤ second ∧ second ≤ 12 →
    month first ≠ month second ++ ' ' :: year number
  day_distinct : ∀ first second, 1 ≤ first ∧ first ≤ 31 → 1 ≤ second ∧ second ≤ 31 →
    day first = day second → first = second
  day_unspaced : ∀ number, ' ' ∉ day number
  year_distinct : ∀ first second, year first = year second → first = second
  year_unspaced : ∀ number, ' ' ∉ year number

/-! ## `internalPrettyString` -/

namespace AelfDate

/-- Whether `ERA` is the current one. -/
def era (date : AelfDate) : Bool := 0 < date.day.year

def isSameYear (date other : AelfDate) : Bool :=
  date.era = other.era && yearOfEra date.day.year = yearOfEra other.day.year

def isSameDay (date other : AelfDate) : Bool := date.isSameYear other && date.day.dayOfYear = other.day.dayOfYear

def isToday (date now : AelfDate) : Bool := date.isSameDay now

def isSunday (date : AelfDate) : Bool := date.day.dayOfWeek = 1

def isYesterday (date now : AelfDate) : Bool := date.isSameDay (now.addDays (-1))

def isTomorrow (date now : AelfDate) : Bool := date.isSameDay (now.addDays 1)

def isWithin7PrevDays (date now : AelfDate) : Bool :=
  date.moment < now.moment && (now.addDays (-8)).moment ≤ date.moment

def isWithin7NextDays (date now : AelfDate) : Bool :=
  -- only the lower bound has its time cleared
  (ofDay now.day).moment ≤ date.moment && date.moment < (now.addDays 8).moment

def internalPrettyString (date now : AelfDate) (names : DateNames) (withDeterminant : Bool) : List Char :=
  if date.isToday now then (if withDeterminant then "d'aujourd'hui" else "aujourd'hui").toList
  else if date.isTomorrow now && !date.isSunday then (if withDeterminant then "de demain" else "demain").toList
  else if date.isYesterday now && !date.isSunday then (if withDeterminant then "d'hier" else "hier").toList
  else if date.isWithin7NextDays now then
    (if withDeterminant then "de " else "").toList ++ names.weekday date.day.dayOfWeek ++ " prochain".toList
  else if date.isWithin7PrevDays now then
    (if withDeterminant then "de " else "").toList ++ names.weekday date.day.dayOfWeek ++ " dernier".toList
  else if date.isSameYear now then
    (if withDeterminant then "du " else "").toList ++ names.weekday date.day.dayOfWeek ++ ' ' ::
      (names.day date.day.day ++ ' ' :: names.month date.day.month)
  else
    (if withDeterminant then "du " else "").toList ++ names.weekday date.day.dayOfWeek ++ ' ' ::
      (names.day date.day.day ++ ' ' :: (names.month date.day.month ++ ' ' :: names.year (yearOfEra date.day.year)))

/-- `EEEE` and `MMMM`, with the determinant. -/
def toPrettyString (date now : AelfDate) (names : DateNames) : List Char := date.internalPrettyString now names true

/-- `E` and `MMM`, without it. -/
def toShortPrettyString (date now : AelfDate) (names : DateNames) : List Char :=
  date.internalPrettyString now names false

end AelfDate

/-! ## Labels -/

inductive Nearby where
  | today
  | tomorrow
  | yesterday
deriving DecidableEq

/-- What follows the name of the weekday. -/
inductive Detail where
  | next
  | last
  | inYear (day month : Nat)
  | dated (day month year : Nat)
deriving DecidableEq

inductive Label where
  | nearby (day : Nearby)
  | named (weekday : Nat) (detail : Detail)
deriving DecidableEq

def Nearby.text : Nearby → Bool → List Char
  | .today, withDeterminant => (if withDeterminant then "d'aujourd'hui" else "aujourd'hui").toList
  | .tomorrow, withDeterminant => (if withDeterminant then "de demain" else "demain").toList
  | .yesterday, withDeterminant => (if withDeterminant then "d'hier" else "hier").toList

namespace Detail

def intro : Detail → Bool → List Char
  | .next, withDeterminant | .last, withDeterminant => (if withDeterminant then "de " else "").toList
  | .inYear _ _, withDeterminant | .dated _ _ _, withDeterminant => (if withDeterminant then "du " else "").toList

def text (names : DateNames) : Detail → List Char
  | .next => "prochain".toList
  | .last => "dernier".toList
  | .inYear day month => names.day day ++ ' ' :: names.month month
  | .dated day month year => names.day day ++ ' ' :: (names.month month ++ ' ' :: names.year year)

def Valid : Detail → Prop
  | .next | .last => True
  | .inYear day month | .dated day month _ => (1 ≤ day ∧ day ≤ 31) ∧ 1 ≤ month ∧ month ≤ 12

end Detail

namespace Label

def text (names : DateNames) (withDeterminant : Bool) : Label → List Char
  | .nearby day => day.text withDeterminant
  | .named weekday detail => detail.intro withDeterminant ++ names.weekday weekday ++ ' ' :: detail.text names

def Valid : Label → Prop
  | .nearby _ => True
  | .named weekday detail => (1 ≤ weekday ∧ weekday ≤ 7) ∧ detail.Valid

end Label

/-! ## A label can be read back -/

theorem Nearby.text_injective (withDeterminant : Bool) : Function.Injective fun day : Nearby => day.text withDeterminant := by
  intro first second
  cases first <;> cases second <;> decide +kernel +revert

theorem append_space_inj {first second firstRest secondRest : List Char} (firstUnspaced : ' ' ∉ first)
    (secondUnspaced : ' ' ∉ second) (same : first ++ ' ' :: firstRest = second ++ ' ' :: secondRest) :
    first = second ∧ firstRest = secondRest := by
  have sameWords := congrArg (List.splitOn ' ') same
  rw [List.splitOn_append_cons_self_of_not_mem firstUnspaced, List.splitOn_append_cons_self_of_not_mem secondUnspaced]
    at sameWords
  obtain rfl := (List.cons.inj sameWords).1
  rw [List.append_cancel_left_eq, List.cons.injEq] at same
  exact ⟨rfl, same.2⟩

theorem append_last_space_inj {first second firstLast secondLast : List Char} (firstUnspaced : ' ' ∉ firstLast)
    (secondUnspaced : ' ' ∉ secondLast) (same : first ++ ' ' :: firstLast = second ++ ' ' :: secondLast) :
    first = second ∧ firstLast = secondLast := by
  have reversed := congrArg List.reverse same
  rw [List.reverse_append, List.reverse_append, List.reverse_cons, List.reverse_cons, List.append_assoc,
    List.append_assoc] at reversed
  obtain ⟨sameLast, sameFirst⟩ := append_space_inj (by simpa using firstUnspaced) (by simpa using secondUnspaced) reversed
  exact ⟨List.reverse_injective sameFirst, List.reverse_injective sameLast⟩

namespace Detail

def IsDated : Detail → Prop
  | .next | .last => False
  | .inYear _ _ | .dated _ _ _ => True

theorem mem_text_iff (names : DateNames) (detail : Detail) : ' ' ∈ detail.text names ↔ detail.IsDated := by
  cases detail with
  | next =>
    change ' ' ∈ "prochain".toList ↔ False
    decide +kernel
  | last =>
    change ' ' ∈ "dernier".toList ↔ False
    decide +kernel
  | inYear day month =>
    have spaced : ' ' ∈ names.day day ++ ' ' :: names.month month := by simp
    exact iff_of_true spaced trivial
  | dated day month year =>
    have spaced : ' ' ∈ names.day day ++ ' ' :: (names.month month ++ ' ' :: names.year year) := by simp
    exact iff_of_true spaced trivial

theorem text_injective (names : DateNames) {first second : Detail} (firstValid : first.Valid)
    (secondValid : second.Valid) (same : first.text names = second.text names) : first = second := by
  -- a text with a space has a day in it
  have sameSpaces := mem_text_iff names first
  rw [same, mem_text_iff] at sameSpaces
  have apart : next.text names ≠ last.text names := by
    change "prochain".toList ≠ "dernier".toList
    decide +kernel
  cases first with
  | next =>
    cases second with
    | next => rfl
    | last => exact absurd same apart
    | inYear day month => simp [IsDated] at sameSpaces
    | dated day month year => simp [IsDated] at sameSpaces
  | last =>
    cases second with
    | next => exact absurd same.symm apart
    | last => rfl
    | inYear day month => simp [IsDated] at sameSpaces
    | dated day month year => simp [IsDated] at sameSpaces
  | inYear day month =>
    cases second with
    | next => simp [IsDated] at sameSpaces
    | last => simp [IsDated] at sameSpaces
    | inYear otherDay otherMonth =>
      obtain ⟨sameDay, sameMonth⟩ := append_space_inj (names.day_unspaced _) (names.day_unspaced _) same
      rw [names.day_distinct _ _ firstValid.1 secondValid.1 sameDay,
        names.month_distinct _ _ firstValid.2 secondValid.2 sameMonth]
    | dated otherDay otherMonth otherYear =>
      have sameMonth := (append_space_inj (names.day_unspaced _) (names.day_unspaced _) same).2
      exact absurd sameMonth (names.month_undated _ _ _ firstValid.2 secondValid.2)
  | dated day month year =>
    cases second with
    | next => simp [IsDated] at sameSpaces
    | last => simp [IsDated] at sameSpaces
    | inYear otherDay otherMonth =>
      have sameMonth := (append_space_inj (names.day_unspaced _) (names.day_unspaced _) same).2
      exact absurd sameMonth.symm (names.month_undated _ _ _ secondValid.2 firstValid.2)
    | dated otherDay otherMonth otherYear =>
      -- the day ends at the first space, the year starts after the last
      obtain ⟨sameDay, sameRest⟩ := append_space_inj (names.day_unspaced _) (names.day_unspaced _) same
      obtain ⟨sameMonth, sameYear⟩ := append_last_space_inj (names.year_unspaced _) (names.year_unspaced _) sameRest
      rw [names.day_distinct _ _ firstValid.1 secondValid.1 sameDay,
        names.month_distinct _ _ firstValid.2 secondValid.2 sameMonth, names.year_distinct _ _ sameYear]

end Detail

namespace Label

/-- The text without the determinant, a short label being its own. -/
def body (withDeterminant : Bool) (text : List Char) : List Char := if withDeterminant then text.drop 3 else text

theorem body_nearby (names : DateNames) (withDeterminant : Bool) (day : Nearby) :
    ' ' ∉ body withDeterminant ((nearby day).text names withDeterminant) := by
  change ' ' ∉ body withDeterminant (day.text withDeterminant)
  cases day <;> decide +kernel +revert

theorem body_named (names : DateNames) (withDeterminant : Bool) (weekday : Nat) (detail : Detail) :
    body withDeterminant ((named weekday detail).text names withDeterminant) =
      names.weekday weekday ++ ' ' :: detail.text names := by
  have dropped (intro : String) (rest : List Char) (length : intro.toList.length = 3) :
      (intro.toList ++ rest).drop 3 = rest := List.drop_left' length
  cases withDeterminant with
  | false => cases detail <;> rfl
  | true =>
    rw [body, if_pos rfl, text, List.append_assoc]
    cases detail <;> exact dropped _ _ rfl

theorem nearby_text_ne_named (names : DateNames) (withDeterminant : Bool) (day : Nearby) (weekday : Nat)
    (detail : Detail) :
    (nearby day).text names withDeterminant ≠ (named weekday detail).text names withDeterminant := by
  intro same
  have unspaced := body_nearby names withDeterminant day
  rw [same, body_named] at unspaced
  simp at unspaced

theorem text_injective (names : DateNames) (withDeterminant : Bool) {first second : Label} (firstValid : first.Valid)
    (secondValid : second.Valid) (same : first.text names withDeterminant = second.text names withDeterminant) :
    first = second := by
  cases first with
  | nearby day =>
    cases second with
    | nearby otherDay => rw [Nearby.text_injective withDeterminant same]
    | named weekday detail => exact absurd same (nearby_text_ne_named names _ _ _ _)
  | named weekday detail =>
    cases second with
    | nearby day => exact absurd same.symm (nearby_text_ne_named names _ _ _ _)
    | named otherWeekday otherDetail =>
      have sameBody := congrArg (body withDeterminant) same
      rw [body_named, body_named] at sameBody
      -- both names begin the same text, so one of them begins the other
      have sameWeekday : weekday = otherWeekday := by
        have firstBegins : names.weekday weekday ++ [' '] <+: names.weekday weekday ++ ' ' :: detail.text names :=
          ⟨detail.text names, by simp⟩
        have secondBegins : names.weekday otherWeekday ++ [' '] <+: names.weekday weekday ++ ' ' :: detail.text names :=
          ⟨otherDetail.text names, by simp [sameBody]⟩
        obtain shorter | longer := List.prefix_or_prefix_of_prefix firstBegins secondBegins
        · exact names.weekday_apart _ _ firstValid.1 secondValid.1 shorter
        · exact (names.weekday_apart _ _ secondValid.1 firstValid.1 longer).symm
      subst sameWeekday
      rw [List.append_cancel_left_eq, List.cons.injEq] at sameBody
      rw [Detail.text_injective names firstValid.2 secondValid.2 sameBody.2]

end Label

/-! ## The label of a date -/

namespace AelfDate

def label (date now : AelfDate) : Label :=
  if date.isToday now then .nearby .today
  else if date.isTomorrow now && !date.isSunday then .nearby .tomorrow
  else if date.isYesterday now && !date.isSunday then .nearby .yesterday
  else .named date.day.dayOfWeek
    (if date.isWithin7NextDays now then .next
    else if date.isWithin7PrevDays now then .last
    else if date.isSameYear now then .inYear date.day.day date.day.month
    else .dated date.day.day date.day.month (yearOfEra date.day.year))

theorem internalPrettyString_eq (date now : AelfDate) (names : DateNames) (withDeterminant : Bool) :
    date.internalPrettyString now names withDeterminant = (date.label now).text names withDeterminant := by
  unfold internalPrettyString label
  by_cases today : date.isToday now = true
  · rw [if_pos today, if_pos today]
    rfl
  rw [if_neg today, if_neg today]
  by_cases tomorrow : (date.isTomorrow now && !date.isSunday) = true
  · rw [if_pos tomorrow, if_pos tomorrow]
    rfl
  rw [if_neg tomorrow, if_neg tomorrow]
  by_cases yesterday : (date.isYesterday now && !date.isSunday) = true
  · rw [if_pos yesterday, if_pos yesterday]
    rfl
  rw [if_neg yesterday, if_neg yesterday]
  by_cases ahead : date.isWithin7NextDays now = true
  · rw [if_pos ahead, if_pos ahead]
    rfl
  rw [if_neg ahead, if_neg ahead]
  by_cases behind : date.isWithin7PrevDays now = true
  · rw [if_pos behind, if_pos behind]
    rfl
  rw [if_neg behind, if_neg behind]
  by_cases thisYear : date.isSameYear now = true
  · rw [if_pos thisYear, if_pos thisYear]
    rfl
  · rw [if_neg thisYear, if_neg thisYear]
    rfl

theorem label_valid (date now : AelfDate) : (date.label now).Valid := by
  have weekday := date.day.dayOfWeek_bounds
  have fields := And.intro date.day.day_bounds date.day.month_bounds
  unfold label
  split_ifs <;> trivial

theorem internalPrettyString_inj {first second now : AelfDate} (names : DateNames) (withDeterminant : Bool) :
    first.internalPrettyString now names withDeterminant = second.internalPrettyString now names withDeterminant ↔
      first.label now = second.label now := by
  rw [internalPrettyString_eq, internalPrettyString_eq]
  constructor
  · exact Label.text_injective names withDeterminant (first.label_valid now) (second.label_valid now)
  · exact congrArg _

/-! ## Days from today -/

/-- The days from today to the date. -/
def daysAhead (date now : AelfDate) : Int := date.day.dayNumber - now.day.dayNumber

def timeOfDay (date : AelfDate) : Nat := date.moment.millis

theorem isSameYear_iff (date other : AelfDate) : date.isSameYear other = true ↔ date.day.year = other.day.year := by
  rw [isSameYear, Bool.and_eq_true, decide_eq_true_eq, decide_eq_true_eq, era, era, decide_eq_decide, yearOfEra,
    yearOfEra]
  split_ifs <;> omega

theorem isSameDay_iff (date other : AelfDate) :
    date.isSameDay other = true ↔ date.day.dayNumber = other.day.dayNumber := by
  rw [isSameDay, Bool.and_eq_true, isSameYear_iff, decide_eq_true_eq]
  constructor
  · intro ⟨sameYear, sameDay⟩
    rw [Date.dayNumber, Date.dayNumber, sameYear, sameDay]
  · intro sameDay
    rw [Date.dayNumber_injective sameDay]
    exact ⟨rfl, rfl⟩

theorem isToday_iff (date now : AelfDate) : date.isToday now = true ↔ date.daysAhead now = 0 := by
  rw [isToday, isSameDay_iff, daysAhead]
  omega

theorem isTomorrow_iff (date now : AelfDate) : date.isTomorrow now = true ↔ date.daysAhead now = 1 := by
  rw [isTomorrow, isSameDay_iff, day_addDays, Date.dayNumber_addDays, daysAhead]
  omega

theorem isYesterday_iff (date now : AelfDate) : date.isYesterday now = true ↔ date.daysAhead now = -1 := by
  rw [isYesterday, isSameDay_iff, day_addDays, Date.dayNumber_addDays, daysAhead]
  omega

theorem moment_lt_iff (first second : AelfDate) :
    first.moment < second.moment ↔ first.day.dayNumber < second.day.dayNumber ∨
      first.day.dayNumber = second.day.dayNumber ∧ first.timeOfDay < second.timeOfDay :=
  Calendar.Moment.lt_iff_dayNumber _ _

@[simp] theorem timeOfDay_addDays (date : AelfDate) (count : Int) :
    (date.addDays count).timeOfDay = date.timeOfDay := rfl

theorem isWithin7NextDays_iff (date now : AelfDate) :
    date.isWithin7NextDays now = true ↔
      0 ≤ date.daysAhead now ∧
        (date.daysAhead now ≤ 7 ∨ date.daysAhead now = 8 ∧ date.timeOfDay < now.timeOfDay) := by
  have midnight : (ofDay now.day).timeOfDay = 0 := rfl
  rw [isWithin7NextDays, Bool.and_eq_true, decide_eq_true_eq, decide_eq_true_eq, ← not_lt, moment_lt_iff,
    moment_lt_iff, timeOfDay_addDays, day_addDays, Date.dayNumber_addDays, midnight, day_ofDay, daysAhead]
  omega

theorem isWithin7PrevDays_iff (date now : AelfDate) :
    date.isWithin7PrevDays now = true ↔
      (date.daysAhead now < 0 ∨ date.daysAhead now = 0 ∧ date.timeOfDay < now.timeOfDay) ∧
        (-7 ≤ date.daysAhead now ∨ date.daysAhead now = -8 ∧ now.timeOfDay ≤ date.timeOfDay) := by
  rw [isWithin7PrevDays, Bool.and_eq_true, decide_eq_true_eq, decide_eq_true_eq, ← not_lt, moment_lt_iff,
    moment_lt_iff, timeOfDay_addDays, day_addDays, Date.dayNumber_addDays, daysAhead]
  omega

/-- The eighth day, when it is taken for one of the seven: ahead it is so before the present time
of the day, and behind from that time on. -/
def OnEighthDay (date now : AelfDate) : Prop :=
  date.daysAhead now = 8 ∧ date.timeOfDay < now.timeOfDay ∨
    date.daysAhead now = -8 ∧ now.timeOfDay ≤ date.timeOfDay

instance (date now : AelfDate) : Decidable (date.OnEighthDay now) := inferInstanceAs (Decidable (_ ∨ _))

end AelfDate

/-! ## What a label denotes -/

def Detail.Denotes (now date : AelfDate) : Detail → Prop
  | .next => 1 ≤ date.daysAhead now ∧ date.daysAhead now ≤ 7
  | .last => -7 ≤ date.daysAhead now ∧ date.daysAhead now ≤ -1
  | .inYear day month => date.day.year = now.day.year ∧ date.day.month = month ∧ date.day.day = day
  | .dated day month year => yearOfEra date.day.year = year ∧ date.day.month = month ∧ date.day.day = day

/-- Whether a reader of the label at the moment `now` understands the day of the date. -/
def Label.Denotes (now date : AelfDate) : Label → Prop
  | .nearby .today => date.daysAhead now = 0
  | .nearby .tomorrow => date.daysAhead now = 1
  | .nearby .yesterday => date.daysAhead now = -1
  | .named weekday detail => date.day.dayOfWeek = weekday ∧ detail.Denotes now date

theorem sameDay_of_daysAhead {first second now : AelfDate} (same : first.daysAhead now = second.daysAhead now) :
    first.day = second.day := by
  apply Date.dayNumber_injective
  rw [AelfDate.daysAhead, AelfDate.daysAhead] at same
  omega

theorem sameDay_of_weekday {first second : AelfDate} (now : AelfDate) (sameWeekday : first.day.dayOfWeek = second.day.dayOfWeek)
    (within : -7 < first.daysAhead now - second.daysAhead now ∧ first.daysAhead now - second.daysAhead now < 7) :
    first.day = second.day := by
  apply Date.dayNumber_injective
  rw [Date.dayOfWeek_eq_iff] at sameWeekday
  rw [AelfDate.daysAhead, AelfDate.daysAhead] at within
  omega

theorem sameDay_of_fields {first second : Date} (sameYear : first.year = second.year)
    (sameMonth : first.month = second.month) (sameDay : first.day = second.day) : first = second := by
  apply Date.rank_injective
  rw [Date.rank, Date.rank, sameYear, sameMonth, sameDay]

/-- A label denotes at most one day of the current era. -/
theorem Label.denotes_unique {label : Label} {now first second : AelfDate} (firstEra : 1 ≤ first.day.year)
    (secondEra : 1 ≤ second.day.year) (denotesFirst : label.Denotes now first)
    (denotesSecond : label.Denotes now second) : first.day = second.day := by
  cases label with
  | nearby day => cases day <;> exact sameDay_of_daysAhead (denotesFirst.trans denotesSecond.symm)
  | named weekday detail =>
    obtain ⟨firstWeekday, firstDetail⟩ := denotesFirst
    obtain ⟨secondWeekday, secondDetail⟩ := denotesSecond
    have sameWeekday := firstWeekday.trans secondWeekday.symm
    cases detail with
    | next =>
      simp only [Detail.Denotes] at firstDetail secondDetail
      exact sameDay_of_weekday now sameWeekday (by omega)
    | last =>
      simp only [Detail.Denotes] at firstDetail secondDetail
      exact sameDay_of_weekday now sameWeekday (by omega)
    | inYear day month =>
      obtain ⟨firstYear, firstMonth, firstDay⟩ := firstDetail
      obtain ⟨secondYear, secondMonth, secondDay⟩ := secondDetail
      exact sameDay_of_fields (firstYear.trans secondYear.symm) (firstMonth.trans secondMonth.symm)
        (firstDay.trans secondDay.symm)
    | dated day month year =>
      obtain ⟨firstYear, firstMonth, firstDay⟩ := firstDetail
      obtain ⟨secondYear, secondMonth, secondDay⟩ := secondDetail
      have sameYear : first.day.year = second.day.year := by
        have firstOfEra := yearOfEra_of_pos firstEra
        have secondOfEra := yearOfEra_of_pos secondEra
        omega
      exact sameDay_of_fields sameYear (firstMonth.trans secondMonth.symm) (firstDay.trans secondDay.symm)

namespace AelfDate

theorem label_eighthDay {date now : AelfDate} (eighth : date.OnEighthDay now) :
    date.daysAhead now = 8 ∧ date.label now = .named date.day.dayOfWeek .next ∨
      date.daysAhead now = -8 ∧ date.label now = .named date.day.dayOfWeek .last := by
  have today := date.isToday_iff now
  have tomorrow := date.isTomorrow_iff now
  have yesterday := date.isYesterday_iff now
  have ahead := date.isWithin7NextDays_iff now
  have behind := date.isWithin7PrevDays_iff now
  rw [OnEighthDay] at eighth
  rw [label, if_neg (by rw [today]; omega), if_neg (by rw [Bool.and_eq_true, tomorrow]; omega),
    if_neg (by rw [Bool.and_eq_true, yesterday]; omega)]
  obtain ⟨isEighth, earlier⟩ | ⟨isEighth, later⟩ := eighth
  · rw [if_pos (by rw [ahead]; omega)]
    exact .inl ⟨isEighth, rfl⟩
  · rw [if_neg (by rw [ahead]; omega), if_pos (by rw [behind]; omega)]
    exact .inr ⟨isEighth, rfl⟩

/-- The label of a date denotes its day, except on the eighth day. -/
theorem label_denotes {date now : AelfDate} (notEighth : ¬date.OnEighthDay now) :
    (date.label now).Denotes now date := by
  rw [OnEighthDay] at notEighth
  unfold label
  split
  next today => exact (isToday_iff ..).mp today
  next notToday =>
    rw [isToday_iff] at notToday
    split
    next tomorrow => exact (isTomorrow_iff ..).mp (Bool.and_eq_true_iff.mp tomorrow).1
    next =>
      split
      next yesterday => exact (isYesterday_iff ..).mp (Bool.and_eq_true_iff.mp yesterday).1
      next =>
        refine ⟨rfl, ?_⟩
        split
        next ahead =>
          rw [isWithin7NextDays_iff] at ahead
          simp only [Detail.Denotes]
          omega
        next =>
          split
          next behind =>
            rw [isWithin7PrevDays_iff] at behind
            simp only [Detail.Denotes]
            omega
          next =>
            split
            next thisYear => exact ⟨(isSameYear_iff ..).mp thisYear, rfl, rfl⟩
            next => exact ⟨rfl, rfl, rfl⟩

end AelfDate

/-! ## French names -/

namespace DateNames

theorem unspaced_getD {table : List (List Char)} (unspaced : ∀ word ∈ table, ' ' ∉ word) (index : Nat) :
    ' ' ∉ table.getD index [] := by
  obtain inside | outside := Nat.lt_or_ge index table.length
  · rw [List.getD_eq_getElem _ _ inside]
    exact unspaced _ (List.getElem_mem inside)
  · rw [List.getD_eq_default _ _ outside]
    exact List.not_mem_nil

theorem index_of_getD {table : List (List Char)} {first second : Nat} (distinct : table.Nodup)
    (firstBounds : 1 ≤ first ∧ first ≤ table.length) (secondBounds : 1 ≤ second ∧ second ≤ table.length)
    (same : table.getD (first - 1) [] = table.getD (second - 1) []) : first = second := by
  rw [List.getD_eq_getElem _ _ (by omega), List.getD_eq_getElem _ _ (by omega), distinct.getElem_inj_iff] at same
  omega

theorem toDigits_injective : Function.Injective (Nat.toDigits 10) :=
  Function.LeftInverse.injective Decimal.value_toDigits

theorem unspaced_toDigits (number : Nat) : ' ' ∉ Nat.toDigits 10 number := by
  intro member
  have isDigit := Decimal.isDigits_toDigits number ' ' member
  simp at isDigit

/-- Names from tables of single words, with decimal numbers. -/
def ofTables (weekdays months : List (List Char)) (weekdayCount : weekdays.length = 7) (monthCount : months.length = 12)
    (weekdaysDistinct : weekdays.Nodup) (monthsDistinct : months.Nodup)
    (unspaced : ∀ word ∈ weekdays ++ months, ' ' ∉ word) : DateNames where
  weekday number := weekdays.getD (number - 1) []
  month number := months.getD (number - 1) []
  day := Nat.toDigits 10
  year := Nat.toDigits 10
  weekday_apart first second firstBounds secondBounds begins := by
    obtain ⟨rest, same⟩ := begins
    rw [List.append_assoc] at same
    have single (number : Nat) : ' ' ∉ weekdays.getD number [] :=
      unspaced_getD (fun word member => unspaced word (List.mem_append_left _ member)) number
    exact index_of_getD weekdaysDistinct (by omega) (by omega) (append_space_inj (single _) (single _) same).1
  month_distinct first second firstBounds secondBounds same :=
    index_of_getD monthsDistinct (by omega) (by omega) same
  month_undated first second number firstBounds secondBounds same := by
    have single : ' ' ∉ months.getD (first - 1) [] :=
      unspaced_getD (fun word member => unspaced word (List.mem_append_right _ member)) _
    rw [same] at single
    simp at single
  day_distinct first second _ _ same := toDigits_injective same
  day_unspaced number := unspaced_toDigits number
  year_distinct first second same := toDigits_injective same
  year_unspaced number := unspaced_toDigits number

/-- `EEEE` and `MMMM` -/
def french : DateNames :=
  ofTables (["dimanche", "lundi", "mardi", "mercredi", "jeudi", "vendredi", "samedi"].map String.toList)
    (["janvier", "février", "mars", "avril", "mai", "juin", "juillet", "août", "septembre", "octobre", "novembre",
      "décembre"].map String.toList) rfl rfl (by decide +kernel) (by decide +kernel) (by decide +kernel)

/-- `E` and `MMM` -/
def shortFrench : DateNames :=
  ofTables (["dim.", "lun.", "mar.", "mer.", "jeu.", "ven.", "sam."].map String.toList)
    (["janv.", "févr.", "mars", "avr.", "mai", "juin", "juil.", "août", "sept.", "oct.", "nov.",
      "déc."].map String.toList) rfl rfl (by decide +kernel) (by decide +kernel) (by decide +kernel)

end DateNames

/-! ## Labels without ambiguity -/

/-- Two dates share a label only on one day, and a weekday is called next or last only within the
seven days after or before today. -/
structure Unambiguous (long short : DateNames) (now first second : AelfDate) : Prop where
  pretty : first.toPrettyString now long = second.toPrettyString now long → first.day = second.day
  shortPretty : first.toShortPrettyString now short = second.toShortPrettyString now short → first.day = second.day
  prochain : ∀ date, date = first ∨ date = second → ∀ weekday, 1 ≤ weekday ∧ weekday ≤ 7 →
    date.toPrettyString now long = "de ".toList ++ long.weekday weekday ++ " prochain".toList ∨
      date.toShortPrettyString now short = short.weekday weekday ++ " prochain".toList →
    1 ≤ date.daysAhead now ∧ date.daysAhead now ≤ 7
  dernier : ∀ date, date = first ∨ date = second → ∀ weekday, 1 ≤ weekday ∧ weekday ≤ 7 →
    date.toPrettyString now long = "de ".toList ++ long.weekday weekday ++ " dernier".toList ∨
      date.toShortPrettyString now short = short.weekday weekday ++ " dernier".toList →
    -7 ≤ date.daysAhead now ∧ date.daysAhead now ≤ -1

namespace AelfDate

theorem label_of_text {date now : AelfDate} {names : DateNames} {withDeterminant : Bool} {label : Label}
    (valid : label.Valid) (written : date.internalPrettyString now names withDeterminant = label.text names withDeterminant) :
    date.label now = label := by
  rw [internalPrettyString_eq] at written
  exact Label.text_injective names withDeterminant (date.label_valid now) valid written

theorem text_of_label {date now : AelfDate} {label : Label} (names : DateNames) (withDeterminant : Bool)
    (isLabel : date.label now = label) :
    date.internalPrettyString now names withDeterminant = label.text names withDeterminant := by
  rw [internalPrettyString_eq, isLabel]

theorem sameDay_of_label {first second now : AelfDate} (firstEra : 1 ≤ first.day.year) (secondEra : 1 ≤ second.day.year)
    (firstNear : ¬first.OnEighthDay now) (secondNear : ¬second.OnEighthDay now)
    (same : first.label now = second.label now) : first.day = second.day := by
  have denotesFirst := label_denotes firstNear
  have denotesSecond := label_denotes secondNear
  rw [same] at denotesFirst
  exact Label.denotes_unique firstEra secondEra denotesFirst denotesSecond

/-- The label of a date on the eighth day breaks one of the two bounds. -/
theorem not_unambiguous_of_eighthDay {long short : DateNames} {now first second date : AelfDate}
    (isOne : date = first ∨ date = second) (eighth : date.OnEighthDay now) :
    ¬Unambiguous long short now first second := by
  intro unambiguous
  have weekday := date.day.dayOfWeek_bounds
  obtain ⟨ahead, isLabel⟩ | ⟨behind, isLabel⟩ := label_eighthDay eighth
  · have bounds := unambiguous.prochain date isOne _ weekday (.inl (text_of_label long true isLabel))
    omega
  · have bounds := unambiguous.dernier date isOne _ weekday (.inl (text_of_label long true isLabel))
    omega

theorem unambiguous_iff (long short : DateNames) {now first second : AelfDate} (firstEra : 1 ≤ first.day.year)
    (secondEra : 1 ≤ second.day.year) :
    Unambiguous long short now first second ↔ ¬first.OnEighthDay now ∧ ¬second.OnEighthDay now := by
  constructor
  · intro unambiguous
    exact ⟨fun eighth => not_unambiguous_of_eighthDay (.inl rfl) eighth unambiguous,
      fun eighth => not_unambiguous_of_eighthDay (.inr rfl) eighth unambiguous⟩
  · intro ⟨firstNear, secondNear⟩
    have near (date : AelfDate) (isOne : date = first ∨ date = second) : (date.label now).Denotes now date := by
      obtain rfl | rfl := isOne
      · exact label_denotes firstNear
      · exact label_denotes secondNear
    -- a text names its label, and the label says which days it is for
    have read {date : AelfDate} {weekday : Nat} {detail : Detail} (isOne : date = first ∨ date = second)
        (isLabel : date.label now = .named weekday detail) : detail.Denotes now date := by
      have denotes := near date isOne
      rw [isLabel] at denotes
      exact denotes.2
    have same := sameDay_of_label firstEra secondEra firstNear secondNear
    refine ⟨fun written => same ((internalPrettyString_inj _ _).mp written),
      fun written => same ((internalPrettyString_inj _ _).mp written), ?_, ?_⟩
    · intro date isOne weekday bounds written
      have valid : (Label.named weekday .next).Valid := ⟨bounds, trivial⟩
      obtain pretty | short := written
      · exact read isOne (label_of_text valid pretty)
      · exact read isOne (label_of_text valid short)
    · intro date isOne weekday bounds written
      have valid : (Label.named weekday .last).Valid := ⟨bounds, trivial⟩
      obtain pretty | short := written
      · exact read isOne (label_of_text valid pretty)
      · exact read isOne (label_of_text valid short)

/-- Saturday 7 January 2023, at noon. -/
def saturdayNoon : AelfDate := ⟨⟨⟨2023, 1, 7, by decide⟩, 43200000, by decide⟩⟩

/-- The day after. -/
def firstSunday : AelfDate := ofDay ⟨2023, 1, 8, by decide⟩

/-- A week later, at eight in the morning. -/
def secondSunday : AelfDate := ⟨⟨⟨2023, 1, 15, by decide⟩, 28800000, by decide⟩⟩

theorem unambiguous_week :
    Unambiguous DateNames.french DateNames.shortFrench saturdayNoon firstSunday (ofDay secondSunday.day.prev) :=
  (unambiguous_iff _ _ (by decide) (by decide)).mpr (by decide +kernel)

/-- Both Sundays are called next Sunday. -/
theorem two_sundays_ambiguous :
    (firstSunday.toPrettyString saturdayNoon DateNames.french = "de dimanche prochain".toList ∧
      secondSunday.toPrettyString saturdayNoon DateNames.french = "de dimanche prochain".toList) ∧
      ¬Unambiguous DateNames.french DateNames.shortFrench saturdayNoon firstSunday secondSunday := by
  have first : firstSunday.toPrettyString saturdayNoon DateNames.french = "de dimanche prochain".toList := by
    decide +kernel
  have second : secondSunday.toPrettyString saturdayNoon DateNames.french = "de dimanche prochain".toList := by
    decide +kernel
  refine ⟨⟨first, second⟩, fun unambiguous => ?_⟩
  exact absurd (unambiguous.pretty (first.trans second.symm)) (by decide)

end AelfDate

end Aelf.Lectures
