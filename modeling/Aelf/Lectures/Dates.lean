import Aelf.Library.Calendar
import Aelf.Library.Decimal
import Mathlib.Data.String.Basic

/-! # `AelfDate` and `IsoDate`

Both extend `GregorianCalendar`.  An `AelfDate` is a moment of the device's time
zone, an `IsoDate` a moment in UTC with a flag that remembers whether the text it
was read from made sense.  The texts are those of `SimpleDateFormat` with ASCII
digits: `yyyy` writes the year of the era with at least four digits. -/

namespace Aelf.Lectures

open Aelf.Library
open Aelf.Library.Calendar (Date Moment)
open Aelf.Library.Decimal

/-! ## Dates as text -/

def yearOfEra (year : Int) : Nat := if 0 < year then year.toNat else (1 - year).toNat

/-- `yyyy-MM-dd` -/
def dayText (date : Date) : List Char :=
  zeroPad 4 (yearOfEra date.year) ++ '-' :: (zeroPad 2 date.month ++ '-' :: zeroPad 2 date.day)

/-- The dates whose year `yyyy` writes with exactly four digits, in the current era. -/
def FourDigitYear (date : Date) : Prop := 1 ≤ date.year ∧ date.year ≤ 9999

instance (date : Date) : Decidable (FourDigitYear date) := inferInstanceAs (Decidable (_ ∧ _))

theorem FourDigitYear.between {first date last : Date} (firstYear : FourDigitYear first)
    (lastYear : FourDigitYear last) (after : first ≤ date) (before : date ≤ last) : FourDigitYear date :=
  ⟨firstYear.1.trans (Calendar.Date.year_le_of_le after), (Calendar.Date.year_le_of_le before).trans lastYear.2⟩

theorem yearOfEra_of_pos {year : Int} (positive : 1 ≤ year) : (yearOfEra year : Int) = year := by
  rw [yearOfEra, if_pos (by omega)]
  omega

theorem length_yearText {date : Date} (fourDigits : FourDigitYear date) :
    (zeroPad 4 (yearOfEra date.year)).length = 4 := by
  have := yearOfEra_of_pos fourDigits.1
  have := fourDigits.2
  exact length_zeroPad (by decide) (by omega)

theorem length_monthText (date : Date) : (zeroPad 2 date.month).length = 2 :=
  length_zeroPad (by decide) (by have := date.month_bounds; omega)

theorem length_dayOfMonthText (date : Date) : (zeroPad 2 date.day).length = 2 :=
  length_zeroPad (by decide) (by have := date.day_bounds; omega)

/-- Four-digit dates sort as text the way they sort as dates. -/
theorem dayText_lt_iff {first second : Date} (firstYear : FourDigitYear first)
    (secondYear : FourDigitYear second) : dayText first < dayText second ↔ first < second := by
  have years := (length_yearText firstYear).trans (length_yearText secondYear).symm
  have months := (length_monthText first).trans (length_monthText second).symm
  have days := (length_dayOfMonthText first).trans (length_dayOfMonthText second).symm
  have firstEra := yearOfEra_of_pos firstYear.1
  have secondEra := yearOfEra_of_pos secondYear.1
  unfold dayText
  rw [append_lt_append_iff years, List.cons_lt_cons_self, append_lt_append_iff months,
    List.cons_lt_cons_self, Calendar.Date.lt_iff_fields]
  simp only [lt_iff_value_lt (isDigits_zeroPad _ _) (isDigits_zeroPad _ _), years, months, days,
    eq_iff_value_eq (isDigits_zeroPad _ _) (isDigits_zeroPad _ _), value_zeroPad]
  omega

theorem dayText_inj {first second : Date} (firstYear : FourDigitYear first)
    (secondYear : FourDigitYear second) : dayText first = dayText second ↔ first = second := by
  constructor
  · intro same
    obtain below | equal | above := lt_trichotomy first second
    · have := (dayText_lt_iff firstYear secondYear).mpr below
      exact absurd (same ▸ this) (List.lt_irrefl _)
    · exact equal
    · have := (dayText_lt_iff secondYear firstYear).mpr above
      exact absurd (same ▸ this) (List.lt_irrefl _)
  · rintro rfl
    rfl

/-! ## `AelfDate` -/

structure AelfDate where
  moment : Moment
deriving DecidableEq

namespace AelfDate

/-- The calendar day, the only part that the cache and the requests look at. -/
def day (date : AelfDate) : Date := date.moment.date

/-- `new AelfDate(year, month, day)`, except that the month counts from 1 here. -/
def ofDay (day : Date) : AelfDate := ⟨⟨day, 0, by decide⟩⟩

def toIsoString (date : AelfDate) : String := String.ofList (dayText date.day)

/-- `add(Calendar.DATE, count)` -/
def addDays (date : AelfDate) (count : Int) : AelfDate :=
  ⟨{ date.moment with date := date.day.addDays count }⟩

/-- `add(Calendar.MONTH, count)` -/
def addMonths (date : AelfDate) (count : Int) : AelfDate :=
  ⟨{ date.moment with date := date.day.addMonths count }⟩

/-- `add(Calendar.YEAR, count)` -/
def addYears (date : AelfDate) (count : Int) : AelfDate := date.addMonths (12 * count)

@[simp] theorem day_ofDay (day : Date) : (ofDay day).day = day := rfl

@[simp] theorem day_addDays (date : AelfDate) (count : Int) :
    (date.addDays count).day = date.day.addDays count := rfl

@[simp] theorem day_addMonths (date : AelfDate) (count : Int) :
    (date.addMonths count).day = date.day.addMonths count := rfl

@[simp] theorem day_addYears (date : AelfDate) (count : Int) :
    (date.addYears count).day = date.day.addMonths (12 * count) := rfl

theorem toIsoString_lt_iff {first second : AelfDate} (firstYear : FourDigitYear first.day)
    (secondYear : FourDigitYear second.day) :
    first.toIsoString < second.toIsoString ↔ first.day < second.day := by
  rw [String.lt_iff_toList_lt, toIsoString, toIsoString, String.toList_ofList, String.toList_ofList]
  exact dayText_lt_iff firstYear secondYear

theorem toIsoString_le_iff {first second : AelfDate} (firstYear : FourDigitYear first.day)
    (secondYear : FourDigitYear second.day) :
    first.toIsoString ≤ second.toIsoString ↔ first.day ≤ second.day := by
  rw [← not_lt, toIsoString_lt_iff secondYear firstYear, not_lt]

theorem toIsoString_inj {first second : AelfDate} (firstYear : FourDigitYear first.day)
    (secondYear : FourDigitYear second.day) :
    first.toIsoString = second.toIsoString ↔ first.day = second.day := by
  rw [toIsoString, toIsoString, String.ofList_inj]
  exact dayText_inj firstYear secondYear

theorem toIsoString_congr {first second : AelfDate} (sameDay : first.day = second.day) :
    first.toIsoString = second.toIsoString := by
  rw [toIsoString, toIsoString, sameDay]

end AelfDate

/-! ## Reading dates -/

/-- A numeric field: blanks, an optional minus sign, and the longest run of digits. -/
def parseNumber (text : List Char) : Option (Int × List Char) :=
  match text.dropWhile fun c => c = ' ' || c = '\t' with
  | '-' :: rest => unsigned (-1) rest
  | rest => unsigned 1 rest
where
  unsigned (sign : Int) (text : List Char) : Option (Int × List Char) :=
    match text.takeWhile Char.isDigit with
    | [] => none
    | digits => some (sign * value digits, text.dropWhile Char.isDigit)

def parseLiteral (expected : Char) : List Char → Option (List Char)
  | c :: rest => if c = expected then some rest else none
  | [] => none

/-- The year, month and day of `yyyy-MM-dd`, and what follows them. -/
def parseDayFields (text : List Char) : Option ((Int × Int × Int) × List Char) := do
  let (year, rest) ← parseNumber text
  let rest ← parseLiteral '-' rest
  let (month, rest) ← parseNumber rest
  let rest ← parseLiteral '-' rest
  let (day, rest) ← parseNumber rest
  return ((year, month, day), rest)

/-- `SimpleDateFormat("yyyy-MM-dd'T'HH:mm:ss").parse`: a prefix of the text is read, leniently. -/
def parseDateTime (text : List Char) : Option Moment := do
  let ((year, month, day), rest) ← parseDayFields text
  let rest ← parseLiteral 'T' rest
  let (hour, rest) ← parseNumber rest
  let rest ← parseLiteral ':' rest
  let (minute, rest) ← parseNumber rest
  let rest ← parseLiteral ':' rest
  let (second, _) ← parseNumber rest
  return Moment.ofFields year month day hour minute second

/-- `SimpleDateFormat("yyyy-MM-dd").parse` -/
def parseDay (text : List Char) : Option Moment := do
  let ((year, month, day), _) ← parseDayFields text
  return Moment.ofFields year month day 0 0 0

/-- `SimpleDateFormat("EEE, dd MMM yyyy HH:mm:ss zzz", Locale.US).parse`, which reads the weekday,
month and time zone names of the platform. -/
class HttpDateFormat where
  parse : List Char → Option Moment

theorem parseNumber_zeroPad (width number : Nat) {rest : List Char} (stops : StopsDigits rest) :
    parseNumber (zeroPad width number ++ rest) = some ((number : Int), rest) := by
  have isDigits := isDigits_zeroPad width number
  have taken := takeWhile_digits isDigits stops
  have dropped := dropWhile_digits isDigits stops
  have number_eq := value_zeroPad width number
  unfold parseNumber
  cases digits : zeroPad width number with
  | nil => exact absurd digits (zeroPad_ne_nil _ _)
  | cons first others =>
    rw [digits] at isDigits taken dropped number_eq
    have firstDigit : first.isDigit = true := isDigits first (by simp)
    have notBlank : (first = ' ' || first = '\t') = false := by
      by_contra blank
      simp only [Bool.not_eq_false, Bool.or_eq_true, decide_eq_true_eq] at blank
      obtain rfl | rfl := blank <;> simp at firstDigit
    have notMinus : first ≠ '-' := by
      rintro rfl
      simp at firstDigit
    rw [List.cons_append] at taken dropped ⊢
    rw [List.dropWhile_cons_of_neg (by simpa using notBlank)]
    simp [notMinus, parseNumber.unsigned, taken, dropped, number_eq]

@[simp] theorem parseLiteral_self (expected : Char) (rest : List Char) :
    parseLiteral expected (expected :: rest) = some rest := by
  simp [parseLiteral]

/-- The text of a day is read back as its fields, except that the year is the one of its era. -/
theorem parseDayFields_dayText (date : Date) {rest : List Char} (stops : StopsDigits rest) :
    parseDayFields (dayText date ++ rest) =
      some (((yearOfEra date.year : Int), (date.month : Int), (date.day : Int)), rest) := by
  have dash (tail : List Char) : StopsDigits ('-' :: tail) := stopsDigits_cons tail (by decide)
  simp [parseDayFields, dayText, parseNumber_zeroPad, dash, stops]

theorem truncate_of_parseDateTime {text : List Char} {moment : Moment} (parses : parseDateTime text = some moment) :
    moment.truncate = moment := by
  simp only [parseDateTime, Option.bind_eq_bind, Option.bind_eq_some_iff, Prod.exists, Option.pure_def,
    Option.some.injEq] at parses
  obtain ⟨year, month, day, _, -, _, -, hour, _, -, _, -, minute, _, -, _, -, second, _, -, rfl⟩ := parses
  exact Moment.truncate_ofFields year month day hour minute second

theorem truncate_of_parseDay {text : List Char} {moment : Moment} (parses : parseDay text = some moment) :
    moment.truncate = moment := by
  simp only [parseDay, Option.bind_eq_bind, Option.bind_eq_some_iff, Prod.exists, Option.pure_def,
    Option.some.injEq] at parses
  obtain ⟨year, month, day, _, -, rfl⟩ := parses
  exact Moment.truncate_ofFields year month day 0 0 0

/-! ## A date for the examples -/

theorem isDate_20_may_2024 : Calendar.IsDate 2024 5 20 := by decide

theorem midnight_lt : 0 < 86400000 := by decide

/-! ## `IsoDate` -/

@[ext] structure IsoDate where
  moment : Moment
  isValid : Bool
deriving DecidableEq

namespace IsoDate

/-- Midnight, 1 January 1970, the time of an unreadable date. -/
def epoch : Moment := ⟨⟨1970, 1, 1, by decide⟩, 0, by decide⟩

/-- `yyyy-MM-dd'T'HH:mm:ss` -/
def toText (date : IsoDate) : List Char :=
  dayText date.moment.date ++ 'T' :: (zeroPad 2 date.moment.hour ++ ':' ::
    (zeroPad 2 date.moment.minute ++ ':' :: zeroPad 2 date.moment.second))

def toString (date : IsoDate) : String := String.ofList date.toText

def before (first second : IsoDate) : Bool := first.moment < second.moment

/-- `new IsoDate(isoString)`: the first of the three formats that accepts the text. -/
def ofString [HttpDateFormat] (isoString : String) : IsoDate :=
  match [parseDateTime, parseDay, HttpDateFormat.parse].findSome? fun parse => parse isoString.toList with
  | some parsed => ⟨parsed, true⟩
  | none => ⟨epoch, false⟩

/-- What the first of the three formats that accepts the text makes of it. -/
def accepted [HttpDateFormat] (isoString : String) : Option Moment :=
  [parseDateTime, parseDay, HttpDateFormat.parse].findSome? fun parse => parse isoString.toList

theorem ofString_eq [HttpDateFormat] (isoString : String) :
    ofString isoString =
      match accepted isoString with
      | some moment => ⟨moment, true⟩
      | none => ⟨epoch, false⟩ := rfl

theorem parseDateTime_toText (date : IsoDate) :
    parseDateTime date.toText = some (Moment.ofFields (yearOfEra date.moment.date.year) date.moment.date.month
      date.moment.date.day date.moment.hour date.moment.minute date.moment.second) := by
  have stop (c : Char) (tail : List Char) (notDigit : c.isDigit = false) : StopsDigits (c :: tail) :=
    stopsDigits_cons tail notDigit
  have last := parseNumber_zeroPad 2 date.moment.second stopsDigits_nil
  rw [List.append_nil] at last
  simp [parseDateTime, toText, parseDayFields_dayText, parseNumber_zeroPad, stop, last]

/-- The text of a date is always accepted, but the era is not in it. -/
theorem ofString_toString_anyEra [HttpDateFormat] (date : IsoDate) :
    ofString date.toString = ⟨Moment.ofFields (yearOfEra date.moment.date.year) date.moment.date.month
      date.moment.date.day date.moment.hour date.moment.minute date.moment.second, true⟩ := by
  rw [ofString, toString, String.toList_ofList]
  simp [parseDateTime_toText]

/-- A date written to text comes back without its fraction of a second, and valid. -/
theorem ofString_toString [HttpDateFormat] (date : IsoDate) (currentEra : 1 ≤ date.moment.date.year) :
    ofString date.toString = ⟨date.moment.truncate, true⟩ := by
  rw [ofString_toString_anyEra, yearOfEra_of_pos currentEra, Moment.ofFields_self]

end IsoDate

end Aelf.Lectures
