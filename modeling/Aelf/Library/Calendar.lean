import Mathlib.Order.Lattice
import Mathlib.Order.Iterate
import Mathlib.Algebra.Order.Ring.Int
import Mathlib.Logic.Function.Iterate

/-! # The civil calendar

Days of the hybrid calendar that most software uses by default: Julian until
4 October 1582, Gregorian from 15 October 1582 on, with nothing in between.
Years are astronomical, so year 0 is 1 BC.  Moving by days goes through `next`
and `prev`; moving by months keeps the day of the month when it can. -/

namespace Aelf.Library.Calendar

def isLeap (year : Int) : Bool :=
  if year ≤ 1582 then year % 4 = 0
  else (year % 4 = 0 && year % 100 ≠ 0) || year % 400 = 0

def monthLength (year : Int) (month : Nat) : Nat :=
  match month with
  | 2 => if isLeap year then 29 else 28
  | 4 | 6 | 9 | 11 => 30
  | _ => 31

/-- The ten days dropped by the Gregorian reform. -/
def InGap (year : Int) (month day : Nat) : Prop :=
  year = 1582 ∧ month = 10 ∧ 5 ≤ day ∧ day ≤ 14

instance (year : Int) (month day : Nat) : Decidable (InGap year month day) :=
  inferInstanceAs (Decidable (_ ∧ _))

def IsDate (year : Int) (month day : Nat) : Prop :=
  1 ≤ month ∧ month ≤ 12 ∧ 1 ≤ day ∧ day ≤ monthLength year month ∧ ¬InGap year month day

instance (year : Int) (month day : Nat) : Decidable (IsDate year month day) :=
  inferInstanceAs (Decidable (_ ∧ _))

structure Date where
  year : Int
  month : Nat
  day : Nat
  valid : IsDate year month day
deriving DecidableEq

theorem monthLength_bounds (year : Int) (month : Nat) :
    28 ≤ monthLength year month ∧ monthLength year month ≤ 31 := by
  unfold monthLength
  split
  · split <;> omega
  all_goals omega

theorem monthLength_reform : monthLength 1582 10 = 31 := rfl

theorem monthLength_december (year : Int) : monthLength year 12 = 31 := rfl

namespace Date

theorem month_bounds (date : Date) : 1 ≤ date.month ∧ date.month ≤ 12 :=
  ⟨date.valid.1, date.valid.2.1⟩

theorem day_bounds (date : Date) : 1 ≤ date.day ∧ date.day ≤ 31 :=
  ⟨date.valid.2.2.1, le_trans date.valid.2.2.2.1 (monthLength_bounds _ _).2⟩

/-! ## Chronological order -/

/-- A number that grows with the date: the fields in a mixed radix that none of them fills. -/
def rank (date : Date) : Int := (date.year * 13 + date.month) * 32 + date.day

theorem rank_injective : Function.Injective rank := by
  rintro ⟨year, month, day, valid⟩ ⟨year', month', day', valid'⟩ same
  have month_le := valid.2.1
  have month_le' := valid'.2.1
  have day_le := le_trans valid.2.2.2.1 (monthLength_bounds year month).2
  have day_le' := le_trans valid'.2.2.2.1 (monthLength_bounds year' month').2
  have day_pos := valid.2.2.1
  have day_pos' := valid'.2.2.1
  have month_pos := valid.1
  have month_pos' := valid'.1
  simp only [rank] at same
  have years : year = year' := by omega
  have months : month = month' := by omega
  have days : day = day' := by omega
  subst years months days
  rfl

instance : LinearOrder Date := LinearOrder.lift' rank rank_injective

theorem lt_iff_rank_lt (first second : Date) : first < second ↔ first.rank < second.rank := Iff.rfl

/-- Dates compare by year, then by month, then by day. -/
theorem lt_iff_fields (first second : Date) :
    first < second ↔ first.year < second.year ∨ first.year = second.year ∧
      (first.month < second.month ∨ first.month = second.month ∧ first.day < second.day) := by
  have firstMonth := first.month_bounds
  have secondMonth := second.month_bounds
  have firstDay := first.day_bounds
  have secondDay := second.day_bounds
  rw [lt_iff_rank_lt]
  simp only [rank]
  omega

theorem year_le_of_le {first second : Date} (earlier : first ≤ second) : first.year ≤ second.year := by
  rw [← not_lt, lt_iff_fields] at earlier
  omega

/-! ## Moving by days -/

theorem next_valid_in_month {date : Date} (reform : ¬(date.year = 1582 ∧ date.month = 10 ∧ date.day = 4))
    (inside : date.day < monthLength date.year date.month) :
    IsDate date.year date.month (date.day + 1) := by
  have valid := date.valid
  simp only [IsDate, InGap] at valid ⊢
  omega

def next (date : Date) : Date :=
  if reform : date.year = 1582 ∧ date.month = 10 ∧ date.day = 4 then
    ⟨1582, 10, 15, by decide⟩
  else if inside : date.day < monthLength date.year date.month then
    ⟨date.year, date.month, date.day + 1, next_valid_in_month reform inside⟩
  else if december : date.month < 12 then
    ⟨date.year, date.month + 1, 1, by
      have := (monthLength_bounds date.year (date.month + 1)).1
      simp only [IsDate, InGap]
      omega⟩
  else
    ⟨date.year + 1, 1, 1, by
      have := (monthLength_bounds (date.year + 1) 1).1
      simp only [IsDate, InGap]
      omega⟩

def prev (date : Date) : Date :=
  if reform : date.year = 1582 ∧ date.month = 10 ∧ date.day = 15 then
    ⟨1582, 10, 4, by decide⟩
  else if inside : 1 < date.day then
    ⟨date.year, date.month, date.day - 1, by
      have valid := date.valid
      simp only [IsDate, InGap] at valid ⊢
      omega⟩
  else if january : 1 < date.month then
    ⟨date.year, date.month - 1, monthLength date.year (date.month - 1), by
      have := monthLength_bounds date.year (date.month - 1)
      have := date.month_bounds
      simp only [IsDate, InGap]
      refine ⟨by omega, by omega, by omega, le_rfl, ?_⟩
      rintro ⟨_, october, _⟩
      have : monthLength date.year (date.month - 1) = 31 := by rw [october]; rfl
      omega⟩
  else
    ⟨date.year - 1, 12, 31, by simp [IsDate, InGap, monthLength_december]⟩

theorem lt_next (date : Date) : date < date.next := by
  have month := date.month_bounds
  have day := date.day_bounds
  rw [lt_iff_rank_lt]
  unfold next
  split
  next reform => simp only [rank]; omega
  next =>
    split
    · simp only [rank]; omega
    · split <;> simp only [rank] <;> omega

theorem prev_lt (date : Date) : date.prev < date := by
  have month := date.month_bounds
  have day := date.day_bounds
  rw [lt_iff_rank_lt]
  unfold prev
  split
  next reform => simp only [rank]; omega
  next =>
    split
    · simp only [rank]; omega
    · split
      · have := (monthLength_bounds date.year (date.month - 1)).2
        simp only [rank]
        omega
      · simp only [rank]; omega

/-- The date a number of days later, or earlier when the number is negative. -/
def addDays (date : Date) : Int → Date
  | .ofNat count => next^[count] date
  | .negSucc count => prev^[count + 1] date

theorem iterate_next_strictMono (date : Date) : StrictMono fun count => next^[count] date := by
  refine strictMono_nat_of_lt_succ fun count => ?_
  rw [Function.iterate_succ_apply']
  exact lt_next _

theorem addDays_strictMono (date : Date) : StrictMono fun count : Nat => date.addDays count :=
  iterate_next_strictMono date

@[simp] theorem addDays_zero (date : Date) : date.addDays 0 = date := rfl

theorem le_addDays (date : Date) (count : Nat) : date ≤ date.addDays count := by
  have fromZero : date.addDays (0 : Nat) ≤ date.addDays count := (addDays_strictMono date).monotone (Nat.zero_le count)
  exact fromZero

theorem addDays_neg_lt (date : Date) (count : Nat) : date.addDays (.negSucc count) < date := by
  change prev^[count + 1] date < date
  induction count with
  | zero => exact prev_lt date
  | succ count inductionHypothesis =>
    rw [Function.iterate_succ_apply']
    exact (prev_lt _).trans inductionHypothesis

/-! ## Moving by months -/

/-- A day of the month shortened to the length of the month; a day that falls in the reform gap
is read in the Julian calendar, ten days further. -/
def pinDay (year : Int) (month day : Nat) : Nat :=
  let pinned := min day (monthLength year month)
  if InGap year month pinned then pinned + 10 else pinned

theorem pinDay_valid (year : Int) (month day : Nat) (monthBounds : 1 ≤ month ∧ month ≤ 12)
    (positive : 1 ≤ day) : IsDate year month (pinDay year month day) := by
  have length := monthLength_bounds year month
  unfold pinDay
  simp only
  split
  next gap =>
    obtain ⟨rfl, rfl, _, _⟩ := gap
    have := monthLength_reform
    simp only [IsDate, InGap]
    omega
  next outside => exact ⟨monthBounds.1, monthBounds.2, by omega, min_le_right _ _, outside⟩

def addMonths (date : Date) (count : Int) : Date :=
  let months := date.year * 12 + (date.month - 1) + count
  let month := (months % 12).toNat + 1
  ⟨months / 12, month, pinDay (months / 12) month date.day,
    pinDay_valid _ _ _ (by simp only [month]; omega) date.day_bounds.1⟩

theorem addMonths_lt (date : Date) {count : Int} (negative : count < 0) : date.addMonths count < date := by
  have month := date.month_bounds
  rw [lt_iff_fields]
  simp only [addMonths]
  omega

/-! ## Dates from loose fields -/

/-- The date that fields out of range denote: months roll over into years, and days are counted
from the first of the month. -/
def ofFields (year month day : Int) : Date :=
  let months := year * 12 + (month - 1)
  let rolledYear := months / 12
  let rolledMonth := (months % 12).toNat + 1
  if valid : IsDate rolledYear rolledMonth day.toNat then ⟨rolledYear, rolledMonth, day.toNat, valid⟩
  else addDays ⟨rolledYear, rolledMonth, 1, by
    have := (monthLength_bounds rolledYear rolledMonth).1
    simp only [IsDate, InGap, rolledMonth] at *
    omega⟩ (day - 1)

theorem ofFields_self (date : Date) : ofFields date.year date.month date.day = date := by
  have month := date.month_bounds
  have sameYear : (date.year * 12 + ((date.month : Int) - 1)) / 12 = date.year := by omega
  have sameMonth : ((date.year * 12 + ((date.month : Int) - 1)) % 12).toNat + 1 = date.month := by omega
  unfold ofFields
  simp only [sameYear, sameMonth, Int.toNat_natCast]
  rw [dif_pos date.valid]

/-- Days that are too many lead to a later year, never to an earlier one. -/
theorem year_le_ofFields {year month day : Int} (monthBounds : 1 ≤ month ∧ month ≤ 12) (positive : 1 ≤ day) :
    year ≤ (ofFields year month day).year := by
  have sameYear : (year * 12 + (month - 1)) / 12 = year := by omega
  unfold ofFields
  simp only [sameYear]
  split
  next => exact le_rfl
  next =>
    obtain ⟨count, isCount⟩ := Int.eq_ofNat_of_zero_le (show 0 ≤ day - 1 by omega)
    rw [isCount]
    exact year_le_of_le (le_addDays _ count)

end Date

/-! ## Moments -/

/-- A date and the milliseconds elapsed since its midnight. -/
structure Moment where
  date : Date
  millis : Nat
  millis_lt : millis < 86400000
deriving DecidableEq

namespace Moment

def hour (moment : Moment) : Nat := moment.millis / 3600000

def minute (moment : Moment) : Nat := moment.millis / 60000 % 60

def second (moment : Moment) : Nat := moment.millis / 1000 % 60

def rank (moment : Moment) : Int := moment.date.rank * 86400000 + moment.millis

theorem rank_injective : Function.Injective rank := by
  rintro ⟨date, millis, bound⟩ ⟨date', millis', bound'⟩ same
  simp only [rank] at same
  have dates : date = date' := Date.rank_injective (by omega)
  have times : millis = millis' := by omega
  subst dates times
  rfl

instance : LinearOrder Moment := LinearOrder.lift' rank rank_injective

/-- The moment without its fraction of a second. -/
def truncate (moment : Moment) : Moment :=
  ⟨moment.date, moment.millis / 1000 * 1000, by have := moment.millis_lt; omega⟩

theorem le_iff_rank_le (first second : Moment) : first ≤ second ↔ first.rank ≤ second.rank := Iff.rfl

theorem date_le_of_le {first second : Moment} (earlier : first ≤ second) : first.date ≤ second.date := by
  have millis := first.millis_lt
  have millis' := second.millis_lt
  by_contra later
  rw [not_le, Date.lt_iff_rank_lt] at later
  rw [le_iff_rank_le, rank, rank] at earlier
  omega

theorem truncate_le_truncate {first second : Moment} (earlier : first ≤ second) :
    first.truncate ≤ second.truncate := by
  have millis := first.millis_lt
  have millis' := second.millis_lt
  rw [le_iff_rank_le, rank, rank] at earlier ⊢
  simp only [truncate]
  omega

/-- The moment that fields out of range denote: hours, minutes and seconds roll over into days. -/
def ofFields (year month day hour minute second : Int) : Moment :=
  let seconds := hour * 3600 + minute * 60 + second
  ⟨Date.ofFields year month (day + seconds / 86400), (seconds % 86400).toNat * 1000, by omega⟩

theorem ofFields_self (moment : Moment) :
    ofFields moment.date.year moment.date.month moment.date.day moment.hour moment.minute
      moment.second = moment.truncate := by
  obtain ⟨date, millis, bound⟩ := moment
  have wholeDay : ((millis / 3600000 : Nat) * 3600 + (millis / 60000 % 60 : Nat) * 60 +
      (millis / 1000 % 60 : Nat) : Int) = (millis / 1000 : Nat) := by omega
  have sameDay : ((millis / 1000 : Nat) : Int) / 86400 = 0 := by omega
  have sameTime : (((millis / 1000 : Nat) : Int) % 86400).toNat = millis / 1000 := by omega
  simp only [ofFields, hour, minute, second, wholeDay, sameDay, sameTime, truncate, Int.add_zero,
    Date.ofFields_self]

theorem truncate_ofFields (year month day hour minute second : Int) :
    (ofFields year month day hour minute second).truncate = ofFields year month day hour minute second := by
  simp [truncate, ofFields]

end Moment

end Aelf.Library.Calendar
