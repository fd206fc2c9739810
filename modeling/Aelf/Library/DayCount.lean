import Aelf.Library.Calendar
import Mathlib.Tactic.SplitIfs

/-! # Counting days

The days of the civil calendar, numbered without a gap, and the day of the week.  The ten
days that the reform dropped have no number. -/

namespace Aelf.Library.Calendar

/-! ## Months and years -/

/-- The days of a year before one of its months, the dropped ones included. -/
def daysBeforeMonth (year : Int) : Nat → Nat
  | 0 | 1 => 0
  | month + 2 => daysBeforeMonth year (month + 1) + monthLength year (month + 1)

def daysBeforeYear (year : Int) : Int :=
  if year ≤ 1582 then 365 * year + (year + 3) / 4
  else 365 * year + (year + 3) / 4 - (year + 99) / 100 + (year + 399) / 400 + 2

theorem daysBeforeMonth_succ (year : Int) {month : Nat} (positive : 1 ≤ month) :
    daysBeforeMonth year (month + 1) = daysBeforeMonth year month + monthLength year month := by
  obtain ⟨month, rfl⟩ := Nat.exists_eq_add_of_le' positive
  rfl

theorem daysBeforeMonth_end (year : Int) :
    daysBeforeMonth year 12 + monthLength year 12 = if isLeap year then 366 else 365 := by
  simp only [daysBeforeMonth, monthLength]
  split <;> rfl

/-- A year has the days of its months, except the one of the reform. -/
theorem daysBeforeYear_succ (year : Int) :
    daysBeforeYear (year + 1) + (if year = 1582 then 10 else 0) =
      daysBeforeYear year + (daysBeforeMonth year 12 + monthLength year 12 : Nat) := by
  rw [daysBeforeMonth_end]
  rcases lt_trichotomy year 1582 with julian | rfl | gregorian
  · have leapIff : isLeap year = true ↔ year % 4 = 0 := by simp [isLeap, julian.le]
    have thisYear : daysBeforeYear year = 365 * year + (year + 3) / 4 := if_pos julian.le
    have nextYear : daysBeforeYear (year + 1) = 365 * (year + 1) + (year + 1 + 3) / 4 := if_pos (by omega)
    rw [thisYear, nextYear, if_neg julian.ne]
    by_cases leap : isLeap year = true
    · rw [if_pos leap]
      rw [leapIff] at leap
      omega
    · rw [if_neg leap]
      rw [leapIff] at leap
      omega
  · rfl
  · have leapIff : isLeap year = true ↔ (year % 4 = 0 ∧ year % 100 ≠ 0) ∨ year % 400 = 0 := by
      simp [isLeap, gregorian.not_ge]
    have thisYear : daysBeforeYear year =
        365 * year + (year + 3) / 4 - (year + 99) / 100 + (year + 399) / 400 + 2 := if_neg gregorian.not_ge
    have nextYear : daysBeforeYear (year + 1) =
        365 * (year + 1) + (year + 1 + 3) / 4 - (year + 1 + 99) / 100 + (year + 1 + 399) / 400 + 2 := if_neg (by omega)
    rw [thisYear, nextYear, if_neg gregorian.ne']
    by_cases leap : isLeap year = true
    · rw [if_pos leap]
      rw [leapIff] at leap
      omega
    · rw [if_neg leap]
      rw [leapIff] at leap
      omega

namespace Date

/-! ## The number of a day -/

/-- Whether the reform lies earlier in the year of the date. -/
def AfterReform (date : Date) : Prop := date.year = 1582 ∧ (10 < date.month ∨ date.month = 10 ∧ 15 ≤ date.day)

instance (date : Date) : Decidable date.AfterReform := inferInstanceAs (Decidable (_ ∧ _))

def dayOfYear (date : Date) : Int :=
  daysBeforeMonth date.year date.month + date.day - if date.AfterReform then 10 else 0

def dayNumber (date : Date) : Int := daysBeforeYear date.year + date.dayOfYear

/-- `1` is Sunday. -/
def dayOfWeek (date : Date) : Nat := ((date.dayNumber + 3) % 7).toNat + 1

example : (Date.mk 1582 10 4 (by decide)).dayOfWeek = 5 ∧ (Date.mk 1582 10 15 (by decide)).dayOfWeek = 6 := by decide

theorem dayOfWeek_bounds (date : Date) : 1 ≤ date.dayOfWeek ∧ date.dayOfWeek ≤ 7 := by
  unfold dayOfWeek
  omega

theorem dayOfWeek_eq_iff (first second : Date) :
    first.dayOfWeek = second.dayOfWeek ↔ first.dayNumber % 7 = second.dayNumber % 7 := by
  unfold dayOfWeek
  omega

theorem monthLength_of_october {date : Date} (october : date.month = 10) : monthLength date.year date.month = 31 := by
  rw [october]
  rfl

theorem dayNumber_next (date : Date) : date.next.dayNumber = date.dayNumber + 1 := by
  have month := date.month_bounds
  have valid := date.valid
  have october := date.monthLength_of_october
  simp only [IsDate, InGap] at valid
  unfold next
  split
  next reform =>
    obtain ⟨isYear, isMonth, isDay⟩ := reform
    have notAfter : ¬date.AfterReform := by
      rw [AfterReform]
      omega
    rw [dayNumber, dayNumber, dayOfYear, dayOfYear, if_neg notAfter, if_pos (by decide), isYear, isMonth, isDay]
    dsimp only
    omega
  next notReform =>
    split
    next inside =>
      simp only [dayNumber, dayOfYear, AfterReform]
      split_ifs <;> omega
    next lastDay =>
      split
      next december =>
        have length := daysBeforeMonth_succ date.year month.1
        simp only [dayNumber, dayOfYear, AfterReform]
        split_ifs <;> omega
      next december =>
        -- the year of the reform ends ten numbers early
        have isDecember : date.month = 12 := by omega
        have length := daysBeforeYear_succ date.year
        have first : daysBeforeMonth (date.year + 1) 1 = 0 := rfl
        rw [isDecember] at lastDay valid
        simp only [dayNumber, dayOfYear, AfterReform, isDecember, first]
        split_ifs at length ⊢ <;> omega

theorem dayNumber_prev (date : Date) : date.prev.dayNumber = date.dayNumber - 1 := by
  have month := date.month_bounds
  have valid := date.valid
  simp only [IsDate, InGap] at valid
  unfold prev
  split
  next reform =>
    obtain ⟨isYear, isMonth, isDay⟩ := reform
    have after : date.AfterReform := by
      rw [AfterReform]
      omega
    rw [dayNumber, dayNumber, dayOfYear, dayOfYear, if_pos after, if_neg (by decide), isYear, isMonth, isDay]
    dsimp only
    omega
  next notReform =>
    split
    next inside =>
      simp only [dayNumber, dayOfYear, AfterReform]
      split_ifs <;> omega
    next firstDay =>
      split
      next january =>
        have length := daysBeforeMonth_succ date.year (show 1 ≤ date.month - 1 by omega)
        -- the last of October 1582 comes after the reform
        have october : date.month - 1 = 10 → monthLength date.year (date.month - 1) = 31 := by
          intro isOctober
          rw [isOctober]
          rfl
        rw [Nat.sub_add_cancel month.1] at length
        simp only [dayNumber, dayOfYear, AfterReform]
        split_ifs <;> omega
      next january =>
        have isJanuary : date.month = 1 := by omega
        have length := daysBeforeYear_succ (date.year - 1)
        have first : daysBeforeMonth date.year 1 = 0 := rfl
        rw [Int.sub_add_cancel, monthLength_december] at length
        simp only [dayNumber, dayOfYear, AfterReform, isJanuary, first]
        split_ifs at length ⊢ <;> omega

theorem dayNumber_addDays (date : Date) (count : Int) : (date.addDays count).dayNumber = date.dayNumber + count := by
  have forward : ∀ count : Nat, (next^[count] date).dayNumber = date.dayNumber + count := by
    intro count
    induction count with
    | zero => simp
    | succ count inductionHypothesis =>
      rw [Function.iterate_succ_apply', dayNumber_next, inductionHypothesis]
      omega
  have backward : ∀ count : Nat, (prev^[count] date).dayNumber = date.dayNumber - count := by
    intro count
    induction count with
    | zero => simp
    | succ count inductionHypothesis =>
      rw [Function.iterate_succ_apply', dayNumber_prev, inductionHypothesis]
      omega
  cases count with
  | ofNat count => exact forward count
  | negSucc count =>
    have counted := backward (count + 1)
    rw [addDays, counted]
    omega

/-! ## Order -/

/-- No day lies between a day and the next one. -/
theorem next_le_of_lt {first second : Date} (earlier : first < second) : first.next ≤ second := by
  have positiveDay := second.day_bounds.1
  rw [lt_iff_fields] at earlier
  rw [← not_lt, lt_iff_fields]
  unfold next
  split
  next reform =>
    have outside : ¬InGap second.year second.month second.day := second.valid.2.2.2.2
    rw [InGap] at outside
    dsimp only
    omega
  next notReform =>
    split
    next inside => dsimp only; omega
    next lastDay =>
      -- the later day is not in the month that ends with the earlier one
      have laterMonth : first.year < second.year ∨ first.year = second.year ∧ first.month < second.month := by
        have lengthBound := second.valid.2.2.2.1
        obtain laterYear | ⟨sameYear, laterMonth | ⟨sameMonth, laterDay⟩⟩ := earlier
        · exact .inl laterYear
        · exact .inr ⟨sameYear, laterMonth⟩
        · rw [← sameYear, ← sameMonth] at lengthBound
          omega
      have monthBound := second.month_bounds
      split
      next december => dsimp only; omega
      next december => dsimp only; omega

theorem dayNumber_lt_of_lt {first second : Date} (earlier : first < second) : first.dayNumber < second.dayNumber := by
  -- step by step towards the later day
  induction distance : (second.rank - first.rank).toNat using Nat.strong_induction_on generalizing first with
  | _ size inductionHypothesis =>
    have step := first.dayNumber_next
    obtain arrived | between := (next_le_of_lt earlier).eq_or_lt
    · rw [← arrived]
      omega
    · have forward := (lt_iff_rank_lt _ _).mp first.lt_next
      have before := (lt_iff_rank_lt _ _).mp between
      have later := inductionHypothesis _ (by omega) between rfl
      omega

theorem lt_iff_dayNumber_lt (first second : Date) : first < second ↔ first.dayNumber < second.dayNumber := by
  refine ⟨dayNumber_lt_of_lt, ?_⟩
  intro below
  obtain earlier | rfl | later := lt_trichotomy first second
  · exact earlier
  · exact absurd below (lt_irrefl _)
  · exact absurd below (dayNumber_lt_of_lt later).asymm

theorem le_iff_dayNumber_le (first second : Date) : first ≤ second ↔ first.dayNumber ≤ second.dayNumber := by
  rw [← not_lt, lt_iff_dayNumber_lt, not_lt]

theorem dayNumber_injective : Function.Injective dayNumber := by
  intro first second same
  refine le_antisymm ?_ ?_
  · rw [le_iff_dayNumber_le, same]
  · rw [le_iff_dayNumber_le, same]

end Date

/-- Moments compare by their day, then by the time of the day. -/
theorem Moment.lt_iff_dayNumber (first second : Moment) :
    first < second ↔ first.date.dayNumber < second.date.dayNumber ∨
      first.date.dayNumber = second.date.dayNumber ∧ first.millis < second.millis := by
  have firstTime := first.millis_lt
  have secondTime := second.millis_lt
  have dayOrder := (Date.lt_iff_dayNumber_lt first.date second.date).symm
  have sameDay : first.date.dayNumber = second.date.dayNumber ↔ first.date.rank = second.date.rank := by
    rw [Date.dayNumber_injective.eq_iff, Date.rank_injective.eq_iff]
  rw [Date.lt_iff_rank_lt] at dayOrder
  rw [dayOrder, sameDay, ← not_le, le_iff_rank_le, rank, rank]
  omega

end Aelf.Library.Calendar
