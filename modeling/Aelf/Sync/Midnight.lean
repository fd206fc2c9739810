import Aelf.Library.DayCount
import Aelf.Sync.Schedule
import Mathlib.Data.List.Nodup

/-! # A synchronisation that runs over midnight

Every iteration of the two loops asks for the current date and adds its own index to
the answer.  No office of a day is scheduled twice whatever the answers are, but each
time the date changes before an iteration, the loop steps over the days in between:
they are neither fetched by this iteration nor by any other. -/

namespace Aelf.Sync

open Aelf.Lectures
open Aelf.Library.Calendar (Date)

variable {α : Type}

/-! ## The calls of one run -/

/-- The local dates that the successive calls return.  The second loop makes none without checksums. -/
def Clock.reads (clock : Clock) (daysAheadToSync : Nat) (serverChecksums : Option OfficesMetadata) : List Date :=
  clock.cutoff.day :: clock.listing.day ::
    ((List.range daysAheadToSync).map (fun i => (clock.fetch i).day) ++
      if serverChecksums.isSome then (List.range 7).map (fun i => (clock.refresh i).day) else [])

def Clock.NonDecreasing (clock : Clock) (daysAheadToSync : Nat) (serverChecksums : Option OfficesMetadata) : Prop :=
  (clock.reads daysAheadToSync serverChecksums).Pairwise (· ≤ ·)

/-- The tasks that `synchronize` hands to the executor. -/
def scheduledTasks (daysAheadToSync : Nat) (officeTypesToSync : List OfficeTypes) (cachedOffices : CacheEntries α)
    (serverChecksums : Option OfficesMetadata) (clock : Clock) : List Task :=
  enqueueInitialFetchTasks daysAheadToSync officeTypesToSync cachedOffices clock.fetch ++
    enqueueCacheRefreshTasks serverChecksums officeTypesToSync cachedOffices clock.refresh

def Task.officeAndDay (task : Task) : OfficeTypes × Date := (task.what, task.date.day)

/-- Nothing is scheduled twice, and nothing of the window that is not in the listing is forgotten. -/
structure ScheduleExact (daysAheadToSync : Nat) (officeTypesToSync : List OfficeTypes)
    (cachedOffices : CacheEntries α) (serverChecksums : Option OfficesMetadata) (clock : Clock) : Prop where
  once : ((scheduledTasks daysAheadToSync officeTypesToSync cachedOffices serverChecksums clock).map
    Task.officeAndDay).Nodup
  covers : ∀ what ∈ officeTypesToSync, ∀ day, clock.cutoff.day ≤ day → day < clock.cutoff.day.addDays daysAheadToSync →
    cachedOffices.containsKey (.of what (.ofDay day)) = true ∨
      (what, day) ∈ (scheduledTasks daysAheadToSync officeTypesToSync cachedOffices serverChecksums clock).map
        Task.officeAndDay

/-- The date before iteration `k` of the first loop: that of the iteration before, or the first of the run. -/
def Clock.dateBefore (clock : Clock) : Nat → Date
  | 0 => clock.cutoff.day
  | k + 1 => (clock.fetch k).day

/-- The days from the one that iteration `k` would visit without a change of date to the one it visits. -/
def Clock.StepsOver (clock : Clock) (k : Nat) (day : Date) : Prop :=
  (clock.dateBefore k).addDays k ≤ day ∧ day < (clock.fetch k).day.addDays k

theorem getOfficeTypesToSync_nodup (preferences : Preferences) : (getOfficeTypesToSync preferences).Nodup := by
  unfold getOfficeTypesToSync
  split
  next => decide
  next => exact List.nodup_singleton _

/-! ## The days that the loops visit -/

theorem le_of_pairwise_range {count : Nat} {dates : Nat → Date}
    (ordered : ((List.range count).map dates).Pairwise (· ≤ ·)) {i j : Nat} (before : i < j) (inRange : j < count) :
    dates i ≤ dates j := by
  rw [List.pairwise_map, List.pairwise_iff_getElem] at ordered
  have listed := ordered i j (by simpa using before.trans inRange) (by simpa using inRange) before
  simpa using listed

section

variable {clock : Clock} {daysAheadToSync : Nat} {serverChecksums : Option OfficesMetadata}

theorem Clock.NonDecreasing.fetch (ordered : clock.NonDecreasing daysAheadToSync serverChecksums) {i j : Nat}
    (before : i < j) (inWindow : j < daysAheadToSync) : (clock.fetch i).day ≤ (clock.fetch j).day := by
  have loops := (List.pairwise_cons.mp (List.pairwise_cons.mp ordered).2).2
  exact le_of_pairwise_range (List.pairwise_append.mp loops).1 before inWindow

theorem Clock.NonDecreasing.cutoff_le (ordered : clock.NonDecreasing daysAheadToSync serverChecksums) {i : Nat}
    (inWindow : i < daysAheadToSync) : clock.cutoff.day ≤ (clock.fetch i).day := by
  refine (List.pairwise_cons.mp ordered).1 _ (List.mem_cons_of_mem _ (List.mem_append_left _ ?_))
  exact List.mem_map.mpr ⟨i, List.mem_range.mpr inWindow, rfl⟩

theorem Clock.NonDecreasing.refresh {serverChecksums : OfficesMetadata}
    (ordered : clock.NonDecreasing daysAheadToSync (some serverChecksums)) {i j : Nat} (before : i < j)
    (inWeek : j < 7) : (clock.refresh i).day ≤ (clock.refresh j).day := by
  have loops := (List.pairwise_cons.mp (List.pairwise_cons.mp ordered).2).2
  exact le_of_pairwise_range (List.pairwise_append.mp loops).2.1 before inWeek

end

/-- The days of a loop increase with its index, so an office appears once for each of them. -/
theorem nodup_loop {count : Nat} {selected : Nat → List OfficeTypes} {dates : Nat → AelfDate}
    (distinct : ∀ i, (selected i).Nodup)
    (ordered : ∀ i j, i < j → j < count → (dates i).day ≤ (dates j).day) :
    (((List.range count).flatMap fun i => (selected i).map fun what => Task.mk what ((dates i).addDays i)).map
      Task.officeAndDay).Nodup := by
  rw [List.map_flatMap, List.nodup_flatMap]
  constructor
  · intro i inRange
    rw [List.map_map]
    refine (distinct i).map ?_
    intro first second same
    exact (Prod.mk.inj same).1
  · refine List.pairwise_lt_range.imp_of_mem ?_
    intro i j _ inRange before task inFirst inSecond
    simp only [List.map_map, List.mem_map] at inFirst inSecond
    obtain ⟨first, _, rfl⟩ := inFirst
    obtain ⟨second, _, same⟩ := inSecond
    have sameDay : (dates j).day.addDays j = (dates i).day.addDays i := (Prod.mk.inj same).2
    have sameNumber := congrArg Date.dayNumber sameDay
    have later := (Date.le_iff_dayNumber_le _ _).mp (ordered i j before (List.mem_range.mp inRange))
    rw [Date.dayNumber_addDays, Date.dayNumber_addDays] at sameNumber
    omega

section

variable {clock : Clock} {daysAheadToSync : Nat} {officeTypesToSync : List OfficeTypes}
  {cachedOffices : CacheEntries α} {serverChecksums : Option OfficesMetadata}

theorem index_congr {what : OfficeTypes} {first second : AelfDate} (sameDay : first.day = second.day) :
    CacheEntryIndex.of what first = CacheEntryIndex.of what second := by
  rw [CacheEntryIndex.of, AelfDate.toIsoString_congr sameDay, ← CacheEntryIndex.of]

/-- Only what is in the listing is refreshed. -/
theorem containsKey_of_isOutdated {serverChecksums : OfficesMetadata} {what : OfficeTypes} {date : AelfDate}
    (outdated : isOutdated serverChecksums cachedOffices what date = true) :
    cachedOffices.containsKey (.of what date) = true := by
  unfold isOutdated at outdated
  split at outdated
  next => exact absurd outdated Bool.false_ne_true
  next found => rw [CacheEntries.containsKey, found, Option.isSome_some]

/-- The first loop takes what is not in the listing, the second one what is. -/
theorem scheduledTasks_nodup (distinct : officeTypesToSync.Nodup)
    (ordered : clock.NonDecreasing daysAheadToSync serverChecksums) :
    ((scheduledTasks daysAheadToSync officeTypesToSync cachedOffices serverChecksums clock).map
      Task.officeAndDay).Nodup := by
  have fetched : ((enqueueInitialFetchTasks daysAheadToSync officeTypesToSync cachedOffices clock.fetch).map
      Task.officeAndDay).Nodup :=
    nodup_loop (fun _ => distinct.filter _) fun _ _ before inWindow => ordered.fetch before inWindow
  cases serverChecksums with
  | none =>
    rw [scheduledTasks, enqueueCacheRefreshTasks, List.append_nil]
    exact fetched
  | some serverChecksums =>
    have refreshed : ((enqueueCacheRefreshTasks (some serverChecksums) officeTypesToSync cachedOffices
        clock.refresh).map Task.officeAndDay).Nodup :=
      nodup_loop (fun _ => distinct.filter _) fun _ _ before inWeek => ordered.refresh before inWeek
    rw [scheduledTasks, List.map_append]
    refine fetched.append refreshed ?_
    intro officeAndDay inFirst inSecond
    obtain ⟨first, firstTask, rfl⟩ := List.mem_map.mp inFirst
    obtain ⟨second, secondTask, same⟩ := List.mem_map.mp inSecond
    obtain ⟨i, _, _, _, missing⟩ := mem_enqueueInitialFetchTasks.mp firstTask
    obtain ⟨j, _, _, _, outdated⟩ := mem_enqueueCacheRefreshTasks.mp secondTask
    obtain ⟨sameOffice, sameDay⟩ := Prod.mk.inj same
    have listed := containsKey_of_isOutdated outdated
    rw [sameOffice, index_congr sameDay, missing] at listed
    exact Bool.false_ne_true listed

/-! ## The days that the first loop steps over -/

/-- An iteration visits a day before those that a later iteration steps over. -/
theorem dayNumber_lt_dateBefore (ordered : clock.NonDecreasing daysAheadToSync serverChecksums) {i k : Nat}
    (before : i < k) (inWindow : k < daysAheadToSync) :
    (clock.fetch i).day.dayNumber + i < (clock.dateBefore k).dayNumber + k := by
  cases k with
  | zero => exact absurd before (Nat.not_lt_zero i)
  | succ k =>
    rw [Clock.dateBefore]
    obtain rfl | earlier := (Nat.le_of_lt_succ before).eq_or_lt
    · omega
    · have later := ordered.fetch earlier (by omega)
      rw [Date.le_iff_dayNumber_le] at later
      omega

theorem stepsOver_iff {k : Nat} {day : Date} :
    clock.StepsOver k day ↔ (clock.dateBefore k).dayNumber + k ≤ day.dayNumber ∧
      day.dayNumber < (clock.fetch k).day.dayNumber + k := by
  rw [Clock.StepsOver, Date.le_iff_dayNumber_le, Date.lt_iff_dayNumber_lt, Date.dayNumber_addDays,
    Date.dayNumber_addDays]

theorem not_visited_of_stepsOver (ordered : clock.NonDecreasing daysAheadToSync serverChecksums) {day : Date}
    {i k : Nat} (inWindow : i < daysAheadToSync) (stepInWindow : k < daysAheadToSync)
    (steppedOver : clock.StepsOver k day) : (clock.fetch i).day.addDays i ≠ day := by
  rintro rfl
  rw [stepsOver_iff, Date.dayNumber_addDays] at steppedOver
  rcases lt_trichotomy i k with before | rfl | after
  · have earlier := dayNumber_lt_dateBefore ordered before stepInWindow
    omega
  · omega
  · have later := ordered.fetch after inWindow
    rw [Date.le_iff_dayNumber_le] at later
    omega

/-- The first iteration that reaches the day or a later one either visits it or steps over it. -/
theorem visited_or_stepsOver (ordered : clock.NonDecreasing daysAheadToSync serverChecksums) {day : Date}
    (afterStart : clock.cutoff.day ≤ day) (inWindow : day < clock.cutoff.day.addDays daysAheadToSync) :
    (∃ i < daysAheadToSync, (clock.fetch i).day.addDays i = day) ∨ ∃ k < daysAheadToSync, clock.StepsOver k day := by
  rw [Date.le_iff_dayNumber_le] at afterStart
  rw [Date.lt_iff_dayNumber_lt, Date.dayNumber_addDays] at inWindow
  -- the last iteration reaches the last day of the window, if not a later one
  have reached : ∃ k, k < daysAheadToSync ∧ day.dayNumber ≤ (clock.fetch k).day.dayNumber + k := by
    have last := ordered.cutoff_le (show daysAheadToSync - 1 < daysAheadToSync by omega)
    rw [Date.le_iff_dayNumber_le] at last
    exact ⟨daysAheadToSync - 1, by omega, by omega⟩
  obtain ⟨inLoop, reaches⟩ := Nat.find_spec reached
  generalize found : Nat.find reached = k at inLoop reaches
  obtain visits | passes := reaches.eq_or_lt
  · refine .inl ⟨k, inLoop, Date.dayNumber_injective ?_⟩
    rw [Date.dayNumber_addDays, visits]
  · refine .inr ⟨k, inLoop, stepsOver_iff.mpr ⟨?_, passes⟩⟩
    cases k with
    | zero => simpa [Clock.dateBefore] using afterStart
    | succ k =>
      have notYet := Nat.find_min reached (show k < Nat.find reached by omega)
      rw [Clock.dateBefore]
      omega

theorem cutoff_le_of_stepsOver (ordered : clock.NonDecreasing daysAheadToSync serverChecksums) {k : Nat} {day : Date}
    (inWindow : k < daysAheadToSync) (steppedOver : clock.StepsOver k day) : clock.cutoff.day ≤ day := by
  rw [stepsOver_iff] at steppedOver
  rw [Date.le_iff_dayNumber_le]
  cases k with
  | zero => simpa [Clock.dateBefore] using steppedOver.1
  | succ k =>
    have later := ordered.cutoff_le (show k < daysAheadToSync by omega)
    rw [Date.le_iff_dayNumber_le] at later
    rw [Clock.dateBefore] at steppedOver
    omega

/-! ## What is scheduled -/

theorem containsKey_or_visited_of_scheduled {what : OfficeTypes} {day : Date}
    (scheduled : (what, day) ∈ (scheduledTasks daysAheadToSync officeTypesToSync cachedOffices serverChecksums
      clock).map Task.officeAndDay) :
    cachedOffices.containsKey (.of what (.ofDay day)) = true ∨
      ∃ i < daysAheadToSync, (clock.fetch i).day.addDays i = day := by
  obtain ⟨task, inTasks, same⟩ := List.mem_map.mp scheduled
  obtain ⟨rfl, rfl⟩ := Prod.mk.inj same
  obtain fetched | refreshed := List.mem_append.mp inTasks
  · obtain ⟨i, inWindow, _, visits, _⟩ := mem_enqueueInitialFetchTasks.mp fetched
    refine .inr ⟨i, inWindow, ?_⟩
    rw [visits, AelfDate.day_addDays]
  · cases serverChecksums with
    | none => exact absurd refreshed List.not_mem_nil
    | some serverChecksums =>
      obtain ⟨i, _, _, _, outdated⟩ := mem_enqueueCacheRefreshTasks.mp refreshed
      rw [index_congr (AelfDate.day_ofDay _)]
      exact .inl (containsKey_of_isOutdated outdated)

theorem containsKey_or_scheduled_of_visited {what : OfficeTypes} (selected : what ∈ officeTypesToSync) {i : Nat}
    (inWindow : i < daysAheadToSync) :
    cachedOffices.containsKey (.of what (.ofDay ((clock.fetch i).day.addDays i))) = true ∨
      (what, (clock.fetch i).day.addDays i) ∈ (scheduledTasks daysAheadToSync officeTypesToSync cachedOffices
        serverChecksums clock).map Task.officeAndDay := by
  have sameIndex : CacheEntryIndex.of what (.ofDay ((clock.fetch i).day.addDays i)) =
      .of what ((clock.fetch i).addDays i) := index_congr rfl
  rw [or_iff_not_imp_left, Bool.not_eq_true, sameIndex]
  intro missing
  have fetched : ⟨what, (clock.fetch i).addDays i⟩ ∈
      enqueueInitialFetchTasks daysAheadToSync officeTypesToSync cachedOffices clock.fetch :=
    mem_enqueueInitialFetchTasks.mpr ⟨i, inWindow, selected, rfl, missing⟩
  exact List.mem_map.mpr ⟨_, List.mem_append_left _ fetched, rfl⟩

end

/-- The schedule is exact when every office of the days that the first loop steps over is in the listing. -/
theorem scheduleExact_iff (daysAheadToSync : Nat) (officeTypesToSync : List OfficeTypes)
    (cachedOffices : CacheEntries α) (serverChecksums : Option OfficesMetadata) (clock : Clock)
    (distinct : officeTypesToSync.Nodup) (ordered : clock.NonDecreasing daysAheadToSync serverChecksums) :
    ScheduleExact daysAheadToSync officeTypesToSync cachedOffices serverChecksums clock ↔
      ∀ k < daysAheadToSync, ∀ day, clock.StepsOver k day → day < clock.cutoff.day.addDays daysAheadToSync →
        ∀ what ∈ officeTypesToSync, cachedOffices.containsKey (.of what (.ofDay day)) = true := by
  constructor
  · intro isExact k stepInWindow day steppedOver inWindow what selected
    have afterStart := cutoff_le_of_stepsOver ordered stepInWindow steppedOver
    obtain listed | scheduled := isExact.covers what selected day afterStart inWindow
    · exact listed
    · obtain listed | ⟨i, visitInWindow, visits⟩ := containsKey_or_visited_of_scheduled scheduled
      · exact listed
      · exact absurd visits (not_visited_of_stepsOver ordered visitInWindow stepInWindow steppedOver)
  · intro listed
    refine ⟨scheduledTasks_nodup distinct ordered, ?_⟩
    intro what selected day afterStart inWindow
    obtain ⟨i, visitInWindow, rfl⟩ | ⟨k, stepInWindow, steppedOver⟩ :=
      visited_or_stepsOver ordered afterStart inWindow
    · exact containsKey_or_scheduled_of_visited selected visitInWindow
    · exact .inl (listed k stepInWindow day steppedOver inWindow what selected)

namespace Midnight

def today : Date := ⟨2024, 5, 20, isDate_20_may_2024⟩

/-- The date changes after the first iteration. -/
def clock : Clock :=
  ⟨.ofDay today, .ofDay today, fun i => .ofDay (if i = 0 then today else today.next), fun _ => .ofDay today.next⟩

theorem nonDecreasing : clock.NonDecreasing 7 none := by
  unfold Clock.NonDecreasing
  decide +kernel

/-- The mass of the next day is not in the listing, and not fetched either. -/
theorem next_day_forgotten :
    clock.NonDecreasing 7 none ∧ ¬ScheduleExact 7 [.messe] (.empty : CacheEntries Office) none clock := by
  refine ⟨nonDecreasing, ?_⟩
  intro isExact
  obtain listed | scheduled :=
    isExact.covers .messe (by decide) today.next (by decide +kernel) (by decide +kernel)
  · exact Bool.false_ne_true listed
  · revert scheduled
    decide +kernel

def nextDayListed : CacheEntries Office :=
  CacheEntries.empty.put (.of .messe (.ofDay today.next)) ⟨none, "", ⟨IsoDate.epoch, false⟩⟩

theorem next_day_listed :
    clock.NonDecreasing 7 none ∧ ScheduleExact 7 [.messe] nextDayListed none clock := by
  refine ⟨nonDecreasing, (scheduleExact_iff _ _ _ _ _ (List.nodup_singleton _) nonDecreasing).mpr ?_⟩
  intro k inWindow day steppedOver _ what selected
  obtain rfl := List.mem_singleton.mp selected
  -- only the second iteration steps over a day
  have isNext : day = today.next := by
    rw [stepsOver_iff] at steppedOver
    have number := today.dayNumber_next
    refine Date.dayNumber_injective ?_
    match k with
    | 0 =>
      exact absurd (steppedOver.1.trans_lt steppedOver.2) (lt_irrefl _)
    | 1 =>
      change today.dayNumber + 1 ≤ day.dayNumber ∧ day.dayNumber < today.next.dayNumber + 1 at steppedOver
      omega
    | k + 2 =>
      exact absurd (steppedOver.1.trans_lt steppedOver.2) (lt_irrefl _)
  rw [isNext]
  rfl

end Midnight

end Aelf.Sync
