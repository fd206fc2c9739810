import Aelf.Lectures.Cache

/-! # What a synchronisation schedules

The preferences that `SyncWorker` reads, and the two loops that compare the cache
with the window of days to keep and with the checksums of the server.  Each loop
asks for the current date again and again, so the dates that these calls return are
kept apart in a `Clock`. -/

namespace Aelf.Sync

open Aelf.Lectures
open Aelf.Library.Calendar (Date)

variable {α : Type}

/-! ## Preferences -/

/-- The sync preferences, absent until they are first written. -/
structure Preferences where
  lectures : Option String
  duree : Option String
  conserv : Option String

def getStringPreference (value : Option String) (default_value : String) : String := value.getD default_value

def getOfficeTypesToSync (preferences : Preferences) : List OfficeTypes :=
  if getStringPreference preferences.lectures "messe-offices" = "messe-offices" then OfficeTypes.values
  else [.messe]

def getDaysAheadToSync (preferences : Preferences) : Nat :=
  if getStringPreference preferences.duree "mois" ∈ ["auj", "auj-dim", "semaine"] then 7 else 31

/-- `getRetentionCutoffDate`, where `now` is the date of the call. -/
def getRetentionCutoffDate (preferences : Preferences) (now : AelfDate) : AelfDate :=
  let configValue := getStringPreference preferences.conserv "semaine"
  if configValue = "semaine" then now.addDays (-7)
  else if configValue = "mois" then now.addMonths (-1)
  else if configValue = "toujours" then now.addYears (-1)
  else now

theorem getDaysAheadToSync_bounds (preferences : Preferences) :
    7 ≤ getDaysAheadToSync preferences ∧ getDaysAheadToSync preferences ≤ 31 := by
  unfold getDaysAheadToSync
  split <;> decide

theorem getRetentionCutoffDate_le (preferences : Preferences) (now : AelfDate) :
    (getRetentionCutoffDate preferences now).day ≤ now.day := by
  unfold getRetentionCutoffDate
  dsimp only
  split
  next => exact (now.day.addDays_neg_lt 6).le
  next =>
    split
    next => exact (now.day.addMonths_lt (by decide)).le
    next =>
      split
      next => exact (now.day.addMonths_lt (by decide)).le
      next => exact le_refl _

/-! ## Server metadata -/

/-- The JSON adapter accepts an entry without a checksum, but none without a date. -/
structure OfficeMetadata where
  checksum : Option String
  generationDate : IsoDate

/-- `YYYY-MM-DD` to the name of an office to its metadata. -/
structure OfficesMetadata where
  checksums : String → Option (String → Option OfficeMetadata)

def OfficesMetadata.getOfficeChecksum (metadata : OfficesMetadata) (office : OfficeTypes) (date : AelfDate) :
    Option OfficeMetadata :=
  match metadata.checksums date.toIsoString with
  | none => none
  | some officeChecksums => officeChecksums office.apiName

/-! ## The two loops -/

/-- A call to `syncReading`. -/
structure Task where
  what : OfficeTypes
  date : AelfDate
deriving DecidableEq

/-- The results of the calls to `new AelfDate()` on the thread of the worker. -/
structure Clock where
  cutoff : AelfDate
  listing : AelfDate
  fetch : Nat → AelfDate
  refresh : Nat → AelfDate

/-- Every call falls on the same day. -/
structure Clock.Constant (clock : Clock) (today : Date) : Prop where
  cutoff : clock.cutoff.day = today
  listing : clock.listing.day = today
  fetch : ∀ i, (clock.fetch i).day = today
  refresh : ∀ i, (clock.refresh i).day = today

def enqueueInitialFetchTasks (daysAheadToSync : Nat) (officeTypesToSync : List OfficeTypes)
    (cachedOffices : CacheEntries α) (now : Nat → AelfDate) : List Task :=
  (List.range daysAheadToSync).flatMap fun i =>
    let date := (now i).addDays i
    (officeTypesToSync.filter fun what => !cachedOffices.containsKey (.of what date)).map fun what => ⟨what, date⟩

/-- The conditions that `enqueueCacheRefreshTasks` checks before it schedules a refresh. -/
def isOutdated (serverChecksums : OfficesMetadata) (cachedOffices : CacheEntries α) (what : OfficeTypes)
    (date : AelfDate) : Bool :=
  match cachedOffices.get (.of what date) with
  | none => false
  | some cacheEntry =>
    match serverChecksums.getOfficeChecksum what date with
    | none => false
    | some serverOfficeMetadata =>
      if serverOfficeMetadata.checksum = some cacheEntry.checksum then false
      else if serverOfficeMetadata.generationDate.isValid &&
          serverOfficeMetadata.generationDate.before cacheEntry.creationDate then false
      else true

def enqueueCacheRefreshTasks (serverChecksums : Option OfficesMetadata) (officeTypesToSync : List OfficeTypes)
    (cachedOffices : CacheEntries α) (now : Nat → AelfDate) : List Task :=
  match serverChecksums with
  | none => []
  | some serverChecksums =>
    (List.range 7).flatMap fun i =>
      let date := (now i).addDays i
      (officeTypesToSync.filter fun what => isOutdated serverChecksums cachedOffices what date).map
        fun what => ⟨what, date⟩

theorem mem_enqueueInitialFetchTasks {daysAheadToSync : Nat} {officeTypesToSync : List OfficeTypes}
    {cachedOffices : CacheEntries α} {now : Nat → AelfDate} {task : Task} :
    task ∈ enqueueInitialFetchTasks daysAheadToSync officeTypesToSync cachedOffices now ↔
      ∃ i < daysAheadToSync, task.what ∈ officeTypesToSync ∧ task.date = (now i).addDays i ∧
        cachedOffices.containsKey (.of task.what task.date) = false := by
  obtain ⟨what, date⟩ := task
  simp only [enqueueInitialFetchTasks, List.mem_flatMap, List.mem_range, List.mem_map, List.mem_filter,
    Bool.not_eq_true', Task.mk.injEq]
  constructor
  · rintro ⟨i, inWindow, what', ⟨selected, missing⟩, rfl, rfl⟩
    exact ⟨i, inWindow, selected, rfl, missing⟩
  · rintro ⟨i, inWindow, selected, rfl, missing⟩
    exact ⟨i, inWindow, what, ⟨selected, missing⟩, rfl, rfl⟩

theorem mem_enqueueCacheRefreshTasks {serverChecksums : OfficesMetadata} {officeTypesToSync : List OfficeTypes}
    {cachedOffices : CacheEntries α} {now : Nat → AelfDate} {task : Task} :
    task ∈ enqueueCacheRefreshTasks (some serverChecksums) officeTypesToSync cachedOffices now ↔
      ∃ i < 7, task.what ∈ officeTypesToSync ∧ task.date = (now i).addDays i ∧
        isOutdated serverChecksums cachedOffices task.what task.date = true := by
  obtain ⟨what, date⟩ := task
  simp only [enqueueCacheRefreshTasks, List.mem_flatMap, List.mem_range, List.mem_map, List.mem_filter,
    Task.mk.injEq]
  constructor
  · rintro ⟨i, inWindow, what', ⟨selected, outdated⟩, rfl, rfl⟩
    exact ⟨i, inWindow, selected, rfl, outdated⟩
  · rintro ⟨i, inWindow, selected, rfl, outdated⟩
    exact ⟨i, inWindow, what, ⟨selected, outdated⟩, rfl, rfl⟩

/-- An entry stays as it is when the server has nothing for it, the same checksum, or something
generated before the entry. -/
theorem isOutdated_eq_false_iff {serverChecksums : OfficesMetadata} {cachedOffices : CacheEntries α}
    {what : OfficeTypes} {date : AelfDate} {cacheEntry : CacheEntry α}
    (cached : cachedOffices.get (.of what date) = some cacheEntry) :
    isOutdated serverChecksums cachedOffices what date = false ↔
      ∀ serverOfficeMetadata, serverChecksums.getOfficeChecksum what date = some serverOfficeMetadata →
        serverOfficeMetadata.checksum = some cacheEntry.checksum ∨
          (serverOfficeMetadata.generationDate.isValid = true ∧
            serverOfficeMetadata.generationDate.before cacheEntry.creationDate = true) := by
  unfold isOutdated
  rw [cached]
  cases serverChecksums.getOfficeChecksum what date with
  | none => simp
  | some serverOfficeMetadata =>
    by_cases same : serverOfficeMetadata.checksum = some cacheEntry.checksum
    · simp [same]
    · simp [same]

end Aelf.Sync
