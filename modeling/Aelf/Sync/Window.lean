import Aelf.Sync.Worker

/-! # The window of days that a synchronisation keeps

A successful run leaves every selected office of the window in the cache, and a
second run on the same day against the same server finds nothing left to do.  Days
are compared as text on the way, by the listing and by the truncation, so both
results ask for four-digit years from the retention cutoff to the end of the window. -/

namespace Aelf.Sync

open Aelf.Library Aelf.Lectures
open Aelf.Library.Calendar (Date)
open LecturesController

variable {α : Type} [HttpDateFormat]

/-! ## A whole run -/

/-- `synchronize`, from its preferences to the cache it leaves behind. -/
structure SyncRun (α : Type) [HttpDateFormat] where
  preferences : Preferences
  clock : Clock
  apiVersion : Int
  performanceClass : PerformanceClass
  cache : Cache α
  /-- What the fetch of the server checksums comes back with in time. -/
  metadata : Option OfficesMetadata
  readings : List (SyncReading α)
  scheduled : readings.map SyncReading.task =
    enqueueInitialFetchTasks (getDaysAheadToSync preferences) (getOfficeTypesToSync preferences)
        (cache.listCachedEntries clock.listing apiVersion) clock.fetch ++
      enqueueCacheRefreshTasks metadata (getOfficeTypesToSync preferences)
        (cache.listCachedEntries clock.listing apiVersion) clock.refresh
  /-- The version is a resource of the application, the same for every call. -/
  versions : ∀ reading ∈ readings, reading.env.apiVersion = apiVersion
  execution : Execution performanceClass readings cache
  truncation : SqliteOutcome

namespace SyncRun

variable (run : SyncRun α)

def officeTypesToSync : List OfficeTypes := getOfficeTypesToSync run.preferences

def daysAheadToSync : Nat := getDaysAheadToSync run.preferences

def retentionCutoffDate : AelfDate := getRetentionCutoffDate run.preferences run.clock.cutoff

def cachedOffices : CacheEntries α := run.cache.listCachedEntries run.clock.listing run.apiVersion

def initialFetchTasks : List Task :=
  enqueueInitialFetchTasks run.daysAheadToSync run.officeTypesToSync run.cachedOffices run.clock.fetch

def refreshTasks : List Task :=
  enqueueCacheRefreshTasks run.metadata run.officeTypesToSync run.cachedOffices run.clock.refresh

/-- An unchecked exception of the final truncation leaves `synchronize`. -/
def returned : Except JavaException Result :=
  match run.truncation with
  | .done => .ok run.execution.result
  | .sqliteException => .error .runtimeException

def finalCache : Cache α :=
  match run.truncation with
  | .done => run.execution.pool.shared.cache.truncateBefore run.retentionCutoffDate
  | .sqliteException => run.execution.pool.shared.cache

theorem returned_eq_success_iff :
    run.returned = .ok .success ↔ run.truncation = .done ∧ run.execution.result = .success := by
  unfold returned
  cases run.truncation with
  | done => simp
  | sqliteException => simp

/-- A scheduled task was handed to the pool, with the environment it met. -/
theorem exists_reading {task : Task} (member : task ∈ run.initialFetchTasks ∨ task ∈ run.refreshTasks) :
    ∃ reading ∈ run.readings, reading.task = task := by
  rw [← List.mem_map, run.scheduled, List.mem_append]
  exact member

end SyncRun

/-! ## Looking up an office after the tasks -/

/-- The key under which a reading is stored. -/
def Task.key (task : Task) : String × String := (task.date.toIsoString, task.what.toString)

omit [HttpDateFormat] in
theorem Task.key_eq_iff {task : Task} {what : OfficeTypes} {date : AelfDate} :
    task.key = (date.toIsoString, what.toString) ↔ task.date.toIsoString = date.toIsoString ∧ task.what = what := by
  rw [key, Prod.mk.injEq, OfficeTypes.toString_injective.eq_iff]

theorem SyncReading.Stores.key_eq {reading : SyncReading α} {row : Row α} (stores : reading.Stores row) :
    row.key = reading.task.key := by
  obtain ⟨response, _, rfl⟩ := stores
  rfl

/-- After any readings, a key holds what one of them stored there, or what it held before when none
of them did. -/
theorem find?_foldl_syncReading (readings : List (SyncReading α)) (shared : Shared α) (key : String × String) :
    (∃ reading ∈ readings, ∃ row, reading.task.key = key ∧ reading.Stores row ∧
      (readings.foldl syncReading shared).cache.find? key = some row) ∨
    ((∀ reading ∈ readings, reading.outcome = .stored → reading.task.key ≠ key) ∧
      (readings.foldl syncReading shared).cache.find? key = shared.cache.find? key) := by
  induction readings generalizing shared with
  | nil => exact .inr ⟨by simp, rfl⟩
  | cons reading readings inductionHypothesis =>
    rw [List.foldl_cons]
    obtain ⟨later, member, row, stored⟩ | ⟨others, unchanged⟩ := inductionHypothesis (syncReading shared reading)
    -- the last reading that stores under the key wins
    · exact .inl ⟨later, List.mem_cons_of_mem reading member, row, stored⟩
    · -- no later reading writes the key, so this one decides
      rw [unchanged]
      rcases syncReading_cases shared reading with ⟨row, outcome, stores, equation⟩ | ⟨outcome, equation⟩ | ⟨outcome, equation⟩
      · rw [equation, Table.find?_insertOrReplace]
        by_cases same : reading.task.key = key
        · exact .inl ⟨reading, by simp, row, same, stores, by rw [if_pos (stores.key_eq.trans same)]⟩
        · rw [if_neg fun equal => same (stores.key_eq.symm.trans equal)]
          refine .inr ⟨?_, rfl⟩
          rw [List.forall_mem_cons]
          exact ⟨fun _ => same, others⟩
      · rw [equation]
        refine .inr ⟨?_, rfl⟩
        rw [List.forall_mem_cons]
        exact ⟨fun stored => absurd (outcome.symm.trans stored) (by decide), others⟩
      · rw [equation]
        refine .inr ⟨?_, rfl⟩
        rw [List.forall_mem_cons]
        exact ⟨fun stored => absurd (outcome.symm.trans stored) (by decide), others⟩

namespace SyncRun

variable {run : SyncRun α}

/-- The days from the cutoff to the end of the window have four-digit years. -/
structure FourDigitYears (run : SyncRun α) (today : Date) : Prop where
  cutoff : FourDigitYear run.retentionCutoffDate.day
  last : FourDigitYear (today.addDays (run.daysAheadToSync - 1 : Nat))

theorem cutoff_le {today : Date} (constant : run.clock.Constant today) : run.retentionCutoffDate.day ≤ today := by
  rw [← constant.cutoff]
  exact getRetentionCutoffDate_le run.preferences run.clock.cutoff

theorem window_year {today : Date} (constant : run.clock.Constant today) (years : run.FourDigitYears today)
    {i : Nat} (inWindow : i < run.daysAheadToSync) : FourDigitYear (today.addDays i) := by
  have after := (cutoff_le constant).trans (today.le_addDays i)
  have before : today.addDays i ≤ today.addDays (run.daysAheadToSync - 1 : Nat) :=
    today.addDays_strictMono.monotone (by omega)
  exact years.cutoff.between years.last after before

/-- The truncation keeps the days from the cutoff on. -/
theorem find?_finalCache {date : AelfDate} (office : String) (cutoffYear : FourDigitYear run.retentionCutoffDate.day)
    (dateYear : FourDigitYear date.day) (kept : run.retentionCutoffDate.day ≤ date.day) :
    run.finalCache.find? (date.toIsoString, office) =
      run.execution.pool.shared.cache.find? (date.toIsoString, office) := by
  unfold finalCache
  cases run.truncation with
  | sqliteException => rfl
  | done =>
    dsimp only
    rw [Cache.truncateBefore, Table.find?_deleteWhere]
    cases found : run.execution.pool.shared.cache.find? (date.toIsoString, office) with
    | none => rfl
    | some row =>
      have keyed := ((Table.find?_eq_some_iff _ _ row).mp found).2
      have rowDate : row.date = date.toIsoString := (Prod.mk.inj keyed).1
      have notBefore : ¬date.toIsoString < run.retentionCutoffDate.toIsoString := by
        rw [AelfDate.toIsoString_lt_iff dateYear cutoffYear, not_lt]
        exact kept
      rw [Option.filter_some, if_pos]
      rw [rowDate, Bool.not_eq_true', decide_eq_false_iff_not]
      exact notBefore

/-- The truncation removes whatever sorts before the text of the cutoff. -/
theorem find?_finalCache_of_lt {date : AelfDate} (office : String) (truncated : run.truncation = .done)
    (before : date.toIsoString < run.retentionCutoffDate.toIsoString) :
    run.finalCache.find? (date.toIsoString, office) = none := by
  unfold finalCache
  rw [truncated]
  dsimp only
  rw [Cache.truncateBefore, Table.find?_deleteWhere, Option.filter_eq_none_iff]
  intro row found
  have keyed := ((Table.find?_eq_some_iff _ _ row).mp found).2
  have rowDate : row.date = date.toIsoString := (Prod.mk.inj keyed).1
  rw [rowDate, Bool.not_eq_true', decide_eq_false_iff_not, not_not]
  exact before

/-- Every scheduled task has stored its office by the end of the run. -/
structure Completed (run : SyncRun α) : Prop where
  terminated : run.execution.awaited = .terminated
  stored : ∀ reading ∈ run.readings, reading.outcome = .stored

theorem completed_of_success (checked : ∀ reading ∈ run.readings, reading.outcome ≠ .uncheckedException)
    (succeeded : run.returned = .ok .success) : run.Completed := by
  obtain ⟨_, success⟩ := run.returned_eq_success_iff.mp succeeded
  obtain ⟨terminated, clean⟩ := run.execution.result_eq_success_iff.mp success
  refine ⟨terminated, fun reading member => ?_⟩
  cases outcome : reading.outcome with
  | stored => rfl
  | ioException => exact absurd outcome (clean reading member)
  | uncheckedException => exact absurd outcome (checked reading member)

/-- Where a key of the kept days ends up: with what a task of the run stored, or untouched. -/
theorem find?_completed (completed : run.Completed) {date : AelfDate} (office : String)
    (cutoffYear : FourDigitYear run.retentionCutoffDate.day) (dateYear : FourDigitYear date.day)
    (kept : run.retentionCutoffDate.day ≤ date.day) :
    (∃ reading ∈ run.readings, ∃ row, reading.task.key = (date.toIsoString, office) ∧ reading.Stores row ∧
      run.finalCache.find? (date.toIsoString, office) = some row) ∨
    ((∀ reading ∈ run.readings, reading.task.key ≠ (date.toIsoString, office)) ∧
      run.finalCache.find? (date.toIsoString, office) =
        run.cache.find? (date.toIsoString, office)) := by
  have ended := run.execution.finished_perm completed.terminated
  rw [find?_finalCache office cutoffYear dateYear kept, run.execution.shared_eq]
  rcases find?_foldl_syncReading run.execution.finished ⟨run.cache, 0⟩ (date.toIsoString, office) with
    ⟨reading, member, row, stored⟩ | ⟨others, unchanged⟩
  · exact .inl ⟨reading, ended.subset member, row, stored⟩
  · refine .inr ⟨fun reading member => ?_, unchanged⟩
    exact others reading (ended.symm.subset member) (completed.stored reading member)

/-! ## The listing and the window -/

/-- The listing of a run shows an office of the window exactly when the query of `load` finds it. -/
theorem get_listing {cache : Cache α} {since date : AelfDate} (what : OfficeTypes) (version : Int)
    (sinceYear : FourDigitYear since.day) (dateYear : FourDigitYear date.day) (later : since.day ≤ date.day) :
    (cache.listCachedEntries since version).get (.of what date) =
      (cache.queryRow what date version).map Cache.listedEntry := by
  rw [Cache.get_listCachedEntries, Cache.queryRow_eq]
  change ((cache.find? (date.toIsoString, what.toString)).filter _).map _ = _
  cases found : cache.find? (date.toIsoString, what.toString) with
  | none => rfl
  | some row =>
    have keyed := ((Table.find?_eq_some_iff _ _ row).mp found).2
    have rowDate : row.date = date.toIsoString := (Prod.mk.inj keyed).1
    have listedDate : since.toIsoString ≤ row.date := by
      rw [rowDate, AelfDate.toIsoString_le_iff sinceYear dateYear]
      exact later
    simp [Cache.isListed, listedDate, Option.filter_some]

/-- Days of the window are those that the loops compute, whichever call to the clock they start from. -/
theorem listing_window {today : Date} (constant : run.clock.Constant today) (years : run.FourDigitYears today)
    (what : OfficeTypes) {i : Nat} (inWindow : i < run.daysAheadToSync) {date : AelfDate}
    (onDay : date.day = today.addDays i) :
    run.cachedOffices.get (.of what date) = (run.cache.queryRow what date run.apiVersion).map Cache.listedEntry := by
  have dateYear : FourDigitYear date.day := onDay ▸ window_year constant years inWindow
  have positive : 0 < run.daysAheadToSync := by omega
  have sinceYear : FourDigitYear run.clock.listing.day := by
    rw [constant.listing]
    exact window_year constant years positive
  apply get_listing what run.apiVersion sinceYear dateYear
  rw [constant.listing, onDay]
  exact today.le_addDays i

/-! ## What a successful run leaves behind -/

/-- A task of the run has stored the office under its key. -/
def Downloaded (run : SyncRun α) (what : OfficeTypes) (date : AelfDate) : Prop :=
  ∃ reading ∈ run.readings, reading.task.key = (date.toIsoString, what.toString) ∧ reading.outcome = .stored

/-- `load` finds every selected office of the window, and reads it back unless it is an entry from
before the run that does not decode. -/
def WindowFilled (run : SyncRun α) (today : Date) : Prop :=
  ∀ what ∈ run.officeTypesToSync, ∀ i : Nat, i < run.daysAheadToSync →
    ∀ date : AelfDate, date.day = today.addDays i → ∃ row, run.finalCache.queryRow what date run.apiVersion = some row ∧
      ((∃ entry, run.finalCache.load what date run.apiVersion = .ok (some entry)) ∨
        (run.cache.queryRow what date run.apiVersion = some row ∧ ∃ exception, row.lectures = .error exception))

/-- An office of the next seven days is fresh, wherever the server says what it has. -/
def WeekUpToDate (run : SyncRun α) (today : Date) : Prop :=
  ∀ what ∈ run.officeTypesToSync, ∀ i : Nat, i < 7 → ∀ date : AelfDate, date.day = today.addDays i →
    ∀ serverChecksums serverOfficeMetadata, run.metadata = some serverChecksums →
      serverChecksums.getOfficeChecksum what date = some serverOfficeMetadata →
        run.Downloaded what date ∨ run.cache.queryRow what date run.apiVersion = none ∨
          ∃ row, run.finalCache.queryRow what date run.apiVersion = some row ∧
            (serverOfficeMetadata.checksum = some row.checksum ∨
              (serverOfficeMetadata.generationDate.isValid = true ∧
                serverOfficeMetadata.generationDate.before (IsoDate.ofString row.create_date) = true))

/-- No entry of a four-digit year dated today or later is removed. -/
def KeepsEntriesFrom (run : SyncRun α) (today : Date) : Prop :=
  ∀ row ∈ run.cache.rows, ∀ date : AelfDate, row.date = date.toIsoString → FourDigitYear date.day →
    today ≤ date.day → ∃ kept ∈ run.finalCache.rows, kept.key = row.key

theorem load_of_queryRow {cache : Cache α} {what : OfficeTypes} {date : AelfDate} {version : Int} {row : Row α}
    {office : Option α} (found : cache.queryRow what date version = some row) (decodes : row.lectures = .ok office) :
    cache.load what date version = .ok (some ⟨office, row.checksum, IsoDate.ofString row.create_date⟩) := by
  simp [Cache.load, found, decodes]

/-- An office that a task of the run has stored is found at the current version. -/
theorem queryRow_of_stores {what : OfficeTypes} {date : AelfDate} {reading : SyncReading α} {row : Row α}
    (member : reading ∈ run.readings) (stores : reading.Stores row)
    (found : run.finalCache.find? (date.toIsoString, what.toString) = some row) :
    run.finalCache.queryRow what date run.apiVersion = some row := by
  have version := run.versions reading member
  obtain ⟨response, _, rfl⟩ := stores
  rw [Cache.queryRow_eq, found, Option.filter_some, if_pos]
  simp [Cache.newRow, version]

theorem queryRow_of_unchanged {what : OfficeTypes} {date : AelfDate}
    (unchanged : run.finalCache.find? (date.toIsoString, what.toString) =
      run.cache.find? (date.toIsoString, what.toString)) :
    run.finalCache.queryRow what date run.apiVersion = run.cache.queryRow what date run.apiVersion := by
  rw [Cache.queryRow_eq, Cache.queryRow_eq, unchanged]

theorem window_kept {today : Date} (constant : run.clock.Constant today) {i : Nat} {date : AelfDate}
    (onDay : date.day = today.addDays i) : run.retentionCutoffDate.day ≤ date.day := by
  rw [onDay]
  exact (cutoff_le constant).trans (today.le_addDays i)

/-- A selected office of the window that is not in the listing has a task of its own. -/
theorem scheduled_of_missing {today : Date} (constant : run.clock.Constant today)
    (years : run.FourDigitYears today) {what : OfficeTypes} (selected : what ∈ run.officeTypesToSync) {i : Nat}
    (inWindow : i < run.daysAheadToSync) {date : AelfDate} (onDay : date.day = today.addDays i)
    (missing : run.cache.queryRow what date run.apiVersion = none) :
    ∃ reading ∈ run.readings, reading.task.key = (date.toIsoString, what.toString) := by
  have sameDay : ((run.clock.fetch i).addDays i).day = date.day := by
    rw [AelfDate.day_addDays, constant.fetch, onDay]
  have sameText := AelfDate.toIsoString_congr sameDay
  have unlisted : run.cachedOffices.containsKey (.of what ((run.clock.fetch i).addDays i)) = false := by
    have listing := listing_window constant years what inWindow onDay
    rw [missing] at listing
    rw [CacheEntries.containsKey, CacheEntryIndex.of, sameText]
    exact congrArg Option.isSome listing
  have task : (⟨what, (run.clock.fetch i).addDays i⟩ : Task) ∈ run.initialFetchTasks :=
    mem_enqueueInitialFetchTasks.mpr ⟨i, inWindow, selected, rfl, unlisted⟩
  obtain ⟨reading, member, same⟩ := run.exists_reading (.inl task)
  exact ⟨reading, member, by rw [same, Task.key, sameText]⟩

theorem windowFilled_of_completed {today : Date} (constant : run.clock.Constant today)
    (years : run.FourDigitYears today) (completed : run.Completed) : run.WindowFilled today := by
  intro what selected i inWindow date onDay
  have dateYear : FourDigitYear date.day := onDay ▸ window_year constant years inWindow
  rcases find?_completed completed what.toString years.cutoff dateYear (window_kept constant onDay) with
    ⟨reading, member, row, _, stores, found⟩ | ⟨others, unchanged⟩
  · have queried := queryRow_of_stores member stores found
    obtain ⟨response, _, rfl⟩ := stores
    exact ⟨_, queried, .inl ⟨_, load_of_queryRow queried rfl⟩⟩
  · have same := queryRow_of_unchanged unchanged
    cases before : run.cache.queryRow what date run.apiVersion with
    | none =>
      obtain ⟨reading, member, keyed⟩ := scheduled_of_missing constant years selected inWindow onDay before
      exact absurd keyed (others reading member)
    | some row =>
      rw [before] at same
      refine ⟨row, same, ?_⟩
      cases decodes : row.lectures with
      | ok office => exact .inl ⟨_, load_of_queryRow same decodes⟩
      | error exception => exact .inr ⟨rfl, exception, rfl⟩

/-- An outdated entry of the next seven days has a task of its own. -/
theorem scheduled_of_outdated {today : Date} (constant : run.clock.Constant today) {what : OfficeTypes}
    (selected : what ∈ run.officeTypesToSync) {i : Nat} (inWeek : i < 7) {date : AelfDate}
    (onDay : date.day = today.addDays i) {serverChecksums : OfficesMetadata}
    (obtained : run.metadata = some serverChecksums)
    (outdated : isOutdated serverChecksums run.cachedOffices what date = true) :
    ∃ reading ∈ run.readings, reading.task.key = (date.toIsoString, what.toString) := by
  have sameDay : ((run.clock.refresh i).addDays i).day = date.day := by
    rw [AelfDate.day_addDays, constant.refresh, onDay]
  have sameText := AelfDate.toIsoString_congr sameDay
  have stillOutdated : isOutdated serverChecksums run.cachedOffices what ((run.clock.refresh i).addDays i) = true := by
    rw [← outdated]
    simp only [isOutdated, CacheEntryIndex.of, OfficesMetadata.getOfficeChecksum, sameText]
  have task : (⟨what, (run.clock.refresh i).addDays i⟩ : Task) ∈ run.refreshTasks := by
    rw [refreshTasks, obtained]
    exact mem_enqueueCacheRefreshTasks.mpr ⟨i, inWeek, selected, rfl, stillOutdated⟩
  obtain ⟨reading, member, same⟩ := run.exists_reading (.inr task)
  exact ⟨reading, member, by rw [same, Task.key, sameText]⟩

theorem weekUpToDate_of_completed {today : Date} (constant : run.clock.Constant today)
    (years : run.FourDigitYears today) (completed : run.Completed) : run.WeekUpToDate today := by
  intro what selected i inWeek date onDay serverChecksums serverOfficeMetadata obtained described
  have inWindow : i < run.daysAheadToSync := inWeek.trans_le (getDaysAheadToSync_bounds run.preferences).1
  have dateYear : FourDigitYear date.day := onDay ▸ window_year constant years inWindow
  rcases find?_completed completed what.toString years.cutoff dateYear (window_kept constant onDay) with
    ⟨reading, member, row, keyed, _, _⟩ | ⟨others, unchanged⟩
  · exact .inl ⟨reading, member, keyed, completed.stored reading member⟩
  · right
    cases before : run.cache.queryRow what date run.apiVersion with
    | none => exact .inl rfl
    | some row =>
      -- the entry was listed and has no task, so the loop has found it fresh
      have cached := listing_window constant years what inWindow onDay
      rw [before, Option.map_some] at cached
      have fresh : isOutdated serverChecksums run.cachedOffices what date = false := by
        by_contra outdated
        rw [Bool.not_eq_false] at outdated
        obtain ⟨reading, member, keyed⟩ := scheduled_of_outdated constant selected inWeek onDay obtained outdated
        exact others reading member keyed
      refine .inr ⟨row, (queryRow_of_unchanged unchanged).trans before, ?_⟩
      exact (isOutdated_eq_false_iff cached).mp fresh serverOfficeMetadata described

theorem keepsEntriesFrom_of_completed {today : Date} (constant : run.clock.Constant today)
    (years : run.FourDigitYears today) (completed : run.Completed) : run.KeepsEntriesFrom today := by
  intro row member date dated dateYear later
  have rowKey : row.key = (date.toIsoString, row.office) := by rw [← dated, Row.key]
  have held := run.cache.find?_key_of_mem member
  have kept := (cutoff_le constant).trans later
  rw [rowKey] at held ⊢
  rcases find?_completed completed row.office years.cutoff dateYear kept with
    ⟨_, _, stored, _, _, found⟩ | ⟨_, unchanged⟩
  · exact ⟨stored, (Table.find?_eq_some_iff _ _ stored).mp found⟩
  · exact ⟨row, (Table.find?_eq_some_iff _ _ row).mp (unchanged.trans held)⟩

/-- A successful run on one day leaves the window in the cache, the next seven days as fresh as the
server says they can be, and removes nothing from that day on. -/
theorem successful_sync_leaves_window_ready (run : SyncRun α) (today : Date)
    (constant : run.clock.Constant today) (years : run.FourDigitYears today)
    (checked : ∀ reading ∈ run.readings, reading.outcome ≠ .uncheckedException)
    (succeeded : run.returned = .ok .success) :
    run.WindowFilled today ∧ run.WeekUpToDate today ∧ run.KeepsEntriesFrom today := by
  have completed := completed_of_success checked succeeded
  exact ⟨windowFilled_of_completed constant years completed, weekUpToDate_of_completed constant years completed,
    keepsEntriesFrom_of_completed constant years completed⟩

/-! ## Runs with one server -/

/-- A run whose tasks all meet the same environment and end one after the other. -/
def sequential (preferences : Preferences) (clock : Clock) (cache : Cache α) (metadata : Option OfficesMetadata)
    (env : Environment α) : SyncRun α where
  preferences := preferences
  clock := clock
  apiVersion := env.apiVersion
  performanceClass := .low
  cache := cache
  metadata := metadata
  readings :=
    (enqueueInitialFetchTasks (getDaysAheadToSync preferences) (getOfficeTypesToSync preferences)
        (cache.listCachedEntries clock.listing env.apiVersion) clock.fetch ++
      enqueueCacheRefreshTasks metadata (getOfficeTypesToSync preferences)
        (cache.listCachedEntries clock.listing env.apiVersion) clock.refresh).map fun task => ⟨task, env⟩
  scheduled := by simp [Function.comp_def]
  versions := by
    intro reading member
    obtain ⟨task, _, rfl⟩ := List.mem_map.mp member
    rfl
  execution := Execution.sequential _ _ _
  truncation := .done

theorem completed_sequential {preferences : Preferences} {clock : Clock} {cache : Cache α}
    {metadata : Option OfficesMetadata} {env : Environment α}
    (answers : ∀ task, SyncReading.outcome ⟨task, env⟩ = .stored) :
    (sequential preferences clock cache metadata env).Completed := by
  refine ⟨rfl, fun reading member => ?_⟩
  obtain ⟨task, _, rfl⟩ := List.mem_map.mp member
  exact answers task

theorem success_of_completed (truncated : run.truncation = .done) (completed : run.Completed) :
    run.returned = .ok .success := by
  rw [returned_eq_success_iff, Execution.result_eq_success_iff]
  refine ⟨truncated, completed.terminated, fun reading member => ?_⟩
  rw [completed.stored reading member]
  decide

end SyncRun

namespace OneWeek

/-- The mass, a week ahead, kept for a week. -/
def preferences : Preferences := ⟨some "messe", some "semaine", some "semaine"⟩

def clock (today : Date) : Clock := ⟨.ofDay today, .ofDay today, fun _ => .ofDay today, fun _ => .ofDay today⟩

/-- A server that has the same office for every request. -/
def env : Environment Office where
  apiVersion := 82
  region := "romain"
  isNetworkAvailable := true
  server := fun _ => .ok ⟨200, .ok (some ⟨none, some []⟩), some "W/\"checksum\"", none⟩
  now := IsoDate.epoch
  sqlite := .done

omit [HttpDateFormat] in
theorem constant (today : Date) : (clock today).Constant today := ⟨rfl, rfl, fun _ => rfl, fun _ => rfl⟩

def run (today : Date) (metadata : Option OfficesMetadata) : SyncRun Office :=
  .sequential preferences (clock today) Table.empty metadata env

variable (today : Date) (metadata : Option OfficesMetadata)

theorem completed : (run today metadata).Completed := SyncRun.completed_sequential fun _ => rfl

theorem succeeded : (run today metadata).returned = .ok .success :=
  SyncRun.success_of_completed rfl (completed today metadata)

theorem checked : ∀ reading ∈ (run today metadata).readings, reading.outcome ≠ .uncheckedException := by
  intro reading member
  rw [(completed today metadata).stored reading member]
  decide

def inMay : Date := ⟨2024, 5, 20, isDate_20_may_2024⟩

theorem years_inMay : (run inMay metadata).FourDigitYears inMay where
  cutoff := (by decide : FourDigitYear (getRetentionCutoffDate preferences (.ofDay inMay)).day)
  last := (by decide : FourDigitYear (inMay.addDays (getDaysAheadToSync preferences - 1 : Nat)))

omit [HttpDateFormat] in
/-- In May 2024 the week is in the cache. -/
theorem week_in_may_ready :
    letI : HttpDateFormat := ⟨fun _ => none⟩
    (run inMay none).WindowFilled inMay ∧ (run inMay none).WeekUpToDate inMay ∧
      (run inMay none).KeepsEntriesFrom inMay := by
  let _ : HttpDateFormat := ⟨fun _ => none⟩
  exact SyncRun.successful_sync_leaves_window_ready (run inMay none) inMay (constant inMay) (years_inMay none)
    (checked inMay none) (succeeded inMay none)

/-- The last day before the year 10000, whose text sorts before the cutoff. -/
def newYearsEve : Date := ⟨9999, 12, 31, by decide⟩

def newYear : AelfDate := .ofDay ⟨10000, 1, 1, by decide⟩

theorem newYear_removed (office : String) :
    (run newYearsEve metadata).finalCache.find? (newYear.toIsoString, office) = none := by
  have before : newYear.toIsoString < (getRetentionCutoffDate preferences (.ofDay newYearsEve)).toIsoString := by
    decide
  exact SyncRun.find?_finalCache_of_lt office rfl before

omit [HttpDateFormat] in
/-- A sync on 31 December 9999 succeeds, and has deleted the next day. -/
theorem new_year_not_ready :
    letI : HttpDateFormat := ⟨fun _ => none⟩
    ¬∀ (run : SyncRun Office) (today : Date), run.clock.Constant today →
      (∀ reading ∈ run.readings, reading.outcome ≠ .uncheckedException) → run.returned = .ok .success →
        run.WindowFilled today := by
  intro ready
  let _ : HttpDateFormat := ⟨fun _ => none⟩
  have filled := ready (run newYearsEve none) newYearsEve (constant _) (checked _ _) (succeeded _ _)
  obtain ⟨row, found, _⟩ := filled .messe (by decide) 1 (by decide) newYear rfl
  rw [Cache.queryRow_eq, newYear_removed] at found
  cases found

end OneWeek

end Aelf.Sync
