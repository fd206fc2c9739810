import Aelf.Library.ThreadPool
import Aelf.Lectures.Controller
import Aelf.Sync.Schedule

/-! # `SyncWorker`

One run of `synchronize`: the tasks that the two loops schedule are handed to a
fixed thread pool, which shares the cache and the error counter with them, and the
verdict is read off the counter once the pool has terminated or the wait for it has
ended otherwise. -/

namespace Aelf.Sync

open Aelf.Library Aelf.Lectures
open LecturesController

variable {α : Type}

/-! ## Tasks -/

/-- A scheduled task and everything its download is going to meet. -/
structure SyncReading (α : Type) where
  task : Task
  env : Environment α

/-- What the workers execute: the fetch of the server checksums, or `syncReading`. -/
inductive Job (α : Type) where
  | loadOfficesMetadata
  | syncReading (reading : SyncReading α)

structure Shared (α : Type) where
  cache : Cache α
  errors : Nat

/-- How a call to `syncReading` ends. -/
inductive Outcome where
  | stored
  | ioException
  | uncheckedException
deriving DecidableEq, Repr

section

variable [HttpDateFormat]

/-- The answer of the server decides first, then the write to the cache. -/
def SyncReading.outcome (reading : SyncReading α) : Outcome :=
  match getOffice reading.env.server reading.env.now
      (officeRequest reading.env reading.task.what reading.task.date) with
  | .error _ => .ioException
  | .ok _ =>
    match reading.env.sqlite with
    | .done => .stored
    | .sqliteException => .uncheckedException

def syncReading (shared : Shared α) (reading : SyncReading α) : Shared α :=
  match loadLecturesFromNetwork reading.env shared.cache reading.task.what reading.task.date with
  | (.ok _, cache) => { shared with cache }
  | (.error exception, cache) =>
    if exception.isIOException then { cache, errors := shared.errors + 1 }
    -- nothing else is caught: the exception ends the worker thread, and the pool replaces it
    else { shared with cache }

def Job.effect (shared : Shared α) : Job α → Shared α
  | .loadOfficesMetadata => shared
  | .syncReading reading => Sync.syncReading shared reading

end

/-! ## The run -/

inductive PerformanceClass where
  | unknown
  | low
  | average
  | high

def maxWorkerCount : PerformanceClass → Nat
  | .unknown | .low | .average => 1
  | .high => 2

theorem maxWorkerCount_pos (performanceClass : PerformanceClass) : 0 < maxWorkerCount performanceClass := by
  cases performanceClass <;> decide

/-- How `awaitTermination` ends. -/
inductive Await where
  | terminated
  | timeBudgetExceeded
  | interrupted
deriving DecidableEq

inductive Result where
  | success
  | retry
deriving DecidableEq

/-- The counter that `synchronize` reads, from the one the tasks have left. -/
def finalErrors (awaited : Await) (errors : Nat) : Nat :=
  match awaited with
  | .terminated => errors
  | .timeBudgetExceeded | .interrupted => errors + 1

/-- Whether `KEY_APP_SYNC_LAST_SUCCESS` is written. -/
def writesLastSuccess (awaited : Await) (errors : Nat) : Bool := finalErrors awaited errors = 0

def result (awaited : Await) (errors : Nat) : Result :=
  if 0 < finalErrors awaited errors then .retry else .success

def jobs (readings : List (SyncReading α)) : List (Job α) :=
  .loadOfficesMetadata :: readings.map .syncReading

variable [HttpDateFormat]

/-- An execution of scheduled readings on the pool, up to the moment the wait for it ends. -/
structure Execution (performanceClass : PerformanceClass) (readings : List (SyncReading α)) (cache : Cache α) where
  pool : ThreadPool (Job α) (Shared α)
  reached : ThreadPool.Reaches (maxWorkerCount performanceClass) Job.effect
    (ThreadPool.start (jobs readings) ⟨cache, 0⟩) pool
  awaited : Await
  waited : awaited = .terminated → pool.Terminated

namespace Execution

variable {performanceClass : PerformanceClass} {readings : List (SyncReading α)} {cache : Cache α}

def result (execution : Execution performanceClass readings cache) : Result :=
  Sync.result execution.awaited execution.pool.shared.errors

def writesLastSuccess (execution : Execution performanceClass readings cache) : Bool :=
  Sync.writesLastSuccess execution.awaited execution.pool.shared.errors

/-- The readings that have ended, in that order. -/
def finished (execution : Execution performanceClass readings cache) : List (SyncReading α) :=
  execution.pool.finished.filterMap fun
    | .loadOfficesMetadata => none
    | .syncReading reading => some reading

end Execution

/-! ## What the tasks leave behind -/

/-- The row that a reading stores. -/
def SyncReading.Stores (reading : SyncReading α) (row : Row α) : Prop :=
  ∃ response, getOffice reading.env.server reading.env.now
      (officeRequest reading.env reading.task.what reading.task.date) = .ok response ∧
    row = Cache.newRow reading.task.what reading.task.date response.office response.checksum
      response.generationDate reading.env.apiVersion

/-- `syncReading` by the way it ends. -/
theorem syncReading_cases (shared : Shared α) (reading : SyncReading α) :
    (∃ row, reading.outcome = .stored ∧ reading.Stores row ∧
      syncReading shared reading = { shared with cache := shared.cache.insertOrReplace row }) ∨
    (reading.outcome = .ioException ∧ syncReading shared reading = { shared with errors := shared.errors + 1 }) ∨
    (reading.outcome = .uncheckedException ∧ syncReading shared reading = shared) := by
  unfold syncReading SyncReading.outcome SyncReading.Stores
  rcases loadLecturesFromNetwork_cases reading.env shared.cache reading.task.what reading.task.date with
    ⟨exception, failed, result⟩ | ⟨response, answered, refused, result⟩ | ⟨response, answered, written, result⟩
  · have checked := getOffice_error_isIOException failed
    exact .inr (.inl (by simp [failed, result, checked]))
  · exact .inr (.inr (by simp [answered, refused, result, JavaException.isIOException]))
  · exact .inl ⟨_, by simp [answered, written], ⟨response, answered, rfl⟩, by simp [result]⟩

/-- The counter counts the readings that failed with an `IOException`, and no others. -/
theorem errors_foldl (readings : List (SyncReading α)) (shared : Shared α) :
    (readings.foldl syncReading shared).errors =
      shared.errors + readings.countP fun reading => reading.outcome = .ioException := by
  induction readings generalizing shared with
  | nil => rfl
  | cons reading readings inductionHypothesis =>
    rw [List.foldl_cons, inductionHypothesis, List.countP_cons]
    obtain ⟨row, outcome, _, equation⟩ | ⟨outcome, equation⟩ | ⟨outcome, equation⟩ := syncReading_cases shared reading
    · simp [outcome, equation]
    · simp [outcome, equation]
      omega
    · simp [outcome, equation]

theorem foldl_effect (jobs : List (Job α)) (shared : Shared α) :
    jobs.foldl Job.effect shared =
      (jobs.filterMap fun | .loadOfficesMetadata => none | .syncReading reading => some reading).foldl
        syncReading shared := by
  induction jobs generalizing shared with
  | nil => rfl
  | cons job jobs inductionHypothesis =>
    cases job with
    | loadOfficesMetadata => exact inductionHypothesis shared
    | syncReading reading => exact inductionHypothesis (syncReading shared reading)

namespace Execution

variable {performanceClass : PerformanceClass} {readings : List (SyncReading α)} {cache : Cache α}

theorem shared_eq (execution : Execution performanceClass readings cache) :
    execution.pool.shared = execution.finished.foldl syncReading ⟨cache, 0⟩ := by
  rw [ThreadPool.shared_reaches execution.reached, foldl_effect]
  rfl

/-- When the pool has terminated, exactly the scheduled readings have ended. -/
theorem finished_perm (execution : Execution performanceClass readings cache)
    (terminated : execution.awaited = .terminated) : execution.finished.Perm readings := by
  have ended := (ThreadPool.finished_perm execution.reached (execution.waited terminated)).filterMap
    fun | .loadOfficesMetadata => none | .syncReading reading => some reading
  refine ended.trans (.of_eq ?_)
  simp [jobs, List.filterMap_map]

theorem errors_eq (execution : Execution performanceClass readings cache)
    (terminated : execution.awaited = .terminated) :
    execution.pool.shared.errors = readings.countP fun reading => reading.outcome = .ioException := by
  rw [shared_eq, errors_foldl, (execution.finished_perm terminated).countP_eq]
  exact Nat.zero_add _

/-- A run succeeds exactly when it terminates in time and no task counted an error. -/
theorem result_eq_success_iff (execution : Execution performanceClass readings cache) :
    execution.result = .success ↔
      execution.awaited = .terminated ∧ ∀ reading ∈ readings, reading.outcome ≠ .ioException := by
  unfold result Sync.result
  cases awaited : execution.awaited with
  | terminated =>
    have errors := execution.errors_eq awaited
    simp only [finalErrors, errors, List.countP_pos_iff, decide_eq_true_eq, true_and]
    split
    next failed =>
      obtain ⟨reading, member, outcome⟩ := failed
      simpa using ⟨reading, member, outcome⟩
    next clean => simpa using clean
  | timeBudgetExceeded => simp [finalErrors]
  | interrupted => simp [finalErrors]

theorem writesLastSuccess_iff (execution : Execution performanceClass readings cache) :
    execution.writesLastSuccess = true ↔ execution.result = .success := by
  unfold writesLastSuccess Sync.writesLastSuccess result Sync.result
  split
  next failed => simp; omega
  next clean => simp; omega

/-- The workers can always finish, one task after the other. -/
def sequential (performanceClass : PerformanceClass) (readings : List (SyncReading α)) (cache : Cache α) :
    Execution performanceClass readings cache where
  pool := ⟨[], [], [], jobs readings, (jobs readings).foldl Job.effect ⟨cache, 0⟩⟩
  reached := ThreadPool.reaches_terminated (maxWorkerCount_pos performanceClass) (jobs readings) []
    (Shared.mk cache 0)
  awaited := .terminated
  waited := fun _ => ⟨rfl, rfl, rfl⟩

end Execution

/-! ## The verdict -/

/-- What a reported success promises. -/
def SuccessAchieved {performanceClass : PerformanceClass} {readings : List (SyncReading α)} {cache : Cache α}
    (execution : Execution performanceClass readings cache) : Prop :=
  execution.result = .success ∨ execution.writesLastSuccess = true →
    execution.awaited = .terminated ∧ ∀ reading ∈ readings, reading.outcome = .stored

/-- In every order of completion a reported success was achieved, exactly when no task ends with an
unchecked exception or another task's `IOException` has been counted anyway. -/
theorem success_achieved_iff (performanceClass : PerformanceClass) (readings : List (SyncReading α))
    (cache : Cache α) :
    (∀ execution : Execution performanceClass readings cache, SuccessAchieved execution) ↔
      (∀ reading ∈ readings, reading.outcome ≠ .uncheckedException) ∨
        ∃ reading ∈ readings, reading.outcome = .ioException := by
  constructor
  · intro achieved
    by_cases counted : ∃ reading ∈ readings, reading.outcome = .ioException
    · exact .inr counted
    · -- nothing was counted, so the sequential execution reports success
      have clean : ∀ reading ∈ readings, reading.outcome ≠ .ioException := by simpa using counted
      have succeeds := (Execution.sequential performanceClass readings cache).result_eq_success_iff.mpr ⟨rfl, clean⟩
      obtain ⟨_, stored⟩ := achieved (Execution.sequential performanceClass readings cache) (.inl succeeds)
      refine .inl fun reading member => ?_
      rw [stored reading member]
      decide
  · intro condition execution reported
    have succeeds : execution.result = .success := by
      obtain success | written := reported
      · exact success
      · exact execution.writesLastSuccess_iff.mp written
    obtain ⟨terminated, clean⟩ := execution.result_eq_success_iff.mp succeeds
    refine ⟨terminated, fun reading member => ?_⟩
    -- success means that nothing was counted: only the uncounted outcomes are left
    cases condition with
    | inl checked =>
      cases outcome : reading.outcome with
      | stored => rfl
      | ioException => exact absurd outcome (clean reading member)
      | uncheckedException => exact absurd outcome (checked reading member)
    | inr counted =>
      obtain ⟨failed, failedMember, outcome⟩ := counted
      exact absurd outcome (clean failed failedMember)

namespace FullDisk

/-- A download that succeeds on a device whose disk is full. -/
def reading : SyncReading Office where
  task := ⟨.messe, StaleEntry.date⟩
  env :=
    { StaleEntry.env with
      server := fun _ => .ok ⟨200, .ok (some StaleEntry.office), none, none⟩
      sqlite := .sqliteException }

omit [HttpDateFormat] in
/-- The sync reports success, although its only task stored nothing. -/
theorem full_disk_reports_success :
    letI : HttpDateFormat := ⟨fun _ => none⟩
    ¬∀ execution : Execution .low [reading] StaleEntry.cache, SuccessAchieved execution := by
  intro achieved
  let _ : HttpDateFormat := ⟨fun _ => none⟩
  have reported : (Execution.sequential .low [reading] StaleEntry.cache).result = .success := rfl
  obtain ⟨_, stored⟩ := achieved (Execution.sequential .low [reading] StaleEntry.cache) (.inl reported)
  have outcome := stored reading (by simp)
  exact absurd outcome (by decide)

end FullDisk

end Aelf.Sync
