import Aelf.Sync.Worker
import Mathlib.Logic.Function.Basic

/-! # Sync runs side by side

`doWork` runs `synchronize` under a lock that all the workers share.  The fetch tasks
run on the threads of a pool that each run creates and shuts down, but that goes on
with its queue when the wait for it ends early.  A step is one of the thread of a run,
or one of a pool, which may outlive its run. -/

namespace Aelf.Sync

open Aelf.Library Aelf.Lectures

variable {α : Type}

/-! ## State -/

/-- A worker: its instance exists, it waits for the lock, it schedules its tasks and waits for them,
the wait is over, or `doWork` has returned.  The pool stays with it to the end. -/
inductive Run (α : Type) where
  | notStarted
  | blocked
  | synchronizing (pool : ThreadPool (Job α) (Shared α))
  | ending (pool : ThreadPool (Job α) (Shared α))
  | returned (result : Result) (pool : ThreadPool (Job α) (Shared α))

namespace Run

def pool : Run α → Option (ThreadPool (Job α) (Shared α))
  | notStarted | blocked => none
  | synchronizing pool | ending pool | returned _ pool => some pool

def setPool (pool : ThreadPool (Job α) (Shared α)) : Run α → Run α
  | notStarted => notStarted
  | blocked => blocked
  | synchronizing _ => synchronizing pool
  | ending _ => ending pool
  | returned result _ => returned result pool

/-- The run is between acquiring and releasing the lock. -/
def holds : Run α → Bool
  | synchronizing _ | ending _ => true
  | notStarted | blocked | returned _ _ => false

/-- The tasks of the run that are not finished. -/
def remaining (run : Run α) : List (Job α) :=
  match run.pool with
  | none => []
  | some pool => pool.running ++ (pool.queue ++ pool.pending)

end Run

structure Workers (α : Type) where
  cache : Cache α
  syncLock : Option Nat
  runs : Nat → Run α

namespace Workers

def start (cache : Cache α) : Workers α := ⟨cache, none, fun _ => .notStarted⟩

def setRun (workers : Workers α) (number : Nat) (run : Run α) : Workers α :=
  { workers with runs := Function.update workers.runs number run }

end Workers

inductive WorkerEvent where
  | doWork (number : Nat)
  | lock (number : Nat)
  | pool (number : Nat)
  | await (number : Nat) (awaited : Await)
  | unlock (number : Nat)

/-! ## Steps -/

/-- The counter is read and the old entries are deleted between the end of the wait and the return. -/
inductive WorkerStep [HttpDateFormat] (performanceClass : PerformanceClass) :
    Workers α → WorkerEvent → Workers α → Prop
  | doWork (workers : Workers α) (number : Nat) (idle : workers.runs number = .notStarted) :
    WorkerStep performanceClass workers (.doWork number) (workers.setRun number .blocked)
  | lock (workers : Workers α) (number : Nat) (readings : List (SyncReading α))
    (blocked : workers.runs number = .blocked) (free : workers.syncLock = none) :
    WorkerStep performanceClass workers (.lock number)
      { workers.setRun number (.synchronizing (ThreadPool.start (jobs readings) ⟨workers.cache, 0⟩)) with
        syncLock := some number }
  | pool (workers : Workers α) (number : Nat) (before after : ThreadPool (Job α) (Shared α))
    (owned : (workers.runs number).pool = some before)
    (step : ThreadPool.Step (maxWorkerCount performanceClass) Job.effect
      { before with shared := { before.shared with cache := workers.cache } } after) :
    WorkerStep performanceClass workers (.pool number)
      { workers.setRun number ((workers.runs number).setPool after) with cache := after.shared.cache }
  | await (workers : Workers α) (number : Nat) (before : ThreadPool (Job α) (Shared α)) (awaited : Await)
    (synchronizing : workers.runs number = .synchronizing before) (handedOver : before.pending = [])
    (waited : awaited = .terminated → before.Terminated) :
    WorkerStep performanceClass workers (.await number awaited)
      (workers.setRun number (.ending
        { before with shared := { before.shared with errors := finalErrors awaited before.shared.errors } }))
  | unlock (workers : Workers α) (number : Nat) (before : ThreadPool (Job α) (Shared α)) (cutoff : AelfDate)
    (ending : workers.runs number = .ending before) :
    WorkerStep performanceClass workers (.unlock number)
      { workers.setRun number (.returned (if 0 < before.shared.errors then .retry else .success) before) with
        cache := workers.cache.truncateBefore cutoff
        syncLock := none }

/-- The states of the runs whose steps all meet a condition. -/
inductive WorkersReach [HttpDateFormat] (performanceClass : PerformanceClass)
    (condition : Workers α → WorkerEvent → Prop) : Workers α → Prop
  | start (cache : Cache α) : WorkersReach performanceClass condition (Workers.start cache)
  | step {workers next : Workers α} {event : WorkerEvent} (reached : WorkersReach performanceClass condition workers)
    (step : WorkerStep performanceClass workers event next) (meets : condition workers event) :
    WorkersReach performanceClass condition next

/-! ## Exclusion -/

/-- While a run has the lock the others have no task left, and neither has a run that has returned. -/
structure Exclusive (workers : Workers α) : Prop where
  alone : ∀ holder, workers.syncLock = some holder →
    ∀ number, number ≠ holder → (workers.runs number).remaining = []
  returned : ∀ number result pool, workers.runs number = .returned result pool →
    (workers.runs number).remaining = []

/-- The wait for a pool is not given up while the pool has tasks. -/
def Patient (workers : Workers α) : WorkerEvent → Prop
  | .await number awaited => awaited ≠ .terminated → (workers.runs number).remaining = []
  | _ => True

/-- Only the run that has the lock, and only before the end of its wait, has tasks. -/
structure Guarded (workers : Workers α) : Prop where
  holder : ∀ number, (workers.runs number).holds = true → workers.syncLock = some number
  owner : ∀ number, (workers.runs number).remaining ≠ [] → ∃ pool, workers.runs number = .synchronizing pool

theorem Run.remaining_eq_nil_iff {run : Run α} {pool : ThreadPool (Job α) (Shared α)} (owned : run.pool = some pool) :
    run.remaining = [] ↔ pool.Terminated := by
  simp only [remaining, owned, List.append_eq_nil_iff]
  constructor
  · rintro ⟨running, queue, pending⟩
    exact ⟨pending, queue, running⟩
  · rintro ⟨pending, queue, running⟩
    exact ⟨running, queue, pending⟩

theorem Guarded.exclusive {workers : Workers α} (guarded : Guarded workers) : Exclusive workers where
  alone := by
    intro holder locked number different
    by_contra remains
    obtain ⟨pool, synchronizing⟩ := guarded.owner number remains
    have holds := guarded.holder number (by rw [synchronizing]; rfl)
    rw [locked] at holds
    exact different (Option.some.inj holds).symm
  returned := by
    intro number result pool returned
    by_contra remains
    obtain ⟨other, synchronizing⟩ := guarded.owner number remains
    rw [returned] at synchronizing
    cases synchronizing

theorem guarded_start (cache : Cache α) : Guarded (Workers.start cache) where
  holder := by simp [Workers.start, Run.holds]
  owner := by simp [Workers.start, Run.remaining, Run.pool]

/-! ## Steps keep the lock -/

section Steps

variable {workers : Workers α} {number : Nat}

/-- What a step has to show that changes one run. -/
theorem Guarded.setRun {run : Run α} {cache : Cache α} {syncLock : Option Nat} (guarded : Guarded workers)
    (holds : run.holds = true → syncLock = some number)
    (others : ∀ other, other ≠ number → workers.syncLock = some other → syncLock = some other)
    (owner : run.remaining ≠ [] → ∃ pool, run = .synchronizing pool) :
    Guarded { workers.setRun number run with cache, syncLock } where
  holder := by
    intro other otherHolds
    by_cases same : other = number
    · subst same
      simp only [Workers.setRun, Function.update_self] at otherHolds
      exact holds otherHolds
    · simp only [Workers.setRun, Function.update_of_ne same] at otherHolds
      exact others other same (guarded.holder other otherHolds)
  owner := by
    intro other remains
    by_cases same : other = number
    · subst same
      simp only [Workers.setRun, Function.update_self] at remains ⊢
      exact owner remains
    · simp only [Workers.setRun, Function.update_of_ne same] at remains ⊢
      exact guarded.owner other remains

variable [HttpDateFormat] {performanceClass : PerformanceClass}

/-- A pool that takes a step belongs to the run that waits for it. -/
theorem Guarded.synchronizing_of_step {before after : ThreadPool (Job α) (Shared α)} {shared : Shared α}
    (guarded : Guarded workers) (owned : (workers.runs number).pool = some before)
    (step : ThreadPool.Step (maxWorkerCount performanceClass) Job.effect { before with shared } after) :
    workers.runs number = .synchronizing before := by
  have remains : (workers.runs number).remaining ≠ [] := by
    intro nothing
    have terminated := (Run.remaining_eq_nil_iff owned).mp nothing
    exact (terminated.setShared shared).not_step step
  obtain ⟨pool, synchronizing⟩ := guarded.owner number remains
  rw [synchronizing] at owned
  rw [synchronizing, Option.some.inj owned]

theorem guarded_step {next : Workers α} {event : WorkerEvent} (guarded : Guarded workers)
    (step : WorkerStep performanceClass workers event next) (patient : Patient workers event) : Guarded next := by
  cases step with
  | doWork number idle =>
    exact guarded.setRun (fun holds => nomatch holds) (fun _ _ locked => locked) (fun remains => absurd rfl remains)
  | lock number readings blocked free =>
    refine guarded.setRun (fun _ => rfl) ?_ (fun _ => ⟨_, rfl⟩)
    intro other _ locked
    rw [free] at locked
    cases locked
  | pool number before after owned step =>
    have synchronizing := guarded.synchronizing_of_step owned step
    have holds := guarded.holder number (by rw [synchronizing]; rfl)
    rw [synchronizing]
    exact guarded.setRun (fun _ => holds) (fun _ _ locked => locked) (fun _ => ⟨after, rfl⟩)
  | await number before awaited synchronizing handedOver waited =>
    have holds := guarded.holder number (by rw [synchronizing]; rfl)
    refine guarded.setRun (fun _ => holds) (fun _ _ locked => locked) (fun remains => absurd ?_ remains)
    -- Either way the pool has nothing left.
    have terminated : before.Terminated := by
      by_cases complete : awaited = .terminated
      · exact waited complete
      · exact (Run.remaining_eq_nil_iff (by rw [synchronizing]; rfl)).mp (patient complete)
    exact (Run.remaining_eq_nil_iff (by rfl)).mpr (terminated.setShared _)
  | unlock number before cutoff ending =>
    have holds := guarded.holder number (by rw [ending]; rfl)
    have nothing : (workers.runs number).remaining = [] := by
      by_contra remains
      obtain ⟨pool, synchronizing⟩ := guarded.owner number remains
      rw [ending] at synchronizing
      cases synchronizing
    rw [ending] at nothing
    refine guarded.setRun (fun holds => nomatch holds) ?_ (fun remains => absurd nothing remains)
    intro other different locked
    rw [holds] at locked
    exact absurd (Option.some.inj locked).symm different

theorem guarded_reach (reached : WorkersReach performanceClass Patient workers) : Guarded workers := by
  induction reached with
  | start cache => exact guarded_start cache
  | step _ step patient inductionHypothesis => exact guarded_step inductionHypothesis step patient

/-- The return that follows a wait given up with tasks left leaves them running. -/
theorem unlock_not_exclusive {next : Workers α} {event : WorkerEvent}
    (step : WorkerStep performanceClass workers event next) (impatient : ¬Patient workers event) :
    ∃ later final, WorkerStep performanceClass next later final ∧ ¬Exclusive final := by
  cases step with
  | doWork | lock | pool | unlock => exact absurd trivial impatient
  | await number before awaited synchronizing handedOver waited =>
    have remains : (workers.runs number).remaining ≠ [] := fun nothing => impatient fun _ => nothing
    let cutoff : AelfDate := .ofDay ⟨1970, 1, 1, by decide⟩
    refine ⟨_, _, .unlock _ number _ cutoff (Function.update_self ..), ?_⟩
    intro exclusive
    have nothing := exclusive.returned number _ _ (Function.update_self ..)
    simp only [Workers.setRun, Function.update_self] at nothing
    rw [synchronizing] at remains
    exact remains nothing

/-- Sync runs do not overlap as long as no wait is given up, by the time budget or by an interruption,
while its pool has tasks; and where one is, the run can return and leave them running. -/
theorem runs_exclusive_of_patient (performanceClass : PerformanceClass) :
    (∀ workers : Workers α, WorkersReach performanceClass Patient workers → Exclusive workers) ∧
    (∀ (workers next : Workers α) (event : WorkerEvent), WorkerStep performanceClass workers event next →
      ¬Patient workers event →
        ∃ later final, WorkerStep performanceClass next later final ∧ ¬Exclusive final) :=
  ⟨fun _ reached => (guarded_reach reached).exclusive, fun _ _ _ step => unlock_not_exclusive step⟩

end Steps

/-! ## A run that exceeds its time budget -/

namespace TimeBudget

def reading : SyncReading Office := ⟨⟨.messe, StaleEntry.date⟩, StaleEntry.env⟩

/-- The first run gives up on a download, and the second one takes the lock. -/
theorem second_run_overlaps :
    letI : HttpDateFormat := ⟨fun _ => none⟩
    ¬∀ workers : Workers Office, WorkersReach .low (fun _ _ => True) workers → Exclusive workers := by
  let _ : HttpDateFormat := ⟨fun _ => none⟩
  intro exclusive
  have created : WorkersReach .low (fun _ _ => True) (Workers.start StaleEntry.cache) := .start _
  have first := created.step (.doWork _ 0 rfl) trivial
  have second := first.step (.doWork _ 1 rfl) trivial
  have locked := second.step (.lock _ 0 [reading] rfl rfl) trivial
  have scheduled := locked.step (.pool _ 0 _ _ rfl (.execute ..)) trivial
  have scheduledReading := scheduled.step (.pool _ 0 _ _ rfl (.execute ..)) trivial
  have begun := scheduledReading.step (.pool _ 0 _ _ rfl (.begin _ _ _ _ _ _ (by decide))) trivial
  have fetched := begun.step (.pool _ 0 _ _ rfl (.finish _ _ _ [] [] _ _)) trivial
  have downloading := fetched.step (.pool _ 0 _ _ rfl (.begin _ _ _ _ _ _ (by decide))) trivial
  have exceeded := downloading.step (.await _ 0 _ .timeBudgetExceeded rfl rfl (fun same => nomatch same)) trivial
  have returned := exceeded.step (.unlock _ 0 _ StaleEntry.date rfl) trivial
  have relocked := returned.step (.lock _ 1 [] rfl rfl) trivial
  have nothing := (exclusive _ relocked).alone 1 rfl 0 (by decide)
  cases nothing

end TimeBudget

end Aelf.Sync
