import Mathlib.Data.List.Perm.Basic
import Mathlib.Logic.Relation

/-! # A fixed thread pool

One thread hands jobs over, in order, to a queue that a fixed number of workers
serve.  A job acts on a shared state in one atomic effect, at the latest when it
ends; jobs that run together end in any order. -/

namespace Aelf.Library

open Relation (ReflTransGen)

variable {β σ : Type}

structure ThreadPool (β σ : Type) where
  /-- Jobs that have not been handed over yet. -/
  pending : List β
  queue : List β
  running : List β
  /-- Jobs that have ended, in that order. -/
  finished : List β
  shared : σ

namespace ThreadPool

def start (jobs : List β) (shared : σ) : ThreadPool β σ := ⟨jobs, [], [], [], shared⟩

inductive Step (workers : Nat) (effect : σ → β → σ) : ThreadPool β σ → ThreadPool β σ → Prop
  | execute (job : β) (pending queue running finished : List β) (shared : σ) :
    Step workers effect ⟨job :: pending, queue, running, finished, shared⟩
      ⟨pending, queue ++ [job], running, finished, shared⟩
  | begin (job : β) (pending queue running finished : List β) (shared : σ) (free : running.length < workers) :
    Step workers effect ⟨pending, job :: queue, running, finished, shared⟩
      ⟨pending, queue, running ++ [job], finished, shared⟩
  | finish (job : β) (pending queue before after finished : List β) (shared : σ) :
    Step workers effect ⟨pending, queue, before ++ job :: after, finished, shared⟩
      ⟨pending, queue, before ++ after, finished ++ [job], effect shared job⟩

def Reaches (workers : Nat) (effect : σ → β → σ) : ThreadPool β σ → ThreadPool β σ → Prop :=
  ReflTransGen (Step workers effect)

/-- Every job has been handed over and has ended. -/
structure Terminated (pool : ThreadPool β σ) : Prop where
  pending : pool.pending = []
  queue : pool.queue = []
  running : pool.running = []

/-- The jobs of a pool, wherever they are. -/
def jobs (pool : ThreadPool β σ) : List β := pool.finished ++ (pool.running ++ (pool.queue ++ pool.pending))

variable {workers : Nat} {effect : σ → β → σ}

/-- No step loses or duplicates a job. -/
theorem jobs_step {first second : ThreadPool β σ} (step : Step workers effect first second) :
    second.jobs.Perm first.jobs := by
  cases step with
  | execute job pending queue running finished shared => simp [jobs]
  | begin job pending queue running finished shared free => simp [jobs]
  | finish job pending queue before after finished shared =>
    simp only [jobs, List.append_assoc, List.singleton_append]
    exact (List.perm_middle.symm).append_left finished

theorem Terminated.setShared {pool : ThreadPool β σ} (terminated : pool.Terminated) (shared : σ) :
    { pool with shared }.Terminated :=
  ⟨terminated.pending, terminated.queue, terminated.running⟩

theorem Terminated.not_step {first second : ThreadPool β σ} (terminated : first.Terminated) :
    ¬Step workers effect first second := by
  intro step
  cases step with
  | execute job pending queue running finished shared => exact absurd terminated.pending (by simp)
  | begin job pending queue running finished shared free => exact absurd terminated.queue (by simp)
  | finish job pending queue before after finished shared => exact absurd terminated.running (by simp)

theorem jobs_reaches {first second : ThreadPool β σ} (reached : Reaches workers effect first second) :
    second.jobs.Perm first.jobs := by
  induction reached with
  | refl => exact .refl _
  | tail _ step inductionHypothesis => exact (jobs_step step).trans inductionHypothesis

/-- The shared state is the effect of the jobs that have ended, in the order in which they did. -/
theorem shared_reaches {initial : List β} {shared : σ} {pool : ThreadPool β σ}
    (reached : Reaches workers effect (start initial shared) pool) :
    pool.shared = pool.finished.foldl effect shared := by
  induction reached with
  | refl => rfl
  | tail _ step inductionHypothesis =>
    cases step with
    | execute job pending queue running finished shared => exact inductionHypothesis
    | begin job pending queue running finished shared free => exact inductionHypothesis
    | finish job pending queue before after finished shared =>
      change shared = _ at inductionHypothesis
      rw [List.foldl_append, ← inductionHypothesis]
      rfl

/-- Once the pool has terminated, exactly the jobs it was given have ended. -/
theorem finished_perm {initial : List β} {shared : σ} {pool : ThreadPool β σ}
    (reached : Reaches workers effect (start initial shared) pool) (terminated : pool.Terminated) :
    pool.finished.Perm initial := by
  have all := jobs_reaches reached
  simpa [jobs, start, terminated.pending, terminated.queue, terminated.running] using all

/-- With a worker, the pool can end its jobs one after the other. -/
theorem reaches_terminated (hasWorker : 0 < workers) (initial : List β) (finished : List β) (shared : σ) :
    Reaches workers effect ⟨initial, [], [], finished, shared⟩
      ⟨[], [], [], finished ++ initial, initial.foldl effect shared⟩ := by
  induction initial generalizing finished shared with
  | nil =>
    rw [List.append_nil]
    exact .refl
  | cons job jobs inductionHypothesis =>
    have rest := inductionHypothesis (finished ++ [job]) (effect shared job)
    rw [List.append_assoc] at rest
    apply ReflTransGen.head (Step.execute job jobs [] [] finished shared)
    apply ReflTransGen.head (Step.begin job jobs [] [] finished shared hasWorker)
    exact ReflTransGen.head (Step.finish job jobs [] [] [] finished shared) rest

end ThreadPool

end Aelf.Library
