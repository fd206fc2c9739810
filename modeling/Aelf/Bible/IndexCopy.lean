import Aelf.Library.Runs
import Mathlib.Data.List.Basic
import Mathlib.Data.List.TakeDrop
import Mathlib.Tactic.Common

/-! # Copying the Bible into the cache

The database of the Bible is an asset of the application.  `InitThread` copies it into
the cache at the first start and opens the copy.  The copy is written straight into the
file that later starts look for: they skip the copy as soon as this file exists. -/

namespace Aelf.Bible.IndexCopy

open Aelf.Library

abbrev Bytes := List UInt8

/-! ## Model -/

/-- What one pass of the loop meets.  A write that fails may have written a part of its chunk. -/
inductive Pass where
  | copies (size : Nat)
  | readFails
  | writeFails (size written : Nat)
  | killed
deriving DecidableEq

/-- What opening the asset and creating the file meet. -/
inductive Opening where
  | assetFails
  | fileFails
  | killed
  | opened
deriving DecidableEq

/-- One start of the application. -/
structure Start where
  opening : Opening
  passes : List Pass
deriving DecidableEq

inductive Ending where
  | finished
  | failed
  | killed
deriving DecidableEq

/-- `read` fills a part of the buffer, at least one byte of it. -/
def chunkSize (size : Nat) : Nat := max 1 (min size 1024)

/-- The loop, with what is in the file and what is left of the asset.  Passes that are not listed go well. -/
def copyLoop : Bytes → Bytes → List Pass → Bytes × Ending
  | written, remaining, [] => (written ++ remaining, .finished)
  | written, _, .readFails :: _ => (written, .failed)
  | written, _, .killed :: _ => (written, .killed)
  | written, [], _ :: _ => (written, .finished)
  | written, remaining, .copies size :: passes =>
    copyLoop (written ++ remaining.take (chunkSize size)) (remaining.drop (chunkSize size)) passes
  | written, remaining, .writeFails size part :: _ =>
    (written ++ (remaining.take (chunkSize size)).take part, .failed)

/-- The file in the cache, if it exists, after the copy. -/
def copyIndexToCache (asset : Bytes) (dbFile : Option Bytes) (start : Start) : Option Bytes × Ending :=
  match dbFile with
  | some content => (some content, .finished)
  | none =>
    match start.opening with
    | .assetFails | .fileFails => (none, .failed)
    | .killed => (none, .killed)
    | .opened =>
      let (content, ending) := copyLoop [] asset start.passes
      (some content, ending)

/-- The file after a start. -/
def initThread (asset : Bytes) (dbFile : Option Bytes) (start : Start) : Option Bytes :=
  (copyIndexToCache asset dbFile start).1

/-- What `InitThread` opens, unless it has been killed or there is no file. -/
def openedDatabase (asset : Bytes) (dbFile : Option Bytes) (start : Start) : Option Bytes :=
  match copyIndexToCache asset dbFile start with
  | (_, .killed) => none
  | (content, _) => content

/-- The file before the start that follows these starts. -/
def cacheAfter (asset : Bytes) (starts : List Start) : Option Bytes := starts.foldl (initThread asset) none

/-! ## Interruptions -/

/-- Nothing goes wrong before as many bytes are written. -/
def goesThrough : Nat → List Pass → Bool
  | _, [] => true
  | 0, _ => true
  | left, .copies size :: passes => goesThrough (left - chunkSize size) passes
  | left, .writeFails size part :: _ => left ≤ min (chunkSize size) part
  | _, _ :: _ => false

/-- Once the file has been created, neither an exception nor the end of the process comes before the last
byte of the asset has been written. -/
def Start.GoesThrough (asset : Bytes) (start : Start) : Prop :=
  start.opening = .opened → goesThrough asset.length start.passes = true

instance (asset : Bytes) (start : Start) : Decidable (start.GoesThrough asset) :=
  inferInstanceAs (Decidable (_ → _))

/-- A start that copies goes through with it. -/
def Unharmed (asset : Bytes) (dbFile : Option Bytes) (start : Start) : Prop := dbFile = none → start.GoesThrough asset

/-- Copying is skipped only for the whole asset, and only the whole asset is opened. -/
structure AllOrNothing (asset : Bytes) (dbFile : Option Bytes) (start : Start) : Prop where
  skips : dbFile.isSome = true → dbFile = some asset
  opens : ∀ content ∈ openedDatabase asset dbFile start, content = asset

/-! ## The loop -/

theorem copyLoop_isPrefix (written remaining : Bytes) (passes : List Pass) :
    ∃ more, more <+: remaining ∧ (copyLoop written remaining passes).1 = written ++ more := by
  induction passes generalizing written remaining with
  | nil => exact ⟨remaining, List.prefix_rfl, rfl⟩
  | cons pass passes inductionHypothesis =>
    cases pass with
    | readFails => exact ⟨[], List.nil_prefix, by simp [copyLoop]⟩
    | killed => exact ⟨[], List.nil_prefix, by simp [copyLoop]⟩
    | copies size =>
      cases remaining with
      | nil => exact ⟨[], List.nil_prefix, by simp [copyLoop]⟩
      | cons byte remaining =>
        obtain ⟨more, isPrefix, content⟩ := inductionHypothesis
          (written ++ (byte :: remaining).take (chunkSize size)) ((byte :: remaining).drop (chunkSize size))
        -- the chunk and what the later passes write are consecutive pieces of the asset
        have joined := (List.prefix_append_right_inj ((byte :: remaining).take (chunkSize size))).mpr isPrefix
        refine ⟨(byte :: remaining).take (chunkSize size) ++ more, ?_, ?_⟩
        · rwa [List.take_append_drop] at joined
        · rw [← List.append_assoc]
          exact content
    | writeFails size part =>
      cases remaining with
      | nil => exact ⟨[], List.nil_prefix, by simp [copyLoop]⟩
      | cons byte remaining =>
        refine ⟨((byte :: remaining).take (chunkSize size)).take part, ?_, rfl⟩
        exact (List.take_prefix _ _).trans (List.take_prefix _ _)

/-- The loop writes the whole asset exactly when nothing interrupts it before that. -/
theorem copyLoop_whole_iff (written remaining : Bytes) (passes : List Pass) :
    (copyLoop written remaining passes).1 = written ++ remaining ↔ goesThrough remaining.length passes = true := by
  induction passes generalizing written remaining with
  | nil => simp [copyLoop, goesThrough]
  | cons pass passes inductionHypothesis =>
    cases remaining with
    | nil => cases pass <;> simp [copyLoop, goesThrough]
    | cons byte remaining =>
      cases pass with
      | readFails => simp [copyLoop, goesThrough]
      | killed => simp [copyLoop, goesThrough]
      | copies size =>
        have later := inductionHypothesis (written ++ (byte :: remaining).take (chunkSize size))
          ((byte :: remaining).drop (chunkSize size))
        rw [List.append_assoc, List.take_append_drop, List.length_drop] at later
        exact later
      | writeFails size part =>
        -- a failing write is harmless only when it has written all that was left
        simp only [copyLoop, goesThrough, List.append_cancel_left_eq, List.take_take, List.take_eq_self_iff,
          List.length_cons, decide_eq_true_eq]
        omega

/-! ## Starts -/

/-- The file is missing, or it is the whole asset. -/
def Whole (asset : Bytes) (dbFile : Option Bytes) : Prop := ∀ content ∈ dbFile, content = asset

theorem whole_initThread {asset : Bytes} {dbFile : Option Bytes} {start : Start} (unharmed : Unharmed asset dbFile start)
    (whole : Whole asset dbFile) : Whole asset (initThread asset dbFile start) := by
  cases dbFile with
  | some content => exact whole
  | none =>
    obtain ⟨opening, passes⟩ := start
    intro content isContent
    cases opening with
    | assetFails | fileFails | killed => cases isContent
    | opened =>
      obtain rfl := Option.some.inj isContent
      have complete := (copyLoop_whole_iff [] asset passes).mpr (unharmed rfl rfl)
      simpa using complete

theorem openedDatabase_mem {asset : Bytes} {dbFile : Option Bytes} {start : Start} {content : Bytes}
    (isOpened : content ∈ openedDatabase asset dbFile start) : content ∈ initThread asset dbFile start := by
  unfold openedDatabase at isOpened
  unfold initThread
  split at isOpened
  next => cases isOpened
  next reached ending _ copied =>
    rw [copied]
    exact isOpened

/-- A file that exists is never written again. -/
theorem cache_stays (asset content : Bytes) (starts : List Start) :
    starts.foldl (initThread asset) (some content) = some content := by
  apply Runs.invariant_foldl (initThread asset) (· = some content)
  · rintro dbFile start rfl
    rfl
  · rfl

/-- The first copy that is interrupted after it has created the file leaves a part of the asset there, which
all later starts take for the asset. -/
theorem interrupted_stays {asset : Bytes} {passes : List Pass} (interrupted : goesThrough asset.length passes = false)
    (later : List Start) :
    ∃ content, content ≠ asset ∧ content <+: asset ∧ cacheAfter asset (⟨.opened, passes⟩ :: later) = some content := by
  obtain ⟨content, isPrefix, copied⟩ := copyLoop_isPrefix [] asset passes
  refine ⟨content, ?_, isPrefix, ?_⟩
  · rintro rfl
    have through := (copyLoop_whole_iff [] content passes).mp copied
    rw [interrupted] at through
    cases through
  · have first : initThread asset none ⟨.opened, passes⟩ = some content := congrArg some copied
    rw [cacheAfter, List.foldl_cons, first, cache_stays]

/-- When no start is interrupted between creating the file and writing its last byte, every start skips or
opens nothing but the whole asset. -/
theorem starts_allOrNothing {asset : Bytes} {starts : List Start}
    (unharmed : Runs.Allowed (initThread asset) (Unharmed asset) none starts) :
    ∀ before start after, starts = before ++ start :: after → AllOrNothing asset (cacheAfter asset before) start := by
  rintro before start after rfl
  obtain ⟨earlier, here, -⟩ := (Runs.allowed_append (initThread asset)).mp unharmed
  have whole : Whole asset (cacheAfter asset before) := by
    apply Runs.invariant_run (initThread asset) (Whole asset) (fun _ _ => whole_initThread) earlier
    intro content absurdContent
    cases absurdContent
  refine ⟨?_, ?_⟩
  · intro present
    obtain ⟨content, isContent⟩ := Option.isSome_iff_exists.mp present
    rw [isContent, whole content isContent]
  · intro content isOpened
    exact whole_initThread here whole content (openedDatabase_mem isOpened)

/-- A start without space for the file, one that copies in three reads, and one that skips the copy. -/
theorem three_starts_allOrNothing :
    AllOrNothing [1, 2, 3] (cacheAfter [1, 2, 3] [⟨.fileFails, []⟩, ⟨.opened, [.copies 1, .copies 1, .copies 1]⟩])
      ⟨.opened, [.killed]⟩ := by
  have unharmed : Runs.Allowed (initThread [1, 2, 3]) (Unharmed [1, 2, 3]) none
      [⟨.fileFails, []⟩, ⟨.opened, [.copies 1, .copies 1, .copies 1]⟩, ⟨.opened, [.killed]⟩] := by
    refine ⟨fun _ => by decide, fun _ => by decide, fun missing => ?_, trivial⟩
    cases missing
  exact starts_allOrNothing unharmed [⟨.fileFails, []⟩, ⟨.opened, [.copies 1, .copies 1, .copies 1]⟩] _ [] rfl

/-- The process is killed after the first byte; the next start opens this byte. -/
theorem killed_copy_is_opened :
    ¬AllOrNothing [1, 2, 3] (cacheAfter [1, 2, 3] [⟨.opened, [.copies 1, .killed]⟩]) ⟨.opened, []⟩ := by
  intro allOrNothing
  have wrong := allOrNothing.opens [1] rfl
  cases wrong

end Aelf.Bible.IndexCopy
