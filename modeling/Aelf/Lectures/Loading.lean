import Aelf.Library.Runs
import Mathlib.Data.List.Perm.Basic
import Mathlib.Tactic.Common

/-! # Loading an office in the background

`loadLecture` and `cancelLectureLoad` run on the UI thread and start or cancel a
`DownloadOfficeTask`.  The bodies of the tasks run one at a time, in the order in which
they were submitted, and talk to the UI thread through its queue.  A task that was
cancelled too late runs to its end, and its messages are handled like any other.

An event that cannot happen in a state leaves it as it is, so that every list of events
is an interleaving of the UI thread and the tasks. -/

namespace Aelf.Lectures.Loading

open Aelf.Library

variable {α : Type}

/-! ## State -/

inductive LectureLoadProgress where
  | loadStart
  | loadFail
  | loadDone
deriving DecidableEq, Repr

/-- What is posted to the UI thread: a progress, or the end of a task with the office it returns. -/
inductive Message (α : Type) where
  | progress (progress : LectureLoadProgress)
  | finish (task : Nat) (office : Option α)

/-- How far the body that runs has come. -/
inductive Body (α : Type) where
  | begun
  | started
  | reported (office : Option α)

/-- How the call to `loadLectures` ends. -/
inductive Outcome (α : Type) where
  | returned (office : Option α)
  | ioException

/-- Where the UI thread is: between two actions, asleep in `cancelLectureLoad`, or about to create the
task of a `loadLecture`. -/
inductive Ui where
  | idle
  | sleeping (loads : Bool)
  | starting
deriving DecidableEq

/-- The texts of the offices that `onPostExecute` makes up when there is none to show. -/
inductive ErrorMessage where
  | noNetwork
  | connection
  | subOptimalSettings
deriving DecidableEq, Repr

inductive Page (α : Type) where
  | office (office : α)
  | error (message : ErrorMessage)

/-- What the UI thread finds when it handles the end of a task. -/
structure Surroundings where
  subOptimalSettings : Bool
  networkAvailable : Bool
  fragmentAttached : Bool

/-- What has happened on the UI thread. -/
inductive Entry where
  | loadLecture (task : Nat)
  | cancelLectureLoad
  | onLectureLoaded (task : Nat)
deriving DecidableEq

/-- The fields of the fragment, the tasks by number, and the queue of the UI thread. -/
structure State (α : Type) where
  isLoading : Bool
  isSuccess : Bool
  office : Option (Page α)
  currentRefresh : Option Nat
  ui : Ui
  created : Nat
  waiting : List Nat
  running : Option (Nat × Body α)
  queue : List (Message α)
  cancelled : List Nat
  finished : List Nat
  history : List Entry

def start : State α where
  isLoading := false
  isSuccess := true
  office := none
  currentRefresh := none
  ui := .idle
  created := 0
  waiting := []
  running := none
  queue := []
  cancelled := []
  finished := []
  history := []

inductive Event (α : Type) where
  | loadLecture
  | cancelLectureLoad
  | wake
  | execute
  | begin
  | postStart
  | postOutcome (outcome : Outcome α)
  | postResult
  | handle (surroundings : Surroundings)

namespace State

/-! ## The UI thread -/

def log (state : State α) (entry : Entry) : State α := { state with history := state.history ++ [entry] }

def setLoading (state : State α) (loading : Bool) : State α := { state with isLoading := loading }

/-- The `finally` block of `cancelLectureLoad`. -/
def endCancel (state : State α) (loads : Bool) : State α :=
  { state with currentRefresh := none, isLoading := false, ui := if loads then .starting else .idle }

/-- The start of `cancelLectureLoad`; without a task there is nothing to wait for. -/
def beginCancel (state : State α) (loads : Bool) : State α :=
  match state.currentRefresh with
  | none => state.endCancel loads
  | some task => { state with cancelled := task :: state.cancelled, ui := .sleeping loads }

/-- The second half of `loadLecture`. -/
def startLoader (state : State α) : State α :=
  { state with
    currentRefresh := some state.created
    created := state.created + 1
    waiting := state.waiting ++ [state.created]
    ui := .idle }.log (.loadLecture state.created)

def onLectureLoadProgress (state : State α) : LectureLoadProgress → State α
  | .loadStart => state.setLoading true
  | .loadFail => state.setLoading false
  | .loadDone => state.setLoading false

/-- When the fragment manager is gone the office cannot be applied, and the flag is left alone. -/
def onLectureLoaded (state : State α) (task : Nat) (office : Page α) (isSuccess attached : Bool) : State α :=
  { state with
    isSuccess
    office := some office
    isLoading := if attached then false else state.isLoading
    currentRefresh := none }.log (.onLectureLoaded task)

def onPostExecute (state : State α) (task : Nat) (office : Option α) (surroundings : Surroundings) : State α :=
  let pagerData : Page α :=
    match office with
    | some office => .office office
    | none =>
      if surroundings.subOptimalSettings then .error .subOptimalSettings
      else if surroundings.networkAvailable then .error .connection
      else .error .noNetwork
  state.onLectureLoaded task pagerData office.isSome surroundings.fragmentAttached

/-- The end of a task: whether `onPostExecute` is called depends on the cancel flag at that moment. -/
def finish (state : State α) (task : Nat) (office : Option α) (surroundings : Surroundings) : State α :=
  let state := { state with finished := task :: state.finished }
  if task ∈ state.cancelled then state else state.onPostExecute task office surroundings

def handle (state : State α) (surroundings : Surroundings) : State α :=
  match state.queue with
  | [] => state
  | .progress progress :: queue => { state with queue }.onLectureLoadProgress progress
  | .finish task office :: queue => { state with queue }.finish task office surroundings

/-! ## The tasks -/

def post (state : State α) (message : Message α) : State α := { state with queue := state.queue ++ [message] }

/-- The next body starts, unless its task has been cancelled. -/
def begin (state : State α) : State α :=
  match state.running, state.waiting with
  | none, task :: waiting =>
    if task ∈ state.cancelled then { state with waiting }.post (.finish task none)
    else { state with waiting, running := some (task, .begun) }
  | _, _ => state

def postStart (state : State α) : State α :=
  match state.running with
  | some (task, .begun) => { state with running := some (task, .started) }.post (.progress .loadStart)
  | _ => state

def postOutcome (state : State α) (outcome : Outcome α) : State α :=
  match state.running, outcome with
  | some (task, .started), .returned office =>
    { state with running := some (task, .reported office) }.post (.progress .loadDone)
  | some (task, .started), .ioException =>
    { state with running := some (task, .reported none) }.post (.progress .loadFail)
  | _, _ => state

def postResult (state : State α) : State α :=
  match state.running with
  | some (task, .reported office) => { state with running := none }.post (.finish task office)
  | _ => state

def apply (state : State α) : Event α → State α
  | .loadLecture => if state.ui = .idle then state.beginCancel true else state
  | .cancelLectureLoad => if state.ui = .idle then (state.beginCancel false).log .cancelLectureLoad else state
  | .wake =>
    match state.ui with
    | .sleeping loads => state.endCancel loads
    | _ => state
  | .execute => if state.ui = .starting then state.startLoader else state
  | .begin => state.begin
  | .postStart => state.postStart
  | .postOutcome outcome => state.postOutcome outcome
  | .postResult => state.postResult
  | .handle surroundings => if state.ui = .idle then state.handle surroundings else state

def run (events : List (Event α)) : State α := events.foldl apply start

/-! ## What holds -/

/-- A task that has neither been cancelled nor been finished. -/
def Live (state : State α) (task : Nat) : Prop :=
  task < state.created ∧ task ∉ state.cancelled ∧ task ∉ state.finished

/-- No body is running, none is going to, and the UI thread has nothing to handle. -/
structure Quiet (state : State α) : Prop where
  running : state.running = none
  waiting : ∀ task ∈ state.waiting, task ∈ state.cancelled
  queue : state.queue = []

def completion : Message α → Option Nat
  | .progress _ => none
  | .finish task _ => some task

def progress : Message α → Option LectureLoadProgress
  | .progress progress => some progress
  | .finish _ _ => none

/-- Every task, where it is: waiting, running, on its way to the UI thread, or finished. -/
def placed (state : State α) : List Nat :=
  state.waiting ++ ((state.running.map Prod.fst).toList ++ (state.queue.filterMap completion ++ state.finished))

/-- The flag that a progress sets. -/
def loading : LectureLoadProgress → Bool
  | .loadStart => true
  | .loadFail => false
  | .loadDone => false

/-- What the flag is going to be when the progress messages under way have been handled. -/
def upcoming (messages : List (Message α)) (flag : Bool) : Bool :=
  (messages.filterMap progress).foldl (fun _ progress => loading progress) flag

def Settled (state : State α) : Prop := upcoming state.queue state.isLoading = false

/-- Every `onLectureLoaded` follows the `loadLecture` of its task, with nothing in between. -/
def Prompt (history : List Entry) : Prop :=
  ∀ before task after, history = before ++ .onLectureLoaded task :: after →
    ∃ earlier, before = earlier ++ [.loadLecture task]

/-- The body has said that it starts and not yet how it ends. -/
def InLoad (state : State α) : Prop := ∃ task, state.running = some (task, .started)

structure Invariant (state : State α) : Prop where
  unique : state.placed.Nodup
  known : ∀ task ∈ state.placed, task < state.created
  live : ∀ task, state.Live task →
    state.ui = .idle ∧ state.currentRefresh = some task ∧
      ∃ earlier, state.history = earlier ++ [.loadLecture task]
  prompt : Prompt state.history
  settled : ¬state.InLoad → state.Settled

theorem invariant_start : (start : State α).Invariant where
  unique := by simp [placed, start]
  known := by simp [placed, start]
  live := by
    intro task live
    exact absurd live.1 (Nat.not_lt_zero task)
  prompt := by simp [Prompt, start]
  settled := by simp [Settled, upcoming, start]

@[simp] theorem completions_progress (progress : LectureLoadProgress) (messages : List (Message α)) :
    (Message.progress progress :: messages).filterMap completion = messages.filterMap completion := rfl

@[simp] theorem completions_finish (task : Nat) (office : Option α) (messages : List (Message α)) :
    (Message.finish task office :: messages).filterMap completion = task :: messages.filterMap completion := rfl

@[simp] theorem upcoming_progress (progress : LectureLoadProgress) (messages : List (Message α)) (flag : Bool) :
    upcoming (.progress progress :: messages) flag = upcoming messages (loading progress) := rfl

@[simp] theorem upcoming_finish (task : Nat) (office : Option α) (messages : List (Message α)) (flag : Bool) :
    upcoming (.finish task office :: messages) flag = upcoming messages flag := rfl

@[simp] theorem upcoming_append (messages later : List (Message α)) (flag : Bool) :
    upcoming (messages ++ later) flag = upcoming later (upcoming messages flag) := by
  simp [upcoming]

@[simp] theorem upcoming_nil (flag : Bool) : upcoming ([] : List (Message α)) flag = flag := rfl

/-- Only a message can set the flag again. -/
theorem upcoming_false {messages : List (Message α)} {flag : Bool} (settled : upcoming messages flag = false) :
    upcoming messages false = false := by
  induction messages generalizing flag with
  | nil => rfl
  | cons message messages inductionHypothesis =>
    cases message with
    | progress progress => exact settled
    | finish task office => exact inductionHypothesis settled

theorem Prompt.append {history : List Entry} {entry : Entry} (prompt : Prompt history)
    (last : ∀ task, entry = .onLectureLoaded task → ∃ earlier, history = earlier ++ [.loadLecture task]) :
    Prompt (history ++ [entry]) := by
  intro before task after split
  rcases List.eq_nil_or_concat after with rfl | ⟨middle, final, rfl⟩
  · obtain ⟨rfl, same⟩ := List.append_inj' split rfl
    exact last task (List.singleton_inj.mp same)
  · have longer : history ++ [entry] = (before ++ .onLectureLoaded task :: middle) ++ [final] := by
      simpa using split
    exact prompt before task middle (List.append_inj' longer rfl).1

/-! ## The steps of the tasks -/

/-- A step that moves tasks along and leaves the fields of the fragment to the UI thread. -/
structure Moves (state next : State α) : Prop where
  placed : next.placed.Perm state.placed
  created : next.created = state.created
  cancelled : next.cancelled = state.cancelled
  finished : next.finished = state.finished
  ui : next.ui = state.ui
  currentRefresh : next.currentRefresh = state.currentRefresh
  history : next.history = state.history

theorem Invariant.moves {state next : State α} (invariant : state.Invariant) (moves : Moves state next)
    (settled : ¬next.InLoad → next.Settled) : next.Invariant where
  unique := moves.placed.nodup_iff.mpr invariant.unique
  known := by
    intro task member
    rw [moves.created]
    exact invariant.known task (moves.placed.mem_iff.mp member)
  live := by
    intro task live
    rw [Live, moves.created, moves.cancelled, moves.finished] at live
    rw [moves.ui, moves.currentRefresh, moves.history]
    exact invariant.live task live
  prompt := by
    rw [moves.history]
    exact invariant.prompt
  settled := settled

theorem invariant_begin {state : State α} (invariant : state.Invariant) : state.begin.Invariant := by
  cases running : state.running with
  | some body => simpa [begin, running] using invariant
  | none =>
    cases waiting : state.waiting with
    | nil => simpa [begin, running, waiting] using invariant
    | cons task rest =>
      have settled := invariant.settled (by simp [InLoad, running])
      -- A task that was cancelled in time goes to its end without a body.
      by_cases cancelled : task ∈ state.cancelled
      · simp only [begin, running, waiting, cancelled, if_true]
        refine invariant.moves ⟨?_, rfl, rfl, rfl, rfl, rfl, rfl⟩ fun _ => ?_
        · -- The task goes from the head of the queue of the executor to the end of that of the UI thread.
          simp only [placed, post, running, waiting, List.filterMap_append, completions_finish]
          grind
        · simpa [Settled, post] using settled
      · simp only [begin, running, waiting, cancelled, if_false]
        refine invariant.moves ⟨?_, rfl, rfl, rfl, rfl, rfl, rfl⟩ fun _ => settled
        simp only [placed, running, waiting]
        grind

theorem invariant_postStart {state : State α} (invariant : state.Invariant) : state.postStart.Invariant := by
  unfold postStart
  split
  case h_1 task running =>
    refine invariant.moves ⟨?_, rfl, rfl, rfl, rfl, rfl, rfl⟩ fun notLoading => absurd ⟨task, rfl⟩ notLoading
    simp [placed, post, running]
  case h_2 => exact invariant

theorem invariant_postOutcome {state : State α} (outcome : Outcome α) (invariant : state.Invariant) :
    (state.postOutcome outcome).Invariant := by
  unfold postOutcome
  -- Either way the last message says that the load is over.
  split
  case h_1 task office running =>
    refine invariant.moves ⟨?_, rfl, rfl, rfl, rfl, rfl, rfl⟩ fun _ => ?_
    · simp [placed, post, running]
    · simp [Settled, post, loading]
  case h_2 task running =>
    refine invariant.moves ⟨?_, rfl, rfl, rfl, rfl, rfl, rfl⟩ fun _ => ?_
    · simp [placed, post, running]
    · simp [Settled, post, loading]
  case h_3 => exact invariant

theorem invariant_postResult {state : State α} (invariant : state.Invariant) : state.postResult.Invariant := by
  unfold postResult
  split
  case h_1 task office running =>
    have settled := invariant.settled (by simp [InLoad, running])
    refine invariant.moves ⟨?_, rfl, rfl, rfl, rfl, rfl, rfl⟩ fun _ => ?_
    · simp only [placed, post, running, List.filterMap_append, completions_finish]
      grind
    · simpa [Settled, post] using settled
  case h_2 => exact invariant

/-! ## The steps of the UI thread -/

theorem Invariant.not_live_of_ui {state : State α} (invariant : state.Invariant) (busy : state.ui ≠ .idle)
    (task : Nat) : ¬state.Live task :=
  fun live => busy (invariant.live task live).1

theorem invariant_endCancel {state : State α} {loads : Bool} (invariant : state.Invariant)
    (noneLive : ∀ task, ¬state.Live task) : (state.endCancel loads).Invariant where
  unique := invariant.unique
  known := invariant.known
  live := by
    intro task live
    exact absurd live (noneLive task)
  prompt := invariant.prompt
  settled := by
    intro notLoading
    exact upcoming_false (invariant.settled notLoading)

/-- Once `cancelLectureLoad` has set the flag of the current task no task is live. -/
theorem not_live_beginCancel {state : State α} (loads : Bool) (invariant : state.Invariant) (task : Nat) :
    ¬(state.beginCancel loads).Live task := by
  unfold beginCancel
  split
  case h_1 nothing =>
    -- Without a current task none was live in the first place.
    intro live
    have current := (invariant.live task live).2.1
    simp [nothing] at current
  case h_2 current refresh =>
    rintro ⟨known, notCancelled, notFinished⟩
    simp only [List.mem_cons, not_or] at notCancelled
    have same := (invariant.live task ⟨known, notCancelled.2, notFinished⟩).2.1
    rw [refresh] at same
    exact notCancelled.1 (Option.some.inj same).symm

theorem invariant_beginCancel {state : State α} (loads : Bool) (invariant : state.Invariant) :
    (state.beginCancel loads).Invariant := by
  have noneLive := not_live_beginCancel loads invariant
  cases refresh : state.currentRefresh with
  | none =>
    simp only [beginCancel, refresh] at noneLive ⊢
    exact invariant_endCancel invariant noneLive
  | some current =>
    simp only [beginCancel, refresh] at noneLive ⊢
    exact {
      unique := invariant.unique
      known := invariant.known
      live := fun task live => absurd live (noneLive task)
      prompt := invariant.prompt
      settled := invariant.settled }

theorem invariant_cancelLectureLoad {state : State α} (invariant : state.Invariant) :
    ((state.beginCancel false).log .cancelLectureLoad).Invariant := by
  have cancelled := invariant_beginCancel false invariant
  exact {
    unique := cancelled.unique
    known := cancelled.known
    live := fun task live => absurd live (not_live_beginCancel false invariant task)
    prompt := cancelled.prompt.append (by simp)
    settled := cancelled.settled }

theorem invariant_startLoader {state : State α} (invariant : state.Invariant) (starting : state.ui = .starting) :
    state.startLoader.Invariant := by
  have perm : state.startLoader.placed.Perm (state.created :: state.placed) := by
    simp only [placed, startLoader, log]
    grind
  have fresh : state.created ∉ state.placed := by
    intro member
    exact absurd (invariant.known _ member) (Nat.lt_irrefl _)
  refine ⟨?_, ?_, ?_, ?_, ?_⟩
  · exact perm.nodup_iff.mpr (List.nodup_cons.mpr ⟨fresh, invariant.unique⟩)
  · intro task member
    rcases List.mem_cons.mp (perm.mem_iff.mp member) with rfl | member
    · exact Nat.lt_succ_self _
    · exact Nat.lt_succ_of_lt (invariant.known task member)
  · rintro task ⟨known, notCancelled, notFinished⟩
    -- The cancellation at the start of `loadLecture` has left no older task live.
    rcases Nat.lt_succ_iff_lt_or_eq.mp known with earlier | rfl
    · have live : state.Live task := ⟨earlier, notCancelled, notFinished⟩
      exact absurd live (invariant.not_live_of_ui (by simp [starting]) task)
    · exact ⟨rfl, rfl, state.history, rfl⟩
  · exact invariant.prompt.append (by simp)
  · exact invariant.settled

/-! ## The messages -/

theorem invariant_progress {state : State α} {progress : LectureLoadProgress} {queue : List (Message α)}
    (invariant : state.Invariant) (head : state.queue = .progress progress :: queue) :
    ({ state with queue }.onLectureLoadProgress progress).Invariant := by
  have flag : { state with queue }.onLectureLoadProgress progress =
      { state with queue, isLoading := loading progress } := by
    cases progress <;> rfl
  rw [flag]
  refine invariant.moves ⟨?_, rfl, rfl, rfl, rfl, rfl, rfl⟩ fun notLoading => ?_
  · simp [placed, head]
  · -- Handling the message sets the flag that it was going to set.
    have settled := invariant.settled notLoading
    simpa [Settled, head] using settled

/-- The task whose end is next in the queue is live unless it was cancelled. -/
theorem live_finish {state : State α} {task : Nat} {office : Option α} {queue : List (Message α)}
    (invariant : state.Invariant) (head : state.queue = .finish task office :: queue)
    (notCancelled : task ∉ state.cancelled) : state.Live task := by
  have known := invariant.known task (by simp [placed, head])
  have unique := invariant.unique
  simp only [placed, head, completions_finish] at unique
  refine ⟨known, notCancelled, ?_⟩
  grind

theorem invariant_finish {state : State α} {task : Nat} {office : Option α} {queue : List (Message α)}
    (surroundings : Surroundings) (invariant : state.Invariant) (head : state.queue = .finish task office :: queue) :
    ({ state with queue }.finish task office surroundings).Invariant := by
  have perm : ({ state with queue, finished := task :: state.finished } : State α).placed.Perm state.placed := by
    simp only [placed, head, completions_finish]
    grind
  have unique := perm.nodup_iff.mpr invariant.unique
  have known : ∀ other ∈ ({ state with queue, finished := task :: state.finished } : State α).placed,
      other < state.created :=
    fun other member => invariant.known other (perm.mem_iff.mp member)
  have settled : ¬state.InLoad → upcoming queue state.isLoading = false := by
    intro notLoading
    simpa [Settled, head] using invariant.settled notLoading
  by_cases cancelled : task ∈ state.cancelled
  · simp only [finish, cancelled, if_true]
    refine ⟨unique, known, ?_, invariant.prompt, settled⟩
    rintro other ⟨otherKnown, notCancelled, notFinished⟩
    simp only [List.mem_cons, not_or] at notFinished
    exact invariant.live other ⟨otherKnown, notCancelled, notFinished.2⟩
  · obtain ⟨idle, current, last⟩ := invariant.live task (live_finish invariant head cancelled)
    simp only [finish, cancelled, if_false, onPostExecute]
    refine ⟨unique, known, ?_, ?_, ?_⟩
    · -- The only live task was this one.
      rintro other ⟨otherKnown, notCancelled, notFinished⟩
      simp only [onLectureLoaded, log, List.mem_cons, not_or] at notFinished
      have same := (invariant.live other ⟨otherKnown, notCancelled, notFinished.2⟩).2.1
      rw [current] at same
      exact absurd (Option.some.inj same).symm notFinished.1
    · refine invariant.prompt.append ?_
      rintro other same
      cases same
      exact last
    · -- A progress came before the end, so that the flag does not depend on the fragment manager.
      intro notLoading
      have pending := settled notLoading
      cases attached : surroundings.fragmentAttached with
      | true => simpa [Settled, onLectureLoaded, log, attached] using upcoming_false pending
      | false => simpa [Settled, onLectureLoaded, log, attached] using pending

theorem invariant_handle {state : State α} (surroundings : Surroundings) (invariant : state.Invariant) :
    (state.handle surroundings).Invariant := by
  unfold handle
  split
  case h_1 => exact invariant
  case h_2 progress queue head => exact invariant_progress invariant head
  case h_3 task office queue head => exact invariant_finish surroundings invariant head

/-! ## Runs -/

theorem invariant_apply {state : State α} (event : Event α) (invariant : state.Invariant) :
    (state.apply event).Invariant := by
  cases event with
  | loadLecture =>
    simp only [apply]
    split
    · exact invariant_beginCancel true invariant
    · exact invariant
  | cancelLectureLoad =>
    simp only [apply]
    split
    · exact invariant_cancelLectureLoad invariant
    · exact invariant
  | wake =>
    simp only [apply]
    split
    · exact invariant_endCancel invariant (invariant.not_live_of_ui (by simp [*]))
    · exact invariant
  | execute =>
    simp only [apply]
    split
    case isTrue starting => exact invariant_startLoader invariant starting
    case isFalse => exact invariant
  | begin => exact invariant_begin invariant
  | postStart => exact invariant_postStart invariant
  | postOutcome outcome => exact invariant_postOutcome outcome invariant
  | postResult => exact invariant_postResult invariant
  | handle surroundings =>
    simp only [apply]
    split
    · exact invariant_handle surroundings invariant
    · exact invariant

theorem invariant_run (events : List (Event α)) : (run events).Invariant :=
  Runs.invariant_foldl apply Invariant (fun _ event invariant => invariant_apply event invariant) events
    invariant_start

end State

/-- Whatever the interleaving, the only task that is neither cancelled nor finished is the
current one; a result is shown right after the load it belongs to, before any other load or
cancellation; and when nothing is under way the fragment does not say that it is loading. -/
theorem loading_protocol (events : List (Event α)) :
    (∀ task, (State.run events).Live task → (State.run events).currentRefresh = some task) ∧
    (∀ before task after, (State.run events).history = before ++ .onLectureLoaded task :: after →
      ∃ earlier, before = earlier ++ [.loadLecture task]) ∧
    ((State.run events).Quiet → (State.run events).isLoading = false) := by
  have invariant := State.invariant_run events
  refine ⟨fun task live => (invariant.live task live).2.1, invariant.prompt, ?_⟩
  rintro ⟨running, _, queue⟩
  have settled := invariant.settled (by simp [State.InLoad, running])
  simpa [State.Settled, queue] using settled

-- A load is cancelled after its body has begun, and the next one is shown.
example :
    (State.run (α := Unit) [.loadLecture, .execute, .begin, .postStart, .cancelLectureLoad, .wake,
      .handle ⟨false, true, true⟩, .loadLecture, .execute, .postOutcome .ioException, .postResult, .begin, .postStart,
      .postOutcome (.returned (some ())), .postResult, .handle ⟨false, true, true⟩, .handle ⟨false, true, true⟩,
      .handle ⟨false, true, true⟩, .handle ⟨false, true, true⟩, .handle ⟨false, true, true⟩]).history =
    [.loadLecture 0, .cancelLectureLoad, .loadLecture 1, .onLectureLoaded 1] := by
  decide +kernel

end Aelf.Lectures.Loading
