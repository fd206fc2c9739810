import Aelf.Bible.SearchLinks
import Aelf.Library.Runs
import Mathlib.Logic.Function.Basic

/-! # Searching while the reader types

`search` runs on the UI thread each time the text or the order changes.  It edits the
runnable that waits for the single worker, or submits a new one; the worker takes the
reference to its runnable away before it searches.  One semaphore guards the reference,
and each runnable has one that guards its query and its order.

A step of a thread goes from one use of a semaphore to the next.  A thread that cannot
have the permit that it needs stays where it is. -/

namespace Aelf.Bible.Search

open Aelf.Library

/-! ## Requests -/

/-- A Java string, as its UTF-16 code units. -/
abbrev CodeUnits := List UInt16

/-- The code unit of `*`. -/
def star : UInt16 := 0x2A

/-- The query that is searched: its last word gets a wildcard when the query is long enough. -/
def addWildcard : Option CodeUnits → Option CodeUnits
  | none => none
  | some query => if 3 ≤ query.length ∧ query.getLast? ≠ some star then some (query ++ [star]) else some query

/-- A query together with an order. -/
structure Request where
  query : Option CodeUnits
  sort : SearchSort
deriving DecidableEq

def Request.prepared (request : Request) : Request := ⟨addWildcard request.query, request.sort⟩

/-! ## State -/

structure SearchRunnable where
  mQuery : Option CodeUnits
  mSort : SearchSort
  /-- The permits of `mEditSemaphore`. -/
  permits : Nat

def SearchRunnable.request (runnable : SearchRunnable) : Request := ⟨runnable.mQuery, runnable.mSort⟩

/-- Where the UI thread is in `search`, and the query that it is going to hand over. -/
inductive Ui where
  | idle
  | acquiring (query : Option CodeUnits)
  | editing (query : Option CodeUnits)
  /-- In `setQuery`, with the permit of the runnable. -/
  | writing (runnable : Nat) (query : Option CodeUnits)
  | releasing

/-- Where the worker is in `run`. -/
inductive Worker where
  | idle
  | acquiring (runnable : Nat)
  | clearing (runnable : Nat)
  | releasing (runnable : Nat)
  | locking (runnable : Nat)
  | searching (runnable : Nat)

/-- The fields of the fragment, the runnables by number, the queue of the worker and what has been
observed: the requests in order, the searches that have started and the answers of `setQuery`. -/
structure State where
  mQuery : Option CodeUnits
  mSort : SearchSort
  /-- The permits of `mEditSearchSemaphore`. -/
  permits : Nat
  mSearchRunnable : Option Nat
  /-- The search that is shown. -/
  mResultAdapter : Option Request
  runnables : Nat → SearchRunnable
  created : Nat
  queue : List Nat
  ui : Ui
  worker : Worker
  requests : List Request
  started : List Request
  answers : List Bool

/-- The fragment before its first search. -/
def start (query : Option CodeUnits) (sort : SearchSort) : State where
  mQuery := query
  mSort := sort
  permits := 1
  mSearchRunnable := none
  mResultAdapter := none
  runnables := fun _ => ⟨none, .relevance, 0⟩
  created := 0
  queue := []
  ui := .idle
  worker := .idle
  requests := []
  started := []
  answers := []

inductive Event where
  | search (query : Option CodeUnits)
  | setSort (sort : SearchSort)
  | ui
  /-- The database may refuse the query, in which case `run` ends with an exception. -/
  | worker (refused : Bool)

namespace State

/-! ## The UI thread -/

def search (state : State) (query : Option CodeUnits) : State :=
  { state with
    mQuery := query
    ui := .acquiring (addWildcard query)
    requests := state.requests ++ [⟨query, state.mSort⟩] }

def setSort (state : State) (sort : SearchSort) : State := { state with mSort := sort }.search state.mQuery

/-- `new SearchRunnable` and its submission. -/
def submit (state : State) (query : Option CodeUnits) : State :=
  { state with
    runnables := Function.update state.runnables state.created ⟨query, state.mSort, 1⟩
    created := state.created + 1
    mSearchRunnable := some state.created
    queue := state.queue ++ [state.created]
    ui := .releasing }

def setPermits (state : State) (runnable permits : Nat) : State :=
  { state with
    runnables := Function.update state.runnables runnable { state.runnables runnable with permits } }

/-- The start of `setQuery`, which does not wait. -/
def tryAcquire (state : State) (runnable : Nat) (query : Option CodeUnits) : State :=
  if (state.runnables runnable).permits = 0 then
    { state with ui := .releasing, answers := state.answers ++ [false] }
  else { state.setPermits runnable ((state.runnables runnable).permits - 1) with ui := .writing runnable query }

/-- The end of `setQuery`. -/
def setQuery (state : State) (runnable : Nat) (query : Option CodeUnits) : State :=
  { state with
    runnables := Function.update state.runnables runnable
      ⟨query, state.mSort, (state.runnables runnable).permits + 1⟩
    ui := .releasing
    answers := state.answers ++ [true] }

def uiStep (state : State) : State :=
  match state.ui with
  | .idle => state
  | .acquiring query =>
    if state.permits = 0 then state else { state with permits := state.permits - 1, ui := .editing query }
  | .editing query =>
    match state.mSearchRunnable with
    | none => state.submit query
    | some runnable => state.tryAcquire runnable query
  | .writing runnable query => state.setQuery runnable query
  | .releasing => { state with permits := state.permits + 1, ui := .idle }

/-! ## The worker -/

/-- The search itself, which is skipped when there is nothing to search. -/
def perform (state : State) (runnable : Nat) (refused : Bool) : State :=
  { state with
    mResultAdapter :=
      match (state.runnables runnable).mQuery with
      | none | some [] => none
      | some _ => if refused then state.mResultAdapter else some (state.runnables runnable).request
    worker := .idle }

def workerStep (state : State) (refused : Bool) : State :=
  match state.worker with
  | .idle =>
    match state.queue with
    | [] => state
    | runnable :: queue => { state with queue, worker := .acquiring runnable }
  | .acquiring runnable =>
    if state.permits = 0 then state else { state with permits := state.permits - 1, worker := .clearing runnable }
  | .clearing runnable => { state with mSearchRunnable := none, worker := .releasing runnable }
  | .releasing runnable => { state with permits := state.permits + 1, worker := .locking runnable }
  | .locking runnable =>
    if (state.runnables runnable).permits = 0 then state
    else
      { state.setPermits runnable ((state.runnables runnable).permits - 1) with
        worker := .searching runnable
        started := state.started ++ [(state.runnables runnable).request] }
  | .searching runnable => state.perform runnable refused

/-- The UI thread starts a call only when it is not in one. -/
def apply (state : State) : Event → State
  | .search query =>
    match state.ui with
    | .idle => state.search query
    | _ => state
  | .setSort sort =>
    match state.ui with
    | .idle => state.setSort sort
    | _ => state
  | .ui => state.uiStep
  | .worker refused => state.workerStep refused

def run (query : Option CodeUnits) (sort : SearchSort) (events : List Event) : State :=
  events.foldl apply (start query sort)

end State

/-! ## What holds -/

/-- The permits of `mEditSearchSemaphore` that the UI thread has. -/
def Ui.held : Ui → Nat
  | idle | acquiring _ => 0
  | editing _ | writing _ _ | releasing => 1

def Worker.held : Worker → Nat
  | clearing _ | releasing _ => 1
  | idle | acquiring _ | locking _ | searching _ => 0

/-- The query that has not been handed over yet. -/
def Ui.handing : Ui → Option (Option CodeUnits)
  | acquiring query | editing query | writing _ query => some query
  | idle | releasing => none

/-- The permits of a runnable that the UI thread has. -/
def Ui.writes : Ui → Nat → Nat
  | writing written _, runnable => if written = runnable then 1 else 0
  | _, _ => 0

/-- The runnable that the worker has taken from the queue and that can still be edited. -/
def Worker.editable : Worker → Option Nat
  | acquiring runnable | clearing runnable => some runnable
  | idle | releasing _ | locking _ | searching _ => none

/-- The runnable that can no longer be edited and whose search has not started. -/
def Worker.taken : Worker → Option Nat
  | releasing runnable | locking runnable => some runnable
  | idle | acquiring _ | clearing _ | searching _ => none

namespace State

/-- The runnables that `search` may edit. -/
def editable (state : State) : List Nat := state.worker.editable.toList ++ state.queue

/-- The runnables whose search has not started. -/
def unstarted (state : State) : List Nat := state.worker.taken.toList ++ state.editable

/-- The requests that `search` has handed over: all, or all but that of the call under way. -/
def requested (state : State) : List Request :=
  match state.ui.handing with
  | none => state.requests
  | some _ => state.requests.dropLast

/-- The request that is searched last when no other follows. -/
def carried (state : State) : Option Request :=
  match state.unstarted.getLast? with
  | none => state.started.getLast?
  | some runnable => some (state.runnables runnable).request

structure Invariant (state : State) : Prop where
  exclusion : state.permits + state.ui.held + state.worker.held = 1
  reference : state.editable = state.mSearchRunnable.toList
  unique : state.unstarted.Nodup
  known : ∀ runnable ∈ state.unstarted, runnable < state.created
  editSemaphore : ∀ runnable ∈ state.unstarted, (state.runnables runnable).permits + state.ui.writes runnable = 1
  writing : ∀ runnable, state.ui.writes runnable ≠ 0 → state.mSearchRunnable = some runnable
  handing : ∀ query, state.ui.handing = some query →
    ∃ request, state.requests.getLast? = some request ∧ request.prepared = ⟨query, state.mSort⟩
  carried : state.carried = state.requested.getLast?.map Request.prepared
  together : ∀ runnable ∈ state.unstarted, (state.runnables runnable).request ∈ state.requests.map Request.prepared
  started : ∀ request ∈ state.started, request ∈ state.requests.map Request.prepared
  answers : ∀ answer ∈ state.answers, answer = true

theorem carried_congr {state next : State} (unstarted : next.unstarted = state.unstarted)
    (started : next.started = state.started)
    (request : ∀ runnable, (next.runnables runnable).request = (state.runnables runnable).request) :
    next.carried = state.carried := by
  simp only [carried, unstarted, started, request]

theorem Invariant.queue_length {state : State} (invariant : state.Invariant) : state.queue.length ≤ 1 :=
  calc state.queue.length
    _ ≤ state.editable.length := by simp [editable]
    _ = state.mSearchRunnable.toList.length := by rw [invariant.reference]
    _ ≤ 1 := by cases state.mSearchRunnable <;> simp

@[simp] theorem unstarted_start (query : Option CodeUnits) (sort : SearchSort) :
    (start query sort).unstarted = [] := rfl

theorem invariant_start (query : Option CodeUnits) (sort : SearchSort) : (start query sort).Invariant where
  exclusion := rfl
  reference := rfl
  unique := List.nodup_nil
  known := by simp
  editSemaphore := by simp
  writing := by simp [start, Ui.writes]
  handing := by simp [start, Ui.handing]
  carried := rfl
  together := by simp
  started := by simp [start]
  answers := by simp [start]

/-- A step that moves the threads and the queue and keeps which runnables are where. -/
theorem Invariant.moves {state : State} {permits : Nat} {mResultAdapter : Option Request} {queue : List Nat} {ui : Ui}
    {worker : Worker}
    (invariant : state.Invariant) (exclusion : permits + ui.held + worker.held = 1)
    (editable : worker.editable.toList ++ queue = state.editable) (taken : worker.taken = state.worker.taken)
    (handing : ui.handing = state.ui.handing) (writes : ui.writes = state.ui.writes) :
    { state with permits, mResultAdapter, queue, ui, worker }.Invariant := by
  have sameUnstarted : { state with permits, mResultAdapter, queue, ui, worker }.unstarted = state.unstarted := by
    simp only [unstarted, taken, State.editable, editable]
  exact {
    exclusion := exclusion
    reference := editable.trans invariant.reference
    unique := sameUnstarted ▸ invariant.unique
    known := sameUnstarted ▸ invariant.known
    editSemaphore := by
      rw [sameUnstarted, writes]
      exact invariant.editSemaphore
    writing := writes ▸ invariant.writing
    handing := handing ▸ invariant.handing
    carried := by
      rw [carried_congr sameUnstarted rfl fun _ => rfl, requested, handing]
      exact invariant.carried
    together := sameUnstarted ▸ invariant.together
    started := invariant.started
    answers := invariant.answers }

/-! ## The steps of the UI thread -/

/-- A call starts with its request in the list and nothing handed over. -/
theorem invariant_request {state : State} (query : Option CodeUnits) (sort : SearchSort) (invariant : state.Invariant)
    (idle : state.ui = .idle) : ({ state with mSort := sort }.search query).Invariant where
  exclusion := by simpa [search, idle, Ui.held] using invariant.exclusion
  reference := invariant.reference
  unique := invariant.unique
  known := invariant.known
  editSemaphore := by
    intro runnable member
    simpa [search, idle, Ui.writes] using invariant.editSemaphore runnable member
  writing := by simp [search, Ui.writes]
  handing := by simp [search, Ui.handing, Request.prepared]
  carried := by
    -- The new request is not handed over yet: what had been requested stays the same.
    have carried := invariant.carried
    simp only [requested, idle, Ui.handing] at carried
    simp only [search, requested, Ui.handing, List.dropLast_concat]
    exact carried
  together := by
    intro runnable member
    have request := invariant.together runnable member
    simp only [search, List.map_append, List.mem_append]
    exact .inl request
  started := by
    intro request member
    simp only [search, List.map_append, List.mem_append]
    exact .inl (invariant.started request member)
  answers := invariant.answers

/-- The request of the call under way, as it is going to be handed over. -/
theorem Invariant.last_request {state : State} (query : Option CodeUnits) (invariant : state.Invariant)
    (handing : state.ui.handing = some query) :
    state.requests.getLast?.map Request.prepared = some ⟨query, state.mSort⟩ ∧
      ⟨query, state.mSort⟩ ∈ state.requests.map Request.prepared := by
  obtain ⟨request, last, prepared⟩ := invariant.handing query handing
  have member := List.mem_map_of_mem (f := Request.prepared) (List.mem_of_getLast? last)
  rw [prepared] at member
  exact ⟨by rw [last, ← prepared]; rfl, member⟩

/-- Without a reference nothing can be edited, and the new runnable is the last one to be searched. -/
theorem invariant_submit {state : State} {query : Option CodeUnits} (invariant : state.Invariant)
    (editing : state.ui = .editing query) (nothing : state.mSearchRunnable = none) :
    (state.submit query).Invariant := by
  have empty : state.editable = [] := by simpa [nothing] using invariant.reference
  obtain ⟨notHeld, noQueue⟩ := List.append_eq_nil_iff.mp empty
  obtain ⟨last, together⟩ := invariant.last_request query (by simp [editing, Ui.handing])
  -- the new runnable comes after one that the worker has taken already
  have unstartedAfter : (state.submit query).unstarted = state.unstarted ++ [state.created] := by
    simp [unstarted, editable, submit, noQueue, notHeld]
  have fresh : ∀ runnable ∈ state.unstarted, runnable ≠ state.created :=
    fun runnable member => Nat.ne_of_lt (invariant.known runnable member)
  have same : ∀ runnable ∈ state.unstarted,
      (state.submit query).runnables runnable = state.runnables runnable :=
    fun runnable member => Function.update_of_ne (fresh runnable member) _ _
  have new : (state.submit query).runnables state.created = ⟨query, state.mSort, 1⟩ := Function.update_self ..
  exact {
    exclusion := by simpa [submit, editing, Ui.held] using invariant.exclusion
    reference := by simp [editable, submit, noQueue, notHeld]
    unique := by
      rw [unstartedAfter]
      exact List.nodup_append.mpr ⟨invariant.unique, by simp, by simpa using fresh⟩
    known := by
      rw [unstartedAfter]
      intro runnable member
      rcases List.mem_append.mp member with old | new
      · exact Nat.lt_succ_of_lt (invariant.known runnable old)
      · exact Nat.lt_succ_of_le (List.mem_singleton.mp new).le
    editSemaphore := by
      rw [unstartedAfter]
      intro runnable member
      rcases List.mem_append.mp member with old | created
      · rw [same runnable old]
        simpa [submit, editing, Ui.writes] using invariant.editSemaphore runnable old
      · rw [List.mem_singleton.mp created, new]
        rfl
    writing := by simp [submit, Ui.writes]
    handing := by simp [submit, Ui.handing]
    carried := by
      simp only [State.carried, unstartedAfter, List.getLast?_concat, new, requested]
      exact last.symm
    together := by
      rw [unstartedAfter]
      intro runnable member
      rcases List.mem_append.mp member with old | created
      · rw [same runnable old]
        exact invariant.together runnable old
      · rw [List.mem_singleton.mp created, new]
        exact together
    started := invariant.started
    answers := invariant.answers }

/-- The runnable that the reference names has its permit, so `setQuery` is not refused. -/
theorem invariant_tryAcquire {state : State} {runnable : Nat} {query : Option CodeUnits} (invariant : state.Invariant)
    (editing : state.ui = .editing query) (reference : state.mSearchRunnable = some runnable) :
    (state.tryAcquire runnable query).Invariant := by
  have editable : state.editable = [runnable] := by simpa [reference] using invariant.reference
  have member : runnable ∈ state.unstarted := by simp [unstarted, editable]
  -- The UI thread itself is outside `setQuery`, and the worker locks a runnable only after clearing the reference.
  have permit : (state.runnables runnable).permits = 1 := by
    simpa [editing, Ui.writes] using invariant.editSemaphore runnable member
  have request : ∀ other,
      ((state.setPermits runnable 0).runnables other).request = (state.runnables other).request := by
    intro other
    by_cases same : other = runnable
    · simp [setPermits, same, SearchRunnable.request]
    · simp [setPermits, same]
  simp only [tryAcquire, permit, Nat.one_ne_zero, if_false, Nat.sub_self]
  exact {
    exclusion := by simpa [setPermits, editing, Ui.held] using invariant.exclusion
    reference := invariant.reference
    unique := invariant.unique
    known := invariant.known
    editSemaphore := by
      intro other otherMember
      have otherPermit := invariant.editSemaphore other otherMember
      by_cases same : other = runnable
      · simp [setPermits, same, Ui.writes]
      · simpa [setPermits, same, Ne.symm same, editing, Ui.writes] using otherPermit
    writing := by
      intro other writes
      have same : runnable = other := by simpa [Ui.writes] using writes
      exact same ▸ reference
    handing := by
      have handing := invariant.handing
      rw [editing] at handing
      exact handing
    carried := by
      have carried := invariant.carried
      simp only [requested, editing, Ui.handing] at carried
      exact Eq.trans (b := state.carried) (carried_congr rfl rfl request) carried
    together := by
      intro other otherMember
      have together := invariant.together other otherMember
      rw [← request other] at together
      exact together
    started := invariant.started
    answers := invariant.answers }

/-- The edited runnable is the last one to be searched, and it has the new request as a whole. -/
theorem invariant_setQuery {state : State} {runnable : Nat} {query : Option CodeUnits} (invariant : state.Invariant)
    (writing : state.ui = .writing runnable query) : (state.setQuery runnable query).Invariant := by
  have reference := invariant.writing runnable (by simp [writing, Ui.writes])
  have editable : state.editable = [runnable] := by simpa [reference] using invariant.reference
  have lastUnstarted : state.unstarted.getLast? = some runnable := by simp [unstarted, editable]
  have permit : (state.runnables runnable).permits = 0 := by
    simpa [writing, Ui.writes] using invariant.editSemaphore runnable (List.mem_of_getLast? lastUnstarted)
  obtain ⟨last, together⟩ := invariant.last_request query (by simp [writing, Ui.handing])
  -- the permit taken for the edit comes back with it
  have new : (state.setQuery runnable query).runnables runnable = ⟨query, state.mSort, 1⟩ := by
    simp [setQuery, permit]
  have others : ∀ other, other ≠ runnable →
      (state.setQuery runnable query).runnables other = state.runnables other :=
    fun other different => Function.update_of_ne different _ _
  exact {
    exclusion := by simpa [setQuery, writing, Ui.held] using invariant.exclusion
    reference := invariant.reference
    unique := invariant.unique
    known := invariant.known
    editSemaphore := by
      intro other otherMember
      by_cases same : other = runnable
      · rw [same, new]
        rfl
      · rw [others other same]
        simpa [setQuery, Ne.symm same, writing, Ui.writes] using invariant.editSemaphore other otherMember
    writing := by simp [setQuery, Ui.writes]
    handing := by simp [setQuery, Ui.handing]
    carried := by
      have sameUnstarted : (state.setQuery runnable query).unstarted = state.unstarted := rfl
      simp only [State.carried, sameUnstarted, lastUnstarted, new]
      exact last.symm
    together := by
      intro other otherMember
      by_cases same : other = runnable
      · rw [same, new]
        exact together
      · rw [others other same]
        exact invariant.together other otherMember
    started := invariant.started
    answers := by
      intro answer member
      rcases List.mem_append.mp member with earlier | added
      · exact invariant.answers answer earlier
      · exact List.mem_singleton.mp added }

theorem invariant_uiStep {state : State} (invariant : state.Invariant) : state.uiStep.Invariant := by
  have exclusion := invariant.exclusion
  cases ui : state.ui with
  | idle => simpa [uiStep, ui] using invariant
  | acquiring query =>
    simp only [uiStep, ui]
    split
    · exact invariant
    · refine invariant.moves ?_ rfl rfl (by rw [ui]; rfl) (by rw [ui]; rfl)
      simp only [ui, Ui.held] at exclusion ⊢
      omega
  | editing query =>
    simp only [uiStep, ui]
    split
    case h_1 nothing => exact invariant_submit invariant ui nothing
    case h_2 runnable reference => exact invariant_tryAcquire invariant ui reference
  | writing runnable query =>
    simp only [uiStep, ui]
    exact invariant_setQuery invariant ui
  | releasing =>
    simp only [uiStep, ui]
    refine invariant.moves ?_ rfl rfl (by rw [ui]; rfl) (by rw [ui]; rfl)
    simp only [ui, Ui.held] at exclusion ⊢
    omega

/-! ## The steps of the worker -/

/-- While the worker has the permit, the UI thread is outside `setQuery`. -/
theorem invariant_clear {state : State} {runnable : Nat} (invariant : state.Invariant)
    (clearing : state.worker = .clearing runnable) :
    { state with mSearchRunnable := none, worker := .releasing runnable }.Invariant := by
  have exclusion := invariant.exclusion
  have reference := invariant.reference
  -- The worker has taken the only runnable that can be edited out of the queue.
  have noQueue : state.queue = [] := by
    cases current : state.mSearchRunnable with
    | none => simp [editable, clearing, Worker.editable, current] at reference
    | some current =>
      rw [current, editable, clearing] at reference
      exact (List.cons.inj reference).2
  have sameUnstarted : { state with mSearchRunnable := none, worker := Worker.releasing runnable }.unstarted =
      state.unstarted := by
    simp [unstarted, editable, clearing, Worker.taken, Worker.editable, noQueue]
  have outside : ∀ other, state.ui.writes other = 0 := by
    intro other
    cases ui : state.ui with
    | writing written query =>
      simp only [ui, clearing, Ui.held, Worker.held] at exclusion
      omega
    | idle | acquiring query | editing query | releasing => rfl
  exact {
    exclusion := by simpa [clearing, Worker.held] using exclusion
    reference := by simp [editable, Worker.editable, noQueue]
    unique := sameUnstarted ▸ invariant.unique
    known := sameUnstarted ▸ invariant.known
    editSemaphore := sameUnstarted ▸ invariant.editSemaphore
    writing := by simp [outside]
    handing := invariant.handing
    carried := (carried_congr sameUnstarted rfl fun _ => rfl).trans invariant.carried
    together := sameUnstarted ▸ invariant.together
    started := invariant.started
    answers := invariant.answers }

/-- The search that starts is the one that was carried, unless a later one waits already. -/
theorem invariant_lock {state : State} {runnable : Nat} (invariant : state.Invariant)
    (locking : state.worker = .locking runnable) :
    { state.setPermits runnable ((state.runnables runnable).permits - 1) with
      worker := .searching runnable
      started := state.started ++ [(state.runnables runnable).request] }.Invariant := by
  have before : state.unstarted = runnable :: state.editable := by
    simp [unstarted, locking, Worker.taken]
  have editable : state.editable = state.queue := by simp [editable, locking, Worker.editable]
  -- A runnable that waits already was submitted after the reference to this one was cleared.
  have notAmong : runnable ∉ state.queue := by
    have unique := invariant.unique
    rw [before, editable] at unique
    exact (List.nodup_cons.mp unique).1
  have among : ∀ other ∈ state.queue, other ∈ state.unstarted := by
    intro other member
    rw [before, editable]
    exact List.mem_cons_of_mem runnable member
  have others : ∀ other ∈ state.queue,
      (state.setPermits runnable ((state.runnables runnable).permits - 1)).runnables other = state.runnables other := by
    intro other member
    have different : other ≠ runnable := fun same => notAmong (same ▸ member)
    exact Function.update_of_ne different _ _
  exact {
    exclusion := by simpa [setPermits, locking, Worker.held] using invariant.exclusion
    reference := editable.symm.trans invariant.reference
    unique := by
      have unique := invariant.unique
      rw [before, editable] at unique
      exact (List.nodup_cons.mp unique).2
    known := fun other member => invariant.known other (among other member)
    editSemaphore := by
      intro other member
      have permit := invariant.editSemaphore other (among other member)
      rw [← others other member] at permit
      exact permit
    writing := invariant.writing
    handing := invariant.handing
    carried := by
      refine Eq.trans (b := state.carried) ?_ invariant.carried
      rw [State.carried, State.carried, before, editable, List.getLast?_cons]
      change (match state.queue.getLast? with | none => _ | some _ => _) = _
      -- With nothing else waiting, the search that starts becomes the last one started.
      cases last : state.queue.getLast? with
      | none => exact List.getLast?_concat ..
      | some other => exact congrArg (some ∘ SearchRunnable.request) (others other (List.mem_of_getLast? last))
    together := by
      intro other member
      have together := invariant.together other (among other member)
      rw [← others other member] at together
      exact together
    started := by
      intro request member
      rcases List.mem_append.mp member with earlier | added
      · exact invariant.started request earlier
      · rw [List.mem_singleton.mp added]
        exact invariant.together runnable (by rw [before]; exact List.mem_cons_self)
    answers := invariant.answers }

theorem invariant_workerStep {state : State} (refused : Bool) (invariant : state.Invariant) :
    (state.workerStep refused).Invariant := by
  have exclusion := invariant.exclusion
  cases worker : state.worker with
  | idle =>
    simp only [workerStep, worker]
    split
    case h_1 => exact invariant
    case h_2 runnable queue waiting =>
      refine invariant.moves ?_ ?_ (by rw [worker]; rfl) rfl rfl
      · simpa [worker, Worker.held] using exclusion
      · simp [editable, worker, Worker.editable, waiting]
  | acquiring runnable =>
    simp only [workerStep, worker]
    split
    · exact invariant
    · refine invariant.moves ?_ (by rw [editable, worker]; rfl) (by rw [worker]; rfl) rfl rfl
      simp only [worker, Worker.held] at exclusion ⊢
      omega
  | clearing runnable =>
    simp only [workerStep, worker]
    exact invariant_clear invariant worker
  | releasing runnable =>
    simp only [workerStep, worker]
    refine invariant.moves ?_ (by rw [editable, worker]; rfl) (by rw [worker]; rfl) rfl rfl
    simp only [worker, Worker.held] at exclusion ⊢
    omega
  | locking runnable =>
    simp only [workerStep, worker]
    split
    · exact invariant
    · exact invariant_lock invariant worker
  | searching runnable =>
    simp only [workerStep, worker, perform]
    refine invariant.moves ?_ (by rw [editable, worker]; rfl) (by rw [worker]; rfl) rfl rfl
    simpa [worker, Worker.held] using exclusion

/-! ## Runs -/

theorem invariant_apply {state : State} (event : Event) (invariant : state.Invariant) :
    (state.apply event).Invariant := by
  cases event with
  | search query =>
    simp only [apply]
    split
    case h_1 idle => exact invariant_request query state.mSort invariant idle
    case h_2 => exact invariant
  | setSort sort =>
    simp only [apply]
    split
    case h_1 idle => exact invariant_request state.mQuery sort invariant idle
    case h_2 => exact invariant
  | ui => exact invariant_uiStep invariant
  | worker refused => exact invariant_workerStep refused invariant

theorem invariant_run (query : Option CodeUnits) (sort : SearchSort) (events : List Event) :
    (run query sort events).Invariant :=
  Runs.invariant_foldl apply Invariant (fun _ event invariant => invariant_apply event invariant) events
    (invariant_start query sort)

end State

/-- Whatever the interleaving, `setQuery` is never refused and at most one runnable waits; each
search that starts has the query and the order of one request; and when the worker has nothing
to do, the last search that it started is the last request that `search` handed over. -/
theorem no_request_lost (query : Option CodeUnits) (sort : SearchSort) (events : List Event) :
    let state := State.run query sort events
    (∀ answer ∈ state.answers, answer = true) ∧ state.queue.length ≤ 1 ∧
    (∀ request ∈ state.started, request ∈ state.requests.map Request.prepared) ∧
    (state.worker = .idle → state.queue = [] →
      state.started.getLast? = state.requested.getLast?.map Request.prepared) := by
  intro state
  have invariant : state.Invariant := State.invariant_run query sort events
  refine ⟨invariant.answers, invariant.queue_length, invariant.started, ?_⟩
  intro idle empty
  have carried := invariant.carried
  simpa [State.carried, State.unstarted, State.editable, idle, empty, Worker.taken, Worker.editable] using carried

-- A second letter is typed while the worker has taken the runnable and waits for the UI thread.
example :
    (State.run none .relevance [.search (some [97]), .ui, .ui, .ui, .worker false, .search (some [97, 98, 99]), .ui,
      .worker false, .ui, .ui, .ui, .worker false, .worker false, .worker false, .worker false, .worker false]).started =
    [⟨some [97, 98, 99, star], .relevance⟩] := by
  decide +kernel

end Aelf.Bible.Search
