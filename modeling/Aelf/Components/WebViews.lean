import Aelf.Library.BoundedQueue
import Aelf.Library.Runs
import Mathlib.Data.List.Nodup
import Mathlib.Logic.Function.Basic

/-! # The pool of web views

Every page that is open, a reading or a chapter, borrows a web view when its view is
created and gives it back when its view is destroyed.  `WebViewPool` keeps what comes back
for the next page, up to its capacity; `WebViewPoolStub` keeps nothing.  Web views are
numbered in the order in which they are created.  An exception is `none`. -/

namespace Aelf.Components.WebViews

open Aelf.Library

variable {ι : Type}

/-! ## Web views -/

/-- The base of the `MutableContextWrapper` of a web view. -/
inductive Context where
  | application
  | activity (number : Nat)
deriving DecidableEq, Repr

structure WebSettings where
  builtInZoomControls : Bool
  javaScriptEnabled : Bool
  domStorageEnabled : Bool
deriving DecidableEq, Repr

/-- What `loadDataWithBaseURL` is given besides its constants. -/
structure Page where
  content : String
  historyURL : String
deriving DecidableEq, Repr

/-- A web view, with the fragment whose client and whose touch listener it has. -/
structure WebView (ι : Type) where
  baseContext : Context
  backgroundColor : Nat
  settings : WebSettings
  webViewClient : Option ι
  onTouchListener : Option ι
  page : Option Page

def commonSettings : WebSettings where
  builtInZoomControls := false
  javaScriptEnabled := true
  domStorageEnabled := true

def newWebView (baseContext : Context) : WebView ι where
  baseContext := baseContext
  backgroundColor := 0x00000000
  settings := commonSettings
  webViewClient := none
  onTouchListener := none
  page := none

/-! ## The two pools -/

inductive WebViewPoolBase where
  | webViewPool (maxCapacity : Nat) (webViews : BoundedQueue Nat maxCapacity)
  | webViewPoolStub

/-- The web views that wait for a page. -/
def WebViewPoolBase.idle : WebViewPoolBase → List Nat
  | webViewPool _ webViews => webViews.elements
  | webViewPoolStub => []

def WebViewPoolBase.capacity : WebViewPoolBase → Nat
  | webViewPool maxCapacity _ => maxCapacity
  | webViewPoolStub => 0

/-- The web views below `created`, the pool, and the field `mWebView` of every fragment. -/
structure State (ι : Type) where
  webViews : Nat → WebView ι
  created : Nat
  pool : WebViewPoolBase
  mWebView : ι → Option Nat

namespace State

def modify (state : State ι) (webView : Nat) (change : WebView ι → WebView ι) : State ι :=
  { state with webViews := Function.update state.webViews webView (change (state.webViews webView)) }

def createWebView (state : State ι) (baseContext : Context) : Nat × State ι :=
  (state.created,
    { state with
      webViews := Function.update state.webViews state.created (newWebView baseContext)
      created := state.created + 1 })

def setBaseContext (state : State ι) (webView : Nat) (baseContext : Context) : State ι :=
  state.modify webView fun view => { view with baseContext := baseContext }

def borrowWebView (state : State ι) (ctx : Context) : Nat × State ι :=
  match state.pool with
  | .webViewPoolStub => state.createWebView ctx
  | .webViewPool maxCapacity webViews =>
    let (webView, state) : Nat × State ι :=
      match webViews.poll with
      | (some webView, webViews) => (webView, { state with pool := .webViewPool maxCapacity webViews })
      | (none, _) => state.createWebView ctx
    (webView, state.setBaseContext webView ctx)

def releaseWebView (state : State ι) (webView : Nat) : State ι :=
  match state.pool with
  | .webViewPoolStub => state
  | .webViewPool maxCapacity webViews =>
    let state := state.setBaseContext webView .application
    { state with pool := .webViewPool maxCapacity (webViews.offer webView) }

/-- The loop of the constructor of `WebViewPool`; `add` throws when the queue is full. -/
def fill (maxCapacity : Nat) : Nat → State ι → BoundedQueue Nat maxCapacity → Option (State ι)
  | 0, state, webViews => some { state with pool := .webViewPool maxCapacity webViews }
  | count + 1, state, webViews => do
    let (webView, state) := state.createWebView .application
    fill maxCapacity count state (← webViews.add webView)

end State

/-- No web view and no fragment yet; the pool is not there before it is initialized. -/
def start : State ι where
  webViews := fun _ => newWebView .application
  created := 0
  pool := .webViewPoolStub
  mWebView := fun _ => none

/-- `WebViewPoolManager.Initialize`, called once.  A queue without any capacity is refused, and the cache is cleared
through the first web view of the pool. -/
def initializePool (isBrokenSurfaceImplementation : Bool) (initialCapacity maxCapacity : Nat) : Option (State ι) :=
  if isBrokenSurfaceImplementation then some start
  else if maxCapacity = 0 then none
  else do
    let state ← start.fill maxCapacity initialCapacity .empty
    if state.pool.idle = [] then none else return state

/-! ## The life of a page -/

inductive Event (ι : Type) where
  /-- The page that `loadText` finds, if any. -/
  | onViewCreated (fragment : ι) (ctx : Context) (page : Option Page)
  | loadText (fragment : ι) (page : Option Page)
  /-- Whether `getView` still finds the root view. -/
  | onDestroyView (fragment : ι) (rootView : Bool)

/-- A page is not destroyed after its root view. -/
def Event.FindsRootView : Event ι → Prop
  | onDestroyView _ rootView => rootView = true
  | _ => True

namespace State

variable [DecidableEq ι]

def setWebViewContent (state : State ι) (fragment : ι) (page : Page) : State ι :=
  match state.mWebView fragment with
  | none => state
  | some webView => state.modify webView fun view => { view with page := some page }

def loadText (state : State ι) (fragment : ι) : Option Page → State ι
  | none => state
  | some page => state.setWebViewContent fragment page

def onViewCreated (state : State ι) (fragment : ι) (ctx : Context) (page : Option Page) : State ι :=
  let (webView, state) := state.borrowWebView ctx
  let state := { state with mWebView := Function.update state.mWebView fragment (some webView) }
  let state := state.modify webView fun view =>
    { view with webViewClient := some fragment, onTouchListener := some fragment }
  state.loadText fragment page

def onDestroyView (state : State ι) (fragment : ι) (rootView : Bool) : Option (State ι) :=
  if rootView then do
    let webView ← state.mWebView fragment
    let state := state.modify webView fun view => { view with onTouchListener := none, webViewClient := none }
    let state := state.releaseWebView webView
    return { state with mWebView := Function.update state.mWebView fragment none }
  else return state

def apply (state : State ι) : Event ι → Option (State ι)
  | .onViewCreated fragment ctx page => some (state.onViewCreated fragment ctx page)
  | .loadText fragment page => some (state.loadText fragment page)
  | .onDestroyView fragment rootView => state.onDestroyView fragment rootView

def run (state : State ι) (events : List (Event ι)) : Option (State ι) := events.foldlM apply state

end State

/-! ## What the pages show -/

/-- The context of an open page, and what it has loaded since its view was created. -/
structure Shown where
  ctx : Context
  page : Option Page

/-- The pages that are open, each with a view that is its own. -/
structure Pages (ι : Type) where
  opened : List ι
  shown : ι → Shown

namespace Pages

/-- No page is open yet. -/
def closed : Pages ι where
  opened := []
  shown := fun _ => ⟨.application, none⟩

variable [DecidableEq ι]

def apply (pages : Pages ι) : Event ι → Pages ι
  | .onViewCreated fragment ctx page =>
    { opened := fragment :: pages.opened, shown := Function.update pages.shown fragment ⟨ctx, page⟩ }
  | .loadText fragment page =>
    let shown := pages.shown fragment
    { pages with shown := Function.update pages.shown fragment { shown with page := page.or shown.page } }
  | .onDestroyView fragment _ => { pages with opened := pages.opened.erase fragment }

/-- The view of a fragment is created when it has none, and destroyed when it has one. -/
def Allows (pages : Pages ι) : Event ι → Prop
  | .onViewCreated fragment _ _ => fragment ∉ pages.opened
  | .loadText _ _ => True
  | .onDestroyView fragment _ => fragment ∈ pages.opened

/-- The most pages that are open at a time. -/
def peak (pages : Pages ι) : List (Event ι) → Nat
  | [] => pages.opened.length
  | event :: events => max pages.opened.length ((pages.apply event).peak events)

theorem opened_le_peak (pages : Pages ι) (events : List (Event ι)) : pages.opened.length ≤ pages.peak events := by
  cases events with
  | nil => exact Nat.le_refl _
  | cons event events => exact Nat.le_max_left _ _

theorem apply_loadText_none (pages : Pages ι) (fragment : ι) : pages.apply (.loadText fragment none) = pages := by
  simp [apply]

/-- A view is created empty, and then loads its page. -/
theorem apply_onViewCreated (pages : Pages ι) (fragment : ι) (ctx : Context) (page : Option Page) :
    pages.apply (.onViewCreated fragment ctx page) =
      (pages.apply (.onViewCreated fragment ctx none)).apply (.loadText fragment page) := by
  simp [apply]

end Pages

/-- A web view does what the fragment asks of it, in the context of the fragment and with its page. -/
structure WebView.Displays (view : WebView ι) (fragment : ι) (shown : Shown) : Prop where
  baseContext : view.baseContext = shown.ctx
  webViewClient : view.webViewClient = some fragment
  onTouchListener : view.onTouchListener = some fragment
  page : ∀ page, shown.page = some page → view.page = some page

/-- A web view that refers to no activity and to no fragment. -/
structure WebView.Detached (view : WebView ι) : Prop where
  baseContext : view.baseContext = .application
  webViewClient : view.webViewClient = none
  onTouchListener : view.onTouchListener = none

namespace State

structure Invariant (pages : Pages ι) (state : State ι) : Prop where
  opened : pages.opened.Nodup
  displays : ∀ fragment ∈ pages.opened, ∃ webView, state.mWebView fragment = some webView ∧
    (state.webViews webView).Displays fragment (pages.shown fragment)
  separate : ∀ fragment other webView, state.mWebView fragment = some webView →
    state.mWebView other = some webView → fragment = other
  borrowed : ∀ fragment webView, state.mWebView fragment = some webView →
    webView < state.created ∧ webView ∉ state.pool.idle
  nodup : state.pool.idle.Nodup
  idle : ∀ webView ∈ state.pool.idle, webView < state.created ∧ (state.webViews webView).Detached

/-! ## Borrowing and releasing -/

@[simp] theorem modify_pool (state : State ι) (webView : Nat) (change : WebView ι → WebView ι) :
    (state.modify webView change).pool = state.pool := rfl

@[simp] theorem modify_created (state : State ι) (webView : Nat) (change : WebView ι → WebView ι) :
    (state.modify webView change).created = state.created := rfl

@[simp] theorem modify_mWebView (state : State ι) (webView : Nat) (change : WebView ι → WebView ι) :
    (state.modify webView change).mWebView = state.mWebView := rfl

@[simp] theorem modify_self (state : State ι) (webView : Nat) (change : WebView ι → WebView ι) :
    (state.modify webView change).webViews webView = change (state.webViews webView) :=
  Function.update_self _ _ _

theorem modify_of_ne (state : State ι) {webView other : Nat} (change : WebView ι → WebView ι)
    (different : other ≠ webView) : (state.modify webView change).webViews other = state.webViews other :=
  Function.update_of_ne different _ _

/-- What a page that borrows a web view gets. -/
structure Borrowed (state : State ι) (ctx : Context) (webView : Nat) (next : State ι) : Prop where
  baseContext : (next.webViews webView).baseContext = ctx
  others : ∀ other, other ≠ webView → next.webViews other = state.webViews other
  mWebView : next.mWebView = state.mWebView
  capacity : next.pool.capacity = state.pool.capacity
  /-- It is the first that waits, or a new one when none does. -/
  taken : (state.pool.idle = webView :: next.pool.idle ∧ next.created = state.created) ∨
    (state.pool.idle = [] ∧ next.pool.idle = [] ∧ webView = state.created ∧ next.created = state.created + 1)

theorem borrowed_createWebView (state : State ι) (ctx : Context) (nothing : state.pool.idle = []) :
    Borrowed state ctx (state.createWebView ctx).1 (state.createWebView ctx).2 where
  baseContext := by simp [createWebView, newWebView]
  others := fun other different => Function.update_of_ne different _ _
  mWebView := rfl
  capacity := rfl
  taken := .inr ⟨nothing, nothing, rfl, rfl⟩

theorem Borrowed.setBaseContext {state next : State ι} {ctx : Context} {webView : Nat}
    (borrowed : Borrowed state ctx webView next) : Borrowed state ctx webView (next.setBaseContext webView ctx) where
  baseContext := by simp [State.setBaseContext]
  others := fun other different => (modify_of_ne next _ different).trans (borrowed.others other different)
  mWebView := borrowed.mWebView
  capacity := borrowed.capacity
  taken := borrowed.taken

theorem borrowed_borrowWebView (state : State ι) (ctx : Context) :
    Borrowed state ctx (state.borrowWebView ctx).1 (state.borrowWebView ctx).2 := by
  obtain ⟨webViews, created, pool, mWebView⟩ := state
  match pool with
  | .webViewPoolStub => exact borrowed_createWebView _ ctx rfl
  | .webViewPool maxCapacity ⟨[], bounded⟩ => exact (borrowed_createWebView _ ctx rfl).setBaseContext
  | .webViewPool maxCapacity ⟨webView :: waiting, bounded⟩ =>
    exact
      { baseContext := by simp [borrowWebView, BoundedQueue.poll, setBaseContext]
        others := fun other different => Function.update_of_ne different _ _
        mWebView := rfl
        capacity := rfl
        taken := .inl ⟨rfl, rfl⟩ }

/-- A page gets a web view that no page has and that does not wait for one any more. -/
theorem Borrowed.fresh {pages : Pages ι} {state next : State ι} {ctx : Context} {webView : Nat}
    (borrowed : Borrowed state ctx webView next) (invariant : state.Invariant pages) :
    (∀ fragment, state.mWebView fragment ≠ some webView) ∧ webView ∉ next.pool.idle ∧ webView < next.created := by
  rcases borrowed.taken with ⟨first, created⟩ | ⟨-, nothing, new, created⟩
  · have waited : webView ∈ state.pool.idle := first ▸ List.mem_cons_self
    refine ⟨fun fragment held => (invariant.borrowed fragment webView held).2 waited, ?_, ?_⟩
    · have nodup := invariant.nodup
      rw [first] at nodup
      exact (List.nodup_cons.mp nodup).1
    · rw [created]
      exact (invariant.idle webView waited).1
  · refine ⟨fun fragment held => ?_, by simp [nothing], by omega⟩
    have bound := (invariant.borrowed fragment webView held).1
    omega

theorem Borrowed.idle_sublist {state next : State ι} {ctx : Context} {webView : Nat}
    (borrowed : Borrowed state ctx webView next) : next.pool.idle.Sublist state.pool.idle := by
  rcases borrowed.taken with ⟨first, -⟩ | ⟨-, nothing, -⟩
  · rw [first]
    exact List.sublist_cons_self webView _
  · rw [nothing]
    exact List.nil_sublist _

theorem Borrowed.created_le {state next : State ι} {ctx : Context} {webView : Nat}
    (borrowed : Borrowed state ctx webView next) : state.created ≤ next.created := by
  rcases borrowed.taken with ⟨-, created⟩ | ⟨-, -, -, created⟩ <;> omega

/-- What becomes of a web view that a page gives back. -/
structure Released (state : State ι) (webView : Nat) (next : State ι) : Prop where
  others : ∀ other, other ≠ webView → next.webViews other = state.webViews other
  created : next.created = state.created
  mWebView : next.mWebView = state.mWebView
  capacity : next.pool.capacity = state.pool.capacity
  idle : next.pool.idle =
    if state.pool.idle.length < state.pool.capacity then state.pool.idle ++ [webView] else state.pool.idle
  kept : webView ∈ next.pool.idle → webView ∉ state.pool.idle →
    next.webViews webView = { state.webViews webView with baseContext := .application }

theorem released_releaseWebView (state : State ι) (webView : Nat) :
    Released state webView (state.releaseWebView webView) := by
  obtain ⟨webViews, created, pool, mWebView⟩ := state
  match pool with
  | .webViewPoolStub => exact ⟨fun _ _ => rfl, rfl, rfl, rfl, rfl, fun member absent => absurd member absent⟩
  | .webViewPool maxCapacity waiting =>
    exact
      { others := fun other different => Function.update_of_ne different _ _
        created := rfl
        mWebView := rfl
        capacity := rfl
        idle := waiting.elements_offer webView
        kept := fun _ _ => Function.update_self _ _ _ }

/-! ## Steps -/

section Steps

variable [DecidableEq ι] {pages : Pages ι} {state : State ι}

/-- A page loads into its own web view only. -/
theorem invariant_loadText (fragment : ι) (page : Option Page) (invariant : state.Invariant pages) :
    (state.loadText fragment page).Invariant (pages.apply (.loadText fragment page)) := by
  match page with
  | none => rwa [Pages.apply_loadText_none]
  | some page =>
    cases own : state.mWebView fragment with
    | none =>
      have closed : fragment ∉ pages.opened := by
        intro member
        obtain ⟨webView, held, -⟩ := invariant.displays fragment member
        rw [own] at held
        cases held
      have unchanged : state.loadText fragment (some page) = state := by
        simp [loadText, setWebViewContent, own]
      rw [unchanged]
      refine { invariant with displays := ?_ }
      intro other member
      have different : other ≠ fragment := fun same => closed (same ▸ member)
      simp only [Pages.apply, Function.update_of_ne different]
      exact invariant.displays other member
    | some webView =>
      have changed : state.loadText fragment (some page) =
          state.modify webView fun view => { view with page := some page } := by
        simp [loadText, setWebViewContent, own]
      rw [changed]
      refine { invariant with displays := ?_, idle := ?_ }
      · intro other member
        obtain ⟨shows, held, displays⟩ := invariant.displays other member
        refine ⟨shows, held, ?_⟩
        by_cases same : other = fragment
        · obtain rfl := same
          obtain rfl : webView = shows := Option.some.inj (own.symm.trans held)
          simp only [modify_self, Pages.apply, Function.update_self]
          exact { displays with page := fun _ loaded => loaded }
        · have different : shows ≠ webView := by
            intro equal
            exact same (invariant.separate other fragment webView (equal ▸ held) own)
          simp only [modify_of_ne _ _ different, Pages.apply, Function.update_of_ne same]
          exact displays
      · intro waiting member
        have different : waiting ≠ webView := fun equal => (invariant.borrowed fragment webView own).2 (equal ▸ member)
        rw [modify_of_ne _ _ different]
        exact invariant.idle waiting member

theorem onViewCreated_eq_loadText (state : State ι) (fragment : ι) (ctx : Context) (page : Option Page) :
    state.onViewCreated fragment ctx page = (state.onViewCreated fragment ctx none).loadText fragment page := rfl

/-- The fragment installs its client and its touch listener on the web view it has borrowed. -/
theorem invariant_attach {next : State ι} {fragment : ι} {ctx : Context} {webView : Nat}
    (borrowed : Borrowed state ctx webView next) (closed : fragment ∉ pages.opened) (invariant : state.Invariant pages) :
    (({ next with mWebView := Function.update next.mWebView fragment (some webView) } : State ι).modify webView
      fun view => { view with webViewClient := some fragment, onTouchListener := some fragment }).Invariant
      (pages.apply (.onViewCreated fragment ctx none)) := by
  obtain ⟨unheld, gone, bound⟩ := borrowed.fresh invariant
  have sublist := borrowed.idle_sublist
  have later := borrowed.created_le
  refine
    { opened := List.nodup_cons.mpr ⟨closed, invariant.opened⟩
      displays := ?displays
      separate := ?separate
      borrowed := ?borrowed
      nodup := sublist.nodup invariant.nodup
      idle := ?idle }
  case displays =>
    intro other member
    by_cases same : other = fragment
    · obtain rfl := same
      refine ⟨webView, Function.update_self _ _ _, ?_⟩
      simp only [modify_self, Pages.apply, Function.update_self]
      exact ⟨borrowed.baseContext, rfl, rfl, fun _ loaded => nomatch loaded⟩
    · have old : other ∈ pages.opened := List.mem_of_ne_of_mem same member
      obtain ⟨shows, held, displays⟩ := invariant.displays other old
      have different : shows ≠ webView := fun equal => unheld other (equal ▸ held)
      refine ⟨shows, ?_, ?_⟩
      · show Function.update next.mWebView fragment (some webView) other = some shows
        rw [Function.update_of_ne same, borrowed.mWebView]
        exact held
      · simp only [modify_of_ne _ _ different, borrowed.others shows different, Pages.apply,
          Function.update_of_ne same]
        exact displays
  case separate =>
    intro one other shows heldByOne heldByOther
    simp only [modify_mWebView, borrowed.mWebView, Function.update_apply] at heldByOne heldByOther
    split at heldByOne <;> split at heldByOther
    case isTrue.isTrue first second => rw [first, second]
    case isTrue.isFalse =>
      obtain rfl := Option.some.inj heldByOne
      exact absurd heldByOther (unheld other)
    case isFalse.isTrue =>
      obtain rfl := Option.some.inj heldByOther
      exact absurd heldByOne (unheld one)
    case isFalse.isFalse => exact invariant.separate one other shows heldByOne heldByOther
  case borrowed =>
    intro other shows held
    simp only [modify_mWebView, borrowed.mWebView, Function.update_apply] at held
    split at held
    case isTrue =>
      obtain rfl := Option.some.inj held
      exact ⟨bound, gone⟩
    case isFalse =>
      obtain ⟨below, notIdle⟩ := invariant.borrowed other shows held
      exact ⟨Nat.lt_of_lt_of_le below later, fun member => notIdle (sublist.subset member)⟩
  case idle =>
    intro waiting member
    have different : waiting ≠ webView := fun equal => gone (equal ▸ member)
    obtain ⟨below, detached⟩ := invariant.idle waiting (sublist.subset member)
    refine ⟨Nat.lt_of_lt_of_le below later, ?_⟩
    rw [modify_of_ne _ _ different]
    show (next.webViews waiting).Detached
    rw [borrowed.others waiting different]
    exact detached

theorem invariant_onViewCreated {fragment : ι} (ctx : Context) (page : Option Page) (closed : fragment ∉ pages.opened)
    (invariant : state.Invariant pages) :
    (state.onViewCreated fragment ctx page).Invariant (pages.apply (.onViewCreated fragment ctx page)) := by
  rw [onViewCreated_eq_loadText, Pages.apply_onViewCreated]
  apply invariant_loadText
  exact invariant_attach (borrowed_borrowWebView state ctx) closed invariant

/-- The fragment takes its client and its touch listener away before it gives the web view back. -/
theorem invariant_detach {next : State ι} {fragment : ι} {webView : Nat} (own : state.mWebView fragment = some webView)
    (released : Released (state.modify webView fun view => { view with onTouchListener := none, webViewClient := none })
      webView next)
    (invariant : state.Invariant pages) :
    ({ next with mWebView := Function.update next.mWebView fragment none } : State ι).Invariant
      (pages.apply (.onDestroyView fragment true)) := by
  have outside : webView ∉ state.pool.idle := (invariant.borrowed fragment webView own).2
  have held : ∀ {other : ι} {shows : Nat}, Function.update next.mWebView fragment none other = some shows →
      state.mWebView other = some shows ∧ shows ≠ webView := by
    intro other shows holds
    rw [released.mWebView, Function.update_apply] at holds
    split at holds
    case isTrue => cases holds
    case isFalse different =>
      refine ⟨holds, fun equal => different ?_⟩
      exact invariant.separate other fragment webView (equal ▸ holds) own
  have unchanged : ∀ {other : Nat}, other ≠ webView → next.webViews other = state.webViews other :=
    fun different => (released.others _ different).trans (modify_of_ne _ _ different)
  have idle : ∀ waiting ∈ next.pool.idle, waiting ∈ state.pool.idle ∨ waiting = webView := by
    intro waiting member
    rw [released.idle] at member
    split at member
    · simpa using member
    · exact .inl member
  refine
    { opened := invariant.opened.erase fragment
      displays := ?displays
      separate := ?separate
      borrowed := ?borrowed
      nodup := ?nodup
      idle := ?idle }
  case displays =>
    intro other kept
    obtain ⟨different, member⟩ := invariant.opened.mem_erase_iff.mp kept
    obtain ⟨shows, holds, displays⟩ := invariant.displays other member
    have apart : shows ≠ webView := fun equal =>
      different (invariant.separate other fragment webView (equal ▸ holds) own)
    refine ⟨shows, ?_, ?_⟩
    · show Function.update next.mWebView fragment none other = some shows
      rw [Function.update_of_ne different, released.mWebView]
      exact holds
    · show (next.webViews shows).Displays other (pages.shown other)
      rw [unchanged apart]
      exact displays
  case separate =>
    intro one other shows heldByOne heldByOther
    exact invariant.separate one other shows (held heldByOne).1 (held heldByOther).1
  case borrowed =>
    intro other shows holds
    obtain ⟨before, apart⟩ := held holds
    obtain ⟨below, notIdle⟩ := invariant.borrowed other shows before
    exact ⟨released.created ▸ below, fun member => (idle shows member).elim notIdle apart⟩
  case nodup =>
    show next.pool.idle.Nodup
    rw [released.idle]
    split
    · rw [← List.concat_eq_append]
      exact List.Nodup.concat outside invariant.nodup
    · exact invariant.nodup
  case idle =>
    intro waiting member
    by_cases same : waiting = webView
    · obtain rfl := same
      refine ⟨released.created ▸ (invariant.borrowed fragment waiting own).1, ?_⟩
      show (next.webViews waiting).Detached
      rw [released.kept member outside, modify_self]
      exact ⟨rfl, rfl, rfl⟩
    · obtain ⟨below, detached⟩ := invariant.idle waiting ((idle waiting member).resolve_right same)
      refine ⟨released.created ▸ below, ?_⟩
      show (next.webViews waiting).Detached
      rw [unchanged same]
      exact detached

theorem invariant_onDestroyView {fragment : ι} (rootView : Bool) (member : fragment ∈ pages.opened)
    (invariant : state.Invariant pages) :
    ∃ next, state.onDestroyView fragment rootView = some next ∧
      next.Invariant (pages.apply (.onDestroyView fragment rootView)) := by
  cases rootView with
  | false =>
    refine ⟨state, rfl, { invariant with opened := invariant.opened.erase fragment, displays := ?_ }⟩
    exact fun other kept => invariant.displays other (List.mem_of_mem_erase kept)
  | true =>
    obtain ⟨webView, own, -⟩ := invariant.displays fragment member
    refine ⟨_, ?_, invariant_detach own (released_releaseWebView _ webView) invariant⟩
    simp [onDestroyView, own]

theorem invariant_apply (event : Event ι) (allows : pages.Allows event) (invariant : state.Invariant pages) :
    ∃ next, state.apply event = some next ∧ next.Invariant (pages.apply event) := by
  cases event with
  | onViewCreated fragment ctx page => exact ⟨_, rfl, invariant_onViewCreated ctx page allows invariant⟩
  | loadText fragment page => exact ⟨_, rfl, invariant_loadText fragment page invariant⟩
  | onDestroyView fragment rootView => exact invariant_onDestroyView rootView allows invariant

end Steps

/-! ## From the start of the application -/

/-- A pool of web views that have never been lent. -/
structure Filled (maxCapacity : Nat) (state : State ι) : Prop where
  mWebView : state.mWebView = fun _ => none
  detached : ∀ webView, (state.webViews webView).Detached
  idle : state.pool.idle = List.range state.created
  capacity : state.pool.capacity = maxCapacity

theorem filled_fill {maxCapacity count : Nat} {state final : State ι} {webViews : BoundedQueue Nat maxCapacity}
    (filled : Filled maxCapacity { state with pool := .webViewPool maxCapacity webViews })
    (returned : state.fill maxCapacity count webViews = some final) :
    Filled maxCapacity final ∧ final.created = state.created + count := by
  induction count generalizing state webViews with
  | zero =>
    obtain rfl := Option.some.inj returned
    exact ⟨filled, rfl⟩
  | succ count inductionHypothesis =>
    obtain ⟨longer, added, rest⟩ := Option.bind_eq_some_iff.mp returned
    have elements : longer.elements = List.range (state.created + 1) := by
      rw [BoundedQueue.add] at added
      split at added
      · rw [← Option.some.inj added, List.range_succ, ← filled.idle]
        rfl
      · cases added
    have detached : ∀ webView,
        (Function.update state.webViews state.created (newWebView .application) webView).Detached := by
      intro webView
      rw [Function.update_apply]
      split
      · exact ⟨rfl, rfl, rfl⟩
      · exact filled.detached webView
    have next : Filled maxCapacity
        { (state.createWebView .application).2 with pool := .webViewPool maxCapacity longer } :=
      ⟨filled.mWebView, detached, elements, rfl⟩
    obtain ⟨result, created⟩ := inductionHypothesis next rest
    exact ⟨result, created.trans (Nat.succ_add_eq_add_succ state.created count)⟩

theorem filled_start {maxCapacity : Nat} :
    Filled maxCapacity ({ start with pool := .webViewPool maxCapacity .empty } : State ι) :=
  ⟨rfl, fun _ => ⟨rfl, rfl, rfl⟩, rfl, rfl⟩

theorem filled_initializePool {initialCapacity maxCapacity : Nat} {state : State ι}
    (initialized : initializePool false initialCapacity maxCapacity = some state) :
    Filled maxCapacity state ∧ state.created = initialCapacity := by
  simp only [initializePool, Bool.false_eq_true, if_false] at initialized
  split at initialized
  · cases initialized
  · obtain ⟨filled, returned, rest⟩ := Option.bind_eq_some_iff.mp initialized
    split at rest
    · cases rest
    obtain rfl := Option.some.inj rest
    have result := filled_fill filled_start returned
    exact ⟨result.1, result.2.trans (Nat.zero_add initialCapacity)⟩

theorem Filled.invariant {maxCapacity : Nat} {state : State ι} (filled : Filled maxCapacity state) :
    state.Invariant .closed where
  opened := List.nodup_nil
  displays := fun _ member => nomatch member
  separate := fun _ _ _ held => by simp [filled.mWebView] at held
  borrowed := fun _ _ held => by simp [filled.mWebView] at held
  nodup := filled.idle ▸ List.nodup_range
  idle := fun webView member => ⟨List.mem_range.mp (filled.idle ▸ member), filled.detached webView⟩

theorem invariant_initializePool {broken : Bool} {initialCapacity maxCapacity : Nat} {state : State ι}
    (initialized : initializePool broken initialCapacity maxCapacity = some state) : state.Invariant .closed := by
  cases broken with
  | false => exact (filled_initializePool initialized).1.invariant
  | true =>
    obtain rfl := Option.some.inj initialized
    exact
      { opened := List.nodup_nil
        displays := fun _ member => nomatch member
        separate := fun _ _ _ held => nomatch held
        borrowed := fun _ _ held => nomatch held
        nodup := List.nodup_nil
        idle := fun _ member => nomatch member }

/-! ## Whole runs -/

theorem loadText_pool (state : State ι) (fragment : ι) (page : Option Page) :
    (state.loadText fragment page).pool = state.pool := by
  cases page with
  | none => rfl
  | some page =>
    simp only [loadText, setWebViewContent]
    cases state.mWebView fragment <;> rfl

theorem loadText_created (state : State ι) (fragment : ι) (page : Option Page) :
    (state.loadText fragment page).created = state.created := by
  cases page with
  | none => rfl
  | some page =>
    simp only [loadText, setWebViewContent]
    cases state.mWebView fragment <;> rfl

/-- Every web view waits or is with a page. -/
def Counted (pages : Pages ι) (state : State ι) : Prop :=
  state.created = state.pool.idle.length + pages.opened.length

theorem counted_borrow {pages : Pages ι} {state next : State ι} {ctx : Context} {webView : Nat}
    (borrowed : Borrowed state ctx webView next) (counted : state.Counted pages) :
    next.created = next.pool.idle.length + (pages.opened.length + 1) ∧
      next.created = max state.created (pages.opened.length + 1) := by
  simp only [Counted] at counted
  rcases borrowed.taken with ⟨first, created⟩ | ⟨nothing, still, -, created⟩
  · have longer : state.pool.idle.length = next.pool.idle.length + 1 := by rw [first, List.length_cons]
    omega
  · simp only [nothing, still, List.length_nil] at counted ⊢
    omega

section Runs

variable [DecidableEq ι]

theorem capacity_apply {state next : State ι} {event : Event ι} (applied : state.apply event = some next) :
    next.pool.capacity = state.pool.capacity := by
  cases event with
  | onViewCreated fragment ctx page =>
    obtain rfl := Option.some.inj applied
    show ((state.onViewCreated fragment ctx none).loadText fragment page).pool.capacity = _
    rw [loadText_pool]
    exact (borrowed_borrowWebView state ctx).capacity
  | loadText fragment page =>
    obtain rfl := Option.some.inj applied
    rw [loadText_pool]
  | onDestroyView fragment rootView =>
    cases rootView with
    | false => rw [← Option.some.inj applied]
    | true =>
      obtain ⟨webView, -, released⟩ := Option.bind_eq_some_iff.mp applied
      rw [← Option.some.inj released]
      exact (released_releaseWebView _ webView).capacity

theorem invariant_run {pages : Pages ι} {state : State ι} {events : List (Event ι)}
    (lifecycle : Runs.Allowed Pages.apply Pages.Allows pages events) (invariant : state.Invariant pages) :
    ∃ final, state.run events = some final ∧ final.Invariant (events.foldl Pages.apply pages) ∧
      final.pool.capacity = state.pool.capacity := by
  refine Runs.simulation_foldlM apply Pages.apply
    (fun pages next => next.Invariant pages ∧ next.pool.capacity = state.pool.capacity) ?_ lifecycle ⟨invariant, rfl⟩
  rintro pages before event allows ⟨invariant, capacity⟩
  obtain ⟨next, applied, kept⟩ := invariant_apply event allows invariant
  exact ⟨next, applied, kept, (capacity_apply applied).trans capacity⟩

/-- Every page that is open has a web view that no other page has, in its own context and with the page that it
loaded last, whichever of the two pools lends the web views. -/
theorem opened_pages_displayed {broken : Bool} {initialCapacity maxCapacity : Nat} {state : State ι}
    (initialized : initializePool broken initialCapacity maxCapacity = some state) (events : List (Event ι))
    (lifecycle : Runs.Allowed Pages.apply Pages.Allows .closed events) :
    ∃ final, state.run events = some final ∧
      ∀ fragment ∈ (events.foldl Pages.apply Pages.closed).opened, ∃ webView,
        final.mWebView fragment = some webView ∧
        (final.webViews webView).Displays fragment ((events.foldl Pages.apply Pages.closed).shown fragment) ∧
        ∀ other, final.mWebView other = some webView → other = fragment := by
  obtain ⟨final, ran, invariant, -⟩ := invariant_run lifecycle (invariant_initializePool initialized)
  refine ⟨final, ran, fun fragment member => ?_⟩
  obtain ⟨webView, held, displays⟩ := invariant.displays fragment member
  exact ⟨webView, held, displays, fun other holds => invariant.separate other fragment webView holds held⟩

theorem opened_pages_displayed_on_reuse :
    ∃ state : State Nat, initializePool false 4 6 = some state ∧
      ∃ final, state.run [.onViewCreated 0 (.activity 0) (some ⟨"Gn 1", ""⟩), .onDestroyView 0 true,
          .onViewCreated 1 (.activity 1) (some ⟨"Gn 2", ""⟩)] = some final ∧
        ∀ fragment ∈ [1], ∃ webView, final.mWebView fragment = some webView ∧
          (final.webViews webView).Displays fragment ⟨.activity 1, some ⟨"Gn 2", ""⟩⟩ ∧
          ∀ other, final.mWebView other = some webView → other = fragment := by
  refine ⟨_, rfl, ?_⟩
  obtain ⟨final, ran, displayed⟩ := opened_pages_displayed (rfl : initializePool false 4 6 = some _)
    [.onViewCreated 0 (.activity 0) (some ⟨"Gn 1", ""⟩), .onDestroyView 0 true,
      .onViewCreated 1 (.activity 1) (some ⟨"Gn 2", ""⟩)]
    (by simp [Runs.Allowed, Pages.Allows, Pages.apply, Pages.closed])
  refine ⟨final, ran, fun fragment member => ?_⟩
  obtain rfl := List.mem_singleton.mp member
  exact displayed 1 List.mem_cons_self

theorem idle_length_le_capacity (pool : WebViewPoolBase) : pool.idle.length ≤ pool.capacity := by
  cases pool with
  | webViewPool maxCapacity webViews => exact webViews.bounded
  | webViewPoolStub => exact Nat.le_refl 0

/-- The pool keeps no more web views than its capacity, each once and none that a page has, and none of them refers
to an activity or to a fragment any more. -/
theorem idle_web_views_detached {broken : Bool} {initialCapacity maxCapacity : Nat} {state : State ι}
    (initialized : initializePool broken initialCapacity maxCapacity = some state) (events : List (Event ι))
    (lifecycle : Runs.Allowed Pages.apply Pages.Allows .closed events) :
    ∃ final, state.run events = some final ∧
      final.pool.idle.Nodup ∧ final.pool.idle.length ≤ maxCapacity ∧
      ∀ webView ∈ final.pool.idle,
        (final.webViews webView).Detached ∧ ∀ fragment, final.mWebView fragment ≠ some webView := by
  obtain ⟨final, ran, invariant, capacity⟩ := invariant_run lifecycle (invariant_initializePool initialized)
  refine ⟨final, ran, invariant.nodup, ?_, fun webView member => ⟨(invariant.idle webView member).2, ?_⟩⟩
  · refine Nat.le_trans (idle_length_le_capacity final.pool) (capacity ▸ ?_)
    cases broken with
    | false => exact Nat.le_of_eq (filled_initializePool initialized).1.capacity
    | true =>
      obtain rfl := Option.some.inj initialized
      exact Nat.zero_le maxCapacity
  · exact fun fragment held => (invariant.borrowed fragment webView held).2 member

theorem idle_web_views_detached_after_reading :
    ∃ state : State Nat, initializePool false 4 6 = some state ∧
      ∃ final, state.run [.onViewCreated 0 (.activity 0) (some ⟨"Gn 1", ""⟩), .onDestroyView 0 true] = some final ∧
        final.pool.idle.Nodup ∧ final.pool.idle.length ≤ 6 ∧
        ∀ webView ∈ final.pool.idle,
          (final.webViews webView).Detached ∧ ∀ fragment, final.mWebView fragment ≠ some webView :=
  ⟨_, rfl, idle_web_views_detached (rfl : initializePool false 4 6 = some _) _
    (by simp [Runs.Allowed, Pages.Allows, Pages.apply, Pages.closed])⟩

/-! ## How many web views are created -/

/-- There is room for a web view that comes back, so none is given up. -/
theorem counted_release {pages : Pages ι} {state next : State ι} {webView : Nat} {fragment : ι}
    (released : Released state webView next) (member : fragment ∈ pages.opened) (counted : state.Counted pages)
    (room : state.created ≤ state.pool.capacity) :
    next.created = next.pool.idle.length + (pages.opened.erase fragment).length := by
  have fewer : (pages.opened.erase fragment).length + 1 = pages.opened.length := by
    rw [List.length_erase_of_mem member]
    exact Nat.sub_add_cancel (List.length_pos_of_mem member)
  simp only [Counted] at counted
  have fits : state.pool.idle.length < state.pool.capacity := by omega
  rw [released.created, released.idle, if_pos fits, List.length_append, List.length_singleton]
  omega

/-- One step creates a web view only for a page more than there have been web views. -/
theorem counted_apply {pages : Pages ι} {state next : State ι} {event : Event ι} (rooted : event.FindsRootView)
    (allows : pages.Allows event) (counted : state.Counted pages) (room : state.created ≤ state.pool.capacity)
    (applied : state.apply event = some next) :
    next.Counted (pages.apply event) ∧ next.created = max state.created (pages.apply event).opened.length := by
  have known : pages.opened.length ≤ state.created := by
    rw [counted]
    exact Nat.le_add_left _ _
  cases event with
  | onViewCreated fragment ctx page =>
    obtain rfl := Option.some.inj applied
    rw [onViewCreated_eq_loadText, Counted, loadText_pool, loadText_created]
    have count := counted_borrow (borrowed_borrowWebView state ctx) counted
    exact count
  | loadText fragment page =>
    obtain rfl := Option.some.inj applied
    rw [Counted, loadText_pool, loadText_created]
    exact ⟨counted, (Nat.max_eq_left known).symm⟩
  | onDestroyView fragment rootView =>
    obtain rfl : rootView = true := rooted
    obtain ⟨webView, -, detached⟩ := Option.bind_eq_some_iff.mp applied
    obtain rfl := Option.some.inj detached
    have released := released_releaseWebView
      (state.modify webView fun view => { view with onTouchListener := none, webViewClient := none }) webView
    have count := counted_release released allows counted room
    refine ⟨count, ?_⟩
    have fewer : (pages.opened.erase fragment).length ≤ pages.opened.length := List.length_erase_le
    exact released.created.trans (Nat.max_eq_left (Nat.le_trans fewer known)).symm

theorem created_run {pages : Pages ι} {state : State ι} {events : List (Event ι)}
    (rooted : ∀ event ∈ events, event.FindsRootView)
    (lifecycle : Runs.Allowed Pages.apply Pages.Allows pages events) (invariant : state.Invariant pages)
    (counted : state.Counted pages) (room : state.created ≤ state.pool.capacity)
    (peak : pages.peak events ≤ state.pool.capacity) :
    ∃ final, state.run events = some final ∧ final.created = max state.created (pages.peak events) := by
  induction events generalizing pages state with
  | nil =>
    refine ⟨state, rfl, ?_⟩
    show state.created = max state.created pages.opened.length
    rw [Counted] at counted
    omega
  | cons event events inductionHypothesis =>
    obtain ⟨allows, rest⟩ := lifecycle
    obtain ⟨next, applied, kept⟩ := invariant_apply event allows invariant
    obtain ⟨countedNext, created⟩ := counted_apply (rooted event List.mem_cons_self) allows counted room applied
    have capacity := capacity_apply applied
    have opened := (pages.apply event).opened_le_peak events
    simp only [Pages.peak] at peak ⊢
    have later : ∀ event ∈ events, event.FindsRootView := fun event member =>
      rooted event (List.mem_cons_of_mem _ member)
    obtain ⟨final, ran, total⟩ := inductionHypothesis later rest kept countedNext (by omega) (by omega)
    refine ⟨final, ?_, ?_⟩
    · rw [run, List.foldlM_cons, applied]
      exact ran
    · rw [Counted] at counted
      omega

/-- As long as no more pages are open at a time than the pool can keep, the application creates the web views of its
start and then one for each page beyond them, however many pages are opened in the end. -/
theorem created_eq_peak {initialCapacity maxCapacity : Nat} {state : State ι}
    (initialized : initializePool false initialCapacity maxCapacity = some state) (events : List (Event ι))
    (lifecycle : Runs.Allowed Pages.apply Pages.Allows .closed events)
    (rooted : ∀ event ∈ events, event.FindsRootView) (peak : Pages.closed.peak events ≤ maxCapacity) :
    ∃ final, state.run events = some final ∧ final.created = max initialCapacity (Pages.closed.peak events) := by
  obtain ⟨filled, created⟩ := filled_initializePool initialized
  have counted : state.Counted .closed := by
    rw [Counted, filled.idle, List.length_range]
    rfl
  have room : state.created ≤ state.pool.capacity := by
    rw [counted]
    exact idle_length_le_capacity state.pool
  obtain ⟨final, ran, total⟩ := created_run rooted lifecycle filled.invariant counted room (filled.capacity ▸ peak)
  exact ⟨final, ran, created ▸ total⟩

theorem created_eq_peak_of_two_pages :
    ∃ state : State Nat, initializePool false 1 6 = some state ∧
      ∃ final, state.run [.onViewCreated 0 (.activity 0) none, .onViewCreated 1 (.activity 0) none,
          .onDestroyView 0 true, .onViewCreated 2 (.activity 0) none, .onDestroyView 1 true] = some final ∧
        final.created = max 1 2 :=
  ⟨_, rfl, created_eq_peak (rfl : initializePool false 1 6 = some _) _
    (by simp [Runs.Allowed, Pages.Allows, Pages.apply, Pages.closed]) (by simp [Event.FindsRootView]) (by decide)⟩

end Runs

end State

end Aelf.Components.WebViews
