import Mathlib.Logic.Function.Basic

/-! # `ReadingPinchToZoomListener`

Every open page has a listener with a zoom of its own, and the font size is also a
preference.  A listener writes the preference before it changes its own zoom, and the
write calls all the listeners, this one included, before it returns.  The calls are
given fuel, so that their end is something to prove. -/

namespace Aelf.Components.PinchToZoom

/-! ## The state -/

def minZoomLevel : Int := 100

def maxZoomLevel : Int := 700

/-- The web view of a listener.  Its parent has no width until it is visible. -/
structure Page where
  parentWidth : Int
  measuredWidth : Int
  textZoom : Int
  matchConstraintMaxWidth : Int

structure Listener where
  currentZoom : Int
  enabled : Bool
  page : Page

inductive Key where
  | fontSize
  | pinchToZoom

/-- The two preferences, absent until they are first written, and the listeners that were constructed.  Those
below `registered` are registered. -/
structure State where
  fontSize : Option Int
  pinchToZoom : Option Bool
  listeners : Nat → Listener
  registered : Nat

/-- The width in pixels of an unzoomed page, and the order in which a write calls the listeners. -/
structure Platform where
  base_width : Int
  notified : State → List Nat
  notified_perm : ∀ state, (notified state).Perm (List.range state.registered)

def State.modify (state : State) (listener : Nat) (change : Listener → Listener) : State :=
  { state with listeners := Function.update state.listeners listener (change (state.listeners listener)) }

/-! ## The mutual calls -/

def cropZoom (zoom : Int) : Int := min (max zoom minZoomLevel) maxZoomLevel

/-- What a listener and its page become at the end of `setCurrentZoom`. -/
def Listener.applyZoom (base_width : Int) (listener : Listener) (zoomLevel : Int) : Listener :=
  let page := listener.page
  let new_width := min ((base_width * zoomLevel).tdiv 100) page.parentWidth
  { listener with
    currentZoom := zoomLevel
    page :=
      if page.parentWidth = 0 then page
      else { page with
        textZoom := zoomLevel
        matchConstraintMaxWidth :=
          if page.measuredWidth ≠ new_width then new_width else page.matchConstraintMaxWidth } }

def State.applyZoom (platform : Platform) (state : State) (listener : Nat) (zoomLevel : Int) : State :=
  state.modify listener fun listener => listener.applyZoom platform.base_width zoomLevel

/-- `getInt(KEY_PREF_DISP_FONT_SIZE, 100)` -/
def onZoomStart (state : State) : Int := state.fontSize.getD 100

def onSharedPreferenceChanged (onZoomEnd : State → Nat → Int → Option State) (key : Option Key) (state : State)
    (listener : Nat) : Option State :=
  match key with
  | none => some state
  | some .fontSize => onZoomEnd state listener (state.fontSize.getD 100)
  | some .pinchToZoom =>
    some (state.modify listener fun listener => { listener with enabled := state.pinchToZoom.getD true })

/-- A write of the font size calls every registered listener when the value is a new one. -/
def putFontSize (platform : Platform) (callback : State → Nat → Option State) (state : State) (value : Int) :
    Option State :=
  if state.fontSize = some value then some state
  else
    let state := { state with fontSize := some value }
    (platform.notified state).foldlM callback state

def putPinchToZoom (platform : Platform) (callback : State → Nat → Option State) (state : State) (value : Bool) :
    Option State :=
  if state.pinchToZoom = some value then some state
  else
    let state := { state with pinchToZoom := some value }
    (platform.notified state).foldlM callback state

/-- `none` when the fuel runs out.  The settings and the parent of a web view are there once its listener has been
constructed. -/
def setCurrentZoom (platform : Platform) : Nat → State → Nat → Int → Option State
  | 0, _, _, _ => none
  | fuel + 1, state, listener, zoomLevel =>
    let zoomLevel := cropZoom zoomLevel
    let saved :=
      if (state.listeners listener).currentZoom ≠ zoomLevel then
        putFontSize platform (onSharedPreferenceChanged (setCurrentZoom platform fuel) (some .fontSize)) state zoomLevel
      else some state
    saved.map fun state => state.applyZoom platform listener zoomLevel

def onZoom (platform : Platform) (fuel : Nat) (state : State) (listener : Nat) (zoomLevel : Int) : Option State :=
  setCurrentZoom platform fuel state listener zoomLevel

def onZoomEnd (platform : Platform) (fuel : Nat) (state : State) (listener : Nat) (zoomLevel : Int) : Option State :=
  setCurrentZoom platform fuel state listener zoomLevel

/-! ## Operations -/

inductive Operation where
  | construct (page : Page)
  /-- A pinch goes on, or ends, with any zoom. -/
  | onZoom (listener : Nat) (zoomLevel : Int)
  | onZoomEnd (listener : Nat) (zoomLevel : Int)
  /-- The bar of the settings keeps within its bounds. -/
  | setFontSize (value : Int) (inBar : minZoomLevel ≤ value ∧ value ≤ maxZoomLevel)
  | setPinchToZoom (value : Bool)
  | onLayoutChange (listener : Nat) (parentWidth measuredWidth : Int)

namespace Operation

def run (platform : Platform) (fuel : Nat) (state : State) : Operation → Option State
  | construct page => do
    let listener := state.registered
    let constructed : Listener := ⟨0, state.pinchToZoom.getD true, page⟩
    let state := state.modify listener fun _ => constructed
    let state ← PinchToZoom.onZoomEnd platform fuel state listener (onZoomStart state)
    return { state with registered := listener + 1 }
  | onZoom listener zoomLevel => PinchToZoom.onZoom platform fuel state listener zoomLevel
  | onZoomEnd listener zoomLevel => PinchToZoom.onZoomEnd platform fuel state listener zoomLevel
  | setFontSize value _ =>
    putFontSize platform (onSharedPreferenceChanged (PinchToZoom.onZoomEnd platform fuel) (some .fontSize)) state value
  | setPinchToZoom value =>
    putPinchToZoom platform (onSharedPreferenceChanged (PinchToZoom.onZoomEnd platform fuel) (some .pinchToZoom)) state
      value
  | onLayoutChange listener parentWidth measuredWidth =>
    let oldWidth := (state.listeners listener).page.parentWidth
    let state := state.modify listener fun listener =>
      { listener with page := { listener.page with parentWidth := parentWidth, measuredWidth := measuredWidth } }
    if parentWidth ≠ oldWidth then
      PinchToZoom.onZoomEnd platform fuel state listener (state.listeners listener).currentZoom
    else some state

/-- Only a listener that has been constructed is touched or laid out. -/
def Possible (state : State) : Operation → Prop
  | onZoom listener _ | onZoomEnd listener _ | onLayoutChange listener _ _ => listener < state.registered
  | construct _ | setFontSize _ _ | setPinchToZoom _ => True

/-- The calls come to an end, with this state. -/
def Completes (platform : Platform) (operation : Operation) (state next : State) : Prop :=
  ∃ enough, ∀ fuel, enough ≤ fuel → operation.run platform fuel state = some next

/-- All but the switch of the pinch gesture. -/
def concernsZoom : Operation → Bool
  | setPinchToZoom _ => false
  | _ => true

end Operation

/-- From any preferences and no listener, by operations that come to an end.  The flag tells whether one of them
was about the zoom. -/
inductive Reachable : Bool → State → Prop where
  | start {state : State} (noListener : state.registered = 0) : Reachable false state
  | step {operated : Bool} {state next : State} (platform : Platform) (operation : Operation)
      (reachable : Reachable operated state) (possible : operation.Possible state)
      (completes : operation.Completes platform state next) :
      Reachable (operated || operation.concernsZoom) next

/-- The preference and every registered listener have the same zoom. -/
structure State.AllAt (zoom : Int) (state : State) : Prop where
  stored : state.fontSize = some zoom
  inRange : minZoomLevel ≤ zoom ∧ zoom ≤ maxZoomLevel
  agree : ∀ listener < state.registered, (state.listeners listener).currentZoom = zoom

def State.Consistent (state : State) : Prop := ∃ zoom, state.AllAt zoom

/-! ## What a change leaves alone -/

section

variable (state : State) (listener : Nat) (change : Listener → Listener)

theorem State.listeners_modify_self :
    (state.modify listener change).listeners listener = change (state.listeners listener) :=
  Function.update_self _ _ _

theorem State.listeners_modify_of_ne {other : Nat} (different : other ≠ listener) :
    (state.modify listener change).listeners other = state.listeners other :=
  Function.update_of_ne different _ _

/-- A change that keeps the zoom of a listener keeps that of all. -/
theorem State.currentZoom_modify {change : Listener → Listener}
    (keeps : (change (state.listeners listener)).currentZoom = (state.listeners listener).currentZoom) (other : Nat) :
    ((state.modify listener change).listeners other).currentZoom = (state.listeners other).currentZoom := by
  by_cases same : other = listener
  · rw [same, listeners_modify_self, keeps]
  · rw [listeners_modify_of_ne _ _ _ same]

end

section

variable {platform : Platform} {state : State} {zoom : Int}

theorem cropZoom_bounds (zoom : Int) : minZoomLevel ≤ cropZoom zoom ∧ cropZoom zoom ≤ maxZoomLevel := by
  unfold cropZoom minZoomLevel maxZoomLevel
  omega

theorem cropZoom_of_inRange (inRange : minZoomLevel ≤ zoom ∧ zoom ≤ maxZoomLevel) : cropZoom zoom = zoom := by
  unfold cropZoom
  omega

theorem currentZoom_applyZoom_self (platform : Platform) (state : State) (listener : Nat) (zoom : Int) :
    ((state.applyZoom platform listener zoom).listeners listener).currentZoom = zoom := by
  rw [State.applyZoom, State.listeners_modify_self]
  rfl

theorem State.AllAt.applyZoom (allAt : state.AllAt zoom) (platform : Platform) (listener : Nat) :
    (state.applyZoom platform listener zoom).AllAt zoom := by
  refine ⟨allAt.stored, allAt.inRange, ?_⟩
  intro other registered
  by_cases same : other = listener
  · rw [same, currentZoom_applyZoom_self]
  · rw [State.applyZoom, State.listeners_modify_of_ne _ _ _ same]
    exact allAt.agree other registered

/-! ## The end of the calls -/

/-- A call that finds the zoom in the preference changes its own listener only. -/
theorem setCurrentZoom_of_stored (stored : state.fontSize = some zoom)
    (inRange : minZoomLevel ≤ zoom ∧ zoom ≤ maxZoomLevel) (fuel listener : Nat) :
    setCurrentZoom platform (fuel + 1) state listener zoom = some (state.applyZoom platform listener zoom) := by
  rw [setCurrentZoom]
  simp only [cropZoom_of_inRange inRange, putFontSize, if_pos stored, ite_self, Option.map_some]

/-- The listeners after the calls of a write, one after the other. -/
def applyToAll (platform : Platform) (state : State) (zoom : Int) (listeners : List Nat) : State :=
  listeners.foldl (fun state listener => state.applyZoom platform listener zoom) state

/-- The calls of a write find its value, and so they call nobody in turn. -/
theorem foldlM_onSharedPreferenceChanged (stored : state.fontSize = some zoom)
    (inRange : minZoomLevel ≤ zoom ∧ zoom ≤ maxZoomLevel) (fuel : Nat) (listeners : List Nat) :
    listeners.foldlM (onSharedPreferenceChanged (setCurrentZoom platform (fuel + 1)) (some .fontSize)) state =
      some (applyToAll platform state zoom listeners) := by
  induction listeners generalizing state with
  | nil => rfl
  | cons listener listeners inductionHypothesis =>
    have first : onSharedPreferenceChanged (setCurrentZoom platform (fuel + 1)) (some .fontSize) state listener =
        some (state.applyZoom platform listener zoom) := by
      rw [onSharedPreferenceChanged, stored, Option.getD_some]
      exact setCurrentZoom_of_stored stored inRange fuel listener
    rw [List.foldlM_cons, first]
    exact inductionHypothesis stored

theorem applyToAll_frame (listeners : List Nat) :
    (applyToAll platform state zoom listeners).fontSize = state.fontSize ∧
      (applyToAll platform state zoom listeners).registered = state.registered := by
  induction listeners generalizing state with
  | nil => exact ⟨rfl, rfl⟩
  | cons listener listeners inductionHypothesis => exact inductionHypothesis

theorem currentZoom_applyToAll {listeners : List Nat} {listener : Nat}
    (called : listener ∈ listeners ∨ (state.listeners listener).currentZoom = zoom) :
    ((applyToAll platform state zoom listeners).listeners listener).currentZoom = zoom := by
  induction listeners generalizing state with
  | nil => exact called.resolve_left List.not_mem_nil
  | cons first listeners inductionHypothesis =>
    have later : listener ∈ listeners ∨ ((state.applyZoom platform first zoom).listeners listener).currentZoom = zoom →
      ((applyToAll platform state zoom (first :: listeners)).listeners listener).currentZoom = zoom := inductionHypothesis
    apply later
    by_cases same : listener = first
    · rw [same, currentZoom_applyZoom_self]
      exact .inr rfl
    · rw [State.applyZoom, State.listeners_modify_of_ne _ _ _ same]
      exact called.imp_left fun member => (List.mem_cons.mp member).resolve_left same

/-- The state that a write of the font size leaves behind. -/
def written (platform : Platform) (state : State) (zoom : Int) : State :=
  if state.fontSize = some zoom then state
  else
    let state := { state with fontSize := some zoom }
    applyToAll platform state zoom (platform.notified state)

theorem putFontSize_eq (inRange : minZoomLevel ≤ zoom ∧ zoom ≤ maxZoomLevel) (fuel : Nat) :
    putFontSize platform (onSharedPreferenceChanged (setCurrentZoom platform (fuel + 1)) (some .fontSize)) state zoom =
      some (written platform state zoom) := by
  unfold putFontSize written
  split
  next => rfl
  next => exact foldlM_onSharedPreferenceChanged rfl inRange fuel _

theorem written_frame (platform : Platform) (state : State) (zoom : Int) :
    (written platform state zoom).fontSize = some zoom ∧
      (written platform state zoom).registered = state.registered := by
  unfold written
  split
  next stored => exact ⟨stored, rfl⟩
  next => exact applyToAll_frame _

/-- A write of a new value reaches every registered listener. -/
theorem currentZoom_written {listener : Nat} (registered : listener < state.registered)
    (agrees : state.fontSize = some zoom → (state.listeners listener).currentZoom = zoom) :
    ((written platform state zoom).listeners listener).currentZoom = zoom := by
  unfold written
  split
  next stored => exact agrees stored
  next =>
    refine currentZoom_applyToAll (.inl ?_)
    rw [(platform.notified_perm _).mem_iff, List.mem_range]
    exact registered

theorem allAt_written (inRange : minZoomLevel ≤ zoom ∧ zoom ≤ maxZoomLevel)
    (agree : state.fontSize = some zoom → ∀ listener < state.registered, (state.listeners listener).currentZoom = zoom) :
    (written platform state zoom).AllAt zoom := by
  obtain ⟨stored, sameRegistered⟩ := written_frame platform state zoom
  refine ⟨stored, inRange, ?_⟩
  intro listener registered
  rw [sameRegistered] at registered
  exact currentZoom_written registered fun stored => agree stored listener registered

/-- The state that `setCurrentZoom` leaves behind. -/
def settled (platform : Platform) (state : State) (listener : Nat) (zoom : Int) : State :=
  (if (state.listeners listener).currentZoom ≠ zoom then written platform state zoom else state).applyZoom platform
    listener zoom

theorem setCurrentZoom_eq (platform : Platform) (fuel : Nat) (state : State) (listener : Nat) (zoomLevel : Int) :
    setCurrentZoom platform (fuel + 2) state listener zoomLevel =
      some (settled platform state listener (cropZoom zoomLevel)) := by
  rw [setCurrentZoom, putFontSize_eq (cropZoom_bounds zoomLevel), settled]
  split
  next => rfl
  next => rfl

/-- Whatever the zoom was, all are at the new one. -/
theorem allAt_settled {listener : Nat} (allAt : state.AllAt zoom) (registered : listener < state.registered)
    (zoomLevel : Int) : (settled platform state listener (cropZoom zoomLevel)).AllAt (cropZoom zoomLevel) := by
  unfold settled
  split
  next changes =>
    refine (allAt_written (cropZoom_bounds zoomLevel) ?_).applyZoom platform listener
    -- the preference has the zoom of the listener, which is not the new one
    intro stored
    rw [allAt.agree listener registered] at changes
    rw [allAt.stored] at stored
    exact absurd (Option.some.inj stored) changes
  next keeps =>
    rw [not_ne_iff, allAt.agree listener registered] at keeps
    rw [← keeps]
    exact allAt.applyZoom platform listener

/-! ## One operation -/

/-- The state that the switch of the pinch gesture leaves behind. -/
def switched (platform : Platform) (state : State) (value : Bool) : State :=
  if state.pinchToZoom = some value then state
  else
    let state := { state with pinchToZoom := some value }
    (platform.notified state).foldl
      (fun state listener => state.modify listener fun listener => { listener with enabled := state.pinchToZoom.getD true })
      state

theorem allAt_foldl_modify {change : State → Listener → Listener}
    (keeps : ∀ state listener, (change state listener).currentZoom = listener.currentZoom) (listeners : List Nat)
    (allAt : state.AllAt zoom) :
    (listeners.foldl (fun state listener => state.modify listener (change state)) state).AllAt zoom := by
  induction listeners generalizing state with
  | nil => exact allAt
  | cons listener listeners inductionHypothesis =>
    refine inductionHypothesis ⟨allAt.stored, allAt.inRange, ?_⟩
    intro other registered
    rw [State.currentZoom_modify state listener (keeps state _)]
    exact allAt.agree other registered

theorem registered_foldl_modify (change : State → Listener → Listener) (listeners : List Nat) :
    (listeners.foldl (fun state listener => state.modify listener (change state)) state).registered =
      state.registered := by
  induction listeners generalizing state with
  | nil => rfl
  | cons listener listeners inductionHypothesis => exact inductionHypothesis

theorem allAt_switched (allAt : state.AllAt zoom) (value : Bool) : (switched platform state value).AllAt zoom := by
  unfold switched
  split
  next => exact allAt
  next =>
    apply allAt_foldl_modify
    · intro _ _
      rfl
    · exact ⟨allAt.stored, allAt.inRange, allAt.agree⟩

theorem registered_switched (platform : Platform) (state : State) (value : Bool) :
    (switched platform state value).registered = state.registered := by
  unfold switched
  split
  next => rfl
  next => exact registered_foldl_modify _ _

namespace Operation

/-- A listener before its first zoom. -/
def constructed (state : State) (page : Page) : State :=
  state.modify state.registered fun _ => ⟨0, state.pinchToZoom.getD true, page⟩

/-- What an operation makes of the state. -/
def result (platform : Platform) (state : State) : Operation → State
  | construct page =>
    { settled platform (constructed state page) state.registered (cropZoom (onZoomStart state)) with
      registered := state.registered + 1 }
  | onZoom listener zoomLevel | onZoomEnd listener zoomLevel => settled platform state listener (cropZoom zoomLevel)
  | setFontSize value _ => written platform state value
  | setPinchToZoom value => switched platform state value
  | onLayoutChange listener parentWidth measuredWidth =>
    let laidOut := state.modify listener fun listener =>
      { listener with page := { listener.page with parentWidth := parentWidth, measuredWidth := measuredWidth } }
    if parentWidth ≠ (state.listeners listener).page.parentWidth then
      settled platform laidOut listener (cropZoom (laidOut.listeners listener).currentZoom)
    else laidOut

/-- The calls are never nested more than twice. -/
theorem run_eq (platform : Platform) (fuel : Nat) (state : State) (operation : Operation) :
    operation.run platform (fuel + 2) state = some (operation.result platform state) := by
  cases operation with
  | construct page =>
    rw [run, PinchToZoom.onZoomEnd, setCurrentZoom_eq]
    rfl
  | onZoom listener zoomLevel => exact setCurrentZoom_eq platform fuel state listener zoomLevel
  | onZoomEnd listener zoomLevel => exact setCurrentZoom_eq platform fuel state listener zoomLevel
  | setFontSize value inBar => exact putFontSize_eq inBar (fuel + 1)
  | setPinchToZoom value =>
    rw [run, putPinchToZoom, result, switched]
    split
    next => rfl
    next => exact List.foldlM_pure
  | onLayoutChange listener parentWidth measuredWidth =>
    rw [run, result]
    split
    next => exact setCurrentZoom_eq platform fuel _ listener _
    next => rfl

theorem completes_iff (operation : Operation) (next : State) :
    operation.Completes platform state next ↔ next = operation.result platform state := by
  constructor
  · rintro ⟨enough, completes⟩
    have completed := completes (enough + 2) (Nat.le_add_right enough 2)
    rw [run_eq] at completed
    exact (Option.some.inj completed).symm
  · rintro rfl
    refine ⟨2, ?_⟩
    intro fuel enough
    obtain ⟨fuel, rfl⟩ := Nat.exists_eq_add_of_le' enough
    exact run_eq platform fuel state operation

end Operation

/-! ## All the pages -/

/-- No registered listener differs from the preference.  Without listeners, nothing is known about it. -/
def State.Agrees (state : State) : Prop :=
  ∀ zoom, state.fontSize = some zoom → ∀ listener < state.registered, (state.listeners listener).currentZoom = zoom

theorem State.AllAt.agrees (allAt : state.AllAt zoom) : state.Agrees := by
  intro other stored
  rw [allAt.stored] at stored
  obtain rfl := Option.some.inj stored
  exact allAt.agree

theorem State.not_registered {state : State} (noListener : state.registered = 0) (listener : Nat) :
    ¬listener < state.registered := by
  rw [noListener]
  exact Nat.not_lt_zero listener

theorem State.agrees_of_no_listener (noListener : state.registered = 0) : state.Agrees := by
  intro zoom _ listener registered
  exact absurd registered (State.not_registered noListener listener)

/-- A new listener has no zoom yet, so it always writes the preference. -/
theorem allAt_construct (platform : Platform) (agrees : state.Agrees) (page : Page) :
    ((Operation.construct page).result platform state).AllAt (cropZoom (onZoomStart state)) := by
  have bounds := cropZoom_bounds (onZoomStart state)
  rw [Operation.result]
  generalize cropZoom (onZoomStart state) = zoom at bounds ⊢
  have writes : ((Operation.constructed state page).listeners state.registered).currentZoom ≠ zoom := by
    rw [Operation.constructed, State.listeners_modify_self]
    unfold minZoomLevel at bounds
    dsimp only
    omega
  have allAt : (written platform (Operation.constructed state page) zoom).AllAt zoom := by
    refine allAt_written bounds ?_
    intro stored listener registered
    have other : listener ≠ state.registered := Nat.ne_of_lt registered
    rw [Operation.constructed, State.listeners_modify_of_ne _ _ _ other]
    exact agrees zoom stored listener registered
  rw [settled, if_pos writes]
  refine ⟨allAt.stored, bounds, ?_⟩
  intro listener registered
  obtain earlier | rfl := Nat.lt_succ_iff_lt_or_eq.mp registered
  · have sameRegistered : (written platform (Operation.constructed state page) zoom).registered = state.registered :=
      (written_frame platform _ zoom).2
    refine (allAt.applyZoom platform state.registered).agree listener ?_
    exact Nat.lt_of_lt_of_eq earlier sameRegistered.symm
  · exact currentZoom_applyZoom_self platform _ _ zoom

theorem consistent_result (platform : Platform) {operation : Operation} (possible : operation.Possible state)
    (consistent : state.Consistent) : (operation.result platform state).Consistent := by
  obtain ⟨zoom, allAt⟩ := consistent
  cases operation with
  | construct page => exact ⟨_, allAt_construct platform allAt.agrees page⟩
  | onZoom listener zoomLevel | onZoomEnd listener zoomLevel => exact ⟨_, allAt_settled allAt possible zoomLevel⟩
  | setFontSize value inBar => exact ⟨value, allAt_written inBar (allAt.agrees value)⟩
  | setPinchToZoom value => exact ⟨zoom, allAt_switched allAt value⟩
  | onLayoutChange listener parentWidth measuredWidth =>
    have laidOut : (state.modify listener fun listener => { listener with
        page := { listener.page with parentWidth := parentWidth, measuredWidth := measuredWidth } }).AllAt zoom := by
      refine ⟨allAt.stored, allAt.inRange, ?_⟩
      intro other registered
      rw [State.currentZoom_modify state listener rfl]
      exact allAt.agree other registered
    rw [Operation.result]
    split
    next => exact ⟨_, allAt_settled laidOut possible _⟩
    next => exact ⟨zoom, laidOut⟩

/-- The first operation that is about the zoom fixes the preference. -/
theorem consistent_result_of_no_listener (platform : Platform) {operation : Operation}
    (possible : operation.Possible state) (noListener : state.registered = 0)
    (concerns : operation.concernsZoom = true) : (operation.result platform state).Consistent := by
  have agrees := State.agrees_of_no_listener noListener
  cases operation with
  | construct page => exact ⟨_, allAt_construct platform agrees page⟩
  | setFontSize value inBar => exact ⟨value, allAt_written inBar (agrees value)⟩
  | setPinchToZoom value => cases concerns
  | onZoom listener _ | onZoomEnd listener _ | onLayoutChange listener _ _ =>
    exact absurd possible (State.not_registered noListener listener)

theorem Reachable.invariant {operated : Bool} (reachable : Reachable operated state) :
    state.Consistent ∨ (operated = false ∧ state.registered = 0) := by
  induction reachable with
  | start noListener => exact .inr ⟨rfl, noListener⟩
  | step platform operation _ possible completes inductionHypothesis =>
    obtain rfl := (operation.completes_iff _).mp completes
    obtain consistent | ⟨rfl, noListener⟩ := inductionHypothesis
    · exact .inl (consistent_result platform possible consistent)
    · cases concerns : operation.concernsZoom with
      | true => exact .inl (consistent_result_of_no_listener platform possible noListener concerns)
      | false =>
        cases operation with
        | setPinchToZoom value => exact .inr ⟨rfl, (registered_switched platform _ value).trans noListener⟩
        | construct | onZoom | onZoomEnd | setFontSize | onLayoutChange => cases concerns

end

/-- In every reachable state, every operation comes to an end, and after the first one about the zoom the
preference and all the listeners have the same zoom, within its bounds. -/
theorem zoom_consistent {operated : Bool} {state : State} (reachable : Reachable operated state) :
    (∀ (platform : Platform) (operation : Operation), ∃ next, operation.Completes platform state next) ∧
      (operated = true → state.Consistent) := by
  refine ⟨?_, ?_⟩
  · intro platform operation
    exact ⟨_, (operation.completes_iff _).mpr rfl⟩
  · intro isOperated
    obtain consistent | ⟨notOperated, _⟩ := reachable.invariant
    · exact consistent
    · rw [isOperated] at notOperated
      cases notOperated

namespace TwoPages

def platform : Platform := ⟨900, fun state => List.range state.registered, fun _ => .refl _⟩

def page : Page := ⟨1080, 1080, 100, 0⟩

/-- No preference has been written yet. -/
def start : State := ⟨none, none, fun _ => ⟨0, true, page⟩, 0⟩

def opened : State := (Operation.construct page).result platform ((Operation.construct page).result platform start)

def zoomed : State := (Operation.onZoom 0 1000).result platform opened

theorem reachable : Reachable true zoomed := by
  have first : Reachable true ((Operation.construct page).result platform start) :=
    .step platform (.construct page) (.start rfl) trivial ((Operation.completes_iff _ _).mpr rfl)
  have second : Reachable true opened :=
    .step platform (.construct page) first trivial ((Operation.completes_iff _ _).mpr rfl)
  exact .step platform (.onZoom 0 1000) second (Nat.succ_pos 1) ((Operation.completes_iff _ _).mpr rfl)

/-- The first page is pinched beyond the limit, and both are at the limit. -/
theorem both_at_limit : zoomed.registered = 2 ∧ zoomed.fontSize = some 700 ∧ zoomed.Consistent :=
  ⟨rfl, rfl, (zoom_consistent reachable).2 rfl⟩

end TwoPages

/-! ## What the pages show -/

section

variable {platform : Platform} {state : State} {zoom : Int}

/-- A visible page has the text zoom of its listener. -/
def Listener.Shown (listener : Listener) : Prop :=
  listener.page.parentWidth ≠ 0 → listener.page.textZoom = listener.currentZoom

def State.AllShown (state : State) : Prop := ∀ listener < state.registered, (state.listeners listener).Shown

theorem Listener.shown_applyZoom (base_width : Int) (listener : Listener) (zoomLevel : Int) :
    (listener.applyZoom base_width zoomLevel).Shown := by
  unfold Shown applyZoom
  dsimp only
  split
  next hidden => exact fun visible => absurd hidden visible
  next => exact fun _ => rfl

theorem shown_applyZoom_self (platform : Platform) (state : State) (listener : Nat) (zoom : Int) :
    ((state.applyZoom platform listener zoom).listeners listener).Shown := by
  rw [State.applyZoom, State.listeners_modify_self]
  exact Listener.shown_applyZoom _ _ _

theorem shown_applyZoom {other : Nat} (shown : (state.listeners other).Shown) (platform : Platform) (listener : Nat)
    (zoom : Int) : ((state.applyZoom platform listener zoom).listeners other).Shown := by
  by_cases same : other = listener
  · rw [same]
    exact shown_applyZoom_self platform state listener zoom
  · rw [State.applyZoom, State.listeners_modify_of_ne _ _ _ same]
    exact shown

theorem shown_applyToAll {other : Nat} (shown : (state.listeners other).Shown) (listeners : List Nat) :
    ((applyToAll platform state zoom listeners).listeners other).Shown := by
  induction listeners generalizing state with
  | nil => exact shown
  | cons listener listeners inductionHypothesis =>
    exact inductionHypothesis (shown_applyZoom shown platform listener zoom)

theorem shown_written {other : Nat} (shown : (state.listeners other).Shown) :
    ((written platform state zoom).listeners other).Shown := by
  unfold written
  split
  next => exact shown
  next =>
    apply shown_applyToAll
    exact shown

/-- The listener whose zoom is set shows it, even if its page has just become visible. -/
theorem shown_settled {listener other : Nat} (shown : other ≠ listener → (state.listeners other).Shown) :
    ((settled platform state listener zoom).listeners other).Shown := by
  unfold settled
  by_cases same : other = listener
  · rw [same]
    exact shown_applyZoom_self _ _ _ _
  · refine shown_applyZoom ?_ _ _ _
    split
    next => exact shown_written (shown same)
    next => exact shown same

theorem shown_foldl_modify {change : State → Listener → Listener}
    (keeps : ∀ state listener, listener.Shown → (change state listener).Shown) (listeners : List Nat) {other : Nat}
    (shown : (state.listeners other).Shown) :
    ((listeners.foldl (fun state listener => state.modify listener (change state)) state).listeners other).Shown := by
  induction listeners generalizing state with
  | nil => exact shown
  | cons listener listeners inductionHypothesis =>
    apply inductionHypothesis
    by_cases same : other = listener
    · rw [same, State.listeners_modify_self]
      exact keeps state _ (same ▸ shown)
    · rw [State.listeners_modify_of_ne _ _ _ same]
      exact shown

theorem registered_settled (platform : Platform) (state : State) (listener : Nat) (zoom : Int) :
    (settled platform state listener zoom).registered = state.registered := by
  unfold settled
  split
  next => exact (written_frame platform state zoom).2
  next => rfl

theorem allShown_result (platform : Platform) (operation : Operation) (allShown : state.AllShown) :
    (operation.result platform state).AllShown := by
  intro other registered
  cases operation with
  | construct page =>
    refine shown_settled ?_
    intro different
    have earlier : other < state.registered := Nat.lt_of_le_of_ne (Nat.le_of_lt_succ registered) different
    rw [Operation.constructed, State.listeners_modify_of_ne _ _ _ different]
    exact allShown other earlier
  | onZoom listener zoomLevel | onZoomEnd listener zoomLevel =>
    rw [Operation.result, registered_settled] at registered
    exact shown_settled fun _ => allShown other registered
  | setFontSize value inBar =>
    rw [Operation.result, (written_frame platform state value).2] at registered
    exact shown_written (allShown other registered)
  | setPinchToZoom value =>
    rw [Operation.result, registered_switched] at registered
    rw [Operation.result, switched]
    split
    next => exact allShown other registered
    next =>
      apply shown_foldl_modify
      · intro _ _ shown
        exact shown
      · exact allShown other registered
  | onLayoutChange listener parentWidth measuredWidth =>
    have sameRegistered : ((Operation.onLayoutChange listener parentWidth measuredWidth).result platform
        state).registered = state.registered := by
      rw [Operation.result]
      split
      next => exact registered_settled _ _ _ _
      next => rfl
    rw [sameRegistered] at registered
    rw [Operation.result]
    split
    next =>
      refine shown_settled ?_
      intro different
      rw [State.listeners_modify_of_ne _ _ _ different]
      exact allShown other registered
    next sameWidth =>
      -- a page with the width it had is visible if it was
      rw [not_ne_iff] at sameWidth
      by_cases same : other = listener
      · rw [same] at registered ⊢
        rw [State.listeners_modify_self, sameWidth]
        exact allShown listener registered
      · rw [State.listeners_modify_of_ne _ _ _ same]
        exact allShown other registered

theorem Reachable.allShown {operated : Bool} (reachable : Reachable operated state) : state.AllShown := by
  induction reachable with
  | start noListener =>
    intro listener registered
    exact absurd registered (State.not_registered noListener listener)
  | step platform operation _ _ completes inductionHypothesis =>
    obtain rfl := (operation.completes_iff _).mp completes
    exact allShown_result platform operation inductionHypothesis

/-- After an operation about the zoom, every visible page shows its text at the zoom of the preference. -/
theorem visible_pages_at_fontSize (reachable : Reachable true state) {listener : Nat}
    (registered : listener < state.registered) (visible : (state.listeners listener).page.parentWidth ≠ 0) :
    state.fontSize = some (state.listeners listener).page.textZoom := by
  obtain ⟨zoom, allAt⟩ | ⟨notOperated, _⟩ := reachable.invariant
  · rw [reachable.allShown listener registered visible, allAt.agree listener registered]
    exact allAt.stored
  · cases notOperated

end

end Aelf.Components.PinchToZoom
