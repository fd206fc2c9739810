import Aelf.Library.Runs
import Mathlib.Data.List.Chain
import Mathlib.Data.List.Nodup
import Mathlib.Logic.Function.Basic

/-! # `NetworkStatusMonitor`

The monitor keeps two flags, delivers them to a listener that registers, and delivers what
has changed to all of them when the system announces a change.  The two flags come from
two readings of the connectivity, which need not agree. -/

namespace Aelf.Components

open Aelf.Library

variable {ι : Type}

/-! ## Events -/

inductive NetworkStatusEvent where
  | wifiOn
  | wifiOff
  | networkOn
  | networkOff
deriving DecidableEq, Repr

inductive Signal where
  | wifi
  | network
deriving DecidableEq, Repr

namespace NetworkStatusEvent

def signal : NetworkStatusEvent → Signal
  | wifiOn | wifiOff => .wifi
  | networkOn | networkOff => .network

/-- The event that announces a flag. -/
def of : Signal → Bool → NetworkStatusEvent
  | .wifi, true => wifiOn
  | .wifi, false => wifiOff
  | .network, true => networkOn
  | .network, false => networkOff

end NetworkStatusEvent

/-- The type and the state of the active network. -/
structure NetworkInfo where
  isWifi : Bool
  isConnected : Bool

/-! ## The monitor -/

/-- The fields of the monitor, and what each listener has received since it was last registered. -/
structure NetworkStatusMonitor (ι : Type) where
  isWifiAvailable : Bool
  isNetworkAvailable : Bool
  networkStatusChangeListeners : List ι
  received : ι → List NetworkStatusEvent

def isNetworkAvailable (activeNetwork : Option NetworkInfo) : Bool := activeNetwork.any NetworkInfo.isConnected

def isWifiAvailable (activeNetwork : Option NetworkInfo) : Bool := activeNetwork.any NetworkInfo.isWifi

/-- What `onReceive` tells each listener, from the old and the new flags. -/
def statusChanges (wifi network wifiNew networkNew : Bool) : List NetworkStatusEvent :=
  (if wifiNew = true ∧ wifi = false then [.wifiOn] else []) ++
  (if wifiNew = false ∧ wifi = true then [.wifiOff] else []) ++
  (if networkNew = true ∧ network = false then [.networkOn] else []) ++
  (if networkNew = false ∧ network = true then [.networkOff] else [])

inductive MonitorEvent (ι : Type) where
  | registerNetworkStatusChangeListener (listener : ι)
  | unregisterNetworkStatusChangeListener (listener : ι)
  /-- The two readings, in the order in which they are made. -/
  | onReceive (networkReading wifiReading : Option NetworkInfo)

namespace NetworkStatusMonitor

/-- The monitor after its first `register`. -/
def register (wifiReading networkReading : Option NetworkInfo) : NetworkStatusMonitor ι where
  isWifiAvailable := Components.isWifiAvailable wifiReading
  isNetworkAvailable := Components.isNetworkAvailable networkReading
  networkStatusChangeListeners := []
  received := fun _ => []

section Operations

variable [DecidableEq ι]

def registerNetworkStatusChangeListener (monitor : NetworkStatusMonitor ι) (listener : ι) : NetworkStatusMonitor ι :=
  if listener ∈ monitor.networkStatusChangeListeners then monitor
  else
    { monitor with
      networkStatusChangeListeners := monitor.networkStatusChangeListeners ++ [listener]
      received := Function.update monitor.received listener
        [.of .wifi monitor.isWifiAvailable, .of .network monitor.isNetworkAvailable] }

/-- `remove` takes away the first occurrence. -/
def unregisterNetworkStatusChangeListener (monitor : NetworkStatusMonitor ι) (listener : ι) : NetworkStatusMonitor ι :=
  { monitor with networkStatusChangeListeners := monitor.networkStatusChangeListeners.erase listener }

/-- The loop of `onReceive`. -/
def notify (events : List NetworkStatusEvent) (received : ι → List NetworkStatusEvent) :
    List ι → ι → List NetworkStatusEvent
  | [] => received
  | listener :: listeners => notify events (Function.update received listener (received listener ++ events)) listeners

def onReceive (monitor : NetworkStatusMonitor ι) (networkReading wifiReading : Option NetworkInfo) :
    NetworkStatusMonitor ι :=
  let isNetworkAvailableNew := Components.isNetworkAvailable networkReading
  let isWifiAvailableNew := Components.isWifiAvailable wifiReading
  { monitor with
    received := notify
      (statusChanges monitor.isWifiAvailable monitor.isNetworkAvailable isWifiAvailableNew isNetworkAvailableNew)
      monitor.received monitor.networkStatusChangeListeners
    isWifiAvailable := isWifiAvailableNew
    isNetworkAvailable := isNetworkAvailableNew }

def apply (monitor : NetworkStatusMonitor ι) : MonitorEvent ι → NetworkStatusMonitor ι
  | .registerNetworkStatusChangeListener listener => monitor.registerNetworkStatusChangeListener listener
  | .unregisterNetworkStatusChangeListener listener => monitor.unregisterNetworkStatusChangeListener listener
  | .onReceive networkReading wifiReading => monitor.onReceive networkReading wifiReading

def run (wifiReading networkReading : Option NetworkInfo) (events : List (MonitorEvent ι)) : NetworkStatusMonitor ι :=
  events.foldl apply (register wifiReading networkReading)

end Operations

/-! ## What a listener knows -/

def flag (monitor : NetworkStatusMonitor ι) : Signal → Bool
  | .wifi => monitor.isWifiAvailable
  | .network => monitor.isNetworkAvailable

/-- The events of one signal that a listener has received since it was last registered. -/
def heard (monitor : NetworkStatusMonitor ι) (listener : ι) (signal : Signal) : List NetworkStatusEvent :=
  (monitor.received listener).filter fun event => event.signal = signal

/-- The last event is the flag, and no event is repeated: `ON` and `OFF` alternate. -/
structure Informed (flag : Bool) (signal : Signal) (heard : List NetworkStatusEvent) : Prop where
  last : heard.getLast? = some (.of signal flag)
  alternates : heard.IsChain (· ≠ ·)

structure Invariant (monitor : NetworkStatusMonitor ι) : Prop where
  unique : monitor.networkStatusChangeListeners.Nodup
  informed : ∀ listener ∈ monitor.networkStatusChangeListeners, ∀ signal,
    Informed (monitor.flag signal) signal (monitor.heard listener signal)

theorem filter_initial (monitor : NetworkStatusMonitor ι) (signal : Signal) :
    [NetworkStatusEvent.of .wifi monitor.isWifiAvailable, .of .network monitor.isNetworkAvailable].filter
      (fun event => event.signal = signal) = [.of signal (monitor.flag signal)] := by
  obtain ⟨wifi, network, _, _⟩ := monitor
  cases signal <;> cases wifi <;> cases network <;> rfl

/-- A signal is announced when its flag changes, and only then. -/
theorem filter_statusChanges (monitor : NetworkStatusMonitor ι) (wifiNew networkNew : Bool) (signal : Signal) :
    (statusChanges monitor.isWifiAvailable monitor.isNetworkAvailable wifiNew networkNew).filter
      (fun event => event.signal = signal) =
      let flagNew := match signal with | .wifi => wifiNew | .network => networkNew
      if flagNew = monitor.flag signal then [] else [.of signal flagNew] := by
  obtain ⟨wifi, network, _, _⟩ := monitor
  cases signal <;> cases wifi <;> cases network <;> cases wifiNew <;> cases networkNew <;> rfl

theorem invariant_register (wifiReading networkReading : Option NetworkInfo) :
    (register wifiReading networkReading : NetworkStatusMonitor ι).Invariant where
  unique := List.nodup_nil
  informed := by simp [register]

/-! ## Steps -/

section Steps

variable [DecidableEq ι] {monitor : NetworkStatusMonitor ι}

theorem invariant_registerListener (listener : ι) (invariant : monitor.Invariant) :
    (monitor.registerNetworkStatusChangeListener listener).Invariant := by
  unfold registerNetworkStatusChangeListener
  split
  case isTrue => exact invariant
  case isFalse absent =>
    have fresh : ∀ other ∈ monitor.networkStatusChangeListeners, other ≠ listener :=
      fun other member same => absent (same ▸ member)
    refine ⟨List.nodup_append.mpr ⟨invariant.unique, by simp, by simpa using fresh⟩, ?_⟩
    intro other member signal
    rcases List.mem_append.mp member with old | new
    · -- The other listeners are not told that one has joined them.
      have before := invariant.informed other old signal
      simp only [heard, Function.update_of_ne (fresh other old)]
      exact before
    · obtain rfl := List.mem_singleton.mp new
      simp only [heard, Function.update_self, filter_initial]
      exact ⟨rfl, .singleton _⟩

theorem invariant_unregisterListener (listener : ι) (invariant : monitor.Invariant) :
    (monitor.unregisterNetworkStatusChangeListener listener).Invariant where
  unique := invariant.unique.erase listener
  informed := fun other member => invariant.informed other (List.mem_of_mem_erase member)

theorem notify_of_not_mem (events : List NetworkStatusEvent) (received : ι → List NetworkStatusEvent)
    {listeners : List ι} {listener : ι} (absent : listener ∉ listeners) :
    notify events received listeners listener = received listener := by
  induction listeners generalizing received with
  | nil => rfl
  | cons head listeners inductionHypothesis =>
    simp only [List.mem_cons, not_or] at absent
    rw [notify, inductionHypothesis _ absent.2, Function.update_of_ne absent.1]

/-- Every listener of the list is told once. -/
theorem notify_of_mem (events : List NetworkStatusEvent) (received : ι → List NetworkStatusEvent)
    {listeners : List ι} {listener : ι} (unique : listeners.Nodup) (member : listener ∈ listeners) :
    notify events received listeners listener = received listener ++ events := by
  induction listeners generalizing received with
  | nil => cases member
  | cons head listeners inductionHypothesis =>
    obtain ⟨absent, unique⟩ := List.nodup_cons.mp unique
    rw [notify]
    rcases List.mem_cons.mp member with rfl | later
    -- The rest of the loop does not come back to this listener, since the list has it once.
    · rw [notify_of_not_mem events _ absent, Function.update_self]
    · have different : listener ≠ head := fun same => absent (same ▸ later)
      rw [inductionHypothesis _ unique later, Function.update_of_ne different]

theorem of_injective (signal : Signal) : Function.Injective (NetworkStatusEvent.of signal) := by
  intro first second same
  cases signal <;> cases first <;> cases second <;> first | rfl | cases same

/-- What keeps a listener informed of a flag that may have changed. -/
theorem Informed.append {flag flagNew : Bool} {signal : Signal} {heard : List NetworkStatusEvent}
    (informed : Informed flag signal heard) :
    Informed flagNew signal (heard ++ if flagNew = flag then [] else [.of signal flagNew]) := by
  by_cases same : flagNew = flag
  · simpa [same] using informed
  · rw [if_neg same]
    refine ⟨List.getLast?_concat .., informed.alternates.append (.singleton _) ?_⟩
    -- The event that is added differs from the last one, which was the flag before the change.
    intro last isLast first isFirst
    rw [informed.last, Option.mem_some_iff] at isLast
    rw [List.head?_cons, Option.mem_some_iff] at isFirst
    subst isLast isFirst
    exact fun equal => same (of_injective signal equal).symm

theorem invariant_onReceive (networkReading wifiReading : Option NetworkInfo) (invariant : monitor.Invariant) :
    (monitor.onReceive networkReading wifiReading).Invariant where
  unique := invariant.unique
  informed := by
    intro listener member signal
    have before := invariant.informed listener member signal
    simp only [heard, onReceive, notify_of_mem _ _ invariant.unique member, List.filter_append, filter_statusChanges]
    cases signal with
    | wifi => exact before.append
    | network => exact before.append

theorem invariant_apply (event : MonitorEvent ι) (invariant : monitor.Invariant) : (monitor.apply event).Invariant := by
  cases event with
  | registerNetworkStatusChangeListener listener => exact invariant_registerListener listener invariant
  | unregisterNetworkStatusChangeListener listener => exact invariant_unregisterListener listener invariant
  | onReceive networkReading wifiReading => exact invariant_onReceive networkReading wifiReading invariant

theorem invariant_run (wifiReading networkReading : Option NetworkInfo) (events : List (MonitorEvent ι)) :
    (run wifiReading networkReading events).Invariant :=
  Runs.invariant_foldl apply Invariant (fun _ event invariant => invariant_apply event invariant) events
    (invariant_register wifiReading networkReading)

end Steps

end NetworkStatusMonitor

end Aelf.Components
