import Aelf.Components.NetworkStatus
import Mathlib.Logic.Relation

/-! # Waiting for the network

`waitForWifi` and `waitForNetwork` look at the connectivity and wait, under the lock that
`onReceive` takes to wake them up.  The connectivity itself changes at any time, and the
system announces every change by a broadcast that the main thread receives later.

A thread that looks and then waits keeps the lock in between, so that a change between the
two is announced after it waits.  All steps interleave; a woken thread has to take the lock
again, and may be woken for no reason. -/

namespace Aelf.Components.NetworkWait

variable {ι : Type}

/-! ## Threads -/

/-- Where a thread is in `waitForWifi` or `waitForNetwork`. -/
inductive Place where
  | outside
  /-- At `synchronized`, or woken up. -/
  | entering (signal : Signal)
  /-- With the lock, before the condition of the loop. -/
  | inside (signal : Signal)
  /-- With the lock and the value of the condition. -/
  | looked (signal : Signal) (isAvailable : Bool)
  | waiting (signal : Signal)
  /-- Interrupted in `wait`, which throws once it has the lock again. -/
  | interrupted

/-- Where the main thread is in `onReceive`. -/
inductive Receiver where
  | idle
  | entering
  | notifying
deriving DecidableEq

inductive Holder (ι : Type) where
  | thread (thread : ι)
  | receiver

/-- The state of the device and of the threads.  The application registers the receiver when it starts. -/
structure State (ι : Type) where
  activeNetwork : Option NetworkInfo
  /-- Broadcasts that the system has sent and the main thread has not received. -/
  broadcasts : Nat
  receiver : Receiver
  places : ι → Place
  /-- Who holds the lock. -/
  whenNetworkOk : Option (Holder ι)

/-- The condition of the loops. -/
def available : Signal → Option NetworkInfo → Bool
  | .wifi => isWifiAvailable
  | .network => isNetworkAvailable

/-- `notifyAll`, for one thread. -/
def Place.notified : Place → Place
  | waiting signal => entering signal
  | place => place

namespace State

variable [DecidableEq ι]

def move (state : State ι) (thread : ι) (place : Place) : State ι :=
  { state with places := Function.update state.places thread place }

def withLock (state : State ι) (holder : Option (Holder ι)) : State ι := { state with whenNetworkOk := holder }

def notifyAll (state : State ι) : State ι :=
  { state with places := fun thread => (state.places thread).notified, receiver := .idle, whenNetworkOk := none }

end State

/-! ## Steps -/

section Steps

variable [DecidableEq ι]

/-- What the threads do once they are in, and the delivery of a broadcast. -/
inductive OwnStep : State ι → State ι → Prop where
  | enter {state : State ι} {thread : ι} {signal : Signal} (here : state.places thread = .entering signal)
      (free : state.whenNetworkOk = none) :
      OwnStep state ((state.move thread (.inside signal)).withLock (some (.thread thread)))
  | rethrow {state : State ι} {thread : ι} (here : state.places thread = .interrupted)
      (free : state.whenNetworkOk = none) : OwnStep state (state.move thread .outside)
  | look {state : State ι} {thread : ι} {signal : Signal} (here : state.places thread = .inside signal) :
      OwnStep state (state.move thread (.looked signal (available signal state.activeNetwork)))
  | leave {state : State ι} {thread : ι} {signal : Signal} (here : state.places thread = .looked signal true) :
      OwnStep state ((state.move thread .outside).withLock none)
  | wait {state : State ι} {thread : ι} {signal : Signal} (here : state.places thread = .looked signal false) :
      OwnStep state ((state.move thread (.waiting signal)).withLock none)
  | receive {state : State ι} {broadcasts : Nat} (sent : state.broadcasts = broadcasts + 1)
      (idle : state.receiver = .idle) :
      OwnStep state { state with broadcasts := broadcasts, receiver := .entering }
  | onReceive {state : State ι} (here : state.receiver = .entering) (free : state.whenNetworkOk = none) :
      OwnStep state ({ state with receiver := .notifying }.withLock (some .receiver))
  | notifyAll {state : State ι} (here : state.receiver = .notifying) : OwnStep state state.notifyAll

/-- What is done to them. -/
inductive OuterStep : State ι → State ι → Prop where
  | call {state : State ι} {thread : ι} (signal : Signal) (here : state.places thread = .outside) :
      OuterStep state (state.move thread (.entering signal))
  | wakeUp {state : State ι} {thread : ι} {signal : Signal} (here : state.places thread = .waiting signal) :
      OuterStep state (state.move thread (.entering signal))
  | interrupt {state : State ι} {thread : ι} {signal : Signal} (here : state.places thread = .waiting signal) :
      OuterStep state (state.move thread .interrupted)
  | change {state : State ι} (activeNetwork : Option NetworkInfo) :
      OuterStep state { state with activeNetwork := activeNetwork, broadcasts := state.broadcasts + 1 }

def Step (state next : State ι) : Prop := OwnStep state next ∨ OuterStep state next

end Steps

/-- Nobody has called yet. -/
def State.start (activeNetwork : Option NetworkInfo) : State ι := ⟨activeNetwork, 0, .idle, fun _ => .outside, none⟩

def Reachable [DecidableEq ι] (state : State ι) : Prop :=
  ∃ activeNetwork, Relation.ReflTransGen Step (.start activeNetwork) state

/-! ## Wake-ups are not lost -/

/-- The thread has the lock. -/
def Place.HasLock : Place → Prop
  | inside _ | looked _ _ => True
  | _ => False

/-- The thread waits, or is about to. -/
def Place.Waits : Place → Signal → Prop
  | waiting awaited, signal => awaited = signal
  | looked awaited isAvailable, signal => awaited = signal ∧ isAvailable = false
  | _, _ => False

structure State.Invariant (state : State ι) : Prop where
  holder : ∀ thread, (state.places thread).HasLock ↔ state.whenNetworkOk = some (.thread thread)
  notifier : state.receiver = .notifying ↔ state.whenNetworkOk = some .receiver
  /-- What a thread waits for and is there is still to be announced. -/
  announced : ∀ thread signal, (state.places thread).Waits signal → available signal state.activeNetwork = true →
    0 < state.broadcasts ∨ state.receiver ≠ .idle

theorem invariant_start (activeNetwork : Option NetworkInfo) : (State.start activeNetwork : State ι).Invariant where
  holder _ := ⟨nofun, nofun⟩
  notifier := ⟨nofun, nofun⟩
  announced _ _ waits := absurd waits id

theorem withLock_self (state : State ι) : state.withLock state.whenNetworkOk = state := rfl

section Preservation

variable [DecidableEq ι] {state next : State ι} {thread : ι} {place : Place}

/-- A thread that gets to another place, with or without the lock, while the others stay where they are. -/
theorem State.Invariant.moved (invariant : state.Invariant) {holder : Option (Holder ι)}
    (here : place.HasLock ↔ holder = some (.thread thread))
    (others : ∀ other, other ≠ thread → ((state.places other).HasLock ↔ holder = some (.thread other)))
    (receiver : state.receiver = .notifying ↔ holder = some .receiver)
    (announced : ∀ signal, place.Waits signal → available signal state.activeNetwork = true →
      0 < state.broadcasts ∨ state.receiver ≠ .idle) :
    ((state.move thread place).withLock holder).Invariant := by
  refine ⟨?_, receiver, ?_⟩
  · intro other
    show (Function.update state.places thread place other).HasLock ↔ _
    by_cases same : other = thread
    · rw [same, Function.update_self]
      exact here
    · rw [Function.update_of_ne same]
      exact others other same
  · intro other signal waits
    change (Function.update state.places thread place other).Waits signal at waits
    by_cases same : other = thread
    · rw [same, Function.update_self] at waits
      exact announced signal waits
    · rw [Function.update_of_ne same] at waits
      exact invariant.announced other signal waits

/-- A step that neither takes nor gives back the lock. -/
theorem State.Invariant.movedOutside (invariant : state.Invariant) (before : ¬(state.places thread).HasLock)
    (after : ¬place.HasLock) (waits : ∀ signal, ¬place.Waits signal) : (state.move thread place).Invariant := by
  have free : state.whenNetworkOk ≠ some (.thread thread) := fun held => before ((invariant.holder thread).mpr held)
  rw [← withLock_self (state.move thread place)]
  refine invariant.moved ?_ (fun other _ => invariant.holder other) invariant.notifier ?_
  · exact ⟨fun has => absurd has after, fun held => absurd held free⟩
  · exact fun signal waitsNow => absurd waitsNow (waits signal)

/-- A step by which the thread gives back the lock. -/
theorem State.Invariant.released (invariant : state.Invariant) (before : (state.places thread).HasLock)
    (after : ¬place.HasLock)
    (announced : ∀ signal, place.Waits signal → available signal state.activeNetwork = true →
      0 < state.broadcasts ∨ state.receiver ≠ .idle) :
    ((state.move thread place).withLock none).Invariant := by
  have held := (invariant.holder thread).mp before
  refine invariant.moved ⟨fun has => absurd has after, nofun⟩ ?_ ⟨?_, nofun⟩ announced
  · intro other different
    refine ⟨fun has => ?_, nofun⟩
    have same := (invariant.holder other).mp has
    rw [held] at same
    cases same
    exact absurd rfl different
  · intro notifying
    have same := invariant.notifier.mp notifying
    rw [held] at same
    cases same

theorem State.Invariant.ownStep (invariant : state.Invariant) (step : OwnStep state next) : next.Invariant := by
  cases step with
  | @enter thread signal here free =>
    refine invariant.moved ⟨fun _ => rfl, fun _ => trivial⟩ ?_ ⟨?_, nofun⟩ nofun
    · intro other different
      have holder := invariant.holder other
      rw [free] at holder
      refine ⟨fun has => absurd (holder.mp has) nofun, ?_⟩
      intro same
      cases same
      exact absurd rfl different
    · intro notifying
      have same := invariant.notifier.mp notifying
      rw [free] at same
      cases same
  | @rethrow thread here free =>
    exact invariant.movedOutside (by rw [here]; exact id) id (fun _ => id)
  | @look thread signal here =>
    have held := (invariant.holder thread).mp (by rw [here]; trivial)
    rw [← withLock_self (state.move _ _)]
    refine invariant.moved ⟨fun _ => held, fun _ => trivial⟩ (fun other _ => invariant.holder other) invariant.notifier ?_
    -- what it has just seen is not there
    intro awaited waits isAvailable
    obtain ⟨rfl, notAvailable⟩ := waits
    rw [isAvailable] at notAvailable
    cases notAvailable
  | @leave thread signal here => exact invariant.released (by rw [here]; trivial) id nofun
  | @wait thread signal here =>
    refine invariant.released (by rw [here]; trivial) id ?_
    intro awaited waits
    refine invariant.announced thread awaited ?_
    rw [here]
    exact ⟨waits, rfl⟩
  | receive sent idle =>
    refine ⟨invariant.holder, ?_, fun _ _ _ _ => .inr nofun⟩
    rw [← invariant.notifier, idle]
    exact ⟨nofun, nofun⟩
  | onReceive here free =>
    refine ⟨?_, ⟨fun _ => rfl, fun _ => rfl⟩, fun _ _ _ _ => .inr nofun⟩
    intro thread
    have holder := invariant.holder thread
    rw [free] at holder
    exact ⟨fun has => absurd (holder.mp has) nofun, nofun⟩
  | notifyAll here =>
    have held := invariant.notifier.mp here
    -- while the main thread has the lock, no other thread has looked
    have noLock (thread : ι) : ¬(state.places thread).HasLock := by
      intro has
      have same := (invariant.holder thread).mp has
      rw [held] at same
      cases same
    refine ⟨?_, ⟨nofun, nofun⟩, ?_⟩
    · intro thread
      refine ⟨fun has => ?_, nofun⟩
      change (state.places thread).notified.HasLock at has
      have before := noLock thread
      generalize state.places thread = place at has before
      cases place with
      | waiting signal => exact absurd has id
      | outside | entering | inside | looked | interrupted => exact absurd has before
    · intro thread signal waits
      change (state.places thread).notified.Waits signal at waits
      have before := noLock thread
      generalize state.places thread = place at waits before
      cases place with
      | looked => exact absurd trivial before
      | outside | entering | inside | waiting | interrupted => exact absurd waits id

theorem State.Invariant.outerStep (invariant : state.Invariant) (step : OuterStep state next) : next.Invariant := by
  cases step with
  | @call thread signal here => exact invariant.movedOutside (by rw [here]; exact id) id (fun _ => id)
  | @wakeUp thread signal here => exact invariant.movedOutside (by rw [here]; exact id) id (fun _ => id)
  | @interrupt thread signal here => exact invariant.movedOutside (by rw [here]; exact id) id (fun _ => id)
  | change activeNetwork => exact ⟨invariant.holder, invariant.notifier, fun _ _ _ _ => .inl (Nat.succ_pos _)⟩

theorem Reachable.invariant (reachable : Reachable state) : state.Invariant := by
  obtain ⟨activeNetwork, steps⟩ := reachable
  induction steps with
  | refl => exact invariant_start activeNetwork
  | tail _ step inductionHypothesis =>
    obtain own | outer := step
    · exact inductionHypothesis.ownStep own
    · exact inductionHypothesis.outerStep outer

/-- When every broadcast has been received and handled, a thread that waits waits for what is not there. -/
theorem waits_only_without_network (reachable : Reachable state) (delivered : state.broadcasts = 0)
    (handled : state.receiver = .idle) {signal : Signal} (waits : state.places thread = .waiting signal) :
    available signal state.activeNetwork = false := by
  by_contra isAvailable
  rw [Bool.not_eq_false] at isAvailable
  have still := reachable.invariant.announced thread signal (by rw [waits]; rfl) isAvailable
  obtain sent | busy := still
  · omega
  · exact busy handled

end Preservation

/-! ## A wait can end -/

/-- What the thread came for. -/
def Place.AwaitedBy : Place → Signal → Prop
  | entering awaited, signal | inside awaited, signal | looked awaited _, signal | waiting awaited, signal =>
    awaited = signal
  | outside, _ | interrupted, _ => False

section Progress

variable [DecidableEq ι] {state next : State ι} {thread : ι}

/-- The own steps neither change the network nor what a thread came for. -/
structure Leads (thread : ι) (state next : State ι) : Prop where
  steps : Relation.ReflTransGen OwnStep state next
  invariant : next.Invariant
  activeNetwork : next.activeNetwork = state.activeNetwork
  awaited : ∀ signal, (next.places thread).AwaitedBy signal → (state.places thread).AwaitedBy signal

theorem Leads.refl (invariant : state.Invariant) : Leads thread state state := ⟨.refl, invariant, rfl, fun _ => id⟩

theorem Leads.trans {middle : State ι} (first : Leads thread state middle) (second : Leads thread middle next) :
    Leads thread state next :=
  ⟨first.steps.trans second.steps, second.invariant, second.activeNetwork.trans first.activeNetwork,
    fun signal awaited => first.awaited signal (second.awaited signal awaited)⟩

theorem awaited_move {mover : ι} {place : Place}
    (kept : ∀ signal, place.AwaitedBy signal → (state.places mover).AwaitedBy signal) (signal : Signal)
    (awaited : ((state.move mover place).places thread).AwaitedBy signal) : (state.places thread).AwaitedBy signal := by
  change (Function.update state.places mover place thread).AwaitedBy signal at awaited
  by_cases same : thread = mover
  · rw [same, Function.update_self] at awaited
    rw [same]
    exact kept signal awaited
  · rw [Function.update_of_ne same] at awaited
    exact awaited

theorem Leads.step (invariant : state.Invariant) (step : OwnStep state next) : Leads thread state next := by
  refine ⟨.single step, invariant.ownStep step, ?_, ?_⟩
  · cases step <;> rfl
  · cases step with
    | @enter mover signal here free => exact awaited_move fun signal awaited => by rw [here]; exact awaited
    | @rethrow mover here free => exact awaited_move fun signal awaited => absurd awaited id
    | @look mover signal here => exact awaited_move fun signal awaited => by rw [here]; exact awaited
    | @leave mover signal here => exact awaited_move fun signal awaited => absurd awaited id
    | @wait mover signal here => exact awaited_move fun signal awaited => by rw [here]; exact awaited
    | receive sent idle => exact fun _ => id
    | onReceive here free => exact fun _ => id
    | notifyAll here =>
      intro signal awaited
      change (state.places thread).notified.AwaitedBy signal at awaited
      generalize state.places thread = place at awaited ⊢
      cases place <;> exact awaited

/-- Whoever has the lock gives it back. -/
theorem exists_free (invariant : state.Invariant) (thread : ι) :
    ∃ next, Leads thread state next ∧ next.whenNetworkOk = none := by
  -- a thread that has looked leaves or waits
  have looked {state : State ι} (invariant : state.Invariant) {holder : ι} {signal : Signal} {isAvailable : Bool}
      (here : state.places holder = .looked signal isAvailable) :
      ∃ next, Leads thread state next ∧ next.whenNetworkOk = none := by
    cases isAvailable with
    | true => exact ⟨_, .step invariant (.leave here), rfl⟩
    | false => exact ⟨_, .step invariant (.wait here), rfl⟩
  cases held : state.whenNetworkOk with
  | none => exact ⟨state, .refl invariant, held⟩
  | some holder =>
    cases holder with
    | receiver => exact ⟨_, .step invariant (.notifyAll (invariant.notifier.mpr held)), rfl⟩
    | thread holder =>
      have has := (invariant.holder holder).mpr held
      cases here : state.places holder with
      | inside signal =>
        have first : Leads thread state _ := .step invariant (.look here)
        obtain ⟨next, leads, free⟩ := looked first.invariant (Function.update_self _ _ _)
        exact ⟨next, first.trans leads, free⟩
      | looked signal isAvailable => exact looked invariant here
      | outside | entering | waiting | interrupted =>
        rw [here] at has
        exact absurd has id

/-- A thread that finds what it came for leaves. -/
theorem exists_outside_of_entering (invariant : state.Invariant) (free : state.whenNetworkOk = none) {signal : Signal}
    (here : state.places thread = .entering signal) (isAvailable : available signal state.activeNetwork = true) :
    ∃ next, Leads thread state next ∧ next.places thread = .outside := by
  have entered : Leads thread state _ := .step invariant (.enter here free)
  have looks : Leads thread _ _ := .step entered.invariant (.look (Function.update_self _ _ _))
  have seen : ((((state.move thread (.inside signal)).withLock (some (.thread thread))).move thread
      (.looked signal (available signal state.activeNetwork))).places thread) = .looked signal true := by
    rw [isAvailable]
    exact Function.update_self _ _ _
  have leaves : Leads thread _ _ := .step looks.invariant (.leave seen)
  exact ⟨_, (entered.trans looks).trans leaves, Function.update_self _ _ _⟩

/-- A thread that waits for what is there is woken up. -/
theorem exists_entering_of_waiting (invariant : state.Invariant) (free : state.whenNetworkOk = none) {signal : Signal}
    (here : state.places thread = .waiting signal) (isAvailable : available signal state.activeNetwork = true) :
    ∃ next, Leads thread state next ∧ next.whenNetworkOk = none ∧ next.places thread = .entering signal := by
  have receives {state : State ι} (invariant : state.Invariant) (free : state.whenNetworkOk = none)
      (here : state.places thread = .waiting signal) (entering : state.receiver = .entering) :
      ∃ next, Leads thread state next ∧ next.whenNetworkOk = none ∧ next.places thread = .entering signal := by
    have enters : Leads thread state _ := .step invariant (.onReceive entering free)
    have wakes : Leads thread _ _ := .step enters.invariant (.notifyAll rfl)
    refine ⟨_, enters.trans wakes, rfl, ?_⟩
    show (state.places thread).notified = .entering signal
    rw [here]
    rfl
  cases busy : state.receiver with
  | notifying =>
    have held := invariant.notifier.mp busy
    rw [free] at held
    cases held
  | entering => exact receives invariant free here busy
  | idle =>
    obtain sent | notIdle := invariant.announced thread signal (by rw [here]; rfl) isAvailable
    · obtain ⟨broadcasts, isSucc⟩ := Nat.exists_eq_succ_of_ne_zero (Nat.pos_iff_ne_zero.mp sent)
      have first : Leads thread state _ := .step invariant (.receive isSucc busy)
      obtain ⟨next, leads, nextFree, entering⟩ := receives first.invariant free here rfl
      exact ⟨next, first.trans leads, nextFree, entering⟩
    · exact absurd busy notIdle

/-- As long as what a thread came for is there, the call can return without anything else happening to the device,
whatever the other threads are doing. -/
theorem wait_can_end (reachable : Reachable state)
    (there : ∀ signal, (state.places thread).AwaitedBy signal → available signal state.activeNetwork = true) :
    ∃ next, Relation.ReflTransGen OwnStep state next ∧ next.places thread = .outside := by
  suffices leads : ∃ next, Leads thread state next ∧ next.places thread = .outside by
    obtain ⟨next, leads, outside⟩ := leads
    exact ⟨next, leads.steps, outside⟩
  obtain ⟨middle, first, free⟩ := exists_free reachable.invariant thread
  have thereStill (signal : Signal) (awaited : (middle.places thread).AwaitedBy signal) :
      available signal middle.activeNetwork = true := by
    rw [first.activeNetwork]
    exact there signal (first.awaited signal awaited)
  have noLock : ¬(middle.places thread).HasLock := by
    intro has
    have held := (first.invariant.holder thread).mp has
    rw [free] at held
    cases held
  cases here : middle.places thread with
  | outside => exact ⟨middle, first, here⟩
  | interrupted =>
    have throws : Leads thread middle _ := .step first.invariant (.rethrow here free)
    exact ⟨_, first.trans throws, Function.update_self _ _ _⟩
  | entering signal =>
    obtain ⟨next, leads, outside⟩ :=
      exists_outside_of_entering first.invariant free here (thereStill signal (by rw [here]; rfl))
    exact ⟨next, first.trans leads, outside⟩
  | waiting signal =>
    have isAvailable := thereStill signal (by rw [here]; rfl)
    obtain ⟨woken, second, wokenFree, entering⟩ := exists_entering_of_waiting first.invariant free here isAvailable
    obtain ⟨next, leads, outside⟩ :=
      exists_outside_of_entering second.invariant wokenFree entering (by rw [second.activeNetwork]; exact isAvailable)
    exact ⟨next, (first.trans second).trans leads, outside⟩
  | inside signal =>
    rw [here] at noLock
    exact absurd trivial noLock
  | looked signal isAvailable =>
    rw [here] at noLock
    exact absurd trivial noLock

end Progress

/-! One thread that waits, and the network that comes back. -/

namespace Worker

def called : State Unit := (State.start none).move () (.entering .network)

def entered : State Unit := (called.move () (.inside .network)).withLock (some (.thread ()))

def hasLooked : State Unit := entered.move () (.looked .network (available .network entered.activeNetwork))

def offline : State Unit := (hasLooked.move () (.waiting .network)).withLock none

def connected : State Unit := { offline with activeNetwork := some ⟨false, true⟩, broadcasts := offline.broadcasts + 1 }

theorem reachable_offline : Reachable offline := by
  have first : Relation.ReflTransGen Step (State.start none) called := .single (.inr (.call .network rfl))
  have second := first.tail (.inl (.enter rfl rfl) : Step called entered)
  have third := second.tail (.inl (.look rfl) : Step entered hasLooked)
  exact ⟨none, third.tail (.inl (.wait rfl))⟩

theorem reachable_connected : Reachable connected := by
  obtain ⟨activeNetwork, steps⟩ := reachable_offline
  exact ⟨activeNetwork, steps.tail (.inr (.change _))⟩

theorem waits_offline :
    offline.places () = .waiting .network ∧ available .network offline.activeNetwork = false :=
  ⟨rfl, waits_only_without_network reachable_offline rfl rfl (rfl : offline.places () = .waiting .network)⟩

theorem returns_connected :
    connected.places () = .waiting .network ∧
      ∃ next, Relation.ReflTransGen OwnStep connected next ∧ next.places () = .outside := by
  refine ⟨rfl, wait_can_end reachable_connected ?_⟩
  intro signal awaited
  obtain rfl : Signal.network = signal := awaited
  rfl

end Worker

end Aelf.Components.NetworkWait
