import Mathlib.Logic.Basic

/-! # Runs of a deterministic system

A system is a function from a state and an event to the next state; a run folds it
over a list of events.  A guard says which events are allowed in which states. -/

namespace Aelf.Library.Runs

variable {σ τ ε : Type} (apply : σ → ε → σ)

/-- Every event of the run is allowed in the state that it meets. -/
def Allowed (guard : σ → ε → Prop) : σ → List ε → Prop
  | _, [] => True
  | state, event :: events => guard state event ∧ Allowed guard (apply state event) events

theorem allowed_of_forall {guard : ε → Prop} {events : List ε} (all : ∀ event ∈ events, guard event)
    (state : σ) : Allowed apply (fun _ event => guard event) state events := by
  induction events generalizing state with
  | nil => trivial
  | cons event events inductionHypothesis =>
    exact ⟨all event (by simp), inductionHypothesis (fun later member => all later (by simp [member])) _⟩

theorem allowed_append {guard : σ → ε → Prop} {state : σ} {before after : List ε} :
    Allowed apply guard state (before ++ after) ↔
      Allowed apply guard state before ∧ Allowed apply guard (before.foldl apply state) after := by
  induction before generalizing state with
  | nil => simp [Allowed]
  | cons event before inductionHypothesis => simp [Allowed, inductionHypothesis, and_assoc]

/-- What allowed events preserve holds at the end of every allowed run. -/
theorem invariant_run {guard : σ → ε → Prop} (invariant : σ → Prop)
    (preserved : ∀ state event, guard state event → invariant state → invariant (apply state event))
    {state : σ} {events : List ε} (allowed : Allowed apply guard state events) (holds : invariant state) :
    invariant (events.foldl apply state) := by
  induction events generalizing state with
  | nil => exact holds
  | cons event events inductionHypothesis =>
    obtain ⟨first, rest⟩ := allowed
    exact inductionHypothesis rest (preserved state event first holds)

/-- What every event preserves holds at the end of every run. -/
theorem invariant_foldl (invariant : σ → Prop)
    (preserved : ∀ state event, invariant state → invariant (apply state event)) {state : σ} (events : List ε)
    (holds : invariant state) : invariant (events.foldl apply state) :=
  invariant_run apply invariant (fun state event _ => preserved state event)
    (allowed_of_forall apply (fun _ _ => trivial) state) holds

/-- Two systems that stay related event by event stay related along runs. -/
theorem simulation_run (applyAbstract : τ → ε → τ) {guard : ε → Prop} (related : σ → τ → Prop)
    (simulates : ∀ state abstract event, guard event → related state abstract →
      related (apply state event) (applyAbstract abstract event))
    {events : List ε} (all : ∀ event ∈ events, guard event) {state : σ} {abstract : τ}
    (holds : related state abstract) :
    related (events.foldl apply state) (events.foldl applyAbstract abstract) := by
  induction events generalizing state abstract with
  | nil => exact holds
  | cons event events inductionHypothesis =>
    apply inductionHypothesis fun later member => all later (by simp [member])
    exact simulates state abstract event (all event (by simp)) holds

/-- A system that can fail follows an abstract one along every run that the abstract one allows, without failing. -/
theorem simulation_foldlM (apply : σ → ε → Option σ) (applyAbstract : τ → ε → τ) {guard : τ → ε → Prop}
    (related : τ → σ → Prop)
    (simulates : ∀ abstract state event, guard abstract event → related abstract state →
      ∃ next, apply state event = some next ∧ related (applyAbstract abstract event) next)
    {events : List ε} {abstract : τ} {state : σ} (allowed : Allowed applyAbstract guard abstract events)
    (holds : related abstract state) :
    ∃ final, events.foldlM apply state = some final ∧ related (events.foldl applyAbstract abstract) final := by
  induction events generalizing abstract state with
  | nil => exact ⟨state, rfl, holds⟩
  | cons event events inductionHypothesis =>
    obtain ⟨first, rest⟩ := allowed
    obtain ⟨next, stepped, kept⟩ := simulates abstract state event first holds
    obtain ⟨final, ran, related⟩ := inductionHypothesis rest kept
    refine ⟨final, ?_, related⟩
    rw [List.foldlM_cons, stepped]
    exact ran

/-! ## Systems that stop -/

section Stopping

variable {χ : Type}

/-- Both have stopped for the same reason, or both go on in related states. -/
inductive Agree (related : τ → σ → Prop) : Except χ τ → Except χ σ → Prop where
  | ok {abstract : τ} {state : σ} (holds : related abstract state) : Agree related (.ok abstract) (.ok state)
  | error (reason : χ) : Agree related (.error reason) (.error reason)

theorem Agree.bind {τ' σ' : Type} {related : τ → σ → Prop} {relatedAfter : τ' → σ' → Prop} {abstract : Except χ τ}
    {result : Except χ σ} {nextAbstract : τ → Except χ τ'} {next : σ → Except χ σ'}
    (agree : Agree related abstract result)
    (after : ∀ abstract state, related abstract state → Agree relatedAfter (nextAbstract abstract) (next state)) :
    Agree relatedAfter (abstract >>= nextAbstract) (result >>= next) := by
  cases agree with
  | ok holds => exact after _ _ holds
  | error reason => exact .error reason

theorem exists_of_bind_eq_ok {τ' : Type} {result : Except χ τ} {next : τ → Except χ τ'} {final : τ'}
    (returned : (result >>= next) = .ok final) : ∃ value, result = .ok value ∧ next value = .ok final := by
  cases result with
  | ok value => exact ⟨value, rfl, returned⟩
  | error reason => cases returned

/-- Every event of the run is allowed in the state that it meets, up to where the run stops. -/
def AllowedUntil (apply : τ → ε → Except χ τ) (guard : τ → ε → Prop) : τ → List ε → Prop
  | _, [] => True
  | state, event :: events =>
    guard state event ∧ ∀ next, apply state event = .ok next → AllowedUntil apply guard next events

theorem AllowedUntil.cons {apply : τ → ε → Except χ τ} {guard : τ → ε → Prop} {state next : τ} {event : ε}
    {events : List ε} (first : guard state event) (applied : apply state event = .ok next)
    (rest : AllowedUntil apply guard next events) : AllowedUntil apply guard state (event :: events) := by
  refine ⟨first, fun other same => ?_⟩
  obtain rfl := Except.ok.inj (applied.symm.trans same)
  exact rest

theorem allowedUntil_true (apply : τ → ε → Except χ τ) (state : τ) (events : List ε) :
    AllowedUntil apply (fun _ _ => True) state events := by
  induction events generalizing state with
  | nil => trivial
  | cons event events inductionHypothesis => exact ⟨trivial, fun next _ => inductionHypothesis next⟩

theorem agree_foldlM {apply : σ → ε → Except χ σ} {applyAbstract : τ → ε → Except χ τ} {guard : τ → ε → Prop}
    {related : τ → σ → Prop}
    (simulates : ∀ abstract state event, guard abstract event → related abstract state →
      Agree related (applyAbstract abstract event) (apply state event))
    {events : List ε} {abstract : τ} {state : σ} (allowed : AllowedUntil applyAbstract guard abstract events)
    (holds : related abstract state) :
    Agree related (events.foldlM applyAbstract abstract) (events.foldlM apply state) := by
  induction events generalizing abstract state with
  | nil => exact .ok holds
  | cons event events inductionHypothesis =>
    obtain ⟨first, rest⟩ := allowed
    rw [List.foldlM_cons, List.foldlM_cons]
    have step := simulates abstract state event first holds
    generalize applied : applyAbstract abstract event = abstractResult at step ⊢
    generalize apply state event = result at step ⊢
    cases step with
    | ok related => exact inductionHypothesis (rest _ applied) related
    | error reason => exact .error reason

/-- What allowed events preserve holds at the end of every allowed run that does not stop. -/
theorem invariant_foldlM {apply : σ → ε → Except χ σ} {guard : σ → ε → Prop} (invariant : σ → Prop)
    (preserved : ∀ state event next, guard state event → invariant state → apply state event = .ok next →
      invariant next)
    {events : List ε} {state final : σ} (allowed : AllowedUntil apply guard state events) (holds : invariant state)
    (ran : events.foldlM apply state = .ok final) : invariant final := by
  induction events generalizing state with
  | nil =>
    obtain rfl := Except.ok.inj ran
    exact holds
  | cons event events inductionHypothesis =>
    obtain ⟨first, rest⟩ := allowed
    rw [List.foldlM_cons] at ran
    obtain ⟨next, applied, continued⟩ := exists_of_bind_eq_ok ran
    exact inductionHypothesis (rest next applied) (preserved state event next first holds applied) continued

/-- A system that allowed events never stop does not stop along any allowed run. -/
theorem safe_foldlM {apply : σ → ε → Except χ σ} {guard : σ → ε → Prop} (invariant : σ → Prop)
    (safe : ∀ state event, guard state event → invariant state →
      ∃ next, apply state event = .ok next ∧ invariant next)
    {events : List ε} {state : σ} (allowed : AllowedUntil apply guard state events) (holds : invariant state) :
    ∃ final, events.foldlM apply state = .ok final ∧ invariant final := by
  induction events generalizing state with
  | nil => exact ⟨state, rfl, holds⟩
  | cons event events inductionHypothesis =>
    obtain ⟨first, rest⟩ := allowed
    obtain ⟨next, applied, kept⟩ := safe state event first holds
    obtain ⟨final, ran, holds⟩ := inductionHypothesis (rest next applied) kept
    refine ⟨final, ?_, holds⟩
    rw [List.foldlM_cons, applied]
    exact ran

end Stopping

end Aelf.Library.Runs
