import Aelf.Library.Runs
import Aelf.Lectures.Controller

/-! # Downloads of one office side by side

The calls to `loadLecturesFromNetwork` for one office and one day, from the sync pool and
from the UI.  A call reads the version that the server has at that moment and stores it
later; in between the server may publish another version, and other calls may read and
store theirs. -/

namespace Aelf.Lectures.Freshness

open Aelf.Library
open Aelf.Library.Calendar (Moment)

variable {α : Type}

/-! ## State -/

/-- A call before its read, between its read and its store, and after. -/
inductive Call (α : Type) where
  | notStarted
  | downloaded (response : OfficeResponse α) (revision : Nat)
  | ended

/-- The versions that the server has had, the current one last, the cache and the calls.  Versions are
numbered from 0; `latest` is the greatest number that has been stored. -/
structure Downloads (α : Type) where
  versions : List (OfficeResponse α)
  cache : Cache α
  calls : Nat → Call α
  latest : Nat

inductive Event (α : Type) where
  | update (response : OfficeResponse α)
  | read (call : Nat)
  | store (call : Nat) (sqlite : SqliteOutcome)

def start (version : OfficeResponse α) (cache : Cache α) : Downloads α := ⟨[version], cache, fun _ => .notStarted, 0⟩

namespace Downloads

variable (what : OfficeTypes) (date : AelfDate) (apiVersion : Int)

def setCall (downloads : Downloads α) (number : Nat) (call : Call α) : Downloads α :=
  { downloads with calls := Function.update downloads.calls number call }

/-- `api.getOffice` -/
def read (downloads : Downloads α) (number : Nat) : Downloads α :=
  match downloads.calls number, downloads.versions.getLast? with
  | .notStarted, some response => downloads.setCall number (.downloaded response (downloads.versions.length - 1))
  | _, _ => downloads

/-- `cache.store`, with the arguments that `loadLecturesFromNetwork` passes. -/
def store (downloads : Downloads α) (number : Nat) (sqlite : SqliteOutcome) : Downloads α :=
  match downloads.calls number with
  | .downloaded response revision =>
    { downloads.setCall number .ended with
      cache := (Cache.store sqlite downloads.cache what date response.office response.checksum
        response.generationDate apiVersion).2
      latest :=
        match sqlite with
        | .done => max downloads.latest revision
        | .sqliteException => downloads.latest }
  | _ => downloads

def apply (downloads : Downloads α) : Event α → Downloads α
  | .update response => { downloads with versions := downloads.versions ++ [response] }
  | .read number => downloads.read number
  | .store number sqlite => downloads.store what date apiVersion number sqlite

def run (downloads : Downloads α) (events : List (Event α)) : Downloads α :=
  events.foldl (apply what date apiVersion) downloads

/-- The generation date of the entry, as the cache reads it back. -/
def cachedDate [HttpDateFormat] (downloads : Downloads α) : Option Moment :=
  (downloads.cache.find? (date.toIsoString, what.toString)).map fun row => (IsoDate.ofString row.create_date).moment

/-- A call that nothing comes between is `loadLecturesFromNetwork`. -/
theorem cache_store_read [HttpDateFormat] (env : Environment α) {downloads : Downloads α} {number : Nat}
    {response : OfficeResponse α} (fresh : downloads.calls number = .notStarted)
    (current : downloads.versions.getLast? = some response)
    (answered : getOffice env.server env.now (LecturesController.officeRequest env what date) = .ok response) :
    ((downloads.read number).store what date env.apiVersion number env.sqlite).cache =
      (LecturesController.loadLecturesFromNetwork env downloads.cache what date).2 := by
  simp only [read, fresh, current, store, setCall, Function.update_self, LecturesController.loadLecturesFromNetwork,
    answered]
  cases env.sqlite <;> rfl

end Downloads

/-! ## Dates that only increase -/

/-- The server publishes versions whose generation date is not before that of the current one. -/
def Increases (downloads : Downloads α) : Event α → Prop
  | .update response =>
    ∀ current ∈ downloads.versions.getLast?, current.generationDate.moment ≤ response.generationDate.moment
  | _ => True

/-- No call stores a version after a later one has been stored. -/
def InOrder (downloads : Downloads α) : Event α → Prop
  | .store number .done => ∀ response revision, downloads.calls number = .downloaded response revision →
    downloads.latest ≤ revision
  | _ => True

def NotBefore (first second : Option Moment) : Prop := ∀ earlier ∈ first, ∃ later ∈ second, earlier ≤ later

/-- No step of the run takes the cached entry back in time. -/
def NeverDecreases [HttpDateFormat] (what : OfficeTypes) (date : AelfDate) (apiVersion : Int) (initial : Downloads α)
    (events : List (Event α)) : Prop :=
  ∀ before event after, events = before ++ event :: after →
    NotBefore ((initial.run what date apiVersion before).cachedDate what date)
      ((initial.run what date apiVersion (before ++ [event])).cachedDate what date)

theorem NotBefore.refl (date : Option Moment) : NotBefore date date := fun earlier member => ⟨earlier, member, le_rfl⟩

/-- The date to which the cache rounds the generation date of a version. -/
def storedDate (response : OfficeResponse α) : Moment := response.generationDate.moment.truncate

section Steps

variable [HttpDateFormat] {what : OfficeTypes} {date : AelfDate} {apiVersion : Int} {downloads : Downloads α}

/-- Versions are dated in order, in the current era, and the entry is not newer than the version of
any call that has not been overtaken. -/
structure Invariant (what : OfficeTypes) (date : AelfDate) (downloads : Downloads α) : Prop where
  sorted : downloads.versions.Pairwise fun first second =>
    first.generationDate.moment ≤ second.generationDate.moment
  currentEra : ∀ version ∈ downloads.versions, 1 ≤ version.generationDate.moment.date.year
  read : ∀ number response revision, downloads.calls number = .downloaded response revision →
    downloads.versions[revision]? = some response
  known : downloads.latest < downloads.versions.length
  notNewer : ∀ cached ∈ downloads.cachedDate what date, ∀ revision response, downloads.latest ≤ revision →
    downloads.versions[revision]? = some response → cached ≤ storedDate response

theorem invariant_start {version : OfficeResponse α} {cache : Cache α}
    (currentEra : 1 ≤ version.generationDate.moment.date.year)
    (notNewer : ∀ cached ∈ (start version cache).cachedDate what date, cached ≤ storedDate version) :
    Invariant what date (start version cache) where
  sorted := List.pairwise_singleton _ _
  currentEra := by simpa [start] using currentEra
  read := by simp [start]
  known := by simp [start]
  notNewer := by
    intro cached member revision response _ found
    have only : response = version := by
      have among := List.mem_of_getElem? found
      simpa [start] using among
    exact only ▸ notNewer cached member

theorem Invariant.generationDate_le (invariant : Invariant what date downloads) {revision later : Nat}
    {response successor : OfficeResponse α} (found : downloads.versions[revision]? = some response)
    (foundLater : downloads.versions[later]? = some successor) (ordered : revision ≤ later) :
    response.generationDate.moment ≤ successor.generationDate.moment := by
  obtain ⟨bound, rfl⟩ := List.getElem?_eq_some_iff.mp found
  obtain ⟨boundLater, rfl⟩ := List.getElem?_eq_some_iff.mp foundLater
  rcases Nat.lt_or_eq_of_le ordered with before | rfl
  · exact List.pairwise_iff_getElem.mp invariant.sorted revision later bound boundLater before
  · exact le_rfl

theorem invariant_update {response : OfficeResponse α} (invariant : Invariant what date downloads)
    (increases : Increases downloads (.update response)) :
    Invariant what date { downloads with versions := downloads.versions ++ [response] } := by
  have nonempty : downloads.versions ≠ [] := List.ne_nil_of_length_pos (Nat.zero_lt_of_lt invariant.known)
  have last : downloads.versions[downloads.versions.length - 1]? = some (downloads.versions.getLast nonempty) := by
    rw [← List.getLast?_eq_getElem?, List.getLast?_eq_some_getLast nonempty]
  have current := increases _ (List.getLast?_eq_some_getLast nonempty)
  have notAfter : ∀ version ∈ downloads.versions,
      version.generationDate.moment ≤ response.generationDate.moment := by
    intro version member
    obtain ⟨revision, found⟩ := List.mem_iff_getElem?.mp member
    obtain ⟨bound, _⟩ := List.getElem?_eq_some_iff.mp found
    exact (invariant.generationDate_le found last (by omega)).trans current
  exact {
    sorted := by
      refine List.pairwise_append.mpr ⟨invariant.sorted, List.pairwise_singleton _ _, ?_⟩
      intro version member added addedMember
      rw [List.mem_singleton.mp addedMember]
      exact notAfter version member
    currentEra := by
      intro version member
      rcases List.mem_append.mp member with old | added
      · exact invariant.currentEra version old
      · have era := invariant.currentEra _ (List.getLast_mem nonempty)
        rw [List.mem_singleton.mp added]
        exact era.trans (Calendar.Date.year_le_of_le (Moment.date_le_of_le current))
    read := by
      intro number read revision downloaded
      have found := invariant.read number read revision downloaded
      obtain ⟨bound, _⟩ := List.getElem?_eq_some_iff.mp found
      exact (List.getElem?_append_left bound).trans found
    known := by
      have known := invariant.known
      simp only [List.length_append]
      omega
    notNewer := by
      intro cached member revision version reached found
      -- A new version is not older than the current one, which the entry does not exceed.
      by_cases old : revision < downloads.versions.length
      · rw [List.getElem?_append_left old] at found
        exact invariant.notNewer cached member revision version reached found
      · have added : version = response := by
          obtain ⟨bound, element⟩ := List.getElem?_eq_some_iff.mp found
          rw [← element, List.getElem_append_right (by omega)]
          simp
        have known := invariant.known
        have before := invariant.notNewer cached member _ _ (by omega) last
        rw [added]
        exact before.trans (Moment.truncate_le_truncate current) }

theorem invariant_read (number : Nat) (invariant : Invariant what date downloads) :
    Invariant what date (downloads.read number) := by
  unfold Downloads.read
  split
  case h_1 response _ current =>
    refine ⟨invariant.sorted, invariant.currentEra, ?_, invariant.known, invariant.notNewer⟩
    intro other read revision downloaded
    by_cases same : other = number
    · subst same
      simp only [Downloads.setCall, Function.update_self, Call.downloaded.injEq] at downloaded
      obtain ⟨rfl, rfl⟩ := downloaded
      exact List.getLast?_eq_getElem?.symm.trans current
    · simp only [Downloads.setCall, Function.update_of_ne same] at downloaded
      exact invariant.read other read revision downloaded
  case h_2 => exact invariant

/-- What the cache reads back after a store that succeeds. -/
theorem cachedDate_store (apiVersion : Int) {number : Nat} {response : OfficeResponse α} {revision : Nat}
    (invariant : Invariant what date downloads) (downloaded : downloads.calls number = .downloaded response revision) :
    (downloads.store what date apiVersion number .done).cachedDate what date = some (storedDate response) := by
  have era := invariant.currentEra response (List.mem_of_getElem? (invariant.read number response revision downloaded))
  have key : (Cache.newRow what date response.office response.checksum response.generationDate apiVersion).key =
      (date.toIsoString, what.toString) := rfl
  simp only [Downloads.cachedDate, Downloads.store, downloaded, Cache.store, Table.find?_insertOrReplace, key, if_true,
    Option.map_some]
  rw [Cache.newRow, IsoDate.ofString_toString response.generationDate era]
  rfl

theorem invariant_store {number : Nat} {sqlite : SqliteOutcome} (invariant : Invariant what date downloads)
    (inOrder : InOrder downloads (.store number sqlite)) :
    Invariant what date (downloads.store what date apiVersion number sqlite) := by
  cases call : downloads.calls number with
  | notStarted | ended => simpa [Downloads.store, call] using invariant
  | downloaded response revision =>
    have found := invariant.read number response revision call
    have remaining : ∀ other read otherRevision,
        Function.update downloads.calls number .ended other = .downloaded read otherRevision →
          downloads.versions[otherRevision]? = some read := by
      intro other read otherRevision downloaded
      by_cases same : other = number
      · simp [same] at downloaded
      · rw [Function.update_of_ne same] at downloaded
        exact invariant.read other read otherRevision downloaded
    cases sqlite with
    | sqliteException =>
      simp only [Downloads.store, call]
      exact ⟨invariant.sorted, invariant.currentEra, remaining, invariant.known, invariant.notNewer⟩
    | done =>
      -- The calls that are left read this version or a later one, or have been overtaken.
      have ordered : downloads.latest ≤ revision := inOrder response revision call
      have cached := cachedDate_store apiVersion invariant call
      simp only [Downloads.store, call, max_eq_right ordered] at cached ⊢
      refine ⟨invariant.sorted, invariant.currentEra, remaining, (List.getElem?_eq_some_iff.mp found).1, ?_⟩
      intro entry member later successor reached foundLater
      rw [cached, Option.mem_some_iff] at member
      subst member
      exact Moment.truncate_le_truncate (invariant.generationDate_le found foundLater reached)

theorem invariant_apply {event : Event α} (invariant : Invariant what date downloads)
    (allowed : Increases downloads event ∧ InOrder downloads event) :
    Invariant what date (downloads.apply what date apiVersion event) := by
  cases event with
  | update response => exact invariant_update invariant allowed.1
  | read number => exact invariant_read number invariant
  | store number sqlite => exact invariant_store invariant allowed.2

/-- Only a store changes the entry, and a call that was not overtaken has a version that is not older. -/
theorem notBefore_apply {event : Event α} (invariant : Invariant what date downloads)
    (inOrder : InOrder downloads event) :
    NotBefore (downloads.cachedDate what date)
      ((downloads.apply what date apiVersion event).cachedDate what date) := by
  cases event with
  | update response => exact .refl _
  | read number =>
    have same : (downloads.read number).cache = downloads.cache := by
      unfold Downloads.read
      split <;> rfl
    simp only [Downloads.apply, Downloads.cachedDate, same]
    exact .refl _
  | store number sqlite =>
    cases call : downloads.calls number with
    | notStarted | ended =>
      simp only [Downloads.apply, Downloads.store, call]
      exact .refl _
    | downloaded response revision =>
      cases sqlite with
      | sqliteException =>
        simp only [Downloads.apply, Downloads.store, call]
        exact .refl _
      | done =>
        intro earlier member
        refine ⟨storedDate response, cachedDate_store apiVersion invariant call, ?_⟩
        have found := invariant.read number response revision call
        exact invariant.notNewer earlier member revision response (inOrder response revision call) found

/-- When the dates of the server only increase and no call stores a version after a later one has been
stored, the cached entry never goes back in time. -/
theorem never_decreases_of_in_order (what : OfficeTypes) (date : AelfDate) (apiVersion : Int)
    {version : OfficeResponse α} {cache : Cache α} (currentEra : 1 ≤ version.generationDate.moment.date.year)
    (notNewer : ∀ cached ∈ (start version cache).cachedDate what date, cached ≤ storedDate version)
    {events : List (Event α)}
    (allowed : Runs.Allowed (Downloads.apply what date apiVersion)
      (fun downloads event => Increases downloads event ∧ InOrder downloads event) (start version cache) events) :
    NeverDecreases what date apiVersion (start version cache) events := by
  intro before event after split
  rw [split, Runs.allowed_append] at allowed
  obtain ⟨allowedBefore, allowedEvent, _⟩ := allowed
  have invariant : Invariant what date ((start version cache).run what date apiVersion before) :=
    Runs.invariant_run (Downloads.apply what date apiVersion) (Invariant what date)
      (fun _ _ allowed invariant => invariant_apply invariant allowed) allowedBefore
      (invariant_start currentEra notNewer)
  rw [Downloads.run, Downloads.run, List.foldl_append]
  exact notBefore_apply invariant allowedEvent.2

end Steps

/-! ## A correction published between two downloads -/

namespace CorrectedMass

def date : AelfDate := .ofDay ⟨2024, 5, 20, isDate_20_may_2024⟩

def version (day : Nat) (valid : Calendar.IsDate 2024 5 day) (checksum : String) : OfficeResponse Unit :=
  ⟨some (), checksum, ⟨⟨⟨2024, 5, day, valid⟩, 0, midnight_lt⟩, true⟩⟩

def published : OfficeResponse Unit := version 10 (by decide) "published"

def corrected : OfficeResponse Unit := version 12 (by decide) "corrected"

/-- The reader opens the mass while a sync downloads it, and the correction appears in between. -/
def reads : List (Event Unit) := [.read 0, .update corrected, .read 1]

theorem correction_increases : Increases (start published Table.empty) (.update corrected) := by
  have later : published.generationDate.moment ≤ corrected.generationDate.moment := by decide
  simpa [Increases, start] using later

/-- The calls store in the order of their reads. -/
theorem stores_in_order :
    letI : HttpDateFormat := ⟨fun _ => none⟩
    1 ≤ published.generationDate.moment.date.year ∧
      NeverDecreases .messe date 82 (start published Table.empty) (reads ++ [.store 0 .done, .store 1 .done]) := by
  let _ : HttpDateFormat := ⟨fun _ => none⟩
  have currentEra : 1 ≤ published.generationDate.moment.date.year := by decide
  refine ⟨currentEra, never_decreases_of_in_order .messe date 82 currentEra (by simp [start, Downloads.cachedDate]) ?_⟩
  exact ⟨⟨trivial, trivial⟩, ⟨correction_increases, trivial⟩, ⟨trivial, trivial⟩,
    ⟨trivial, fun _ _ _ => Nat.zero_le _⟩, ⟨trivial, fun _ _ _ => Nat.zero_le _⟩, trivial⟩

/-- The call that read first stores last, and takes the correction away. -/
theorem overtaken_store_restores_published :
    letI : HttpDateFormat := ⟨fun _ => none⟩
    ¬∀ events : List (Event Unit),
      Runs.Allowed (Downloads.apply .messe date 82) Increases (start published Table.empty) events →
        NeverDecreases .messe date 82 (start published Table.empty) events := by
  let _ : HttpDateFormat := ⟨fun _ => none⟩
  intro kept
  have allowed : Runs.Allowed (Downloads.apply .messe date 82) Increases (start published Table.empty)
      (reads ++ [.store 1 .done, .store 0 .done]) :=
    ⟨trivial, correction_increases, trivial, trivial, trivial, trivial⟩
  have never := kept _ allowed
  have before : ((start published Table.empty).run .messe date 82 (reads ++ [.store 1 .done])).cachedDate .messe date =
      some (storedDate corrected) := by decide +kernel
  have after : ((start published Table.empty).run .messe date 82
      ((reads ++ [.store 1 .done]) ++ [.store 0 .done])).cachedDate .messe date =
      some (storedDate published) := by decide +kernel
  have step := never (reads ++ [.store 1 .done]) (.store 0 .done) [] rfl
  rw [before, after] at step
  obtain ⟨later, member, notBefore⟩ := step (storedDate corrected) rfl
  rw [Option.mem_some_iff] at member
  subst member
  exact absurd notBefore (by decide)

end CorrectedMass

end Aelf.Lectures.Freshness
