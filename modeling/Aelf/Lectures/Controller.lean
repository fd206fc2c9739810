import Aelf.Lectures.Api

/-! # Loading an office

`LecturesController`: read the cache, ask the server, fall back on the cold cache.
Every call returns the cache it leaves behind together with its result or the
exception it lets through. -/

namespace Aelf.Lectures

open Aelf.Library
open Aelf.Library.Calendar (Moment)

variable {α : Type}

/-- Everything a call depends on besides its arguments and the cache. -/
structure Environment (α : Type) where
  apiVersion : Int
  region : String
  isNetworkAvailable : Bool
  server : Server α
  now : Moment
  sqlite : SqliteOutcome

namespace LecturesController

def officeRequest (env : Environment α) (what : OfficeTypes) (date : AelfDate) : Request where
  apiVersion := env.apiVersion
  officeName := what.apiName
  date := date.toIsoString
  region := env.region

/-- -1 accepts every version. -/
def minLoadVersion (env : Environment α) (allowColdCache : Bool) : Int :=
  if allowColdCache then -1 else env.apiVersion

/-! ## What the first read finds -/

/-- The cache holds an entry for the key, of any version, whose blob decodes to an office. -/
def HoldsDecodable (cache : Cache α) (what : OfficeTypes) (date : AelfDate) : Prop :=
  ∃ row office, cache.find? (date.toIsoString, what.toString) = some row ∧ row.lectures = .ok (some office)

/-- The row that `loadLectures` reads before it turns to the network, if it reads one. -/
def consultedRow (env : Environment α) (cache : Cache α) (what : OfficeTypes) (date : AelfDate)
    (useCache : Bool) : Option (Row α) :=
  if useCache || !env.isNetworkAvailable then
    cache.queryRow what date (minLoadVersion env (!env.isNetworkAvailable))
  else none

/-- The consulted row decodes to an office. -/
def ConsultedDecodes (env : Environment α) (cache : Cache α) (what : OfficeTypes) (date : AelfDate)
    (useCache : Bool) : Prop :=
  ∃ row office, consultedRow env cache what date useCache = some row ∧ row.lectures = .ok (some office)

/-- Decoding the consulted row throws something that is not a `RuntimeException`. -/
def ConsultedBlocks (env : Environment α) (cache : Cache α) (what : OfficeTypes) (date : AelfDate)
    (useCache : Bool) : Prop :=
  ∃ row exception, consultedRow env cache what date useCache = some row ∧
    row.lectures = .error exception ∧ exception.isRuntimeException = false

theorem find?_of_consultedRow {env : Environment α} {cache : Cache α} {what : OfficeTypes}
    {date : AelfDate} {useCache : Bool} {row : Row α}
    (consulted : consultedRow env cache what date useCache = some row) :
    cache.find? (date.toIsoString, what.toString) = some row := by
  unfold consultedRow at consulted
  split at consulted
  next =>
    rw [Cache.queryRow_eq] at consulted
    exact (Option.filter_eq_some_iff.mp consulted).1
  next => cases consulted

/-! ## Operations -/

variable [HttpDateFormat]

def loadLecturesFromCache (env : Environment α) (cache : Cache α) (what : OfficeTypes) (date : AelfDate)
    (allowColdCache : Bool) : Except JavaException (Option α) :=
  match cache.load what date (minLoadVersion env allowColdCache) with
  | .ok none => .ok none
  | .ok (some cacheEntry) => .ok cacheEntry.office
  | .error exception => if exception.isRuntimeException then .ok none else .error exception

def loadLecturesFromNetwork (env : Environment α) (cache : Cache α) (what : OfficeTypes) (date : AelfDate) :
    Except JavaException (Option α) × Cache α :=
  match getOffice env.server env.now (officeRequest env what date) with
  | .error exception => (.error exception, cache)
  | .ok response =>
    match Cache.store env.sqlite cache what date response.office response.checksum
      response.generationDate env.apiVersion with
    | (.ok (), cache) => (.ok response.office, cache)
    | (.error exception, cache) =>
      if exception.isIOException then (.ok response.office, cache) else (.error exception, cache)

/-- The second half of `loadLectures`, reached when the cache has not served the office. -/
def loadFromNetworkOrColdCache (env : Environment α) (cache : Cache α) (what : OfficeTypes)
    (date : AelfDate) : Except JavaException (Option α) × Cache α :=
  match loadLecturesFromNetwork env cache what date with
  | (.error exception, cache) => (.error exception, cache)
  | (.ok (some office), cache) => (.ok (some office), cache)
  | (.ok none, cache) => (loadLecturesFromCache env cache what date true, cache)

def loadLectures (env : Environment α) (cache : Cache α) (what : OfficeTypes) (date : AelfDate)
    (useCache : Bool) : Except JavaException (Option α) × Cache α :=
  if useCache || !env.isNetworkAvailable then
    match loadLecturesFromCache env cache what date (!env.isNetworkAvailable) with
    | .error exception => (.error exception, cache)
    | .ok (some office) => (.ok (some office), cache)
    | .ok none => loadFromNetworkOrColdCache env cache what date
  else loadFromNetworkOrColdCache env cache what date

/-! ## One lemma for each step -/

theorem loadLecturesFromCache_eq (env : Environment α) (cache : Cache α) (what : OfficeTypes)
    (date : AelfDate) (allowColdCache : Bool) :
    loadLecturesFromCache env cache what date allowColdCache =
      match cache.queryRow what date (minLoadVersion env allowColdCache) with
      | none => .ok none
      | some row =>
        match row.lectures with
        | .ok office => .ok office
        | .error exception => if exception.isRuntimeException then .ok none else .error .ioException := by
  unfold loadLecturesFromCache Cache.load
  cases cache.queryRow what date (minLoadVersion env allowColdCache) with
  | none => rfl
  | some row =>
    cases blob : row.lectures with
    | ok office => simp [blob]
    | error exception => cases exception <;> simp [blob, JavaException.isRuntimeException]

/-- The three ways a download ends: the server fails, the write fails, or the answer is stored. -/
theorem loadLecturesFromNetwork_cases (env : Environment α) (cache : Cache α) (what : OfficeTypes)
    (date : AelfDate) :
    (∃ exception, getOffice env.server env.now (officeRequest env what date) = .error exception ∧
      loadLecturesFromNetwork env cache what date = (.error exception, cache)) ∨
    (∃ response, getOffice env.server env.now (officeRequest env what date) = .ok response ∧
      env.sqlite = .sqliteException ∧
      loadLecturesFromNetwork env cache what date = (.error .runtimeException, cache)) ∨
    (∃ response, getOffice env.server env.now (officeRequest env what date) = .ok response ∧
      env.sqlite = .done ∧
      loadLecturesFromNetwork env cache what date = (.ok response.office, cache.insertOrReplace
        (Cache.newRow what date response.office response.checksum response.generationDate env.apiVersion))) := by
  unfold loadLecturesFromNetwork
  cases answered : getOffice env.server env.now (officeRequest env what date) with
  | error exception => exact .inl ⟨exception, rfl, rfl⟩
  | ok response =>
    cases written : env.sqlite with
    | sqliteException => exact .inr (.inl ⟨response, rfl, rfl, rfl⟩)
    | done => exact .inr (.inr ⟨response, rfl, rfl, rfl⟩)

/-- The cold cache has nothing to offer right after a null office was stored. -/
theorem coldCache_of_null_stored (env : Environment α) (cache : Cache α) (what : OfficeTypes)
    (date : AelfDate) (checksum : String) (createDate : IsoDate) (apiVersion : Int) :
    loadLecturesFromCache env
      (cache.insertOrReplace (Cache.newRow what date none checksum createDate apiVersion)) what date true =
        .ok none := by
  have keyed : (Cache.newRow what date (none : Option α) checksum createDate apiVersion).key =
      (date.toIsoString, what.toString) := rfl
  rw [loadLecturesFromCache_eq, Cache.queryRow_eq, Table.find?_insertOrReplace, if_pos keyed,
    Option.filter_some]
  split
  next => rfl
  next row found =>
    split at found
    next =>
      obtain rfl := Option.some.inj found
      rfl
    next => cases found

/-! ## When loading succeeds -/

/-- The network call would yield a non-null office. -/
def NetworkYields (env : Environment α) (what : OfficeTypes) (date : AelfDate) : Prop :=
  ∃ response office, getOffice env.server env.now (officeRequest env what date) = .ok response ∧
    response.office = some office

theorem loadFromNetworkOrColdCache_yields_iff (env : Environment α) (cache : Cache α) (what : OfficeTypes)
    (date : AelfDate) :
    (∃ office, (loadFromNetworkOrColdCache env cache what date).1 = .ok (some office)) ↔
      NetworkYields env what date ∧ env.sqlite = .done := by
  unfold loadFromNetworkOrColdCache NetworkYields
  rcases loadLecturesFromNetwork_cases env cache what date with
    ⟨exception, answered, result⟩ | ⟨response, answered, written, result⟩ | ⟨response, answered, written, result⟩
  · simp [answered, result]
  · simp [written, result]
  · rw [result, answered, written]
    cases office : response.office with
    | some office => simp [office]
    | none => simp [coldCache_of_null_stored, office]

/-- `loadLectures` by what the consulted row decodes to. -/
theorem loadLectures_eq (env : Environment α) (cache : Cache α) (what : OfficeTypes) (date : AelfDate)
    (useCache : Bool) :
    loadLectures env cache what date useCache =
      match consultedRow env cache what date useCache with
      | none => loadFromNetworkOrColdCache env cache what date
      | some row =>
        match row.lectures with
        | .ok (some office) => (.ok (some office), cache)
        | .ok none => loadFromNetworkOrColdCache env cache what date
        | .error exception =>
          if exception.isRuntimeException then loadFromNetworkOrColdCache env cache what date
          else (.error .ioException, cache) := by
  unfold loadLectures consultedRow
  split
  next =>
    rw [loadLecturesFromCache_eq]
    cases cache.queryRow what date (minLoadVersion env (!env.isNetworkAvailable)) with
    | none => rfl
    | some row =>
      cases blob : row.lectures with
      | ok office => cases office <;> simp [blob]
      | error exception => cases exception <;> simp [blob, JavaException.isRuntimeException]
  next => rfl

/-- `loadLectures` leaves the cache as it was, or as `loadLecturesFromNetwork` leaves it. -/
theorem loadLectures_cache (env : Environment α) (cache : Cache α) (what : OfficeTypes)
    (date : AelfDate) (useCache : Bool) :
    (loadLectures env cache what date useCache).2 = cache ∨
      (loadLectures env cache what date useCache).2 =
        (loadLecturesFromNetwork env cache what date).2 := by
  have second : (loadFromNetworkOrColdCache env cache what date).2 =
      (loadLecturesFromNetwork env cache what date).2 := by
    unfold loadFromNetworkOrColdCache
    split <;> simp_all
  rw [loadLectures_eq]
  split
  next => exact .inr second
  next row _ =>
    split
    next => exact .inl rfl
    next => exact .inr second
    next =>
      split
      next => exact .inr second
      next => exact .inl rfl

/-- `loadLectures` returns an office whenever one of its sources has one, exactly when the entry it
reads first decodes, or the server answers with an office that reaches the cache and the entry read
first did not throw, or neither source has anything. -/
theorem loadLectures_fails_only_when_both_fail_iff (env : Environment α) (cache : Cache α)
    (what : OfficeTypes) (date : AelfDate) (useCache : Bool) :
    (NetworkYields env what date ∨ HoldsDecodable cache what date →
      ∃ office, (loadLectures env cache what date useCache).1 = .ok (some office)) ↔
    ConsultedDecodes env cache what date useCache ∨
      (NetworkYields env what date ∧ env.sqlite = .done ∧ ¬ConsultedBlocks env cache what date useCache) ∨
      (¬NetworkYields env what date ∧ ¬HoldsDecodable cache what date) := by
  have network := loadFromNetworkOrColdCache_yields_iff env cache what date
  rw [loadLectures_eq]
  unfold ConsultedDecodes ConsultedBlocks
  cases consulted : consultedRow env cache what date useCache with
  | none =>
    -- nothing to read first, so the network and the cold cache decide
    simp only [reduceCtorEq, false_and, exists_false, not_false_eq_true, and_true, false_or, network]
    tauto
  | some row =>
    cases blob : row.lectures with
    | ok decoded =>
      cases decoded with
      | some office => simp [blob]
      | none =>
        simp [blob, network]
        tauto
    | error exception =>
      -- the entry that throws is the only one of the key
      have undecodable : ¬HoldsDecodable cache what date := by
        rintro ⟨other, office, found, decodes⟩
        rw [find?_of_consultedRow consulted] at found
        obtain rfl := Option.some.inj found
        rw [blob] at decodes
        cases decodes
      cases runtime : exception.isRuntimeException with
      | true =>
        simp [blob, runtime, network, undecodable]
        tauto
      | false => simp [blob, runtime, undecodable]

end LecturesController

/-! ## A stale entry that a failing server hides -/

namespace StaleEntry

def date : AelfDate := .ofDay ⟨2024, 5, 20, isDate_20_may_2024⟩

def office : Office := ⟨none, some []⟩

/-- Stored by the previous version of the application. -/
def cache : Cache Office :=
  Table.empty.insertOrReplace (Cache.newRow .messe date (some office) "checksum" ⟨IsoDate.epoch, true⟩ 81)

def env : Environment Office where
  apiVersion := 82
  region := "romain"
  isNetworkAvailable := true
  server := fun _ => .error .ioException
  now := IsoDate.epoch
  sqlite := .done

end StaleEntry

open LecturesController in
/-- The network fails, the cold cache holds the office, and `loadLectures` throws. -/
theorem loadLectures_skips_cold_cache :
    letI : HttpDateFormat := ⟨fun _ => none⟩
    ¬(NetworkYields StaleEntry.env .messe StaleEntry.date ∨ HoldsDecodable StaleEntry.cache .messe StaleEntry.date →
      ∃ office, (loadLectures StaleEntry.env StaleEntry.cache .messe StaleEntry.date true).1 = .ok (some office)) := by
  intro served
  let _ : HttpDateFormat := ⟨fun _ => none⟩
  have held : HoldsDecodable StaleEntry.cache .messe StaleEntry.date := ⟨_, StaleEntry.office, rfl, rfl⟩
  obtain ⟨office, loaded⟩ := served (.inr held)
  have thrown : (loadLectures StaleEntry.env StaleEntry.cache .messe StaleEntry.date true).1 =
      .error .ioException := rfl
  rw [thrown] at loaded
  cases loaded

end Aelf.Lectures
