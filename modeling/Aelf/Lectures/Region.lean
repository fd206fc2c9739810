import Aelf.Library.Runs
import Aelf.Lectures.Controller

/-! # The cache and the liturgical region

The region is a parameter of every request but no part of the key of the cache.
Two screens change it: the settings drop the cache when they do, the spinner of
the drawer only writes the preference.  Offices are tagged here with the region
that their request carried; the code that moves them is that of
`LecturesController`, at the type of tagged offices. -/

namespace Aelf.Lectures.Region

open Aelf.Library
open LecturesController

variable {α : Type}

/-! ## Tagged offices -/

structure Tagged (α : Type) where
  region : String
  office : α

/-- The server, with each office it returns tagged with the region of the request. -/
def tagServer (server : Server α) : Server (Tagged α) := fun request =>
  (server request).map fun response =>
    { code := response.code
      body := response.body.map (Option.map (Tagged.mk request.region))
      etag := response.etag
      lastModified := response.lastModified }

/-- The environment of a call made while the preference is `region`. -/
def tagged (env : Environment α) (region : String) : Environment (Tagged α) :=
  { env with region, server := tagServer env.server }

variable [HttpDateFormat]

theorem region_of_getOffice {env : Environment α} {region : String} {what : OfficeTypes} {date : AelfDate}
    {response : OfficeResponse (Tagged α)} {office : Tagged α}
    (returned : getOffice (tagged env region).server (tagged env region).now
      (officeRequest (tagged env region) what date) = .ok response)
    (present : response.office = some office) : office.region = region := by
  obtain ⟨answer, received, body, _⟩ := decoded_of_getOffice returned
  change (env.server (officeRequest (tagged env region) what date)).map _ = _ at received
  cases answered : env.server (officeRequest (tagged env region) what date) with
  | error exception =>
    rw [answered] at received
    cases received
  | ok raw =>
    rw [answered] at received
    obtain rfl := Except.ok.inj received
    cases decoded : raw.body with
    | error exception => simp [decoded, Except.map] at body
    | ok office =>
      rw [present] at body
      cases office with
      | none => simp [decoded, Except.map] at body
      | some office =>
        simp only [decoded, Except.map, Option.map_some, Except.ok.injEq, Option.some.injEq] at body
        rw [← body]
        rfl

/-! ## The system -/

/-- A download of a sync task, on its way since the preference was `region`. -/
structure Download (α : Type) where
  region : String
  env : Environment α
  what : OfficeTypes
  date : AelfDate

structure State (α : Type) where
  region : String
  cache : Cache (Tagged α)
  inFlight : List (Download α)

inductive Step (α : Type) where
  | spinnerChange (headerRegion selected : String)
  | settingsChange (selected : String) (dropped : SqliteOutcome)
  | loadLectures (env : Environment α) (what : OfficeTypes) (date : AelfDate) (useCache : Bool)
  | syncRequest (env : Environment α) (what : OfficeTypes) (date : AelfDate)
  | syncStore (index : Nat)
  | truncateBefore (date : AelfDate)

/-- `dropLecturesCache`: an exception of the drop is ignored. -/
def dropLecturesCache (dropped : SqliteOutcome) (cache : Cache (Tagged α)) : Cache (Tagged α) :=
  match dropped with
  | .done => cache.dropDatabase
  | .sqliteException => cache

namespace Step

def apply (state : State α) : Step α → State α
  | .spinnerChange headerRegion selected =>
    if selected = headerRegion then state else { state with region := selected }
  | .settingsChange selected dropped =>
    -- preference listeners are only called for a value that changes
    if selected = state.region then state
    else { state with region := selected, cache := dropLecturesCache dropped state.cache }
  | .loadLectures env what date useCache =>
    { state with
      cache := (LecturesController.loadLectures (tagged env state.region) state.cache what date useCache).2 }
  | .syncRequest env what date => { state with inFlight := state.inFlight ++ [⟨state.region, env, what, date⟩] }
  | .syncStore index =>
    match state.inFlight[index]? with
    | none => state
    | some download =>
      { state with
        cache := (loadLecturesFromNetwork (tagged download.env download.region) state.cache download.what
          download.date).2
        inFlight := state.inFlight.eraseIdx index }
  | .truncateBefore date => { state with cache := state.cache.truncateBefore date }

end Step

/-- A fresh installation. -/
def start (region : String) : State α := ⟨region, Table.empty, []⟩

def run (region : String) (steps : List (Step α)) : State α := steps.foldl Step.apply (start region)

/-! ## Coherence -/

/-- One of the two reads of the cache in `loadLectures` returns the office: the first one, or the
one that follows a download without an office. -/
def ServesFromCache (env : Environment α) (cache : Cache α) (what : OfficeTypes) (date : AelfDate)
    (useCache : Bool) (office : α) : Prop :=
  ((useCache || !env.isNetworkAvailable) = true ∧
    loadLecturesFromCache env cache what date (!env.isNetworkAvailable) = .ok (some office)) ∨
  ∃ stored, loadLecturesFromNetwork env cache what date = (.ok none, stored) ∧
    loadLecturesFromCache env stored what date true = .ok (some office)

/-- Whatever `loadLectures` serves from the cache was downloaded for the current region. -/
def Coherent (state : State α) : Prop :=
  ∀ (env : Environment α) what date useCache office,
    ServesFromCache (tagged env state.region) state.cache what date useCache office → office.region = state.region

/-- The office a call returns was served from the cache, or has just been downloaded. -/
theorem served_or_downloaded {env : Environment α} {cache : Cache α} {what : OfficeTypes} {date : AelfDate}
    {useCache : Bool} {office : α} (loaded : (loadLectures env cache what date useCache).1 = .ok (some office)) :
    ServesFromCache env cache what date useCache office ∨
      (loadLecturesFromNetwork env cache what date).1 = .ok (some office) := by
  have second : (loadFromNetworkOrColdCache env cache what date).1 = .ok (some office) →
      ServesFromCache env cache what date useCache office ∨
        (loadLecturesFromNetwork env cache what date).1 = .ok (some office) := by
    unfold loadFromNetworkOrColdCache
    split
    next => simp
    next found => exact fun same => .inr (by simpa [found] using same)
    next stored nothing => exact fun cold => .inl (.inr ⟨stored, nothing, cold⟩)
  unfold loadLectures at loaded
  split at loaded
  next consults =>
    split at loaded
    next => cases loaded
    next found =>
      obtain rfl := Option.some.inj (Except.ok.inj loaded)
      exact .inl (.inl ⟨consults, found⟩)
    next => exact second loaded
  next => exact second loaded

/-- Every office in the table carries the region of the preference. -/
def TableCoherent (state : State α) : Prop :=
  ∀ row ∈ state.cache.rows, ∀ office, row.lectures = .ok (some office) → office.region = state.region

/-- Every row was written for an office type and a date. -/
def TypedKeys (cache : Cache (Tagged α)) : Prop :=
  ∀ row ∈ cache.rows, ∃ what date, row.key = (AelfDate.toIsoString date, OfficeTypes.toString what)

theorem row_of_loadLecturesFromCache {env : Environment α} {cache : Cache α} {what : OfficeTypes}
    {date : AelfDate} {allowColdCache : Bool} {office : α}
    (loaded : loadLecturesFromCache env cache what date allowColdCache = .ok (some office)) :
    ∃ row ∈ cache.rows, row.lectures = .ok (some office) := by
  rw [loadLecturesFromCache_eq, Cache.queryRow_eq] at loaded
  cases found : (cache.find? (date.toIsoString, what.toString)).filter
      fun row => minLoadVersion env allowColdCache ≤ row.create_version with
  | none => simp [found] at loaded
  | some row =>
    have member := ((cache.find?_eq_some_iff _ row).mp (Option.filter_eq_some_iff.mp found).1).1
    cases blob : row.lectures with
    | ok decoded =>
      simp only [found, blob, Except.ok.injEq] at loaded
      exact ⟨row, member, loaded ▸ blob⟩
    | error exception =>
      simp only [found, blob] at loaded
      split at loaded <;> simp at loaded

theorem coherent_of_tableCoherent {state : State α} (coherent : TableCoherent state) : Coherent state := by
  intro env what date useCache office served
  obtain ⟨_, loaded⟩ | ⟨stored, nothing, loaded⟩ := served
  · obtain ⟨row, member, blob⟩ := row_of_loadLecturesFromCache loaded
    exact coherent row member office blob
  · -- the download that found nothing has replaced the entry by a null office
    rcases loadLecturesFromNetwork_cases (tagged env state.region) state.cache what date with
      ⟨_, _, result⟩ | ⟨_, _, _, result⟩ | ⟨response, _, _, result⟩
    · simp [result] at nothing
    · simp [result] at nothing
    · obtain ⟨absent, rfl⟩ := Prod.mk.inj (result.symm.trans nothing)
      rw [Except.ok.inj absent, coldCache_of_null_stored] at loaded
      cases loaded

/-- In a table of typed rows, every cached office can be served. -/
theorem tableCoherent_of_coherent {state : State α} (typed : TypedKeys state.cache) (coherent : Coherent state) :
    TableCoherent state := by
  intro row member office blob
  obtain ⟨what, date, keyed⟩ := typed row member
  let env : Environment α :=
    { apiVersion := row.create_version
      region := state.region
      isNetworkAvailable := true
      server := fun _ => .error .ioException
      now := IsoDate.epoch
      sqlite := .done }
  refine coherent env what date true office (.inl ⟨rfl, ?_⟩)
  have found := state.cache.find?_key_of_mem member
  rw [keyed] at found
  have queried : state.cache.queryRow what date (minLoadVersion (tagged env state.region) false) = some row := by
    rw [Cache.queryRow_eq, found]
    simp [minLoadVersion, tagged, env]
  have hotCache : (!(tagged env state.region).isNetworkAvailable) = false := rfl
  rw [hotCache, loadLecturesFromCache_eq, queried]
  simp [blob]

/-! ## What the steps do to it -/

def HoldsNoOffice (cache : Cache (Tagged α)) : Prop :=
  ∀ row ∈ cache.rows, ∀ office, row.lectures ≠ .ok (some office)

omit [HttpDateFormat] in
/-- Changing the region over the same table keeps coherence when there is nothing to serve, or when
the region does not change. -/
theorem tableCoherent_setRegion_iff {state : State α} (coherent : TableCoherent state) (selected : String)
    (cache : Cache (Tagged α)) (same : cache = state.cache) :
    TableCoherent { state with region := selected, cache } ↔ selected = state.region ∨ HoldsNoOffice state.cache := by
  subst same
  constructor
  · intro after
    by_cases unchanged : selected = state.region
    · exact .inl unchanged
    · refine .inr fun row member office blob => unchanged ?_
      exact (after row member office blob).symm.trans (coherent row member office blob)
  · intro harmless row member office blob
    cases harmless with
    | inl unchanged => exact (coherent row member office blob).trans unchanged.symm
    | inr nothing => exact absurd blob (nothing row member office)

/-- A download yields an office and reaches the table. -/
def Stores (download : Download α) : Prop :=
  NetworkYields (tagged download.env download.region) download.what download.date ∧
    download.env.sqlite = .done

omit [HttpDateFormat] in
theorem tableCoherent_insert_iff {state : State α} (coherent : TableCoherent state) (row : Row (Tagged α))
    (inFlight : List (Download α)) :
    TableCoherent { state with cache := state.cache.insertOrReplace row, inFlight } ↔
      ∀ office, row.lectures = .ok (some office) → office.region = state.region := by
  constructor
  · intro after
    exact after row ((Table.mem_replaceRows row row state.cache.rows).mpr (.inl rfl))
  · intro fresh candidate member office blob
    obtain rfl | ⟨old, _⟩ := (Table.mem_replaceRows row candidate state.cache.rows).mp member
    · exact fresh office blob
    · exact coherent candidate old office blob

theorem tableCoherent_download_iff {state : State α} (coherent : TableCoherent state) (download : Download α)
    (inFlight : List (Download α)) :
    TableCoherent
      { state with
        cache := (loadLecturesFromNetwork (tagged download.env download.region) state.cache download.what
          download.date).2
        inFlight } ↔
      download.region = state.region ∨ ¬Stores download := by
  rcases loadLecturesFromNetwork_cases (tagged download.env download.region) state.cache download.what
      download.date with
    ⟨exception, failed, result⟩ | ⟨response, answered, refused, result⟩ | ⟨response, answered, written, result⟩
  -- a request that failed, or a write that failed, leaves the table as it was
  · rw [result]
    apply iff_of_true coherent
    right
    rintro ⟨⟨response, _, answered, _⟩, _⟩
    exact absurd (failed.symm.trans answered) (by simp)
  · rw [result]
    apply iff_of_true coherent
    right
    rintro ⟨_, written⟩
    exact absurd (written.symm.trans refused) (by decide)
  · rw [result, tableCoherent_insert_iff coherent]
    constructor
    · intro fresh
      by_cases stores : Stores download
      · -- the office that reached the table carries the region of the download
        obtain ⟨⟨other, office, again, present⟩, _⟩ := stores
        obtain rfl := Except.ok.inj (answered.symm.trans again)
        have tag := region_of_getOffice answered present
        exact .inl (tag.symm.trans (fresh office (congrArg Except.ok present)))
      · exact .inr stores
    · intro harmless office blob
      have present : response.office = some office := Except.ok.inj blob
      have tag := region_of_getOffice answered present
      cases harmless with
      | inl current => exact tag.trans current
      | inr nothing => exact absurd ⟨⟨response, office, answered, present⟩, written⟩ nothing

/-- The steps after which the cache still serves the current region, as a condition on the state
before them. -/
def Step.Keeps (state : State α) : Step α → Prop
  | .spinnerChange headerRegion selected =>
    selected = headerRegion ∨ selected = state.region ∨ HoldsNoOffice state.cache
  | .settingsChange selected dropped =>
    dropped = .done ∨ selected = state.region ∨ HoldsNoOffice state.cache
  | .syncStore index => ∀ download, state.inFlight[index]? = some download →
    download.region = state.region ∨ ¬Stores download
  | .loadLectures .. | .syncRequest .. | .truncateBefore _ => True

theorem tableCoherent_apply_iff {state : State α} (coherent : TableCoherent state) (step : Step α) :
    TableCoherent (step.apply state) ↔ step.Keeps state := by
  cases step with
  | spinnerChange headerRegion selected =>
    by_cases header : selected = headerRegion
    · simpa [Step.apply, Step.Keeps, header] using coherent
    · simpa [Step.apply, Step.Keeps, header] using tableCoherent_setRegion_iff coherent selected _ rfl
  | settingsChange selected dropped =>
    by_cases unchanged : selected = state.region
    · simpa [Step.apply, Step.Keeps, unchanged] using coherent
    · cases dropped with
      | done =>
        -- an empty table is coherent with any region
        simp only [Step.apply, Step.Keeps, if_neg unchanged, true_or, iff_true]
        intro row member
        cases member
      | sqliteException =>
        simpa [Step.apply, Step.Keeps, dropLecturesCache, unchanged] using tableCoherent_setRegion_iff coherent selected _ rfl
  | loadLectures env what date useCache =>
    simp only [Step.apply, Step.Keeps, iff_true]
    -- the request carries the region that is set, so what it stores is of the current region
    have downloaded := (tableCoherent_download_iff coherent ⟨state.region, env, what, date⟩ state.inFlight).mpr
      (.inl rfl)
    obtain kept | replaced := loadLectures_cache (tagged env state.region) state.cache what date useCache
    · rw [kept]
      exact coherent
    · rw [replaced]
      exact downloaded
  | syncRequest env what date =>
    simp only [Step.Keeps, iff_true]
    exact coherent
  | syncStore index =>
    cases chosen : state.inFlight[index]? with
    | none => simpa [Step.apply, Step.Keeps, chosen] using coherent
    | some download =>
      simpa [Step.apply, Step.Keeps, chosen] using tableCoherent_download_iff coherent download _
  | truncateBefore date =>
    simp only [Step.Keeps, iff_true]
    exact fun row member => coherent row (List.mem_of_mem_filter member)

omit [HttpDateFormat] in
theorem typedKeys_insert {cache : Cache (Tagged α)} (typed : TypedKeys cache) {row : Row (Tagged α)}
    {what : OfficeTypes} {date : AelfDate} (keyed : row.key = (date.toIsoString, what.toString)) :
    TypedKeys (cache.insertOrReplace row) := by
  intro candidate member
  obtain rfl | ⟨old, _⟩ := (Table.mem_replaceRows row candidate cache.rows).mp member
  · exact ⟨what, date, keyed⟩
  · exact typed candidate old

theorem typedKeys_download {cache : Cache (Tagged α)} (typed : TypedKeys cache) (env : Environment (Tagged α))
    (what : OfficeTypes) (date : AelfDate) : TypedKeys (loadLecturesFromNetwork env cache what date).2 := by
  rcases loadLecturesFromNetwork_cases env cache what date with
    ⟨_, _, result⟩ | ⟨_, _, _, result⟩ | ⟨response, _, _, result⟩
  · simpa [result] using typed
  · simpa [result] using typed
  · rw [result]
    exact typedKeys_insert typed rfl

theorem typedKeys_apply {state : State α} (typed : TypedKeys state.cache) (step : Step α) :
    TypedKeys (step.apply state).cache := by
  cases step with
  | spinnerChange headerRegion selected =>
    simp only [Step.apply]
    split <;> exact typed
  | settingsChange selected dropped =>
    simp only [Step.apply]
    split
    next => exact typed
    next =>
      cases dropped with
      | done =>
        intro row member
        cases member
      | sqliteException => exact typed
  | loadLectures env what date useCache =>
    obtain kept | replaced := loadLectures_cache (tagged env state.region) state.cache what date useCache
    · simpa only [Step.apply, kept] using typed
    · simpa only [Step.apply, replaced] using typedKeys_download typed _ what date
  | syncRequest env what date => exact typed
  | syncStore index =>
    cases chosen : state.inFlight[index]? with
    | none => simpa [Step.apply, chosen] using typed
    | some download => simpa [Step.apply, chosen] using typedKeys_download typed _ download.what download.date
  | truncateBefore date => exact fun row member => typed row (List.mem_of_mem_filter member)

theorem typedKeys_run (region : String) (steps : List (Step α)) : TypedKeys (run region steps).cache := by
  apply Runs.invariant_run Step.apply (fun state : State α => TypedKeys state.cache)
    (fun _ step _ typed => typedKeys_apply typed step)
    (Runs.allowed_of_forall Step.apply (fun _ _ => True.intro) _)
  intro row member
  cases member

/-- In every run whose steps keep to the condition, `loadLectures` serves the current region from the
cache; and the first step that does not keep to it is the first after which it may not. -/
theorem cache_serves_current_region (region : String) (steps : List (Step α))
    (kept : Runs.Allowed Step.apply Step.Keeps (start region) steps) :
    Coherent (run region steps) ∧
      ∀ step : Step α, Coherent (step.apply (run region steps)) ↔ step.Keeps (run region steps) := by
  have coherent : TableCoherent (run region steps) := by
    apply Runs.invariant_run Step.apply TableCoherent
      (fun _ step keeps coherent => (tableCoherent_apply_iff coherent step).mpr keeps) kept
    intro row member
    cases member
  refine ⟨coherent_of_tableCoherent coherent, fun step => ?_⟩
  rw [← tableCoherent_apply_iff coherent step]
  have typed := typedKeys_apply (typedKeys_run region steps) step
  exact ⟨tableCoherent_of_coherent typed, coherent_of_tableCoherent⟩

/-! ## The drawer leaves the old region in the cache -/

namespace DrawerChange

def env : Environment Office :=
  { StaleEntry.env with server := fun _ => .ok ⟨200, .ok (some StaleEntry.office), none, none⟩ }

def load : Step Office := .loadLectures env .messe StaleEntry.date true

omit [HttpDateFormat] in
/-- An office loaded for one region is served after the drawer has selected another. -/
theorem drawer_serves_previous_region :
    letI : HttpDateFormat := ⟨fun _ => none⟩
    ¬∀ (region : String) (steps : List (Step Office)), Coherent (run region steps) := by
  intro coherent
  let _ : HttpDateFormat := ⟨fun _ => none⟩
  have served := coherent "romain" [load, .spinnerChange "romain" "belgique"] env .messe StaleEntry.date true
    ⟨"romain", StaleEntry.office⟩ (.inl ⟨rfl, rfl⟩)
  exact absurd served (by decide)

omit [HttpDateFormat] in
/-- The settings drop the cache, and the next load is for the new region. -/
theorem settings_serve_current_region :
    letI : HttpDateFormat := ⟨fun _ => none⟩
    Runs.Allowed Step.apply Step.Keeps (start "romain") [load, .settingsChange "belgique" .done, load] ∧
      Coherent (run "romain" [load, .settingsChange "belgique" .done, load]) := by
  let _ : HttpDateFormat := ⟨fun _ => none⟩
  have kept : Runs.Allowed Step.apply Step.Keeps (start "romain") [load, .settingsChange "belgique" .done, load] :=
    ⟨trivial, .inl rfl, trivial, trivial⟩
  exact ⟨kept, (cache_serves_current_region "romain" _ kept).1⟩

end DrawerChange

end Aelf.Lectures.Region
