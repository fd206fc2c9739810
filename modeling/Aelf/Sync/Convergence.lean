import Aelf.Sync.Window

/-! # Two synchronisations in a row

A run that has obtained the checksums of a server and stored every office it asked
for leaves nothing to do for a second run on the same day, as long as the server
tags its offices with the checksums that it announces. -/

namespace Aelf.Sync

open Aelf.Library Aelf.Lectures
open Aelf.Library.Calendar (Date)
open LecturesController

variable {α : Type}

/-! ## Snapshots -/

/-- A server that does not change, seen from one region and one version of the application. -/
structure Snapshot (α : Type) where
  region : String
  apiVersion : Int
  metadata : OfficesMetadata
  server : Server α

def Snapshot.request (snapshot : Snapshot α) (what : OfficeTypes) (date : AelfDate) : Request :=
  ⟨snapshot.apiVersion, what.apiName, date.toIsoString, snapshot.region⟩

/-- The entity tag of an office is its announced checksum, bare, quoted, or quoted and weak. -/
def Snapshot.Consistent (snapshot : Snapshot α) : Prop :=
  ∀ what (date : AelfDate) officeMetadata,
    snapshot.metadata.getOfficeChecksum what date = some officeMetadata →
      ∃ checksum : String, officeMetadata.checksum = some checksum ∧ '"' ∉ checksum.toList ∧
        ∀ response, snapshot.server (snapshot.request what date) = .ok response →
          response.etag ∈ [some checksum, some ("\"" ++ checksum ++ "\""), some ("W/\"" ++ checksum ++ "\"")]

theorem extractResponseEtag_of_mem {checksum : String} (noQuote : '"' ∉ checksum.toList) {etag : Option String}
    (tagged : etag ∈ [some checksum, some ("\"" ++ checksum ++ "\""), some ("W/\"" ++ checksum ++ "\"")]) :
    extractResponseEtag etag = .ok checksum := by
  have quoted (before : String) (noQuoteBefore : '"' ∉ before.toList) :
      extractResponseEtag (some (before ++ "\"" ++ checksum ++ "\"")) = .ok checksum := by
    have extracted : extractResponseEtag (some (before ++ "\"" ++ checksum ++ "\"" ++ "")) = .ok checksum :=
      extractResponseEtag_quoted noQuoteBefore (by decide)
    rwa [String.append_empty] at extracted
  simp only [List.mem_cons, List.not_mem_nil, or_false] at tagged
  obtain rfl | rfl | rfl := tagged
  · exact extractResponseEtag_raw noQuote
  · exact quoted "" (by decide)
  · exact quoted "W/" (by decide)

variable [HttpDateFormat]

/-- A run that met the snapshot, in its metadata and in each of its downloads. -/
structure SyncRun.Against (run : SyncRun α) (snapshot : Snapshot α) : Prop where
  version : run.apiVersion = snapshot.apiVersion
  metadata : run.metadata = some snapshot.metadata
  server : ∀ reading ∈ run.readings, reading.env.server = snapshot.server
  region : ∀ reading ∈ run.readings, reading.env.region = snapshot.region

namespace SyncRun

/-- What a download stores carries the checksum that the server announces for it. -/
theorem checksum_of_stores {run : SyncRun α} {snapshot : Snapshot α} (against : run.Against snapshot)
    (consistent : snapshot.Consistent) {reading : SyncReading α} (member : reading ∈ run.readings) {row : Row α}
    (stores : reading.Stores row) {what : OfficeTypes} {date : AelfDate}
    (keyed : reading.task.key = (date.toIsoString, what.toString)) {officeMetadata : OfficeMetadata}
    (announced : snapshot.metadata.getOfficeChecksum what date = some officeMetadata) :
    officeMetadata.checksum = some row.checksum := by
  obtain ⟨sameText, sameType⟩ := Task.key_eq_iff.mp keyed
  obtain ⟨response, returned, rfl⟩ := stores
  obtain ⟨answer, answered, _, extracted, _⟩ := decoded_of_getOffice returned
  obtain ⟨checksum, listed, noQuote, tagged⟩ := consistent what date officeMetadata announced
  have request : officeRequest reading.env reading.task.what reading.task.date = snapshot.request what date := by
    rw [officeRequest, Snapshot.request, sameText, sameType, run.versions reading member, against.version,
      against.region reading member]
  rw [request, against.server reading member] at answered
  have sameChecksum := (extractResponseEtag_of_mem noQuote (tagged answer answered)).symm.trans extracted
  rw [listed, Except.ok.inj sameChecksum]
  rfl

/-- After a completed run against a snapshot, the entries of the next seven days are as fresh as the
snapshot. -/
theorem fresh_of_completed {run : SyncRun α} {snapshot : Snapshot α} (against : run.Against snapshot)
    (consistent : snapshot.Consistent) (completed : run.Completed) {today : Date}
    (constant : run.clock.Constant today) (years : run.FourDigitYears today) {what : OfficeTypes}
    (selected : what ∈ run.officeTypesToSync) {i : Nat} (inWeek : i < 7) {date : AelfDate}
    (onDay : date.day = today.addDays i) {row : Row α}
    (queried : run.finalCache.queryRow what date run.apiVersion = some row) {officeMetadata : OfficeMetadata}
    (announced : snapshot.metadata.getOfficeChecksum what date = some officeMetadata) :
    officeMetadata.checksum = some row.checksum ∨
      (officeMetadata.generationDate.isValid = true ∧
        officeMetadata.generationDate.before (IsoDate.ofString row.create_date) = true) := by
  have inWindow : i < run.daysAheadToSync := inWeek.trans_le (getDaysAheadToSync_bounds run.preferences).1
  have dateYear : FourDigitYear date.day := onDay ▸ window_year constant years inWindow
  rcases find?_completed completed what.toString years.cutoff dateYear (window_kept constant onDay) with
    ⟨reading, member, stored, keyed, stores, found⟩ | ⟨others, unchanged⟩
  -- either the run itself stored the entry, from the server that announced the metadata
  · have same := (queryRow_of_stores member stores found).symm.trans queried
    obtain rfl := Option.some.inj same
    exact .inl (checksum_of_stores against consistent member stores keyed announced)
  -- or it kept it, because its refresh found it up to date
  · rcases weekUpToDate_of_completed constant years completed what selected i inWeek date onDay snapshot.metadata
        officeMetadata against.metadata announced with ⟨reading, member, keyed, _⟩ | missing | ⟨kept, found, fresh⟩
    · exact absurd keyed (others reading member)
    · rw [queryRow_of_unchanged unchanged, missing] at queried
      cases queried
    · obtain rfl := Option.some.inj (found.symm.trans queried)
      exact fresh

/-- The second run schedules no fetch and no refresh. -/
theorem second_sync_schedules_nothing (first second : SyncRun α) (snapshot : Snapshot α) (today : Date)
    (consistent : snapshot.Consistent) (against : first.Against snapshot) (completed : first.Completed)
    (firstDay : first.clock.Constant today) (secondDay : second.clock.Constant today)
    (years : first.FourDigitYears today) (samePreferences : second.preferences = first.preferences)
    (sameVersion : second.apiVersion = first.apiVersion) (sameCache : second.cache = first.finalCache)
    (sameServer : second.metadata = some snapshot.metadata ∨ second.metadata = none) :
    second.initialFetchTasks = [] ∧ second.refreshTasks = [] := by
  have filled := windowFilled_of_completed firstDay years completed
  have sameTypes : second.officeTypesToSync = first.officeTypesToSync := by
    rw [officeTypesToSync, officeTypesToSync, samePreferences]
  have sameDays : second.daysAheadToSync = first.daysAheadToSync := by
    rw [daysAheadToSync, daysAheadToSync, samePreferences]
  -- what the second listing shows on a day of the window is the row that the first run left there
  have listing (what : OfficeTypes) {i : Nat} {date : AelfDate} (inWindow : i < first.daysAheadToSync)
      (onDay : date.day = today.addDays i) :
      second.cachedOffices.get (.of what date) =
        (first.finalCache.queryRow what date first.apiVersion).map Cache.listedEntry := by
    have todayYear := window_year firstDay years (i := 0) (by omega)
    have dateYear := window_year firstDay years inWindow
    rw [cachedOffices, sameCache, sameVersion]
    apply get_listing
    · rw [secondDay.listing]
      exact todayYear
    · rw [onDay]
      exact dateYear
    · rw [secondDay.listing, onDay]
      exact today.le_addDays i
  constructor
  · apply List.eq_nil_iff_forall_not_mem.mpr
    intro task member
    obtain ⟨i, inWindow, selected, computed, unlisted⟩ := mem_enqueueInitialFetchTasks.mp member
    rw [sameTypes] at selected
    rw [sameDays] at inWindow
    have onDay : task.date.day = today.addDays i := by rw [computed, AelfDate.day_addDays, secondDay.fetch]
    obtain ⟨row, found, _⟩ := filled task.what selected i inWindow task.date onDay
    -- the day is in the listing, so no task is made for it
    rw [CacheEntries.containsKey, listing task.what inWindow onDay, found] at unlisted
    cases unlisted
  · apply List.eq_nil_iff_forall_not_mem.mpr
    intro task member
    cases sameServer with
    | inr failed =>
      rw [refreshTasks, failed] at member
      cases member
    | inl obtained =>
      rw [refreshTasks, obtained] at member
      obtain ⟨i, inWeek, selected, computed, outdated⟩ := mem_enqueueCacheRefreshTasks.mp member
      rw [sameTypes] at selected
      have inWindow : i < first.daysAheadToSync := inWeek.trans_le (getDaysAheadToSync_bounds first.preferences).1
      have onDay : task.date.day = today.addDays i := by rw [computed, AelfDate.day_addDays, secondDay.refresh]
      obtain ⟨row, found, _⟩ := filled task.what selected i inWindow task.date onDay
      have cached := listing task.what inWindow onDay
      rw [found, Option.map_some] at cached
      have fresh : isOutdated snapshot.metadata second.cachedOffices task.what task.date = false := by
        rw [isOutdated_eq_false_iff cached]
        intro officeMetadata announced
        exact fresh_of_completed against consistent completed firstDay years selected inWeek onDay found announced
      rw [fresh] at outdated
      cases outdated

end SyncRun

namespace OneWeek

/-- The server announces for every day the checksum that it tags its office with. -/
def metadata : OfficesMetadata := ⟨fun _ => some fun _ => some ⟨some "checksum", ⟨IsoDate.epoch, true⟩⟩⟩

def snapshot : Snapshot Office := ⟨"romain", 82, metadata, env.server⟩

omit [HttpDateFormat] in
theorem consistent : snapshot.Consistent := by
  intro what date officeMetadata announced
  obtain rfl := Option.some.inj announced
  refine ⟨"checksum", rfl, by decide, fun response answered => ?_⟩
  obtain rfl := Except.ok.inj answered
  decide

def first (today : Date) : SyncRun Office := run today (some metadata)

def second (today : Date) : SyncRun Office :=
  .sequential preferences (clock today) (first today).finalCache (some metadata) env

theorem against (today : Date) : (first today).Against snapshot := by
  refine ⟨rfl, rfl, fun reading member => ?_, fun reading member => ?_⟩
  · obtain ⟨task, _, rfl⟩ := List.mem_map.mp member
    rfl
  · obtain ⟨task, _, rfl⟩ := List.mem_map.mp member
    rfl

theorem samePreferences (today : Date) : (second today).preferences = (first today).preferences :=
  (rfl : preferences = preferences)

theorem sameVersion (today : Date) : (second today).apiVersion = (first today).apiVersion :=
  (rfl : env.apiVersion = env.apiVersion)

omit [HttpDateFormat] in
/-- In May 2024 the second run has nothing to do. -/
theorem second_sync_in_may :
    letI : HttpDateFormat := ⟨fun _ => none⟩
    (second inMay).initialFetchTasks = [] ∧ (second inMay).refreshTasks = [] := by
  let _ : HttpDateFormat := ⟨fun _ => none⟩
  exact SyncRun.second_sync_schedules_nothing (first inMay) (second inMay) snapshot inMay consistent
    (against inMay) (completed inMay (some metadata)) (constant inMay) (constant inMay)
    (years_inMay (some metadata)) (samePreferences inMay) (sameVersion inMay) rfl (.inl rfl)

omit [HttpDateFormat] in
/-- On 31 December 9999 the second run fetches the year 10000 again. -/
theorem second_sync_on_new_years_eve :
    letI : HttpDateFormat := ⟨fun _ => none⟩
    ¬∀ (first second : SyncRun Office) (snapshot : Snapshot Office) (today : Date), snapshot.Consistent →
      first.Against snapshot → first.Completed → first.clock.Constant today → second.clock.Constant today →
      second.preferences = first.preferences → second.apiVersion = first.apiVersion →
      second.cache = first.finalCache → second.metadata = some snapshot.metadata →
        second.initialFetchTasks = [] ∧ second.refreshTasks = [] := by
  intro converges
  let _ : HttpDateFormat := ⟨fun _ => none⟩
  obtain ⟨nothing, _⟩ := converges (first newYearsEve) (second newYearsEve) snapshot newYearsEve consistent
    (against newYearsEve) (completed newYearsEve (some metadata)) (constant newYearsEve) (constant newYearsEve)
    (samePreferences newYearsEve) (sameVersion newYearsEve) rfl rfl
  have unlisted : (second newYearsEve).cachedOffices.containsKey (.of .messe newYear) = false :=
    Cache.containsKey_of_absent (newYear_removed (some metadata) OfficeTypes.messe.toString) _ _
  have scheduled : (⟨.messe, newYear⟩ : Task) ∈ (second newYearsEve).initialFetchTasks :=
    mem_enqueueInitialFetchTasks.mpr ⟨1, by decide, by decide, rfl, unlisted⟩
  rw [nothing] at scheduled
  cases scheduled

end OneWeek

end Aelf.Sync
