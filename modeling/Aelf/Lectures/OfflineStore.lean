import Aelf.Library.Runs
import Aelf.Lectures.Controller

/-! # What server answers do to the offline store

`getOffice` looks neither at the status code nor at the decoded office, and
`loadLecturesFromNetwork` stores whatever it gets.  This module says which
answers leave the cache alone, and which runs keep every cached office readable. -/

namespace Aelf.Lectures.OfflineStore

open Aelf.Library
open LecturesController

/-! ## One download -/

/-- A 2xx answer that decodes to an office with variants. -/
def Usable (response : HttpResponse Office) : Prop :=
  (200 ≤ response.code ∧ response.code ≤ 299) ∧
    ∃ office, response.body = .ok (some office) ∧ office.variants ≠ none

variable [HttpDateFormat]

/-- The row an answer makes, once its body and its entity tag have been read. -/
def answerRow (env : Environment Office) (what : OfficeTypes) (date : AelfDate)
    (response : HttpResponse Office) (decoded : Option Office) (checksum : String) : Row Office :=
  Cache.newRow what date decoded checksum (extractResponseDate env.now response.lastModified) env.apiVersion

/-- Every way a decoded answer can fail to change the cache: its entity tag cannot be read, the
write fails, or the row is already there. -/
def LeavesCache (env : Environment Office) (cache : Cache Office) (what : OfficeTypes) (date : AelfDate)
    (response : HttpResponse Office) (decoded : Option Office) : Prop :=
  (∃ exception, extractResponseEtag response.etag = .error exception) ∨ env.sqlite = .sqliteException ∨
    ∃ checksum, extractResponseEtag response.etag = .ok checksum ∧
      answerRow env what date response decoded checksum ∈ cache.rows

theorem cache_unchanged_iff {env : Environment Office} {cache : Cache Office} {what : OfficeTypes}
    {date : AelfDate} {response : HttpResponse Office} {decoded : Option Office}
    (answered : env.server (officeRequest env what date) = .ok response)
    (decodes : response.body = .ok decoded) :
    (loadLecturesFromNetwork env cache what date).2 = cache ↔
      LeavesCache env cache what date response decoded := by
  unfold LeavesCache
  cases etag : extractResponseEtag response.etag with
  | error exception =>
    have failed : ∃ thrown, getOffice env.server env.now (officeRequest env what date) = .error thrown := by
      simp [getOffice, requestOffice, answered, decodes, etag, bind, Except.bind, Except.mapError]
    obtain ⟨thrown, failed⟩ := failed
    simp [loadLecturesFromNetwork, failed]
  | ok checksum =>
    have office := getOffice_of_decoded env.now answered decodes etag
    cases written : env.sqlite with
    | sqliteException => simp [loadLecturesFromNetwork, office, written, Cache.store, JavaException.isIOException]
    | done =>
      have stored : (loadLecturesFromNetwork env cache what date).2 =
          cache.insertOrReplace (answerRow env what date response decoded checksum) := by
        simp [loadLecturesFromNetwork, office, written, Cache.store, answerRow]
      simp [stored, Table.insertOrReplace_eq_self_iff]

/-! ## Runs -/

/-- The calls that change the cache. -/
inductive Step where
  | loadLecturesFromNetwork (env : Environment Office) (what : OfficeTypes) (date : AelfDate)
  | loadLectures (env : Environment Office) (what : OfficeTypes) (date : AelfDate) (useCache : Bool)
  | truncateBefore (date : AelfDate)
  | dropDatabase

def Step.apply (cache : Cache Office) : Step → Cache Office
  | .loadLecturesFromNetwork env what date => (LecturesController.loadLecturesFromNetwork env cache what date).2
  | .loadLectures env what date useCache => (LecturesController.loadLectures env cache what date useCache).2
  | .truncateBefore date => cache.truncateBefore date
  | .dropDatabase => cache.dropDatabase

def run (steps : List Step) : Cache Office := steps.foldl Step.apply Table.empty

omit [HttpDateFormat] in
/-- Every answer that decodes is an office with all its variants and their lectures. -/
def CompleteAnswer (env : Environment Office) (what : OfficeTypes) (date : AelfDate) : Prop :=
  ∀ response decoded, env.server (officeRequest env what date) = .ok response → response.body = .ok decoded →
    ∃ office, decoded = some office ∧ office.Complete

def Step.CompleteAnswers : Step → Prop
  | .loadLecturesFromNetwork env what date | .loadLectures env what date _ => CompleteAnswer env what date
  | .truncateBefore _ | .dropDatabase => True

/-- Every cached office has its variants, and `getLectures` succeeds on it. -/
def Readable (cache : Cache Office) : Prop :=
  ∀ row ∈ cache.rows, ∃ office, row.lectures = .ok (some office) ∧ office.variants ≠ none ∧
    ∃ lectures, office.getLectures = .ok lectures

omit [HttpDateFormat] in
theorem readable_insert {cache : Cache Office} (readable : Readable cache) {row : Row Office} {office : Office}
    (decodes : row.lectures = .ok (some office)) (complete : office.Complete) :
    Readable (cache.insertOrReplace row) := by
  intro candidate member
  obtain rfl | ⟨old, _⟩ := (Table.mem_replaceRows row candidate cache.rows).mp member
  · have succeeds := office.getLectures_ok_iff.mpr complete
    obtain ⟨variants, present, _⟩ := complete
    exact ⟨office, decodes, by simp [present], succeeds⟩
  · exact readable candidate old

theorem readable_loadLecturesFromNetwork {cache : Cache Office} (readable : Readable cache)
    {env : Environment Office} {what : OfficeTypes} {date : AelfDate} (complete : CompleteAnswer env what date) :
    Readable (LecturesController.loadLecturesFromNetwork env cache what date).2 := by
  rcases loadLecturesFromNetwork_cases env cache what date with
    ⟨_, _, result⟩ | ⟨_, _, _, result⟩ | ⟨response, answered, _, result⟩
  · rw [result]
    exact readable
  · rw [result]
    exact readable
  · obtain ⟨answer, received, body, _⟩ := decoded_of_getOffice answered
    obtain ⟨office, decoded, officeComplete⟩ := complete answer response.office received body
    rw [result]
    exact readable_insert readable (congrArg Except.ok decoded) officeComplete

theorem readable_apply {cache : Cache Office} (readable : Readable cache) {step : Step}
    (complete : step.CompleteAnswers) : Readable (step.apply cache) := by
  cases step with
  | loadLecturesFromNetwork env what date => exact readable_loadLecturesFromNetwork readable complete
  | loadLectures env what date useCache =>
    have downloaded := readable_loadLecturesFromNetwork readable complete
    obtain kept | replaced := loadLectures_cache env cache what date useCache
    · simpa only [Step.apply, kept] using readable
    · simpa only [Step.apply, replaced] using downloaded
  | truncateBefore date => exact fun row member => readable row (List.mem_of_mem_filter member)
  | dropDatabase => exact fun row member => by cases member

theorem readable_run (steps : List Step) (complete : ∀ step ∈ steps, step.CompleteAnswers) :
    Readable (run steps) := by
  apply Runs.invariant_run Step.apply Readable
    (fun _ _ stepComplete readable => readable_apply readable stepComplete)
    (Runs.allowed_of_forall Step.apply complete _)
  intro row member
  cases member

/-- An unusable answer leaves the cache alone exactly when something keeps it from being stored; and
a run in which every decoded answer is a complete office leaves only readable offices behind. -/
theorem unusable_answers_and_the_offline_store :
    (∀ (env : Environment Office) (cache : Cache Office) what date response decoded,
      env.server (officeRequest env what date) = .ok response → response.body = .ok decoded →
      ((¬Usable response → (LecturesController.loadLecturesFromNetwork env cache what date).2 = cache) ↔
        Usable response ∨ LeavesCache env cache what date response decoded)) ∧
    ∀ steps : List Step, (∀ step ∈ steps, step.CompleteAnswers) → Readable (run steps) := by
  refine ⟨fun env cache what date response decoded answered decodes => ?_, readable_run⟩
  rw [cache_unchanged_iff answered decodes]
  tauto

/-! ## An error page in the cache -/

/-- A JSON object without any field of an office, as an error page has. -/
def errorPage : HttpResponse Office := ⟨404, .ok (some ⟨none, none⟩), none, none⟩

def errorEnv : Environment Office := { StaleEntry.env with server := fun _ => .ok errorPage }

omit [HttpDateFormat] in
/-- A 404 answer overwrites the cached office with one that has no variants. -/
theorem error_page_overwrites_cached_office :
    letI : HttpDateFormat := ⟨fun _ => none⟩
    ¬(¬Usable errorPage →
      (LecturesController.loadLecturesFromNetwork errorEnv StaleEntry.cache .messe StaleEntry.date).2 =
        StaleEntry.cache) := by
  intro kept
  let _ : HttpDateFormat := ⟨fun _ => none⟩
  have unusable : ¬Usable errorPage := fun usable => absurd usable.1.2 (by decide)
  have sameRows := congrArg (fun cache => (Table.find? cache (StaleEntry.date.toIsoString, "lectures_messe")).map
    fun row => row.create_version) (kept unusable)
  exact absurd sameRows (by decide)

end Aelf.Lectures.OfflineStore
