import Aelf.Lectures.Cache

/-! # The HTTP client

`EpitreApi.getOffice` from the answer of the HTTP client to the `OfficeResponse`.
The client answers any status code; a body is represented by what the JSON adapter
makes of it, so a body that lacks the fields of an office is `.ok` of an office
whose references are null, and the literal `null` is `.ok none`. -/

namespace Aelf.Lectures

open Aelf.Library
open Aelf.Library.Calendar (Moment)

variable {α : Type}

structure Request where
  apiVersion : Int
  officeName : String
  date : String
  region : String
deriving DecidableEq

/-- `/%d/office/%s/%s.json?region=%s` -/
def Request.path (request : Request) : String :=
  "/" ++ toString request.apiVersion ++ "/office/" ++ request.officeName ++ "/" ++ request.date ++
    ".json?region=" ++ request.region

structure HttpResponse (α : Type) where
  code : Nat
  body : Except JavaException (Option α)
  etag : Option String
  lastModified : Option String

structure OfficeResponse (α : Type) where
  office : Option α
  checksum : String
  generationDate : IsoDate

/-- The HTTP client: an answer of the server, or an exception when there is none. -/
def Server (α : Type) := Request → Except JavaException (HttpResponse α)

/-! ## Response headers -/

/-- `substring(start, stop)`, which throws when the positions are out of order. -/
def substring (text : List Char) (start stop : Nat) : Except JavaException (List Char) :=
  if start ≤ stop ∧ stop ≤ text.length then .ok ((text.take stop).drop start)
  else .error .runtimeException

/-- `lastIndexOf` -/
def lastIndexOf (text : List Char) (wanted : Char) : Option Nat :=
  (text.reverse.findIdx? (· = wanted)).map fun fromEnd => text.length - 1 - fromEnd

def extractResponseEtag (etag : Option String) : Except JavaException String :=
  match etag with
  | none => .ok ""
  | some raw_etag =>
    match raw_etag.toList.findIdx? (· = '"'), lastIndexOf raw_etag.toList '"' with
    | some quote_start, some quote_end =>
      (substring raw_etag.toList (quote_start + 1) quote_end).map String.ofList
    | _, _ => .ok raw_etag

theorem findIdx?_first {before : List Char} {wanted : Char} (absent : wanted ∉ before) (after : List Char) :
    (before ++ wanted :: after).findIdx? (· = wanted) = some before.length := by
  induction before with
  | nil => simp [List.findIdx?_cons]
  | cons c before inductionHypothesis =>
    rw [List.mem_cons, not_or] at absent
    have skipped := inductionHypothesis absent.2
    rw [List.cons_append, List.findIdx?_cons, skipped]
    simp [Ne.symm absent.1]

theorem lastIndexOf_last (before : List Char) {wanted : Char} {after : List Char} (absent : wanted ∉ after) :
    lastIndexOf (before ++ wanted :: after) wanted = some before.length := by
  have absentReversed : wanted ∉ after.reverse := by simpa using absent
  unfold lastIndexOf
  rw [List.reverse_append, List.reverse_cons, List.append_assoc, List.singleton_append,
    findIdx?_first absentReversed]
  simp

/-- The text strictly between the first and the last double quote. -/
theorem extractResponseEtag_quoted {before checksum after : String} (noQuoteBefore : '"' ∉ before.toList)
    (noQuoteAfter : '"' ∉ after.toList) :
    extractResponseEtag (some (before ++ "\"" ++ checksum ++ "\"" ++ after)) = .ok checksum := by
  have text : (before ++ "\"" ++ checksum ++ "\"" ++ after).toList =
      before.toList ++ '"' :: (checksum.toList ++ '"' :: after.toList) := by simp
  have regrouped : before.toList ++ '"' :: (checksum.toList ++ '"' :: after.toList) =
      (before.toList ++ '"' :: checksum.toList) ++ '"' :: after.toList := by simp
  have first := findIdx?_first noQuoteBefore (checksum.toList ++ '"' :: after.toList)
  have last := lastIndexOf_last (before.toList ++ '"' :: checksum.toList) noQuoteAfter
  rw [← regrouped] at last
  simp only [extractResponseEtag, text, first, last, substring]
  rw [if_pos (by simp)]
  simp [Except.map, List.take_append, List.drop_append]

/-- A header without any double quote is taken as it is. -/
theorem extractResponseEtag_raw {checksum : String} (noQuote : '"' ∉ checksum.toList) :
    extractResponseEtag (some checksum) = .ok checksum := by
  have absent : checksum.toList.findIdx? (· = '"') = none := by
    rw [List.findIdx?_eq_none_iff]
    intro c member
    simpa using fun same : c = '"' => noQuote (same ▸ member)
  simp [extractResponseEtag, absent]

/-- A text with two double quotes has a first and a last one. -/
theorem exists_quoted {text : String} (two : 2 ≤ text.toList.count '"') :
    ∃ before between after : String, '"' ∉ before.toList ∧ '"' ∉ after.toList ∧
      text = before ++ "\"" ++ between ++ "\"" ++ after := by
  have someQuote : '"' ∈ text.toList := List.count_pos_iff.mp (by omega)
  obtain ⟨before, rest, split, noQuoteBefore⟩ := List.eq_append_cons_of_mem someQuote
  have another : '"' ∈ rest.reverse := by
    rw [split, List.count_append, List.count_cons_self, List.count_eq_zero.mpr noQuoteBefore] at two
    rw [List.mem_reverse]
    exact List.count_pos_iff.mp (by omega)
  obtain ⟨afterReversed, betweenReversed, splitRest, noQuoteAfter⟩ := List.eq_append_cons_of_mem another
  refine ⟨.ofList before, .ofList betweenReversed.reverse, .ofList afterReversed.reverse, by simpa using noQuoteBefore,
    by simpa using noQuoteAfter, ?_⟩
  have whole : rest = betweenReversed.reverse ++ '"' :: afterReversed.reverse := by
    rw [← List.reverse_reverse rest, splitRest]
    simp
  rw [← String.toList_inj, split, whole]
  simp

/-- The checksum is the text strictly between the first and the last double quote, a header without such a pair,
or empty without a header. -/
structure ReadsEtag (etag : Option String) (checksum : String) : Prop where
  quoted : ∀ before between after : String, '"' ∉ before.toList → '"' ∉ after.toList →
    etag = some (before ++ "\"" ++ between ++ "\"" ++ after) → checksum = between
  raw : ∀ text, etag = some text → text.toList.count '"' < 2 → checksum = text
  absent : etag = none → checksum = ""

theorem extractResponseEtag_reads {etag : Option String} (paired : ∀ text ∈ etag, text.toList.count '"' ≠ 1) :
    ∃ checksum, extractResponseEtag etag = .ok checksum ∧ ReadsEtag etag checksum := by
  have quoted {checksum : String} (extracted : extractResponseEtag etag = .ok checksum) :
      ∀ before between after : String, '"' ∉ before.toList → '"' ∉ after.toList →
        etag = some (before ++ "\"" ++ between ++ "\"" ++ after) → checksum = between := by
    intro before between after noQuoteBefore noQuoteAfter isTag
    rw [isTag, extractResponseEtag_quoted noQuoteBefore noQuoteAfter] at extracted
    exact (Except.ok.inj extracted).symm
  cases etag with
  | none => exact ⟨"", rfl, quoted rfl, by simp, fun _ => rfl⟩
  | some text =>
    have notOne := paired text rfl
    obtain none | two := Nat.lt_or_ge (text.toList.count '"') 2
    · have noQuote : '"' ∉ text.toList := List.count_eq_zero.mp (by omega)
      have extracted := extractResponseEtag_raw noQuote
      refine ⟨text, extracted, quoted extracted, ?_, by simp⟩
      rintro other isTag -
      exact Option.some.inj isTag
    · obtain ⟨before, between, after, noQuoteBefore, noQuoteAfter, rfl⟩ := exists_quoted two
      have extracted : extractResponseEtag (some (before ++ "\"" ++ between ++ "\"" ++ after)) = .ok between :=
        extractResponseEtag_quoted noQuoteBefore noQuoteAfter
      refine ⟨between, extracted, quoted extracted, ?_, by simp⟩
      rintro other isTag few
      rw [← Option.some.inj isTag] at few
      omega

/-- `extractResponseDate`: `now` is the time of the call. -/
def extractResponseDate [HttpDateFormat] (now : Moment) (lastModified : Option String) : IsoDate :=
  match lastModified with
  | none => ⟨now, true⟩
  | some raw_date => IsoDate.ofString raw_date

/-! ## `getOffice` -/

/-- The two `catch` clauses: an `IOException` goes through, anything else is wrapped in one. -/
def asIOException (exception : JavaException) : JavaException :=
  if exception.isIOException then exception else .ioException

/-- The body of the `try` block of `getOffice`. -/
def requestOffice [HttpDateFormat] (server : Server α) (now : Moment) (request : Request) :
    Except JavaException (OfficeResponse α) := do
  let response ← server request
  let office ← response.body
  let checksum ← extractResponseEtag response.etag
  return ⟨office, checksum, extractResponseDate now response.lastModified⟩

def getOffice [HttpDateFormat] (server : Server α) (now : Moment) (request : Request) :
    Except JavaException (OfficeResponse α) :=
  (requestOffice server now request).mapError asIOException

theorem isIOException_asIOException (exception : JavaException) :
    (asIOException exception).isIOException = true := by
  cases exception <;> rfl

/-- `getOffice` throws nothing but `IOException`s. -/
theorem getOffice_error_isIOException [HttpDateFormat] {server : Server α} {now : Moment}
    {request : Request} {exception : JavaException}
    (failed : getOffice server now request = .error exception) : exception.isIOException = true := by
  unfold getOffice at failed
  cases attempt : requestOffice server now request with
  | ok response => simp [attempt, Except.mapError] at failed
  | error inner =>
    rw [attempt] at failed
    obtain rfl := Except.error.inj failed
    exact isIOException_asIOException inner

/-- With a decoded body, `getOffice` answers with that office, whatever the status code. -/
theorem getOffice_of_decoded [HttpDateFormat] {server : Server α} (now : Moment) {request : Request}
    {response : HttpResponse α} {office : Option α} {checksum : String}
    (answered : server request = .ok response) (decoded : response.body = .ok office)
    (extracted : extractResponseEtag response.etag = .ok checksum) :
    getOffice server now request = .ok ⟨office, checksum, extractResponseDate now response.lastModified⟩ := by
  simp [getOffice, requestOffice, answered, decoded, extracted, bind, Except.bind, pure, Except.pure,
    Except.mapError]

/-- The date is the one in the header, or marked invalid. -/
structure ReadsDate [HttpDateFormat] (lastModified : Option String) (date : IsoDate) : Prop where
  accepted : ∀ moment, lastModified.bind IsoDate.accepted = some moment → date = ⟨moment, true⟩
  refused : lastModified.bind IsoDate.accepted = none → date.isValid = false

theorem extractResponseDate_reads [HttpDateFormat] (now : Moment) (text : String) :
    ReadsDate (some text) (extractResponseDate now (some text)) := by
  constructor
  · intro moment isAccepted
    rw [Option.bind_some] at isAccepted
    rw [extractResponseDate, IsoDate.ofString_eq, isAccepted]
  · intro notAccepted
    rw [Option.bind_some] at notAccepted
    rw [extractResponseDate, IsoDate.ofString_eq, notAccepted]

/-- The headers of a response do not keep its office from being returned, and only a response without a date is
given the current one. -/
theorem getOffice_headers [HttpDateFormat] {server : Server α} (now : Moment) {request : Request}
    {response : HttpResponse α} {office : α} (answered : server request = .ok response)
    (decoded : response.body = .ok (some office)) (paired : ∀ text ∈ response.etag, text.toList.count '"' ≠ 1) :
    ∃ returned, getOffice server now request = .ok returned ∧ returned.office = some office ∧
      ReadsEtag response.etag returned.checksum ∧
      (response.lastModified ≠ none → ReadsDate response.lastModified returned.generationDate) ∧
      (response.lastModified = none → returned.generationDate = ⟨now, true⟩) := by
  obtain ⟨checksum, extracted, reads⟩ := extractResponseEtag_reads paired
  refine ⟨_, getOffice_of_decoded now answered decoded extracted, rfl, reads, ?_, ?_⟩
  · intro present
    obtain ⟨text, isDate⟩ := Option.ne_none_iff_exists'.mp present
    rw [isDate]
    exact extractResponseDate_reads now text
  · intro absent
    rw [absent]
    rfl

def messeRequest : Request := ⟨47, "messe", "2024-05-20", "romain"⟩

/-- An office with a weak tag and a day. -/
def taggedResponse : HttpResponse Unit := ⟨200, .ok (some ()), some "W/\"0326\"", some "2024-05-20"⟩

theorem weak_tag_headers :
    letI : HttpDateFormat := ⟨fun _ => none⟩
    ∃ returned, getOffice (fun _ => .ok taggedResponse) IsoDate.epoch messeRequest = .ok returned ∧
      returned.office = some () ∧ ReadsEtag taggedResponse.etag returned.checksum ∧
      (taggedResponse.lastModified ≠ none → ReadsDate taggedResponse.lastModified returned.generationDate) ∧
      (taggedResponse.lastModified = none → returned.generationDate = ⟨IsoDate.epoch, true⟩) :=
  letI : HttpDateFormat := ⟨fun _ => none⟩
  getOffice_headers IsoDate.epoch rfl rfl (by simp [taggedResponse])

/-- Without a date the office is returned with the current one, which is not marked invalid. -/
theorem absent_date_not_invalid :
    letI : HttpDateFormat := ⟨fun _ => none⟩
    ∃ returned : OfficeResponse Unit,
      getOffice (fun _ => .ok ⟨200, .ok (some ()), none, none⟩) IsoDate.epoch messeRequest = .ok returned ∧
      ¬ReadsDate none returned.generationDate := by
  let _ : HttpDateFormat := ⟨fun _ => none⟩
  refine ⟨⟨some (), "", ⟨IsoDate.epoch, true⟩⟩, rfl, fun reads => ?_⟩
  cases reads.refused rfl

/-- What `getOffice` returns is read off an answer of the server. -/
theorem decoded_of_getOffice [HttpDateFormat] {server : Server α} {now : Moment} {request : Request}
    {response : OfficeResponse α} (returned : getOffice server now request = .ok response) :
    ∃ answer, server request = .ok answer ∧ answer.body = .ok response.office ∧
      extractResponseEtag answer.etag = .ok response.checksum ∧
      response.generationDate = extractResponseDate now answer.lastModified := by
  unfold getOffice requestOffice at returned
  cases answered : server request with
  | error exception => simp [answered, bind, Except.bind, Except.mapError] at returned
  | ok answer =>
    cases body : answer.body with
    | error exception => simp [answered, body, bind, Except.bind, Except.mapError] at returned
    | ok decoded =>
      cases etag : extractResponseEtag answer.etag with
      | error exception => simp [answered, body, etag, bind, Except.bind, Except.mapError] at returned
      | ok checksum =>
        simp only [answered, body, etag, bind, Except.bind, pure, Except.pure, Except.mapError,
          Except.ok.injEq] at returned
        subst returned
        exact ⟨answer, rfl, body, etag, rfl⟩

end Aelf.Lectures
