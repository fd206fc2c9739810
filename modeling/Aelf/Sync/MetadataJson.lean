import Aelf.Sync.Schedule

/-! # Office metadata as JSON

`OfficeChecksumJsonAdapter` reads the checksum and the generation date of an office
from a JSON map, and writes them to one.  A date that could not be read is the epoch
with a flag; only the date is written, so the flag is lost on the way. -/

namespace Aelf.Sync

open Aelf.Lectures
open Aelf.Library.Calendar (Date Moment)

/-! ## The adapter -/

/-- A value of a `Map<String, Object>`. -/
inductive JsonValue where
  | null
  | string (text : String)
  | other

def JsonMap := String → Option JsonValue

/-- `(String) value` -/
def castToString : Option JsonValue → Except JavaException (Option String)
  | none | some .null => .ok none
  | some (.string text) => .ok (some text)
  | some .other => .error .runtimeException

def officeChecksumFromJsonMap [HttpDateFormat] (raw_office_checksum : JsonMap) :
    Except JavaException OfficeMetadata := do
  let checksum ← castToString (raw_office_checksum "checksum")
  match ← castToString (raw_office_checksum "generation-date") with
  -- the formats do not take a null reference
  | none => .error .runtimeException
  | some raw_date => return ⟨checksum, IsoDate.ofString raw_date⟩

def jsonString : Option String → JsonValue
  | none => .null
  | some text => .string text

def officeChecksumToJsonMap (officeMetadata : OfficeMetadata) : JsonMap := fun key =>
  if key = "checksum" then some (jsonString officeMetadata.checksum)
  else if key = "generation-date" then some (.string officeMetadata.generationDate.toString)
  else none

/-! ## Reading back what was written -/

/-- The format of HTTP dates has no place for a fraction of a second. -/
def WholeSeconds [HttpDateFormat] : Prop :=
  ∀ text moment, HttpDateFormat.parse text = some moment → moment.truncate = moment

/-- The metadata come back with the checksum, the instant and the flag they had, and whether an office is refreshed
does not depend on which of the two the server has sent. -/
structure ComesBack [HttpDateFormat] (officeMetadata again : OfficeMetadata) : Prop where
  reads : officeChecksumFromJsonMap (officeChecksumToJsonMap officeMetadata) = .ok again
  checksum : again.checksum = officeMetadata.checksum
  instant : again.generationDate.moment = officeMetadata.generationDate.moment
  isValid : again.generationDate.isValid = officeMetadata.generationDate.isValid
  decides : ∀ {α : Type} (first second : OfficesMetadata) (cachedOffices : CacheEntries α) (what : OfficeTypes)
    (date : AelfDate), first.getOfficeChecksum what date = some officeMetadata →
      second.getOfficeChecksum what date = some again →
        isOutdated second cachedOffices what date = isOutdated first cachedOffices what date

def RoundTrips [HttpDateFormat] (raw_office_checksum : JsonMap) : Prop :=
  ∃ officeMetadata again, officeChecksumFromJsonMap raw_office_checksum = .ok officeMetadata ∧
    ComesBack officeMetadata again

section Reading

variable [HttpDateFormat]

theorem truncate_of_accepted (wholeSeconds : WholeSeconds) {isoString : String} {moment : Moment}
    (isAccepted : IsoDate.accepted isoString = some moment) : moment.truncate = moment := by
  obtain ⟨parse, isFormat, parses⟩ := List.exists_of_findSome?_eq_some isAccepted
  simp only [List.mem_cons, List.not_mem_nil, or_false] at isFormat
  obtain rfl | rfl | rfl := isFormat
  · exact truncate_of_parseDateTime parses
  · exact truncate_of_parseDay parses
  · exact wholeSeconds _ _ parses

theorem fromJsonMap_toJsonMap (officeMetadata : OfficeMetadata) :
    officeChecksumFromJsonMap (officeChecksumToJsonMap officeMetadata) =
      .ok ⟨officeMetadata.checksum, IsoDate.ofString officeMetadata.generationDate.toString⟩ := by
  obtain ⟨checksum, generationDate⟩ := officeMetadata
  cases checksum <;> rfl

/-- The date decides alone. -/
theorem comesBack_iff (officeMetadata : OfficeMetadata) :
    (∃ again, ComesBack officeMetadata again) ↔
      IsoDate.ofString officeMetadata.generationDate.toString = officeMetadata.generationDate := by
  constructor
  · rintro ⟨again, comesBack⟩
    have reads := comesBack.reads
    rw [fromJsonMap_toJsonMap] at reads
    obtain rfl := Except.ok.inj reads
    exact IsoDate.ext comesBack.instant comesBack.isValid
  · intro same
    refine ⟨officeMetadata, ?_, rfl, rfl, rfl, ?_⟩
    · rw [fromJsonMap_toJsonMap, same]
    · intro α first second cachedOffices what date sentFirst sentSecond
      unfold isOutdated
      rw [sentFirst, sentSecond]

/-- A date that was read comes back unless it is before the current era, where only the year of the era is written. -/
theorem ofString_toString_iff {moment : Moment} (whole : moment.truncate = moment) :
    IsoDate.ofString (IsoDate.toString ⟨moment, true⟩) = ⟨moment, true⟩ ↔ 1 ≤ moment.date.year := by
  constructor
  · intro same
    rw [IsoDate.ofString_toString_anyEra] at same
    have sameMoment := (IsoDate.mk.inj same).1
    by_contra earlier
    have later : (yearOfEra moment.date.year : Int) ≤ moment.date.year := by
      have month := moment.date.month_bounds
      have day := moment.date.day_bounds
      calc (yearOfEra moment.date.year : Int)
          ≤ (Moment.ofFields (yearOfEra moment.date.year) moment.date.month moment.date.day moment.hour moment.minute
              moment.second).date.year := Date.year_le_ofFields (by omega) (by omega)
        _ = moment.date.year := by rw [sameMoment]
    rw [yearOfEra, if_neg (by omega)] at later
    omega
  · intro currentEra
    rw [IsoDate.ofString_toString _ currentEra, whole]

variable {raw_office_checksum : JsonMap} {checksum text : String}

theorem fromJsonMap_of_strings (isChecksum : raw_office_checksum "checksum" = some (.string checksum))
    (isDate : raw_office_checksum "generation-date" = some (.string text)) :
    officeChecksumFromJsonMap raw_office_checksum = .ok ⟨some checksum, IsoDate.ofString text⟩ := by
  simp only [officeChecksumFromJsonMap, isChecksum, isDate, castToString]
  rfl

theorem roundTrips_iff_same (isChecksum : raw_office_checksum "checksum" = some (.string checksum))
    (isDate : raw_office_checksum "generation-date" = some (.string text)) :
    RoundTrips raw_office_checksum ↔
      IsoDate.ofString (IsoDate.ofString text).toString = IsoDate.ofString text := by
  have read := fromJsonMap_of_strings isChecksum isDate
  rw [← comesBack_iff ⟨some checksum, IsoDate.ofString text⟩]
  constructor
  · rintro ⟨officeMetadata, again, reads, comesBack⟩
    obtain rfl := Except.ok.inj (read.symm.trans reads)
    exact ⟨again, comesBack⟩
  · rintro ⟨again, comesBack⟩
    exact ⟨_, again, read, comesBack⟩

/-- Metadata round-trip exactly when their date is accepted and in the current era. -/
theorem roundTrips_metadata_iff (wholeSeconds : WholeSeconds)
    (isChecksum : raw_office_checksum "checksum" = some (.string checksum))
    (isDate : raw_office_checksum "generation-date" = some (.string text)) :
    RoundTrips raw_office_checksum ↔ ∃ moment, IsoDate.accepted text = some moment ∧ 1 ≤ moment.date.year := by
  rw [roundTrips_iff_same isChecksum isDate, IsoDate.ofString_eq text]
  cases isAccepted : IsoDate.accepted text with
  | none =>
    -- the epoch is written, which is a date like any other
    simp [IsoDate.ofString_toString_anyEra]
  | some moment =>
    rw [ofString_toString_iff (truncate_of_accepted wholeSeconds isAccepted)]
    simp

end Reading

/-- A map as the server sends it. -/
def sentMap (generationDate : String) : JsonMap := fun key =>
  if key = "checksum" then some (.string "0326067588ea4e14")
  else if key = "generation-date" then some (.string generationDate)
  else none

/-- The fraction is dropped by the first reading already. -/
theorem fraction_roundTrips :
    letI : HttpDateFormat := ⟨fun _ => none⟩
    RoundTrips (sentMap "2024-05-20T18:07:54.386121") := by
  let _ : HttpDateFormat := ⟨fun _ => none⟩
  have wholeSeconds : WholeSeconds := by
    intro text moment parses
    cases parses
  refine (roundTrips_metadata_iff wholeSeconds rfl rfl).mpr
    ⟨Moment.ofFields 2024 5 20 18 7 54, by decide +kernel, by decide +kernel⟩

def sentForAll (officeMetadata : OfficeMetadata) : OfficesMetadata := ⟨fun _ => some fun _ => some officeMetadata⟩

/-- Every office in the cache, as it was on 20 May 2024. -/
def cachedIn2024 : CacheEntries Unit := fun _ => some ⟨none, "6588ea4e14b3cea8", ⟨Moment.ofFields 2024 5 20 0 0 0, true⟩⟩

/-- What is no date comes back as a valid one, and an office that was refreshed before is not refreshed any more. -/
theorem invalid_not_roundTrips :
    letI : HttpDateFormat := ⟨fun _ => none⟩
    ∃ date again : IsoDate, IsoDate.ofString "I'm invalid" = date ∧ IsoDate.ofString date.toString = again ∧
      date.isValid = false ∧ again.isValid = true ∧
      isOutdated (sentForAll ⟨some "0326067588ea4e14", date⟩) cachedIn2024 .messe (.ofDay IsoDate.epoch.date) = true ∧
      isOutdated (sentForAll ⟨some "0326067588ea4e14", again⟩) cachedIn2024 .messe (.ofDay IsoDate.epoch.date) = false ∧
      ¬RoundTrips (sentMap "I'm invalid") := by
  let _ : HttpDateFormat := ⟨fun _ => none⟩
  have invalid : IsoDate.ofString "I'm invalid" = ⟨IsoDate.epoch, false⟩ := by decide +kernel
  have again : IsoDate.ofString (IsoDate.mk IsoDate.epoch false).toString = ⟨IsoDate.epoch, true⟩ := by decide +kernel
  refine ⟨⟨IsoDate.epoch, false⟩, ⟨IsoDate.epoch, true⟩, invalid, again, rfl, rfl, by decide +kernel, by decide +kernel, ?_⟩
  have iffSame : RoundTrips (sentMap "I'm invalid") ↔
      IsoDate.ofString (IsoDate.ofString "I'm invalid").toString = IsoDate.ofString "I'm invalid" :=
    roundTrips_iff_same rfl rfl
  rw [iffSame, invalid, again]
  decide

end Aelf.Sync
