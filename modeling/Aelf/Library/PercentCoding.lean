import Aelf.Library.Uri
import Mathlib.Tactic.Common
import Mathlib.Tactic.IntervalCases

/-! # Percent escapes over UTF-8

What `Uri.decode` makes of an escaped text and what `URLEncoder.encode` writes.  The
decoder collects the octets of neighbouring escapes and turns them into characters
when the run of escapes ends; an octet that starts no character and an escape
without its two digits become a replacement mark. -/

namespace Aelf.Library.PercentCoding

/-! ## Octets -/

def replacement : Char := '\uFFFD'

/-- The characters that octets spell, with enough fuel for every octet. -/
def decodeOctetsFrom : Nat → List UInt8 → List Char
  | 0, _ => []
  | _ + 1, [] => []
  | fuel + 1, octet :: octets =>
    match (octet :: octets).toByteArray.utf8DecodeChar? 0 with
    | some c => c :: decodeOctetsFrom fuel ((octet :: octets).drop c.utf8Size)
    | none => replacement :: decodeOctetsFrom fuel octets

def decodeOctets (octets : List UInt8) : List Char := decodeOctetsFrom octets.length octets

def encodeOctets (text : List Char) : List UInt8 := text.flatMap String.utf8EncodeChar

@[simp] theorem decodeOctets_nil : decodeOctets [] = [] := rfl

theorem length_decodeOctetsFrom (fuel : Nat) (octets : List UInt8) :
    (decodeOctetsFrom fuel octets).length ≤ octets.length := by
  induction fuel generalizing octets with
  | zero => exact Nat.zero_le _
  | succ fuel inductionHypothesis =>
    cases octets with
    | nil => exact Nat.zero_le _
    | cons octet octets =>
      rw [decodeOctetsFrom]
      split
      next c _ =>
        have dropped := inductionHypothesis ((octet :: octets).drop c.utf8Size)
        have positive := c.utf8Size_pos
        rw [List.length_drop, List.length_cons] at dropped
        rw [List.length_cons, List.length_cons]
        omega
      next =>
        rw [List.length_cons, List.length_cons]
        exact Nat.succ_le_succ (inductionHypothesis octets)

theorem length_decodeOctets (octets : List UInt8) : (decodeOctets octets).length ≤ octets.length :=
  length_decodeOctetsFrom octets.length octets

theorem decodeOctetsFrom_encodeOctets {fuel : Nat} (text : List Char) (enough : text.length ≤ fuel) :
    decodeOctetsFrom fuel (encodeOctets text) = text := by
  induction text generalizing fuel with
  | nil => cases fuel <;> rfl
  | cons c text inductionHypothesis =>
    cases fuel with
    | zero => simp at enough
    | succ fuel =>
      have octets : encodeOctets (c :: text) = String.utf8EncodeChar c ++ encodeOctets text := rfl
      have decoded : (encodeOctets (c :: text)).toByteArray.utf8DecodeChar? 0 = some c := by
        rw [octets, List.toByteArray_append]
        exact ByteArray.utf8DecodeChar?_utf8EncodeChar_append
      have dropped : (encodeOctets (c :: text)).drop c.utf8Size = encodeOctets text := by
        rw [octets, ← String.length_utf8EncodeChar, List.drop_left]
      cases shape : encodeOctets (c :: text) with
      | nil =>
        rw [octets] at shape
        exact absurd (List.append_eq_nil_iff.mp shape).1 String.utf8EncodeChar_ne_nil
      | cons octet rest =>
        rw [shape] at decoded dropped
        rw [decodeOctetsFrom, decoded]
        simp only [dropped, inductionHypothesis (Nat.le_of_succ_le_succ enough)]

theorem length_encodeOctets (text : List Char) : text.length ≤ (encodeOctets text).length := by
  induction text with
  | nil => exact Nat.le_refl 0
  | cons c text inductionHypothesis =>
    have positive := c.utf8Size_pos
    have octets : encodeOctets (c :: text) = String.utf8EncodeChar c ++ encodeOctets text := rfl
    rw [octets, List.length_append, String.length_utf8EncodeChar, List.length_cons]
    omega

theorem decodeOctets_encodeOctets (text : List Char) : decodeOctets (encodeOctets text) = text :=
  decodeOctetsFrom_encodeOctets text (length_encodeOctets text)

/-! ## Decoding -/

def hexValue (c : Char) : Option Nat :=
  if '0' ≤ c ∧ c ≤ '9' then some (c.toNat - '0'.toNat)
  else if 'a' ≤ c ∧ c ≤ 'f' then some (c.toNat - 'a'.toNat + 10)
  else if 'A' ≤ c ∧ c ≤ 'F' then some (c.toNat - 'A'.toNat + 10)
  else none

/-- The loop of the decoder, with the octets of the escapes read last. -/
def decodeFrom (convertPlus : Bool) : List UInt8 → List Char → List Char
  | octets, [] => decodeOctets octets
  | octets, ['%'] => decodeOctets octets ++ [replacement]
  | octets, ['%', high] =>
    match hexValue high with
    | none => decodeOctets octets ++ replacement :: decodeOctets [0]
    | some _ => decodeOctets octets ++ [replacement]
  | octets, '%' :: high :: low :: rest =>
    match hexValue high, hexValue low with
    -- an escape that breaks off leaves the digits it has read as an octet
    | none, _ => decodeOctets octets ++ replacement :: decodeFrom convertPlus [0] (low :: rest)
    | some highValue, none =>
      decodeOctets octets ++ replacement :: decodeFrom convertPlus [UInt8.ofNat highValue] rest
    | some highValue, some lowValue =>
      decodeFrom convertPlus (octets ++ [UInt8.ofNat (16 * highValue + lowValue)]) rest
  | octets, c :: rest =>
    decodeOctets octets ++ (if c = '+' ∧ convertPlus then ' ' else c) :: decodeFrom convertPlus [] rest

def decode (convertPlus : Bool) (text : List Char) : List Char := decodeFrom convertPlus [] text

/-- The codec of the platform. -/
instance uriCodec : UriCodec := ⟨decode⟩

theorem decodeFrom_cons {c : Char} (plain : c ≠ '%') (convertPlus : Bool) (octets : List UInt8)
    (rest : List Char) :
    decodeFrom convertPlus octets (c :: rest) =
      decodeOctets octets ++ (if c = '+' ∧ convertPlus then ' ' else c) :: decodeFrom convertPlus [] rest := by
  rw [decodeFrom]
  · rintro rfl
    exact absurd rfl plain
  · intro high same
    exact absurd same plain
  · intro high low tail same
    exact absurd same plain

theorem decode_cons {c : Char} (plain : c ≠ '%') (convertPlus : Bool) (rest : List Char) :
    decode convertPlus (c :: rest) = (if c = '+' ∧ convertPlus then ' ' else c) :: decode convertPlus rest := by
  rw [decode, decodeFrom_cons plain]
  rfl

theorem decode_append {before : List Char} (plain : '%' ∉ before) (noPlus : '+' ∉ before) (convertPlus : Bool)
    (rest : List Char) : decode convertPlus (before ++ rest) = before ++ decode convertPlus rest := by
  induction before with
  | nil => rfl
  | cons c before inductionHypothesis =>
    rw [List.mem_cons, not_or] at plain noPlus
    rw [List.cons_append, decode_cons (Ne.symm plain.1), if_neg fun plus => noPlus.1 plus.1.symm,
      inductionHypothesis plain.2 noPlus.2, List.cons_append]

/-- Decoding never makes a text longer. -/
theorem length_decodeFrom (convertPlus : Bool) (octets : List UInt8) (text : List Char) :
    (decodeFrom convertPlus octets text).length ≤ octets.length + text.length := by
  -- the octets collected so far count with the text that is still to be read
  have flushed := length_decodeOctets
  induction octets, text using decodeFrom.induct with
  | case1 octets => simpa [decodeFrom] using flushed octets
  | case2 octets => simpa [decodeFrom] using flushed octets
  | case3 octets high invalid =>
    have := flushed octets
    have := flushed [0]
    simp only [List.length_singleton] at this
    simp only [decodeFrom, invalid, List.length_append, List.length_cons, List.length_nil]
    omega
  | case4 octets high value valid =>
    have := flushed octets
    simp only [decodeFrom, valid, List.length_append, List.length_cons, List.length_nil]
    omega
  | case5 octets high low rest invalid inductionHypothesis =>
    have := flushed octets
    simp only [List.length_cons, List.length_nil] at inductionHypothesis
    simp only [decodeFrom, invalid, List.length_append, List.length_cons]
    omega
  | case6 octets high low rest value valid invalid inductionHypothesis =>
    have := flushed octets
    simp only [List.length_cons, List.length_nil] at inductionHypothesis
    simp only [decodeFrom, valid, invalid, List.length_append, List.length_cons]
    omega
  | case7 octets high low rest highValue lowValue highValid lowValid inductionHypothesis =>
    simp only [List.length_append, List.length_cons, List.length_nil] at inductionHypothesis
    simp only [decodeFrom, highValid, lowValid, List.length_cons]
    omega
  | case8 octets c rest alone short escape inductionHypothesis =>
    have := flushed octets
    rw [decodeFrom.eq_5 convertPlus octets c rest alone short escape]
    simp only [List.length_nil] at inductionHypothesis
    simp only [List.length_append, List.length_cons]
    omega

theorem length_decode (convertPlus : Bool) (text : List Char) :
    (decode convertPlus text).length ≤ text.length := by
  have bound := length_decodeFrom convertPlus [] text
  rw [List.length_nil, Nat.zero_add] at bound
  exact bound

/-- An escape never stands for itself: a good one loses characters, a broken one is marked. -/
theorem decode_escape_ne (convertPlus : Bool) (rest : List Char) :
    decode convertPlus ('%' :: rest) ≠ '%' :: rest := by
  have marked (tail : List Char) : replacement :: tail ≠ '%' :: rest := by
    intro same
    exact absurd (List.cons.inj same).1 (by decide)
  match rest with
  | [] => exact marked []
  | [high] =>
    rw [decode, decodeFrom]
    split
    next => exact marked _
    next => exact marked []
  | high :: low :: rest =>
    rw [decode, decodeFrom]
    split
    next => exact marked _
    next => exact marked _
    next highValue lowValue _ _ =>
      intro same
      have shorter := length_decodeFrom convertPlus ([] ++ [UInt8.ofNat (16 * highValue + lowValue)]) rest
      rw [same] at shorter
      simp only [List.nil_append, List.length_cons, List.length_nil] at shorter
      omega

/-- The texts that decoding leaves alone. -/
theorem decode_eq_self_iff (convertPlus : Bool) (text : List Char) :
    decode convertPlus text = text ↔ '%' ∉ text ∧ (convertPlus = true → '+' ∉ text) := by
  induction text with
  | nil => simp [decode, decodeFrom]
  | cons c text inductionHypothesis =>
    by_cases escape : c = '%'
    · subst escape
      simpa using decode_escape_ne convertPlus text
    · rw [decode_cons escape, List.cons.injEq, inductionHypothesis]
      by_cases plus : c = '+'
      · subst plus
        cases convertPlus <;> simp
      · simp [plus, Ne.symm plus, Ne.symm escape]

theorem decodesEscapesOnly : Uri.DecodesEscapesOnly := fun convertPlus text noEscape noPlus =>
  (decode_eq_self_iff convertPlus text).mpr ⟨noEscape, fun _ => noPlus⟩

/-- The texts that a query can hold without being encoded. -/
def Transparent (text : List Char) : Prop := '&' ∉ text ∧ '#' ∉ text ∧ '+' ∉ text ∧ '%' ∉ text

instance (text : List Char) : Decidable (Transparent text) := inferInstanceAs (Decidable (_ ∧ _))

theorem readableValue_eq_self_iff (value : List Char) :
    Uri.readableValue value = value ↔ '#' ∉ value ∧ '&' ∉ value := by
  constructor
  · intro same
    have delimiters : ∀ c ∈ value, c ≠ '#' ∧ c ≠ '&' := by
      intro c member
      rw [← same] at member
      have inner := List.mem_takeWhile_imp member
      have outer := List.mem_takeWhile_imp ((List.takeWhile_prefix _).subset member)
      exact ⟨by simpa using outer, by simpa using inner⟩
    exact ⟨fun member => (delimiters '#' member).1 rfl, fun member => (delimiters '&' member).2 rfl⟩
  · rintro ⟨noFragment, noSeparator⟩
    rw [Uri.readableValue, Uri.takeWhile_absent noFragment, Uri.takeWhile_absent noSeparator]

theorem takeWhile_append_stop {c : Char} (value rest : List Char) :
    (value ++ c :: rest).takeWhile (· ≠ c) = value.takeWhile (· ≠ c) := by
  induction value with
  | nil => simp
  | cons first value inductionHypothesis =>
    by_cases same : first = c
    · simp [same]
    · rw [List.cons_append, List.takeWhile_cons_of_pos (by simpa using same), inductionHypothesis,
        List.takeWhile_cons_of_pos (by simpa using same)]

/-- The parameters after a value do not change what is read of it. -/
theorem readableValue_append (value rest : List Char) :
    Uri.readableValue (value ++ '&' :: rest) = Uri.readableValue value := by
  unfold Uri.readableValue
  by_cases fragment : '#' ∈ value
  · obtain ⟨before, after, rfl, absent⟩ := List.eq_append_cons_of_mem fragment
    rw [List.append_assoc, List.cons_append, Uri.takeWhile_ne absent, Uri.takeWhile_ne absent]
  · rw [List.takeWhile_append_of_pos fun c member => by
        simpa using fun same : c = '#' => fragment (same ▸ member),
      List.takeWhile_cons_of_pos (by decide), takeWhile_append_stop, Uri.takeWhile_absent fragment]

theorem readableValue_initial (value : List Char) : Uri.readableValue value <+: value :=
  (List.takeWhile_prefix _).trans (List.takeWhile_prefix _)

/-- A value written as it is reads back as it was exactly when it is transparent: what is cut off or
decoded never grows back. -/
theorem decode_readableValue_eq_iff (value : List Char) :
    decode true (Uri.readableValue value) = value ↔ Transparent value := by
  constructor
  · intro same
    have whole : Uri.readableValue value = value := by
      refine (readableValue_initial value).eq_of_length (le_antisymm (readableValue_initial value).length_le ?_)
      have shorter := length_decode true (Uri.readableValue value)
      rw [same] at shorter
      exact shorter
    obtain ⟨noFragment, noSeparator⟩ := (readableValue_eq_self_iff value).mp whole
    rw [whole] at same
    obtain ⟨noEscape, noPlus⟩ := (decode_eq_self_iff true value).mp same
    exact ⟨noSeparator, noFragment, noPlus rfl, noEscape⟩
  · rintro ⟨noSeparator, noFragment, noPlus, noEscape⟩
    rw [(readableValue_eq_self_iff value).mpr ⟨noFragment, noSeparator⟩]
    exact (decode_eq_self_iff true value).mpr ⟨noEscape, fun _ => noPlus⟩

/-! ## Encoding -/

/-- The characters that `URLEncoder` writes as they are. -/
def isUnreserved (c : Char) : Bool :=
  ('a' ≤ c && c ≤ 'z') || ('A' ≤ c && c ≤ 'Z') || ('0' ≤ c && c ≤ '9') || c = '.' || c = '-' || c = '*' || c = '_'

/-- The digit of a number below 16. -/
def hexDigit (number : Nat) : Char := "0123456789ABCDEF".toList.getD number '0'

def escapeOctet (octet : UInt8) : List Char :=
  ['%', hexDigit (octet.toNat / 16), hexDigit (octet.toNat % 16)]

def encodeChar (c : Char) : List Char :=
  if isUnreserved c then [c]
  else if c = ' ' then ['+']
  else (String.utf8EncodeChar c).flatMap escapeOctet

/-- `URLEncoder.encode(text, "utf8")` -/
def encode (text : List Char) : List Char := text.flatMap encodeChar

theorem hexValue_hexDigit {number : Nat} (digit : number < 16) : hexValue (hexDigit number) = some number := by
  interval_cases number <;> rfl

theorem decodeFrom_escapeOctet (convertPlus : Bool) (octets : List UInt8) (octet : UInt8) (rest : List Char) :
    decodeFrom convertPlus octets (escapeOctet octet ++ rest) = decodeFrom convertPlus (octets ++ [octet]) rest := by
  have bound : octet.toNat < 256 := octet.toNat_lt
  have high := hexValue_hexDigit (show octet.toNat / 16 < 16 by omega)
  have low := hexValue_hexDigit (show octet.toNat % 16 < 16 by omega)
  have whole : 16 * (octet.toNat / 16) + octet.toNat % 16 = octet.toNat := by omega
  change decodeFrom convertPlus octets ('%' :: _ :: _ :: rest) = _
  rw [decodeFrom]
  simp only [high, low, whole, UInt8.ofNat_toNat]

theorem decodeFrom_escapeOctets (convertPlus : Bool) (octets escaped : List UInt8) (rest : List Char) :
    decodeFrom convertPlus octets (escaped.flatMap escapeOctet ++ rest) =
      decodeFrom convertPlus (octets ++ escaped) rest := by
  induction escaped generalizing octets with
  | nil => rw [List.flatMap_nil, List.nil_append, List.append_nil]
  | cons octet escaped inductionHypothesis =>
    rw [List.flatMap_cons, List.append_assoc, decodeFrom_escapeOctet, inductionHypothesis, List.append_assoc]
    rfl

/-- The octets read before an encoded text are those of whole characters, so the two never mix. -/
theorem decodeFrom_encode (collected text : List Char) :
    decodeFrom true (encodeOctets collected) (encode text) = collected ++ text := by
  induction text generalizing collected with
  | nil => rw [List.append_nil]; exact decodeOctets_encodeOctets collected
  | cons c text inductionHypothesis =>
    have encoded : encode (c :: text) = encodeChar c ++ encode text := rfl
    have restart : decodeFrom true [] (encode text) = text := inductionHypothesis []
    rw [encoded, encodeChar]
    split
    next unreserved =>
      have notEscape : c ≠ '%' := by rintro rfl; exact absurd unreserved (by decide)
      have notPlus : c ≠ '+' := by rintro rfl; exact absurd unreserved (by decide)
      rw [List.singleton_append, decodeFrom_cons notEscape, if_neg fun plus => notPlus plus.1,
        decodeOctets_encodeOctets, restart]
    next =>
      split
      next blank =>
        subst blank
        rw [List.singleton_append, decodeFrom_cons (by decide), if_pos ⟨rfl, rfl⟩, decodeOctets_encodeOctets,
          restart]
      next =>
        have joined : encodeOctets collected ++ String.utf8EncodeChar c = encodeOctets (collected ++ [c]) := by
          simp [encodeOctets]
        rw [decodeFrom_escapeOctets, joined, inductionHypothesis, List.append_assoc]
        rfl

/-- Every text survives encoding and decoding. -/
theorem decode_encode (text : List Char) : decode true (encode text) = text := decodeFrom_encode [] text

/-- What `URLEncoder` writes holds no delimiter of a URI. -/
theorem not_mem_encode (delimiter : Char) (reserved : isUnreserved delimiter = false)
    (notWritten : delimiter ≠ '+' ∧ delimiter ≠ '%') (text : List Char) : delimiter ∉ encode text := by
  have notDigit (number : Nat) (digit : number < 16) : delimiter ≠ hexDigit number := by
    rintro rfl
    interval_cases number <;> exact absurd reserved (by decide)
  intro member
  obtain ⟨c, _, member⟩ := List.mem_flatMap.mp member
  rw [encodeChar] at member
  split at member
  next unreserved =>
    obtain rfl := List.mem_singleton.mp member
    rw [unreserved] at reserved
    cases reserved
  next =>
    split at member
    next => exact notWritten.1 (List.mem_singleton.mp member)
    next =>
      obtain ⟨octet, _, member⟩ := List.mem_flatMap.mp member
      have bound : octet.toNat < 256 := octet.toNat_lt
      simp only [escapeOctet, List.mem_cons, List.not_mem_nil, or_false] at member
      obtain same | same | same := member
      · exact notWritten.2 same
      · exact notDigit _ (by omega) same
      · exact notDigit _ (by omega) same

/-- An encoded value reads back as it was. -/
theorem decode_readableValue_encode (text : List Char) : decode true (Uri.readableValue (encode text)) = text := by
  have noFragment := not_mem_encode '#' (by decide) (by decide) text
  have noSeparator := not_mem_encode '&' (by decide) (by decide) text
  rw [(readableValue_eq_self_iff _).mpr ⟨noFragment, noSeparator⟩, decode_encode]

end Aelf.Library.PercentCoding
