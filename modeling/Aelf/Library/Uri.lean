import Mathlib.Data.List.Basic
import Mathlib.Data.List.TakeWhile

/-! # Android URIs

How `android.net.Uri` takes a text apart.  Decoding the escapes of a part is left to a
codec; a part without escapes and plus signs decodes to itself. -/

namespace Aelf.Library

/-- `UriCodec.decode`: whether a plus sign stands for a blank, and the text. -/
class UriCodec where
  decode : Bool → List Char → List Char

namespace Uri

def DecodesEscapesOnly [UriCodec] : Prop :=
  ∀ convertPlus text, '%' ∉ text → '+' ∉ text → UriCodec.decode convertPlus text = text

/-- `UnsupportedOperationException`: an opaque URI has no query. -/
inductive UriError where
  | notHierarchical
deriving DecidableEq, Repr

/-! ## Parts -/

/-- What follows the scheme, if it is hierarchical. -/
def hierarchicalPart (uri : List Char) : Option (List Char) :=
  match uri.dropWhile (· ≠ ':') with
  | [] => some uri
  | _ :: rest => if rest.head? = some '/' then some rest else none

def endsPath (c : Char) : Bool := c = '?' || c = '#'

def endsAuthority (c : Char) : Bool := c = '/' || c = '\\' || endsPath c

def parsePath : List Char → List Char
  | '/' :: '/' :: rest => (rest.dropWhile fun c => !endsAuthority c).takeWhile fun c => !endsPath c
  | rest => rest.takeWhile fun c => !endsPath c

def getPath [UriCodec] (uri : List Char) : Option (List Char) :=
  (hierarchicalPart uri).map fun part => UriCodec.decode false (parsePath part)

def getScheme (uri : List Char) : Option (List Char) :=
  if ':' ∈ uri then some (uri.takeWhile (· ≠ ':')) else none

/-- The text after the colon of the scheme. -/
def afterScheme (uri : List Char) : List Char :=
  match uri.dropWhile (· ≠ ':') with
  | [] => uri
  | _ :: rest => rest

def getEncodedAuthority (uri : List Char) : Option (List Char) :=
  match afterScheme uri with
  | '/' :: '/' :: rest => some (rest.takeWhile fun c => !endsAuthority c)
  | _ => none

/-- An authority without its user information. -/
def dropUserInfo (authority : List Char) : List Char := (authority.reverse.takeWhile (· ≠ '@')).reverse

/-- An authority without its port, a colon with nothing but digits after it. -/
def dropPort (authority : List Char) : List Char :=
  match authority.reverse.dropWhile Char.isDigit with
  | ':' :: host => host.reverse
  | _ => authority

def getHost [UriCodec] (uri : List Char) : Option (List Char) :=
  (getEncodedAuthority uri).map fun authority => UriCodec.decode false (dropPort (dropUserInfo authority))

def getFragment [UriCodec] (uri : List Char) : Option (List Char) :=
  match (afterScheme uri).dropWhile (· ≠ '#') with
  | [] => none
  | _ :: fragment => some (UriCodec.decode false fragment)

/-- The text between the first question mark and the fragment. -/
def getEncodedQuery (part : List Char) : Option (List Char) :=
  match (part.takeWhile (· ≠ '#')).dropWhile (· ≠ '?') with
  | [] => none
  | _ :: query => some query

/-- The value of one `key=value`, if the key is the wanted one. -/
def parameterValue [UriCodec] (key segment : List Char) : Option (List Char) :=
  if segment.takeWhile (· ≠ '=') = key then
    match segment.dropWhile (· ≠ '=') with
    | [] => some []
    | _ :: value => some (UriCodec.decode true value)
  else none

/-- `getQueryParameter`, for a key that is encoded as itself. -/
def getQueryParameter [UriCodec] (uri key : List Char) : Except UriError (Option (List Char)) :=
  match hierarchicalPart uri with
  | none => .error .notHierarchical
  | some part => .ok ((getEncodedQuery part).bind fun query => (query.splitOn '&').findSome? (parameterValue key))

/-! ## Links with one parameter -/

section Link

variable {scheme authority path key value : List Char}

/-- A link with an authority, a path and one parameter. -/
def link (scheme authority path key value : List Char) : List Char :=
  scheme ++ ':' :: '/' :: '/' :: (authority ++ (path ++ '?' :: (key ++ '=' :: value)))

theorem dropWhile_ne {c : Char} {before rest : List Char} (absent : c ∉ before) :
    (before ++ c :: rest).dropWhile (· ≠ c) = c :: rest := by
  rw [List.dropWhile_append_of_pos fun other member => by
    simpa using fun same : other = c => absent (same ▸ member)]
  simp

theorem takeWhile_ne {c : Char} {before rest : List Char} (absent : c ∉ before) :
    (before ++ c :: rest).takeWhile (· ≠ c) = before := by
  rw [List.takeWhile_append_of_pos fun other member => by
    simpa using fun same : other = c => absent (same ▸ member)]
  simp

theorem hierarchicalPart_link (noColon : ':' ∉ scheme) :
    hierarchicalPart (link scheme authority path key value) =
      some ('/' :: '/' :: (authority ++ (path ++ '?' :: (key ++ '=' :: value)))) := by
  rw [hierarchicalPart, link, dropWhile_ne noColon]
  rfl

theorem getPath_link [UriCodec] (escapesOnly : DecodesEscapesOnly) (noColon : ':' ∉ scheme)
    (inAuthority : ∀ c ∈ authority, endsAuthority c = false) (absolute : path.head? = some '/')
    (inPath : ∀ c ∈ path, endsPath c = false) (noEscape : '%' ∉ path) (noPlus : '+' ∉ path) :
    getPath (link scheme authority path key value) = some path := by
  have parsed : parsePath ('/' :: '/' :: (authority ++ (path ++ '?' :: (key ++ '=' :: value)))) = path := by
    rw [parsePath, List.dropWhile_append_of_pos fun c member => by simp [inAuthority c member]]
    have starts : (path ++ '?' :: (key ++ '=' :: value)).dropWhile (fun c => !endsAuthority c) =
        path ++ '?' :: (key ++ '=' :: value) := by
      cases path with
      | nil => cases absolute
      | cons c rest =>
        obtain rfl := Option.some.inj absolute
        rfl
    rw [starts, List.takeWhile_append_of_pos fun c member => by simp [inPath c member]]
    simp [endsPath]
  rw [getPath, hierarchicalPart_link noColon, Option.map_some, parsed, escapesOnly false path noEscape noPlus]

/-- The query of a link goes up to the first number sign of the value. -/
theorem getEncodedQuery_link (inAuthority : ∀ c ∈ authority, endsAuthority c = false)
    (inPath : ∀ c ∈ path, endsPath c = false) (noFragment : '#' ∉ key) :
    getEncodedQuery ('/' :: '/' :: (authority ++ (path ++ '?' :: (key ++ '=' :: value)))) =
      some (key ++ '=' :: value.takeWhile (· ≠ '#')) := by
  -- neither the query nor a fragment starts before the question mark of the link
  have before : ∀ c ∈ '/' :: '/' :: (authority ++ path), c ≠ '?' ∧ c ≠ '#' := by
    intro c member
    have notEnd : endsPath c = false := by
      simp only [List.mem_cons, List.mem_append] at member
      obtain rfl | rfl | member | member := member
      · rfl
      · rfl
      · exact (Bool.or_eq_false_iff.mp (inAuthority c member)).2
      · exact inPath c member
    simpa [endsPath] using notEnd
  have shape : '/' :: '/' :: (authority ++ (path ++ '?' :: (key ++ '=' :: value))) =
      ('/' :: '/' :: (authority ++ path) ++ '?' :: (key ++ ['='])) ++ value := by
    simp
  have whole : ('/' :: '/' :: (authority ++ path) ++ '?' :: (key ++ ['=']) ++ value).takeWhile (· ≠ '#') =
      '/' :: '/' :: (authority ++ path) ++ '?' :: (key ++ '=' :: value.takeWhile (· ≠ '#')) := by
    rw [List.takeWhile_append_of_pos]
    · simp
    · intro c member
      cases List.mem_append.mp member with
      | inl member => simpa using (before c member).2
      | inr member =>
        simp only [List.mem_cons, List.mem_append, List.not_mem_nil, or_false] at member
        obtain rfl | member | rfl := member
        · decide
        · simpa using fun same : c = '#' => noFragment (same ▸ member)
        · decide
  rw [getEncodedQuery, shape, whole, dropWhile_ne fun member => (before '?' member).1 rfl]

theorem splitOn_first (c : Char) (text : List Char) :
    ∃ others, text.splitOn c = text.takeWhile (· ≠ c) :: others := by
  by_cases member : c ∈ text
  · obtain ⟨before, after, rfl, absent⟩ := List.eq_append_cons_of_mem member
    exact ⟨after.splitOn c, by rw [List.splitOn_append_cons_self_of_not_mem absent, takeWhile_ne absent]⟩
  · refine ⟨[], ?_⟩
    rw [List.splitOn_eq_singleton member, List.takeWhile_eq_self_iff.mpr]
    intro other inside
    simpa using fun same : other = c => member (same ▸ inside)

theorem takeWhile_absent {c : Char} {text : List Char} (absent : c ∉ text) : text.takeWhile (· ≠ c) = text := by
  rw [List.takeWhile_eq_self_iff]
  intro other member
  simpa using fun same : other = c => absent (same ▸ member)

/-- The part of a written value that is read back. -/
def readableValue (value : List Char) : List Char := (value.takeWhile (· ≠ '#')).takeWhile (· ≠ '&')

theorem parameterValue_self [UriCodec] (noEquals : '=' ∉ key) (value : List Char) :
    parameterValue key (key ++ '=' :: value) = some (UriCodec.decode true value) := by
  rw [parameterValue, takeWhile_ne noEquals, if_pos rfl, dropWhile_ne noEquals]

theorem parameterValue_other [UriCodec] {wanted : List Char} (noEquals : '=' ∉ key) (different : wanted ≠ key)
    (value : List Char) : parameterValue wanted (key ++ '=' :: value) = none := by
  rw [parameterValue, takeWhile_ne noEquals, if_neg (Ne.symm different)]

/-- The characters that a key may not hold. -/
def PlainKey (key : List Char) : Prop := '=' ∉ key ∧ '&' ∉ key ∧ '#' ∉ key

instance (key : List Char) : Decidable (PlainKey key) := inferInstanceAs (Decidable (_ ∧ _))

theorem takeWhile_parameter (noSeparator : '&' ∉ key) (value : List Char) :
    (key ++ '=' :: value).takeWhile (· ≠ '&') = key ++ '=' :: value.takeWhile (· ≠ '&') := by
  rw [List.takeWhile_append_of_pos fun c member => by
    simpa using fun same : c = '&' => noSeparator (same ▸ member)]
  simp

/-- The first parameter is read up to the next delimiter. -/
theorem getQueryParameter_first [UriCodec] (noColon : ':' ∉ scheme)
    (inAuthority : ∀ c ∈ authority, endsAuthority c = false) (inPath : ∀ c ∈ path, endsPath c = false)
    (plainKey : PlainKey key) :
    getQueryParameter (link scheme authority path key value) key =
      .ok (some (UriCodec.decode true (readableValue value))) := by
  obtain ⟨others, parts⟩ := splitOn_first '&' (key ++ '=' :: value.takeWhile (· ≠ '#'))
  rw [takeWhile_parameter plainKey.2.1] at parts
  rw [getQueryParameter, hierarchicalPart_link noColon]
  simp only [getEncodedQuery_link inAuthority inPath plainKey.2.2, Option.bind_some, parts, List.findSome?_cons,
    parameterValue_self plainKey.1]
  rfl

/-- A second parameter is read when the first one holds no delimiter. -/
theorem getQueryParameter_second [UriCodec] {second secondValue : List Char} (noColon : ':' ∉ scheme)
    (inAuthority : ∀ c ∈ authority, endsAuthority c = false) (inPath : ∀ c ∈ path, endsPath c = false)
    (plainKey : PlainKey key) (plainSecond : PlainKey second) (different : second ≠ key)
    (noSeparator : '&' ∉ value) (noFragment : '#' ∉ value) :
    getQueryParameter (link scheme authority path key (value ++ '&' :: (second ++ '=' :: secondValue))) second =
      .ok (some (UriCodec.decode true (readableValue secondValue))) := by
  have query : (value ++ '&' :: (second ++ '=' :: secondValue)).takeWhile (· ≠ '#') =
      value ++ '&' :: (second ++ '=' :: secondValue.takeWhile (· ≠ '#')) := by
    have shape : value ++ '&' :: (second ++ '=' :: secondValue) =
        (value ++ '&' :: (second ++ ['='])) ++ secondValue := by simp
    have inside : '#' ∉ value ++ '&' :: (second ++ ['=']) := by
      simp [noFragment, plainSecond.2.2]
    rw [shape, List.takeWhile_append_of_pos fun c member => by
      simpa using fun same : c = '#' => inside (same ▸ member)]
    simp
  have first : '&' ∉ key ++ '=' :: value := by
    simp [plainKey.2.1, noSeparator]
  have regrouped : key ++ '=' :: (value ++ '&' :: (second ++ '=' :: secondValue.takeWhile (· ≠ '#'))) =
      (key ++ '=' :: value) ++ '&' :: (second ++ '=' :: secondValue.takeWhile (· ≠ '#')) := by
    simp
  obtain ⟨others, parts⟩ := splitOn_first '&' (second ++ '=' :: secondValue.takeWhile (· ≠ '#'))
  rw [takeWhile_parameter plainSecond.2.1] at parts
  rw [getQueryParameter, hierarchicalPart_link noColon]
  simp only [getEncodedQuery_link inAuthority inPath plainKey.2.2, query, Option.bind_some]
  rw [regrouped, List.splitOn_append_cons_self_of_not_mem first, parts]
  simp only [List.findSome?_cons, parameterValue_other plainKey.1 different, parameterValue_self plainSecond.1]
  rfl

theorem getQueryParameter_link [UriCodec] (escapesOnly : DecodesEscapesOnly) (noColon : ':' ∉ scheme)
    (inAuthority : ∀ c ∈ authority, endsAuthority c = false) (inPath : ∀ c ∈ path, endsPath c = false)
    (noFragment : '#' ∉ key ++ '=' :: value) (onlyOne : '&' ∉ key ++ '=' :: value) (noEquals : '=' ∉ key)
    (noEscape : '%' ∉ value) (noPlus : '+' ∉ value) (wanted : List Char) :
    getQueryParameter (link scheme authority path key value) wanted =
      .ok (if wanted = key then some value else none) := by
  simp only [List.mem_append, List.mem_cons, not_or] at noFragment
  have found : parameterValue wanted (key ++ '=' :: value) = if wanted = key then some value else none := by
    split
    next same => rw [same, parameterValue_self noEquals, escapesOnly true value noEscape noPlus]
    next different => exact parameterValue_other noEquals different value
  rw [getQueryParameter, hierarchicalPart_link noColon]
  simp only [getEncodedQuery_link inAuthority inPath noFragment.1, takeWhile_absent noFragment.2.2, Option.bind_some,
    List.splitOn_eq_singleton onlyOne, List.findSome?_cons, List.findSome?_nil, found]
  by_cases same : wanted = key <;> simp [same]

end Link

/-! ## Pages with a fragment -/

section Page

variable {scheme authority path : List Char} {fragment : Option (List Char)}

def fragmentSuffix : Option (List Char) → List Char
  | none => []
  | some fragment => '#' :: fragment

/-- The address of a page, without parameters. -/
def page (scheme authority path : List Char) (fragment : Option (List Char)) : List Char :=
  scheme ++ ':' :: '/' :: '/' :: (authority ++ (path ++ fragmentSuffix fragment))

theorem fragmentSuffix_ends (fragment : Option (List Char)) :
    (fragmentSuffix fragment).takeWhile (fun c => !endsPath c) = [] := by
  cases fragment <;> rfl

theorem afterScheme_page (noColon : ':' ∉ scheme) :
    afterScheme (page scheme authority path fragment) =
      '/' :: '/' :: (authority ++ (path ++ fragmentSuffix fragment)) := by
  rw [afterScheme, page, dropWhile_ne noColon]

/-- The authority ends where the path starts. -/
theorem dropWhile_authority (inAuthority : ∀ c ∈ authority, endsAuthority c = false) (rest : List Char) :
    (authority ++ '/' :: rest).dropWhile (fun c => !endsAuthority c) = '/' :: rest := by
  rw [List.dropWhile_append_of_pos fun c member => by simp [inAuthority c member]]
  rfl

theorem takeWhile_authority (inAuthority : ∀ c ∈ authority, endsAuthority c = false) (rest : List Char) :
    (authority ++ '/' :: rest).takeWhile (fun c => !endsAuthority c) = authority := by
  rw [List.takeWhile_append_of_pos fun c member => by simp [inAuthority c member]]
  simp [endsAuthority]

theorem getHost_page [UriCodec] (noColon : ':' ∉ scheme) (inAuthority : ∀ c ∈ authority, endsAuthority c = false) :
    getHost (page scheme authority ('/' :: path) fragment) =
      some (UriCodec.decode false (dropPort (dropUserInfo authority))) := by
  rw [getHost, getEncodedAuthority, afterScheme_page noColon, List.cons_append]
  simp only [takeWhile_authority inAuthority, Option.map_some]

theorem getPath_page [UriCodec] (noColon : ':' ∉ scheme) (inAuthority : ∀ c ∈ authority, endsAuthority c = false)
    (inPath : ∀ c ∈ path, endsPath c = false) :
    getPath (page scheme authority ('/' :: path) fragment) = some (UriCodec.decode false ('/' :: path)) := by
  have hierarchical : hierarchicalPart (page scheme authority ('/' :: path) fragment) =
      some ('/' :: '/' :: (authority ++ ('/' :: path ++ fragmentSuffix fragment))) := by
    rw [hierarchicalPart, page, dropWhile_ne noColon]
    rfl
  have slash : endsPath '/' = false := rfl
  have inside : ∀ c ∈ '/' :: path, endsPath c = false := List.forall_mem_cons.mpr ⟨slash, inPath⟩
  rw [getPath, hierarchical, Option.map_some, parsePath, List.cons_append, dropWhile_authority inAuthority,
    ← List.cons_append, List.takeWhile_append_of_pos fun c member => by simp [inside c member],
    fragmentSuffix_ends, List.append_nil]

theorem getFragment_page [UriCodec] (noColon : ':' ∉ scheme)
    (inAuthority : ∀ c ∈ authority, endsAuthority c = false) (inPath : ∀ c ∈ path, endsPath c = false) :
    getFragment (page scheme authority ('/' :: path) fragment) = fragment.map (UriCodec.decode false) := by
  have before : '#' ∉ '/' :: '/' :: (authority ++ '/' :: path) := by
    intro member
    simp only [List.mem_cons, List.mem_append] at member
    obtain same | same | member | same | member := member
    · exact absurd same (by decide)
    · exact absurd same (by decide)
    · exact absurd (inAuthority '#' member) (by decide)
    · exact absurd same (by decide)
    · exact absurd (inPath '#' member) (by decide)
  have shape : '/' :: '/' :: (authority ++ ('/' :: path ++ fragmentSuffix fragment)) =
      '/' :: '/' :: (authority ++ '/' :: path) ++ fragmentSuffix fragment := by
    simp
  rw [getFragment, afterScheme_page noColon, shape]
  cases fragment with
  | none =>
    rw [fragmentSuffix, List.append_nil, List.dropWhile_eq_nil_iff.mpr fun c member => by
      simpa using fun same : c = '#' => before (same ▸ member)]
    rfl
  | some fragment =>
    rw [fragmentSuffix, dropWhile_ne before]
    rfl

end Page

end Uri

end Aelf.Library
