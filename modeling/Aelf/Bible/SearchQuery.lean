import Aelf.Bible.SearchLinks
import Aelf.Library.SqlText
import Aelf.Library.CompoundSelect

/-! # The statements of the Bible search

`search` cuts what the reader has typed into tokens and concatenates a statement from it.
The fast statement looks for the whole text, or for all the tokens.  When it finds nothing,
the slow one adds a variant for each token that leaves this token out.  The text that comes
from the reader is kept apart from the text of the program until the statement is written. -/

namespace Aelf.Bible.SearchQuery

open Aelf.Library
open Aelf.Library.SqlText

/-! ## Tokens -/

/-- What the search takes from the Java runtime. -/
structure Runtime where
  toLowerCase : Text → Text
  /-- The canonical decomposition, `NFD`. -/
  normalize : Text → Text
  /-- How a quotient of two numbers is printed, as a `double`. -/
  quotient : Nat → Nat → Text
  toLowerCase_nil : toLowerCase [] = []
  normalize_nil : normalize [] = []
  quotient_plain : ∀ dividend divisor, quote ∉ quotient dividend divisor

/-- The runtime as far as ASCII text and quotients with one decimal go. -/
def asciiRuntime : Runtime where
  toLowerCase text := text.map Char.toLower
  normalize text := text
  quotient dividend divisor := '0' :: '.' :: Nat.toDigits 10 (dividend * 10 / divisor)
  toLowerCase_nil := rfl
  normalize_nil := rfl
  quotient_plain dividend divisor := by
    intro member
    obtain zero | dot | digit := List.mem_cons.mp member |>.imp_right List.mem_cons.mp
    · cases zero
    · cases dot
    · cases Nat.isDigit_of_mem_toDigits (by decide) (by decide) digit

/-- What `\s` matches. -/
def isSpace (c : Char) : Bool :=
  c = ' ' || c = '\t' || c = '\n' || c = Char.ofNat 0x0B || c = Char.ofNat 0x0C || c = '\r'

/-- The pieces of a text between its runs of spaces, with the piece that is being read. -/
def pieces : Bool → Text → Text → List Text
  | _, piece, [] => [piece]
  | afterSpace, piece, c :: text =>
    if isSpace c then if afterSpace then pieces true piece text else piece :: pieces true [] text
    else pieces false (piece ++ [c]) text

/-- `split` drops the empty pieces at the end, and keeps a text without a space as it is. -/
def split (text : Text) : List Text :=
  if text.any isSpace then ((pieces false [] text).reverse.dropWhile List.isEmpty).reverse else [text]

def tokenIgnore : List Text :=
  ["mais", "ou", "et", "donc", "or", "ni", "car",
    "qu", "que", "si", "alors", "tandis",
    "le", "la", "les", "un", "une", "du", "de", "la",
    "ce", "cet", "cette", "ces",
    "ma", "ta", "sa",
    "mon", "ton", "son", "notre", "votre", "leur",
    "nos", "tes", "ses", "nos", "vos", "leurs",
    "quel", "quelle", "quelles", "quoi"].map String.toList

def isKept (c : Char) : Bool := 'a' ≤ c && c ≤ 'z' || c.isDigit || c = '*' || c = ' '

def shouldIgnore (runtime : Runtime) (token : Text) : Bool :=
  let token := (runtime.normalize (runtime.toLowerCase token)).filter isKept
  if token.length ≤ 1 then true else tokenIgnore.contains token

/-- The characters that join words become spaces. -/
def separated (search : Text) : Text := search.map fun c => if c = '-' ∨ c = quote then ' ' else c

/-- The tokens of a search. -/
def tokensOf (runtime : Runtime) (search : Text) : List Text :=
  (split search).filter fun token => !shouldIgnore runtime token

/-! ## Statements -/

def number (n : Nat) : Text := Nat.toDigits 10 n

def bibleOrder : Text := chars " ORDER BY CAST(book_id as INTEGER),CAST(chapter AS INTEGER)"

def relevanceOrder : Text := chars " ORDER BY rank LIMIT 50"

def orderByLimit : SearchSort → Text
  | .bible => bibleOrder
  | .relevance => relevanceOrder

/-- Text of the program. -/
def sql (text : String) : Fragment := .fixed (chars text)

/-- Tokens with a separator between them. -/
def join (separator : Text) : List Text → List Fragment
  | [] => []
  | [token] => [.foreign token]
  | token :: tokens => .foreign token :: .fixed separator :: join separator tokens

/-- The whole text as a string. -/
def phrase (search : Text) : List Fragment := [sql "\"", .foreign search, sql "\""]

/-- The tokens near each other, or all of them. -/
def allTerms (tokens : List Text) : List Fragment :=
  [sql " OR ", sql " NEAR(\""] ++ join (chars "\" \"") tokens ++
    [sql "\", ", .fixed (number (tokens.length * 2)), sql " ) OR "] ++ join (chars " ") tokens

def fastMatch (search : Text) (tokens : List Text) : List Fragment :=
  phrase search ++ if tokens.isEmpty then [] else allTerms tokens

def selected : Text :=
  chars " SELECT book, chapter, title, rank, '' AS skipped, snippet(search, -1, '<b>', '</b>', '...', 32) AS snippet"

def fromSearch : Text := chars " FROM search"

def whereMatch : Text := chars " WHERE text MATCH '"

def searchFast (search : Text) (tokens : List Text) (sort : SearchSort) : List Fragment :=
  [.fixed selected, .fixed fromSearch, .fixed whereMatch] ++ fastMatch search tokens ++
    [.fixed [quote], .fixed (orderByLimit sort), sql ";"]

/-- The statement is extended for each token but the one that is skipped. -/
def others (tokens : List Text) (skipped : Nat) (extension : Text → List Fragment) : List Fragment :=
  tokens.zipIdx.flatMap fun (token, index) => if skipped = index then [] else extension token

def variantMatch (tokens : List Text) (skipped : Nat) : List Fragment :=
  sql " NEAR(" ::
    others tokens skipped (fun token => [sql "\"", .foreign token, sql "\" "]) ++
    [sql ", ", .fixed (number ((tokens.length - 1) * 2)), sql " ) OR "] ++
    others tokens skipped fun token => [sql " ", .foreign token]

def rankScaling (runtime : Runtime) (tokens : List Text) : Text := runtime.quotient (tokens.length - 1) tokens.length

def snippetAs : Text := chars "' AS skipped, snippet(search, -1, '<b>', '</b>', '...', 32) AS snippet"

/-- The arm that leaves one token out, and says which. -/
def variant (runtime : Runtime) (tokens : List Text) (token : Text) (skipped : Nat) : List Fragment :=
  [sql " UNION", sql " SELECT book, chapter, title, rank * ", .fixed (rankScaling runtime tokens),
    sql ", '", .foreign (token.filter (· ≠ '*')), .fixed snippetAs, .fixed fromSearch, .fixed whereMatch] ++
    variantMatch tokens skipped ++ [.fixed [quote]]

def searchSlow (runtime : Runtime) (search : Text) (tokens : List Text) (sort : SearchSort) : List Fragment :=
  [sql "SELECT * FROM (", .fixed selected, .fixed fromSearch, .fixed whereMatch] ++
    (phrase search ++ allTerms tokens) ++ [.fixed [quote]] ++
    (tokens.zipIdx.flatMap fun (token, skipped) => variant runtime tokens token skipped) ++
    [.fixed (orderByLimit sort), sql ")", .fixed (orderByLimit sort), sql ";"]

/-! ## What the reader has typed holds no quote -/

theorem quote_not_mem_separated (search : Text) : quote ∉ separated search := by
  intro member
  obtain ⟨c, -, same⟩ := List.mem_map.mp member
  split at same
  case isTrue => cases same
  case isFalse different => exact different (.inr same)

theorem mem_pieces {afterSpace : Bool} {piece text token : Text} {c : Char}
    (isPiece : token ∈ pieces afterSpace piece text) (member : c ∈ token) :
    c ∈ piece ∨ c ∈ text ∧ isSpace c = false := by
  induction text generalizing afterSpace piece with
  | nil =>
    rw [pieces, List.mem_singleton] at isPiece
    exact .inl (isPiece ▸ member)
  | cons next text inductionHypothesis =>
    rw [pieces] at isPiece
    split at isPiece
    case isTrue space =>
      split at isPiece
      case isTrue =>
        obtain before | ⟨later, plain⟩ := inductionHypothesis isPiece
        · exact .inl before
        · exact .inr ⟨List.mem_cons_of_mem next later, plain⟩
      case isFalse =>
        obtain rfl | isLater := List.mem_cons.mp isPiece
        · exact .inl member
        · obtain before | ⟨later, plain⟩ := inductionHypothesis isLater
          · cases before
          · exact .inr ⟨List.mem_cons_of_mem next later, plain⟩
    case isFalse plainNext =>
      obtain before | ⟨later, plain⟩ := inductionHypothesis isPiece
      · obtain before | here := List.mem_append.mp before
        · exact .inl before
        · rw [List.mem_singleton] at here
          subst here
          exact .inr ⟨by simp, by simpa using plainNext⟩
      · exact .inr ⟨List.mem_cons_of_mem next later, plain⟩

theorem mem_split {text token : Text} {c : Char} (isPiece : token ∈ split text) (member : c ∈ token) :
    c ∈ text ∧ isSpace c = false := by
  unfold split at isPiece
  split at isPiece
  case isTrue =>
    have kept := (List.dropWhile_suffix List.isEmpty).subset (List.mem_reverse.mp isPiece)
    obtain absurdPiece | found := mem_pieces (List.mem_reverse.mp kept) member
    · cases absurdPiece
    · exact found
  case isFalse noSpace =>
    rw [List.mem_singleton] at isPiece
    subst isPiece
    simp only [List.any_eq_true, not_exists, not_and, Bool.not_eq_true] at noSpace
    exact ⟨member, noSpace c member⟩

theorem mem_tokensOf {runtime : Runtime} {search token : Text} {c : Char} (isToken : token ∈ tokensOf runtime search)
    (member : c ∈ token) : c ∈ search ∧ isSpace c = false :=
  mem_split (List.mem_filter.mp isToken).1 member

theorem quote_not_mem_token {runtime : Runtime} {search token : Text}
    (isToken : token ∈ tokensOf runtime (separated search)) : quote ∉ token :=
  fun member => quote_not_mem_separated search (mem_tokensOf isToken member).1

/-! ## Literals of the statements -/

section PlainTokens

variable {tokens : List Text} (plain : ∀ token ∈ tokens, quote ∉ token)

include plain

theorem plain_join {separator : Text} (plainSeparator : quote ∉ separator) : SqlText.Plain (join separator tokens) := by
  induction tokens with
  | nil => intro fragment member; cases member
  | cons token tokens inductionHypothesis =>
    cases tokens with
    | nil => simpa [SqlText.Plain, join, Fragment.text] using plain
    | cons second tokens =>
      have later := inductionHypothesis fun other member => plain other (by simp [member])
      have here : quote ∉ token := plain token (by simp)
      intro fragment member
      simp only [join, List.mem_cons] at member
      obtain rfl | rfl | rest := member
      · exact here
      · exact plainSeparator
      · exact later fragment (by simpa [join] using rest)

theorem plain_others {skipped : Nat} {extension : Text → List Fragment}
    (plainExtension : ∀ token, quote ∉ token → SqlText.Plain (extension token)) :
    SqlText.Plain (others tokens skipped extension) := by
  intro fragment member
  obtain ⟨⟨token, index⟩, isToken, inExtension⟩ := List.mem_flatMap.mp member
  have isToken := List.fst_mem_of_mem_zipIdx isToken
  by_cases skip : skipped = index
  · simp [skip] at inExtension
  · simp only [skip, ↓reduceIte] at inExtension
    exact plainExtension token (plain token isToken) fragment inExtension

end PlainTokens

theorem quote_not_mem_number (n : Nat) : quote ∉ number n := by
  intro member
  have digit := Nat.isDigit_of_mem_toDigits (by decide) (by decide) member
  cases digit

theorem plain_phrase {search : Text} (plain : quote ∉ search) : SqlText.Plain (phrase search) := by
  simpa [SqlText.Plain, phrase, sql, Fragment.text, chars, quote] using plain

/-! ### Places of the fixed texts -/

theorem after_selected : SqlText.Place.outside.after selected = .outside := by
  delta selected
  rw [chars_ofList]
  rfl

theorem after_fromSearch : SqlText.Place.outside.after fromSearch = .outside := by
  delta fromSearch
  rw [chars_ofList]
  rfl

theorem after_whereMatch : SqlText.Place.outside.after whereMatch = .inside := by
  delta whereMatch
  rw [chars_ofList]
  rfl

theorem after_snippetAs : SqlText.Place.inside.after snippetAs = .outside := by
  delta snippetAs
  rw [chars_ofList]
  rfl

theorem after_orderByLimit (sort : SearchSort) : SqlText.Place.closing.after (orderByLimit sort) = .outside := by
  cases sort with
  | bible =>
    change SqlText.Place.closing.after bibleOrder = .outside
    delta bibleOrder
    rw [chars_ofList]
    rfl
  | relevance =>
    change SqlText.Place.closing.after relevanceOrder = .outside
    delta relevanceOrder
    rw [chars_ofList]
    rfl

theorem after_orderByLimit_outside (sort : SearchSort) : SqlText.Place.outside.after (orderByLimit sort) = .outside := by
  cases sort with
  | bible =>
    change SqlText.Place.outside.after bibleOrder = .outside
    delta bibleOrder
    rw [chars_ofList]
    rfl
  | relevance =>
    change SqlText.Place.outside.after relevanceOrder = .outside
    delta relevanceOrder
    rw [chars_ofList]
    rfl

theorem leads_sql {text : String} {place middle reached : SqlText.Place} {fragments : List Fragment}
    (moves : place.after (chars text) = middle) (rest : Leads middle fragments reached) :
    Leads place (sql text :: fragments) reached :=
  rest.fixed moves

/-! ### Pieces of the statements -/

section Confinement

variable {search : Text} {tokens : List Text} (plainSearch : quote ∉ search) (plain : ∀ token ∈ tokens, quote ∉ token)

include plain

theorem plain_allTerms : SqlText.Plain (allTerms tokens) := by
  have strings : SqlText.Plain (join (chars "\" \"") tokens) := plain_join plain (by simp [chars, quote])
  have words : SqlText.Plain (join (chars " ") tokens) := plain_join plain (by simp [chars, quote])
  have opening : SqlText.Plain [sql " OR ", sql " NEAR(\""] := by simp [SqlText.Plain, sql, Fragment.text, chars, quote]
  have distance : SqlText.Plain [sql "\", ", .fixed (number (tokens.length * 2)), sql " ) OR "] := by
    have digits := quote_not_mem_number (tokens.length * 2)
    simp [SqlText.Plain, sql, Fragment.text, chars, quote] at digits ⊢
    exact digits
  exact SqlText.plain_append (SqlText.plain_append (SqlText.plain_append opening strings) distance) words

theorem plain_variantMatch (skipped : Nat) : SqlText.Plain (variantMatch tokens skipped) := by
  have strings : SqlText.Plain (others tokens skipped fun token => [sql "\"", .foreign token, sql "\" "]) := by
    apply plain_others plain
    intro token plainToken
    simpa [SqlText.Plain, sql, Fragment.text, chars, quote] using plainToken
  have words : SqlText.Plain (others tokens skipped fun token => [sql " ", .foreign token]) := by
    apply plain_others plain
    intro token plainToken
    simpa [SqlText.Plain, sql, Fragment.text, chars, quote] using plainToken
  have opening : SqlText.Plain [sql " NEAR("] := by simp [SqlText.Plain, sql, Fragment.text, chars, quote]
  have distance : SqlText.Plain [sql ", ", .fixed (number ((tokens.length - 1) * 2)), sql " ) OR "] := by
    have digits := quote_not_mem_number ((tokens.length - 1) * 2)
    simp [SqlText.Plain, sql, Fragment.text, chars, quote] at digits ⊢
    exact digits
  exact SqlText.plain_append (SqlText.plain_append (SqlText.plain_append opening strings) distance) words

theorem leads_variant (runtime : Runtime) {token : Text} (plainToken : quote ∉ token) (skipped : Nat) :
    Leads .closing (variant runtime tokens token skipped) .closing := by
  have scaling := runtime.quotient_plain (tokens.length - 1) tokens.length
  have stripped : quote ∉ token.filter (· ≠ '*') := fun member => plainToken (List.mem_of_mem_filter member)
  have header : Leads .closing [sql " UNION", sql " SELECT book, chapter, title, rank * ",
      .fixed (rankScaling runtime tokens), sql ", '", .foreign (token.filter (· ≠ '*')), .fixed snippetAs,
      .fixed fromSearch, .fixed whereMatch] .inside := by
    have union : SqlText.Place.closing.after (chars " UNION") = .outside := by rw [chars_ofList]; rfl
    have columns : SqlText.Place.outside.after (chars " SELECT book, chapter, title, rank * ") = .outside := by
      rw [chars_ofList]
      rfl
    have opened : SqlText.Place.outside.after (chars ", '") = .inside := by rw [chars_ofList]; rfl
    apply leads_sql union
    apply leads_sql columns
    apply Leads.fixed (after_outside scaling)
    apply leads_sql opened
    apply Leads.foreign stripped
    apply Leads.fixed after_snippetAs
    apply Leads.fixed after_fromSearch
    exact Leads.fixed after_whereMatch (leads_nil _)
  have closed : Leads .inside [.fixed [quote]] .closing := Leads.fixed rfl (leads_nil _)
  exact (header.append (plain_variantMatch plain skipped).leads).append closed

include plainSearch

theorem leads_searchFast (sort : SearchSort) : Leads .outside (searchFast search tokens sort) .outside := by
  have header : Leads .outside [.fixed selected, .fixed fromSearch, .fixed whereMatch] .inside :=
    Leads.fixed after_selected (Leads.fixed after_fromSearch (Leads.fixed after_whereMatch (leads_nil _)))
  have terms : SqlText.Plain (fastMatch search tokens) := by
    apply SqlText.plain_append (plain_phrase plainSearch)
    split
    · intro fragment member
      cases member
    · exact plain_allTerms plain
  have trailer : Leads .inside [.fixed [quote], .fixed (orderByLimit sort), sql ";"] .outside := by
    have closed : SqlText.Place.inside.after [quote] = .closing := rfl
    apply Leads.fixed closed
    apply Leads.fixed (after_orderByLimit sort)
    exact Leads.fixed (by rw [chars_ofList]; rfl) (leads_nil _)
  exact (header.append terms.leads).append trailer

theorem leads_searchSlow (runtime : Runtime) (sort : SearchSort) :
    Leads .outside (searchSlow runtime search tokens sort) .outside := by
  have header : Leads .outside [sql "SELECT * FROM (", .fixed selected, .fixed fromSearch, .fixed whereMatch] .inside := by
    have opened : SqlText.Place.outside.after (chars "SELECT * FROM (") = .outside := by rw [chars_ofList]; rfl
    apply leads_sql opened
    exact Leads.fixed after_selected (Leads.fixed after_fromSearch (Leads.fixed after_whereMatch (leads_nil _)))
  have terms : SqlText.Plain (phrase search ++ allTerms tokens) :=
    SqlText.plain_append (plain_phrase plainSearch) (plain_allTerms plain)
  have closed : Leads .inside [.fixed [quote]] .closing := Leads.fixed rfl (leads_nil _)
  have variants : Leads .closing
      (tokens.zipIdx.flatMap fun (token, skipped) => variant runtime tokens token skipped) .closing := by
    apply Leads.flatMap
    rintro ⟨token, skipped⟩ isToken
    exact leads_variant plain runtime (plain token (List.fst_mem_of_mem_zipIdx isToken)) skipped
  have trailer : Leads .closing [.fixed (orderByLimit sort), sql ")", .fixed (orderByLimit sort), sql ";"] .outside := by
    apply Leads.fixed (after_orderByLimit sort)
    have closed : SqlText.Place.outside.after (chars ")") = .outside := by rw [chars_ofList]; rfl
    apply leads_sql closed
    apply Leads.fixed (after_orderByLimit_outside sort)
    exact Leads.fixed (by rw [chars_ofList]; rfl) (leads_nil _)
  exact (((header.append terms.leads).append closed).append variants).append trailer

end Confinement

/-! ## What is outside the literals -/

/-- Two lists of as many tokens, none of which holds a quote. -/
def Paired (tokens others : List Text) : Prop := List.Forall₂ (fun token other => quote ∉ token ∧ quote ∉ other) tokens others

theorem paired_of_length {tokens others : List Text} (plain : ∀ token ∈ tokens, quote ∉ token)
    (otherPlain : ∀ token ∈ others, quote ∉ token) (sameLength : tokens.length = others.length) :
    Paired tokens others := by
  induction tokens generalizing others with
  | nil =>
    cases others with
    | nil => exact .nil
    | cons other others => cases sameLength
  | cons token tokens inductionHypothesis =>
    cases others with
    | nil => cases sameLength
    | cons other others =>
      have here := And.intro (plain token (by simp)) (otherPlain other (by simp))
      have plainLater : ∀ text ∈ others, quote ∉ text := fun text member => otherPlain text (by simp [member])
      have later := inductionHypothesis (fun text member => plain text (by simp [member])) plainLater
        (by simpa using sameLength)
      exact .cons here later

theorem Paired.length_eq {tokens others : List Text} (paired : Paired tokens others) :
    tokens.length = others.length := List.Forall₂.length_eq paired

theorem Paired.alike_join {tokens others : List Text} (paired : Paired tokens others) (separator : Text) :
    Alike (join separator tokens) (join separator others) := by
  induction paired with
  | nil => exact alike_nil
  | cons here rest inductionHypothesis =>
    cases rest with
    | nil => exact alike_nil.foreign here.1 here.2
    | cons second rest => exact (inductionHypothesis.fixed separator).foreign here.1 here.2

theorem Paired.alike_zipIdx {tokens others : List Text} (paired : Paired tokens others)
    {pieces otherPieces : Text × Nat → List Fragment}
    (each : ∀ token other index, quote ∉ token → quote ∉ other → Alike (pieces (token, index)) (otherPieces (other, index)))
    (start : Nat) : Alike ((tokens.zipIdx start).flatMap pieces) ((others.zipIdx start).flatMap otherPieces) := by
  induction paired generalizing start with
  | nil => exact alike_nil
  | cons here rest inductionHypothesis =>
    rw [List.zipIdx_cons, List.zipIdx_cons, List.flatMap_cons, List.flatMap_cons]
    exact (each _ _ start here.1 here.2).append (inductionHypothesis (start + 1))

theorem alike_phrase {search other : Text} (plain : quote ∉ search) (otherPlain : quote ∉ other) :
    Alike (phrase search) (phrase other) :=
  ((alike_nil.fixed _).foreign plain otherPlain).fixed _

theorem Paired.alike_allTerms {tokens others : List Text} (paired : Paired tokens others) :
    Alike (allTerms tokens) (allTerms others) := by
  unfold allTerms
  rw [paired.length_eq]
  have opening : Alike [sql " OR ", sql " NEAR(\""] [sql " OR ", sql " NEAR(\""] := (alike_nil.fixed _).fixed _
  have distance : Alike [sql "\", ", .fixed (number (others.length * 2)), sql " ) OR "]
      [sql "\", ", .fixed (number (others.length * 2)), sql " ) OR "] := ((alike_nil.fixed _).fixed _).fixed _
  exact ((opening.append (paired.alike_join _)).append distance).append (paired.alike_join _)

theorem Paired.alike_others {tokens others : List Text} (paired : Paired tokens others) (skipped : Nat)
    {extension : Text → List Fragment}
    (each : ∀ token other, quote ∉ token → quote ∉ other → Alike (extension token) (extension other)) :
    Alike (SearchQuery.others tokens skipped extension) (SearchQuery.others others skipped extension) := by
  apply paired.alike_zipIdx
  intro token other index plain otherPlain
  by_cases skip : skipped = index
  · simp only [skip, ↓reduceIte]
    exact alike_nil
  · simp only [skip, ↓reduceIte]
    exact each token other plain otherPlain

theorem Paired.alike_variantMatch {tokens others : List Text} (paired : Paired tokens others) (skipped : Nat) :
    Alike (variantMatch tokens skipped) (variantMatch others skipped) := by
  unfold variantMatch
  rw [paired.length_eq]
  have strings := paired.alike_others skipped fun token other plain otherPlain =>
    ((alike_nil.fixed (chars "\" ")).foreign plain otherPlain).fixed (chars "\"")
  have words := paired.alike_others skipped fun token other plain otherPlain =>
    (alike_nil.foreign plain otherPlain).fixed (chars " ")
  have distance : Alike [sql ", ", .fixed (number ((others.length - 1) * 2)), sql " ) OR "]
      [sql ", ", .fixed (number ((others.length - 1) * 2)), sql " ) OR "] := ((alike_nil.fixed _).fixed _).fixed _
  exact ((strings.fixed _).append distance).append words

theorem Paired.alike_variants {tokens others : List Text} (paired : Paired tokens others) (runtime : Runtime) :
    Alike (tokens.zipIdx.flatMap fun (token, skipped) => variant runtime tokens token skipped)
      (others.zipIdx.flatMap fun (token, skipped) => variant runtime others token skipped) := by
  apply paired.alike_zipIdx
  intro token other skipped plain otherPlain
  have stripped : ∀ text : Text, quote ∉ text → quote ∉ text.filter (· ≠ '*') :=
    fun text plainText member => plainText (List.mem_of_mem_filter member)
  have scaling : rankScaling runtime tokens = rankScaling runtime others := by
    unfold rankScaling
    rw [paired.length_eq]
  have columns := ((alike_nil.fixed whereMatch).fixed fromSearch).fixed snippetAs
  have labelled := columns.foreign (stripped token plain) (stripped other otherPlain)
  have scaled := (labelled.fixed (chars ", '")).fixed (rankScaling runtime others)
  have header := (scaled.fixed (chars " SELECT book, chapter, title, rank * ")).fixed (chars " UNION")
  have closed : Alike [.fixed [quote]] [.fixed [quote]] := alike_nil.fixed _
  unfold variant
  rw [scaling]
  exact (header.append (paired.alike_variantMatch skipped)).append closed

theorem Paired.alike_searchFast {search other : Text} {tokens others : List Text} (paired : Paired tokens others)
    (plain : quote ∉ search) (otherPlain : quote ∉ other) (sort : SearchSort) :
    Alike (searchFast search tokens sort) (searchFast other others sort) := by
  have header : Alike [.fixed selected, .fixed fromSearch, .fixed whereMatch]
      [.fixed selected, .fixed fromSearch, .fixed whereMatch] := ((alike_nil.fixed _).fixed _).fixed _
  have terms : Alike (fastMatch search tokens) (fastMatch other others) := by
    apply (alike_phrase plain otherPlain).append
    cases paired with
    | nil => exact alike_nil
    | cons here rest => exact Paired.alike_allTerms (.cons here rest)
  have trailer : Alike [.fixed [quote], .fixed (orderByLimit sort), sql ";"]
      [.fixed [quote], .fixed (orderByLimit sort), sql ";"] := ((alike_nil.fixed _).fixed _).fixed _
  exact (header.append terms).append trailer

theorem Paired.alike_searchSlow {search other : Text} {tokens others : List Text} (paired : Paired tokens others)
    (plain : quote ∉ search) (otherPlain : quote ∉ other) (runtime : Runtime) (sort : SearchSort) :
    Alike (searchSlow runtime search tokens sort) (searchSlow runtime other others sort) := by
  have header : Alike [sql "SELECT * FROM (", .fixed selected, .fixed fromSearch, .fixed whereMatch]
      [sql "SELECT * FROM (", .fixed selected, .fixed fromSearch, .fixed whereMatch] :=
    (((alike_nil.fixed _).fixed _).fixed _).fixed _
  have terms := (alike_phrase plain otherPlain).append paired.alike_allTerms
  have closed : Alike [.fixed [quote]] [.fixed [quote]] := alike_nil.fixed _
  have trailer : Alike [.fixed (orderByLimit sort), sql ")", .fixed (orderByLimit sort), sql ";"]
      [.fixed (orderByLimit sort), sql ")", .fixed (orderByLimit sort), sql ";"] :=
    (((alike_nil.fixed _).fixed _).fixed _).fixed _
  exact (((header.append terms).append closed).append (paired.alike_variants runtime)).append trailer

/-! ## Searches -/

/-- The statement that `search` tries first. -/
def fastStatement (runtime : Runtime) (search : Text) (sort : SearchSort) : List Fragment :=
  searchFast (separated search) (tokensOf runtime (separated search)) sort

/-- The statement that `search` falls back on. -/
def slowStatement (runtime : Runtime) (search : Text) (sort : SearchSort) : List Fragment :=
  searchSlow runtime (separated search) (tokensOf runtime (separated search)) sort

def tokenCount (runtime : Runtime) (search : Text) : Nat := (tokensOf runtime (separated search)).length

/-- A statement whose foreign text lies inside its literals, all of which are closed. -/
def Contained (statement : List Fragment) : Prop :=
  Confined statement ∧ SqlText.Place.outside.after (written statement) = .outside

theorem search_contained (runtime : Runtime) (sort : SearchSort) :
    (∀ search, Contained (fastStatement runtime search sort) ∧ Contained (slowStatement runtime search sort)) ∧
    ∀ search other, tokenCount runtime search = tokenCount runtime other →
      skeleton (written (fastStatement runtime search sort)) = skeleton (written (fastStatement runtime other sort)) ∧
      skeleton (written (slowStatement runtime search sort)) = skeleton (written (slowStatement runtime other sort)) := by
  have fast (search : Text) : Leads .outside (fastStatement runtime search sort) .outside :=
    leads_searchFast (quote_not_mem_separated search) (fun _ => quote_not_mem_token) sort
  have slow (search : Text) : Leads .outside (slowStatement runtime search sort) .outside :=
    leads_searchSlow (quote_not_mem_separated search) (fun _ => quote_not_mem_token) runtime sort
  refine ⟨fun search => ⟨⟨(fast search).confined, (fast search).reaches⟩, (slow search).confined, (slow search).reaches⟩, ?_⟩
  intro search other sameCount
  have paired : Paired (tokensOf runtime (separated search)) (tokensOf runtime (separated other)) :=
    paired_of_length (fun _ => quote_not_mem_token) (fun _ => quote_not_mem_token) sameCount
  have plain := quote_not_mem_separated search
  have otherPlain := quote_not_mem_separated other
  constructor
  · exact (paired.alike_searchFast plain otherPlain sort).skeletonFrom_eq (fast search).confined
  · exact (paired.alike_searchSlow plain otherPlain runtime sort).skeletonFrom_eq (slow search).confined

end Aelf.Bible.SearchQuery
