import Aelf.Bible.SearchQuery

/-! # Columns that the search orders by

The fast statement and both levels of the slow one share the text of their `ORDER BY`.
The statements are read back as selects here, to see which columns this text finds at each
level. -/

namespace Aelf.Bible.SearchQuery

open Aelf.Library.SqlText
open Aelf.Library.CompoundSelect

/-! ## The statements as selects -/

def column (name : String) : ResultColumn := ⟨.column (chars name), none⟩

def snippetCall : Text := chars "snippet(search, -1, '<b>', '</b>', '...', 32)"

def labelled (label : Text) : ResultColumn := ⟨.literal label, some (chars "skipped")⟩

def snippet : ResultColumn := ⟨.call snippetCall, some (chars "snippet")⟩

def baseColumns : List ResultColumn :=
  [column "book", column "chapter", column "title", column "rank", labelled [], snippet]

def variantColumns (scaling label : Text) : List ResultColumn :=
  [column "book", column "chapter", column "title", ⟨.scaled (chars "rank") scaling, none⟩, labelled label, snippet]

def matching (columns : List ResultColumn) (matched : Text) : Select :=
  ⟨columns, (chars "search"), (chars "text"), matched⟩

def orderOf : SearchSort → Order
  | .bible => ⟨[.cast (chars "book_id") (chars "as"), .cast (chars "chapter") (chars "AS")], none⟩
  | .relevance => ⟨[.column (chars "rank")], some (chars "50")⟩

def fastSelect (search : Text) (tokens : List Text) : Select := matching baseColumns (written (fastMatch search tokens))

def variantSelect (runtime : Runtime) (tokens : List Text) (token : Text) (skipped : Nat) : Select :=
  matching (variantColumns (rankScaling runtime tokens) (token.filter (· ≠ '*'))) (written (variantMatch tokens skipped))

def slowCompound (runtime : Runtime) (search : Text) (tokens : List Text) (sort : SearchSort) : Compound where
  first := matching baseColumns (written (phrase search ++ allTerms tokens))
  others := tokens.zipIdx.map fun (token, skipped) => variantSelect runtime tokens token skipped
  order := orderOf sort

def slowSelect (runtime : Runtime) (search : Text) (tokens : List Text) (sort : SearchSort) : Nested where
  inner := slowCompound runtime search tokens sort
  order := orderOf sort

/-! ## Their text -/

theorem render_columns (first second third fourth fifth sixth : ResultColumn) :
    (chars ", ").intercalate ([first, second, third, fourth, fifth, sixth].map ResultColumn.render) =
      first.render ++ chars ", " ++ second.render ++ chars ", " ++ third.render ++ chars ", " ++ fourth.render ++
        chars ", " ++ fifth.render ++ chars ", " ++ sixth.render := by
  simp [List.intercalate]

theorem render_baseColumns :
    chars " SELECT " ++ (chars ", ").intercalate (baseColumns.map ResultColumn.render) = selected := by
  rw [baseColumns, render_columns]
  simp only [column, labelled, snippet, ResultColumn.render, Expr.render, quoted]
  delta selected snippetCall
  repeat rw [chars_ofList]
  rfl

theorem render_variantColumns (scaling label : Text) :
    chars " SELECT " ++ (chars ", ").intercalate ((variantColumns scaling label).map ResultColumn.render) =
      chars " SELECT book, chapter, title, rank * " ++ scaling ++ chars ", '" ++ label ++ snippetAs := by
  rw [variantColumns, render_columns]
  simp only [column, labelled, snippet, ResultColumn.render, Expr.render, quoted]
  delta snippetAs snippetCall
  repeat rw [chars_ofList]
  simp only [List.cons_append, List.nil_append, List.append_assoc]
  rfl

theorem render_matching (columns : List ResultColumn) (matched : Text) :
    (matching columns matched).render =
      chars " SELECT " ++ (chars ", ").intercalate (columns.map ResultColumn.render) ++ fromSearch ++ whereMatch ++
        matched ++ [quote] := by
  have source : fromSearch = chars " FROM " ++ chars "search" := by
    delta fromSearch
    repeat rw [chars_ofList]
    rfl
  have condition : whereMatch = chars " WHERE " ++ chars "text" ++ chars " MATCH " ++ [quote] := by
    delta whereMatch
    repeat rw [chars_ofList]
    rfl
  have regroup (a b c d e f g : Text) : a ++ b ++ c ++ d ++ e ++ f ++ g ++ (quote :: matched ++ [quote]) =
      a ++ b ++ (c ++ d) ++ (e ++ f ++ g ++ [quote]) ++ matched ++ [quote] := by simp
  rw [source, condition]
  exact regroup _ _ _ _ _ _ _

theorem render_orderOf (sort : SearchSort) : (orderOf sort).render = orderByLimit sort := by
  cases sort with
  | bible =>
    change _ = bibleOrder
    simp only [orderOf, Order.render, Expr.render, List.map_cons, List.map_nil]
    delta bibleOrder
    repeat rw [chars_ofList]
    rfl
  | relevance =>
    change _ = relevanceOrder
    simp only [orderOf, Order.render, Expr.render, List.map_cons, List.map_nil]
    delta relevanceOrder
    repeat rw [chars_ofList]
    rfl

theorem written_searchFast (search : Text) (tokens : List Text) (sort : SearchSort) :
    written (searchFast search tokens sort) =
      (fastSelect search tokens).render ++ (orderOf sort).render ++ chars ";" := by
  rw [fastSelect, render_matching, render_baseColumns, render_orderOf]
  simp only [searchFast, sql, written_append, written_cons, written_nil, Fragment.text, List.append_assoc, List.append_nil]

theorem written_variant (runtime : Runtime) (tokens : List Text) (token : Text) (skipped : Nat) :
    written (variant runtime tokens token skipped) =
      chars " UNION" ++ (variantSelect runtime tokens token skipped).render := by
  rw [variantSelect, render_matching, render_variantColumns]
  simp only [variant, sql, written_append, written_cons, written_nil, Fragment.text, List.append_assoc, List.append_nil]

theorem written_variants (runtime : Runtime) (tokens : List Text) (indexed : List (Text × Nat)) :
    written (indexed.flatMap fun (token, skipped) => variant runtime tokens token skipped) =
      (indexed.map fun (token, skipped) => variantSelect runtime tokens token skipped).flatMap
        fun arm => chars " UNION" ++ arm.render := by
  induction indexed with
  | nil => rfl
  | cons first indexed inductionHypothesis =>
    rw [List.flatMap_cons, written_append, inductionHypothesis, List.map_cons, List.flatMap_cons, written_variant]

/-- The slow statement is the text of the nested select. -/
theorem written_searchSlow (runtime : Runtime) (search : Text) (tokens : List Text) (sort : SearchSort) :
    written (searchSlow runtime search tokens sort) = (slowSelect runtime search tokens sort).render := by
  rw [Nested.render, slowSelect, Compound.render, slowCompound, render_matching, render_baseColumns, render_orderOf,
    ← written_variants]
  simp only [searchSlow, sql, written_append, written_cons, written_nil, Fragment.text, List.append_assoc, List.append_nil]

/-! ## What the arms search -/

/-- What is searched when these tokens are left. -/
def variantExpression (tokens : List Text) : Text :=
  chars " NEAR(" ++ tokens.flatMap (fun token => chars "\"" ++ token ++ chars "\" ") ++ chars ", " ++
    number (tokens.length * 2) ++ chars " ) OR " ++ tokens.flatMap fun token => chars " " ++ token

theorem others_zipIdx {tokens : List Text} {skipped start : Nat} (later : skipped < start)
    (extension : Text → List Fragment) :
    ((tokens.zipIdx start).flatMap fun (token, index) => if skipped = index then [] else extension token) =
      tokens.flatMap extension := by
  induction tokens generalizing start with
  | nil => rfl
  | cons token tokens inductionHypothesis =>
    rw [List.zipIdx_cons, List.flatMap_cons, List.flatMap_cons, inductionHypothesis (by omega)]
    simp [show skipped ≠ start by omega]

/-- The loop that skips an index goes through the tokens without the one at that index. -/
theorem others_eq (tokens : List Text) (skipped : Nat) (extension : Text → List Fragment) :
    others tokens skipped extension = (tokens.eraseIdx skipped).flatMap extension := by
  -- the indices of the tail do not start at zero
  suffices general : ∀ start, ((tokens.zipIdx start).flatMap fun (token, index) =>
      if skipped + start = index then [] else extension token) = (tokens.eraseIdx skipped).flatMap extension by
    exact general 0
  induction tokens generalizing skipped with
  | nil => intro start; rfl
  | cons token tokens inductionHypothesis =>
    intro start
    rw [List.zipIdx_cons, List.flatMap_cons]
    cases skipped with
    | zero =>
      rw [Nat.zero_add, others_zipIdx (Nat.lt_succ_self start)]
      simp
    | succ skipped =>
      have rest := inductionHypothesis skipped (start + 1)
      rw [show skipped + (start + 1) = skipped + 1 + start by omega] at rest
      rw [rest, List.eraseIdx_cons_succ, List.flatMap_cons]
      simp

theorem written_flatMap (tokens : List Text) (extension : Text → List Fragment) :
    written (tokens.flatMap extension) = tokens.flatMap fun token => written (extension token) := by
  induction tokens with
  | nil => rfl
  | cons token tokens inductionHypothesis => simp [inductionHypothesis]

theorem written_variantMatch {tokens : List Text} {skipped : Nat} (inside : skipped < tokens.length) :
    written (variantMatch tokens skipped) = variantExpression (tokens.eraseIdx skipped) := by
  have count : (tokens.eraseIdx skipped).length = tokens.length - 1 := List.length_eraseIdx_of_lt inside
  rw [variantExpression, count, variantMatch, others_eq, others_eq, List.cons_append, List.cons_append, written_cons,
    written_append, written_append, written_flatMap, written_flatMap]
  simp only [sql, written_cons, written_nil, Fragment.text, List.append_assoc, List.append_nil]

/-! ## Columns in scope -/

/-- The columns of the full-text table, with the rank that it computes. -/
def searchTable : List Text := [chars "book", chars "book_id", chars "chapter", chars "title", chars "text", chars "rank"]

/-- The fast statement finds what it orders by, whatever the order. -/
theorem fastSelect_sees (search : Text) (tokens : List Text) (sort : SearchSort) :
    ∀ term ∈ (orderOf sort).terms, (fastSelect search tokens).Sees searchTable term := by
  intro term isTerm name isName
  left
  cases sort with
  | bible =>
    simp only [orderOf, List.mem_cons, List.not_mem_nil, or_false] at isTerm
    obtain rfl | rfl := isTerm <;> simp_all [Expr.columns, searchTable]
  | relevance =>
    simp only [orderOf, List.mem_cons, List.not_mem_nil, or_false] at isTerm
    subst isTerm
    simp_all [Expr.columns, searchTable]

theorem arms_slowCompound {runtime : Runtime} {search : Text} {tokens : List Text} {sort : SearchSort} {arm : Select}
    (isArm : arm ∈ (slowCompound runtime search tokens sort).arms) :
    arm.columns = baseColumns ∨ ∃ scaling label, arm.columns = variantColumns scaling label := by
  obtain rfl | isVariant := List.mem_cons.mp isArm
  · exact .inl rfl
  · obtain ⟨⟨token, skipped⟩, -, rfl⟩ := List.mem_map.mp isVariant
    exact .inr ⟨_, _, rfl⟩

theorem sameWidth_slowCompound (runtime : Runtime) (search : Text) (tokens : List Text) (sort : SearchSort) :
    (slowCompound runtime search tokens sort).SameWidth := by
  intro arm isArm
  obtain base | ⟨scaling, label, columns⟩ := arms_slowCompound isArm
  · rw [base]
    rfl
  · rw [columns]
    rfl

/-- No result column is a number made of the book. -/
theorem not_provides_cast {arm : Select} {name keyword : Text}
    (columns : arm.columns = baseColumns ∨ ∃ scaling label, arm.columns = variantColumns scaling label) :
    ∀ column ∈ arm.columns, ¬column.Provides (.cast name keyword) := by
  intro result member provides
  have isCast : result.expression = .cast name keyword := by
    obtain ⟨other, impossible, -⟩ | same := provides
    · cases impossible
    · exact same
  obtain base | ⟨scaling, label, variants⟩ := columns
  · rw [base] at member
    simp only [baseColumns, List.mem_cons, List.not_mem_nil, or_false] at member
    obtain rfl | rfl | rfl | rfl | rfl | rfl := member <;> cases isCast
  · rw [variants] at member
    simp only [variantColumns, List.mem_cons, List.not_mem_nil, or_false] at member
    obtain rfl | rfl | rfl | rfl | rfl | rfl := member <;> cases isCast

theorem not_ordered_bible (runtime : Runtime) (search : Text) (tokens : List Text) :
    ¬(slowCompound runtime search tokens .bible).Ordered := by
  intro ordered
  have first : Expr.cast (chars "book_id") (chars "as") ∈ (slowCompound runtime search tokens .bible).order.terms :=
    List.mem_cons_self
  obtain ⟨arm, isArm, result, member, provides⟩ := ordered _ first
  exact not_provides_cast (arms_slowCompound isArm) result member provides

theorem scoped_relevance (runtime : Runtime) (search : Text) (tokens : List Text) :
    (slowSelect runtime search tokens .relevance).Scoped where
  sameWidth := sameWidth_slowCompound runtime search tokens .relevance
  ordered := by
    intro term isTerm
    obtain rfl : term = .column (chars "rank") := List.mem_singleton.mp isTerm
    refine ⟨_, List.mem_cons_self, column "rank", ?_, .inr rfl⟩
    simp [matching, baseColumns, slowCompound, slowSelect]
  orderedAround := by
    intro term isTerm name isName
    obtain rfl : term = .column (chars "rank") := List.mem_singleton.mp isTerm
    obtain rfl : name = chars "rank" := List.mem_singleton.mp isName
    simp [Compound.exposed, slowSelect, slowCompound, matching, baseColumns, column, ResultColumn.name]

/-- The columns of a nested statement are in scope, and it has for each token an arm that searches the
other tokens and carries this one, without its stars, as its label. -/
structure SlowPathDefined (statement : Nested) (tokens : List Text) : Prop where
  inScope : statement.Scoped
  width : statement.inner.others.length = tokens.length
  arms : ∀ skipped token, tokens[skipped]? = some token → ∃ arm, statement.inner.others[skipped]? = some arm ∧
    arm.matched = variantExpression (tokens.eraseIdx skipped) ∧ labelled (token.filter (· ≠ '*')) ∈ arm.columns

theorem searchSlow_defined_iff (runtime : Runtime) (search : Text) (tokens : List Text) (sort : SearchSort) :
    written (searchSlow runtime search tokens sort) = (slowSelect runtime search tokens sort).render ∧
    (SlowPathDefined (slowSelect runtime search tokens sort) tokens ↔ sort = .relevance) := by
  refine ⟨written_searchSlow runtime search tokens sort, ?_, ?_⟩
  · intro defined
    cases sort with
    | bible => exact absurd defined.inScope.ordered (not_ordered_bible runtime search tokens)
    | relevance => rfl
  · rintro rfl
    refine ⟨scoped_relevance runtime search tokens, by simp [slowSelect, slowCompound], ?_⟩
    intro skipped token isToken
    obtain ⟨inside, -⟩ := List.getElem?_eq_some_iff.mp isToken
    refine ⟨variantSelect runtime tokens token skipped, ?_, written_variantMatch inside, ?_⟩
    · simp [slowSelect, slowCompound, List.getElem?_zipIdx, isToken]
    · simp [variantSelect, matching, variantColumns]

/-- Two words, with the books in their order. -/
theorem searchSlow_undefined_bible :
    tokensOf asciiRuntime (separated "amour espoir".toList) = ["amour".toList, "espoir".toList] ∧
    ¬SlowPathDefined (slowSelect asciiRuntime "amour espoir".toList ["amour".toList, "espoir".toList] .bible)
      ["amour".toList, "espoir".toList] :=
  ⟨by decide +kernel, fun defined => not_ordered_bible _ _ _ defined.inScope.ordered⟩

end Aelf.Bible.SearchQuery
