import FieldSearch.Proofs.GraphQL.Canonical
import FieldSearch.Proofs.Repository.Parameters
import Mathlib.Data.List.Forall2

/-!
# Compacted URLs

Compaction of a URL goes through its parameters one by one: it rewrites the documents, each to its
canonical form, and keeps all else. So a document is seen in a compacted URL only up to its layout,
and a compacted URL is compacted no further.
-/

namespace FieldSearch.Repository

open GraphQL (compact Token Piece Spaced Splits Tight pieces separations)

/-! ## Parameters -/

/-- A document becomes its compact form, escaped; any other parameter stays as it is. -/
inductive ParameterCompacts : Text → Text → Prop where
  | document {value compacted : Text} :
      Text.formDecode compacted = compact (Text.formDecode value) → Text.Escaped compacted →
      ParameterCompacts ("query=" ++ value) ("query=" ++ compacted)
  | other {parameter : Text} : ¬ ("query=" : Text) <+: parameter →
      ParameterCompacts parameter parameter

theorem parameterCompacts_compactParameter (parameter : Text) :
    ParameterCompacts parameter (compactParameter parameter) := by
  by_cases h : ("query=" : Text) <+: parameter
  · obtain ⟨value, rfl⟩ := h
    rw [compactParameter_document]
    exact .document (Text.formDecode_percentEncode _) (Text.escaped_percentEncode _)
  · rw [compactParameter_other h]
    exact .other h

theorem compactParameter_compactParameter (parameter : Text) :
    compactParameter (compactParameter parameter) = compactParameter parameter := by
  by_cases h : ("query=" : Text) <+: parameter
  · obtain ⟨value, rfl⟩ := h
    rw [compactParameter_document, compactParameter_queryPart, GraphQL.compact_compact]
  · rw [compactParameter_other h, compactParameter_other h]

theorem not_mem_compactParameter {parameter : Text} (h : '&' ∉ parameter) :
    '&' ∉ compactParameter parameter := by
  by_cases hquery : ("query=" : Text) <+: parameter
  · obtain ⟨value, rfl⟩ := hquery
    rw [compactParameter_document]
    exact not_mem_queryPart (by decide) (by decide) _
  · rwa [compactParameter_other hquery]

theorem queryPart_injective {a b : Text} (h : queryPart a = queryPart b) : a = b := by
  have hcode : Text.percentEncode a = Text.percentEncode b := List.append_cancel_left h
  rw [← Text.formDecode_percentEncode a, hcode, Text.formDecode_percentEncode]

/-! ## Query strings -/

/-- A compacted query string falls into the compacted parameters. -/
theorem splitOn_compactQuery (query : Text) :
    (compactQuery query).splitOn '&' = (query.splitOn '&').map compactParameter := by
  refine List.splitOn_intercalate '&' ?_ (by simp [List.splitOn_ne_nil])
  intro compacted h
  obtain ⟨parameter, hmem, rfl⟩ := List.mem_map.mp h
  exact not_mem_compactParameter (not_mem_of_mem_splitOn hmem)

theorem compactQuery_compactQuery (query : Text) :
    compactQuery (compactQuery query) = compactQuery query := by
  have htwice : compactParameter ∘ compactParameter = compactParameter :=
    funext compactParameter_compactParameter
  rw [compactQuery, splitOn_compactQuery, List.map_map, htwice]
  rfl

theorem compactUrl_compactUrl (url : Text) : compactUrl (compactUrl url) = compactUrl url := by
  by_cases h : '?' ∈ url
  · obtain ⟨path, query, rfl, hpath⟩ := List.eq_append_cons_of_mem h
    rw [compactUrl_of_query hpath, compactUrl_of_query hpath, compactQuery_compactQuery]
  · rw [compactUrl_of_plain h, compactUrl_of_plain h]

/-- **Only documents change.** A URL without a question mark is compacted to itself. Else what is in
front of the first one stays, and so do the number and the order of the parameters behind it. One
that begins with `query=` gets a value of escapes and unreserved characters, which is read as the
compact form of what was read before; every other one is kept. Compacting twice is compacting
once. -/
theorem url_compaction (url : Text) :
    ('?' ∉ url → compactUrl url = url) ∧
    (∀ path query, '?' ∉ path → url = path ++ '?' :: query → ∃ compacted,
      compactUrl url = path ++ '?' :: compacted ∧
      List.Forall₂ ParameterCompacts (query.splitOn '&') (compacted.splitOn '&')) ∧
    compactUrl (compactUrl url) = compactUrl url := by
  refine ⟨compactUrl_of_plain, ?_, compactUrl_compactUrl url⟩
  rintro path query hpath rfl
  refine ⟨compactQuery query, compactUrl_of_query hpath query, ?_⟩
  rw [splitOn_compactQuery, List.forall₂_map_right_iff]
  exact List.forall₂_same.mpr fun parameter _ => parameterCompacts_compactParameter parameter

theorem url_compaction_references :
    '?' ∉ ("https://books.prismic.io/graphql" : Text) ∧
    compactUrl "https://books.prismic.io/graphql" = "https://books.prismic.io/graphql" ∧
    ∃ compacted, compactUrl "https://books.prismic.io/graphql?ref=a+b&query=%7B++a+%FF+%7D&queries" =
        "https://books.prismic.io/graphql" ++ '?' :: compacted ∧
      List.Forall₂ ParameterCompacts ["ref=a+b", "query=%7B++a+%FF+%7D", "queries"]
        (compacted.splitOn '&') := by
  have hpath : '?' ∉ ("https://books.prismic.io/graphql" : Text) := by decide
  have hurl : ("https://books.prismic.io/graphql?ref=a+b&query=%7B++a+%FF+%7D&queries" : Text) =
      "https://books.prismic.io/graphql" ++ '?' :: "ref=a+b&query=%7B++a+%FF+%7D&queries" := by
    decide +kernel
  have hsplit : ("ref=a+b&query=%7B++a+%FF+%7D&queries" : Text).splitOn '&' =
      ["ref=a+b", "query=%7B++a+%FF+%7D", "queries"] := by decide +kernel
  obtain ⟨hplain, -, -⟩ := url_compaction "https://books.prismic.io/graphql"
  obtain ⟨-, hquery, -⟩ :=
    url_compaction "https://books.prismic.io/graphql?ref=a+b&query=%7B++a+%FF+%7D&queries"
  obtain ⟨compacted, hcompacted, hall⟩ := hquery _ _ hpath hurl
  rw [hsplit] at hall
  exact ⟨hpath, hplain hpath, compacted, hcompacted, hall⟩

/-! ## Documents in a query string -/

theorem splitOn_join {parameters : List Text} (h : parameters ≠ []) :
    (Text.join ['&'] parameters).splitOn '&' = parameters.flatMap (·.splitOn '&') := by
  induction parameters with
  | nil => exact absurd rfl h
  | cons first others ih =>
    cases others with
    | nil => simp [Text.join]
    | cons next others =>
      rw [join_cons, List.splitOn_append_cons_self, ih (List.cons_ne_nil _ _)]
      rfl

theorem exists_join_eq (before after : List Text) :
    ∃ front back : Text, ∀ parameter,
      Text.join ['&'] (before ++ parameter :: after) = front ++ parameter ++ back := by
  induction before with
  | nil =>
    cases after with
    | nil => exact ⟨[], [], fun parameter => by simp [Text.join]⟩
    | cons next others => exact ⟨[], _, fun parameter => join_cons⟩
  | cons first before ih =>
    obtain ⟨front, back, h⟩ := ih
    refine ⟨first ++ '&' :: front, back, fun parameter => ?_⟩
    have hne : before ++ parameter :: after ≠ [] := by simp
    obtain ⟨next, others, hcons⟩ := List.exists_cons_of_ne_nil hne
    rw [List.cons_append, hcons, join_cons, ← hcons, h]
    simp

/-- The document of a query string is compacted where it stands, whatever is around it. -/
theorem exists_compactQuery_eq (before after : List Text) :
    ∃ front back : Text, ∀ document,
      compactQuery (Text.join ['&'] (before ++ queryPart document :: after)) =
        front ++ queryPart (compact document) ++ back := by
  obtain ⟨front, back, h⟩ := exists_join_eq ((before.flatMap (·.splitOn '&')).map compactParameter)
    ((after.flatMap (·.splitOn '&')).map compactParameter)
  refine ⟨front, back, fun document => ?_⟩
  have hnot : '&' ∉ queryPart document := not_mem_queryPart (by decide) (by decide) _
  rw [compactQuery, splitOn_join (by simp), List.flatMap_append, List.flatMap_cons,
    List.splitOn_eq_singleton hnot, List.map_append, List.singleton_append, List.map_cons,
    compactParameter_queryPart, h]

theorem compactUrl_eq_iff {path : Text} (h : '?' ∉ path) (before after : List Text) (a b : Text) :
    compactUrl (path ++ '?' :: Text.join ['&'] (before ++ queryPart a :: after)) =
      compactUrl (path ++ '?' :: Text.join ['&'] (before ++ queryPart b :: after)) ↔
    compact a = compact b := by
  obtain ⟨front, back, hquery⟩ := exists_compactQuery_eq before after
  rw [compactUrl_of_query h, compactUrl_of_query h, hquery, hquery]
  constructor
  · intro heq
    have hparts := (List.cons.inj (List.append_cancel_left heq)).2
    exact queryPart_injective (List.append_cancel_left (List.append_cancel_right hparts))
  · intro heq
    rw [heq]

/-- **The canonical form.** Two documents are compacted to the same text exactly when they have the
same pieces and agree, for each two neighbours that are no braces, on whether something separates
them. A compact document is the pieces of the document it was made from, with nothing between them
but single blanks, none of them beside a brace; so it is compacted to itself. Whatever stands around
a document in a URL, the compacted URLs of two documents are the same exactly when the documents are
compacted to the same text. -/
theorem compaction_canonical (a b : Text) :
    (compact a = compact b ↔ ∃ ts us, Spaced false a ts ∧ Spaced false b us ∧
      ts.map Token.piece = us.map Token.piece ∧ separations ts = separations us) ∧
    (∃ ps, Splits a ps ∧ Tight (compact a) ps) ∧
    compact (compact a) = compact a ∧
    (compact a = a ↔ ∃ ps, Tight a ps) ∧
    ∀ path before after, '?' ∉ path →
      (compactUrl (path ++ '?' :: Text.join ['&'] (before ++ queryPart a :: after)) =
        compactUrl (path ++ '?' :: Text.join ['&'] (before ++ queryPart b :: after)) ↔
      compact a = compact b) :=
  ⟨GraphQL.compact_eq_iff, ⟨pieces a, GraphQL.splits_iff.mpr rfl, GraphQL.tight_compact a⟩,
    GraphQL.compact_compact a, GraphQL.compact_eq_self_iff,
    fun _ before after hpath => compactUrl_eq_iff hpath before after a b⟩

theorem compaction_canonical_layouts :
    '?' ∉ ("https://books.prismic.io/graphql" : Text) ∧
    Spaced false "query \x7b a # first\n  b \x7d"
      (GraphQL.tokens false "query \x7b a # first\n  b \x7d") ∧
    Spaced false "query\x7ba b\x7d" (GraphQL.tokens false "query\x7ba b\x7d") ∧
    compactUrl ("https://books.prismic.io/graphql" ++ '?' :: Text.join ['&']
        ["ref=a+b", queryPart "query \x7b a # first\n  b \x7d"]) =
      compactUrl ("https://books.prismic.io/graphql" ++ '?' :: Text.join ['&']
        ["ref=a+b", queryPart "query\x7ba b\x7d"]) := by
  have hpath : '?' ∉ ("https://books.prismic.io/graphql" : Text) := by decide
  have ha := GraphQL.spaced_tokens false "query \x7b a # first\n  b \x7d"
  have hb := GraphQL.spaced_tokens false "query\x7ba b\x7d"
  obtain ⟨hlayouts, -, -, -, hurls⟩ :=
    compaction_canonical "query \x7b a # first\n  b \x7d" "query\x7ba b\x7d"
  refine ⟨hpath, ha, hb, (hurls _ ["ref=a+b"] [] hpath).mpr (hlayouts.mpr ?_)⟩
  exact ⟨_, _, ha, hb, by decide +kernel, by decide +kernel⟩

end FieldSearch.Repository
