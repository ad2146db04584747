import FieldSearch.Proofs.Repository.Hosts
import FieldSearch.Proofs.Text.Percent
import FieldSearch.Proofs.Text.Segments
import FieldSearch.Repository.QueryUrl

/-!
# Parameters of query URLs

The document of a request is put behind the endpoint after a question mark. It arrives as the
`query` parameter exactly when the endpoint has neither a question mark nor a number sign of its
own: behind the first one it goes on with the endpoint's last parameter, behind the second it is
part of the fragment, and no parameter of the URL is then the document.
-/

namespace FieldSearch.Repository

/-! ## The parts of a URL -/

def withoutFragment (url : Text) : Text := url.takeWhile (· ≠ '#')

def queryString? (url : Text) : Option Text := ((withoutFragment url).cut '?').map Prod.snd

/-- The parameters of a URL; there is none between two separators that meet. -/
def parameters (url : Text) : List Text :=
  (((queryString? url).map (·.splitOn '&')).getD []).filter (· ≠ [])

def parameterName (parameter : Text) : Text := parameter.takeWhile (· ≠ '=')

def parameterValue (parameter : Text) : Text := (parameter.dropWhile (· ≠ '=')).drop 1

def IsQuery (parameter : Text) : Prop := parameterName parameter = "query"

instance (parameter : Text) : Decidable (IsQuery parameter) :=
  inferInstanceAs (Decidable (_ = _))

def HasQuery (url : Text) : Prop := ∃ parameter ∈ parameters url, IsQuery parameter

/-- A URL has the document as its one `query` parameter, and else the parameters of the endpoint. -/
structure Arrives (endpoint url document : Text) : Prop where
  query : ∃ parameter, (parameters url).filter (IsQuery ·) = [parameter] ∧
    Text.formDecode (parameterValue parameter) = GraphQL.compact document
  others : (parameters url).filter (¬ IsQuery ·) = parameters endpoint

section

variable {front path query : Text}

theorem withoutFragment_of_mem (h : '#' ∈ front) (rest : Text) :
    withoutFragment (front ++ rest) = withoutFragment front :=
  takeWhile_append_of_mem ⟨'#', h, by decide⟩ rest

theorem withoutFragment_of_not_mem (h : '#' ∉ front) (rest : Text) :
    withoutFragment (front ++ rest) = front ++ withoutFragment rest :=
  List.takeWhile_append_of_pos fun _ hc => decide_eq_true fun heq => h (heq ▸ hc)

theorem withoutFragment_eq_self (h : '#' ∉ front) : withoutFragment front = front := by
  simpa [withoutFragment] using withoutFragment_of_not_mem h []

theorem not_mem_withoutFragment {c : Char} (h : c ∉ front) : c ∉ withoutFragment front :=
  fun hmem => h (List.takeWhile_subset _ hmem)

theorem parameters_congr {url other : Text} (h : withoutFragment url = withoutFragment other) :
    parameters url = parameters other := by
  rw [parameters, queryString?, h]
  rfl

/-- A beginning without a query string has no part in the parameters. -/
theorem parameters_append (hmark : '?' ∉ front) (hfragment : '#' ∉ front) (rest : Text) :
    parameters (front ++ rest) = parameters rest := by
  have hquery : queryString? (front ++ rest) = queryString? rest := by
    rw [queryString?, queryString?, withoutFragment_of_not_mem hfragment]
    cases hcut : Text.cut '?' (withoutFragment rest) with
    | none =>
      have hnot := Text.cut_eq_none_iff.mp hcut
      rw [Text.cut_eq_none_iff.mpr (by simp [hmark, hnot])]
    | some parts =>
      obtain ⟨before, after⟩ := parts
      obtain ⟨hrest, hnot⟩ := Text.eq_of_cut hcut
      rw [hrest, ← List.append_assoc, Text.cut_append (by simp [hmark, hnot])]
      rfl
  rw [parameters, hquery]
  rfl

theorem hasQuery_append_iff (hmark : '?' ∉ front) (hfragment : '#' ∉ front) (rest : Text) :
    HasQuery (front ++ rest) ↔ HasQuery rest := by
  unfold HasQuery
  rw [parameters_append hmark hfragment]

theorem parameters_of_query (hmark : '?' ∉ path) (hfragment : '#' ∉ path) (query : Text) :
    parameters (path ++ '?' :: query) =
      ((withoutFragment query).splitOn '&').filter (· ≠ []) := by
  have hquery : withoutFragment ('?' :: query) = '?' :: withoutFragment query := rfl
  rw [parameters, queryString?, withoutFragment_of_not_mem hfragment, hquery,
    Text.cut_append hmark]
  rfl

theorem hasQuery_iff (hmark : '?' ∉ path) (hfragment : '#' ∉ path) (query : Text) :
    HasQuery (path ++ '?' :: query) ↔
      ∃ parameter ∈ (withoutFragment query).splitOn '&', IsQuery parameter := by
  unfold HasQuery
  rw [parameters_of_query hmark hfragment]
  refine exists_congr fun parameter => and_congr_left fun hquery => ?_
  have hne : parameter ≠ [] := by
    rintro rfl
    cases hquery
  simp [hne]

end

/-! ## Names of parameters -/

theorem isQuery_withoutFragment {parameter : Text} (h : IsQuery parameter) :
    IsQuery (withoutFragment parameter) := by
  have hswap : parameterName (withoutFragment parameter) =
      withoutFragment (parameterName parameter) := by
    simp only [parameterName, withoutFragment, List.takeWhile_takeWhile, and_comm]
  rw [IsQuery, hswap, show parameterName parameter = "query" from h]
  rfl

/-- A name in which the text goes on does not depend on how it goes on. -/
theorem isQuery_of_append {text rest : Text} {c : Char} (hc : c ∉ ("query=" : Text))
    (h : IsQuery (text ++ c :: rest)) (other : Text) : IsQuery (text ++ other) := by
  unfold IsQuery parameterName at h ⊢
  by_cases hname : '=' ∈ text
  · have hstop : ∃ d ∈ text, decide (d ≠ '=') = false := ⟨'=', hname, by decide⟩
    rw [takeWhile_append_of_mem hstop] at h ⊢
    exact h
  · have hplain : ∀ d ∈ text, decide (d ≠ '=') = true :=
      fun d hd => decide_eq_true fun heq => hname (heq ▸ hd)
    have hne : c ≠ '=' := by
      rintro rfl
      exact hc (by decide)
    rw [List.takeWhile_append_of_pos hplain, List.takeWhile_cons_of_pos (by simpa using hne)] at h
    have hmem : c ∈ ("query" : Text) := h ▸ List.mem_append_right _ (List.mem_cons_self ..)
    exact absurd (List.mem_append_left "=" hmem) hc

/-- Behind a question mark or a number sign a text without separators adds no parameter: a
parameter that is there goes on in it, or the fragment does. -/
theorem hasQuery_of_append {front rest : Text} {c : Char} (hmark : '?' ∈ front ∨ '#' ∈ front)
    (hc : c ∉ ("query=&#" : Text)) (hrest : '&' ∉ rest) (h : HasQuery (front ++ c :: rest))
    (other : Text) : HasQuery (front ++ other) := by
  by_cases hfragment : '#' ∈ front
  · -- what stands behind the number sign has no part in the parameters
    have hsame : parameters (front ++ c :: rest) = parameters (front ++ other) := by
      apply parameters_congr
      rw [withoutFragment_of_mem hfragment, withoutFragment_of_mem hfragment]
    unfold HasQuery at h ⊢
    rwa [← hsame]
  · obtain ⟨path, query, rfl, hpath⟩ :=
      List.eq_append_cons_of_mem (hmark.resolve_right hfragment)
    simp only [List.mem_append, List.mem_cons, not_or] at hfragment
    obtain ⟨hpathFragment, -, hqueryFragment⟩ := hfragment
    obtain ⟨segments, last, hlast, hsplit⟩ := exists_splitOn_append '&' query
    rw [List.append_assoc, List.cons_append] at h ⊢
    rw [hasQuery_iff hpath hpathFragment, withoutFragment_of_not_mem hqueryFragment, hsplit] at h ⊢
    obtain ⟨parameter, hmem, hquery⟩ := h
    rcases List.mem_append.mp hmem with hmem | hmem
    · exact ⟨parameter, List.mem_append_left _ hmem, hquery⟩
    · have hnumber : c ≠ '#' := by
        rintro rfl
        exact hc (by decide)
      have hseparator : c ≠ '&' := by
        rintro rfl
        exact hc (by decide)
      have hname : c ∉ ("query=" : Text) := fun hmem => hc (List.mem_append_left "&#" hmem)
      have hgoesOn : withoutFragment (c :: rest) = c :: withoutFragment rest :=
        List.takeWhile_cons_of_pos (by simpa using hnumber)
      have hnot : '&' ∉ last ++ c :: withoutFragment rest := by
        simp [hlast, Ne.symm hseparator, not_mem_withoutFragment hrest]
      rw [hgoesOn, List.splitOn_eq_singleton hnot, List.mem_singleton] at hmem
      obtain ⟨more, others, hhead⟩ := exists_splitOn_head hlast (withoutFragment other)
      refine ⟨last ++ more, ?_, isQuery_of_append hname (hmem ▸ hquery) more⟩
      rw [hhead]
      exact List.mem_append_right _ (List.mem_cons_self ..)

/-! ## Compaction of a URL -/

theorem compactParameter_document (value : Text) :
    compactParameter ("query=" ++ value) = queryPart (GraphQL.compact (Text.formDecode value)) := by
  have hname : '=' ∉ ("query" : Text) := by decide
  have hcut : Text.cut '=' ("query=" ++ value) = some (("query" : Text), value) :=
    Text.cut_append hname _
  rw [compactParameter, hcut]
  exact if_pos rfl

theorem compactParameter_other {parameter : Text} (h : ¬ ("query=" : Text) <+: parameter) :
    compactParameter parameter = parameter := by
  unfold compactParameter
  split
  · rename_i name value hcut
    obtain ⟨rfl, -⟩ := Text.eq_of_cut hcut
    refine if_neg ?_
    rintro rfl
    exact h ⟨value, rfl⟩
  · rfl

theorem compactParameter_of_not_query {parameter : Text} (h : ¬ IsQuery parameter) :
    compactParameter parameter = parameter := by
  apply compactParameter_other
  rintro ⟨value, rfl⟩
  exact h rfl

def compactQuery (query : Text) : Text := Text.join ['&'] ((query.splitOn '&').map compactParameter)

theorem compactUrl_of_plain {url : Text} (h : '?' ∉ url) : compactUrl url = url := by
  rw [compactUrl, Text.cut_eq_none_iff.mpr h]

theorem compactUrl_of_query {path : Text} (h : '?' ∉ path) (query : Text) :
    compactUrl (path ++ '?' :: query) = path ++ '?' :: compactQuery query := by
  rw [compactUrl, Text.cut_append h]
  exact List.append_assoc ..

/-- Up to the fragment nothing changes, if nothing there is a `query` parameter. -/
theorem withoutFragment_join {segments : List Text} (hsegments : ∀ s ∈ segments, '&' ∉ s)
    (h : ∀ parameter ∈ (withoutFragment (Text.join ['&'] segments)).splitOn '&',
      ¬ IsQuery parameter) :
    withoutFragment (Text.join ['&'] (segments.map compactParameter)) =
      withoutFragment (Text.join ['&'] segments) := by
  induction segments with
  | nil => rfl
  | cons first others ih =>
    rw [List.forall_mem_cons] at hsegments
    obtain ⟨hfirst, hothers⟩ := hsegments
    have hkept : ¬ IsQuery (withoutFragment first) → compactParameter first = first :=
      fun hnot => compactParameter_of_not_query (mt isQuery_withoutFragment hnot)
    cases others with
    | nil =>
      have hsingle : ∀ s : Text, Text.join ['&'] [s] = s := fun s => List.append_nil s
      rw [hsingle, List.splitOn_eq_singleton (not_mem_withoutFragment hfirst)] at h
      rw [List.map_singleton, hsingle, hsingle, hkept (h _ (List.mem_singleton_self _))]
    | cons next others =>
      rw [join_cons] at h ⊢
      rw [List.map_cons, List.map_cons, join_cons, ← List.map_cons]
      by_cases hfragment : '#' ∈ first
      · rw [withoutFragment_of_mem hfragment,
          List.splitOn_eq_singleton (not_mem_withoutFragment hfirst)] at h
        rw [hkept (h _ (List.mem_singleton_self _)), withoutFragment_of_mem hfragment,
          withoutFragment_of_mem hfragment]
      · have hgoesOn : ∀ rest : Text,
            withoutFragment (first ++ '&' :: rest) = first ++ '&' :: withoutFragment rest :=
          fun rest => withoutFragment_of_not_mem hfragment ('&' :: rest)
        rw [hgoesOn, splitOn_append_separator hfirst, List.forall_mem_cons] at h
        rw [compactParameter_of_not_query h.1, hgoesOn, hgoesOn, ih hothers h.2]

/-- A URL without a `query` parameter keeps its parameters. -/
theorem parameters_compactUrl {url : Text} (h : ¬ HasQuery url) :
    parameters (compactUrl url) = parameters url := by
  by_cases hmark : '?' ∈ url
  · obtain ⟨path, query, rfl, hpath⟩ := List.eq_append_cons_of_mem hmark
    rw [compactUrl_of_query hpath]
    by_cases hfragment : '#' ∈ path
    · apply parameters_congr
      rw [withoutFragment_of_mem hfragment, withoutFragment_of_mem hfragment]
    · have hjoin : Text.join ['&'] (query.splitOn '&') = query := List.intercalate_splitOn '&'
      rw [hasQuery_iff hpath hfragment, ← hjoin] at h
      have hkept : withoutFragment (compactQuery query) = withoutFragment query :=
        (withoutFragment_join (fun s hs => not_mem_of_mem_splitOn hs)
          fun parameter hmem hquery => h ⟨parameter, hmem, hquery⟩).trans
            (congrArg withoutFragment hjoin)
      rw [parameters_of_query hpath hfragment, parameters_of_query hpath hfragment, hkept]
  · rw [compactUrl_of_plain hmark]

/-! ## Query URLs -/

theorem not_mem_queryPart {c : Char} (hname : c ∉ ("query=" : Text)) (hcode : Text.isCode c = false)
    (document : Text) : c ∉ queryPart document := by
  intro h
  rcases List.mem_append.mp h with h | h
  · exact hname h
  · exact Text.not_mem_percentEncode hcode document h

theorem parameterName_queryPart (document : Text) : parameterName (queryPart document) = "query" :=
  rfl

theorem parameterValue_queryPart (document : Text) :
    parameterValue (queryPart document) = Text.percentEncode document := rfl

theorem compactParameter_queryPart (document : Text) :
    compactParameter (queryPart document) = queryPart (GraphQL.compact document) := by
  have hread := compactParameter_document (Text.percentEncode document)
  rwa [Text.formDecode_percentEncode] at hread

theorem queryUrl_of_plain {endpoint : Text} (h : '?' ∉ endpoint) (document : Text) :
    queryUrl endpoint document = endpoint ++ '?' :: queryPart (GraphQL.compact document) := by
  have hurl : endpoint ++ "?" ++ queryPart document = endpoint ++ '?' :: queryPart document :=
    List.append_assoc ..
  have hnot : '&' ∉ queryPart document := not_mem_queryPart (by decide) (by decide) document
  rw [queryUrl, hurl, compactUrl_of_query h, compactQuery, List.splitOn_eq_singleton hnot,
    List.map_singleton, compactParameter_queryPart]
  simp [Text.join]

theorem parameters_queryUrl {endpoint : Text} (hmark : '?' ∉ endpoint) (hfragment : '#' ∉ endpoint)
    (document : Text) :
    parameters (queryUrl endpoint document) = [queryPart (GraphQL.compact document)] := by
  have hnot : ∀ c, c ∉ ("query=" : Text) → Text.isCode c = false →
      c ∉ queryPart (GraphQL.compact document) := fun c hname hcode =>
    not_mem_queryPart hname hcode _
  rw [queryUrl_of_plain hmark, parameters_of_query hmark hfragment,
    withoutFragment_eq_self (hnot '#' (by decide) (by decide)),
    List.splitOn_eq_singleton (hnot '&' (by decide) (by decide))]
  rfl

theorem parameters_queryUrl_of_not_hasQuery {endpoint document : Text}
    (h : ¬ HasQuery (endpoint ++ '?' :: queryPart document)) :
    parameters (queryUrl endpoint document) =
      parameters (endpoint ++ '?' :: queryPart document) := by
  have hurl : endpoint ++ "?" ++ queryPart document = endpoint ++ '?' :: queryPart document :=
    List.append_assoc ..
  rw [queryUrl, hurl, parameters_compactUrl h]

/-- Behind a query string the document goes on with its last parameter. -/
theorem exists_parameters_append {endpoint : Text} (hmark : '?' ∈ endpoint)
    (hfragment : '#' ∉ endpoint) (document : Text) :
    ∃ others last, parameters endpoint = others ++ [last].filter (· ≠ []) ∧
      parameters (endpoint ++ '?' :: queryPart document) =
        others ++ [last ++ '?' :: queryPart document] := by
  obtain ⟨path, query, rfl, hpath⟩ := List.eq_append_cons_of_mem hmark
  simp only [List.mem_append, List.mem_cons, not_or] at hfragment
  obtain ⟨hpathFragment, -, hqueryFragment⟩ := hfragment
  obtain ⟨segments, last, hlast, hsplit⟩ := exists_splitOn_append '&' query
  have hpart : ∀ c, c ∉ ("?query=" : Text) → Text.isCode c = false → c ∉ '?' :: queryPart document := by
    intro c hname hcode
    rw [show ("?query=" : Text) = '?' :: "query=" from rfl, List.mem_cons, not_or] at hname
    rw [List.mem_cons, not_or]
    exact ⟨hname.1, not_mem_queryPart hname.2 hcode document⟩
  refine ⟨segments.filter (· ≠ []), last, ?_, ?_⟩
  · have hquery := hsplit []
    rw [List.append_nil, List.append_nil, List.splitOn_eq_singleton hlast] at hquery
    rw [parameters_of_query hpath hpathFragment, withoutFragment_eq_self hqueryFragment, hquery,
      List.filter_append]
  · have hgoesOn : '&' ∉ last ++ '?' :: queryPart document := by
      rw [List.mem_append, not_or]
      exact ⟨hlast, hpart '&' (by decide) (by decide)⟩
    rw [List.append_assoc, List.cons_append, parameters_of_query hpath hpathFragment,
      withoutFragment_of_not_mem hqueryFragment,
      withoutFragment_eq_self (hpart '#' (by decide) (by decide)), hsplit,
      List.splitOn_eq_singleton hgoesOn, List.filter_append]
    simp

/-! ## Endpoints -/

theorem eq_of_ofEndpoint? {endpoint : Text} {host : Host}
    (h : Host.ofEndpoint? endpoint = some host) :
    host.domain ∈ hostedDomains ∧ ∃ scheme rest : Text, '?' ∉ scheme ∧ '#' ∉ scheme ∧
      endpoint = scheme ++ (host.label ++ '.' :: rest) := by
  obtain ⟨⟨-, hdomain⟩, scheme, hscheme, mark, -, suffix, rfl⟩ := ofEndpoint?_eq_some_iff.mp h
  have hplain : ∀ scheme ∈ schemes, '?' ∉ scheme ∧ '#' ∉ scheme := by decide
  exact ⟨hdomain, scheme, _, (hplain scheme hscheme).1, (hplain scheme hscheme).2, rfl⟩

theorem isPlain_domain : ∀ domain ∈ hostedDomains,
    '?' ∉ domain ∧ '#' ∉ domain ∧ '&' ∉ domain := by
  decide

theorem graphql_cases {endpoint : Text} {name : Option Text} {e : Endpoints}
    (h : Endpoints.resolve endpoint name = .ok e) :
    (∃ host, Host.ofEndpoint? endpoint = some host ∧
      e.graphql = "https://" ++ (host.label ++ '.' :: ("cdn." ++ host.domain ++ "/graphql"))) ∨
    Host.ofEndpoint? endpoint = none ∧ e.graphql = endpoint := by
  unfold Endpoints.resolve at h
  split at h
  · rename_i host hhost
    cases h
    refine Or.inl ⟨host, hhost, ?_⟩
    unfold Host.base
    simp only [List.append_assoc]
    rfl
  · rename_i hhost
    split at h
    · cases h
    · cases h
    · cases h
      exact Or.inr ⟨hhost, rfl⟩

/-- An endpoint with a query string or a fragment takes up the document, and gets no parameter. -/
theorem not_hasQuery_of_resolve {endpoint : Text} {name : Option Text} {e : Endpoints}
    (h : Endpoints.resolve endpoint name = .ok e) (hnone : ¬ HasQuery endpoint)
    (hmark : '?' ∈ e.graphql ∨ '#' ∈ e.graphql) (document : Text) :
    ¬ HasQuery (e.graphql ++ '?' :: queryPart document) := by
  intro hquery
  have hpart : '&' ∉ queryPart document := not_mem_queryPart (by decide) (by decide) document
  rcases graphql_cases h with ⟨host, hhost, hgraphql⟩ | ⟨-, hgraphql⟩
  · obtain ⟨hdomain, scheme, rest, hschemeMark, hschemeFragment, rfl⟩ := eq_of_ofEndpoint? hhost
    obtain ⟨hplainMark, hplainFragment, hplain⟩ := isPlain_domain _ hdomain
    rw [hgraphql] at hmark hquery
    -- the two URLs have the label in common, and go on behind it without a separator
    have hlabel : '?' ∈ host.label ∨ '#' ∈ host.label := by
      simpa [hplainMark, hplainFragment] using hmark
    have hrest : '&' ∉ "cdn." ++ host.domain ++ "/graphql" ++ '?' :: queryPart document := by
      simp [hplain, hpart]
    rw [List.append_assoc, hasQuery_append_iff (by decide) (by decide), List.append_assoc,
      List.cons_append] at hquery
    exact hnone ((hasQuery_append_iff hschemeMark hschemeFragment _).mpr
      (hasQuery_of_append hlabel (by decide) hrest hquery _))
  · rw [hgraphql] at hmark hquery
    have hendpoint := hasQuery_of_append hmark (by decide) hpart hquery []
    rw [List.append_nil] at hendpoint
    exact hnone hendpoint

section

variable {endpoint : Text} {name : Option Text} {e : Endpoints}

/-- An endpoint that takes up the document decides the parameters alone. -/
theorem parameters_queryUrl_of_marked (h : Endpoints.resolve endpoint name = .ok e)
    (hnone : ¬ HasQuery endpoint) (hmark : '?' ∈ e.graphql ∨ '#' ∈ e.graphql) (document : Text) :
    parameters (queryUrl e.graphql document) =
      parameters (e.graphql ++ '?' :: queryPart document) :=
  parameters_queryUrl_of_not_hasQuery (not_hasQuery_of_resolve h hnone hmark document)

theorem hasQuery_queryUrl_iff (h : Endpoints.resolve endpoint name = .ok e)
    (hnone : ¬ HasQuery endpoint) (document : Text) :
    HasQuery (queryUrl e.graphql document) ↔ '?' ∉ e.graphql ∧ '#' ∉ e.graphql := by
  constructor
  · intro hquery
    rw [← not_or]
    intro hmark
    refine not_hasQuery_of_resolve h hnone hmark document ?_
    unfold HasQuery at hquery ⊢
    rwa [← parameters_queryUrl_of_marked h hnone hmark]
  · rintro ⟨hmark, hfragment⟩
    refine ⟨_, ?_, parameterName_queryPart (GraphQL.compact document)⟩
    rw [parameters_queryUrl hmark hfragment]
    exact List.mem_singleton_self _

theorem formDecode_queryPart (document : Text) :
    Text.formDecode (parameterValue (queryPart document)) = document := by
  rw [parameterValue_queryPart, Text.formDecode_percentEncode]

theorem arrives_iff (h : Endpoints.resolve endpoint name = .ok e) (hnone : ¬ HasQuery endpoint)
    (document : Text) :
    Arrives endpoint (queryUrl e.graphql document) document ↔
      '?' ∉ e.graphql ∧ '#' ∉ e.graphql ∧ parameters endpoint = [] := by
  constructor
  · intro harrives
    obtain ⟨parameter, hquery, -⟩ := harrives.query
    have hmem : parameter ∈ (parameters (queryUrl e.graphql document)).filter (IsQuery ·) :=
      hquery ▸ List.mem_singleton_self _
    obtain ⟨hmem, hisQuery⟩ := List.mem_filter.mp hmem
    obtain ⟨hmark, hfragment⟩ :=
      (hasQuery_queryUrl_iff h hnone document).mp ⟨parameter, hmem, of_decide_eq_true hisQuery⟩
    refine ⟨hmark, hfragment, ?_⟩
    rw [← harrives.others, parameters_queryUrl hmark hfragment]
    rfl
  · rintro ⟨hmark, hfragment, hempty⟩
    refine ⟨⟨_, ?_, formDecode_queryPart _⟩, ?_⟩
    · rw [parameters_queryUrl hmark hfragment]
      rfl
    · rw [parameters_queryUrl hmark hfragment, hempty]
      rfl

theorem graphql_eq_of_custom (h : Endpoints.resolve endpoint name = .ok e)
    (hcustom : Host.ofEndpoint? endpoint = none) : e.graphql = endpoint := by
  rcases graphql_cases h with ⟨host, hhost, -⟩ | ⟨-, hgraphql⟩
  · rw [hcustom] at hhost
    cases hhost
  · exact hgraphql

theorem parameters_eq_nil (hmark : '?' ∉ endpoint) : parameters endpoint = [] := by
  have hcut : Text.cut '?' (withoutFragment endpoint) = none :=
    Text.cut_eq_none_iff.mpr (not_mem_withoutFragment hmark)
  rw [parameters, queryString?, hcut]
  rfl

end

/-- **The parameter of the document.** Let an endpoint without a `query` parameter be accepted. The
URL of a document has such a parameter exactly when the endpoint in use has neither a question mark
nor a number sign, and then it is the only parameter and holds the compacted document. Else the
document is in the fragment, or the last parameter goes on with it. So the document arrives beside
the parameters of the given endpoint exactly when there are also none of these: a hosted endpoint
loses them, any other one is in use as it is. -/
theorem document_arrives_iff (endpoint : Text) (name : Option Text) (e : Endpoints)
    (h : Endpoints.resolve endpoint name = .ok e) (hnone : ¬ HasQuery endpoint) (document : Text) :
    let url := queryUrl e.graphql document
    (HasQuery url ↔ '?' ∉ e.graphql ∧ '#' ∉ e.graphql) ∧
    ('?' ∉ e.graphql → '#' ∉ e.graphql → ∃ parameter, parameters url = [parameter] ∧
      IsQuery parameter ∧ Text.formDecode (parameterValue parameter) = GraphQL.compact document) ∧
    ('#' ∈ e.graphql → parameters url = parameters e.graphql) ∧
    ('?' ∈ e.graphql → '#' ∉ e.graphql → ∃ others last,
      parameters e.graphql = others ++ [last].filter (· ≠ []) ∧
      parameters url = others ++ [last ++ '?' :: queryPart document]) ∧
    (Arrives endpoint url document ↔
      '?' ∉ e.graphql ∧ '#' ∉ e.graphql ∧ parameters endpoint = []) ∧
    (Host.ofEndpoint? endpoint = none →
      (Arrives endpoint url document ↔ '?' ∉ endpoint ∧ '#' ∉ endpoint)) := by
  intro url
  refine ⟨hasQuery_queryUrl_iff h hnone document, fun hmark hfragment => ?_, fun hfragment => ?_,
    fun hmark hfragment => ?_, arrives_iff h hnone document, fun hcustom => ?_⟩
  · exact ⟨_, parameters_queryUrl hmark hfragment document, rfl, formDecode_queryPart _⟩
  · rw [parameters_queryUrl_of_marked h hnone (Or.inr hfragment)]
    exact parameters_congr (withoutFragment_of_mem hfragment _)
  · rw [parameters_queryUrl_of_marked h hnone (Or.inl hmark)]
    exact exists_parameters_append hmark hfragment document
  · rw [arrives_iff h hnone document, graphql_eq_of_custom h hcustom]
    exact and_congr_right fun hmark => and_iff_left_of_imp fun _ => parameters_eq_nil hmark

theorem document_arrives_iff_custom :
    Endpoints.resolve "https://example.com/graphql" (some "my-repo") =
      .ok ⟨"https://my-repo.cdn.prismic.io/api", "https://example.com/graphql"⟩ ∧
    ¬ HasQuery "https://example.com/graphql" ∧
    Arrives "https://example.com/graphql"
      (queryUrl "https://example.com/graphql" "query \x7b a \x7d") "query \x7b a \x7d" := by
  have hresolve : Endpoints.resolve "https://example.com/graphql" (some "my-repo") =
      .ok ⟨"https://my-repo.cdn.prismic.io/api", "https://example.com/graphql"⟩ := by rfl
  have hnone : ¬ HasQuery "https://example.com/graphql" := by unfold HasQuery; decide
  obtain ⟨-, -, -, -, -, hcustom⟩ := document_arrives_iff _ _ _ hresolve hnone "query \x7b a \x7d"
  exact ⟨hresolve, hnone, (hcustom (by rfl)).mpr ⟨by decide, by decide⟩⟩

/-- A parameter of the endpoint takes up the document. -/
theorem document_lost :
    ¬ ∀ (endpoint : Text) (name : Option Text) (e : Endpoints) (document : Text),
      Endpoints.resolve endpoint name = .ok e → ¬ HasQuery endpoint →
      Arrives endpoint (queryUrl e.graphql document) document := by
  intro h
  have harrives := h "https://example.com/graphql?lang=en" (some "my-repo") _ "query" rfl
    (by unfold HasQuery; decide)
  have hurl : parameters (queryUrl "https://example.com/graphql?lang=en" "query") =
      ["lang=en?query=query"] := by
    decide
  obtain ⟨parameter, hquery, -⟩ := harrives.query
  rw [hurl] at hquery
  cases hquery

end FieldSearch.Repository
