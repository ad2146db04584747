import FieldSearch.Proofs.Repository.Hosts

/-!
# Normal endpoints

Every spelling of a hosted endpoint, with either scheme, on its own host or on the delivery host and
with anything behind its path, resolves to the two URLs of the repository's delivery host. One of
these is a spelling of the same host again, so resolving it changes nothing. Any other endpoint is
kept as it is, and needs a name.
-/

namespace FieldSearch.Repository

def Host.endpoints (h : Host) : Endpoints := ⟨descriptorUrl h.base, h.base ++ "/graphql"⟩

theorem resolve_of_hosted {endpoint : Text} {h : Host} (hhost : Host.ofEndpoint? endpoint = some h)
    (name : Option Text) : Endpoints.resolve endpoint name = .ok h.endpoints := by
  unfold Endpoints.resolve
  rw [hhost]
  rfl

/-- The delivery host is a spelling of the host that it delivers. -/
theorem graphql_endpoints (h : Host) :
    h.endpoints.graphql = h.spelling "https://" "cdn." [] := by
  have hdelivery : (".cdn." : Text) = '.' :: ("cdn." : Text) := rfl
  unfold Host.endpoints Host.base Host.spelling
  simp only [hdelivery, List.append_nil, List.append_assoc, List.cons_append]

theorem ofEndpoint?_graphql {endpoint : Text} {h : Host}
    (hhost : Host.ofEndpoint? endpoint = some h) :
    Host.ofEndpoint? h.endpoints.graphql = some h := by
  obtain ⟨⟨hlabel, hdomain⟩, -⟩ := ofEndpoint?_eq_some_iff.mp hhost
  rw [graphql_endpoints]
  exact ofEndpoint?_spelling hlabel hdomain (by decide) (by decide) []

theorem resolve_of_custom {endpoint : Text} (hcustom : Host.ofEndpoint? endpoint = none)
    (name : Option Text) :
    (name.getD [] = [] ∧
      Endpoints.resolve endpoint name = .error (.of (.configuration nameRequired))) ∨
    ∃ text, text ≠ [] ∧ name = some text ∧
      Endpoints.resolve endpoint name =
        .ok ⟨descriptorUrl (Host.base ⟨text, "prismic.io"⟩), endpoint⟩ := by
  unfold Endpoints.resolve
  rw [hcustom]
  cases name with
  | none => exact .inl ⟨rfl, rfl⟩
  | some text =>
    cases text with
    | nil => exact .inl ⟨rfl, rfl⟩
    | cons c text => exact .inr ⟨c :: text, List.cons_ne_nil c text, rfl, rfl⟩

/-- **Normal endpoints.** All spellings of one host resolve to the two URLs of its delivery host,
whatever name is given along, and an endpoint is recognised exactly if it is a spelling, of one host
only. Resolving the GraphQL URL of a recognised endpoint gives the same two URLs again. An endpoint
that is not recognised keeps its GraphQL URL and is accepted exactly if a name is given that is not
empty. -/
theorem resolution_converges :
    (∀ (label domain : Text), IsLabel label → domain ∈ hostedDomains →
      ∀ scheme ∈ schemes, ∀ mark ∈ deliveryMarks, ∀ (suffix : Text) (name : Option Text),
        Endpoints.resolve (Host.spelling ⟨label, domain⟩ scheme mark suffix) name =
          .ok ⟨"https://" ++ label ++ ".cdn." ++ domain ++ "/api",
            "https://" ++ label ++ ".cdn." ++ domain ++ "/graphql"⟩) ∧
    (∀ endpoint h, Host.ofEndpoint? endpoint = some h ↔
      (IsLabel h.label ∧ h.domain ∈ hostedDomains) ∧
        ∃ scheme ∈ schemes, ∃ mark ∈ deliveryMarks, ∃ suffix,
          endpoint = h.spelling scheme mark suffix) ∧
    (∀ endpoint, (Host.ofEndpoint? endpoint).isSome = true → ∃ e,
      (∀ name, Endpoints.resolve endpoint name = .ok e) ∧
      ∀ name, Endpoints.resolve e.graphql name = .ok e) ∧
    ∀ endpoint, Host.ofEndpoint? endpoint = none → ∀ name : Option Text,
      (∀ e, Endpoints.resolve endpoint name = .ok e → e.graphql = endpoint) ∧
      ((∃ e, Endpoints.resolve endpoint name = .ok e) ↔ ∃ text, name = some text ∧ text ≠ []) := by
  refine ⟨?_, fun endpoint h => ofEndpoint?_eq_some_iff, ?_, ?_⟩
  · intro label domain hlabel hdomain scheme hscheme mark hmark suffix name
    have hhost : Host.ofEndpoint? (Host.spelling ⟨label, domain⟩ scheme mark suffix) =
        some ⟨label, domain⟩ := ofEndpoint?_spelling hlabel hdomain hscheme hmark suffix
    exact resolve_of_hosted hhost name
  · intro endpoint hhosted
    obtain ⟨h, hhost⟩ := Option.isSome_iff_exists.mp hhosted
    exact ⟨h.endpoints, resolve_of_hosted hhost, resolve_of_hosted (ofEndpoint?_graphql hhost)⟩
  · intro endpoint hcustom name
    obtain ⟨hempty, hresolve⟩ | ⟨text, hne, rfl, hresolve⟩ := resolve_of_custom hcustom name
    · rw [hresolve]
      refine ⟨nofun, iff_of_false nofun ?_⟩
      rintro ⟨text, rfl, hne⟩
      exact hne hempty
    · rw [hresolve]
      refine ⟨?_, iff_of_true ⟨_, rfl⟩ ⟨text, rfl, hne⟩⟩
      intro e he
      cases he
      rfl

/-- A repository named like the delivery label, on its own host and on its delivery host; and an
endpoint without a label, which needs a name. -/
theorem resolution_converges_cdn :
    let e : Endpoints :=
      ⟨"https://cdn.cdn.wroom.test/api", "https://cdn.cdn.wroom.test/graphql"⟩
    Endpoints.resolve "http://cdn.wroom.test/graphql?a=b" (some "other") = .ok e ∧
      Endpoints.resolve "https://cdn.cdn.wroom.test/graphql/" none = .ok e ∧
      (∃ e', Endpoints.resolve "http://cdn.wroom.test/graphql?a=b" none = .ok e' ∧
        Endpoints.resolve e'.graphql none = .ok e') ∧
      ¬ ∃ e', Endpoints.resolve "https://.prismic.io/graphql" (some []) = .ok e' := by
  intro e
  obtain ⟨hspelled, -, hagain, hcustom⟩ := resolution_converges
  have hlabel : IsLabel "cdn" := by unfold IsLabel; decide
  have hdomain : ("wroom.test" : Text) ∈ hostedDomains := by decide
  obtain ⟨e', hresolve, hsame⟩ := hagain "http://cdn.wroom.test/graphql?a=b" rfl
  refine ⟨hspelled "cdn" _ hlabel hdomain "http://" (by decide) [] (by decide) "?a=b" _,
    hspelled "cdn" _ hlabel hdomain "https://" (by decide) "cdn." (by decide) "/" _,
    ⟨e', hresolve none, hsame none⟩, ?_⟩
  intro haccepted
  obtain ⟨text, htext, hne⟩ := (hcustom "https://.prismic.io/graphql" rfl (some [])).2.mp haccepted
  exact hne (Option.some.inj htext).symm

end FieldSearch.Repository
