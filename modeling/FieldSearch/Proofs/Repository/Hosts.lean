import FieldSearch.Proofs.Text.Spans
import FieldSearch.Repository.Endpoint
import Mathlib.Data.List.Infix

/-!
# Hosts of endpoints

The delivery host of a repository is its label in front of a hosted domain. What stands for the
repository goes into the URLs as it is, so the host is that one exactly when the text is a label
after its user information. Any other text ends the host early, and then the access token goes to a
host that the text itself names.
-/

namespace FieldSearch.Repository

open Transport (afterScheme?)

/-! ## The host of a URL -/

def endsAuthority (c : Char) : Bool := c = '/' || c = '?' || c = '#'

def afterMark : Text → Text
  | ':' :: '/' :: '/' :: rest => rest
  | _ :: rest => afterMark rest
  | [] => []

/-- The text after the last `@`. -/
def withoutUser (text : Text) : Text := (text.reverse.takeWhile (· ≠ '@')).reverse

/-- The host that a text begins with: up to what ends it, without user information and port. -/
def hostPart (text : Text) : Text :=
  (withoutUser (text.takeWhile (!endsAuthority ·))).takeWhile (· ≠ ':')

/-- The host of a URL, after its `://`. -/
def hostOf (url : Text) : Text := hostPart (afterMark url)

/-- The text ends a host in whose place it stands. -/
def endsHost (text : Text) : Bool := text.any endsAuthority || ':' ∈ withoutUser text

def IsLabel (text : Text) : Prop := text ≠ [] ∧ '.' ∉ text

def IsDeliveryHost (host : Text) : Prop :=
  ∃ label domain, IsLabel label ∧ domain ∈ hostedDomains ∧ host = label ++ (".cdn." ++ domain)

/-- Nothing in the text divides the parts of an authority. -/
def IsInner (text : Text) : Prop := ∀ c ∈ text, endsAuthority c = false ∧ c ≠ '@' ∧ c ≠ ':'

-- over the members of the text: characters are finitely many, and all of them are too many to try
instance (text : Text) : Decidable (IsInner text) := List.decidableBAll _ text

section

variable {text tail : Text}

theorem withoutUser_append (h : IsInner tail) :
    withoutUser (text ++ tail) = withoutUser text ++ tail := by
  have hall : ∀ c ∈ tail.reverse, decide (c ≠ '@') = true := by
    intro c hc
    exact decide_eq_true (h c (List.mem_reverse.mp hc)).2.1
  rw [withoutUser, List.reverse_append, List.takeWhile_append_of_pos hall, List.reverse_append,
    List.reverse_reverse]
  rfl

/-- The text in front of the rest of a host either ends the host or begins it. -/
theorem hostPart_append (h : IsInner tail) (path : Text) :
    hostPart (text ++ tail ++ '/' :: path) =
      if endsHost text then hostPart text else hostPart text ++ tail := by
  by_cases hends : ∃ c ∈ text, endsAuthority c = true
  · have hhost : endsHost text = true := by
      simp only [endsHost, Bool.or_eq_true, List.any_eq_true]
      exact Or.inl hends
    obtain ⟨c, hc, hslash⟩ := hends
    have hcut : ∃ c ∈ text, (!endsAuthority c) = false := ⟨c, hc, by simp [hslash]⟩
    rw [hhost, if_pos rfl, hostPart, List.append_assoc, takeWhile_append_of_mem hcut]
    rfl
  · have hplain : ∀ c ∈ text, (!endsAuthority c) = true := by
      intro c hc
      simpa using fun hslash => hends ⟨c, hc, hslash⟩
    have hauthority : ∀ c ∈ text ++ tail, (!endsAuthority c) = true := by
      intro c hc
      rcases List.mem_append.mp hc with hc | hc
      · exact hplain c hc
      · simp [(h c hc).1]
    have hslash : ∀ c ∈ ('/' :: path).head?, (!endsAuthority c) = false := by
      intro c hc
      cases hc
      rfl
    rw [hostPart, takeWhile_append_stop hauthority hslash, withoutUser_append h, hostPart,
      List.takeWhile_eq_self_iff.mpr hplain]
    by_cases hcolon : ':' ∈ withoutUser text
    · have hcut : ∃ c ∈ withoutUser text, decide (c ≠ ':') = false := ⟨':', hcolon, by decide⟩
      rw [endsHost, decide_eq_true hcolon, Bool.or_true, if_pos rfl, takeWhile_append_of_mem hcut]
    · have hany : text.any endsAuthority = false := by
        simpa using fun c hc => by simpa using hplain c hc
      have huser : ∀ c ∈ withoutUser text, decide (c ≠ ':') = true := by
        intro c hc
        exact decide_eq_true fun hce => hcolon (hce ▸ hc)
      have htail : ∀ c ∈ tail, decide (c ≠ ':') = true := fun c hc => decide_eq_true (h c hc).2.2
      rw [endsHost, hany, decide_eq_false hcolon, Bool.or_false, if_neg Bool.false_ne_true,
        List.takeWhile_append_of_pos huser, List.takeWhile_eq_self_iff.mpr huser,
        List.takeWhile_eq_self_iff.mpr htail]

end

theorem mem_of_mem_hostPart {c : Char} {text : Text} (h : c ∈ hostPart text) : c ∈ text := by
  have huser : c ∈ withoutUser (text.takeWhile (!endsAuthority ·)) := List.takeWhile_subset _ h
  have hauthority : c ∈ text.takeWhile (!endsAuthority ·) :=
    List.mem_reverse.mp (List.takeWhile_subset _ (List.mem_reverse.mp huser))
  exact List.takeWhile_subset _ hauthority

/-! ## Delivery hosts -/

theorem isInner_hosted : ∀ domain ∈ hostedDomains,
    IsInner ("." ++ domain) ∧ IsInner (".cdn." ++ domain) := by
  decide

theorem afterMark_https (rest : Text) : afterMark ("https://" ++ rest) = rest := rfl

theorem hostOf_base {h : Host} (hdomain : h.domain ∈ hostedDomains) (path : Text) :
    hostOf (h.base ++ '/' :: path) =
      if endsHost h.label then hostPart h.label
      else hostPart h.label ++ (".cdn." ++ h.domain) := by
  have hbase : h.base ++ '/' :: path =
      "https://" ++ (h.label ++ (".cdn." ++ h.domain) ++ '/' :: path) := by
    unfold Host.base
    simp only [List.append_assoc]
  rw [hostOf, hbase, afterMark_https, hostPart_append (isInner_hosted h.domain hdomain).2]

theorem count_hosted : ∀ domain ∈ hostedDomains, domain.count '.' = 1 := by
  decide +kernel

theorem isDeliveryHost_append_iff {text domain : Text} (hdomain : domain ∈ hostedDomains) :
    IsDeliveryHost (text ++ (".cdn." ++ domain)) ↔ IsLabel text := by
  constructor
  · intro h
    obtain ⟨label, domain', ⟨hne, hlabel⟩, hdomain', heq⟩ := h
    have hcount := congrArg (List.count '.') heq
    simp only [List.count_append, count_hosted domain hdomain, count_hosted domain' hdomain',
      List.count_eq_zero.mpr hlabel] at hcount
    have htext : '.' ∉ text := List.count_eq_zero.mp (by omega)
    -- both texts are cut at their first point
    have hcut : Text.cut '.' (text ++ '.' :: ("cdn." ++ domain)) =
        Text.cut '.' (label ++ '.' :: ("cdn." ++ domain')) := congrArg (Text.cut '.') heq
    rw [Text.cut_append htext, Text.cut_append hlabel] at hcut
    cases hcut
    exact ⟨hne, hlabel⟩
  · intro h
    exact ⟨text, domain, h, hdomain, rfl⟩

theorem IsDeliveryHost.point {host : Text} (h : IsDeliveryHost host) : '.' ∈ host := by
  obtain ⟨label, domain, -, -, rfl⟩ := h
  exact List.mem_append_right _ (List.mem_cons_self ..)

/-! ## Endpoints -/

def schemes : List Text := ["https://", "http://"]

/-- What may stand between a label and its domain. -/
def deliveryMarks : List Text := [[], "cdn."]

def Host.spelling (h : Host) (scheme mark suffix : Text) : Text :=
  scheme ++ (h.label ++ '.' :: (mark ++ (h.domain ++ "/graphql" ++ suffix)))

theorem afterScheme?_append (rest : Text) :
    ∀ scheme ∈ schemes, afterScheme? (scheme ++ rest) = some rest := by
  simp only [schemes, List.forall_mem_cons]
  exact ⟨rfl, rfl, nofun⟩

theorem afterMark_append (rest : Text) :
    ∀ scheme ∈ schemes, afterMark (scheme ++ rest) = rest := by
  simp only [schemes, List.forall_mem_cons]
  exact ⟨rfl, rfl, nofun⟩

theorem exists_scheme {address rest : Text} (h : afterScheme? address = some rest) :
    ∃ scheme ∈ schemes, address = scheme ++ rest := by
  unfold afterScheme? at h
  cases hs : List.isPrefixOf? ("https://" : Text) address with
  | some after =>
    rw [hs] at h
    cases h
    exact ⟨"https://", by decide, (List.isPrefixOf?_eq_some_iff_append_eq.mp hs).symm⟩
  | none =>
    rw [hs] at h
    exact ⟨"http://", by decide, (List.isPrefixOf?_eq_some_iff_append_eq.mp h).symm⟩

theorem stripPrefix_mark (rest : Text) : ∀ mark ∈ deliveryMarks, ∀ domain ∈ hostedDomains,
    Text.stripPrefix (mark ++ (domain ++ rest)) "cdn." = domain ++ rest := by
  simp only [deliveryMarks, hostedDomains, List.forall_mem_cons]
  exact ⟨⟨rfl, rfl, rfl, nofun⟩, ⟨rfl, rfl, rfl, nofun⟩, nofun⟩

theorem exists_mark (rest : Text) :
    ∃ mark ∈ deliveryMarks, rest = mark ++ rest.stripPrefix "cdn." := by
  unfold Text.stripPrefix
  cases hcdn : List.isPrefixOf? ("cdn." : Text) rest with
  | none => exact ⟨[], by decide, rfl⟩
  | some after => exact ⟨"cdn.", by decide, (List.isPrefixOf?_eq_some_iff_append_eq.mp hcdn).symm⟩

theorem find?_hosted (suffix : Text) : ∀ domain ∈ hostedDomains,
    hostedDomains.find? (fun d => List.isPrefixOf (d ++ "/graphql" : Text)
      (domain ++ "/graphql" ++ suffix)) = some domain := by
  simp only [hostedDomains, List.forall_mem_cons]
  exact ⟨rfl, rfl, rfl, nofun⟩

theorem ofEndpoint?_spelling {h : Host} (hlabel : IsLabel h.label)
    (hdomain : h.domain ∈ hostedDomains) {scheme mark : Text} (hscheme : scheme ∈ schemes)
    (hmark : mark ∈ deliveryMarks) (suffix : Text) :
    Host.ofEndpoint? (h.spelling scheme mark suffix) = some h := by
  unfold Host.ofEndpoint? Host.spelling
  rw [afterScheme?_append _ scheme hscheme]
  simp only [Option.bind_eq_bind, Option.bind_some]
  rw [Text.cut_append hlabel.2]
  simp only [Option.bind_some, List.isEmpty_iff, hlabel.1, if_false]
  rw [List.append_assoc, stripPrefix_mark _ mark hmark _ hdomain, ← List.append_assoc,
    find?_hosted suffix _ hdomain]
  rfl

/-- The recognised endpoints are the spellings of hosts, and each of them spells one host only. -/
theorem ofEndpoint?_eq_some_iff {endpoint : Text} {h : Host} :
    Host.ofEndpoint? endpoint = some h ↔
      (IsLabel h.label ∧ h.domain ∈ hostedDomains) ∧
        ∃ scheme ∈ schemes, ∃ mark ∈ deliveryMarks, ∃ suffix,
          endpoint = h.spelling scheme mark suffix := by
  constructor
  · intro hhost
    obtain ⟨address, haddress, hparts⟩ := Option.bind_eq_some_iff.mp hhost
    obtain ⟨⟨label, rest⟩, hcut, hlabelled⟩ := Option.bind_eq_some_iff.mp hparts
    obtain ⟨scheme, hscheme, rfl⟩ := exists_scheme haddress
    obtain ⟨rfl, hpoint⟩ := Text.eq_of_cut hcut
    by_cases hlabel : label = []
    · simp [hlabel] at hlabelled
    · simp only [List.isEmpty_iff, hlabel, if_false] at hlabelled
      obtain ⟨domain, hfind, heq⟩ := Option.bind_eq_some_iff.mp hlabelled
      cases heq
      have hbegins := List.find?_some hfind
      obtain ⟨suffix, hsuffix⟩ := List.isPrefixOf_iff_prefix.mp hbegins
      obtain ⟨mark, hmark, hrest⟩ := exists_mark rest
      refine ⟨⟨⟨hlabel, hpoint⟩, List.mem_of_find?_eq_some hfind⟩, scheme, hscheme, mark, hmark,
        suffix, ?_⟩
      rw [Host.spelling, hsuffix, ← hrest]
  · rintro ⟨⟨hlabel, hdomain⟩, scheme, hscheme, mark, hmark, suffix, rfl⟩
    exact ofEndpoint?_spelling hlabel hdomain hscheme hmark suffix

/-- What a hosted endpoint looks like. -/
structure IsHosted (endpoint : Text) (h : Host) : Prop where
  label_ne : h.label ≠ []
  label_point : '.' ∉ h.label
  domain_mem : h.domain ∈ hostedDomains
  hostOf_eq : ∃ path : Text,
    hostOf endpoint = hostPart (h.label ++ ("." ++ h.domain) ++ '/' :: path) ∨
      hostOf endpoint = hostPart (h.label ++ (".cdn." ++ h.domain) ++ '/' :: path)

theorem isHosted_of_ofEndpoint? {endpoint : Text} {h : Host}
    (hhost : Host.ofEndpoint? endpoint = some h) : IsHosted endpoint h := by
  obtain ⟨⟨hlabel, hdomain⟩, scheme, hscheme, mark, hmark, suffix, rfl⟩ :=
    ofEndpoint?_eq_some_iff.mp hhost
  refine ⟨hlabel.1, hlabel.2, hdomain, "graphql" ++ suffix, ?_⟩
  rw [hostOf, Host.spelling, afterMark_append _ scheme hscheme]
  simp only [deliveryMarks, List.mem_cons, List.not_mem_nil, or_false] at hmark
  obtain rfl | rfl := hmark
  · left
    simp only [List.append_assoc]
    rfl
  · right
    simp only [List.append_assoc]
    rfl

theorem IsHosted.hostOf_cases {endpoint : Text} {h : Host} (hhosted : IsHosted endpoint h) :
    (endsHost h.label = false → hostOf endpoint = hostPart h.label ++ ("." ++ h.domain) ∨
      hostOf endpoint = hostPart h.label ++ (".cdn." ++ h.domain)) ∧
    (endsHost h.label = true → hostOf endpoint = hostPart h.label) := by
  have hinner := isInner_hosted h.domain hhosted.domain_mem
  obtain ⟨path, heq⟩ := hhosted.hostOf_eq
  rw [hostPart_append hinner.1, hostPart_append hinner.2] at heq
  constructor
  · intro hends
    simpa [hends] using heq
  · intro hends
    simpa [hends] using heq

/-- **The host of a repository.** A hosted endpoint and its descriptor share the delivery host of one
label exactly when the text in front of the domain is that label, perhaps after user information. Else
the descriptor is on the endpoint's own host, which has no point in it, or there is no label at all.
Of an endpoint that is not hosted, the given name decides in the same way. -/
theorem delivery_host_iff (endpoint : Text) (name : Option Text) (e : Endpoints)
    (h : Endpoints.resolve endpoint name = .ok e) :
    (∀ host, Host.ofEndpoint? endpoint = some host →
      host.domain ∈ hostedDomains ∧ hostOf e.graphql = hostOf e.descriptor ∧
      (IsDeliveryHost (hostOf e.descriptor) ↔
        endsHost host.label = false ∧ hostPart host.label ≠ []) ∧
      (endsHost host.label = false →
        hostOf e.descriptor = hostPart host.label ++ (".cdn." ++ host.domain) ∧
        (hostOf endpoint = hostPart host.label ++ ("." ++ host.domain) ∨
          hostOf endpoint = hostPart host.label ++ (".cdn." ++ host.domain))) ∧
      (endsHost host.label = true →
        hostOf e.descriptor = hostOf endpoint ∧ '.' ∉ hostOf endpoint)) ∧
    (Host.ofEndpoint? endpoint = none → ∃ text, name = some text ∧ text ≠ [] ∧
      e.graphql = endpoint ∧
      (endsHost text = false → hostOf e.descriptor = hostPart text ++ ".cdn.prismic.io" ∧
        (IsDeliveryHost (hostOf e.descriptor) ↔ IsLabel (hostPart text))) ∧
      (endsHost text = true → hostOf e.descriptor = hostPart text)) := by
  unfold Endpoints.resolve at h
  constructor
  · intro host hhost
    rw [hhost] at h
    cases h
    have hhosted := isHosted_of_ofEndpoint? hhost
    have hdomain := hhosted.domain_mem
    have hdescriptor := hostOf_base hdomain "api"
    have hgraphql : hostOf (host.base ++ "/graphql") = hostOf (descriptorUrl host.base) :=
      (hostOf_base hdomain "graphql").trans hdescriptor.symm
    have hpoint : '.' ∉ hostPart host.label :=
      fun hmem => hhosted.label_point (mem_of_mem_hostPart hmem)
    refine ⟨hdomain, hgraphql, ?_, fun hends => ⟨?_, hhosted.hostOf_cases.1 hends⟩, fun hends => ?_⟩
    · rw [descriptorUrl, show ("/api" : Text) = '/' :: "api" from rfl, hdescriptor]
      by_cases hends : endsHost host.label = true
      · rw [if_pos hends, hends]
        exact iff_of_false (fun hhost => hpoint hhost.point) fun hand => nomatch hand.1
      · rw [if_neg hends, isDeliveryHost_append_iff hdomain]
        exact ⟨fun hlabel => ⟨by simpa using hends, hlabel.1⟩, fun hand => ⟨hand.2, hpoint⟩⟩
    · exact hdescriptor.trans (by rw [hends]; rfl)
    · rw [hhosted.hostOf_cases.2 hends]
      exact ⟨hdescriptor.trans (by rw [hends]; rfl), hpoint⟩
  · intro hnone
    rw [hnone] at h
    cases name with
    | none => cases h
    | some text =>
      cases text with
      | nil => cases h
      | cons c text =>
        cases h
        have hdomain : ("prismic.io" : Text) ∈ hostedDomains := by decide
        have hdescriptor := hostOf_base (h := ⟨c :: text, "prismic.io"⟩) hdomain "api"
        refine ⟨c :: text, rfl, List.cons_ne_nil c text, rfl, fun hends => ?_, fun hends => ?_⟩
        · have hhost : hostOf (descriptorUrl (Host.base ⟨c :: text, "prismic.io"⟩)) =
              hostPart (c :: text) ++ (".cdn." ++ "prismic.io") :=
            hdescriptor.trans (by rw [hends]; rfl)
          exact ⟨hhost, by rw [hhost]; exact isDeliveryHost_append_iff hdomain⟩
        · exact hdescriptor.trans (by rw [hends]; rfl)

/-- The label of a repository after user information, on a delivery host already. -/
theorem delivery_host_iff_user :
    Endpoints.resolve "http://user@my-repo.cdn.wroom.io/graphql/v2" (some "other") =
      .ok ⟨"https://user@my-repo.cdn.wroom.io/api", "https://user@my-repo.cdn.wroom.io/graphql"⟩ ∧
    IsDeliveryHost (hostOf "https://user@my-repo.cdn.wroom.io/api") := by
  have hresolve : Endpoints.resolve "http://user@my-repo.cdn.wroom.io/graphql/v2" (some "other") =
      .ok ⟨"https://user@my-repo.cdn.wroom.io/api",
        "https://user@my-repo.cdn.wroom.io/graphql"⟩ := by rfl
  have hhost : Host.ofEndpoint? "http://user@my-repo.cdn.wroom.io/graphql/v2" =
      some ⟨"user@my-repo", "wroom.io"⟩ := by rfl
  obtain ⟨-, -, hiff, -, -⟩ := (delivery_host_iff _ _ _ hresolve).1 _ hhost
  exact ⟨hresolve, hiff.mpr ⟨by decide, by decide⟩⟩

/-- A proxy without a point in its name is taken for a part of the label. -/
theorem delivery_host_missed :
    ¬ ∀ (endpoint : Text) (name : Option Text) (e : Endpoints),
      Endpoints.resolve endpoint name = .ok e → IsDeliveryHost (hostOf e.descriptor) := by
  intro h
  have hhost : IsDeliveryHost (hostOf "https://proxy/my-repo.cdn.prismic.io/api") :=
    h "https://proxy/my-repo.prismic.io/graphql" (some "my-repo") _ rfl
  exact absurd hhost.point (by decide)

end FieldSearch.Repository
