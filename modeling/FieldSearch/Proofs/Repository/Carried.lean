import FieldSearch.Proofs.Entries
import FieldSearch.Proofs.Reading
import FieldSearch.Proofs.Repository.Shapes

/-!
# What a GraphQL request carries

A request of a query names the master ref of the descriptor, the integration ref if the descriptor
has one, and the access token if there is one. A request that could be written has each of them as
the text that it is.
-/

namespace FieldSearch.Repository

open Transport

/-- The first ref that is marked as the master ref has this reference, which is not empty. -/
def IsMaster (descriptor : Entries Json) (reference : Text) : Prop :=
  reference ≠ [] ∧ ∃ before ref after,
    Entries.get? "refs" descriptor = some (.array (before ++ ref :: after)) ∧
    (∀ other ∈ before, ¬ IsMarked other) ∧ IsMarked ref ∧ ref.member? "ref" = some (.text reference)

/-- The request of a query as its document, the descriptor and the token ask for it; an empty token
is none. -/
structure Carries (endpoints : Endpoints) (token : Option Text) (descriptor : Entries Json)
    (document : Text) (w : Wire) : Prop where
  url : w.url = queryUrl endpoints.graphql document
  names : (Entries.keys w.headers).Nodup
  master : ∃ reference, IsMaster descriptor reference ∧
    Entries.get? "prismic-ref" w.headers = some reference
  integration : (Entries.get? "prismic-integration-field-ref" w.headers).map Json.text =
    (Entries.get? "integrationFieldRef" descriptor).filter Json.isTruthy
  token : Entries.get? "authorization" w.headers =
    (token.filter (· ≠ [])).map fun t : Text => "Token " ++ t

/-! ## The master ref -/

theorem masterRef?_eq_some {items : List Json} {ref : Json}
    (h : Client.masterRef? items = .ok (some ref)) :
    ∃ before after, items = before ++ ref :: after ∧ (∀ other ∈ before, ¬ IsMarked other) ∧
      IsMarked ref := by
  induction items with
  | nil => cases h
  | cons item rest ih =>
    rw [Client.masterRef?] at h
    cases item with
    | object members =>
      simp only [Json.lookup, bind, Except.bind, pure, Except.pure] at h
      split at h
      · rename_i hmark
        cases h
        exact ⟨[], rest, rfl, List.forall_mem_nil _, isMarked_object.mpr hmark⟩
      · rename_i hmark
        obtain ⟨before, after, rfl, hbefore, hmarked⟩ := ih h
        refine ⟨.object members :: before, after, rfl, ?_, hmarked⟩
        exact List.forall_mem_cons.mpr ⟨mt isMarked_object.mp hmark, hbefore⟩
    | _ => cases h

theorem refs_eq_ok {descriptor : Entries Json} {items : List Json} (hfit : RefsFit descriptor)
    (h : Client.refs descriptor = .ok items) (hitems : items ≠ []) :
    Entries.get? "refs" descriptor = some (.array items) := by
  unfold Client.refs at h
  cases hrefs : Entries.get? "refs" descriptor with
  | none => rw [hrefs] at h; cases h; exact absurd rfl hitems
  | some refs =>
    rw [hrefs] at h
    by_cases htruthy : refs.isTruthy = true
    · obtain ⟨items', rfl, -⟩ := hfit refs hrefs htruthy
      simp only [Option.getD_some, htruthy, if_true] at h
      cases h
      rfl
    · simp only [Option.getD_some, htruthy] at h
      cases h
      exact absurd rfl hitems

theorem masterReference_eq_some {descriptor : Entries Json} {reference : Json}
    (h : Client.masterReference descriptor = .ok (some reference)) :
    reference.isTruthy = true ∧ ∃ before ref after,
      Entries.get? "refs" descriptor = some (.array (before ++ ref :: after)) ∧
      (∀ other ∈ before, ¬ IsMarked other) ∧ IsMarked ref ∧ ref.member? "ref" = some reference := by
  have hfit : RefsFit descriptor := masterReference_isOk.mp ⟨_, h⟩
  obtain ⟨items, hitems, hread⟩ := bind_eq_ok h
  obtain ⟨found, hfound, hrest⟩ := bind_eq_ok hread
  cases found with
  | none => cases hrest
  | some ref =>
    obtain ⟨members, rfl⟩ := masterRef?_object hfound
    obtain ⟨before, after, rfl, hbefore, hmarked⟩ := masterRef?_eq_some hfound
    have hrefs := refs_eq_ok hfit hitems (by simp)
    obtain ⟨value, hlookup, hvalue⟩ := bind_eq_ok hrest
    obtain rfl : (Entries.get? "ref" members).getD .null = value := Except.ok.inj hlookup
    obtain ⟨htruthy, hvalue⟩ := Option.ite_none_right_eq_some.mp (Except.ok.inj hvalue)
    obtain rfl := Option.some.inj hvalue
    have hmember : Entries.get? "ref" members =
        some ((Entries.get? "ref" members).getD .null) := by
      cases hget : Entries.get? "ref" members with
      | none => rw [hget] at htruthy; cases htruthy
      | some value => rfl
    exact ⟨htruthy, before, .object members, after, hrefs, hbefore, hmarked, hmember⟩

theorem isMaster_of_masterReference {descriptor : Entries Json} {reference : Text}
    (h : Client.masterReference descriptor = .ok (some (.text reference))) :
    IsMaster descriptor reference := by
  obtain ⟨htruthy, hmaster⟩ := masterReference_eq_some h
  refine ⟨?_, hmaster⟩
  rintro rfl
  cases htruthy

/-! ## Headers on the wire -/

theorem headerValue_eq_ok {value : Json} {t : Text} (h : headerValue value = .ok t) :
    value = .text t := by
  cases value with
  | text t' =>
    rw [headerValue] at h
    split at h
    · rw [Except.ok.inj h]
    · cases h
  | _ => cases h

theorem headerEntries_eq_ok {entries : Entries Json} {headers : Entries Text}
    (h : headerEntries entries = .ok headers) :
    entries.map (fun entry => (entry.1.map Char.toLower, entry.2)) =
      headers.map fun header => (header.1, Json.text header.2) := by
  induction entries generalizing headers with
  | nil => cases h; rfl
  | cons entry rest ih =>
    obtain ⟨value, hvalue, h⟩ := bind_eq_ok h
    obtain ⟨headers', hrest, h⟩ := bind_eq_ok h
    cases h
    rw [List.map_cons, List.map_cons, ih hrest, headerValue_eq_ok hvalue]

theorem get?_map (name : Text) (headers : Entries Text) :
    Entries.get? name (headers.map fun header => (header.1, Json.text header.2)) =
      (Entries.get? name headers).map Json.text := by
  induction headers with
  | nil => rfl
  | cons header rest ih =>
    rw [List.map_cons, Entries.get?, Entries.get?, ih]
    split <;> rfl

theorem integrationHeader_eq (descriptor : Entries Json) :
    Client.integrationHeader descriptor =
      (((Entries.get? "integrationFieldRef" descriptor).filter Json.isTruthy).map
        (("Prismic-integration-field-ref" : Text), ·)).toList := by
  unfold Client.integrationHeader
  cases Entries.get? "integrationFieldRef" descriptor with
  | none => rfl
  | some ref =>
    rw [Option.filter_some]
    dsimp only
    split <;> rfl

theorem token?_eq {α : Type} (c : Client α) : c.token? = c.token.filter (· ≠ []) := by
  rw [Client.token?]
  cases c.token with
  | none => rfl
  | some t => cases t <;> rfl

/-- The own headers of a request by their names on the wire. -/
theorem own_headers (reference : Json) (integration : Option Json) (token : Option Text) :
    let own := ((("Prismic-ref" : Text), reference) ::
      (integration.map (("Prismic-integration-field-ref" : Text), ·)).toList ++
        Client.tokenHeader token).map fun entry => (entry.1.map Char.toLower, entry.2)
    (Entries.keys own).Nodup ∧ Entries.get? "prismic-ref" own = some reference ∧
      Entries.get? "prismic-integration-field-ref" own = integration ∧
      Entries.get? "authorization" own = token.map fun t : Text => .text ("Token " ++ t) := by
  have hnodup : (["prismic-ref", "prismic-integration-field-ref", "authorization"] : List Text).Nodup :=
    by decide
  cases integration with
  | none =>
    cases token with
    | none => exact ⟨List.nodup_singleton _, rfl, rfl, rfl⟩
    | some t => exact ⟨hnodup.sublist (.cons_cons _ (.cons _ (.refl _))), rfl, rfl, rfl⟩
  | some ref =>
    cases token with
    | none => exact ⟨hnodup.sublist (.cons_cons _ (.cons_cons _ (.cons _ (.refl _)))), rfl, rfl, rfl⟩
    | some t => exact ⟨hnodup, rfl, rfl, rfl⟩

/-- The headers of every request, by their names on the wire. -/
def commonHeaders : Entries Text :=
  [("user-agent", "prismic-search-mcp/0.1"), ("accept", "application/json")]

theorem wire_eq_ok {α : Type} {c : Client α} {url : Text} {own : Entries Json} {w : Wire}
    (h : c.wire url own = .ok w) :
    w.url = url ∧ ∃ headers, headerEntries own = .ok headers ∧
      w.headers = Entries.update commonHeaders headers := by
  rw [Client.wire, Wire.make] at h
  split at h
  · obtain ⟨merged, hmerged, h⟩ := bind_eq_ok h
    obtain ⟨defaults, hdefaults, hmerged⟩ := bind_eq_ok hmerged
    obtain ⟨headers, hheaders, hmerged⟩ := bind_eq_ok hmerged
    obtain rfl : _ = defaults := Except.ok.inj hdefaults
    cases h
    exact ⟨rfl, headers, hheaders, (Except.ok.inj hmerged).symm⟩
  · cases h

/-- A query that could be written carries what its descriptor and the token ask for. -/
theorem queryCall_carries {α : Type} {c : Client α} {descriptor headers : Entries Json}
    {document : Text} {w : Wire} (h : c.requestHeaders descriptor = .ok headers)
    (hw : (c.queryCall headers document).wire = .ok w) :
    Carries c.endpoints c.token descriptor document w := by
  obtain ⟨ref, href, rfl⟩ := Client.requestHeaders_eq_ok h
  obtain ⟨hurl, own, hown, hmerged⟩ := wire_eq_ok hw
  obtain ⟨hnodup, hmaster, hintegration, htoken⟩ := own_headers ref
    ((Entries.get? "integrationFieldRef" descriptor).filter Json.isTruthy) c.token?
  have hmap := headerEntries_eq_ok hown
  rw [integrationHeader_eq] at hmap
  rw [hmap] at hnodup hmaster hintegration htoken
  rw [get?_map] at hmaster hintegration htoken
  have hkeys : (Entries.keys own).Nodup := by
    simpa [Entries.keys, Function.comp_def] using hnodup
  have hget : ∀ name : Text, name ∉ Entries.keys commonHeaders →
      Entries.get? name w.headers = Entries.get? name own := by
    intro name hname
    rw [hmerged, Entries.get?_update _ _ hkeys, Entries.get?_eq_none hname, Option.or_none]
  refine ⟨hurl, ?_, ?_, ?_, ?_⟩
  · rw [hmerged]
    exact Entries.nodup_keys_update _ (by decide) own
  · obtain ⟨reference, hreference, rfl⟩ := Option.map_eq_some_iff.mp hmaster
    refine ⟨reference, isMaster_of_masterReference href, ?_⟩
    rw [hget _ (by decide), hreference]
  · rw [hget _ (by decide), hintegration]
  · rw [hget _ (by decide), ← token?_eq]
    refine Option.map_injective (fun _ _ => Json.text.inj) ?_
    rw [htoken, Option.map_map]
    rfl

/-- The request for the descriptor, which carries the token in its address. -/
def descriptorRequest (endpoints : Endpoints) (token : Option Text) : Wire where
  url := endpoints.descriptor ++ match token.filter (· ≠ []) with
    | some t => "?access_token=" ++ Text.formEncode t
    | none => []
  headers := commonHeaders

theorem descriptorCall_eq_ok {α : Type} {c : Client α} {w : Wire}
    (h : c.descriptorCall.wire = .ok w) : w = descriptorRequest c.endpoints c.token := by
  obtain ⟨hurl, headers, hheaders, hmerged⟩ := wire_eq_ok h
  cases hheaders
  rw [Client.descriptorUrl, token?_eq] at hurl
  cases w
  exact congrArg₂ Wire.mk hurl hmerged

end FieldSearch.Repository
