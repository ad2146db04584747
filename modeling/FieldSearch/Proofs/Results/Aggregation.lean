import FieldSearch.GraphQL.Document
import FieldSearch.Proofs.Number.Written
import FieldSearch.Proofs.Query.Binding
import FieldSearch.Proofs.Results.KeyOrder
import FieldSearch.Proofs.Results.Written
import FieldSearch.Proofs.Schema.Response
import Mathlib.Algebra.GroupWithZero.Nat

/-!
# Records of a response

A search lists every type under a root field of its own, and its response is read as a whole: one
record for each edge, in the order of the root fields and of their listings. Else it has the failure
of the first thing that has not the shape of a listing, or of the first edge whose record would
write a whole number of too many digits. The order in which objects name their keys shows only
inside a value that is written.
-/

namespace FieldSearch

open GraphQL

/-! ## Root fields -/

theorem listingName_inj {a b : Text} (ha : filterPrefix <+: a) (hb : filterPrefix <+: b)
    (h : listingName a = listingName b) : a = b := by
  obtain ⟨x, rfl⟩ := ha
  obtain ⟨y, rfl⟩ := hb
  rw [listingName_append, listingName_append] at h
  rw [List.append_cancel_left (List.append_cancel_right h)]

theorem map_type_resolveTypes_sublist (types : List DocumentType) (constraints : Constraints) :
    ((resolveTypes types constraints).map Resolution.type).Sublist types := by
  induction types with
  | nil => exact List.Sublist.slnil
  | cons t types ih =>
    unfold resolveTypes at ih ⊢
    cases h : t.resolve? constraints with
    | none =>
      simp only [List.filterMap_cons, h]
      exact ih.cons t
    | some r =>
      obtain ⟨conditions, -, rfl⟩ := Option.map_eq_some_iff.mp h
      simp only [List.filterMap_cons, h, List.map_cons]
      exact ih.cons_cons t

theorem rootFields_of_ofResolutions {pageSize : GraphQL.Value} {resolved : List Resolution}
    {document : SearchDocument}
    (h : SearchDocument.ofResolutions pageSize resolved = .ok document) :
    document.rootFields = (resolved.map Resolution.type).map DocumentType.name := by
  obtain ⟨-, -, h⟩ := bind_eq_ok h
  cases h
  simp [SearchDocument.rootFields, Selection.ofResolution]

theorem nodup_rootFields {response : Json} {names : List Text} {types : List DocumentType}
    {constraints : Constraints} {pageSize : GraphQL.Value} {document : SearchDocument}
    (hnodup : names.Nodup)
    (hbeginning : ∀ name ∈ names, filterPrefix <+: name)
    (htypes : Schema.documentTypes response names = .ok types)
    (hdocument : SearchDocument.ofResolutions pageSize (resolveTypes types constraints) =
      .ok document) : document.rootFields.Nodup := by
  have hnames : types.map DocumentType.name = names.map listingName := by
    rw [Schema.documentTypes_eq_ok htypes, List.map_map]
    rfl
  have hall : (types.map DocumentType.name).Nodup := by
    rw [hnames]
    apply List.Nodup.map_on _ hnodup
    intro a ha b hb h
    exact listingName_inj (hbeginning a ha) (hbeginning b hb) h
  rw [rootFields_of_ofResolutions hdocument]
  exact ((map_type_resolveTypes_sublist types constraints).map _).nodup hall

namespace Record

open Entries (get?)

/-! ## Listings and their edges -/

/-- The record is that of the node of the edge. -/
inductive Describes : Json → Record → Prop
  | node {edge : Json} {node details : Entries Json} {id : Json} {preview : Preview}
      (hnode : edge.member? "node" = some (.object node))
      (hdetails : get? "_meta" node = some (.object details))
      (hid : get? "id" details = some id)
      (hpreview : Preview.ofJson ((get? "summary" node).getD .null) = .ok preview) :
      Describes edge
        { id := id.asText
          type := ((get? "type" details).getD .null).asTextOrEmpty
          published := (get? "lastPublicationDate" details).getD .null
          preview }

/-- Why an edge under a key has no record. -/
inductive EdgeFault (key : Text) (edge : Json) : Failure → Prop
  | noNode (h : ∀ node, edge.member? "node" ≠ some (.object node)) :
      EdgeFault key edge (malformed (key ++ " has an edge without node"))
  | noId {node : Entries Json} (hnode : edge.member? "node" = some (.object node))
      (hid : ∀ details, get? "_meta" node = some (.object details) → get? "id" details = none) :
      EdgeFault key edge (malformed "node without _meta.id")
  | tooLong {node details : Entries Json} {id : Json}
      (hnode : edge.member? "node" = some (.object node))
      (hdetails : get? "_meta" node = some (.object details))
      (hid : get? "id" details = some id)
      (hlong : ∃ value ∈ writtenValues node details id, value.isWritable = false) :
      EdgeFault key edge (.crash .tooManyDigits)

/-- Why the listing that a response has under a key is not read: it is no listing, or this is the
fault of its first edge that has one. -/
inductive Fault (data : Entries Json) (key : Text) : Failure → Prop
  | listing {listing : Json} (hkey : get? key data = some listing) (hnull : listing ≠ .null)
      (hedges : ∀ edges, listing.member? "edges" ≠ some (.array edges)) :
      Fault data key (malformed (key ++ " is not an edges listing"))
  | edge {listing edge : Json} {before after : List Json} {f : Failure}
      (hkey : get? key data = some listing)
      (hedges : listing.member? "edges" = some (.array (before ++ edge :: after)))
      (hbefore : ∀ e ∈ before, ∀ g, ¬ EdgeFault key e g) (hedge : EdgeFault key edge f) :
      Fault data key f

/-- The fault of the first requested key that has one. -/
def FirstFault (data : Entries Json) (keys : List Text) (f : Failure) : Prop :=
  ∃ earlier key later, keys = earlier ++ key :: later ∧
    (∀ k ∈ earlier, ∀ g, ¬ Fault data k g) ∧ Fault data key f

def edgesOf (listing : Json) : List Json :=
  match listing.member? "edges" with
  | some (.array edges) => edges
  | _ => []

/-- The edges that a response lists under a key; none if the key is missing or null. -/
def edgesUnder (data : Entries Json) (key : Text) : List Json :=
  edgesOf ((get? key data).getD .null)

section

variable {key : Text} {edge : Json} {f : Failure}

theorem EdgeFault.ofEdge_eq (h : EdgeFault key edge f) : ofEdge key edge = .error f := by
  cases h with
  | noNode hnone =>
    unfold ofEdge
    split
    · exact absurd ‹_› (hnone _)
    · rfl
  | @noId node hnode hid =>
    rw [ofEdge, hnode]
    show ofNode node = _
    unfold ofNode
    split
    · rename_i hdetails
      rw [hid _ hdetails]
    · rfl
  | @tooLong node details id hnode hdetails hid hlong =>
    simp only [ofEdge, hnode, ofNode, hdetails, hid]
    rcases ofDetails_cases node details id with ⟨-, -, -, hall⟩ | ⟨herror, -⟩
    · obtain ⟨value, hvalue, hlong⟩ := hlong
      rw [hall value hvalue] at hlong
      cases hlong
    · rw [herror]
      rfl

theorem ofEdge_cases (key : Text) (edge : Json) :
    (∃ r, ofEdge key edge = .ok r ∧ Describes edge r) ∨ ∃ f, EdgeFault key edge f := by
  unfold ofEdge
  split
  · rename_i node hnode
    unfold ofNode
    split
    · rename_i details hdetails
      split
      · rename_i id hid
        rcases ofDetails_cases node details id with ⟨preview, hpreview, hok, -⟩ | ⟨-, hlong⟩
        · exact Or.inl ⟨_, by rw [hok]; rfl, .node hnode hdetails hid hpreview⟩
        · exact Or.inr ⟨_, .tooLong hnode hdetails hid hlong⟩
      · rename_i hid
        refine Or.inr ⟨_, .noId hnode fun details' h => ?_⟩
        rw [hdetails] at h
        cases h
        exact hid
    · rename_i hnone
      exact Or.inr ⟨_, .noId hnode fun details h => absurd h (hnone details)⟩
  · rename_i hnone
    exact Or.inr ⟨_, .noNode hnone⟩

theorem ofEdge_eq_error_iff : ofEdge key edge = .error f ↔ EdgeFault key edge f := by
  refine ⟨fun h => ?_, EdgeFault.ofEdge_eq⟩
  rcases ofEdge_cases key edge with ⟨r, hr, -⟩ | ⟨g, hg⟩
  · rw [h] at hr
    cases hr
  · rw [hg.ofEdge_eq] at h
    cases h
    exact hg

theorem exists_ofEdge_iff : (∃ r, ofEdge key edge = .ok r) ↔ ∀ f, ¬ EdgeFault key edge f := by
  constructor
  · rintro ⟨r, hr⟩ f hf
    rw [hf.ofEdge_eq] at hr
    cases hr
  · intro hnone
    rcases ofEdge_cases key edge with ⟨r, hr, -⟩ | ⟨f, hf⟩
    · exact ⟨r, hr⟩
    · exact absurd hf (hnone f)

theorem describes_of_ofEdge {r : Record} (h : ofEdge key edge = .ok r) : Describes edge r := by
  rcases ofEdge_cases key edge with ⟨r', hr', hdescribes⟩ | ⟨f, hf⟩
  · rw [h] at hr'
    cases hr'
    exact hdescribes
  · rw [hf.ofEdge_eq] at h
    cases h

end

theorem ofListing_of_not_null (key : Text) {listing : Json} (h : listing ≠ .null) :
    ofListing key listing = match listing.member? "edges" with
      | some (.array edges) => edges.mapM (ofEdge key)
      | _ => .error (malformed (key ++ " is not an edges listing")) := by
  have hnull : listing.isNull = false := by
    cases listing with
    | null => exact absurd rfl h
    | _ => rfl
  rw [ofListing, hnull]
  rfl

section

variable {data : Entries Json} {key : Text} {f : Failure}

theorem ofKey_eq (data : Entries Json) (key : Text) :
    ofKey (.object data) key = ofListing key ((get? key data).getD .null) := rfl

theorem Fault.ofKey_eq (h : Fault data key f) : ofKey (.object data) key = .error f := by
  rw [Record.ofKey_eq]
  cases h with
  | listing hkey hnull hedges =>
    rw [hkey, Option.getD_some, ofListing_of_not_null key hnull]
    split
    · exact absurd ‹_› (hedges _)
    · rfl
  | @edge listing edge before after f hkey hedges hbefore hedge =>
    have hnull : listing ≠ .null := by
      rintro rfl
      cases hedges
    rw [hkey, Option.getD_some, ofListing_of_not_null key hnull, hedges]
    exact mapM_eq_error_iff.mpr ⟨before, edge, after, rfl,
      fun e he => exists_ofEdge_iff.mpr (hbefore e he), hedge.ofEdge_eq⟩

/-- A listing under a key is read as a whole, or has a fault. -/
theorem ofKey_cases (data : Entries Json) (key : Text) :
    (∃ records, ofKey (.object data) key = .ok records ∧
      List.Forall₂ Describes (edgesUnder data key) records) ∨ ∃ f, Fault data key f := by
  rw [Record.ofKey_eq, edgesUnder]
  by_cases hnull : (get? key data).getD .null = .null
  · rw [hnull]
    exact Or.inl ⟨[], rfl, .nil⟩
  obtain ⟨listing, hkey⟩ : ∃ listing, get? key data = some listing := by
    cases hkey : get? key data with
    | none => rw [hkey] at hnull; exact absurd rfl hnull
    | some listing => exact ⟨listing, rfl⟩
  rw [hkey, Option.getD_some] at hnull ⊢
  rw [ofListing_of_not_null key hnull]
  split
  · rename_i edges hedges
    have hedgesOf : edgesOf listing = edges := by rw [edgesOf, hedges]
    rw [hedgesOf]
    cases h : edges.mapM (ofEdge key) with
    | ok records =>
      exact Or.inl ⟨records, rfl, (mapM_eq_ok h).imp fun _ _ => describes_of_ofEdge⟩
    | error f =>
      obtain ⟨before, edge, after, rfl, hbefore, hedge⟩ := mapM_eq_error_iff.mp h
      exact Or.inr ⟨f, .edge hkey hedges (fun e he => exists_ofEdge_iff.mp (hbefore e he))
        (ofEdge_eq_error_iff.mp hedge)⟩
  · rename_i hnone
    exact Or.inr ⟨_, .listing hkey hnull hnone⟩

theorem ofKey_eq_error_iff : ofKey (.object data) key = .error f ↔ Fault data key f := by
  refine ⟨fun h => ?_, Fault.ofKey_eq⟩
  rcases ofKey_cases data key with ⟨records, hok, -⟩ | ⟨g, hg⟩
  · rw [h] at hok
    cases hok
  · rw [hg.ofKey_eq] at h
    cases h
    exact hg

theorem exists_ofKey_iff :
    (∃ records, ofKey (.object data) key = .ok records) ↔ ∀ f, ¬ Fault data key f := by
  constructor
  · rintro ⟨records, hok⟩ f hf
    rw [hf.ofKey_eq] at hok
    cases hok
  · intro hnone
    rcases ofKey_cases data key with ⟨records, hok, -⟩ | ⟨f, hf⟩
    · exact ⟨records, hok⟩
    · exact absurd hf (hnone f)

theorem ofKey_eq_ok {records : List Record} (h : ofKey (.object data) key = .ok records) :
    List.Forall₂ Describes (edgesUnder data key) records := by
  rcases ofKey_cases data key with ⟨records', hok, hall⟩ | ⟨f, hf⟩
  · rw [h] at hok
    cases hok
    exact hall
  · rw [hf.ofKey_eq] at h
    cases h

end

/-! ## Whole responses -/

section

variable {data : Entries Json} {keys : List Text}

theorem aggregate_eq (data : Entries Json) (keys : List Text) :
    aggregate (.object data) (some keys) =
      keys.mapM (ofKey (.object data)) >>= fun lists => .ok lists.flatten := rfl

theorem aggregate_eq_error_iff {f : Failure} :
    aggregate (.object data) (some keys) = .error f ↔ FirstFault data keys f := by
  have hfirst : keys.mapM (ofKey (.object data)) = .error f ↔ FirstFault data keys f := by
    simp only [mapM_eq_error_iff, exists_ofKey_iff, ofKey_eq_error_iff, FirstFault]
  rw [aggregate_eq, ← hfirst]
  cases keys.mapM (ofKey (.object data)) with
  | ok lists => exact iff_of_false nofun nofun
  | error g =>
    exact ⟨fun h => congrArg _ (Except.error.inj h), fun h => congrArg _ (Except.error.inj h)⟩

theorem forall₂_describes_of_aggregate {records : List Record}
    (h : aggregate (.object data) (some keys) = .ok records) :
    List.Forall₂ Describes (keys.flatMap (edgesUnder data)) records := by
  rw [aggregate_eq] at h
  obtain ⟨lists, hlists, hrecords⟩ := bind_eq_ok h
  clear h
  cases hrecords
  have hall := mapM_eq_ok hlists
  clear hlists
  induction hall with
  | nil => exact .nil
  | cons hkey _ ih => exact List.rel_append (ofKey_eq_ok hkey) ih

theorem exists_aggregate (h : ∀ key ∈ keys, ∀ f, ¬ Fault data key f) :
    ∃ records, aggregate (.object data) (some keys) = .ok records := by
  obtain ⟨lists, hlists⟩ := exists_mapM_eq_ok fun key hkey => exists_ofKey_iff.mpr (h key hkey)
  exact ⟨lists.flatten, by rw [aggregate_eq, hlists]; rfl⟩

theorem not_fault_of_aggregate {records : List Record}
    (h : aggregate (.object data) (some keys) = .ok records) :
    ∀ key ∈ keys, ∀ f, ¬ Fault data key f := by
  rw [aggregate_eq] at h
  obtain ⟨lists, hlists, -⟩ := bind_eq_ok h
  intro key hkey
  obtain ⟨records, -, hrecords⟩ := (mem_of_mapM_eq_ok hlists).1 key hkey
  exact exists_ofKey_iff.mp ⟨records, hrecords⟩

/-- Where all whole numbers can be written, something malformed is the only fault. -/
theorem Fault.malformed_of_writable (hdata : Json.membersWritable data = true) {key : Text}
    {f : Failure} (h : Fault data key f) : ∃ message, f = malformed message := by
  cases h with
  | listing => exact ⟨_, rfl⟩
  | @edge listing edge before after f hkey hedges hbefore hedge =>
    have hlisting : listing.isWritable = true := Json.isWritable_of_get? hdata hkey
    have hedge' : edge.isWritable = true :=
      Json.isWritable_of_mem (Json.isWritable_of_member? hlisting hedges) edge (by simp)
    cases hedge with
    | noNode => exact ⟨_, rfl⟩
    | noId => exact ⟨_, rfl⟩
    | tooLong hnode hdetails hid hlong =>
      have hnodes := Json.isWritable_of_member? hedge' hnode
      have hall := writtenValues_writable hnodes (Json.isWritable_of_get? hnodes hdetails) hid
      obtain ⟨value, hvalue, hlong⟩ := hlong
      rw [hall value hvalue] at hlong
      cases hlong

end

/-- **A search and its response.** No two listings of a search share a root field. A response is
refused with the first fault of something that is requested: that it is not null and malformed, or
that its record would write a whole number of too many digits. Else it has one record for each edge,
in the order of the root fields and of their listings. Where all whole numbers can be written, it is
only refused as malformed. The order in which the response names its keys does not count, nor does
any order of keys down to the details of a node. -/
theorem search_round_trip :
    (∀ (response : Json) (names : List Text) (types : List DocumentType)
      (constraints : Constraints) (pageSize : GraphQL.Value) (document : SearchDocument),
      names.Nodup → (∀ name ∈ names, filterPrefix <+: name) →
      Schema.documentTypes response names = .ok types →
      SearchDocument.ofResolutions pageSize (resolveTypes types constraints) = .ok document →
      document.rootFields.Nodup) ∧
    ∀ (data : Entries Json) (keys : List Text),
      (∀ f, aggregate (.object data) (some keys) = .error f ↔ FirstFault data keys f) ∧
      ((∀ key ∈ keys, ∀ f, ¬ Fault data key f) →
        ∃ records, aggregate (.object data) (some keys) = .ok records ∧
          List.Forall₂ Describes (keys.flatMap (edgesUnder data)) records ∧
          records.length = (keys.map fun key => (edgesUnder data key).length).sum) ∧
      (Json.membersWritable data = true → ∀ f,
        aggregate (.object data) (some keys) = .error f → ∃ message, f = malformed message) ∧
      (∀ others : Entries Json, data.Perm others → (Entries.keys data).Nodup →
        aggregate (.object data) (some keys) = aggregate (.object others) (some keys)) ∧
      ∀ others : Entries Json, Json.Alike 6 (.object data) (.object others) →
        aggregate (.object data) (some keys) = aggregate (.object others) (some keys) := by
  refine ⟨?_, fun data keys => ⟨?_, ?_, ?_, ?_, ?_⟩⟩
  · intro response names types constraints pageSize document hnodup hbeginning htypes hdocument
    exact nodup_rootFields hnodup hbeginning htypes hdocument
  · exact fun f => aggregate_eq_error_iff
  · intro hnone
    obtain ⟨records, hok⟩ := exists_aggregate hnone
    have hall := forall₂_describes_of_aggregate hok
    exact ⟨records, hok, hall, by rw [← hall.length_eq, List.length_flatMap]⟩
  · intro hwritable f hf
    obtain ⟨-, key, -, -, -, hfault⟩ := aggregate_eq_error_iff.mp hf
    exact hfault.malformed_of_writable hwritable
  · intro others hperm hnodup
    refine aggregate_congr keys fun key => ?_
    rw [Entries.get?_perm hperm hnodup key]
    cases get? key others with
    | none => exact .none
    | some value => exact .some (.refl 5 value)
  · exact fun others => aggregate_congr keys

/-- The answer to a request for the input fields of two types. -/
def petInputs : Json :=
  .object [("WherePet", titled), ("WhereArticle", titled)]
where
  titled : Json := .object [("inputFields", .array
    [.object [("name", .text "title"), ("type", .object [("name", .text "String")])]])]

/-- A response with two articles, one of them with a number for an identifier, and null for pets. -/
def petsAndArticles : Entries Json :=
  [("allArticles", .object [("edges", .array [
      .object [("node", .object [("_meta", .object [("id", .text "a")]), ("summary", .text "A")])],
      .object [("node", .object [("_meta", .object [("id", .int 2), ("type", .null)])])]])]),
    ("allPets", .null)]

theorem search_round_trip_articles :
    (∃ types document, Schema.documentTypes petInputs ["WherePet", "WhereArticle"] = .ok types ∧
      SearchDocument.ofResolutions (.int 20) (resolveTypes types (.ofText "title: cats")) =
        .ok document ∧
      document.rootFields = ["allPets", "allArticles"] ∧ document.rootFields.Nodup) ∧
    (∃ records, aggregate (.object petsAndArticles) (some ["allPets", "allArticles"]) =
      .ok records ∧ records.length = 2) ∧
    aggregate (.object petsAndArticles) (some ["allPets", "allArticles"]) =
      aggregate (.object petsAndArticles.reverse) (some ["allPets", "allArticles"]) := by
  obtain ⟨hroots, hread⟩ := search_round_trip
  obtain ⟨-, hreads, -, horder, -⟩ := hread petsAndArticles ["allPets", "allArticles"]
  refine ⟨⟨_, _, rfl, rfl, rfl, ?_⟩, ?_, ?_⟩
  · exact hroots petInputs ["WherePet", "WhereArticle"] _ _ (.int 20) _ (by decide) (by decide)
      rfl rfl
  · obtain ⟨records, hok, -, hlength⟩ := hreads (not_fault_of_aggregate rfl)
    exact ⟨records, hok, hlength⟩
  · exact horder _ (List.reverse_perm _).symm (by decide)

/-- A response with one article of the given identifier. -/
def articleWithId (id : Json) : Entries Json :=
  [("allArticles", .object [("edges", .array [.object [("node", .object
    [("_meta", .object [("id", id)])])]])])]

/-- An identifier of too many digits crashes, and one that is an object shows the order of its
keys. -/
theorem aggregate_written_ids :
    (∃ f, aggregate (.object (articleWithId (.int Number.tooLong))) (some ["allArticles"]) =
        .error f ∧ ∀ message, f ≠ malformed message) ∧
      aggregate (.object (articleWithId (.object [("a", .int 1), ("b", .int 2)])))
          (some ["allArticles"]) ≠
        aggregate (.object (articleWithId (.object [("b", .int 2), ("a", .int 1)])))
          (some ["allArticles"]) := by
  constructor
  · refine ⟨.crash .tooManyDigits, aggregate_eq_error_iff.mpr ?_, nofun⟩
    refine ⟨[], "allArticles", [], rfl, nofun, @Fault.edge _ _ _ _ [] _ _ rfl rfl nofun ?_⟩
    exact .tooLong rfl rfl rfl ⟨_, List.mem_cons_self .., Number.isWritable_tooLong⟩
  · intro h
    have hids := congrArg (fun result => result.toOption.map (List.map Record.id)) h
    exact absurd hids (by decide)

end Record

end FieldSearch
