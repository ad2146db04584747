import FieldSearch.Results.Record
import Mathlib.Data.List.Forall2

/-!
# The order of keys

Values that differ only in the order in which objects name their keys, down to some depth, are
alike. A response is read through its keys down to the details of a node, six levels deep: what is
alike that far is read in the same way. Below that a value is only written, with its keys in their
order.
-/

namespace FieldSearch

open Entries (get?)

/-! ## Values that are alike -/

namespace Json

/-- The values are the same, but for the order of keys in the given number of outer levels. -/
def Alike : Nat → Json → Json → Prop
  | 0 => Eq
  | depth + 1 => fun
    | .array items, .array others => List.Forall₂ (Alike depth) items others
    | .object members, .object others =>
      ∀ key, Option.Rel (Alike depth) (get? key members) (get? key others)
    | value, other => value = other

theorem Alike.refl : ∀ (depth : Nat) (value : Json), Alike depth value value
  | 0, _ => rfl
  | depth + 1, .array items => List.forall₂_same.mpr fun item _ => refl depth item
  | depth + 1, .object members => fun key => by
    cases get? key members with
    | none => exact .none
    | some value => exact .some (refl depth value)
  | _ + 1, .null | _ + 1, .bool _ | _ + 1, .int _ | _ + 1, .real _ | _ + 1, .text _ => rfl

variable {depth : Nat} {value other : Json}

/-- Values that are alike are both arrays, both objects, or the same. -/
theorem Alike.cases (h : Alike (depth + 1) value other) :
    (∃ items others, value = .array items ∧ other = .array others ∧
      List.Forall₂ (Alike depth) items others) ∨
    (∃ members others, value = .object members ∧ other = .object others ∧
      ∀ key, Option.Rel (Alike depth) (get? key members) (get? key others)) ∨
    value = other := by
  cases value with
  | array items =>
    cases other with
    | array others => exact Or.inl ⟨items, others, rfl, rfl, h⟩
    | _ => exact Or.inr (Or.inr h)
  | object members =>
    cases other with
    | object others => exact Or.inr (Or.inl ⟨members, others, rfl, rfl, h⟩)
    | _ => exact Or.inr (Or.inr h)
  | _ => exact Or.inr (Or.inr h)

theorem Alike.member? (h : Alike (depth + 1) value other) (key : Text) :
    Option.Rel (Alike depth) (value.member? key) (other.member? key) := by
  rcases h.cases with ⟨items, others, rfl, rfl, -⟩ | ⟨members, others, rfl, rfl, hmembers⟩ | rfl
  · exact .none
  · exact hmembers key
  · cases value.member? key with
    | none => exact .none
    | some member => exact .some (.refl depth member)

end Json

open Json (Alike)

theorem eq_of_rel {a b : Option Json} (h : Option.Rel (Alike 0) a b) : a = b := by
  cases h with
  | none => rfl
  | some h => exact congrArg some h

theorem getD_rel {depth : Nat} {a b : Option Json} (h : Option.Rel (Alike depth) a b) :
    Alike depth (a.getD .null) (b.getD .null) := by
  cases h with
  | none => exact .refl depth .null
  | some h => exact h

theorem mapM_congr_of_forall₂ {ε α β : Type} {R : α → α → Prop} {f : α → Except ε β}
    {xs ys : List α} (h : List.Forall₂ R xs ys) (hf : ∀ x y, R x y → f x = f y) :
    xs.mapM f = ys.mapM f := by
  induction h with
  | nil => rfl
  | cons hxy _ ih => rw [List.mapM_cons, List.mapM_cons, hf _ _ hxy, ih]

/-! ## Responses that are alike -/

theorem Preview.ofJson_congr {summary other : Json} (h : Alike 1 summary other) :
    ofJson summary = ofJson other := by
  rcases h.cases with ⟨items, others, rfl, rfl, hitems⟩ | ⟨members, others, rfl, rfl, -⟩ | rfl
  · have hsame : items = others := List.forall₂_eq_eq_eq ▸ hitems
    rw [hsame]
  · rfl
  · rfl

namespace Record

theorem ofNode_congr {node other : Entries Json}
    (h : ∀ key, Option.Rel (Alike 1) (get? key node) (get? key other)) :
    ofNode node = ofNode other := by
  have hpreview := Preview.ofJson_congr (getD_rel (h "summary"))
  have hmeta := h "_meta"
  unfold ofNode
  generalize get? "_meta" node = a, get? "_meta" other = b at hmeta
  cases hmeta with
  | none => rfl
  | some hmeta =>
    rcases hmeta.cases with ⟨_, _, rfl, rfl, -⟩ | ⟨details, others, rfl, rfl, hdetails⟩ | rfl
    · rfl
    · have hsame : ∀ key, get? key details = get? key others := fun key => eq_of_rel (hdetails key)
      simp only [ofDetails, hsame, hpreview]
    · simp only [ofDetails, hpreview]

theorem ofEdge_congr (key : Text) {edge other : Json} (h : Alike 3 edge other) :
    ofEdge key edge = ofEdge key other := by
  have hnode := h.member? "node"
  unfold ofEdge
  generalize edge.member? "node" = a, other.member? "node" = b at hnode
  cases hnode with
  | none => rfl
  | some hnode =>
    rcases hnode.cases with ⟨_, _, rfl, rfl, -⟩ | ⟨node, others, rfl, rfl, hnode⟩ | rfl
    · rfl
    · exact ofNode_congr hnode
    · rfl

theorem ofListing_congr (key : Text) {listing other : Json} (h : Alike 5 listing other) :
    ofListing key listing = ofListing key other := by
  have hnull : listing.isNull = other.isNull := by
    rcases h.cases with ⟨_, _, rfl, rfl, -⟩ | ⟨_, _, rfl, rfl, -⟩ | rfl
    · rfl
    · rfl
    · rfl
  have hedges := h.member? "edges"
  unfold ofListing
  rw [hnull]
  generalize listing.member? "edges" = a, other.member? "edges" = b at hedges
  cases hedges with
  | none => rfl
  | some hedges =>
    rcases hedges.cases with ⟨edges, others, rfl, rfl, hedges⟩ | ⟨_, _, rfl, rfl, -⟩ | rfl
    · have hall := mapM_congr_of_forall₂ hedges fun _ _ => ofEdge_congr key
      simp only [hall]
    · rfl
    · rfl

/-- A response is read in the same way as one that is alike six levels deep. -/
theorem aggregate_congr {data other : Entries Json} (keys : List Text)
    (h : Alike 6 (.object data) (.object other)) :
    aggregate (.object data) (some keys) = aggregate (.object other) (some keys) := by
  have hkey : ofKey (.object data) = ofKey (.object other) :=
    funext fun key => ofListing_congr key (getD_rel (h key))
  simp only [aggregate, hkey]

end Record

end FieldSearch
