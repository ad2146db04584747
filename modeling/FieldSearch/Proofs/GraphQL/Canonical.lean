import FieldSearch.Proofs.GraphQL.Compaction

/-!
# The canonical form of a document

A compacted document has nothing between two pieces, or one blank between two that are no braces.
The documents of this form are those that compaction leaves as they are. What a document is
compacted to depends on its pieces and on which neighbours among them something separates.
-/

namespace FieldSearch.GraphQL

/-- The document is these pieces, each with whether something stands between it and what comes
before it. -/
inductive Spaced : Bool → Text → List Token → Prop where
  | nil {g : Bool} : Spaced g [] []
  | gap {g : Bool} {c : Char} {rest : Text} {ts : List Token} :
      isGap c = true → Spaced true rest ts → Spaced g (c :: rest) ts
  | comment {g : Bool} {body rest : Text} {ts : List Token} :
      (∀ c ∈ body, isLineEnd c = false) → (∀ c ∈ rest.head?, isLineEnd c = true) →
      Spaced true rest ts → Spaced g ('#' :: (body ++ rest)) ts
  | piece {g : Bool} {p : Piece} {rest : Text} {ts : List Token} :
      EndsBefore p rest → Spaced false rest ts → Spaced g (p.text ++ rest) (⟨g, p⟩ :: ts)

/-- Whether something separates two neighbours, for each two that are no braces. -/
def separations : List Token → List (Option Bool)
  | t :: u :: rest =>
    (if t.piece.isBrace || u.piece.isBrace then none else some u.gap) :: separations (u :: rest)
  | _ => []

/-- The document is these pieces, with nothing between them but single blanks, which stand between
pieces that are no braces. -/
inductive Tight : Text → List Piece → Prop where
  | nil : Tight [] []
  | piece {p : Piece} {rest : Text} {ps : List Piece} :
      EndsBefore p rest → Tight rest ps → Tight (p.text ++ rest) (p :: ps)
  | blank {p q : Piece} {rest : Text} {ps : List Piece} :
      EndsBefore p (' ' :: rest) → p.isBrace = false → q.isBrace = false →
      Tight rest (q :: ps) → Tight (p.text ++ ' ' :: rest) (p :: q :: ps)

theorem Spaced.tokens_eq {g : Bool} {document : Text} {ts : List Token} (h : Spaced g document ts) :
    tokens g document = ts := by
  induction h with
  | nil => exact tokens_nil _
  | gap hc _ ih => rw [tokens_gap _ _ hc, ih]
  | comment hb hr _ ih => rw [tokens_comment _ hb hr, ih]
  | piece hp _ ih => rw [tokens_piece _ hp, ih]

theorem spaced_tokens (g : Bool) (document : Text) : Spaced g document (tokens g document) := by
  induction g, document using tokens_induction with
  | nil g => rw [tokens_nil]; exact .nil
  | gap g c rest hc ih => rw [tokens_gap _ _ hc]; exact .gap hc ih
  | comment g body rest hb hr ih => rw [tokens_comment _ hb hr]; exact .comment hb hr ih
  | piece g p rest hp ih => rw [tokens_piece _ hp]; exact .piece hp ih

/-! ## The tokens of a layout -/

/-- Whether a layout puts a blank in front of the token. -/
def isParted (previous : Option Piece) (t : Token) : Bool :=
  previous.any fun p => t.gap && !p.isBrace && !t.piece.isBrace

theorem separator_eq (previous : Option Piece) (t : Token) :
    separator previous t = if isParted previous t then [' '] else [] := by
  cases previous <;> rfl

/-- The tokens as a layout separates them. -/
def settled : Option Piece → List Token → List Token
  | _, [] => []
  | previous, t :: rest => ⟨isParted previous t, t.piece⟩ :: settled (some t.piece) rest

theorem tokens_separator (previous : Option Piece) (t : Token) (rest : Text) :
    tokens false (separator previous t ++ rest) = tokens (isParted previous t) rest := by
  rw [separator_eq]
  cases isParted previous t with
  | true => exact tokens_gap _ _ (by decide)
  | false => rfl

theorem tokens_layout (previous : Option Piece) (g : Bool) (text : Text) :
    tokens false (layout previous (tokens g text)) = settled previous (tokens g text) := by
  induction g, text using tokens_induction generalizing previous with
  | nil g => rw [tokens_nil]; exact tokens_nil _
  | gap g c rest hc ih => rw [tokens_gap _ _ hc]; exact ih previous
  | comment g body rest hb hr ih => rw [tokens_comment _ hb hr]; exact ih previous
  | piece g p rest hp ih =>
    rw [tokens_piece _ hp, layout, List.append_assoc, tokens_separator, tokens_piece _ hp.layout,
      ih, settled]

theorem tokens_compact (document : Text) :
    tokens false (compact document) = settled none (tokens false document) :=
  tokens_layout none false document

theorem map_piece_settled (previous : Option Piece) (ts : List Token) :
    (settled previous ts).map Token.piece = ts.map Token.piece := by
  induction ts generalizing previous with
  | nil => rfl
  | cons t rest ih => rw [settled, List.map_cons, List.map_cons, ih]

theorem separations_settled (previous : Option Piece) (ts : List Token) :
    separations (settled previous ts) = separations ts := by
  induction ts generalizing previous with
  | nil => rfl
  | cons t rest ih =>
    cases rest with
    | nil => rfl
    | cons u rest =>
      have hrest := ih (some t.piece)
      rw [settled] at hrest ⊢
      rw [settled, separations, hrest, separations]
      congr 1
      simp only [isParted, Option.any_some]
      cases u.gap <;> cases t.piece.isBrace <;> cases u.piece.isBrace <;> rfl

/-- A layout depends on the pieces and the separations between them. -/
theorem layout_congr {t u : Token} {ts us : List Token} (hpiece : t.piece = u.piece)
    (hpieces : ts.map Token.piece = us.map Token.piece)
    (hseparations : separations (t :: ts) = separations (u :: us)) :
    layout (some t.piece) ts = layout (some u.piece) us := by
  induction ts generalizing t u us with
  | nil =>
    obtain rfl : us = [] := List.map_eq_nil_iff.mp hpieces.symm
    rfl
  | cons t' ts ih =>
    cases us with
    | nil => cases hpieces
    | cons u' us =>
      obtain ⟨hnext, hrest⟩ := List.cons.inj hpieces
      rw [separations, separations, hpiece, hnext] at hseparations
      obtain ⟨hgap, hseparations⟩ := List.cons.inj hseparations
      have hparted : isParted (some u.piece) t' = isParted (some u.piece) u' := by
        simp only [isParted, Option.any_some, hnext]
        cases hu : u.piece.isBrace <;> cases hu' : u'.piece.isBrace <;> simp_all
      rw [layout, layout, ih hnext hrest hseparations, hpiece, hnext, separator_eq, separator_eq,
        hparted]

/-- Two documents are compacted to the same text if they have the same pieces and agree, for each
two neighbours that are no braces, on whether something separates them. -/
theorem compact_eq_iff {a b : Text} : compact a = compact b ↔
    ∃ ts us, Spaced false a ts ∧ Spaced false b us ∧
      ts.map Token.piece = us.map Token.piece ∧ separations ts = separations us := by
  constructor
  · intro h
    have htokens : settled none (tokens false a) = settled none (tokens false b) := by
      rw [← tokens_compact, ← tokens_compact, h]
    refine ⟨_, _, spaced_tokens false a, spaced_tokens false b, ?_, ?_⟩
    · rw [← map_piece_settled none, htokens, map_piece_settled]
    · rw [← separations_settled none, htokens, separations_settled]
  · rintro ⟨ts, us, ha, hb, hpieces, hseparations⟩
    rw [compact, compact, ha.tokens_eq, hb.tokens_eq]
    cases ts with
    | nil =>
      obtain rfl : us = [] := List.map_eq_nil_iff.mp hpieces.symm
      rfl
    | cons t ts =>
      cases us with
      | nil => cases hpieces
      | cons u us =>
        obtain ⟨hpiece, hrest⟩ := List.cons.inj hpieces
        rw [layout, layout, layout_congr hpiece hrest hseparations, hpiece]
        rfl

/-! ## Tight documents -/

theorem layout_some_cons (p : Piece) (t : Token) (rest : List Token) :
    layout (some p) (t :: rest) = separator (some p) t ++ layout none (t :: rest) := by
  rw [layout, layout, List.append_assoc]
  rfl

theorem tight_layout (g : Bool) (text : Text) :
    Tight (layout none (tokens g text)) ((tokens g text).map Token.piece) := by
  induction g, text using tokens_induction with
  | nil g => rw [tokens_nil]; exact .nil
  | gap g c rest hc ih => rw [tokens_gap _ _ hc]; exact ih
  | comment g body rest hb hr ih => rw [tokens_comment _ hb hr]; exact ih
  | piece g p rest hp ih =>
    have hends := hp.layout
    rw [tokens_piece _ hp]
    show Tight (p.text ++ layout (some p) (tokens false rest)) _
    cases htokens : tokens false rest with
    | nil =>
      rw [htokens] at hends
      exact .piece hends .nil
    | cons t ts =>
      rw [htokens, layout_some_cons, separator_eq] at hends
      rw [htokens] at ih
      rw [layout_some_cons, separator_eq]
      cases hparted : isParted (some p) t with
      | false =>
        rw [hparted] at hends
        exact .piece hends ih
      | true =>
        rw [hparted] at hends
        simp only [isParted, Option.any_some, Bool.and_eq_true, Bool.not_eq_true'] at hparted
        exact .blank hends hparted.1.2 hparted.2 ih

/-- A tight document begins with its first piece. -/
theorem Tight.tokens_cons {text : Text} {p : Piece} {ps : List Piece} (h : Tight text (p :: ps)) :
    ∃ ts, ∀ g, tokens g text = ⟨g, p⟩ :: ts := by
  cases h with
  | piece hp _ | blank hp _ _ _ => exact ⟨_, fun g => tokens_piece g hp⟩

theorem Tight.layout_eq {text : Text} {ps : List Piece} (h : Tight text ps) (g : Bool) :
    layout none (tokens g text) = text := by
  induction h generalizing g with
  | nil => rw [tokens_nil]; rfl
  | @piece p rest ps hp hrest ih =>
    have hlayout := ih false
    rw [tokens_piece _ hp]
    show p.text ++ layout (some p) (tokens false rest) = _
    cases ps with
    | nil => cases hrest; rw [tokens_nil]; rfl
    | cons q ps =>
      obtain ⟨ts, hts⟩ := hrest.tokens_cons
      rw [hts] at hlayout ⊢
      rw [layout_some_cons, hlayout]
      rfl
  | @blank p q rest ps hp hbrace hnext hrest ih =>
    have hlayout := ih true
    have hseparator : separator (some p) ⟨true, q⟩ = [' '] := by simp [separator, hbrace, hnext]
    obtain ⟨ts, hts⟩ := hrest.tokens_cons
    rw [tokens_piece _ hp, tokens_gap _ _ (by decide), hts]
    show p.text ++ layout (some p) (⟨true, q⟩ :: ts) = _
    rw [hts] at hlayout
    rw [layout_some_cons, hlayout, hseparator]
    rfl

theorem tight_compact (document : Text) : Tight (compact document) (pieces document) :=
  tight_layout false document

theorem compact_eq_self_iff {text : Text} : compact text = text ↔ ∃ ps, Tight text ps := by
  constructor
  · intro h
    have htight := tight_compact text
    rw [h] at htight
    exact ⟨_, htight⟩
  · rintro ⟨ps, htight⟩
    exact htight.layout_eq false

theorem compact_compact (document : Text) : compact (compact document) = compact document :=
  compact_eq_self_iff.mpr ⟨_, tight_compact document⟩

end FieldSearch.GraphQL
