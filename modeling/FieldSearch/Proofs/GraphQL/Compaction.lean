import FieldSearch.Proofs.GraphQL.Splitting

/-!
# Compaction loses nothing

A compacted document splits into the pieces of the document it was made from, and is no longer.
What has to be shown is that a piece which has lost the separator after it still ends where it
ended: the character that now follows is a blank, a brace, or the one that followed before.
-/

namespace FieldSearch.GraphQL

/-! ## What follows a piece -/

theorem separator_cases (previous : Option Piece) (t : Token) :
    separator previous t = [] ∨ separator previous t = [' '] := by
  unfold separator
  split
  · exact Or.inl rfl
  · split
    · exact Or.inr rfl
    · exact Or.inl rfl

theorem separator_brace (previous : Option Piece) (g : Bool) (c : Char) :
    separator previous ⟨g, .brace c⟩ = [] := by
  cases previous <;> simp [separator, Piece.isBrace]

theorem separator_of_gap {p q : Piece} (hp : p.isBrace = false) (hq : q.isBrace = false)
    (g : Bool) : separator (some p) ⟨g, q⟩ = if g then [' '] else [] := by
  simp [separator, hp, hq]

theorem EndsBefore.text_ne_nil {p : Piece} {rest : Text} (h : EndsBefore p rest) : p.text ≠ [] := by
  cases h with
  | run hne _ _ => exact hne
  | _ => exact List.cons_ne_nil _ _

theorem EndsBefore.brace_of_isBrace {p : Piece} {rest : Text} (h : EndsBefore p rest)
    (hp : p.isBrace = true) : ∃ c, p = .brace c ∧ isBrace c = true := by
  cases h with
  | brace hc => exact ⟨_, rfl, hc⟩
  | _ => cases hp

/-- After a piece that is no brace comes a blank, a brace, or what came after it in the text. -/
theorem head_layout {p : Piece} (hp : p.isBrace = false) (g : Bool) (text : Text) :
    ∀ c ∈ (layout (some p) (tokens g text)).head?,
      c = ' ' ∨ isBrace c = true ∨ g = false ∧ text.head? = some c := by
  induction g, text using tokens_induction with
  | nil g => intro c hc; rw [tokens_nil] at hc; cases hc
  | gap g d rest hd ih =>
    intro c hc
    rw [tokens_gap _ _ hd] at hc
    obtain h | h | ⟨h, -⟩ := ih c hc
    · exact Or.inl h
    · exact Or.inr (Or.inl h)
    · cases h
  | comment g body rest hb hr ih =>
    intro c hc
    rw [tokens_comment _ hb hr] at hc
    obtain h | h | ⟨h, -⟩ := ih c hc
    · exact Or.inl h
    · exact Or.inr (Or.inl h)
    · cases h
  | piece g q rest hq _ =>
    intro c hc
    rw [tokens_piece _ hq, layout] at hc
    cases hbrace : q.isBrace with
    | true =>
      obtain ⟨d, rfl, hd⟩ := hq.brace_of_isBrace hbrace
      rw [separator_brace] at hc
      cases hc
      exact Or.inr (Or.inl hd)
    | false =>
      rw [separator_of_gap hp hbrace] at hc
      cases g with
      | true => cases hc; exact Or.inl rfl
      | false =>
        -- nothing stood between the two pieces, so the next one follows at once
        refine Or.inr (Or.inr ⟨rfl, ?_⟩)
        cases htext : q.text with
        | nil => exact absurd htext hq.text_ne_nil
        | cons d text => rw [htext] at hc; exact hc

/-! ## Pieces in front of another text -/

theorem not_prefix_append {q u x : Text} (hlen : q.length ≤ u.length) (h : ¬ q <+: u ++ x)
    (y : Text) : ¬ q <+: u ++ y := by
  intro hy
  have hu : q <+: u := List.prefix_of_prefix_length_le hy (List.prefix_append u y) hlen
  exact h (hu.trans (List.prefix_append u x))

-- what is read of a block string ends with its three closing quotes at the latest
theorem not_blockQuote_append {c : Char} {t after : Text}
    (h : ¬ blockQuote <+: c :: t ++ (blockQuote ++ after)) (x : Text) :
    ¬ blockQuote <+: c :: t ++ (blockQuote ++ x) := by
  rw [← List.append_assoc] at h ⊢
  exact not_prefix_append (by simp [blockQuote]) h x

theorem not_escapedBlockQuote_append {c : Char} {t after : Text}
    (h : ¬ escapedBlockQuote <+: c :: t ++ (blockQuote ++ after)) (x : Text) :
    ¬ escapedBlockQuote <+: c :: t ++ (blockQuote ++ x) := by
  rw [← List.append_assoc] at h ⊢
  exact not_prefix_append (by simp [blockQuote, escapedBlockQuote]) h x

theorem InsideBlock.in_front_of {after body : Text} (h : InsideBlock (blockQuote ++ after) body)
    (x : Text) : InsideBlock (blockQuote ++ x) body := by
  induction h with
  | nil => exact .nil
  | plain hq he _ ih =>
    exact .plain (not_blockQuote_append hq x) (not_escapedBlockQuote_append he x) ih
  | escape _ ih => exact .escape ih

theorem EndsBefore.in_front_of {p : Piece} {after x : Text} (h : EndsBefore p after)
    (hnil : after = [] → x = [])
    (hhead : p.isBrace = false → ∀ c ∈ x.head?, c = ' ' ∨ isBrace c = true ∨ after.head? = some c) :
    EndsBefore p x := by
  cases h with
  | brace hc => exact .brace hc
  | run hne hp hr =>
    refine .run hne hp fun c hc => ?_
    obtain rfl | h | h := hhead rfl c hc
    · decide
    · exact Bool.eq_false_iff.mpr fun hp => by simp [(isPlain_iff.mp hp).2.1] at h
    · exact hr c h
  | string hin hne =>
    refine .string hin fun hbody hx => ?_
    obtain h | h | h := hhead rfl '"' hx
    · exact absurd h (by decide)
    · exact absurd h (by decide)
    · exact hne hbody h
  | openString hopen => rw [hnil rfl]; exact .openString hopen
  | blockString hin => exact .blockString (hin.in_front_of x)
  | openBlockString hopen => rw [hnil rfl]; exact .openBlockString hopen

theorem EndsBefore.layout {p : Piece} {after : Text} (h : EndsBefore p after) :
    EndsBefore p (layout (some p) (tokens false after)) := by
  refine h.in_front_of ?_ fun hp c hc => ?_
  · rintro rfl; rw [tokens_nil]; rfl
  · obtain h | h | ⟨-, h⟩ := head_layout hp false after c hc
    · exact Or.inl h
    · exact Or.inr (Or.inl h)
    · exact Or.inr (Or.inr h)

/-! ## The pieces of a layout -/

theorem splits_separator (previous : Option Piece) (t : Token) {out : Text} {ps : List Piece}
    (h : Splits out ps) : Splits (separator previous t ++ out) ps := by
  obtain hs | hs := separator_cases previous t
  · rw [hs]; exact h
  · rw [hs]; exact .gap (by decide) h

theorem splits_layout (previous : Option Piece) (g : Bool) (text : Text) :
    Splits (layout previous (tokens g text)) ((tokens g text).map Token.piece) := by
  induction g, text using tokens_induction generalizing previous with
  | nil g => rw [tokens_nil]; exact .nil
  | gap g c rest hc ih => rw [tokens_gap _ _ hc]; exact ih previous
  | comment g body rest hb hr ih => rw [tokens_comment _ hb hr]; exact ih previous
  | piece g p rest hp ih =>
    -- the piece stands in front of the new layout now, and still ends there
    rw [tokens_piece _ hp, layout, List.append_assoc]
    exact splits_separator _ _ (.piece hp.layout (ih _))

/-! ## The length of a layout -/

theorem length_separator_le (previous : Option Piece) (t : Token) :
    (separator previous t).length ≤ t.gap.toNat := by
  unfold separator
  split
  · exact Nat.zero_le _
  · split
    · rename_i h; simp only [Bool.and_eq_true] at h; simp [h.1.1]
    · exact Nat.zero_le _

theorem length_layout_le (previous : Option Piece) (g : Bool) (text : Text) :
    (layout previous (tokens g text)).length ≤ text.length + g.toNat := by
  induction g, text using tokens_induction generalizing previous with
  | nil g => rw [tokens_nil]; exact Nat.zero_le _
  | gap g c rest hc ih =>
    have := ih previous
    rw [tokens_gap _ _ hc]
    simp only [List.length_cons, Bool.toNat_true] at this ⊢
    omega
  | comment g body rest hb hr ih =>
    have := ih previous
    rw [tokens_comment _ hb hr]
    simp only [List.length_cons, List.length_append, Bool.toNat_true] at this ⊢
    omega
  | piece g p rest hp ih =>
    have := ih (some p)
    have := length_separator_le previous ⟨g, p⟩
    rw [tokens_piece _ hp, layout]
    simp only [List.length_append, Bool.toNat_false] at *
    omega

/-! ## Compaction -/

/-- **Compaction loses nothing.** A document and its compact form split into the same pieces, each
of them in one way only, and the compact form is not the longer of the two. -/
theorem compact_lossless (document : Text) :
    (∃ ps, (∀ qs, Splits document qs ↔ qs = ps) ∧ ∀ qs, Splits (compact document) qs ↔ qs = ps) ∧
      (compact document).length ≤ document.length := by
  refine ⟨⟨pieces document, fun _ => splits_iff, fun qs => ?_⟩, ?_⟩
  · have h : pieces document = pieces (compact document) :=
      splits_iff.mp (splits_layout none false document)
    rw [splits_iff, h]
  · exact length_layout_le none false document

end FieldSearch.GraphQL
