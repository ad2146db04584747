import FieldSearch.Proofs.GraphQL.Compaction
import FieldSearch.Proofs.GraphQL.Lexeme
import Mathlib.Data.List.Forall2

/-!
# Lexemes of a compacted document

A document that can be read has the same lexemes after compaction. Each of its pieces has the same
ones in front of every text before which it ends, so the lexemes of the document are those of its
pieces, and the pieces stay.
-/

namespace FieldSearch.GraphQL

namespace Reader

/-! ## Reading a run -/

/-- What stands after a run: nothing, or a character that no run has. -/
def StopsRun (rest : Text) : Prop := ∀ c ∈ rest.head?, isPlain c = false

theorem StopsRun.not_nameChar {rest : Text} (h : StopsRun rest) :
    ∀ c ∈ rest.head?, isNameChar c = false :=
  fun c hc => not_isNameChar_of_not_isPlain (h c hc)

theorem StopsRun.not_digit {rest : Text} (h : StopsRun rest) :
    ∀ c ∈ rest.head?, c.isDigit = false :=
  fun c hc => not_isDigit_of_not_isNameChar (h.not_nameChar c hc)

theorem StopsRun.ne_cons {rest : Text} (h : StopsRun rest) {c : Char} (hc : isPlain c = true)
    (after : Text) : rest ≠ c :: after := by
  rintro rfl
  have := h c rfl
  rw [hc] at this
  cases this

theorem fraction_append (t : Text) {rest : Text} (hr : StopsRun rest) :
    fraction (t ++ rest) = (fraction t).map fun (f, after) => (f, after ++ rest) := by
  cases t with
  | nil =>
    rw [List.nil_append, fraction]
    · rfl
    · exact fun after => hr.ne_cons (by decide) after
  | cons c t =>
    by_cases hc : c = '.'
    · subst hc
      rw [List.cons_append, fraction, fraction, takeWhile_append_rest t hr.not_digit,
        dropWhile_append_rest t hr.not_digit]
      split <;> rfl
    · have hne : ∀ t after : Text, c :: t = '.' :: after → False :=
        fun _ _ h => hc (List.cons.inj h).1
      rw [List.cons_append, fraction, fraction]
      · rfl
      · exact hne t
      · exact hne (t ++ rest)

theorem exponentSign_append (t : Text) {rest : Text} (hr : StopsRun rest) :
    exponentSign (t ++ rest) = ((exponentSign t).1, (exponentSign t).2 ++ rest) := by
  cases t with
  | nil =>
    rw [List.nil_append, exponentSign]
    · rfl
    · exact fun after => hr.ne_cons (by decide) after
    · exact fun after => hr.ne_cons (by decide) after
  | cons c t =>
    by_cases hp : c = '+'
    · subst hp; rfl
    · by_cases hm : c = '-'
      · subst hm; rfl
      · have hne : ∀ d : Char, c ≠ d → ∀ t after : Text, c :: t = d :: after → False :=
          fun _ hd _ _ h => hd (List.cons.inj h).1
        rw [List.cons_append, exponentSign, exponentSign]
        · rfl
        · exact hne _ hp t
        · exact hne _ hm t
        · exact hne _ hp _
        · exact hne _ hm _

theorem exponent_append (t : Text) {rest : Text} (hr : StopsRun rest) :
    exponent (t ++ rest) = (exponent t).map fun (e, after) => (e, after ++ rest) := by
  cases t with
  | nil =>
    cases rest with
    | nil => rfl
    | cons d rest =>
      have he : ¬ (d = 'e' ∨ d = 'E') := by
        rintro (rfl | rfl)
        · exact hr.ne_cons (by decide) rest rfl
        · exact hr.ne_cons (by decide) rest rfl
      rw [List.nil_append, exponent, exponent, if_neg he]
      rfl
  | cons c t =>
    rw [List.cons_append, exponent, exponent]
    split
    · rw [exponentSign_append t hr]
      simp only
      rw [takeWhile_append_rest _ hr.not_digit, dropWhile_append_rest _ hr.not_digit]
      split <;> rfl
    · rfl

theorem endsNumber_append (t : Text) {rest : Text} (hr : StopsRun rest) :
    endsNumber (t ++ rest) = endsNumber t := by
  cases t with
  | cons c t => rfl
  | nil =>
    cases rest with
    | nil => rfl
    | cons d rest =>
      have hn := hr.not_nameChar d rfl
      have hd : d ≠ '.' := by
        rintro rfl
        exact hr.ne_cons (by decide) rest rfl
      simp [endsNumber, hn, hd]

theorem number_append (negative : Bool) (first : Char) (t : Text) {rest : Text}
    (hr : StopsRun rest) : number negative first (t ++ rest) =
      (number negative first t).map fun (l, after) => (l, after ++ rest) := by
  unfold number
  rw [takeWhile_append_rest t hr.not_digit, dropWhile_append_rest t hr.not_digit]
  simp only
  split
  · rfl
  · rw [fraction_append _ hr]
    cases fraction (t.dropWhile Char.isDigit) with
    | none => rfl
    | some f =>
      simp only [Option.map_some, Option.bind_eq_bind, Option.bind_some]
      rw [exponent_append _ hr]
      cases exponent f.2 with
      | none => rfl
      | some e =>
        simp only [Option.map_some, Option.bind_some]
        rw [endsNumber_append _ hr]
        split <;> rfl

theorem negative_append (t : Text) {rest : Text} (hr : StopsRun rest) :
    negative (t ++ rest) = (negative t).map fun (l, after) => (l, after ++ rest) := by
  cases t with
  | nil =>
    cases rest with
    | nil => rfl
    | cons d rest =>
      rw [List.nil_append, negative, negative, hr.not_digit d rfl]
      rfl
  | cons d t =>
    rw [List.cons_append, negative, negative, number_append _ _ t hr]
    split <;> rfl

theorem StopsRun.points_of_append {t rest after : Text} (hr : StopsRun rest)
    (h : t ++ rest = '.' :: '.' :: after) : ∃ u, t = '.' :: '.' :: u := by
  have hne : ∀ after, rest ≠ '.' :: after := fun after => hr.ne_cons (by decide) after
  match t with
  | [] => exact absurd h (hne _)
  | [c] => exact absurd (List.cons.inj h).2 (hne _)
  | c :: d :: u =>
    obtain ⟨hc, htail⟩ := List.cons.inj h
    exact ⟨u, by rw [hc, (List.cons.inj htail).1]⟩

theorem spread_append (t : Text) {rest : Text} (hr : StopsRun rest) :
    spread (t ++ rest) = (spread t).map fun (l, after) => (l, after ++ rest) := by
  by_cases h : ∃ u, t = '.' :: '.' :: u
  · obtain ⟨u, rfl⟩ := h
    rfl
  · rw [spread, spread]
    · rfl
    · exact fun u hu => h ⟨u, hu⟩
    · exact fun after hafter => h (hr.points_of_append hafter)

theorem lexeme?_append {c : Char} (t : Text) {rest : Text} (hc : c ≠ '"') (hr : StopsRun rest) :
    lexeme? c (t ++ rest) = (lexeme? c t).map fun (l, after) => (l, after ++ rest) := by
  unfold lexeme?
  rw [takeWhile_append_rest t hr.not_nameChar, dropWhile_append_rest t hr.not_nameChar,
    number_append _ _ t hr, if_neg hc, if_neg hc, negative_append t hr, spread_append t hr]
  split
  · rfl
  split
  · rfl
  split
  · rfl
  split
  · rfl
  split
  · rfl
  · rfl

/-! ## Reading literals -/

theorem stringValue_closed {body rest value after : Text} (hin : Inside body)
    (h : stringValue (body ++ '"' :: rest) = some (value, after)) :
    after = rest ∧ ∀ rest, stringValue (body ++ '"' :: rest) = some (value, rest) := by
  obtain ⟨body', hin', htext, hread⟩ := stringValue_eq_some h
  have hpair := congrArg stringBody htext
  rw [stringBody_closed hin, stringBody_closed hin'] at hpair
  obtain ⟨hbody, rfl⟩ := Prod.mk.inj hpair
  rw [List.append_cancel_right hbody]
  exact ⟨rfl, hread⟩

theorem stringValue_unclosed {body : Text} (h : Unclosed body) : stringValue body = none := by
  cases hv : stringValue body with
  | none => rfl
  | some p =>
    obtain ⟨body', hin, rfl, -⟩ := stringValue_eq_some hv
    exact absurd h (hin.not_unclosed _)

theorem blockValue_escape (rest : Text) : blockValue (escapedBlockQuote ++ rest) =
    (blockValue rest).map fun (t, after) => (blockQuote ++ t, after) := by
  simp [escapedBlockQuote, blockQuote, blockValue]

theorem blockValue_plain {c : Char} {rest : Text} (hq : ¬ blockQuote <+: c :: rest)
    (he : ¬ escapedBlockQuote <+: c :: rest) :
    blockValue (c :: rest) = (blockValue rest).map fun (t, after) => (c :: t, after) := by
  rw [blockValue]
  · rintro r rfl rfl; exact hq ⟨r, rfl⟩
  · rintro r rfl rfl; exact he ⟨r, rfl⟩

theorem blockValue_closed {body rest : Text} (h : InsideBlock (blockQuote ++ rest) body) :
    ∃ value, ∀ rest, blockValue (body ++ (blockQuote ++ rest)) = some (value, rest) := by
  induction h with
  | nil => exact ⟨[], fun rest => by simp [blockQuote, blockValue]⟩
  | @plain c t hq he _ ih =>
    obtain ⟨value, hread⟩ := ih
    refine ⟨c :: value, fun rest => ?_⟩
    exact (blockValue_plain (not_blockQuote_append hq rest)
      (not_escapedBlockQuote_append he rest)).trans (by rw [List.append_eq, hread]; rfl)
  | escape _ ih =>
    obtain ⟨value, hread⟩ := ih
    refine ⟨blockQuote ++ value, fun rest => ?_⟩
    rw [List.append_assoc, blockValue_escape, hread]
    rfl

theorem blockValue_unclosed {body : Text} (h : InsideBlock [] body) : blockValue body = none := by
  induction h with
  | nil => rfl
  | plain hq he _ ih =>
    rw [List.append_nil] at hq he
    rw [blockValue_plain hq he, ih]
    rfl
  | escape _ ih => rw [blockValue_escape, ih]; rfl

end Reader

open Reader

theorem lexemes_brace {c : Char} (rest : Text) (h : isBrace c = true) :
    lexemes (c :: rest) = (lexemes rest).map (.punctuator c :: ·) := by
  rcases isBrace_iff.mp h with rfl | rfl
  · rw [lexemes_lexeme _ (by decide) (by decide)]; rfl
  · rw [lexemes_lexeme _ (by decide) (by decide)]; rfl

/-! ## The lexemes of a piece -/

def HasLexemes (p : Piece) (ls : List Lexeme) : Prop :=
  ∀ rest, EndsBefore p rest → lexemes (p.text ++ rest) = (lexemes rest).map (ls ++ ·)

/-- A part of a run has the same lexemes in front of every text that stops the run. -/
theorem lexemes_run (t : Text) (ht : ∀ c ∈ t, isPlain c = true) {rest : Text} (hr : StopsRun rest)
    {ls : List Lexeme} (h : lexemes (t ++ rest) = some ls) :
    ∃ own, ∀ rest, StopsRun rest → lexemes (t ++ rest) = (lexemes rest).map (own ++ ·) := by
  match t with
  | [] => exact ⟨[], fun rest _ => by simp⟩
  | c :: t =>
    have hc := isPlain_iff.mp (ht c (List.mem_cons_self ..))
    have htail : ∀ d ∈ t, isPlain d = true := fun d hd => ht d (List.mem_cons_of_mem _ hd)
    rw [List.cons_append] at h
    by_cases hi : isIgnored c = true
    · rw [lexemes_ignored _ hi] at h
      obtain ⟨own, hown⟩ := lexemes_run t htail hr h
      refine ⟨own, fun rest hr => ?_⟩
      rw [List.cons_append, lexemes_ignored _ hi, hown rest hr]
    · have hi := Bool.eq_false_iff.mpr hi
      -- a lexeme that begins in the run ends in it, so what is left is a part of the run again
      rw [lexemes_lexeme _ hi hc.2.2.2, lexeme?_append t hc.2.2.1 hr] at h
      obtain ⟨⟨l, after⟩, hl, h⟩ := Option.bind_eq_some_iff.mp h
      obtain ⟨⟨l, u⟩, hlex, hpair⟩ := Option.map_eq_some_iff.mp hl
      obtain ⟨rfl, rfl⟩ := Prod.mk.inj hpair
      obtain ⟨ls, h, -⟩ := Option.map_eq_some_iff.mp h
      have hu := lexeme?_suffix hlex
      have hlen : u.length ≤ t.length := hu.length_le
      obtain ⟨own, hown⟩ := lexemes_run u (fun d hd => htail d (hu.subset hd)) hr h
      refine ⟨l :: own, fun rest hr => ?_⟩
      rw [List.cons_append, lexemes_lexeme _ hi hc.2.2.2, lexeme?_append t hc.2.2.1 hr, hlex]
      simp only [Option.map_some, Option.bind_some]
      rw [hown rest hr, Option.map_map]
      rfl
termination_by t.length
decreasing_by
  all_goals simp only [List.length_cons]; omega

theorem EndsBefore.ne_quote {text rest : Text} (h : EndsBefore (.string text) rest)
    (ht : text = ['"', '"']) : rest.head? ≠ some '"' := by
  cases h with
  | openString => exact nofun
  | string hin hne =>
    refine hne ?_
    have hlen := congrArg List.length ht
    simp only [List.length_cons, List.length_append, List.length_nil] at hlen
    exact List.eq_nil_of_length_eq_zero (by omega)

theorem string_hasLexemes {body rest : Text} (hin : Inside body)
    (hne : body = [] → rest.head? ≠ some '"') {ls : List Lexeme}
    (h : lexemes ('"' :: (body ++ '"' :: rest)) = some ls) :
    ∃ own, HasLexemes (.string ('"' :: (body ++ ['"']))) own := by
  rw [lexemes_quote, literal_string (hin.ne_quotes hne)] at h
  obtain ⟨p, hp, -⟩ := Option.bind_eq_some_iff.mp h
  obtain ⟨⟨value, after⟩, hvalue, -⟩ := Option.map_eq_some_iff.mp hp
  obtain ⟨-, hread⟩ := stringValue_closed hin hvalue
  refine ⟨[.string value], fun rest hends => ?_⟩
  have hne : body = [] → rest.head? ≠ some '"' := by
    rintro rfl
    exact hends.ne_quote rfl
  rw [Piece.text, List.cons_append, List.append_assoc, List.singleton_append, lexemes_quote,
    literal_string (hin.ne_quotes hne), hread]
  rfl

theorem blockString_hasLexemes {body rest : Text} (hin : InsideBlock (blockQuote ++ rest) body) :
    ∃ own, HasLexemes (.blockString (blockQuote ++ (body ++ blockQuote))) own := by
  obtain ⟨value, hread⟩ := blockValue_closed hin
  refine ⟨[.blockString value], fun rest _ => ?_⟩
  have htext : (Piece.blockString (blockQuote ++ (body ++ blockQuote))).text ++ rest =
      '"' :: '"' :: '"' :: (body ++ (blockQuote ++ rest)) := by simp [Piece.text, blockQuote]
  rw [htext, lexemes_quote, literal, hread]
  rfl

theorem EndsBefore.hasLexemes {p : Piece} {rest : Text} (hp : EndsBefore p rest) {ls : List Lexeme}
    (h : lexemes (p.text ++ rest) = some ls) : ∃ own, HasLexemes p own := by
  cases hp with
  | brace hc => exact ⟨[.punctuator _], fun rest _ => lexemes_brace rest hc⟩
  | run hne hplain hr =>
    obtain ⟨own, hown⟩ := lexemes_run _ hplain hr h
    refine ⟨own, fun rest hends => ?_⟩
    cases hends with
    | run _ _ hr => exact hown rest hr
  | string hin hne =>
    rw [Piece.text, List.cons_append, List.append_assoc] at h
    exact string_hasLexemes hin hne h
  | openString hopen =>
    rw [Piece.text, List.append_nil, lexemes_quote,
      literal_string fun r => hopen.ne_quote_cons _, stringValue_unclosed hopen] at h
    cases h
  | blockString hin => exact blockString_hasLexemes hin
  | @openBlockString body hopen =>
    have htext : (Piece.blockString (blockQuote ++ body)).text ++ [] =
        '"' :: '"' :: '"' :: body := by simp [Piece.text, blockQuote]
    rw [htext, lexemes_quote, literal, blockValue_unclosed hopen] at h
    cases h

/-! ## Documents -/

theorem lexeme?_gap {c : Char} (h : isGap c = true) (rest : Text) : lexeme? c rest = none := by
  have hp : isPunctuator c = false := Bool.eq_false_iff.mpr fun hp => by
    rw [(isPunctuator_cases hp).2.2] at h
    cases h
  have hn : isNameChar c = false := not_isNameChar_of_not_isPlain (by simp [isPlain, h])
  have hne : ∀ d : Char, isGap d = false → c ≠ d := by
    rintro d hd rfl
    rw [h] at hd
    cases hd
  rw [lexeme?, hp, not_isNameStart_of_not_isNameChar hn, not_isDigit_of_not_isNameChar hn,
    if_neg Bool.false_ne_true, if_neg Bool.false_ne_true, if_neg Bool.false_ne_true,
    if_neg (hne '"' (by decide)), if_neg (hne '-' (by decide)), if_neg (hne '.' (by decide))]

theorem Splits.hasLexemes {document : Text} {ps : List Piece} (hsplits : Splits document ps)
    {ls : List Lexeme} (h : lexemes document = some ls) :
    ∃ own, List.Forall₂ HasLexemes ps own ∧ own.flatten = ls := by
  induction hsplits generalizing ls with
  | nil =>
    rw [lexemes_nil] at h
    exact ⟨[], .nil, Option.some.inj h⟩
  | @gap c rest ps hc _ ih =>
    by_cases hi : isIgnored c = true
    · rw [lexemes_ignored _ hi] at h
      exact ih h
    · -- a blank that the language does not know makes the document unreadable
      rw [lexemes_cons, if_neg hi, if_neg (by rintro rfl; cases hc), lexeme?_gap hc] at h
      cases h
  | comment hb hr _ ih =>
    rw [lexemes_comment hb hr] at h
    exact ih h
  | piece hp _ ih =>
    obtain ⟨l, hl⟩ := hp.hasLexemes h
    rw [hl _ hp] at h
    obtain ⟨ls, hrest, rfl⟩ := Option.map_eq_some_iff.mp h
    obtain ⟨own, hown, rfl⟩ := ih hrest
    exact ⟨l :: own, .cons hl hown, rfl⟩

theorem lexemes_separator (previous : Option Piece) (t : Token) (rest : Text) :
    lexemes (separator previous t ++ rest) = lexemes rest := by
  obtain hs | hs := separator_cases previous t
  · rw [hs]; rfl
  · rw [hs]; exact lexemes_ignored _ (by decide)

theorem lexemes_layout {own : List (List Lexeme)} (previous : Option Piece) (g : Bool) (text : Text)
    (h : List.Forall₂ HasLexemes ((tokens g text).map Token.piece) own) :
    lexemes (layout previous (tokens g text)) = some own.flatten := by
  induction g, text using tokens_induction generalizing previous own with
  | nil g =>
    rw [tokens_nil] at h ⊢
    cases h
    exact lexemes_nil
  | gap g c rest hc ih => rw [tokens_gap _ _ hc] at h ⊢; exact ih previous h
  | comment g body rest hb hr ih => rw [tokens_comment _ hb hr] at h ⊢; exact ih previous h
  | piece g p rest hp ih =>
    rw [tokens_piece _ hp] at h ⊢
    cases h with
    | cons hl hown =>
      rw [layout, List.append_assoc, lexemes_separator, hl _ hp.layout, ih _ hown]
      rfl

/-- Compaction keeps the lexemes of a document that can be read. -/
theorem lexemes_compact {document : Text} {ls : List Lexeme} (h : lexemes document = some ls) :
    lexemes (compact document) = some ls := by
  obtain ⟨own, hown, rfl⟩ := (splits_tokens false document).hasLexemes h
  exact lexemes_layout none false document hown

end FieldSearch.GraphQL
