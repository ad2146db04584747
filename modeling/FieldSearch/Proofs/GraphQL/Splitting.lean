import FieldSearch.GraphQL.Piece
import FieldSearch.Proofs.Text.Spans

/-!
# The pieces of a document, as a grammar

`Splits document ps` says that a document is a sequence of pieces with separators between them,
without saying how the pieces are found. A document splits in exactly one way, and `pieces` finds
it.
-/

namespace FieldSearch.GraphQL

def blockQuote : Text := ['"', '"', '"']

def escapedBlockQuote : Text := '\\' :: blockQuote

/-- The inside of a string literal: each quote in it stands behind a backslash that keeps it. -/
inductive Inside : Text → Prop where
  | nil : Inside []
  | plain {c : Char} {t : Text} : c ≠ '"' → c ≠ '\\' → Inside t → Inside (c :: t)
  | escape {c : Char} {t : Text} : Inside t → Inside ('\\' :: c :: t)

/-- What follows the opening quote of a string literal that the end of the text cuts off, perhaps
after a backslash. -/
inductive Unclosed : Text → Prop where
  | nil : Unclosed []
  | backslash : Unclosed ['\\']
  | plain {c : Char} {t : Text} : c ≠ '"' → c ≠ '\\' → Unclosed t → Unclosed (c :: t)
  | escape {c : Char} {t : Text} : Unclosed t → Unclosed ('\\' :: c :: t)

/-- The inside of a block string literal in front of `after`: every three quotes in a row that
begin in it stand behind a backslash. -/
inductive InsideBlock (after : Text) : Text → Prop where
  | nil : InsideBlock after []
  | plain {c : Char} {t : Text} : ¬ blockQuote <+: c :: t ++ after →
      ¬ escapedBlockQuote <+: c :: t ++ after → InsideBlock after t → InsideBlock after (c :: t)
  | escape {t : Text} : InsideBlock after t → InsideBlock after (escapedBlockQuote ++ t)

/-- The piece, as it stands in front of `rest`, goes no further. -/
inductive EndsBefore : Piece → Text → Prop where
  | brace {c : Char} {rest : Text} : isBrace c = true → EndsBefore (.brace c) rest
  | run {text rest : Text} : text ≠ [] → (∀ c ∈ text, isPlain c = true) →
      (∀ c ∈ rest.head?, isPlain c = false) → EndsBefore (.run text) rest
  | string {body rest : Text} : Inside body → (body = [] → rest.head? ≠ some '"') →
      EndsBefore (.string ('"' :: (body ++ ['"']))) rest
  | openString {body : Text} : Unclosed body → EndsBefore (.string ('"' :: body)) []
  | blockString {body rest : Text} : InsideBlock (blockQuote ++ rest) body →
      EndsBefore (.blockString (blockQuote ++ (body ++ blockQuote))) rest
  | openBlockString {body : Text} : InsideBlock [] body →
      EndsBefore (.blockString (blockQuote ++ body)) []

/-- The document is these pieces, in this order, with nothing but blanks, byte order marks and
comments between them. -/
inductive Splits : Text → List Piece → Prop where
  | nil : Splits [] []
  | gap {c : Char} {rest : Text} {ps : List Piece} :
      isGap c = true → Splits rest ps → Splits (c :: rest) ps
  | comment {body rest : Text} {ps : List Piece} :
      (∀ c ∈ body, isLineEnd c = false) → (∀ c ∈ rest.head?, isLineEnd c = true) →
      Splits rest ps → Splits ('#' :: (body ++ rest)) ps
  | piece {p : Piece} {rest : Text} {ps : List Piece} :
      EndsBefore p rest → Splits rest ps → Splits (p.text ++ rest) (p :: ps)

/-! ## Kinds of characters -/

theorem isPlain_iff {c : Char} : isPlain c = true ↔
    isGap c = false ∧ isBrace c = false ∧ c ≠ '"' ∧ c ≠ '#' := by
  simp [isPlain, and_assoc]

theorem isBrace_iff {c : Char} : isBrace c = true ↔ c = '\x7b' ∨ c = '\x7d' := by
  simp [isBrace]

/-! ## String literals -/

theorem stringBody_plain {c : Char} (rest : Text) (hq : c ≠ '"') (hb : c ≠ '\\') :
    stringBody (c :: rest) = (c :: (stringBody rest).1, (stringBody rest).2) := by
  rw [stringBody]
  · intro h; exact hq h
  · intro _ _ h; exact absurd h hb

theorem stringBody_closed {body : Text} (h : Inside body) (after : Text) :
    stringBody (body ++ '"' :: after) = (body ++ ['"'], after) := by
  induction h with
  | nil => simp [stringBody]
  | plain hq hb _ ih => rw [List.cons_append, stringBody_plain _ hq hb, ih]; rfl
  | escape _ ih => rw [List.cons_append, List.cons_append, stringBody, ih]; rfl

theorem stringBody_unclosed {body : Text} (h : Unclosed body) : stringBody body = (body, []) := by
  induction h with
  | nil => rfl
  | backslash => rfl
  | plain hq hb _ ih => rw [stringBody_plain _ hq hb, ih]
  | escape _ ih => rw [stringBody, ih]

theorem stringBody_cases (t : Text) :
    (∃ body after, Inside body ∧ stringBody t = (body ++ ['"'], after)) ∨
      Unclosed t ∧ stringBody t = (t, []) := by
  fun_induction stringBody t with
  | case1 => exact Or.inr ⟨.nil, rfl⟩
  | case2 rest => exact Or.inl ⟨[], rest, .nil, rfl⟩
  | case3 c rest body after heq ih =>
    rw [heq] at ih
    obtain ⟨b, a, hin, hba⟩ | ⟨hopen, hba⟩ := ih
    · obtain ⟨rfl, rfl⟩ := Prod.mk.inj hba
      exact Or.inl ⟨'\\' :: c :: b, after, .escape hin, rfl⟩
    · obtain ⟨rfl, rfl⟩ := Prod.mk.inj hba
      exact Or.inr ⟨.escape hopen, rfl⟩
  | case4 c rest hq hb body after heq ih =>
    by_cases hc : c = '\\'
    · -- a backslash that keeps nothing is the last character
      cases rest with
      | nil =>
        subst hc
        obtain ⟨rfl, rfl⟩ := Prod.mk.inj heq
        exact Or.inr ⟨.backslash, rfl⟩
      | cons d rest => exact absurd rfl (hb d rest hc)
    · rw [heq] at ih
      obtain ⟨b, a, hin, hba⟩ | ⟨hopen, hba⟩ := ih
      · obtain ⟨rfl, rfl⟩ := Prod.mk.inj hba
        exact Or.inl ⟨c :: b, after, .plain hq hc hin, rfl⟩
      · obtain ⟨rfl, rfl⟩ := Prod.mk.inj hba
        exact Or.inr ⟨.plain hq hc hopen, rfl⟩

theorem Inside.append {a b : Text} (ha : Inside a) (hb : Inside b) : Inside (a ++ b) := by
  induction ha with
  | nil => exact hb
  | plain hq hs _ ih => exact .plain hq hs ih
  | escape _ ih => exact .escape ih

theorem Inside.ne_quote_cons {body : Text} (h : Inside body) (r : Text) : body ≠ '"' :: r := by
  rintro rfl
  cases h with
  | plain hq _ _ => exact hq rfl

theorem Unclosed.ne_quote_cons {body : Text} (h : Unclosed body) (r : Text) : body ≠ '"' :: r := by
  rintro rfl
  cases h with
  | plain hq _ _ => exact hq rfl

theorem Inside.not_unclosed {body : Text} (h : Inside body) (r : Text) :
    ¬ Unclosed (body ++ '"' :: r) := by
  intro hopen
  generalize ht : body ++ '"' :: r = t at hopen
  induction h generalizing t with
  | nil => exact hopen.ne_quote_cons r ht.symm
  | plain _ hb _ ih =>
    cases hopen with
    | nil => cases ht
    | backslash => exact hb (List.cons.inj ht).1
    | plain _ _ hopen => exact ih _ (List.cons.inj ht).2 hopen
    | escape _ => exact hb (List.cons.inj ht).1
  | escape _ ih =>
    cases hopen with
    | nil => cases ht
    | backslash => cases (List.cons.inj ht).2
    | plain _ hb _ => exact hb (List.cons.inj ht).1.symm
    | escape hopen => exact ih _ (List.cons.inj (List.cons.inj ht).2).2 hopen

/-! ## Block string literals -/

theorem blockBody_closing (after : Text) :
    blockBody (blockQuote ++ after) = (blockQuote, after) := by
  simp [blockQuote, blockBody]

theorem blockBody_escape (rest : Text) : blockBody (escapedBlockQuote ++ rest) =
    (escapedBlockQuote ++ (blockBody rest).1, (blockBody rest).2) := by
  simp [escapedBlockQuote, blockQuote, blockBody]

theorem blockBody_plain {c : Char} {rest : Text} (hq : ¬ blockQuote <+: c :: rest)
    (he : ¬ escapedBlockQuote <+: c :: rest) :
    blockBody (c :: rest) = (c :: (blockBody rest).1, (blockBody rest).2) := by
  rw [blockBody]
  · rintro r rfl rfl; exact hq ⟨r, rfl⟩
  · rintro r rfl rfl; exact he ⟨r, rfl⟩

theorem blockBody_closed {body after : Text} (h : InsideBlock (blockQuote ++ after) body) :
    blockBody (body ++ (blockQuote ++ after)) = (body ++ blockQuote, after) := by
  induction h with
  | nil => exact blockBody_closing after
  | plain hq he _ ih =>
    rw [List.cons_append] at hq he ⊢
    rw [blockBody_plain hq he, ih]; rfl
  | escape _ ih => rw [List.append_assoc, blockBody_escape, ih, List.append_assoc]

theorem blockBody_unclosed {body : Text} (h : InsideBlock [] body) :
    blockBody body = (body, []) := by
  induction h with
  | nil => rfl
  | plain hq he _ ih =>
    rw [List.append_nil] at hq he
    rw [blockBody_plain hq he, ih]
  | escape _ ih => rw [blockBody_escape, ih]

theorem blockBody_cases (t : Text) :
    (∃ body after, InsideBlock (blockQuote ++ after) body ∧
      blockBody t = (body ++ blockQuote, after)) ∨ InsideBlock [] t ∧ blockBody t = (t, []) := by
  fun_induction blockBody t with
  | case1 => exact Or.inr ⟨.nil, rfl⟩
  | case2 rest => exact Or.inl ⟨[], rest, .nil, rfl⟩
  | case3 rest body after heq ih =>
    rw [heq] at ih
    obtain ⟨b, a, hin, hba⟩ | ⟨hopen, hba⟩ := ih
    · obtain ⟨rfl, rfl⟩ := Prod.mk.inj hba
      exact Or.inl ⟨escapedBlockQuote ++ b, after, .escape hin, rfl⟩
    · obtain ⟨rfl, rfl⟩ := Prod.mk.inj hba
      exact Or.inr ⟨.escape hopen, rfl⟩
  | case4 c rest hq he body after heq ih =>
    have hq' : ¬ blockQuote <+: c :: rest := by
      rintro ⟨r, hr⟩; cases hr; exact hq r rfl rfl
    have he' : ¬ escapedBlockQuote <+: c :: rest := by
      rintro ⟨r, hr⟩; cases hr; exact he r rfl rfl
    have happ := blockBody_append rest
    rw [heq] at ih
    obtain ⟨b, a, hin, hba⟩ | ⟨hopen, hba⟩ := ih
    · obtain ⟨rfl, rfl⟩ := Prod.mk.inj hba
      -- the grammar looks at the text up to the end of the document, so the rest is spelled out
      have hrest : rest = b ++ (blockQuote ++ after) := by
        rw [← happ, heq, List.append_assoc]
      rw [hrest] at hq' he'
      exact Or.inl ⟨c :: b, after, .plain hq' he' hin, rfl⟩
    · obtain ⟨rfl, rfl⟩ := Prod.mk.inj hba
      refine Or.inr ⟨.plain ?_ ?_ hopen, rfl⟩
      · rwa [List.append_nil]
      · rwa [List.append_nil]

/-! ## Literals of both kinds -/

theorem literalPiece_block (rest : Text) : literalPiece ('"' :: '"' :: rest) =
    (.blockString (blockQuote ++ (blockBody rest).1), (blockBody rest).2) := rfl

theorem literalPiece_string {rest : Text} (h : ∀ r, rest ≠ '"' :: '"' :: r) :
    literalPiece rest = (.string ('"' :: (stringBody rest).1), (stringBody rest).2) := by
  rw [literalPiece]
  exact fun r hr => h r hr

theorem literalPiece_endsBefore (rest : Text) :
    EndsBefore (literalPiece rest).1 (literalPiece rest).2 := by
  fun_cases literalPiece rest with
  | case1 rest =>
    obtain ⟨body, after, hin, hba⟩ | ⟨hopen, hba⟩ := blockBody_cases rest
    · rw [hba]; exact .blockString hin
    · rw [hba]; exact .openBlockString hopen
  | case2 rest hne =>
    have happ := stringBody_append rest
    obtain ⟨body, after, hin, hba⟩ | ⟨hopen, hba⟩ := stringBody_cases rest
    · rw [hba] at happ ⊢
      -- an empty literal in front of a quote would have been a block string
      refine .string hin ?_
      rintro rfl hafter
      cases after with
      | nil => cases hafter
      | cons d after => cases hafter; exact hne after happ.symm
    · rw [hba]; exact .openString hopen

theorem Inside.ne_quotes {body rest : Text} (h : Inside body)
    (hne : body = [] → rest.head? ≠ some '"') (r : Text) :
    body ++ '"' :: rest ≠ '"' :: '"' :: r := by
  intro hr
  cases body with
  | nil => cases rest with
    | nil => cases hr
    | cons d rest => cases hr; exact hne rfl rfl
  | cons c body => exact h.ne_quote_cons body (by rw [(List.cons.inj hr).1])

/-! ## What `tokens` does with a text -/

theorem tokens_nil (g : Bool) : tokens g [] = [] := by rw [tokens.eq_def]

theorem tokens_cons (g : Bool) (c : Char) (rest : Text) : tokens g (c :: rest) =
    if isGap c then tokens true rest
    else if c = '#' then tokens true (rest.dropWhile (!isLineEnd ·))
    else if isBrace c then ⟨g, .brace c⟩ :: tokens false rest
    else if c = '"' then ⟨g, (literalPiece rest).1⟩ :: tokens false (literalPiece rest).2
    else ⟨g, .run (c :: rest.takeWhile isPlain)⟩ :: tokens false (rest.dropWhile isPlain) := by
  rw [tokens.eq_def]

theorem tokens_gap (g : Bool) {c : Char} (rest : Text) (h : isGap c = true) :
    tokens g (c :: rest) = tokens true rest := by
  rw [tokens_cons, if_pos h]

theorem tokens_comment (g : Bool) {body rest : Text} (hb : ∀ c ∈ body, isLineEnd c = false)
    (hr : ∀ c ∈ rest.head?, isLineEnd c = true) :
    tokens g ('#' :: (body ++ rest)) = tokens true rest := by
  rw [tokens_cons, if_neg (by decide), if_pos rfl,
    dropWhile_append_stop (by simpa using hb) (by simpa using hr)]

theorem tokens_quote (g : Bool) (rest : Text) :
    tokens g ('"' :: rest) = ⟨g, (literalPiece rest).1⟩ :: tokens false (literalPiece rest).2 := by
  rw [tokens_cons, if_neg (by decide), if_neg (by decide), if_neg (by decide), if_pos rfl]

theorem tokens_piece (g : Bool) {p : Piece} {rest : Text} (h : EndsBefore p rest) :
    tokens g (p.text ++ rest) = ⟨g, p⟩ :: tokens false rest := by
  cases h with
  | brace hc =>
    rw [Piece.text, List.singleton_append, tokens_cons]
    rcases isBrace_iff.mp hc with rfl | rfl <;> rfl
  | @run text rest hne hp hr =>
    cases text with
    | nil => exact absurd rfl hne
    | cons c text =>
      obtain ⟨hg, hb, hq, hh⟩ := isPlain_iff.mp (hp c (List.mem_cons_self ..))
      have htext : ∀ d ∈ text, isPlain d = true := fun d hd => hp d (List.mem_cons_of_mem _ hd)
      rw [Piece.text, List.cons_append, tokens_cons, takeWhile_append_stop htext hr,
        dropWhile_append_stop htext hr]
      simp [hg, hb, hq, hh]
  | @string body rest hin hne =>
    rw [Piece.text, List.cons_append, List.append_assoc, tokens_quote, List.singleton_append,
      literalPiece_string (hin.ne_quotes hne), stringBody_closed hin]
  | @openString body hopen =>
    rw [Piece.text, List.append_nil, tokens_quote,
      literalPiece_string fun r => hopen.ne_quote_cons _, stringBody_unclosed hopen]
  | @blockString body rest hin =>
    have htext : (Piece.blockString (blockQuote ++ (body ++ blockQuote))).text ++ rest =
        '"' :: '"' :: '"' :: (body ++ (blockQuote ++ rest)) := by simp [Piece.text, blockQuote]
    rw [htext, tokens_quote, literalPiece_block, blockBody_closed hin]
  | @openBlockString body hopen =>
    have htext : (Piece.blockString (blockQuote ++ body)).text ++ [] =
        '"' :: '"' :: '"' :: body := by simp [Piece.text, blockQuote]
    rw [htext, tokens_quote, literalPiece_block, blockBody_unclosed hopen]

theorem tokens_induction {motive : Bool → Text → Prop} (nil : ∀ g, motive g [])
    (gap : ∀ g c rest, isGap c = true → motive true rest → motive g (c :: rest))
    (comment : ∀ g body rest, (∀ c ∈ body, isLineEnd c = false) →
      (∀ c ∈ rest.head?, isLineEnd c = true) → motive true rest → motive g ('#' :: (body ++ rest)))
    (piece : ∀ g p rest, EndsBefore p rest → motive false rest → motive g (p.text ++ rest))
    (g : Bool) (text : Text) : motive g text := by
  fun_induction tokens g text with
  | case1 g => exact nil g
  | case2 g c rest hc ih => exact gap g c rest hc ih
  | case3 g rest hc ih =>
    have hbody : ∀ c ∈ rest.takeWhile (!isLineEnd ·), isLineEnd c = false := fun c hc => by
      simpa using List.mem_takeWhile_imp hc
    have h := comment g _ _ hbody (fun c hc => by simpa using head_dropWhile c hc) ih
    rwa [List.takeWhile_append_dropWhile] at h
  | case4 g c rest _ _ hb ih => exact piece g (.brace c) rest (.brace hb) ih
  | case5 g rest _ _ _ ih =>
    have h := piece g _ _ (literalPiece_endsBefore rest) ih
    rwa [literalPiece_append] at h
  | case6 g c rest hg hh hb hq ih =>
    have hc : isPlain c = true := isPlain_iff.mpr ⟨by simpa using hg, by simpa using hb, hq, hh⟩
    have hp : ∀ d ∈ c :: rest.takeWhile isPlain, isPlain d = true := by
      intro d hd
      rcases List.mem_cons.mp hd with rfl | hd
      · exact hc
      · exact List.mem_takeWhile_imp hd
    have h := piece g _ _ (.run (List.cons_ne_nil _ _) hp head_dropWhile) ih
    rwa [Piece.text, List.cons_append, List.takeWhile_append_dropWhile] at h

/-! ## Documents -/

theorem Splits.map_piece_tokens {document : Text} {ps : List Piece} (h : Splits document ps)
    (g : Bool) : (tokens g document).map Token.piece = ps := by
  induction h generalizing g with
  | nil => rw [tokens_nil]; rfl
  | gap hc _ ih => rw [tokens_gap _ _ hc, ih]
  | comment hb hr _ ih => rw [tokens_comment _ hb hr, ih]
  | piece hp _ ih => rw [tokens_piece _ hp, List.map_cons, ih]

theorem splits_tokens (g : Bool) (text : Text) :
    Splits text ((tokens g text).map Token.piece) := by
  induction g, text using tokens_induction with
  | nil g => rw [tokens_nil]; exact .nil
  | gap g c rest hc ih => rw [tokens_gap _ _ hc]; exact .gap hc ih
  | comment g body rest hb hr ih => rw [tokens_comment _ hb hr]; exact .comment hb hr ih
  | piece g p rest hp ih => rw [tokens_piece _ hp]; exact .piece hp ih

/-- A document splits into its pieces and in no other way. -/
theorem splits_iff {document : Text} {ps : List Piece} :
    Splits document ps ↔ ps = pieces document := by
  constructor
  · intro h; exact (h.map_piece_tokens false).symm
  · rintro rfl; exact splits_tokens false document

end FieldSearch.GraphQL
