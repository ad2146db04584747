import FieldSearch.GraphQL.Document
import FieldSearch.Proofs.GraphQL.Scalar
import FieldSearch.Proofs.GraphQL.Syntax

/-!
# Texts that write lexemes

A text writes lexemes if it has them in front of every text that a name, a number and a string
literal all end before. Texts that write something are put side by side, joined, indented and nested
in blocks, and what they write is put together in the same way.
-/

namespace FieldSearch.GraphQL

/-- No name, number or string literal goes on into the text. -/
def Delimited (rest : Text) : Prop :=
  ∀ c ∈ rest.head?, isNameChar c = false ∧ c ≠ '.' ∧ c ≠ '"'

def Writes (text : Text) (ls : List Lexeme) : Prop :=
  ∀ rest, Delimited rest → lexemes (text ++ rest) = (lexemes rest).map (ls ++ ·)

/-- Each text writes its part of the lexemes. -/
inductive WritesAll : List Text → List Lexeme → Prop where
  | nil : WritesAll [] []
  | cons {text : Text} {texts : List Text} {l ls : List Lexeme} :
      Writes text l → WritesAll texts ls → WritesAll (text :: texts) (l ++ ls)

/-! ## Delimiters -/

theorem delimited_nil : Delimited [] := nofun

theorem delimited_cons {c : Char} (h : isNameChar c = false ∧ c ≠ '.' ∧ c ≠ '"') (rest : Text) :
    Delimited (c :: rest) := by
  intro d hd
  cases hd
  exact h

theorem Delimited.append {a b : Text} (ha : Delimited a) (hb : Delimited b) :
    Delimited (a ++ b) := by
  cases a with
  | nil => exact hb
  | cons c a => exact delimited_cons (ha c rfl) _

theorem Delimited.nameChar {rest : Text} (h : Delimited rest) :
    ∀ c ∈ rest.head?, isNameChar c = false := fun c hc => (h c hc).1

theorem Delimited.endsNumber {rest : Text} (h : Delimited rest) : Reader.endsNumber rest = true :=
  Reader.endsNumber_iff.mpr fun c hc => ⟨(h c hc).1, (h c hc).2.1⟩

theorem Delimited.ne_quote {rest : Text} (h : Delimited rest) : rest.head? ≠ some '"' :=
  fun hq => (h '"' hq).2.2 rfl

/-! ## Texts side by side -/

theorem writes_nil : Writes [] [] := fun rest _ => by simp

theorem Writes.append {a b : Text} {l m : List Lexeme} (ha : Writes a l) (hb : Writes b m)
    (hd : Delimited b) : Writes (a ++ b) (l ++ m) := by
  intro rest hrest
  rw [List.append_assoc, ha _ (hd.append hrest), hb _ hrest, Option.map_map]
  simp only [Function.comp_def, List.append_assoc]

theorem Writes.ignored {t : Text} {ls : List Lexeme} (h : Writes t ls) {c : Char}
    (hc : isIgnored c = true) : Writes (c :: t) ls := by
  intro rest hrest
  rw [List.cons_append, lexemes_ignored _ hc, h rest hrest]

theorem Writes.punctuator {t : Text} {ls : List Lexeme} (h : Writes t ls) {c : Char}
    (hc : isPunctuator c = true) : Writes (c :: t) (.punctuator c :: ls) := by
  intro rest hrest
  rw [List.cons_append, lexemes_punctuator hc, h rest hrest, Option.map_map]
  rfl

theorem writes_name {name : Text} (h : isName name = true) : Writes name [.name name] :=
  fun _ hrest => lexemes_name h hrest.nameChar

theorem writes_stringLiteral (t : Text) : Writes (stringLiteral t) [.string t] :=
  fun _ hrest => lexemes_stringLiteral t hrest.ne_quote

theorem writes_ofInt (n : Int) : Writes (Text.ofInt n) [.int n] :=
  fun _ hrest => lexemes_ofInt n hrest.endsNumber

theorem Writes.lexemes_eq {text : Text} {ls : List Lexeme} (h : Writes text ls) :
    lexemes text = some ls := by
  have := h [] delimited_nil
  rwa [List.append_nil, lexemes_nil, Option.map_some, List.append_nil] at this

/-! ## Texts joined -/

theorem Writes.ignoredAll {t : Text} {ls : List Lexeme} (h : Writes t ls) {gap : Text}
    (hgap : gap.all isIgnored = true) : Writes (gap ++ t) ls := by
  induction gap with
  | nil => exact h
  | cons c gap ih =>
    rw [List.all_cons, Bool.and_eq_true] at hgap
    exact (ih hgap.2).ignored hgap.1

theorem WritesAll.join {texts : List Text} {ls : List Lexeme} (h : WritesAll texts ls) {sep : Text}
    (hsep : sep.all isIgnored = true) (hd : ∀ t, Delimited (sep ++ t)) :
    Writes (Text.join sep texts) ls := by
  induction h with
  | nil => exact writes_nil
  | @cons text texts l ls htext htexts ih =>
    cases htexts with
    | nil => rw [List.append_nil, Text.join, List.intercalate_singleton]; exact htext
    | cons _ _ =>
      rw [Text.join, List.intercalate_cons_cons, List.append_assoc]
      exact htext.append (ih.ignoredAll hsep) (hd _)

theorem WritesAll.lines {texts : List Text} {ls : List Lexeme} (h : WritesAll texts ls) :
    Writes (Text.lines texts) ls :=
  h.join (by decide) fun t => delimited_cons (by decide) t

theorem WritesAll.commas {texts : List Text} {ls : List Lexeme} (h : WritesAll texts ls) :
    Writes (Text.join ", " texts) ls :=
  h.join (by decide) fun t => delimited_cons (by decide) (' ' :: t)

theorem WritesAll.singleton {text : Text} {ls : List Lexeme} (h : Writes text ls) :
    WritesAll [text] ls := by
  have := WritesAll.cons h .nil
  rwa [List.append_nil] at this

theorem WritesAll.append {a b : List Text} {l m : List Lexeme} (ha : WritesAll a l)
    (hb : WritesAll b m) : WritesAll (a ++ b) (l ++ m) := by
  induction ha with
  | nil => exact hb
  | cons htext _ ih => rw [List.append_assoc]; exact .cons htext ih

theorem WritesAll.indent {lines : List Text} {ls : List Lexeme} (h : WritesAll lines ls)
    (depth : Nat) : WritesAll (lines.map (indent depth)) ls := by
  induction h with
  | nil => exact .nil
  | cons htext _ ih =>
    refine .cons (htext.ignoredAll ?_) ih
    rw [List.all_eq_true]
    intro c hc
    rw [List.eq_of_mem_replicate hc]
    rfl

/-! ## Members, blocks and operations -/

theorem Writes.keyed {key value : Text} {ls : List Lexeme} (hkey : isName key = true)
    (h : Writes value ls) :
    Writes (key ++ ": " ++ value) (.name key :: .punctuator ':' :: ls) := by
  rw [List.append_assoc]
  exact (writes_name hkey).append ((h.ignored (by decide)).punctuator (by decide))
    (delimited_cons (by decide) _)

theorem WritesAll.enclosed {texts : List Text} {ls : List Lexeme} (h : WritesAll texts ls)
    {opening closing : Char} (ho : isPunctuator opening = true) (hc : isPunctuator closing = true)
    (hd : Delimited [closing]) : Writes (opening :: (Text.join ", " texts ++ [closing]))
      (.punctuator opening :: (ls ++ [.punctuator closing])) :=
  (h.commas.append (writes_nil.punctuator hc) hd).punctuator ho

theorem writesAll_block {opening : Text} {body : List Text} {l ls : List Lexeme}
    (hopening : Writes opening l) (hbody : WritesAll body ls) :
    WritesAll (block opening body) (l ++ .punctuator '\x7b' :: (ls ++ [.punctuator '\x7d'])) := by
  have hfirst : Writes (opening ++ " \x7b") (l ++ [.punctuator '\x7b']) :=
    hopening.append ((writes_nil.punctuator (by decide)).ignored (by decide))
      (delimited_cons (by decide) _)
  have hlast : Writes ['\x7d'] [.punctuator '\x7d'] := writes_nil.punctuator (by decide)
  have hall := WritesAll.cons hfirst ((hbody.indent 1).append (.singleton hlast))
  rw [List.append_assoc, List.singleton_append] at hall
  exact hall

theorem writes_operation {name : Text} (hname : isName name = true) {parts : List Text}
    {fs : List Field} (hparts : WritesAll parts (Field.listLexemes fs)) (hfs : fs ≠ []) :
    Writes (operation name parts) (Operation.lexemes ⟨.query, some name, fs⟩) := by
  have hclose : Writes ['\n', '\x7d'] [.punctuator '\x7d'] :=
    (writes_nil.punctuator (by decide)).ignored (by decide)
  have hlines := hparts.lines.append hclose (delimited_cons (by decide) _)
  have hbody : Writes (' ' :: '\x7b' :: '\n' :: (Text.lines parts ++ ['\n', '\x7d']))
      (Field.selectionLexemes fs) := by
    obtain ⟨f, fs, rfl⟩ := List.exists_cons_of_ne_nil hfs
    rw [Reader.selectionLexemes_cons]
    exact ((hlines.ignored (by decide)).punctuator (by decide)).ignored (by decide)
  have hrest := (writes_name hname).append hbody (delimited_cons (by decide) _)
  have hquery : Writes "query" [.name "query"] := writes_name (by decide)
  have hspace : Writes (' ' :: (name ++ _)) _ := hrest.ignored (by decide)
  have hall := hquery.append hspace (delimited_cons (by decide) _)
  have htext : operation name parts = "query".toList ++
      ' ' :: (name ++ ' ' :: '\x7b' :: '\n' :: (Text.lines parts ++ ['\n', '\x7d'])) := by
    have hquery : ("query " : Text) = "query".toList ++ [' '] := by decide
    have hopen : (" \x7b\n" : Text) = [' ', '\x7b', '\n'] := by decide
    have hclose : ("\n\x7d" : Text) = ['\n', '\x7d'] := by decide
    unfold operation
    rw [hquery, hopen, hclose]
    simp only [List.append_assoc, List.cons_append, List.nil_append]
  rw [htext]
  exact hall

end FieldSearch.GraphQL
