import FieldSearch.Text.Blank

/-!
# Pieces of a document

A document is a sequence of pieces: string literals, block string literals, braces, and runs of
other characters. Blanks, byte order marks and comments only separate them. A literal that is not
closed runs to the end of the text.
-/

namespace FieldSearch.GraphQL

inductive Piece where
  | string (text : Text)
  | blockString (text : Text)
  | brace (c : Char)
  | run (text : Text)
deriving DecidableEq

def isGap (c : Char) : Bool := Text.isBlank c || c = '\ufeff'

def isBrace (c : Char) : Bool := c = '\x7b' || c = '\x7d'

def isLineEnd (c : Char) : Bool := c = '\n' || c = '\r'

/-- The characters of which runs are made. -/
def isPlain (c : Char) : Bool := !isGap c && !isBrace c && c ≠ '"' && c ≠ '#'

namespace Piece

def text : Piece → Text
  | string t | blockString t | run t => t
  | brace c => [c]

def isBrace : Piece → Bool
  | brace _ => true
  | _ => false

end Piece

/-- The rest of a string literal after its opening quote, and what follows it. A backslash keeps
the next character from closing the literal. -/
def stringBody : Text → Text × Text
  | [] => ([], [])
  | '"' :: rest => (['"'], rest)
  | '\\' :: c :: rest => let (body, after) := stringBody rest; ('\\' :: c :: body, after)
  | c :: rest => let (body, after) := stringBody rest; (c :: body, after)

/-- The rest of a block string literal after its three opening quotes, and what follows it. -/
def blockBody : Text → Text × Text
  | [] => ([], [])
  | '"' :: '"' :: '"' :: rest => (['"', '"', '"'], rest)
  | '\\' :: '"' :: '"' :: '"' :: rest =>
    let (body, after) := blockBody rest; ('\\' :: '"' :: '"' :: '"' :: body, after)
  | c :: rest => let (body, after) := blockBody rest; (c :: body, after)

theorem stringBody_append (text : Text) : (stringBody text).1 ++ (stringBody text).2 = text := by
  fun_induction stringBody text <;> simp_all

theorem blockBody_append (text : Text) : (blockBody text).1 ++ (blockBody text).2 = text := by
  fun_induction blockBody text <;> simp_all

theorem length_stringBody_le (text : Text) : (stringBody text).2.length ≤ text.length := by
  have h := congrArg List.length (stringBody_append text)
  simp only [List.length_append] at h
  omega

theorem length_blockBody_le (text : Text) : (blockBody text).2.length ≤ text.length := by
  have h := congrArg List.length (blockBody_append text)
  simp only [List.length_append] at h
  omega

/-- The literal that an opening quote begins, and what follows it. Three quotes in a row begin a
block string. -/
def literalPiece : Text → Piece × Text
  | '"' :: '"' :: rest =>
    (.blockString ('"' :: '"' :: '"' :: (blockBody rest).1), (blockBody rest).2)
  | rest => (.string ('"' :: (stringBody rest).1), (stringBody rest).2)

theorem literalPiece_append (rest : Text) :
    (literalPiece rest).1.text ++ (literalPiece rest).2 = '"' :: rest := by
  fun_cases literalPiece rest <;> simp [Piece.text, blockBody_append, stringBody_append]

theorem length_literalPiece_le (rest : Text) : (literalPiece rest).2.length ≤ rest.length := by
  fun_cases literalPiece rest with
  | case1 rest => have := length_blockBody_le rest; simp only [List.length_cons]; omega
  | case2 rest => exact length_stringBody_le rest

/-- A piece, and whether something separates it from what stands before it. -/
structure Token where
  gap : Bool
  piece : Piece
deriving DecidableEq

theorem length_dropWhile_le (p : Char → Bool) (text : Text) :
    (text.dropWhile p).length ≤ text.length := (List.dropWhile_sublist p).length_le

/-- The pieces of a text, where `gap` says whether a separator has just been passed. -/
def tokens (gap : Bool) : Text → List Token
  | [] => []
  | c :: rest =>
    if isGap c then tokens true rest
    else if c = '#' then tokens true (rest.dropWhile (!isLineEnd ·))
    else if isBrace c then ⟨gap, .brace c⟩ :: tokens false rest
    else if c = '"' then ⟨gap, (literalPiece rest).1⟩ :: tokens false (literalPiece rest).2
    else ⟨gap, .run (c :: rest.takeWhile isPlain)⟩ :: tokens false (rest.dropWhile isPlain)
termination_by text => text.length
decreasing_by
  all_goals simp only [List.length_cons]
  · omega
  · have := length_dropWhile_le (!isLineEnd ·) rest; omega
  · omega
  · have := length_literalPiece_le rest; omega
  · have := length_dropWhile_le isPlain rest; omega

def pieces (document : Text) : List Piece := (tokens false document).map Token.piece

/-- One blank between two pieces that were separated, none next to a brace. -/
def separator (previous : Option Piece) (t : Token) : Text :=
  match previous with
  | none => []
  | some p => if t.gap && !p.isBrace && !t.piece.isBrace then [' '] else []

def layout : Option Piece → List Token → Text
  | _, [] => []
  | previous, t :: rest => separator previous t ++ t.piece.text ++ layout (some t.piece) rest

/-- The same pieces with as little between them as keeps them apart. -/
def compact (document : Text) : Text := layout none (tokens false document)

end FieldSearch.GraphQL
