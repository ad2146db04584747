import FieldSearch.Yaml.Token.Block
import FieldSearch.Yaml.Token.Plain
import FieldSearch.Yaml.Token.Quoted
import FieldSearch.Yaml.Token.Tag

/-!
# The order of tokens

The lexer follows the indentation of blocks and the nesting of brackets. A word may turn out to be a
key only when a colon follows it on the same line, at most 1024 characters later; the marks for the
key, and for the mapping that it may begin, are then put in front of it.
-/

namespace FieldSearch.Yaml

/-- A place that begins a key if a colon follows. -/
structure PossibleKey where
  place : Nat
  isNeeded : Bool
  index : Nat
  line : Nat
  column : Nat

/-- The state of the lexer; tokens are kept newest first. -/
structure Lexer where
  cursor : Cursor
  depth : Nat := 0
  indent : Int := -1
  outer : List Int := []
  allowsKey : Bool := true
  keys : List (Nat × PossibleKey) := []
  tokens : List Token := []

namespace Lexer

def inFlow (l : Lexer) : Bool := l.depth ≠ 0

def column (l : Lexer) : Int := l.cursor.column

def emit (l : Lexer) (t : Token) : Lexer := { l with tokens := t :: l.tokens }

def take (l : Lexer) (t : Token) (n : Nat) : Lexer :=
  { l.emit t with cursor := l.cursor.skip n }

/-! ## Possible keys -/

def keyLimit : Nat := 1024

def isStale (l : Lexer) (k : PossibleKey) : Bool :=
  k.line ≠ l.cursor.line || keyLimit < l.cursor.index - k.index

/-- Gives up some possible keys; one that is needed cannot be given up. -/
def forgetKeys (l : Lexer) (p : Nat × PossibleKey → Bool) : Except Fault Lexer :=
  if l.keys.any fun k => p k && k.2.isNeeded then .error .malformed
  else .ok { l with keys := l.keys.filter fun k => !p k }

def forgetStale (l : Lexer) : Except Fault Lexer := l.forgetKeys fun k => l.isStale k.2

def forgetKey (l : Lexer) : Except Fault Lexer := l.forgetKeys fun k => k.1 = l.depth

def markKey (l : Lexer) : Except Fault Lexer :=
  if l.allowsKey then do
    let l ← l.forgetKey
    let key : PossibleKey :=
      { place := l.tokens.length
        isNeeded := !l.inFlow && l.indent = l.column
        index := l.cursor.index, line := l.cursor.line, column := l.cursor.column }
    .ok { l with keys := (l.depth, key) :: l.keys }
  else .ok l

/-- Puts a token in front of those after a place. -/
def insertAt (l : Lexer) (place : Nat) (t : Token) : Lexer :=
  let n := l.tokens.length - place
  { l with tokens := l.tokens.take n ++ t :: l.tokens.drop n }

/-! ## Indentation -/

/-- Closes the blocks that are deeper than a column; inside of brackets indentation does not count. -/
def unwind (l : Lexer) (column : Int) : Lexer :=
  if l.inFlow then l else go l l.outer
where
  go (l : Lexer) : List Int → Lexer
    | [] => l
    | indent :: outer =>
      if column < l.indent then go { l.emit .blockEnd with indent, outer } outer else l

/-- Enters a block at a column, if it is deeper than the current one. -/
def deepen (l : Lexer) (column : Int) : Lexer :=
  { l with indent := column, outer := l.indent :: l.outer }

/-- Enters a block at the current column, if that begins one. -/
def begin (l : Lexer) (t : Token) : Lexer :=
  if l.inFlow || l.column ≤ l.indent then l else (l.emit t).deepen l.column

/-! ## Single tokens -/

def word (l : Lexer) (read : Token.Reader Token) : Except Fault Lexer := do
  let l ← l.markKey
  let (t, cursor) ← read l.cursor
  .ok { l.emit t with cursor, allowsKey := false }

def plain (l : Lexer) : Except Fault Lexer := do
  let l ← l.markKey
  let c := l.cursor
  let (text, crossed, cursor) :=
    Token.plainWords l.inFlow (l.indent + 1) (c.rest.length + 1) [] false c
  .ok { l.emit (.scalar text true) with cursor, allowsKey := crossed }

def block (l : Lexer) (folded : Bool) : Except Fault Lexer := do
  let l ← l.forgetKey
  let (t, cursor) ← Token.readBlock folded l.indent l.cursor
  .ok { l.emit t with cursor, allowsKey := true }

/-- A line at the margin: a directive or the mark of a document. -/
def atMargin (l : Lexer) (read : Token.Reader Token) : Except Fault Lexer := do
  let l ← (l.unwind (-1)).forgetKey
  let (t, cursor) ← read l.cursor
  .ok { l.emit t with cursor, allowsKey := false }

def marker (t : Token) : Token.Reader Token := fun c => .ok (t, c.skip 3)

def opening (l : Lexer) (t : Token) : Except Fault Lexer := do
  let l ← l.markKey
  .ok { l.take t 1 with depth := l.depth + 1, allowsKey := true }

def closing (l : Lexer) (t : Token) : Except Fault Lexer := do
  let l ← l.forgetKey
  if l.inFlow then .ok { l.take t 1 with depth := l.depth - 1, allowsKey := false }
  else .error .malformed

def comma (l : Lexer) : Except Fault Lexer := do
  let l ← l.forgetKey
  .ok { l.take .comma 1 with allowsKey := true }

def entry (l : Lexer) : Except Fault Lexer := do
  if !l.inFlow && !l.allowsKey then .error .malformed
  else
    let l ← (l.begin .sequenceStart).forgetKey
    .ok { l.take .entry 1 with allowsKey := true }

def key (l : Lexer) : Except Fault Lexer := do
  if !l.inFlow && !l.allowsKey then .error .malformed
  else
    let l ← (l.begin .mappingStart).forgetKey
    .ok { l.take .key 1 with allowsKey := !l.inFlow }

/-- The mapping that a key begins stands in front of it. -/
def insertKey (l : Lexer) (k : PossibleKey) : Lexer :=
  let l := l.insertAt k.place .key
  if !l.inFlow && l.indent < k.column then (l.insertAt k.place .mappingStart).deepen k.column else l

def value (l : Lexer) : Except Fault Lexer := do
  match l.keys.lookup l.depth with
  | some k =>
    let l := { l with keys := l.keys.filter (·.1 ≠ l.depth) }
    .ok { (l.insertKey k).take .value 1 with allowsKey := false }
  | none =>
    if !l.inFlow && !l.allowsKey then .error .malformed
    else
      let l := l.begin .mappingStart
      .ok { l.take .value 1 with allowsKey := !l.inFlow }

/-! ## Reading on -/

/-- Blanks, comments and line ends in front of a token. -/
def skipBlanks : Nat → Lexer → Lexer
  | 0, l => l
  | fuel + 1, l =>
    let c := l.cursor.skipSpaces.skipComment
    match c.lineBreak? with
    | some (_, cursor) => skipBlanks fuel { l with cursor, allowsKey := l.allowsKey || !l.inFlow }
    | none => { l with cursor := c }

/-- Whether a plain scalar begins with a character that has another word after it. -/
def beginsPlain (l : Lexer) (c : Char) (rest : Text) : Bool :=
  if isBlank c then false
  else if c ∈ ("-?:,[]\x7b\x7d#&*!|>'\"%@\x60" : Text) then
    !endsWord rest && (c = '-' || (!l.inFlow && (c = '?' || c = ':')))
  else true

/-- The token that begins with a character at the cursor. -/
def token (l : Lexer) (c : Char) (rest : Text) : Except Fault Lexer :=
  let margin := l.cursor.column = 0
  if c = '%' && margin then l.atMargin Token.readDirective
  else if margin && isMarker '-' (c :: rest) then l.atMargin (marker .documentStart)
  else if margin && isMarker '.' (c :: rest) then l.atMargin (marker .documentEnd)
  else if c = '[' then l.opening .listStart
  else if c = '\x7b' then l.opening .objectStart
  else if c = ']' then l.closing .listEnd
  else if c = '\x7d' then l.closing .objectEnd
  else if c = ',' then l.comma
  else if c = '-' && endsWord rest then l.entry
  else if c = '?' && (l.inFlow || endsWord rest) then l.key
  else if c = ':' && (l.inFlow || endsWord rest) then l.value
  else if c = '*' then l.word fun c => (Token.anchorName c.next).map fun (n, c) => (.alias n, c)
  else if c = '&' then l.word fun c => (Token.anchorName c.next).map fun (n, c) => (.anchor n, c)
  else if c = '!' then l.word Token.readTag
  else if c = '|' && !l.inFlow then l.block false
  else if c = '>' && !l.inFlow then l.block true
  else if c = '\'' then l.word (Token.readQuoted false)
  else if c = '"' then l.word (Token.readQuoted true)
  else if l.beginsPlain c rest then l.plain
  else .error .malformed

/-- The tokens that nothing can be put in front of any more, oldest first. -/
def settled (l : Lexer) : List Token :=
  l.tokens.reverse.take ((l.keys.map (·.2.place)).foldl min l.tokens.length)

/-- The tokens up to the end, or to a word that makes the lexer crash. -/
def run : Nat → Lexer → Except Fault (List Token × Option Crash)
  | 0, _ => .error .malformed
  | fuel + 1, l => do
    let l := l.skipBlanks (l.cursor.rest.length + 1)
    let l := (← l.forgetStale).unwind l.column
    match l.cursor.rest with
    | [] => .ok ((← (l.unwind (-1)).forgetKey).tokens.reverse, none)
    | c :: rest =>
      match l.token c rest with
      | .ok l => run fuel l
      | .error (.crash crash) => .ok (l.settled, some crash)
      | .error .malformed => .error .malformed

end Lexer

/-- The tokens of a text, which may begin with a byte order mark. They are read one by one, so the
fault of a text may lie in those before a word that makes the lexer crash. -/
def Token.ofText? (text : Text) : Except Fault (List Token × Option Crash) :=
  if !text.all isAllowed then .error .malformed
  else
    let cursor : Cursor := { rest := text }
    let l : Lexer := { cursor := if cursor.sees byteOrderMark then cursor.next else cursor }
    l.run (text.length + 2)

end FieldSearch.Yaml
