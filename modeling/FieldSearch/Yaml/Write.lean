import FieldSearch.Yaml.Kind
import FieldSearch.Yaml.Cursor

/-!
# Writing scalars

A text is written as it is where it reads back as the same text; else between single quotes, where
a line feed is written twice; else between double quotes, which have a notation for every
character. The two lesser forms hold neither control characters nor blanks around line breaks.
-/

namespace FieldSearch.Yaml

namespace Write

/-- The breaks that a text may hold outside of double quotes. -/
def isWritableBreak (c : Char) : Bool := isBreak c && c ≠ '\r'

/-- Whether a character needs the notation of double quotes. -/
def isSpecial (c : Char) : Bool :=
  !(c = '\n' || (isAllowed c && c ≠ '\t' && c ≠ '\r' && c ≠ byteOrderMark && c.toNat < 0x10FFFF))

/-- Whether a space and a break stand side by side somewhere. -/
def hasBlankLineEnd : Text → Bool
  | a :: b :: rest =>
    (a = ' ' && isWritableBreak b) || (isWritableBreak a && b = ' ') || hasBlankLineEnd (b :: rest)
  | _ => false

/-- Whether the text begins like something else. -/
def beginsOtherwise : Text → Bool
  | [] => true
  | c :: rest =>
    c ∈ ("#,[]\x7b\x7d&*!|>'\"%@\x60" : Text) || (c ∈ ("?:-" : Text) && endsWord rest)
      || List.isPrefixOf ("---" : Text) (c :: rest) || List.isPrefixOf ("..." : Text) (c :: rest)

/-- Whether a key or a comment seems to end or begin inside of the text. -/
def hasInnerMark : Text → Bool
  | a :: b :: rest => (b = ':' && endsWord rest) || (isBlank a && b = '#') || hasInnerMark (b :: rest)
  | _ => false

def isPadded (t : Text) : Bool := t.head? = some ' ' || t.getLast? = some ' '

def isPlain (t : Text) : Bool :=
  !t.any (fun c => isSpecial c || isWritableBreak c) && !isPadded t && !beginsOtherwise t
    && !hasInnerMark t && Kind.ofPlain t = .text

def isSingle (t : Text) : Bool := !t.any isSpecial && !hasBlankLineEnd t

/-- The text between single quotes. After line breaks comes the indentation of the next line. -/
def singleBody (indent : Nat) : (inBreaks : Bool) → Text → Text
  | inBreaks, [] => if inBreaks then List.replicate indent ' ' else []
  | inBreaks, c :: rest =>
    if isWritableBreak c then
      let extra : Text := if !inBreaks && c = '\n' then ['\n'] else []
      extra ++ c :: singleBody indent true rest
    else
      let margin : Text := if inBreaks then List.replicate indent ' ' else []
      let own : Text := if c = '\'' then "''" else [c]
      margin ++ own ++ singleBody indent false rest

def escapes : List (Char × Char) :=
  [('\x00', '0'), ('\x07', 'a'), ('\x08', 'b'), ('\t', 't'), ('\n', 'n'), ('\x0b', 'v'),
   ('\x0c', 'f'), ('\r', 'r'), ('\x1b', 'e'), ('"', '"'), ('\\', '\\'), ('\x85', 'N'),
   ('\u2028', 'L'), ('\u2029', 'P')]

def upperHex (width n : Nat) : Text := (Text.hex width n).map Char.toUpper

def doubleChar (c : Char) : Text :=
  match escapes.lookup c with
  | some e => ['\\', e]
  | none =>
    if (' ' ≤ c ∧ c ≤ '~') ∨ ('\xA0' ≤ c ∧ c ≤ '\uFFFD' ∧ c ≠ byteOrderMark) then [c]
    else if c.toNat < 0x100 then "\\x" ++ upperHex 2 c.toNat
    else if c.toNat < 0x10000 then "\\u" ++ upperHex 4 c.toNat
    else "\\U" ++ upperHex 8 c.toNat

/-- A text as a scalar whose further lines have the given indentation. -/
def scalar (indent : Nat) (t : Text) : Text :=
  if isPlain t then t
  else if isSingle t then '\'' :: singleBody indent false t ++ ['\'']
  else '"' :: t.flatMap doubleChar ++ ['"']

end Write

end FieldSearch.Yaml
