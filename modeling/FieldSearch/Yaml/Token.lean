import FieldSearch.Text.Digit
import FieldSearch.Yaml.Cursor

/-!
# Tokens

The words of a Yaml text: marks of documents and collections, entries, keys and values, names given
to nodes, and scalars. A reader reads one word at a cursor; the order of words is the matter of the
lexer.
-/

namespace FieldSearch.Yaml

inductive Token where
  | version (major : Nat)
  | tagPrefix (handle expansion : Text)
  | directive
  | documentStart
  | documentEnd
  | sequenceStart
  | mappingStart
  | blockEnd
  | listStart
  | listEnd
  | objectStart
  | objectEnd
  | entry
  | comma
  | key
  | value
  | alias (name : Text)
  | anchor (name : Text)
  | tag (handle : Option Text) (suffix : Text)
  | scalar (text : Text) (isPlain : Bool)
deriving DecidableEq

namespace Token

abbrev Reader (α : Type) := Cursor → Except Fault (α × Cursor)

def isNameChar (c : Char) : Bool :=
  Text.isAsciiDigit c || ('a' ≤ c && c ≤ 'z') || ('A' ≤ c && c ≤ 'Z') || c = '-' || c = '_'

/-- A name, in front of a character of some kind or the end. -/
def name (before : Char → Bool) : Reader Text := fun c =>
  let (word, c) := c.run isNameChar
  if word.isEmpty || !endsWith before c.rest then .error .malformed else .ok (word, c)

/-- The name of an anchor or an alias, after its mark. -/
def anchorName : Reader Text :=
  name fun c => isBlank c || c ∈ ("?:,]\x7d%@`" : Text)

end Token

end FieldSearch.Yaml
