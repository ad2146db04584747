import FieldSearch.Text.Printable

/-!
# Quoted text

A value is shown inside a message between single quotes, or between double quotes when it holds a
single quote and no double one. The quote in use, the backslash and everything that does not print
is escaped, so the shown form has no line breaks.
-/

namespace FieldSearch.Text

def quoteFor (text : Text) : Char :=
  if '\'' ∈ text ∧ '"' ∉ text then '"' else '\''

def escapeIn (quote c : Char) : Text :=
  if c = quote ∨ c = '\\' then ['\\', c]
  else if c = '\n' then "\\n"
  else if c = '\r' then "\\r"
  else if c = '\t' then "\\t"
  else if isPrintable c then [c]
  else if c.toNat < 0x100 then "\\x" ++ hex 2 c.toNat
  else if c.toNat < 0x10000 then "\\u" ++ hex 4 c.toNat
  else "\\U" ++ hex 8 c.toNat

def quoted (text : Text) : Text :=
  let quote := quoteFor text
  quote :: text.flatMap (escapeIn quote) ++ [quote]

example : quoted "it's" = ("\"it's\"" : Text) := by decide
example : quoted "a\n" = ("'a\\n'" : Text) := by decide

end FieldSearch.Text
