import FieldSearch.Text.Basic

/-!
# Blank characters

White space as Unicode lists it, with the four information separators. Zero-width characters and
the byte order mark are not blank. Trimming takes blanks off both ends.
-/

namespace FieldSearch.Text

def isBlank (c : Char) : Bool :=
  let n := c.toNat
  (0x09 ≤ n && n ≤ 0x0D) || (0x1C ≤ n && n ≤ 0x20) || n == 0x85 || n == 0xA0 || n == 0x1680
    || (0x2000 ≤ n && n ≤ 0x200A) || n == 0x2028 || n == 0x2029 || n == 0x202F || n == 0x205F
    || n == 0x3000

def isBlankBeyondAscii (c : Char) : Bool := isBlank c && 127 < c.toNat

def trimLeft (text : Text) : Text := text.dropWhile isBlank

def trimRight (text : Text) : Text := (text.reverse.dropWhile isBlank).reverse

def trim (text : Text) : Text := trimRight (trimLeft text)

example : trim " \t a b\u3000" = ("a b" : Text) := by decide
example : trim "\u200b " = ("\u200b" : Text) := by decide

end FieldSearch.Text
