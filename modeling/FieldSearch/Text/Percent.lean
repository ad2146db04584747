import FieldSearch.Text.Digit
import FieldSearch.Text.Utf8

/-!
# Percent encoding

Outside letters, digits and four marks every byte of a text is written as a percent sign and two
upper-case hexadecimal digits. A form value writes the space as a plus sign as well.
-/

namespace FieldSearch.Text

def isUnreserved (b : UInt8) : Bool :=
  (0x30 ≤ b && b ≤ 0x39) || (0x41 ≤ b && b ≤ 0x5A) || (0x61 ≤ b && b ≤ 0x7A)
    || b == 0x2D || b == 0x2E || b == 0x5F || b == 0x7E

def upperHexDigit (n : Nat) : Char := if n < 10 then .ofNat (48 + n) else .ofNat (55 + n)

def percentByte (b : UInt8) : Text :=
  if isUnreserved b then [.ofNat b.toNat]
  else ['%', upperHexDigit (b.toNat / 16), upperHexDigit (b.toNat % 16)]

def percentEncode (text : Text) : Text := (encodeUtf8 text).flatMap percentByte

/-- Encodes the value of a form field, where a space is a plus sign. -/
def formEncode (text : Text) : Text :=
  (encodeUtf8 text).flatMap fun b => if b = 0x20 then ['+'] else percentByte b

/-- The bytes of a percent-encoded text; a percent sign without two digits stands for itself. -/
def percentBytes : Text → Bytes
  | '%' :: a :: b :: rest =>
    match hexDigit? a, hexDigit? b with
    | some high, some low => .ofNat (high * 16 + low) :: percentBytes rest
    | _, _ => 0x25 :: percentBytes (a :: b :: rest)
  | c :: rest => encodeChar c ++ percentBytes rest
  | [] => []
termination_by text => text.length

def percentDecode (text : Text) : Text := decodeUtf8 (percentBytes text)

def formDecode (text : Text) : Text := percentDecode (text.replace '+' " ")

end FieldSearch.Text
