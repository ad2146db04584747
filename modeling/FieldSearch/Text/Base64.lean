import FieldSearch.Text.Utf8

/-!
# Base64

Four letters carry three bytes. Characters that are no letters are passed over; the marks that fill
up the last four letters end the text.
-/

namespace FieldSearch.Text

def base64Letter? (c : Char) : Option Nat :=
  if 'A' ≤ c ∧ c ≤ 'Z' then some (c.toNat - 65)
  else if 'a' ≤ c ∧ c ≤ 'z' then some (c.toNat - 71)
  else if '0' ≤ c ∧ c ≤ '9' then some (c.toNat + 4)
  else if c = '+' then some 62
  else if c = '/' then some 63
  else none

/-- Reads on after some letters of four, the last of which left over some bits, and after some
marks. -/
def base64From (letters left marks : Nat) : Text → Option Bytes
  | [] => if letters = 0 then some [] else none
  | c :: rest =>
    if c = '=' then
      if 2 ≤ letters then
        if 4 ≤ letters + marks + 1 then some [] else base64From letters left (marks + 1) rest
      else base64From letters left marks rest
    else match base64Letter? c with
      | none => base64From letters left marks rest
      | some n =>
        if letters = 0 then base64From 1 n 0 rest
        else
          let bits := 2 * letters
          let byte : UInt8 := .ofNat (left * Nat.pow 2 bits + n / Nat.pow 2 (6 - bits))
          (base64From ((letters + 1) % 4) (n % Nat.pow 2 (6 - bits)) 0 rest).map (byte :: ·)

def decodeBase64? (text : Text) : Option Bytes := base64From 0 0 0 text

end FieldSearch.Text
