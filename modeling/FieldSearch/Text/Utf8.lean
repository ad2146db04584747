import FieldSearch.Text.Basic

/-!
# UTF-8

Characters become one to four bytes. Reading goes from the left: at each place either a whole
character is read, or the longest beginning of one that cannot be completed is given up. A strict
reader stops there; a lenient one puts the replacement character and goes on.
-/

namespace FieldSearch.Text

abbrev Bytes := List UInt8

def encodeChar (c : Char) : Bytes :=
  let n := c.toNat
  let more (k : Nat) : UInt8 := .ofNat (0x80 + n / k % 0x40)
  if n < 0x80 then [.ofNat n]
  else if n < 0x800 then [.ofNat (0xC0 + n / 0x40), more 1]
  else if n < 0x10000 then [.ofNat (0xE0 + n / 0x1000), more 0x40, more 1]
  else [.ofNat (0xF0 + n / 0x40000), more 0x1000, more 0x40, more 1]

def encodeUtf8 (text : Text) : Bytes := text.flatMap encodeChar

/-- What a first byte announces: how many bytes follow, the range of the next one, and the value
of its own bits. -/
structure Lead where
  following : Nat
  low : UInt8
  high : UInt8
  bits : Nat

def Lead.ofByte? (b : UInt8) : Option Lead :=
  if b < 0x80 then some ⟨0, 0x80, 0xBF, b.toNat⟩
  else if b < 0xC2 then none
  else if b < 0xE0 then some ⟨1, 0x80, 0xBF, b.toNat - 0xC0⟩
  else if b = 0xE0 then some ⟨2, 0xA0, 0xBF, 0⟩
  else if b = 0xED then some ⟨2, 0x80, 0x9F, 0xD⟩
  else if b < 0xF0 then some ⟨2, 0x80, 0xBF, b.toNat - 0xE0⟩
  else if b = 0xF0 then some ⟨3, 0x90, 0xBF, 0⟩
  else if b < 0xF4 then some ⟨3, 0x80, 0xBF, b.toNat - 0xF0⟩
  else if b = 0xF4 then some ⟨3, 0x80, 0x8F, 4⟩
  else none

/-- Reads the bytes that follow a first byte, only the next of which has a range of its own. -/
def continueChar (value : Nat) (low high : UInt8) : Nat → Bytes → Option Char × Bytes
  | 0, rest => (some (.ofNat value), rest)
  | _ + 1, [] => (none, [])
  | k + 1, b :: rest =>
    if low ≤ b ∧ b ≤ high then
      continueChar (value * 0x40 + (b.toNat - 0x80)) 0x80 0xBF k rest
    else (none, b :: rest)

/-- One character, or the beginning of none, and the bytes after it. -/
def nextChar (b : UInt8) (rest : Bytes) : Option Char × Bytes :=
  match Lead.ofByte? b with
  | some lead => continueChar lead.bits lead.low lead.high lead.following rest
  | none => (none, rest)

theorem length_continueChar (value : Nat) (low high : UInt8) (k : Nat) (bytes : Bytes) :
    (continueChar value low high k bytes).2.length ≤ bytes.length := by
  fun_induction continueChar with
  | case1 => simp
  | case2 => simp
  | case3 _ _ _ _ _ _ _ ih => simp only [List.length_cons]; omega
  | case4 => simp

theorem length_nextChar (b : UInt8) (rest : Bytes) : (nextChar b rest).2.length ≤ rest.length := by
  unfold nextChar
  split
  · exact length_continueChar ..
  · simp

/-- The characters read from the left, with `none` at each place where the bytes are malformed. -/
def scanUtf8 : Bytes → List (Option Char)
  | [] => []
  | b :: rest => (nextChar b rest).1 :: scanUtf8 (nextChar b rest).2
termination_by bytes => bytes.length
decreasing_by
  have := length_nextChar b rest
  simp only [List.length_cons]; omega

def decodeUtf8? (bytes : Bytes) : Option Text := (scanUtf8 bytes).mapM id

/-- Malformed bytes become replacement characters. -/
def decodeUtf8 (bytes : Bytes) : Text := (scanUtf8 bytes).map (·.getD '\uFFFD')

end FieldSearch.Text
