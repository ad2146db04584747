import FieldSearch.Text.Utf8

/-!
# Text encodings

The encoding of a Json text is told from its first bytes: a byte order mark, or the zero bytes that
surround the first character in the wider encodings. Half of a surrogate pair by itself is no
character, but it is let pass, and the replacement character stands for it.
-/

namespace FieldSearch.Text

/-- The character with this number, or the replacement character if it has none. -/
def charOr (n : Nat) : Char := if h : n.isValidChar then .ofNatAux n h else '\uFFFD'

/-! ## UTF-8 -/

/-- What follows the three bytes that half of a surrogate pair would have. -/
def afterHalf? (b : UInt8) : Bytes → Option Bytes
  | second :: third :: rest =>
    if b = 0xED ∧ 0xA0 ≤ second ∧ second ≤ 0xBF ∧ 0x80 ≤ third ∧ third ≤ 0xBF then some rest
    else none
  | _ => none

/-- One character, half of a surrogate pair, or the beginning of neither. -/
def nextPassing (b : UInt8) (rest : Bytes) : Option Char × Bytes :=
  match afterHalf? b rest with
  | some after => (some '\uFFFD', after)
  | none => nextChar b rest

theorem length_afterHalf? {b : UInt8} {rest after : Bytes} (h : afterHalf? b rest = some after) :
    after.length ≤ rest.length := by
  unfold afterHalf? at h
  split at h
  · split at h
    · cases h
      simp only [List.length_cons]
      omega
    · cases h
  · cases h

theorem length_nextPassing (b : UInt8) (rest : Bytes) :
    (nextPassing b rest).2.length ≤ rest.length := by
  unfold nextPassing
  split
  · rename_i after hafter
    exact length_afterHalf? hafter
  · exact length_nextChar b rest

def decodePassing? : Bytes → Option Text
  | [] => some []
  | b :: rest => do
    let c ← (nextPassing b rest).1
    return c :: (← decodePassing? (nextPassing b rest).2)
termination_by bytes => bytes.length
decreasing_by
  have := length_nextPassing b rest
  simp only [List.length_cons]; omega

/-! ## Wider encodings -/

/-- Byte orders of the encodings with units of more than one byte. -/
inductive ByteOrder where
  | big
  | little

def unit16 : ByteOrder → UInt8 → UInt8 → Nat
  | .big, a, b => a.toNat * 256 + b.toNat
  | .little, a, b => b.toNat * 256 + a.toNat

def units16? (order : ByteOrder) : Bytes → Option (List Nat)
  | [] => some []
  | [_] => none
  | a :: b :: rest => (units16? order rest).map (unit16 order a b :: ·)

def decodeUnits16 : List Nat → Text
  | [] => []
  | [u] => [charOr u]
  | u :: v :: rest =>
    if 0xD800 ≤ u ∧ u < 0xDC00 ∧ 0xDC00 ≤ v ∧ v < 0xE000 then
      charOr (0x10000 + (u - 0xD800) * 0x400 + (v - 0xDC00)) :: decodeUnits16 rest
    else charOr u :: decodeUnits16 (v :: rest)

def decodeUtf16? (order : ByteOrder) (bytes : Bytes) : Option Text :=
  (units16? order bytes).map decodeUnits16

def unit32 : ByteOrder → UInt8 → UInt8 → UInt8 → UInt8 → Nat
  | .big, a, b, c, d => unit16 .big a b * 65536 + unit16 .big c d
  | .little, a, b, c, d => unit16 .little c d * 65536 + unit16 .little a b

def decodeUtf32? (order : ByteOrder) : Bytes → Option Text
  | [] => some []
  | a :: b :: c :: d :: rest =>
    if 0x110000 ≤ unit32 order a b c d then none
    else (decodeUtf32? order rest).map (charOr (unit32 order a b c d) :: ·)
  | _ => none

/-! ## The encoding of a Json text -/

/-- The byte order marks and how the bytes after them are read; the wider encoding comes first where
one mark begins with another. -/
def marks : List (Bytes × (Bytes → Option Text)) := [
  ([0x00, 0x00, 0xFE, 0xFF], decodeUtf32? .big),
  ([0xFF, 0xFE, 0x00, 0x00], decodeUtf32? .little),
  ([0xFE, 0xFF], decodeUtf16? .big),
  ([0xFF, 0xFE], decodeUtf16? .little),
  ([0xEF, 0xBB, 0xBF], decodePassing?)]

/-- Without a mark, the first character of a Json text is taken to be an ASCII character. -/
def decodeUnmarked? (bytes : Bytes) : Option Text :=
  match bytes with
  | [a, b] =>
    if a = 0 then decodeUtf16? .big bytes
    else if b = 0 then decodeUtf16? .little bytes
    else decodePassing? bytes
  | a :: b :: c :: d :: _ =>
    if a = 0 then if b = 0 then decodeUtf32? .big bytes else decodeUtf16? .big bytes
    else if b = 0 then
      if c = 0 ∧ d = 0 then decodeUtf32? .little bytes else decodeUtf16? .little bytes
    else decodePassing? bytes
  | _ => decodePassing? bytes

/-- Decodes the bytes of a Json text in the encoding that their beginning shows. -/
def decodeJson? (bytes : Bytes) : Option Text :=
  match marks.findSome? fun (mark, decode) => (mark.isPrefixOf? bytes).map decode with
  | some text => text
  | none => decodeUnmarked? bytes

example : decodeJson? [0xFF, 0xFE, 0x7B, 0x00, 0x00, 0xD8, 0x7D, 0x00] =
    some ("\x7b\uFFFD\x7d" : Text) := by
  decide

end FieldSearch.Text
