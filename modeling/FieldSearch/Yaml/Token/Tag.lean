import FieldSearch.Number.Read
import FieldSearch.Text.Utf8
import FieldSearch.Yaml.Token

/-!
# Tags and directives

A tag is a handle with a suffix, or stands in full between angle brackets. A directive is a line
that begins with a percent sign; it gives the version of the text or what a handle stands for.
-/

namespace FieldSearch.Yaml.Token

def isUriChar (c : Char) : Bool := isNameChar c || c ∈ (";/?:@&=+$,.!~*'()[]" : Text)

def escapedBytes : Nat → Text → Except Fault (Text.Bytes × Text)
  | 0, rest => .ok ([], rest)
  | fuel + 1, '%' :: a :: b :: rest =>
    match Text.hexDigit? a, Text.hexDigit? b with
    | some high, some low => do
      let (bytes, rest) ← escapedBytes fuel rest
      .ok (.ofNat (high * 16 + low) :: bytes, rest)
    | _, _ => .error .malformed
  | _ + 1, '%' :: _ => .error .malformed
  | _ + 1, rest => .ok ([], rest)

def uriParts : Nat → Reader Text
  | 0, c => .ok ([], c)
  | fuel + 1, c =>
    match c.rest with
    | '%' :: _ => do
      let (bytes, after) ← escapedBytes c.rest.length c.rest
      match Text.decodeUtf8? bytes with
      | none => .error .malformed
      | some text =>
        let (rest, c) ← uriParts fuel (c.skip (c.rest.length - after.length))
        .ok (text ++ rest, c)
    | ch :: _ =>
      if isUriChar ch then do
        let (rest, c) ← uriParts fuel c.next
        .ok (ch :: rest, c)
      else .ok ([], c)
    | [] => .ok ([], c)

def uri : Reader Text := fun c => do
  let (text, after) ← uriParts (c.rest.length + 1) c
  if after.index = c.index then .error .malformed else .ok (text, after)

/-- A handle: one exclamation mark, or a name between two. -/
def handle : Reader Text := fun c =>
  match c.rest with
  | '!' :: rest =>
    if rest.head? = some ' ' then .ok (['!'], c.next)
    else
      let word := rest.takeWhile isNameChar
      match rest.drop word.length with
      | '!' :: _ => .ok ('!' :: word ++ ['!'], c.skip (word.length + 2))
      | _ => .error .malformed
  | _ => .error .malformed

/-- Whether a second exclamation mark stands in the word. -/
def hasHandle (rest : Text) : Bool := '!' ∈ rest.takeWhile fun c => c ≠ ' ' && !isBreak c

def tagParts : Reader (Option Text × Text) := fun c =>
  match c.rest with
  | '!' :: '<' :: _ => do
    let (suffix, c) ← uri (c.skip 2)
    if c.sees '>' then .ok ((none, suffix), c.next) else .error .malformed
  | '!' :: rest =>
    if endsWord rest then .ok ((none, ['!']), c.next)
    else do
      let (handle, c) ← if hasHandle rest then handle c else .ok (['!'], c.next)
      let (suffix, c) ← uri c
      .ok ((some handle, suffix), c)
  | _ => .error .malformed

def readTag : Reader Token := fun c => do
  let ((handle, suffix), c) ← tagParts c
  if endsLineOrSpace c.rest then .ok (.tag handle suffix, c) else .error .malformed

def number : Reader Nat := fun c =>
  let (digits, c) := c.run Text.isAsciiDigit
  if digits.isEmpty then .error .malformed
  else if Number.maxDigits < digits.length then .error (.crash .tooManyDigits)
  else .ok (Number.digitsValue digits, c)

def versionDirective : Reader Token := fun c => do
  let (major, c) ← number c.skipSpaces
  if !c.sees '.' then .error .malformed
  else
    let (_, c) ← number c.next
    if endsLineOrSpace c.rest then .ok (.version major, c) else .error .malformed

def tagDirective : Reader Token := fun c => do
  let (handle, c) ← handle c.skipSpaces
  if !c.sees ' ' then .error .malformed
  else
    let (expansion, c) ← uri c.skipSpaces
    if endsLineOrSpace c.rest then .ok (.tagPrefix handle expansion, c) else .error .malformed

def readDirective : Reader Token := fun c => do
  let (word, c) ← name (fun c => c = ' ' || isBreak c) c.next
  let (token, c) ←
    if word = ("YAML" : Text) then versionDirective c
    else if word = ("TAG" : Text) then tagDirective c
    else .ok (.directive, (c.run (!isBreak ·)).2)
  .ok (token, ← c.skipLine)

end FieldSearch.Yaml.Token
