import FieldSearch.Error

/-!
# Requests

A request names a URL and headers of its own, which win over those of its client. What goes over
the wire has header values within ASCII, under lower-case names.
-/

namespace FieldSearch.Transport

structure Wire where
  url : Text
  headers : Entries Text

def afterScheme? (address : Text) : Option Text :=
  List.isPrefixOf? ("https://" : Text) address <|> List.isPrefixOf? ("http://" : Text) address

/-- The path of an address, from its first slash after the host to a query or a fragment. -/
def pathOf (url : Text) : Text :=
  let rest := (afterScheme? url).getD url
  (rest.dropWhile (· ≠ '/')).takeWhile fun c => c ≠ '?' && c ≠ '#'

def headerValue : Json → Except Crash Text
  | .text t => if t.all (·.toNat < 128) then .ok t else .error .unencodable
  | _ => .error .wrongKind

def headerEntries : Entries Json → Except Crash (Entries Text)
  | [] => .ok []
  | (name, value) :: rest => do
    let value ← headerValue value
    return (name.map Char.toLower, value) :: (← headerEntries rest)

/-- The headers of a client and those of a request, which win. -/
def mergeHeaders (defaults own : Entries Json) : Except Crash (Entries Text) := do
  return Entries.update (Entries.ofList (← headerEntries defaults)) (← headerEntries own)

/-- An address is not too long, and holds no control characters. -/
def isAddress (url : Text) : Bool := url.length ≤ 65536 && url.all fun c => ' ' ≤ c && c ≠ '\x7f'

/-- A request, if its address is taken and its headers can be written. -/
def Wire.make (accepts : Text → Bool) (url : Text) (defaults own : Entries Json) :
    Except Crash Wire :=
  if accepts url then do return ⟨url, ← mergeHeaders defaults own⟩ else .error .badAddress

/-- An address that is not complete stands under the base address. -/
def fullUrl (base url : Text) : Text :=
  if (afterScheme? url).isSome then url else base ++ url

def baseUrl (base : Text) : Text := (base.reverse.dropWhile (· = '/')).reverse

end FieldSearch.Transport
