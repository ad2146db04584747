import FieldSearch.Session.Settle

/-!
# Scripted backends

A backend with one reply for each of the three documents, or one failure for all of them. It replies
at once, or it holds documents back until each is released by its number, so that any interleaving
of replies can be played through.
-/

namespace FieldSearch

structure Script where
  types : Json := .null
  inputs : Json := .null
  search : Json := .null
  failure : Option Failure := none
  holds : Bool := false
  asked : Nat := 0
  held : List (Nat × Text) := []

namespace Script

def reply (s : Script) (document : Text) : Except Failure Json :=
  match s.failure with
  | some f => .error f
  | none =>
    if List.isPrefixOf ("query types" : Text) document then .ok s.types
    else if List.isPrefixOf ("query inputs" : Text) document then .ok s.inputs
    else .ok s.search

/-- Documents are counted from one. -/
def ask : Backend Script := fun document s =>
  let s := { s with asked := s.asked + 1 }
  if s.holds then (none, { s with held := s.held ++ [(s.asked, document)] })
  else (some (s.reply document), s)

end Script

namespace Running

/-- Releases a document that is held back, with a reply of its own or the one in force. -/
def release (r : Running Script) (n : Nat) (reply : Option (Except Failure Json)) :
    Running Script :=
  match r.backend.held.lookup n, r.session.sent[n - 1]? with
  | some document, some (sender, _) =>
    let backend := { r.backend with held := r.backend.held.filter (·.1 ≠ n) }
    { r with backend }.act Script.ask (.answer sender (reply.getD (backend.reply document)))
  | _, _ => r

end Running

end FieldSearch
