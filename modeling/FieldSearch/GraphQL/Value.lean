import FieldSearch.Error
import FieldSearch.Json.Write
import FieldSearch.Number.Read

/-!
# Literals

Values written into a document as inline literals: strings quoted and escaped within ASCII, numbers
bare, and the keys of objects without quotes. A number that is not finite and a value of a kind
that documents do not have cannot be written.
-/

namespace FieldSearch.GraphQL

inductive Value where
  | null
  | bool (b : Bool)
  | int (n : Int)
  | real (x : Float)
  | text (t : Text)
  | list (items : List Value)
  | object (members : List (Text × Value))
  | foreign (kind : Text)
deriving Inhabited

def stringLiteral (text : Text) : Text := Json.literal .ascii text

def objectLiteral (members : List (Text × Text)) : Text :=
  "\x7b" ++ Text.join ", " (members.map fun (key, value) => key ++ ": " ++ value) ++ "\x7d"

def listLiteral (items : List Text) : Text := "[" ++ Text.join ", " items ++ "]"

namespace Value

mutual

/-- The literal of a value, or the first thing in it that has none. -/
def literal : Value → Except Crash Text
  | null => .ok "null"
  | bool true => .ok "true"
  | bool false => .ok "false"
  | int n => Number.written n
  | real x => if Number.isFinite x then .ok (Number.ofFloat x) else .error (.nonFinite x)
  | text t => .ok (stringLiteral t)
  | list items => do return listLiteral (← literals items)
  | object members => do return objectLiteral (← memberLiterals members)
  | foreign kind => .error (.foreignValue kind)

def literals : List Value → Except Crash (List Text)
  | [] => .ok []
  | item :: rest => do
    let first ← literal item
    return first :: (← literals rest)

def memberLiterals : List (Text × Value) → Except Crash (List (Text × Text))
  | [] => .ok []
  | (key, value) :: rest => do
    let first ← literal value
    return (key, first) :: (← memberLiterals rest)

end

end Value

end FieldSearch.GraphQL
