import FieldSearch.Entries
import FieldSearch.Number.Read
import FieldSearch.Text.Quoted

/-!
# Json values

The values that backends send. Whole numbers have any size and differ from binary ones. The
members of an object keep their order. A value has a text only if all whole numbers in it can be
written.
-/

namespace FieldSearch

inductive Json where
  | null
  | bool (b : Bool)
  | int (n : Int)
  | real (x : Float)
  | text (t : Text)
  | array (items : List Json)
  | object (members : List (Text × Json))
deriving Inhabited

namespace Json

/-- Null, false, zero and everything empty count as nothing. -/
def isTruthy : Json → Bool
  | null => false
  | bool b => b
  | int n => n ≠ 0
  | real x => !(x == 0)
  | text t => !t.isEmpty
  | array items => !items.isEmpty
  | object members => !members.isEmpty

def isNull : Json → Bool
  | null => true
  | _ => false

/-- A member of an object; `none` if it is missing or this is no object. -/
def member? (key : Text) : Json → Option Json
  | object members => Entries.get? key members
  | _ => none

/-- The name of the kind of value, as it stands in messages. -/
def kindName : Json → Text
  | null => "NoneType"
  | bool _ => "bool"
  | int _ => "int"
  | real _ => "float"
  | text _ => "str"
  | array _ => "list"
  | object _ => "dict"

mutual

/-- How a value is shown inside another value or a message. -/
def shown : Json → Text
  | null => "None"
  | bool true => "True"
  | bool false => "False"
  | int n => Text.ofInt n
  | real x => Number.ofFloat x
  | text t => Text.quoted t
  | array items => "[" ++ Text.join ", " (shownItems items) ++ "]"
  | object members => "\x7b" ++ Text.join ", " (shownMembers members) ++ "\x7d"

def shownItems : List Json → List Text
  | [] => []
  | item :: rest => shown item :: shownItems rest

def shownMembers : List (Text × Json) → List Text
  | [] => []
  | (key, value) :: rest => (Text.quoted key ++ ": " ++ shown value) :: shownMembers rest

end

/-- A text as it is, any other value as it is shown. -/
def asText : Json → Text
  | text t => t
  | value => value.shown

/-- The value as text, and nothing for a value that counts as nothing. -/
def asTextOrEmpty (value : Json) : Text := if value.isTruthy then value.asText else []

mutual

/-- Whether all whole numbers in a value can be written. -/
def isWritable : Json → Bool
  | int n => Number.isWritable n
  | array items => areWritable items
  | object members => membersWritable members
  | null | bool _ | real _ | text _ => true

def areWritable : List Json → Bool
  | [] => true
  | item :: rest => isWritable item && areWritable rest

def membersWritable : List (Text × Json) → Bool
  | [] => true
  | (_, value) :: rest => isWritable value && membersWritable rest

end

example : (array [text "a", int 1, null]).asText = ("['a', 1, None]" : Text) := by decide

end Json

end FieldSearch
