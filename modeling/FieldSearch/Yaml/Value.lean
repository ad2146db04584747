import FieldSearch.Moment.Iso
import FieldSearch.Number.Read
import FieldSearch.Text.Quoted
import FieldSearch.Text.Utf8

/-!
# Values

What the nodes of a text stand for. Keys of a map may be values of any kind that cannot change; keys
that are equal count as one, also a whole number and a binary one. A list or a map that stands in
several places, perhaps inside of itself, is not written out there but shared under a name.
-/

namespace FieldSearch.Yaml

inductive Value (ι : Type) where
  | null
  | bool (b : Bool)
  | int (n : Int)
  | real (x : Float)
  | text (t : Text)
  | bytes (b : Text.Bytes)
  | date (d : Date)
  | moment (m : Moment)
  | list (items : List (Value ι))
  | pair (first second : Value ι)
  | set (items : List (Value ι))
  | map (members : List (Value ι × Value ι))
  | shared (name : ι)

namespace Value

variable {ι κ : Type}

/-- Nothing, false, zero and everything empty count as nothing. -/
def isTruthy : Value ι → Bool
  | null => false
  | bool b => b
  | int n => n ≠ 0
  | real x => !(x == 0)
  | text t => !t.isEmpty
  | bytes b => !b.isEmpty
  | list items | set items => !items.isEmpty
  | map members => !members.isEmpty
  | date _ | moment _ | pair .. | shared _ => true

/-! ## Keys -/

def isKey : Value ι → Bool
  | list _ | pair .. | set _ | map _ | shared _ => false
  | _ => true

def integral? : Value ι → Option Int
  | bool b => some (if b then 1 else 0)
  | int n => some n
  | _ => none

def isSameMoment (a b : Moment) : Bool :=
  a.offset.isSome = b.offset.isSome && a.instant = b.instant

/-- There is one undefined number, which is the same key wherever it stands. -/
def isSameKey : Value ι → Value ι → Bool
  | null, null => true
  | real x, real y => x == y || (x.isNaN && y.isNaN)
  | real x, v | v, real x => (integral? v).any fun n => Float.ofInt n == x
  | text a, text b => a = b
  | bytes a, bytes b => a = b
  | date a, date b => a = b
  | moment a, moment b => isSameMoment a b
  | a, b => (integral? a).any fun n => integral? b = some n

/-- Puts a value under a key; a key that is there keeps its place and its form. -/
def put (key value : Value ι) : List (Value ι × Value ι) → List (Value ι × Value ι)
  | [] => [(key, value)]
  | (k, v) :: rest =>
    if isSameKey k key then (k, value) :: rest else (k, v) :: put key value rest

/-- The value under a key that is a text. -/
def member? (key : Text) : List (Value ι × Value ι) → Option (Value ι)
  | [] => none
  | (.text k, v) :: rest => if k = key then some v else member? key rest
  | _ :: rest => member? key rest

/-! ## How values are shown -/

def byteText (quote : Char) (b : UInt8) : Text :=
  let c := Char.ofNat b.toNat
  if c = quote ∨ c = '\\' then ['\\', c]
  else if c = '\t' then "\\t"
  else if c = '\n' then "\\n"
  else if c = '\r' then "\\r"
  else if ' ' ≤ c ∧ c ≤ '~' then [c]
  else "\\x" ++ Text.hex 2 b.toNat

def bytesText (b : Text.Bytes) : Text :=
  let quote := Text.quoteFor (b.map fun x => Char.ofNat x.toNat)
  'b' :: quote :: b.flatMap (byteText quote) ++ [quote]

def numbersText (numbers : List Nat) : Text := Text.join ", " (numbers.map Text.ofNat)

def zoneText (offset : Int) : Text :=
  if offset = 0 then "datetime.timezone.utc"
  else
    let seconds := offset.fdiv 1000000
    let days := seconds.fdiv 86400
    let rest := seconds.fmod 86400
    let parts : List Text :=
      (if days = 0 then [] else ["days=" ++ Text.ofInt days])
        ++ (if rest = 0 then [] else ["seconds=" ++ Text.ofInt rest])
    "datetime.timezone(datetime.timedelta(" ++ Text.join ", " parts ++ "))"

/-- Seconds and their fraction are left out from the end as long as they are zero. -/
def momentText (m : Moment) : Text :=
  let t := m.time
  let tail :=
    if t.microsecond ≠ 0 then [t.second, t.microsecond]
    else if t.second ≠ 0 then [t.second] else []
  let zone : Text := match m.offset with
    | some offset => ", tzinfo=" ++ zoneText offset
    | none => []
  "datetime.datetime("
    ++ numbersText ([m.date.year, m.date.month, m.date.day, t.hour, t.minute] ++ tail) ++ zone ++ ")"

mutual

/-- How a value is shown inside of another one, given how shared parts are. -/
def shownWith (part : ι → Text) : Value ι → Text
  | null => "None"
  | bool true => "True"
  | bool false => "False"
  | int n => Text.ofInt n
  | real x => Number.ofFloat x
  | text t => Text.quoted t
  | bytes b => bytesText b
  | date d => "datetime.date(" ++ numbersText [d.year, d.month, d.day] ++ ")"
  | moment m => momentText m
  | list items => "[" ++ Text.join ", " (shownItems part items) ++ "]"
  | pair a b => "(" ++ shownWith part a ++ ", " ++ shownWith part b ++ ")"
  | set [] => "set()"
  | set items => "\x7b" ++ Text.join ", " (shownItems part items) ++ "\x7d"
  | map members => "\x7b" ++ Text.join ", " (shownMembers part members) ++ "\x7d"
  | shared name => part name

def shownItems (part : ι → Text) : List (Value ι) → List Text
  | [] => []
  | item :: rest => shownWith part item :: shownItems part rest

def shownMembers (part : ι → Text) : List (Value ι × Value ι) → List Text
  | [] => []
  | (key, value) :: rest =>
    (shownWith part key ++ ": " ++ shownWith part value) :: shownMembers part rest

end

/-! ## Leaves -/

mutual

/-- The values in a value that have no parts of their own, and the shared ones. -/
def leaves : Value ι → List (Value ι)
  | list items | set items => leavesOf items
  | pair a b => leaves a ++ leaves b
  | map members => leavesIn members
  | v => [v]

def leavesOf : List (Value ι) → List (Value ι)
  | [] => []
  | item :: rest => leaves item ++ leavesOf rest

def leavesIn : List (Value ι × Value ι) → List (Value ι)
  | [] => []
  | (key, value) :: rest => leaves key ++ leaves value ++ leavesIn rest

end

/-- Whether all whole numbers in a value are short enough to be written, given for which shared
parts they are. -/
def isWritableWith (part : ι → Bool) (v : Value ι) : Bool :=
  v.leaves.all fun
    | int n => Number.isWritable n
    | shared name => part name
    | _ => true

mutual

/-- Puts values in the places of shared parts. -/
def graft (part : ι → Value κ) : Value ι → Value κ
  | null => null
  | bool b => bool b
  | int n => int n
  | real x => real x
  | text t => text t
  | bytes b => bytes b
  | date d => date d
  | moment m => moment m
  | list items => list (graftItems part items)
  | pair a b => pair (graft part a) (graft part b)
  | set items => set (graftItems part items)
  | map members => map (graftMembers part members)
  | shared name => part name

def graftItems (part : ι → Value κ) : List (Value ι) → List (Value κ)
  | [] => []
  | item :: rest => graft part item :: graftItems part rest

def graftMembers (part : ι → Value κ) : List (Value ι × Value ι) → List (Value κ × Value κ)
  | [] => []
  | (key, value) :: rest => (graft part key, graft part value) :: graftMembers part rest

end

end Value

end FieldSearch.Yaml
