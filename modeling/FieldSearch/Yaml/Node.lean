import FieldSearch.Yaml.Kind
import FieldSearch.Yaml.Lexer

/-!
# Nodes

A text holds scalars, lists and maps, each of some kind. A node may be named by an anchor and stand
in other places by an alias, also inside of itself, so the nodes of a text have numbers, and lists
and maps hold the numbers of others. Nothing written is a scalar too.
-/

namespace FieldSearch.Yaml

inductive Content where
  | scalar (text : Text)
  | list (items : List Nat)
  | map (pairs : List (Nat × Nat))

structure Node where
  kind : Kind
  content : Content

/-- The nodes of a text by their numbers, all of which are below `count`. -/
structure Graph where
  nodes : List (Nat × Node)
  count : Nat
  root : Nat

namespace Node

/-- What is left to read, and what is known from before. -/
structure Reading where
  tokens : List Token
  crash : Option Crash
  handles : List (Text × Text)
  anchors : List (Text × Nat) := []
  nodes : List (Nat × Node) := []
  count : Nat := 0

abbrev Reader (α : Type) := StateT Reading (Except Fault) α

namespace Reader

def fail {α : Type} : Reader α := throw .malformed

def peek : Reader (Option Token) := do
  let r ← get
  match r.tokens, r.crash with
  | [], some crash => throw (.crash crash)
  | tokens, _ => return tokens.head?

def drop : Reader Unit := modify fun r => { r with tokens := r.tokens.drop 1 }

def expect (t : Token) : Reader Unit := do
  if (← peek) = some t then drop else fail

def sees (ts : List Token) : Reader Bool := return (← peek).any (· ∈ ts)

/-! ## Properties -/

/-- The whole tag that a handle and a suffix stand for. -/
def fullTag (handle : Option Text) (suffix : Text) : Reader Text := do
  match handle with
  | none => return suffix
  | some h =>
    match (← get).handles.lookup h with
    | some expansion => return expansion ++ suffix
    | none => fail

def anchor? : Reader (Option Text) := do
  match ← peek with
  | some (.anchor name) => drop; return some name
  | _ => return none

def tag? : Reader (Option Text) := do
  match ← peek with
  | some (.tag handle suffix) => drop; return some (← fullTag handle suffix)
  | _ => return none

def properties : Reader (Option Text × Option Text) := do
  match ← anchor? with
  | some name => return (some name, ← tag?)
  | none =>
    let tag ← tag?
    return (← anchor?, tag)

/-- The number of a node that begins here, perhaps under a name that has not been given before. -/
def openNode (name : Option Text) : Reader Nat := do
  let r ← get
  let number := r.count
  match name with
  | none => set { r with count := number + 1 }
  | some name =>
    if (r.anchors.lookup name).isSome then fail
    else set { r with count := number + 1, anchors := (name, number) :: r.anchors }
  return number

def closeNode (number : Nat) (kind : Kind) (content : Content) : Reader Nat := do
  modify fun r => { r with nodes := (number, ⟨kind, content⟩) :: r.nodes }
  return number

def leaf (name : Option Text) (kind : Kind) (t : Text) : Reader Nat := do
  closeNode (← openNode name) kind (.scalar t)

/-- Nothing where a node is expected. -/
def nothing : Reader Nat := leaf none .null []

def aliased (name : Text) : Reader Nat := do
  match (← get).anchors.lookup name with
  | none => fail
  | some number => return number

def kindOr (tag : Option Text) (default : Kind) : Kind :=
  match tag with
  | none | some ['!'] => default
  | some tag => .ofTag tag

/-- Without a tag the text of a plain scalar tells its kind; so does that of any scalar whose tag
is a mere exclamation mark. -/
def scalarKind (tag : Option Text) (t : Text) (isPlain : Bool) : Kind :=
  kindOr tag (if isPlain || tag.isSome then .ofPlain t else .text)

end Reader

open Reader

mutual

/-- A node. Blocks stand only where `inBlock` says so, and entries without a block of their own only
where `bare` does. -/
def read : Nat → (inBlock bare : Bool) → Reader Nat
  | 0, _, _ => fail
  | fuel + 1, inBlock, bare => do
    match ← peek with
    | some (.alias name) => drop; aliased name
    | _ =>
      let (name, tag) ← properties
      match ← peek with
      | some (.scalar t isPlain) =>
        drop
        leaf name (scalarKind tag t isPlain) t
      | some .listStart =>
        drop
        let number ← openNode name
        closeNode number (kindOr tag .list) (.list (← readList fuel true))
      | some .objectStart =>
        drop
        let number ← openNode name
        closeNode number (kindOr tag .map) (.map (← readObject fuel true))
      | some .entry =>
        if bare then
          let number ← openNode name
          closeNode number (kindOr tag .list) (.list (← readEntries fuel true))
        else readEmpty name tag
      | some .sequenceStart =>
        if inBlock then
          drop
          let number ← openNode name
          closeNode number (kindOr tag .list) (.list (← readEntries fuel false))
        else readEmpty name tag
      | some .mappingStart =>
        if inBlock then
          drop
          let number ← openNode name
          closeNode number (kindOr tag .map) (.map (← readMapping fuel))
        else readEmpty name tag
      | _ => readEmpty name tag

def readEmpty (name tag : Option Text) : Reader Nat := do
  if name.isNone && tag.isNone then fail else leaf name (kindOr tag .null) []

/-- A node, or nothing in front of some tokens. -/
def readUnless : Nat → (stops : List Token) → (inBlock bare : Bool) → Reader Nat
  | 0, _, _, _ => fail
  | fuel + 1, stops, inBlock, bare => do
    if ← sees stops then nothing else read fuel inBlock bare

/-- The entries of a block, up to its end; bare entries end at any other token. -/
def readEntries : Nat → (bare : Bool) → Reader (List Nat)
  | 0, _ => fail
  | fuel + 1, bare => do
    if ← sees [.entry] then
      drop
      let stops := if bare then [.entry, .key, .value, .blockEnd] else [.entry, .blockEnd]
      let item ← readUnless fuel stops true false
      return item :: (← readEntries fuel bare)
    else if bare then return []
    else
      expect .blockEnd
      return []

/-- The pairs of a block, up to its end. -/
def readMapping : Nat → Reader (List (Nat × Nat))
  | 0 => fail
  | fuel + 1 => do
    if ← sees [.key] then
      drop
      let stops := [.key, .value, .blockEnd]
      let key ← readUnless fuel stops true true
      let value ←
        if ← sees [.value] then
          drop
          readUnless fuel stops true true
        else nothing
      return (key, value) :: (← readMapping fuel)
    else
      expect .blockEnd
      return []

def readValue : Nat → (closing : Token) → Reader Nat
  | 0, _ => fail
  | fuel + 1, closing => do
    if ← sees [.value] then
      drop
      readUnless fuel [.comma, closing] false false
    else nothing

/-- A key after its mark and its value, inside of brackets. -/
def readPair : Nat → (closing : Token) → Reader (Nat × Nat)
  | 0, _ => fail
  | fuel + 1, closing => do
    drop
    let key ← readUnless fuel [.value, .comma, closing] false false
    return (key, ← readValue fuel closing)

/-- The items of a list in brackets; a pair among them is a map of its own. -/
def readList : Nat → (first : Bool) → Reader (List Nat)
  | 0, _ => fail
  | fuel + 1, first => do
    if ← sees [.listEnd] then drop; return []
    else
      if !first then expect .comma
      if ← sees [.key] then
        let pair ← readPair fuel .listEnd
        let number ← closeNode (← openNode none) .map (.map [pair])
        return number :: (← readList fuel false)
      else if ← sees [.listEnd] then drop; return []
      else
        let item ← read fuel false false
        return item :: (← readList fuel false)

/-- The pairs of a map in brackets; a node without a mark is a key with nothing. -/
def readObject : Nat → (first : Bool) → Reader (List (Nat × Nat))
  | 0, _ => fail
  | fuel + 1, first => do
    if ← sees [.objectEnd] then drop; return []
    else
      if !first then expect .comma
      if ← sees [.key] then
        let pair ← readPair fuel .objectEnd
        return pair :: (← readObject fuel false)
      else if ← sees [.objectEnd] then drop; return []
      else
        let key ← read fuel false false
        let value ← nothing
        return (key, value) :: (← readObject fuel false)

end

/-! ## Documents -/

def standardHandles : List (Text × Text) := [(['!'], ['!']), (['!', '!'], Kind.tagPrefix)]

/-- The directives of a document: at most one version, which is 1, and new handles. -/
def readDirectives : Nat → (versioned : Bool) → List (Text × Text) → Reader (List (Text × Text))
  | 0, _, _ => fail
  | fuel + 1, versioned, handles => do
    match ← peek with
    | some (.version major) =>
      if versioned || major ≠ 1 then fail
      else
        drop
        readDirectives fuel true handles
    | some (.tagPrefix handle expansion) =>
      if (handles.lookup handle).isSome then fail
      else
        drop
        readDirectives fuel versioned ((handle, expansion) :: handles)
    | some .directive => drop; readDirectives fuel versioned handles
    | _ => return handles

def isDirective : Token → Bool
  | .version _ | .tagPrefix .. | .directive => true
  | _ => false

def skipDocumentEnds : Nat → Reader Unit
  | 0 => return
  | fuel + 1 => do if ← sees [.documentEnd] then drop; skipDocumentEnds fuel

/-- The one document of a text; `none` if there is none. -/
def readDocument (fuel : Nat) : Reader (Option Nat) := do
  match ← peek with
  | none => return none
  | some t =>
    let root ←
      if isDirective t || t = .documentStart then
        let handles ← readDirectives fuel false []
        modify fun r => { r with handles := handles ++ standardHandles }
        expect .documentStart
        match ← peek with
        | none | some .documentStart | some .documentEnd => nothing
        | some t => if isDirective t then nothing else read fuel true false
      else read fuel true false
    skipDocumentEnds fuel
    if (← peek).isNone then return some root else fail

/-- The nodes of a text; `none` for a text without a document. -/
def graphOf? (text : Text) : Except Fault (Option Graph) := do
  let (tokens, crash) ← Token.ofText? text
  let fuel := 4 * tokens.length + 4
  let (root, r) ← (readDocument fuel).run { tokens, crash, handles := standardHandles }
  return root.map fun root => { nodes := r.nodes, count := r.count, root }

end Node

end FieldSearch.Yaml
