import FieldSearch.Yaml.Token

/-!
# Plain scalars

A scalar without quotes ends where a key, a comment or a less indented line begins, and inside of
brackets also at their marks.
-/

namespace FieldSearch.Yaml.Token

/-- How far a word of a plain scalar goes; inside of brackets it ends at more characters. -/
def plainLength (inFlow : Bool) : Text → Nat
  | [] => 0
  | c :: rest =>
    if isBlank c then 0
    else if c = ':' && endsWith (fun d => isBlank d || (inFlow && d ∈ (",[]\x7b\x7d" : Text))) rest
      then 0
    else if inFlow && c ∈ (",?[]\x7b\x7d" : Text) then 0
    else plainLength inFlow rest + 1

/-- Empty lines and indentation inside of a plain scalar; `none` in front of a document marker. -/
def plainBreaks : Nat → Cursor → Option Text × Cursor
  | 0, c => (some [], c)
  | fuel + 1, c =>
    if isDocumentMarker c.rest then (none, c)
    else
      let c := c.skipSpaces
      match c.lineBreak? with
      | none => (some [], c)
      | some (ch, c) =>
        let (others, c) := plainBreaks fuel c
        (others.map (ch :: ·), c)

/-- What stands between two words of a plain scalar, whether a line ends there, and the place after
it. Nothing stands there if the scalar ends. -/
def plainGap (c : Cursor) : Text × Bool × Cursor :=
  let (spaces, c) := c.run (· = ' ')
  match c.lineBreak? with
  | none => (spaces, false, c)
  | some (first, c) =>
    let (others, c) := plainBreaks (c.rest.length + 1) c
    ((others.map (fold first)).getD [], true, c)

/-- The words of a plain scalar after `before`; whether the scalar ends with a line, and the place
after it. -/
def plainWords (inFlow : Bool) (indent : Int) : Nat → Text → Bool → Cursor → Text × Bool × Cursor
  | 0, _, crossed, c => ([], crossed, c)
  | fuel + 1, before, crossed, c =>
    let n := if c.sees '#' then 0 else plainLength inFlow c.rest
    if n = 0 then ([], crossed, c)
    else
      let word := c.rest.take n
      let (gap, crossed, c) := plainGap (c.skip n)
      if gap.isEmpty || c.sees '#' || (!inFlow && (c.column : Int) < indent) then
        (before ++ word, crossed, c)
      else
        let (rest, crossed, c) := plainWords inFlow indent fuel gap crossed c
        (before ++ word ++ rest, crossed, c)

end FieldSearch.Yaml.Token
