import Fabric.Toml.Value

/-!
# TOML documents

A document is a row of pairs, then *sections*: a header, and the pairs that belong to it. A
header `[a.b]` opens a table, a header `[[a.b]]` the next element of an array of tables.
-/

namespace Fabric.Toml

/-- A pair: the path to its table, its key there and its value. -/
abbrev Pair := List String × String × Toml

/-- A table or an element of an array of tables, with its own pairs. -/
structure Section where
  /-- Whether this is an element of an array of tables. -/
  isElement : Bool
  path : List String
  key : String
  pairs : List Pair

/-- What a line holds. -/
inductive Line where
  | blank
  | pair (pair : Pair)
  | header (isElement : Bool) (path : List String) (key : String)

namespace Line

/-- A header without its brackets, up to the end of the line. -/
def header? (isElement : Bool) (closing cs : List Char) : Option (Line × List Char) := do
  let (path, key, rest) ← key? cs
  if closing.isPrefixOf rest then
    let rest ← Text.endOfLine? (rest.drop closing.length)
    return (.header isElement path key, rest)
  else none

/-- A pair, up to the end of the line. -/
def pair? (cs : List Char) : Option (Line × List Char) := do
  let (path, key, rest) ← key? cs
  let '=' :: rest := rest | none
  let (value, rest) ← value? (2 * rest.length + 2) depthLimit (Text.skipBlanks rest)
  let rest ← Text.endOfLine? rest
  return (.pair (path, key, value), rest)

/-- The first line of a text, and the rest. A value may make it longer than a line. -/
def scan? (cs : List Char) : Option (Line × List Char) :=
  match Text.skipBlanks cs with
  | '[' :: '[' :: rest => header? true [']', ']'] rest
  | '[' :: rest => header? false [']'] rest
  | rest =>
    match Text.endOfLine? rest with
    | some rest => some (.blank, rest)
    | none => pair? rest

/-- The lines of a text of which there are at most `fuel`. -/
def all? : (fuel : Nat) → List Char → Option (List Line)
  | _, [] => some []
  | 0, _ :: _ => none
  | fuel + 1, c :: cs => do
    let (line, rest) ← scan? (c :: cs)
    return line :: (← all? fuel rest)

end Line

/-- The pairs before the first header, and the sections. -/
def sections : List Line → List Pair × List Section
  | [] => ([], [])
  | .blank :: rest => sections rest
  | .pair pair :: rest =>
    let (pairs, later) := sections rest
    (pair :: pairs, later)
  | .header isElement path key :: rest =>
    let (pairs, later) := sections rest
    ([], ⟨isElement, path, key, pairs⟩ :: later)

/-- Adds a section to the tables before it. -/
def Section.addTo? (s : Section) (g : Group) : Option Group :=
  if s.isElement then g.addElement? s.path s.key s.pairs else g.addTable? s.path s.key s.pairs

/-- The table that a text is. A byte order mark at its start is skipped. -/
def parse? (s : String) : Option Toml := do
  let cs := match s.toList with
    | '\ufeff' :: cs => cs
    | cs => cs
  let (pairs, later) := sections (← Line.all? cs.length cs)
  let root ← Group.addValues? ⟨.header, []⟩ pairs
  return (← later.foldlM (fun g s => s.addTo? g) root).finish

end Fabric.Toml
