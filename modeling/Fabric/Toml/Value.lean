import Fabric.Toml.DateTime
import Fabric.Toml.Number
import Fabric.Toml.Text

/-!
# Keys and values of TOML

A key is a row of parts with points between them, at most 79; a part is bare, or a string on
one line. Arrays may be spread over lines and end with a comma; inline tables may do neither.
Values are nested at most 79 deep.
-/

namespace Fabric.Toml

/-- How many parts a key can have, and how deep values can be nested. -/
def depthLimit : Nat := 79

/-! ### Keys -/

/-- A character of a bare key. -/
def isBare (c : Char) : Bool := c.isAlphanum || c == '-' || c == '_'

/-- A part of a key at the front of a text. -/
def keyPart? (cs : List Char) : Option (String × List Char) :=
  match cs.takeWhile isBare with
  | [] => Text.line? cs
  | part => some (String.ofList part, cs.dropWhile isBare)

/-- At least one part of a key and at most `limit`, with blanks around the parts. -/
def keyParts? : (limit : Nat) → List Char → Option (List String × List Char)
  | 0, _ => none
  | limit + 1, cs => do
    let (part, rest) ← keyPart? (Text.skipBlanks cs)
    match Text.skipBlanks rest with
    | '.' :: rest => (keyParts? limit rest).map fun (parts, rest) => (part :: parts, rest)
    | rest => return ([part], rest)

/-- A key at the front of a text: the path to its table, its last part, and the rest. -/
def key? (cs : List Char) : Option (List String × String × List Char) := do
  let (parts, rest) ← keyParts? depthLimit cs
  return (parts.dropLast, ← parts.getLast?, rest)

/-! ### Values -/

/-- A value that has no parts, at the front of a text. -/
def scalarValue? (cs : List Char) : Option (Toml × List Char) :=
  match cs with
  | 't' :: 'r' :: 'u' :: 'e' :: rest => some (.boolean true, rest)
  | 'f' :: 'a' :: 'l' :: 's' :: 'e' :: rest => some (.boolean false, rest)
  | '"' :: _ | '\'' :: _ => (Text.string? cs).map fun (s, rest) => (.string s, rest)
  | _ =>
    if DateTime.startsDate cs || DateTime.startsTime cs then
      (DateTime.scan? cs).map fun (d, rest) => (.dateTime d.text, rest)
    else Number.scan? cs

mutual

/-- A value at the front of a text, nested at most `depth` deep. -/
def value? : (fuel depth : Nat) → List Char → Option (Toml × List Char)
  | 0, _, _ => none
  | _ + 1, 0, '[' :: _ => none
  | _ + 1, 0, '\x7b' :: _ => none
  | fuel + 1, depth + 1, '[' :: rest =>
    (items? fuel depth rest).map fun (items, rest) => (.array items, rest)
  | fuel + 1, depth + 1, '\x7b' :: rest =>
    match Text.skipBlanks rest with
    | '\x7d' :: rest => some (.table [], rest)
    | rest => do
      let (pairs, rest) ← pairs? fuel depth rest
      let group ← Group.addValues? ⟨.header, []⟩ pairs
      return (group.finish, rest)
  | _ + 1, _, cs => scalarValue? cs

/-- The items of an array up to the closing bracket. -/
def items? : (fuel depth : Nat) → List Char → Option (List Toml × List Char)
  | 0, _, _ => none
  | fuel + 1, depth, cs =>
    match Text.skipLines cs.length cs with
    | ']' :: rest => some ([], rest)
    | cs => do
      let (item, rest) ← value? fuel depth cs
      match Text.skipLines rest.length rest with
      | ',' :: rest => (items? fuel depth rest).map fun (items, rest) => (item :: items, rest)
      | ']' :: rest => return ([item], rest)
      | _ => none

/-- At least one pair of an inline table, up to the closing brace. -/
def pairs? : (fuel depth : Nat) → List Char →
    Option (List (List String × String × Toml) × List Char)
  | 0, _, _ => none
  | fuel + 1, depth, cs => do
    let (path, key, rest) ← key? cs
    let '=' :: rest := rest | none
    let (value, rest) ← value? fuel depth (Text.skipBlanks rest)
    match Text.skipBlanks rest with
    | ',' :: rest =>
      (pairs? fuel depth rest).map fun (pairs, rest) => ((path, key, value) :: pairs, rest)
    | '\x7d' :: rest => return ([(path, key, value)], rest)
    | _ => none

end

end Fabric.Toml
