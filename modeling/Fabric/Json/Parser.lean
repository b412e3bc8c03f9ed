import Fabric.Json.Basic

/-!
# Reading JSON

A JSON text is one value with blanks around it. Nothing may follow, a comma may not trail,
and a number has no leading zero. Members of an object may repeat a name; what that means is
left to whoever reads the object.
-/

namespace Fabric.Json

/-- Skips spaces, tabs and line breaks. -/
def skipBlanks (cs : List Char) : List Char :=
  cs.dropWhile fun c => c == ' ' || c == '\t' || c == '\n' || c == '\r'

/-! ### Numbers -/

/-- At least one digit at the front of a text, and what follows. -/
def scanDigits? (cs : List Char) : Option (List Char × List Char) :=
  match cs.takeWhile Char.isDigit with
  | [] => none
  | digits => some (digits, cs.dropWhile Char.isDigit)

/-- The part of a number before a fraction: a lone zero, or digits that start with none. -/
def scanWhole? : List Char → Option (List Char × List Char)
  | '0' :: rest => some (['0'], rest)
  | cs => scanDigits? cs

/-- The fraction of a number, if there is a point. -/
def scanFraction? : List Char → Option (List Char × List Char)
  | '.' :: rest => (scanDigits? rest).map fun (digits, rest) => ('.' :: digits, rest)
  | cs => some ([], cs)

/-- The exponent of a number, if there is its letter. -/
def scanExponent? : List Char → Option (List Char × List Char)
  | c :: rest =>
    if c = 'e' ∨ c = 'E' then
      match rest with
      | s :: more =>
        if s = '+' ∨ s = '-' then
          (scanDigits? more).map fun (digits, rest) => (c :: s :: digits, rest)
        else (scanDigits? rest).map fun (digits, rest) => (c :: digits, rest)
      | [] => none
    else some ([], c :: rest)
  | [] => some ([], [])

/-- A number at the front of a text, and what follows. -/
def scanNumber? (cs : List Char) : Option (List Char × List Char) := do
  let (sign, cs) := match cs with
    | '-' :: rest => (['-'], rest)
    | cs => ([], cs)
  let (whole, cs) ← scanWhole? cs
  let (fraction, cs) ← scanFraction? cs
  let (exponent, cs) ← scanExponent? cs
  return (sign ++ whole ++ fraction ++ exponent, cs)

/-! ### Values -/

/-- A value that has no parts, at the front of a text. -/
def scanScalar? : List Char → Option (Json × List Char)
  | 'n' :: 'u' :: 'l' :: 'l' :: rest => some (.null, rest)
  | 't' :: 'r' :: 'u' :: 'e' :: rest => some (.bool true, rest)
  | 'f' :: 'a' :: 'l' :: 's' :: 'e' :: rest => some (.bool false, rest)
  | '"' :: rest => (Text.scan? rest).map fun (written, rest) => (.string (.ofList written), rest)
  | cs => (scanNumber? cs).map fun (written, rest) => (.number (.ofList written), rest)

mutual

/-- A value at the front of a text, after blanks. -/
def scanValue? : (fuel : Nat) → List Char → Option (Json × List Char)
  | 0, _ => none
  | fuel + 1, cs =>
    match skipBlanks cs with
    | '[' :: rest =>
      match skipBlanks rest with
      | ']' :: rest => some (.array [], rest)
      | rest => (scanItems? fuel rest).map fun (items, rest) => (.array items, rest)
    | '\x7b' :: rest =>
      match skipBlanks rest with
      | '\x7d' :: rest => some (.object [], rest)
      | rest => (scanMembers? fuel rest).map fun (members, rest) => (.object members, rest)
    | rest => scanScalar? rest

/-- At least one item, up to the closing bracket. -/
def scanItems? : (fuel : Nat) → List Char → Option (List Json × List Char)
  | 0, _ => none
  | fuel + 1, cs => do
    let (item, rest) ← scanValue? fuel cs
    match skipBlanks rest with
    | ',' :: rest => (scanItems? fuel rest).map fun (items, rest) => (item :: items, rest)
    | ']' :: rest => return ([item], rest)
    | _ => none

/-- At least one member, up to the closing brace. -/
def scanMembers? : (fuel : Nat) → List Char → Option (List (String × Json) × List Char)
  | 0, _ => none
  | fuel + 1, cs => do
    let '"' :: rest := skipBlanks cs | none
    let (name, rest) ← Text.scan? rest
    let ':' :: rest := skipBlanks rest | none
    let (value, rest) ← scanValue? fuel rest
    let member := (String.ofList name, value)
    match skipBlanks rest with
    | ',' :: rest =>
      (scanMembers? fuel rest).map fun (members, rest) => (member :: members, rest)
    | '\x7d' :: rest => return ([member], rest)
    | _ => none

end

/-- The value that a text is. Every value and every list of items starts with a character of
its own, so twice the length is depth enough. -/
def parse? (s : String) : Option Json := do
  let cs := s.toList
  let (value, rest) ← scanValue? (2 * cs.length + 2) cs
  if (skipBlanks rest).isEmpty then some value else none

end Fabric.Json
