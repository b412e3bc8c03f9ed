import Fabric.Numeral

/-!
# Blanks, comments and strings of TOML

Within a line, blanks are spaces and tabs. A line ends with a line feed, with or without a
carriage return before it; a carriage return alone is not allowed. Control characters other
than the tab are allowed nowhere, not even in a comment.

A *basic* string stands between quotes and has escapes; a *literal* string stands between
apostrophes and has none. Both have a form that spans lines, between three delimiters each:
a line break right after the opening is dropped, other line breaks become line feeds, and up
to two delimiters may stand right before the closing ones. In a basic string of that form, a
backslash at the end of a line drops the line break and all blanks and breaks after it.
-/

namespace Fabric.Toml.Text

/-! ### Blanks and comments -/

/-- A blank within a line. -/
def isBlank (c : Char) : Bool := c == ' ' || c == '\t'

/-- Skips blanks. -/
def skipBlanks (cs : List Char) : List Char := cs.dropWhile isBlank

/-- A character that stands for itself: no control character, unless it is a tab. -/
def isPlain (c : Char) : Bool := c == '\t' || (0x20 ≤ c.toNat && c.toNat != 0x7f)

/-- Skips a line break that has to be there. -/
def newline? : List Char → Option (List Char)
  | '\n' :: rest => some rest
  | '\r' :: '\n' :: rest => some rest
  | _ => none

/-- Skips a comment, if there is one, up to the end of the line. -/
def skipComment : List Char → List Char
  | '#' :: rest => rest.dropWhile isPlain
  | cs => cs

/-- Skips the rest of a line, which may hold blanks and a comment only. -/
def endOfLine? (cs : List Char) : Option (List Char) :=
  match skipComment (skipBlanks cs) with
  | [] => some []
  | rest => newline? rest

/-- Skips blanks, comments and line breaks, at most `fuel` lines. -/
def skipLines : (fuel : Nat) → List Char → List Char
  | 0, cs => skipBlanks cs
  | fuel + 1, cs =>
    let rest := skipBlanks cs
    match newline? (skipComment rest) with
    | some rest => skipLines fuel rest
    | none => rest

/-! ### Escapes -/

/-- The character whose code hexadecimal digits spell. No character has the
code of a surrogate. -/
def scalar? (digits : List Char) : Option Char := do
  let code ← Numeral.digits? 16 digits
  if code.isValidChar then some (Char.ofNat code) else none

/-- The character behind a backslash, if it needs no digits. -/
def escaped? (c : Char) : Option Char :=
  match c with
  | '"' | '\\' => some c
  | 'b' => some '\x08'
  | 'f' => some '\x0c'
  | 'n' => some '\n'
  | 'r' => some '\r'
  | 't' => some '\t'
  | _ => none

/-! ### Strings on one line -/

/-- The characters of a basic string up to its end, in reverse after `acc`, and the rest. -/
def basicFrom? (acc : List Char) : List Char → Option (List Char × List Char)
  | '"' :: rest => some (acc, rest)
  | '\\' :: 'u' :: a :: b :: c :: d :: rest =>
    (scalar? [a, b, c, d]).bind fun char => basicFrom? (char :: acc) rest
  | '\\' :: 'U' :: a :: b :: c :: d :: e :: f :: g :: h :: rest =>
    (scalar? [a, b, c, d, e, f, g, h]).bind fun char => basicFrom? (char :: acc) rest
  | '\\' :: c :: rest => (escaped? c).bind fun char => basicFrom? (char :: acc) rest
  | c :: rest => if isPlain c ∧ c ≠ '\\' then basicFrom? (c :: acc) rest else none
  | [] => none

/-- The characters of a literal string up to its end, in reverse after `acc`, and the rest. -/
def literalFrom? (acc : List Char) : List Char → Option (List Char × List Char)
  | '\'' :: rest => some (acc, rest)
  | c :: rest => if isPlain c then literalFrom? (c :: acc) rest else none
  | [] => none

/-! ### Strings that span lines -/

/-- Drops a line break at the front. -/
def dropNewline (cs : List Char) : List Char := (newline? cs).getD cs

/-- Up to two more delimiters right before the closing ones belong to the string. -/
def closing (delimiter : Char) (acc : List Char) : List Char → List Char × List Char
  | c :: d :: rest =>
    if c = delimiter then
      if d = delimiter then (d :: c :: acc, rest) else (c :: acc, d :: rest)
    else (acc, c :: d :: rest)
  | [c] => if c = delimiter then ([c] ++ acc, []) else (acc, [c])
  | [] => (acc, [])

/-- How far a gap between two lines has been skipped. -/
inductive Gap where
  /-- There is no gap here. -/
  | none
  /-- After the backslash; a line break has to come. -/
  | toBreak
  /-- After the line break. -/
  | afterBreak
  deriving DecidableEq

/-- The characters of a basic string over several lines, in reverse after
`acc`, and the rest. -/
def basicLinesFrom? (gap : Gap) (acc : List Char) : List Char → Option (List Char × List Char)
  | [] => Option.none
  | c :: rest =>
    if c = '\r' ∧ rest.head? = some '\n' then basicLinesFrom? gap acc rest
    else if gap = .toBreak then
      if isBlank c then basicLinesFrom? .toBreak acc rest
      else if c = '\n' then basicLinesFrom? .afterBreak acc rest
      else Option.none
    else if gap = .afterBreak ∧ (isBlank c ∨ c = '\n') then basicLinesFrom? .afterBreak acc rest
    else match c, rest with
      | '"', '"' :: '"' :: rest => some (closing '"' acc rest)
      | '\\', 'u' :: a :: b :: c :: d :: rest =>
        (scalar? [a, b, c, d]).bind fun char => basicLinesFrom? .none (char :: acc) rest
      | '\\', 'U' :: a :: b :: c :: d :: e :: f :: g :: h :: rest =>
        (scalar? [a, b, c, d, e, f, g, h]).bind fun char =>
          basicLinesFrom? .none (char :: acc) rest
      | '\\', c :: rest =>
        if isBlank c ∨ c = '\n' ∨ c = '\r' then basicLinesFrom? .toBreak acc (c :: rest)
        else (escaped? c).bind fun char => basicLinesFrom? .none (char :: acc) rest
      | '\n', rest => basicLinesFrom? .none ('\n' :: acc) rest
      | c, rest =>
        if isPlain c ∧ c ≠ '\\' then basicLinesFrom? .none (c :: acc) rest else Option.none

/-- The characters of a literal string over several lines, in reverse after
`acc`, and the rest. -/
def literalLinesFrom? (acc : List Char) : List Char → Option (List Char × List Char)
  | '\'' :: '\'' :: '\'' :: rest => some (closing '\'' acc rest)
  | '\r' :: '\n' :: rest => literalLinesFrom? ('\n' :: acc) rest
  | '\n' :: rest => literalLinesFrom? ('\n' :: acc) rest
  | c :: rest => if isPlain c then literalLinesFrom? (c :: acc) rest else none
  | [] => none

/-! ### Any string -/

/-- A string in the order of reading. -/
def finish (scanned : Option (List Char × List Char)) : Option (String × List Char) :=
  scanned.map fun (acc, rest) => (String.ofList acc.reverse, rest)

/-- A string on one line. -/
def line? : List Char → Option (String × List Char)
  | '"' :: rest => finish (basicFrom? [] rest)
  | '\'' :: rest => finish (literalFrom? [] rest)
  | _ => none

/-- A string of any form. -/
def string? : List Char → Option (String × List Char)
  | '"' :: '"' :: '"' :: rest => finish (basicLinesFrom? .none [] (dropNewline rest))
  | '\'' :: '\'' :: '\'' :: rest => finish (literalLinesFrom? [] (dropNewline rest))
  | cs => line? cs

end Fabric.Toml.Text
