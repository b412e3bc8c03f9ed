import Fabric.Numeral
import Fabric.Toml.Basic

/-!
# Numbers of TOML

An integer is decimal with an optional sign, or hexadecimal, octal or binary without one, and
fits 64 bits with a sign. A float has a fraction or an exponent, or is `inf` or `nan`; a
positive float has to be in the range of a double. A single underscore may stand between two
digits. A decimal number has no leading zero.

A number is scanned as far as it goes; whoever reads it checks what may follow.
-/

namespace Fabric.Toml.Number

/-! ### Digits -/

/-- Digits at the front of a text, without the underscores between them, in reverse after
`acc`, and the rest. -/
def digitsFrom (base : Nat) (acc : List Char) : List Char → List Char × List Char
  | '_' :: c :: rest =>
    if (Numeral.digit? base c).isSome ∧ ¬ acc.isEmpty then digitsFrom base (c :: acc) rest
    else (acc, '_' :: c :: rest)
  | c :: rest =>
    if (Numeral.digit? base c).isSome then digitsFrom base (c :: acc) rest else (acc, c :: rest)
  | [] => (acc, [])

/-- At least one digit at the front of a text, without the underscores, and the rest. -/
def digits? (base : Nat) (cs : List Char) : Option (List Char × List Char) :=
  match digitsFrom base [] cs with
  | ([], _) => none
  | (acc, rest) => some (acc.reverse, rest)

/-- The whole part of a decimal number: a lone zero, or digits that start with none. -/
def whole? : List Char → Option (List Char × List Char)
  | '0' :: rest => some (['0'], rest)
  | cs => digits? 10 cs

/-- A sign, if there is one: whether it is a minus, and the rest. -/
def sign : List Char → Bool × List Char
  | '+' :: rest => (false, rest)
  | '-' :: rest => (true, rest)
  | cs => (false, cs)

/-! ### Integers -/

/-- Whether an integer fits 64 bits with a sign. -/
def isWord (n : Int) : Bool := -capacity 63 ≤ n && n < capacity 63

/-- The integer with the given sign and digits, if it fits. -/
def integer? (base : Nat) (negative : Bool) (digits : List Char) : Option Toml := do
  let n ← Numeral.digits? base digits
  let value : Int := if negative then -n else n
  if isWord value then some (.integer value) else none

/-- An integer in a base other than ten, after its letter. -/
def based? (base : Nat) (cs : List Char) : Option (Toml × List Char) := do
  let (digits, rest) ← digits? base cs
  return (← integer? base false digits, rest)

/-! ### Floats -/

/-- The fraction digits, if there is a point. -/
def fraction? : List Char → Option (Option (List Char) × List Char)
  | '.' :: rest => (digits? 10 rest).map fun (digits, rest) => (some digits, rest)
  | cs => some (none, cs)

/-- The exponent, if there is its letter. -/
def exponent? : List Char → Option (Option Int × List Char)
  | c :: rest =>
    if c = 'e' ∨ c = 'E' then do
      let (negative, rest) := sign rest
      let (digits, rest) ← digits? 10 rest
      let n ← Numeral.digits? 10 digits
      return (some (if negative then -n else n), rest)
    else some (none, c :: rest)
  | [] => some (none, [])

/-- Whether `mantissa * 10 ^ exponent` lies above every double: it reaches the middle between
the greatest one and the next power of two. -/
def isHuge (mantissa : Nat) (exponent : Int) : Bool :=
  let limit := capacity 1024 - capacity 970
  let size : Int := (Nat.toDigits 10 mantissa).length + exponent
  if mantissa = 0 ∨ size < 300 then false
  else if 400 < size then true
  else match exponent with
    | .ofNat e => limit ≤ mantissa * Nat.pow 10 e
    | .negSucc e => limit * Nat.pow 10 (e + 1) ≤ mantissa

/-- The words for floats that no digits spell. -/
def special? : List Char → Option (String × List Char)
  | 'i' :: 'n' :: 'f' :: rest => some ("inf", rest)
  | 'n' :: 'a' :: 'n' :: rest => some ("nan", rest)
  | _ => none

/-! ### Any number -/

/-- A decimal number after its sign. -/
def decimal? (negative : Bool) (cs : List Char) : Option (Toml × List Char) := do
  let (whole, rest) ← whole? cs
  let (fraction, rest) ← fraction? rest
  let (exponent, rest) ← exponent? rest
  if fraction.isNone ∧ exponent.isNone then return (← integer? 10 negative whole, rest)
  let places := fraction.getD []
  let mantissa ← Numeral.digits? 10 (whole ++ places)
  let power : Int := exponent.getD 0
  if ¬ negative ∧ isHuge mantissa (power - places.length) then none
  let sign := if negative then "-" else ""
  return (.float s!"{sign}{String.ofList whole}.{String.ofList places}e{power}", rest)

/-- A number at the front of a text, and the rest. -/
def scan? : List Char → Option (Toml × List Char)
  | '0' :: 'x' :: rest => based? 16 rest
  | '0' :: 'o' :: rest => based? 8 rest
  | '0' :: 'b' :: rest => based? 2 rest
  | cs =>
    let (negative, rest) := sign cs
    match special? rest with
    | some (word, rest) => some (.float (if negative then "-" ++ word else word), rest)
    | none => decimal? negative rest

end Fabric.Toml.Number
