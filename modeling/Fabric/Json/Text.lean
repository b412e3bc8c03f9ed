import Fabric.Numeral

/-!
# Text inside JSON strings

A JSON string is *written* as the characters between its quotes: a quote, a backslash and
the control characters are written as escapes. `encode` writes text and `decode?` reads it
back. An escape may name half of a surrogate pair; a written string with a half that has no
partner is well-formed but stands for no text, so it is scanned by `scan?` and refused by
`decode?`.

## Main results

* `decode?_encode` — what is written reads back.
-/

namespace Fabric.Json.Text

/-! ### Writing -/

/-- A character as it is written inside a string. -/
def encodeChar (c : Char) : List Char :=
  match c with
  | '"' => ['\\', '"']
  | '\\' => ['\\', '\\']
  | '\x08' => ['\\', 'b']
  | '\x0c' => ['\\', 'f']
  | '\n' => ['\\', 'n']
  | '\r' => ['\\', 'r']
  | '\t' => ['\\', 't']
  | c =>
    if c.toNat < 0x20 then
      ['\\', 'u', '0', '0', Numeral.hexDigit (c.toNat / 16),
        Numeral.hexDigit (c.toNat % 16)]
    else [c]

/-- Text as it is written inside a string. -/
def encode (cs : List Char) : List Char := cs.flatMap encodeChar

/-! ### Reading -/

/-- The code unit that four hexadecimal digits spell. -/
def unit? (a b c d : Char) : Option Nat := Numeral.digits? 16 [a, b, c, d]

/-- The character behind a backslash that is not followed by `u`. -/
def escaped? (c : Char) : Option Char :=
  match c with
  | '"' | '\\' | '/' => some c
  | 'b' => some '\x08'
  | 'f' => some '\x0c'
  | 'n' => some '\n'
  | 'r' => some '\r'
  | 't' => some '\t'
  | _ => none

/-- The first half of a surrogate pair. -/
def isHigh (unit : Nat) : Bool := 0xd800 ≤ unit && unit < 0xdc00

/-- The second half of a surrogate pair. -/
def isLow (unit : Nat) : Bool := 0xdc00 ≤ unit && unit < 0xe000

/-- The character that a surrogate pair stands for. -/
def pair (high low : Nat) : Char := Char.ofNat (0x10000 + (high - 0xd800) * 0x400 + (low - 0xdc00))

/-- The text that written characters stand for, if there is one. -/
def decode? : List Char → Option (List Char)
  | [] => some []
  | '\\' :: 'u' :: a :: b :: c :: d :: rest =>
    match unit? a b c d with
    | none => none
    | some unit =>
      if isHigh unit then
        match rest with
        | '\\' :: 'u' :: e :: f :: g :: h :: rest =>
          match unit? e f g h with
          | none => none
          | some low =>
            if isLow low then (decode? rest).map (pair unit low :: ·) else none
        | _ => none
      else if isLow unit then none
      else (decode? rest).map (Char.ofNat unit :: ·)
  | '\\' :: c :: rest =>
    match escaped? c with
    | none => none
    | some c => (decode? rest).map (c :: ·)
  | c :: rest =>
    if c = '"' ∨ c = '\\' ∨ c.toNat < 0x20 then none else (decode? rest).map (c :: ·)

/-- The written characters up to the closing quote, in reverse after `acc`, and what follows
the quote. Every escape has to be well-formed. -/
def scanFrom? (acc : List Char) : List Char → Option (List Char × List Char)
  | '"' :: rest => some (acc, rest)
  | '\\' :: 'u' :: a :: b :: c :: d :: rest =>
    if (unit? a b c d).isSome then scanFrom? (d :: c :: b :: a :: 'u' :: '\\' :: acc) rest
    else none
  | '\\' :: c :: rest => if (escaped? c).isSome then scanFrom? (c :: '\\' :: acc) rest else none
  | c :: rest => if c.toNat < 0x20 then none else scanFrom? (c :: acc) rest
  | [] => none

/-- The written characters up to the closing quote, and what follows the quote. -/
def scan? (cs : List Char) : Option (List Char × List Char) :=
  (scanFrom? [] cs).map fun (acc, rest) => (acc.reverse, rest)

/-! ### What is written reads back -/

/-- The two hex digits of a control character are read back. -/
theorem unit?_hexDigit {n : Nat} (h : n < 0x20) :
    unit? '0' '0' (Numeral.hexDigit (n / 16)) (Numeral.hexDigit (n % 16)) = some n := by
  have all : ∀ n < 0x20,
      unit? '0' '0' (Numeral.hexDigit (n / 16)) (Numeral.hexDigit (n % 16)) = some n := by
    decide
  exact all n h

/-- A written character is read back, and then the rest is. -/
theorem decode?_encodeChar (c : Char) (rest : List Char) :
    decode? (encodeChar c ++ rest) = (decode? rest).map (c :: ·) := by
  unfold encodeChar
  split
  all_goals try rfl
  rename_i h1 h2 h3 h4 h5 h6 h7
  split
  · rename_i low
    have hu : unit? '0' '0' (Numeral.hexDigit (c.toNat / 16))
        (Numeral.hexDigit (c.toNat % 16)) = some c.toNat := unit?_hexDigit low
    have hhigh : isHigh c.toNat = false := by
      simp only [isHigh, Bool.and_eq_false_iff, decide_eq_false_iff_not]
      omega
    have hlow : isLow c.toNat = false := by
      simp only [isLow, Bool.and_eq_false_iff, decide_eq_false_iff_not]
      omega
    simp only [List.cons_append, List.nil_append, decode?, hu, hhigh, hlow]
    simp
  · rename_i printable
    have hq : c ≠ '"' := fun h => h1 h
    have hb : c ≠ '\\' := fun h => h2 h
    simp [decode?, hq, hb, printable]

/-- What is written reads back. -/
theorem decode?_encode (cs : List Char) : decode? (encode cs) = some cs := by
  induction cs with
  | nil => rfl
  | cons c rest ih =>
    rw [encode, List.flatMap_cons, decode?_encodeChar]
    rw [encode] at ih
    rw [ih]
    rfl

end Fabric.Json.Text
