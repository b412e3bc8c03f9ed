import Fabric.Bits

/-!
# Numerals

Digits in a base of at most sixteen, and the text of an unsigned number: an optional plus
sign and at least one ASCII digit, leading zeros allowed. There is no minus sign, no separator
and no surrounding space. A reader for 32-bit words also refuses what does not fit.

## Main results

* `word32?_eq_some_iff` — which texts are read as a word, and as which;
* `isDecimal_toString` — every number has a numeral.
-/

namespace Fabric.Numeral

/-- The value of a hexadecimal digit of either case. -/
def hexDigit? (c : Char) : Option Nat :=
  if '0' ≤ c ∧ c ≤ '9' then some (c.toNat - '0'.toNat)
  else if 'a' ≤ c ∧ c ≤ 'f' then some (c.toNat - 'a'.toNat + 10)
  else if 'A' ≤ c ∧ c ≤ 'F' then some (c.toNat - 'A'.toNat + 10)
  else none

/-- The value of a digit in a base of at most sixteen. -/
def digit? (base : Nat) (c : Char) : Option Nat := (hexDigit? c).filter (· < base)

/-- The value of digits that follow a number already read. -/
def digitsFrom? (base : Nat) (acc : Nat) : List Char → Option Nat
  | [] => some acc
  | c :: rest => (digit? base c).bind fun v => digitsFrom? base (acc * base + v) rest

/-- The value of a non-empty row of digits. -/
def digits? (base : Nat) : List Char → Option Nat
  | [] => none
  | cs => digitsFrom? base 0 cs

/-- The value of a numeral. -/
def unsigned? (base : Nat) : List Char → Option Nat
  | '+' :: cs => digits? base cs
  | cs => digits? base cs

/-- The value of a decimal numeral that fits a 32-bit word. -/
def word32? (cs : List Char) : Option Nat := (unsigned? 10 cs).filter (· < capacity 32)

/-! ### Fixed-width hexadecimal -/

/-- The digit of a value below sixteen, in lower case. -/
def hexDigit (n : Nat) : Char := ("0123456789abcdef".toList).getD n '0'

/-- A 64-bit word as `0x` and sixteen digits. -/
def hexWord (n : Nat) : String :=
  String.ofList ('0' :: 'x' :: (List.range 16).map fun k => hexDigit (n >>> (4 * (15 - k)) % 16))

/-! ### What numerals mean -/

/-- A decimal numeral and its value: an optional plus sign, and at least one digit. -/
def IsDecimal (cs : List Char) (n : Nat) : Prop :=
  ∃ digits, (cs = digits ∨ cs = '+' :: digits) ∧ digits ≠ [] ∧ (∀ c ∈ digits, c.isDigit = true) ∧
    n = Nat.ofDigitChars 10 digits 0

/-- The decimal digits, among those of larger bases. -/
theorem digit?_ten_eq_some_iff {c : Char} {v : Nat} :
    digit? 10 c = some v ↔ c.isDigit = true ∧ v = c.toNat - '0'.toNat := by
  have hle (a b : Char) : a ≤ b ↔ a.toNat ≤ b.toNat := Iff.rfl
  rw [digit?, hexDigit?, Char.isDigit_iff_toNat, Option.filter_eq_some_iff, decide_eq_true_iff]
  simp only [hle, Char.reduceToNat]
  grind

/-- Digits are read from an accumulator on exactly when all characters are digits. -/
theorem digitsFrom?_ten_eq_some_iff {cs : List Char} {acc n : Nat} :
    digitsFrom? 10 acc cs = some n ↔ (∀ c ∈ cs, c.isDigit = true) ∧
      n = Nat.ofDigitChars 10 cs acc := by
  induction cs generalizing acc with
  | nil => simp [digitsFrom?, @eq_comm _ n]
  | cons c rest ih =>
    rw [digitsFrom?, Option.bind_eq_some_iff, List.forall_mem_cons, Nat.ofDigitChars_cons]
    simp only [digit?_ten_eq_some_iff, ih, Nat.mul_comm acc]
    constructor
    · rintro ⟨v, ⟨hc, rfl⟩, hrest, hn⟩
      exact ⟨⟨hc, hrest⟩, hn⟩
    · rintro ⟨⟨hc, hrest⟩, hn⟩
      exact ⟨_, ⟨hc, rfl⟩, hrest, hn⟩

/-- Digits are read exactly from a non-empty text of digits. -/
theorem digits?_ten_eq_some_iff {cs : List Char} {n : Nat} : digits? 10 cs = some n ↔
    cs ≠ [] ∧ (∀ c ∈ cs, c.isDigit = true) ∧ n = Nat.ofDigitChars 10 cs 0 := by
  cases cs with
  | nil => simp [digits?]
  | cons c rest =>
    rw [digits?, digitsFrom?_ten_eq_some_iff, and_iff_right (List.cons_ne_nil c rest)]
    exact List.cons_ne_nil c rest

/-- A text is read exactly when it is a decimal number. -/
theorem unsigned?_ten_eq_some_iff {cs : List Char} {n : Nat} :
    unsigned? 10 cs = some n ↔ IsDecimal cs n := by
  unfold unsigned? IsDecimal
  constructor
  · intro h
    split at h
    · exact ⟨_, .inr rfl, digits?_ten_eq_some_iff.mp h⟩
    · exact ⟨_, .inl rfl, digits?_ten_eq_some_iff.mp h⟩
  · rintro ⟨digits, rfl | rfl, h⟩
    · split
      · -- a plus sign is no digit
        exact absurd (h.2.1 '+' List.mem_cons_self) (by decide)
      · exact digits?_ten_eq_some_iff.mpr h
    · exact digits?_ten_eq_some_iff.mpr h

/-- A numeral has one value. -/
theorem IsDecimal.unique {cs : List Char} {m n : Nat} (hm : IsDecimal cs m) (hn : IsDecimal cs n) :
    m = n :=
  Option.some.inj ((unsigned?_ten_eq_some_iff.mpr hm).symm.trans (unsigned?_ten_eq_some_iff.mpr hn))

/-- A word is read off a decimal numeral if its value fits. -/
theorem word32?_eq_some_iff {cs : List Char} {n : Nat} :
    word32? cs = some n ↔ IsDecimal cs n ∧ n < capacity 32 := by
  rw [word32?, Option.filter_eq_some_iff, unsigned?_ten_eq_some_iff, decide_eq_true_iff]

/-- Every number has a numeral. -/
theorem isDecimal_toString (n : Nat) : IsDecimal (toString n).toList n := by
  rw [Nat.toString_eq_ofList_toDigits, String.toList_ofList]
  exact ⟨_, .inl rfl, Nat.toDigits_ne_nil,
    fun c hc => Nat.isDigit_of_mem_toDigits (by decide) (by decide) hc,
    Nat.ofDigitChars_ten_toDigits.symm⟩

end Fabric.Numeral
