/-!
# Numbers as rows of bits

A number spelled by its bits, lowest first. Both the address of a truth table and the table
itself are such numbers.

## Main results

* `testBit_ofBits` — the bits read back, and all higher ones are zero;
* `ofBits_lt_capacity` — some bits spell one of as many numbers as they can hold.
-/

namespace Fabric

/-- The number with the given bits, lowest first. -/
def ofBits : List Bool → Nat
  | [] => 0
  | b :: rest => b.toNat + 2 * ofBits rest

/-- The bits read back, and all higher ones are zero. -/
theorem testBit_ofBits (bits : List Bool) (i : Nat) :
    (ofBits bits).testBit i = bits.getD i false := by
  induction bits generalizing i with
  | nil => simp [ofBits]
  | cons b rest ih =>
    cases i with
    | zero => cases b <;> simp [ofBits, Nat.testBit_zero, Nat.add_mod]
    | succ i =>
      have half : (b.toNat + 2 * ofBits rest) / 2 = ofBits rest := by
        cases b
        · simp
        · simp only [Bool.toNat_true]
          omega
      rw [ofBits, Nat.testBit_succ, half, ih, List.getD_cons_succ]

/-! ### How many numbers there are -/

/-- How many numbers some bits can hold. -/
def capacity (bits : Nat) : Nat := 1 <<< bits

@[simp] theorem capacity_zero : capacity 0 = 1 := rfl

theorem capacity_succ (n : Nat) : capacity (n + 1) = 2 * capacity n := Nat.shiftLeft_succ 1 n

/-- Some bits spell one of as many numbers as they can hold. -/
theorem ofBits_lt_capacity (bits : List Bool) : ofBits bits < capacity bits.length := by
  induction bits with
  | nil => simp [ofBits]
  | cons b rest ih =>
    have : b.toNat ≤ 1 := by cases b <;> simp
    rw [ofBits, List.length_cons, capacity_succ]
    omega

end Fabric
