import Fabric.Control.Basic

/-!
# Slots of a LAB

Which signal is bound to each shared control wire of a LAB. Slots are taken in order, and a
bound slot stays bound, so the bound slots of a category are the first ones; they are kept
as the list of their keys. `slots` is the view with the free slots included.

## Main results

* `bound_bind` — binding a key adds it to the bound keys of its category, once;
* `bind?_eq_none_iff` — binding fails exactly when a new key meets a full category.
-/

namespace Fabric

/-- The keys bound to the shared control wires of a LAB, in slot order. -/
abbrev ControlSlots := ByKind (List ControlSignal)

namespace ControlSlots

/-- No slot is bound. -/
def free : ControlSlots := .const []

/-- The slots of a category, bound or free, in the order of the shared wires. -/
def slots (s : ControlSlots) (kind : ControlKind) : List (Option ControlSignal) :=
  (s.get kind).map some ++ List.replicate (kind.limit - (s.get kind).length) none

/-- The slot that holds a key. -/
def find? (s : ControlSlots) (kind : ControlKind) (key : ControlSignal) : Option Nat :=
  (s.get kind).idxOf? key

/-- The number of bound slots of a category. -/
def used (s : ControlSlots) (kind : ControlKind) : Nat := (s.get kind).length

/-- The slot that holds a key, after binding the key to the first free slot if it has none.
There is no such slot when all of them hold other keys. -/
def bind? (s : ControlSlots) (kind : ControlKind) (key : ControlSignal) :
    Option (Nat × ControlSlots) :=
  match s.find? kind key with
  | some slot => some (slot, s)
  | none =>
    let bound := s.get kind
    if bound.length < kind.limit then some (bound.length, s.set kind (bound ++ [key])) else none

/-! ### What binding does -/

/-- A key has no slot exactly when it is not bound. -/
theorem find?_eq_none_iff (s : ControlSlots) (kind : ControlKind) (key : ControlSignal) :
    s.find? kind key = none ↔ key ∉ s.get kind := by
  simp [find?, List.idxOf?, List.findIdx?_eq_none_iff]
  constructor
  · intro h hk
    exact h key hk rfl
  · intro h k hk he
    exact h (he ▸ hk)

/-- Binding a key adds it at the end of the bound keys of its category unless it is there. -/
theorem bound_bind {s t : ControlSlots} {kind : ControlKind} {key : ControlSignal} {slot : Nat}
    (h : s.bind? kind key = some (slot, t)) (other : ControlKind) :
    t.get other =
      if kind = other ∧ key ∉ s.get kind then s.get kind ++ [key] else s.get other := by
  unfold bind? at h
  cases hf : s.find? kind key with
  | some i =>
    have hm : key ∈ s.get kind := by
      by_cases hm : key ∈ s.get kind
      · exact hm
      · rw [(find?_eq_none_iff s kind key).2 hm] at hf
        cases hf
    simp only [hf, Option.some.injEq, Prod.mk.injEq] at h
    simp [← h.2, hm]
  | none =>
    have hm := (find?_eq_none_iff s kind key).1 hf
    simp only [hf] at h
    split at h
    · simp only [Option.some.injEq, Prod.mk.injEq] at h
      rw [← h.2, ByKind.get_set]
      by_cases hk : kind = other <;> simp [hk, hm]
      subst hk
      simp [hm]
    · cases h

/-- Binding fails exactly when a new key meets a full category. -/
theorem bind?_eq_none_iff (s : ControlSlots) (kind : ControlKind) (key : ControlSignal) :
    s.bind? kind key = none ↔ key ∉ s.get kind ∧ kind.limit ≤ (s.get kind).length := by
  unfold bind?
  cases hf : s.find? kind key with
  | some i =>
    have hm : key ∈ s.get kind := by
      by_cases hm : key ∈ s.get kind
      · exact hm
      · rw [(find?_eq_none_iff s kind key).2 hm] at hf
        cases hf
    simp [hm]
  | none =>
    have hm := (find?_eq_none_iff s kind key).1 hf
    simp [hm]

end ControlSlots

end Fabric
