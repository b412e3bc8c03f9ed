import Fabric.Wire.Graph

/-!
# Drivers and reservations

What the operations on a wire graph do, seen through two views of a wire: the wires *uphill* of
it (`uphill?`, which is also where the wire exists) and the one driver that it is *reserved* for
(`reservedDriver?`). Building a device changes the first view only, assigning control sets and
inputs the second one only.

## Main results

* `uphill?_addPips_self`, `uphill?_addPips_of_ne`, `uphill?_attach`, `uphill?_create`: the wires
  uphill of a wire after each step of a build;
* `reserve_spec`, `exists_reserve_iff`: a reservation makes the given wire the only driver, and it
  is refused only if that wire is not among the first 256 uphill;
* `reservedDriver?_unreserve`: a reservation can be taken back.
-/

namespace Fabric

namespace WireInfo

/-! ### Flags -/

/-- Clearing a reservation clears its flag. -/
theorem unreservedFlags_and_flag (flags : UInt64) : unreservedFlags flags &&& reservedFlag = 0 := by
  have h : ~~~(reservedFlag ||| reservedIndexMask) &&& reservedFlag = 0 := by decide
  rw [unreservedFlags, UInt64.and_assoc, h, UInt64.and_zero]

/-- Clearing a reservation clears its index. -/
theorem unreservedFlags_and_mask (flags : UInt64) :
    unreservedFlags flags &&& reservedIndexMask = 0 := by
  have h : ~~~(reservedFlag ||| reservedIndexMask) &&& reservedIndexMask = 0 := by decide
  rw [unreservedFlags, UInt64.and_assoc, h, UInt64.and_zero]

/-- A mask reaches both sides of a union of bits. -/
theorem or_and_right (a b c : UInt64) : (a ||| b) &&& c = a &&& c ||| b &&& c := by
  apply UInt64.toNat.inj
  simp only [UInt64.toNat_and, UInt64.toNat_or]
  exact Nat.and_or_distrib_right ..

/-- The place of a driver is in the low byte of the flags. -/
theorem place_and_masks : ∀ i < 256, i.toUInt64 &&& reservedFlag = 0 ∧
    (i.toUInt64 &&& reservedIndexMask).toNat = i := by
  decide +kernel

/-- The other flags are as they were. -/
theorem unreservedFlags_shiftRight (flags : UInt64) :
    unreservedFlags flags >>> 9 = flags >>> 9 := by
  have h : ~~~(reservedFlag ||| reservedIndexMask) >>> 9 = (-1 : UInt64) >>> 9 := by decide
  rw [unreservedFlags, UInt64.shiftRight_and, h, ← UInt64.shiftRight_and, UInt64.and_neg_one]

/-- A reservation sets its flag. -/
theorem reservedFlags_and_flag (flags : UInt64) {i : Nat} (hi : i < 256) :
    reservedFlags flags i &&& reservedFlag = reservedFlag := by
  rw [reservedFlags, or_and_right, or_and_right, unreservedFlags_and_flag, UInt64.and_self,
    (place_and_masks i hi).1, UInt64.zero_or, UInt64.or_zero]

/-- The index of a reservation is read back, as long as it fits in eight bits. -/
theorem reservedFlags_and_mask (flags : UInt64) {i : Nat} (hi : i < 256) :
    (reservedFlags flags i &&& reservedIndexMask).toNat = i := by
  have h : reservedFlag &&& reservedIndexMask = 0 := by decide
  rw [reservedFlags, or_and_right, or_and_right, unreservedFlags_and_mask, h, UInt64.zero_or,
    UInt64.zero_or, (place_and_masks i hi).2]

/-- The bits above the reservation are kept. -/
theorem reservedFlags_shiftRight (flags : UInt64) {i : Nat} (hi : i < 256) :
    reservedFlags flags i >>> 9 = flags >>> 9 := by
  have hflag : reservedFlag >>> 9 = 0 := by decide
  have hplace : ∀ i < 256, i.toUInt64 >>> (9 : UInt64) = 0 := by decide +kernel
  rw [reservedFlags, UInt64.shiftRight_or, UInt64.shiftRight_or, unreservedFlags_shiftRight, hflag,
    hplace i hi, UInt64.or_zero, UInt64.or_zero]

/-! ### The reserved driver -/

/-- A wire reserved for its uphill neighbour at place `i` has that neighbour as its driver. -/
theorem reservedDriver_reservedFlags (info : WireInfo) {i : Nat} (hi : i < 256) :
    ({ info with flags := reservedFlags info.flags i } : WireInfo).reservedDriver =
      info.uphill[i]? := by
  simp only [reservedDriver]
  rw [if_neg (by rw [reservedFlags_and_flag info.flags hi]; decide),
    reservedFlags_and_mask info.flags hi]

/-- A record with its reservation cleared names no driver. -/
theorem reservedDriver_unreservedFlags (info : WireInfo) :
    ({ info with flags := unreservedFlags info.flags } : WireInfo).reservedDriver = none := by
  rw [reservedDriver, if_pos (unreservedFlags_and_flag info.flags)]

/-- A place that a reservation can hold is a place of the driver. -/
theorem reservableIndex?_eq_some {info : WireInfo} {src : Wire} {i : Nat}
    (h : info.reservableIndex? src = some i) : i < 256 ∧ info.uphill[i]? = some src := by
  obtain ⟨name, downhill, ⟨uphill⟩, belPins, flags⟩ := info
  rw [reservableIndex?, Option.filter_eq_some_iff, List.idxOf?_toArray,
    List.idxOf?_eq_some_iff] at h
  obtain ⟨⟨hlt, heq, -⟩, hle⟩ := h
  have hle : i ≤ 255 := of_decide_eq_true hle
  refine ⟨by omega, ?_⟩
  rw [List.getElem?_toArray, List.getElem?_eq_getElem hlt, heq]

/-- The drivers that have a place for a reservation are the first 256 uphill. -/
theorem isSome_reservableIndex? (info : WireInfo) (src : Wire) :
    (info.reservableIndex? src).isSome ↔ src ∈ info.uphill.toList.take 256 := by
  obtain ⟨name, downhill, ⟨uphill⟩, belPins, flags⟩ := info
  rw [Option.isSome_iff_exists, List.mem_take_iff_getElem]
  constructor
  · rintro ⟨i, hi⟩
    obtain ⟨hlt, hsrc⟩ := reservableIndex?_eq_some hi
    rw [List.getElem?_toArray] at hsrc
    obtain ⟨hlen, hsrc⟩ := List.getElem?_eq_some_iff.1 hsrc
    exact ⟨i, Nat.lt_min.2 ⟨hlt, hlen⟩, hsrc⟩
  · rintro ⟨j, hj, hsrc⟩
    obtain ⟨i, hi⟩ := Option.isSome_iff_exists.mp
      (List.isSome_idxOf?.mpr (List.mem_of_getElem hsrc))
    obtain ⟨_, _, hfirst⟩ := List.idxOf?_eq_some_iff.mp hi
    have hij : i ≤ j := Nat.not_lt.1 fun h => hfirst j h hsrc
    refine ⟨i, ?_⟩
    rw [reservableIndex?, List.idxOf?_toArray, hi, Option.filter_some, if_pos]
    exact decide_eq_true (show i ≤ 255 by omega)

end WireInfo

namespace WireGraph

variable {g g' : WireGraph} {src dst w u : Wire} {l : List Wire}

/-- The wires uphill of a wire, if it exists. -/
def uphill? (g : WireGraph) (w : Wire) : Option (List Wire) :=
  (g.get? w).map fun info => info.uphill.toList

/-- The empty graph knows the sources of no wire. -/
@[simp] theorem uphill?_empty (w : Wire) : empty.uphill? w = none := by
  simp [uphill?, get?, empty]

/-- A wire is in the graph exactly when its sources are known. -/
theorem contains_eq_isSome_uphill? (g : WireGraph) (w : Wire) :
    g.contains w = (g.uphill? w).isSome := by
  rw [contains_eq_isSome, uphill?, Option.isSome_map]

/-! ### Building steps -/

/-- An update is seen at its wire, starting from an empty record if there was none. -/
theorem get?_update (g : WireGraph) (w u : Wire) (f : WireInfo → WireInfo) :
    (g.update w f).get? u = if w = u then some (f ((g.get? w).getD {})) else g.get? u := by
  rw [update, get?_modify, get?_ensure, get?_ensure]
  by_cases hwu : w = u
  · subst hwu
    rw [contains_eq_isSome]
    cases g.get? w <;> simp
  · simp [hwu]

/-- An update that leaves the uphill neighbours as they are creates the wire at most. -/
theorem uphill?_update (g : WireGraph) (w u : Wire) (f : WireInfo → WireInfo)
    (hf : ∀ info, (f info).uphill = info.uphill := by intro; rfl) :
    (g.update w f).uphill? u = if w = u then some ((g.uphill? w).getD []) else g.uphill? u := by
  rw [uphill?, get?_update]
  split
  · rw [uphill?, Option.map_some, hf]
    cases g.get? w <;> rfl
  · rfl

/-- Attaching a pin brings its wire into the graph and gives it no source. -/
theorem uphill?_attach (g : WireGraph) (w u : Wire) (pin : BelPin) :
    (g.attach w pin).uphill? u =
      if w = u then some ((g.uphill? w).getD []) else g.uphill? u :=
  uphill?_update g w u _

/-- Making a wire gives it no source, and keeps those it has. -/
theorem uphill?_create (g : WireGraph) (w u : Wire) (name : Ident) (flags : UInt64) :
    (g.create w name flags).uphill? u =
      if w = u then some ((g.uphill? w).getD []) else g.uphill? u :=
  uphill?_update g w u _

/-- A pip adds its source uphill of its destination. -/
theorem uphill?_addPip_self (h : g.uphill? dst = some l) (src : Wire) :
    (g.addPip src dst).uphill? dst = some (l ++ [src]) := by
  have hsrc :
      (g.update src fun info => { info with downhill := info.downhill.push dst }).uphill? dst
      = some l := by
    refine (uphill?_update g src dst _).trans ?_
    split
    · rename_i heq
      rw [heq, h, Option.getD_some]
    · exact h
  obtain ⟨info, hinfo, rfl⟩ := Option.map_eq_some_iff.mp hsrc
  rw [addPip, uphill?, get?_update, if_pos rfl, hinfo, Option.getD_some, Option.map_some,
    Array.toList_push]

/-- A pip changes no other wire that exists. -/
theorem uphill?_addPip_of_ne (hdst : dst ≠ w) (hsrc : src = w → (g.uphill? w).isSome) :
    (g.addPip src dst).uphill? w = g.uphill? w := by
  rw [addPip, uphill?, get?_update, if_neg hdst]
  refine (uphill?_update g src w _).trans ?_
  split
  · rename_i heq
    obtain ⟨l, hl⟩ := Option.isSome_iff_exists.mp (hsrc heq)
    rw [heq, hl, Option.getD_some]
  · rfl

/-- The sources of a wire come behind those it has. -/
theorem uphill?_addPips_self (h : g.uphill? dst = some l) (sources : List Wire) :
    (g.addPips sources dst).uphill? dst = some (l ++ sources) := by
  induction sources generalizing g l with
  | nil => simpa [addPips] using h
  | cons src rest ih =>
      rw [addPips, List.foldl_cons, ← addPips, ih (uphill?_addPip_self h src), List.append_assoc,
        List.singleton_append]

/-- Pips onto one wire leave the sources of the others as they were. -/
theorem uphill?_addPips_of_ne {sources : List Wire} (hdst : dst ≠ w)
    (hsrc : w ∈ sources → (g.uphill? w).isSome) :
    (g.addPips sources dst).uphill? w = g.uphill? w := by
  induction sources generalizing g with
  | nil => rfl
  | cons src rest ih =>
      have hpip : (g.addPip src dst).uphill? w = g.uphill? w :=
        uphill?_addPip_of_ne hdst fun h => hsrc (h ▸ List.mem_cons_self)
      rw [addPips, List.foldl_cons, ← addPips, ih, hpip]
      intro h
      rw [hpip]
      exact hsrc (List.mem_cons_of_mem src h)

/-! ### Reservations -/

/-- A reservation that is granted makes the given wire the only driver, and
touches nothing else. -/
theorem reserve_spec (h : g.reserve src dst = .ok g') :
    (∀ w, g'.uphill? w = g.uphill? w) ∧
      ∀ w, g'.reservedDriver? w = if dst = w then some src else g.reservedDriver? w := by
  rw [reserve] at h
  split at h
  · cases h
  rename_i info hinfo
  split at h
  · cases h
  rename_i i hi
  obtain rfl := Except.ok.inj h
  obtain ⟨hlt, hsrc⟩ := WireInfo.reservableIndex?_eq_some hi
  constructor
  · intro w
    rw [uphill?, get?_modify]
    split
    · rename_i heq
      rw [← heq, uphill?, Option.map_map]
      rfl
    · rfl
  · intro w
    rw [reservedDriver?, get?_modify]
    split
    · rw [hinfo, Option.map_some, Option.bind_some, WireInfo.reservedDriver_reservedFlags info hlt,
        hsrc]
    · rfl

/-- A reservation is granted for the first 256 wires uphill, and for no other. -/
theorem exists_reserve_iff : (∃ g', g.reserve src dst = .ok g') ↔
    ∃ l, g.uphill? dst = some l ∧ src ∈ l.take 256 := by
  rw [uphill?, reserve]
  cases hinfo : g.get? dst with
  | none => simp
  | some info =>
    simp only [Option.map_some, Option.some.injEq, exists_eq_left',
      ← WireInfo.isSome_reservableIndex?]
    cases info.reservableIndex? src <;> simp

/-- A wire that has at most 256 wires uphill can be reserved for each of them. -/
theorem exists_reserve (h : g.uphill? dst = some l) (hmem : src ∈ l) (hlen : l.length ≤ 256) :
    ∃ g', g.reserve src dst = .ok g' :=
  exists_reserve_iff.2 ⟨l, h, by rwa [List.take_of_length_le hlen]⟩

/-- A reservation fails for want of the wire exactly if the wire does not exist. -/
theorem reserve_eq_noWire : g.reserve src dst = .error .noWire ↔ ¬ (g.uphill? dst).isSome := by
  rw [uphill?, reserve]
  cases g.get? dst with
  | none => simp
  | some info => cases h : info.reservableIndex? src <;> simp [h]

/-- Releasing a wire keeps every pip. -/
@[simp] theorem uphill?_unreserve (g : WireGraph) (w u : Wire) :
    (g.unreserve w).uphill? u = g.uphill? u := by
  rw [unreserve, uphill?, get?_modify]
  split
  · rename_i heq
    rw [← heq, uphill?, Option.map_map]
    rfl
  · rfl

/-- Releasing a wire takes away its own driver only. -/
theorem reservedDriver?_unreserve (g : WireGraph) (w u : Wire) :
    (g.unreserve w).reservedDriver? u = if w = u then none else g.reservedDriver? u := by
  rw [unreserve, reservedDriver?, get?_modify]
  split
  · cases g.get? w with
    | none => rfl
    | some info => exact WireInfo.reservedDriver_unreservedFlags info
  · rfl

end WireGraph

end Fabric
