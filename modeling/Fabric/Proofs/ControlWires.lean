import Fabric.Proofs.Hardware
import Fabric.Proofs.InputPlan

/-!
# The control wires of a LAB

A signal gets from a shared wire of the LAB to a flip-flop through the selector of the
flip-flop's half. Both kinds of wire are known by number, so a selector is the selector of one
half and category only, a shared wire has one place among the shared wires, and no wire is both.

## Main results

* `HasLab.getElem?_shared`, `HasLab.shared_inj`: the shared wire of a category and slot;
* `HasLab.selectors?`, `HasLab.selector_inj`: the selector of an ALM, half and category;
* `HasLab.selector_ne_shared`: selectors are not shared;
* `HasLab.uphill_shared`, `HasLab.uphill_selector`: the wires uphill of both.
-/

namespace Fabric

open Device (syntheticNode syntheticCount)

/-! ### The flip-flops of a LAB -/

/-- A value comes with a half when it stands at one of its flip-flops. -/
theorem Flops.mem_withHalf {α : Type} {v : Flops α} {half : Half} {b : α} :
    (half, b) ∈ v.withHalf ↔ ∃ second, v.flop half second = b := by
  cases half <;> simp [Flops.withHalf, Flops.flop, Halves.get, eq_comm]

/-- The flip-flops of a LAB are the occupants of the flip-flop sites of its ALMs. -/
theorem Device.mem_labFlipFlops {d : Device} {l : Lab} {a : Alm} {half : Half}
    {info : FlipFlopInfo} :
    (a, half, info) ∈ d.labFlipFlops l ↔ a ∈ l.alms ∧ ∃ second id,
      (d.flopCells a).flop half second = some id ∧ d.netlist.flipFlopInfo id = info := by
  rw [labFlipFlops, List.mem_filterMap]
  constructor
  · rintro ⟨⟨b, half', bel⟩, hmem, heq⟩
    rw [Lab.flipFlopSites, List.mem_flatMap] at hmem
    obtain ⟨c, hc, hmem⟩ := hmem
    obtain ⟨⟨half'', bel'⟩, hsite, hsame⟩ := List.mem_map.mp hmem
    cases hsame
    obtain ⟨id, hid, hinfo⟩ := Option.map_eq_some_iff.mp heq
    cases hinfo
    obtain ⟨second, hsecond⟩ := Flops.mem_withHalf.mp hsite
    refine ⟨Array.mem_toList_iff.mp hc, second, id, ?_, rfl⟩
    rw [flopCells, Flops.flop_mapFlops, hsecond, hid]
  · rintro ⟨ha, second, id, hid, rfl⟩
    rw [flopCells, Flops.flop_mapFlops] at hid
    refine ⟨(a, half, a.ffSites.flop half second), ?_, by simp only [hid, Option.map_some]⟩
    rw [Lab.flipFlopSites, List.mem_flatMap]
    refine ⟨a, Array.mem_toList_iff.mpr ha, List.mem_map.mpr ⟨(half, _), ?_, rfl⟩⟩
    exact Flops.mem_withHalf.mpr ⟨second, rfl⟩

/-! ### Wires by number -/

/-- The number of the first shared wire of a category. -/
def ControlKind.firstShared : ControlKind → Nat
  | .clk => 0
  | .ena => 3
  | .aclr => 6
  | .sclr => 8
  | .sload => 9

/-- The number of the selector of a half among the wires of its ALM. -/
def selectorNumber (half : Half) (kind : ControlKind) : Nat :=
  2 + 4 * half.index + ControlKind.selected.idxOf kind

/-- The shared wires of the kinds are the ten lowest of a LAB. -/
theorem ControlKind.firstShared_add_limit_le (kind : ControlKind) :
    kind.firstShared + kind.limit ≤ 10 := by
  cases kind <;> decide

/-- Shared wires with one number have the same category and slot. -/
theorem ControlKind.firstShared_add_inj {kind kind' : ControlKind} {slot slot' : Nat}
    (hslot : slot < kind.limit) (hslot' : slot' < kind'.limit)
    (h : kind.firstShared + slot = kind'.firstShared + slot') : kind = kind' ∧ slot = slot' := by
  cases kind <;> cases kind' <;> simp [firstShared, limit] at * <;> omega

/-- The selector wires of a LAB are those of its ALMs, kind by kind. -/
theorem mem_selectorWires {l : Lab} {w : Wire} : w ∈ l.selectorWires ↔
    ∃ a ∈ l.alms, ∃ kind ∈ ControlKind.selected, ∃ s, a.selectors? kind = some s ∧
      ∃ half, s.get half = w := by
  simp only [Lab.selectorWires, List.mem_flatMap, Array.mem_toList_iff, List.mem_append,
    Halves.mem_toList, ControlKind.selected, List.mem_cons, List.not_mem_nil, or_false,
    exists_eq_or_imp, exists_eq_left, Alm.selectors?, Option.some.injEq, exists_eq_left', or_assoc]

/-- The selectors have the lowest numbers of an ALM. -/
theorem selectorNumber_lt {kind : ControlKind} (hk : kind ∈ ControlKind.selected) (half : Half) :
    selectorNumber half kind < 10 := by
  simp only [ControlKind.selected, List.mem_cons, List.not_mem_nil, or_false] at hk
  rcases hk with rfl | rfl | rfl <;> cases half <;> decide

/-- Selectors with one number have the same half and category. -/
theorem selectorNumber_inj {kind kind' : ControlKind} (hk : kind ∈ ControlKind.selected)
    (hk' : kind' ∈ ControlKind.selected) {half half' : Half}
    (h : selectorNumber half kind = selectorNumber half' kind') : half = half' ∧ kind = kind' := by
  simp only [ControlKind.selected, List.mem_cons, List.not_mem_nil, or_false] at hk hk'
  rcases hk with rfl | rfl | rfl <;> rcases hk' with rfl | rfl | rfl <;> cases half <;> cases half'
  all_goals first | exact ⟨rfl, rfl⟩ | exact absurd h (by decide)

/-- The shared wires of a kind follow one another from its first. -/
theorem get_labShared (x y : Nat) (kind : ControlKind) : (labShared x y).get kind =
    (List.range kind.limit).map fun slot => syntheticNode x y (kind.firstShared + slot) := by
  cases kind <;>
    simp [labShared, ByKind.get, ControlKind.limit, ControlKind.firstShared, List.range_succ]

/-- The wires uphill of a shared wire are few. -/
theorem exists_getElem?_sharedPlan (x y : Nat) {n : Nat} (hn : n < 10) :
    ∃ b : BlockWire, (labPlan x y)[n]? = some b ∧ b.uphill.length ≤ 256 := by
  have h : (labPlan x y)[n]? = (sharedPlan x y)[n]? := by
    rw [labPlan, List.getElem?_append_left (by rw [length_sharedPlan]; exact hn)]
  rw [h]
  interval_cases n
  all_goals exact ⟨_, rfl, Nat.le_of_ble_eq_true rfl⟩

/-- A selector is fed by the shared wires of its category. -/
theorem getElem?_almPlan_selector (x y z : Nat) {kind : ControlKind}
    (hk : kind ∈ ControlKind.selected) (half : Half) :
    ((almPlan x y z)[selectorNumber half kind]?).map BlockWire.uphill =
      some ((labShared x y).get kind) := by
  cases kind <;> cases half <;> first | rfl | simp [ControlKind.selected] at hk

namespace Device.HasLab

variable {d : Device} {info : Lab} {x y : Nat} {kind kind' : ControlKind}

/-! ### Shared wires -/

/-- The shared wires of a LAB by number. -/
theorem getElem?_shared (h : d.HasLab info x y) (kind : ControlKind) (slot : Nat) :
    (info.shared.get kind)[slot]? =
      if slot < kind.limit then some (syntheticNode x y (kind.firstShared + slot)) else none := by
  rw [h.shared, get_labShared, List.getElem?_map]
  split
  · rename_i hslot
    rw [List.getElem?_range hslot, Option.map_some]
  · rename_i hslot
    rw [List.getElem?_eq_none (by simpa using hslot), Option.map_none]

/-- A shared wire has the number of its slot. -/
theorem mem_shared (h : d.HasLab info x y) {w : Wire} (hw : w ∈ info.shared.get kind) :
    ∃ slot < kind.limit, w = syntheticNode x y (kind.firstShared + slot) := by
  obtain ⟨slot, hslot⟩ := List.getElem?_of_mem hw
  rw [h.getElem?_shared, Option.ite_none_right_eq_some, Option.some.injEq] at hslot
  exact ⟨slot, hslot.1, hslot.2.symm⟩

/-- A wire of a LAB has one number. -/
theorem node_inj (h : d.HasLab info x y) {n m : Nat} (hn : n < 190) (hm : m < 190)
    (heq : syntheticNode x y n = syntheticNode x y m) : n = m := by
  have hle : 190 ≤ syntheticCount := by decide
  exact (syntheticNode_inj h.x_lt h.y_lt (by omega) h.x_lt h.y_lt (by omega) heq).2.2

/-- A shared wire has one category and one slot. -/
theorem shared_inj (h : d.HasLab info x y) {slot slot' : Nat} {w : Wire}
    (hw : (info.shared.get kind)[slot]? = some w) (hw' : (info.shared.get kind')[slot']? = some w) :
    kind = kind' ∧ slot = slot' := by
  rw [h.getElem?_shared, Option.ite_none_right_eq_some, Option.some.injEq] at hw hw'
  obtain ⟨hslot, rfl⟩ := hw
  obtain ⟨hslot', heq⟩ := hw'
  have hlt := kind.firstShared_add_limit_le
  have hlt' := kind'.firstShared_add_limit_le
  exact ControlKind.firstShared_add_inj hslot hslot' (h.node_inj (by omega) (by omega) heq.symm)

/-- A shared wire has few enough sources that each can be reserved. -/
theorem uphill_shared (h : d.HasLab info x y) {w : Wire} (hw : w ∈ info.shared.get kind) :
    ∃ l, d.wires.uphill? w = some l ∧ l.length ≤ 256 := by
  obtain ⟨slot, hslot, rfl⟩ := h.mem_shared hw
  have hlt := kind.firstShared_add_limit_le
  obtain ⟨b, hb, hlen⟩ :=
    exists_getElem?_sharedPlan x y (show kind.firstShared + slot < 10 by omega)
  have hle : 10 ≤ syntheticCount := by decide
  exact ⟨b.uphill, by rw [h.uphill _ (by omega), hb, Option.map_some], hlen⟩

/-! ### Selectors -/

/-- The selectors of an ALM by number. -/
theorem selectors? (h : d.HasLab info x y) (hk : kind ∈ ControlKind.selected) {z : Nat} {a : Alm}
    (ha : info.alms[z]? = some a) :
    ∃ s, a.selectors? kind = some s ∧ ∀ half,
      s.get half = almNode x y z (selectorNumber half kind) := by
  obtain ⟨-, heq⟩ := h.getElem?_alms ha
  have hsame : a.selectors? kind = (labAlm x y z).selectors? kind := by
    rw [← heq]
    cases kind <;> rfl
  rw [hsame]
  cases kind with
  | clk => exact ⟨_, rfl, fun half => by cases half <;> rfl⟩
  | ena => exact ⟨_, rfl, fun half => by cases half <;> rfl⟩
  | aclr => exact ⟨_, rfl, fun half => by cases half <;> rfl⟩
  | sclr => simp [ControlKind.selected] at hk
  | sload => simp [ControlKind.selected] at hk

/-- A selector belongs to one ALM, one half and one category. -/
theorem selector_inj (h : d.HasLab info x y) {z z' : Nat} (hz : z < Chip.almsPerLab)
    (hz' : z' < Chip.almsPerLab) (hk : kind ∈ ControlKind.selected)
    (hk' : kind' ∈ ControlKind.selected) {half half' : Half}
    (heq : almNode x y z (selectorNumber half kind) = almNode x y z' (selectorNumber half' kind')) :
    z = z' ∧ half = half' ∧ kind = kind' := by
  have hz : z < 10 := hz
  have hz' : z' < 10 := hz'
  have hlt := selectorNumber_lt hk half
  have hlt' := selectorNumber_lt hk' half'
  have hnumber := h.node_inj (by omega) (by omega) heq
  obtain rfl : z = z' := by omega
  exact ⟨rfl, selectorNumber_inj hk hk' (by omega)⟩

/-- No selector is a shared wire. -/
theorem selector_ne_shared (h : d.HasLab info x y) {z : Nat} (hz : z < Chip.almsPerLab)
    (hk : kind ∈ ControlKind.selected) (half : Half) :
    almNode x y z (selectorNumber half kind) ∉ info.shared.get kind' := by
  intro hmem
  obtain ⟨slot, hslot, heq⟩ := h.mem_shared hmem
  have hz : z < 10 := hz
  have hlt := selectorNumber_lt hk half
  have hle := kind'.firstShared_add_limit_le
  have hnumber := h.node_inj (by omega) (by omega) heq
  omega

/-- The wires uphill of a wire of an ALM are those of the plan. -/
theorem uphill_almNode (h : d.HasLab info x y) {z k : Nat} (hz : z < Chip.almsPerLab)
    (hk : k < 18) :
    d.wires.uphill? (almNode x y z k) = ((almPlan x y z)[k]?).map BlockWire.uphill := by
  have hz' : z < 10 := hz
  have hle : 190 ≤ syntheticCount := by decide
  rw [almNode, h.uphill _ (by omega), getElem?_labPlan hz hk]

/-- The wires uphill of a selector are the shared wires of its category. -/
theorem uphill_selector (h : d.HasLab info x y) {z : Nat} (hz : z < Chip.almsPerLab)
    (hk : kind ∈ ControlKind.selected) (half : Half) :
    d.wires.uphill? (almNode x y z (selectorNumber half kind)) = some (info.shared.get kind) := by
  have hlt := selectorNumber_lt hk half
  rw [h.uphill_almNode hz (by omega), getElem?_almPlan_selector x y z hk half, h.shared]

/-! ### All control wires -/

/-- The control wires of a LAB are its shared wires and the selectors of its ALMs. -/
theorem mem_controlWires (h : d.HasLab info x y) {w : Wire} :
    w ∈ info.controlWires ↔ (∃ kind, w ∈ info.shared.get kind) ∨
      ∃ z < Chip.almsPerLab, ∃ kind ∈ ControlKind.selected, ∃ half,
        w = almNode x y z (selectorNumber half kind) := by
  rw [Lab.controlWires, List.mem_append, Lab.sharedWires, List.mem_flatMap, mem_selectorWires]
  refine or_congr (by simp only [ControlKind.mem_all, true_and]) ?_
  constructor
  · rintro ⟨a, ha, kind, hk, s, hs, half, rfl⟩
    obtain ⟨z, hz⟩ := Array.mem_iff_getElem?.mp ha
    obtain ⟨s', hs', hget⟩ := h.selectors? hk hz
    obtain rfl := Option.some.inj (hs.symm.trans hs')
    exact ⟨z, (h.getElem?_alms hz).1, kind, hk, half, hget half⟩
  · rintro ⟨z, hz, kind, hk, half, rfl⟩
    obtain ⟨a, ha⟩ := h.exists_alm hz
    obtain ⟨s, hs, hget⟩ := h.selectors? hk ha
    exact ⟨a, Array.mem_of_getElem? ha, kind, hk, s, hs, half, hget half⟩

/-- The control wires of a LAB are in the graph. -/
theorem isSome_uphill_of_mem_controlWires (h : d.HasLab info x y) {w : Wire}
    (hw : w ∈ info.controlWires) : (d.wires.uphill? w).isSome := by
  rcases h.mem_controlWires.mp hw with ⟨kind, hw⟩ | ⟨z, hz, kind, hk, half, rfl⟩
  · obtain ⟨l, hl, -⟩ := h.uphill_shared hw
    rw [hl, Option.isSome_some]
  · rw [h.uphill_selector hz hk, Option.isSome_some]

end Device.HasLab

end Fabric
