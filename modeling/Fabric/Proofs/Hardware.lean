import Fabric.Proofs.Build

/-!
# The hardware under a model

A model is built once, and then a design is put on it: cells and nets, placements, derived data,
reservations. `Device.hardware` is the part of a model that no design changes. A state of a
device is therefore any model with the hardware of a built one, whatever its netlist, placement,
records and reservations are.

## Main results

* `exists_hasLab`: each LAB of such a model is that of a tile, and its wires have the numbers
  and the uphill wires that the plan of a LAB gives them.
-/

namespace Fabric

open Device (syntheticNode syntheticCount)

/-- The part of a model that no design changes: its chip, the wires with the wires uphill of
them, and its LABs but for their modes and bound signals. -/
structure Hardware where
  chip : Chip
  uphill : Wire → Option (List Wire)
  labs : Array Lab

/-- A LAB before anything is packed into it. -/
def Lab.bare (l : Lab) : Lab :=
  { l with control := .free, alms := l.alms.map fun a => { a with fused := false } }

namespace Device

/-- The hardware under a model. -/
def hardware (d : Device) : Hardware := ⟨d.chip, d.wires.uphill?, d.labs.map Lab.bare⟩

/-- A LAB of a model is the one of tile `x`, `y`, and so are its wires. -/
structure HasLab (d : Device) (info : Lab) (x y : Nat) : Prop extends IsTile d.chip x y .lab where
  bare : info.bare = labAt x y
  uphill : ∀ n < syntheticCount,
    d.wires.uphill? (syntheticNode x y n) = ((labPlan x y)[n]?).map BlockWire.uphill

/-- A LAB is built bare. -/
theorem bare_labAt (x y : Nat) : (labAt x y).bare = labAt x y := by
  simp [Lab.bare, labAt, labAlm, Function.comp_def]

/-- The LABs of a built device are those of its tiles. -/
theorem IsBuilt.hasLab {c : Chip} (hc : c.Fits) {d : Device} (h : IsBuilt c d) {lab : Nat}
    {info : Lab} (hlab : d.labs[lab]? = some info) :
    ∃ x y, info = labAt x y ∧ d.HasLab info x y := by
  have hmem : info ∈ d.labs.toList := by
    rw [Array.mem_toList_iff]
    exact Array.mem_of_getElem? hlab
  rw [h.labs, Chip.labsOf, List.mem_flatMap] at hmem
  obtain ⟨⟨x, y⟩, ht, hinfo⟩ := hmem
  obtain ⟨block, hblock⟩ := Chip.exists_blockAt ht
  have hplan := h.uphill (x, y) ht
  simp only [hblock, Option.map_some, Option.getD_some, Chip.tilePlan] at hinfo hplan
  cases block with
  | lab =>
      obtain rfl := List.mem_singleton.mp hinfo
      exact ⟨x, y, rfl, ⟨hc.inRange ht, by rw [h.chip, hblock]⟩, bare_labAt x y, hplan⟩
  | gpio => cases hinfo
  | clockMux => cases hinfo

/-- The LABs of a model on a built device are those of its tiles. -/
theorem exists_hasLab {selection : Selection} {d₀ d : Device}
    (hbuilt : ofSelection selection = .ok d₀) (hd : d.hardware = d₀.hardware) {lab : Nat}
    {info : Lab} (hlab : d.labs[lab]? = some info) : ∃ x y, d.HasLab info x y := by
  obtain ⟨c, hc, hbuilt⟩ := isBuilt_of_ofSelection hbuilt
  have hchip : d.chip = d₀.chip := congrArg Hardware.chip hd
  have hlabs : d.labs.map Lab.bare = d₀.labs.map Lab.bare := congrArg Hardware.labs hd
  have huphill : d.wires.uphill? = d₀.wires.uphill? := congrArg Hardware.uphill hd
  have hget : (d₀.labs.map Lab.bare)[lab]? = some info.bare := by
    rw [← hlabs, Array.getElem?_map, hlab, Option.map_some]
  rw [Array.getElem?_map, Option.map_eq_some_iff] at hget
  obtain ⟨info₀, hlab₀, hbare⟩ := hget
  obtain ⟨x, y, rfl, hhas⟩ := IsBuilt.hasLab hc hbuilt hlab₀
  refine ⟨x, y, ?_, hbare.symm.trans hhas.bare, ?_⟩
  · rw [hchip]
    exact hhas.toIsTile
  · rw [huphill]
    exact hhas.uphill

/-- The smallest grid has its LAB at column 1 and row 1. -/
theorem getElem?_labs_smallestGrid {d₀ : Device} (hbuilt : ofSelection (.ofGrid 3 2) = .ok d₀) :
    d₀.labs[0]? = some (labAt 1 1) := by
  obtain ⟨d₀', hbuilt', hd₀⟩ := exists_ofSelection chip_smallestGrid
  obtain rfl := Except.ok.inj (hbuilt.symm.trans hbuilt')
  rw [← Array.getElem?_toList, hd₀.labs]
  rfl

/-- Any netlist and placement can be put on the smallest grid. Its only LAB is that of
the tile `1`, `1`. -/
theorem exists_onSmallestGrid (netlist : Netlist) (sites : Array (Array Site)) :
    ∃ d₀ d : Device, ofSelection (.ofGrid 3 2) = .ok d₀ ∧ d.hardware = d₀.hardware ∧
      d.chip = ⟨"synthetic-3x2", 3, 2⟩ ∧ d.netlist = netlist ∧ d.sites = sites ∧
      d.labs[0]? = some (labAt 1 1) := by
  obtain ⟨d₀, hbuilt, hd₀⟩ := exists_ofSelection chip_smallestGrid
  have hlab := getElem?_labs_smallestGrid hbuilt
  exact ⟨d₀, { d₀ with netlist := netlist, sites := sites }, hbuilt, rfl, hd₀.chip, rfl, rfl, hlab⟩

namespace HasLab

variable {d : Device} {info : Lab} {x y : Nat}

/-- The shared wires of a LAB are those it was built with. -/
theorem shared (h : d.HasLab info x y) : info.shared = labShared x y :=
  congrArg Lab.shared h.bare

/-- A LAB stands at the tile it was built for. -/
theorem pos (h : d.HasLab info x y) : info.pos = .pack x y :=
  congrArg Lab.pos h.bare

/-- The ALMs of a LAB but for their modes. -/
theorem getElem?_alms (h : d.HasLab info x y) {z : Nat} {a : Alm} (ha : info.alms[z]? = some a) :
    z < Chip.almsPerLab ∧ ({ a with fused := false } : Alm) = labAlm x y z := by
  have hget : info.bare.alms[z]? = some { a with fused := false } := by
    rw [Lab.bare, Array.getElem?_map, ha, Option.map_some]
  rw [h.bare, labAt, List.getElem?_toArray, List.getElem?_map, Option.map_eq_some_iff] at hget
  obtain ⟨z', hz, heq⟩ := hget
  obtain ⟨hlt, rfl⟩ := eq_of_getElem?_range hz
  exact ⟨hlt, heq.symm⟩

/-- A LAB has an ALM of every number. -/
theorem exists_alm (h : d.HasLab info x y) {z : Nat} (hz : z < Chip.almsPerLab) :
    ∃ a, info.alms[z]? = some a := by
  have hget : info.bare.alms[z]? = some (labAlm x y z) := by
    rw [h.bare, labAt, List.getElem?_toArray, List.getElem?_map, List.getElem?_range hz,
      Option.map_some]
  rw [Lab.bare, Array.getElem?_map, Option.map_eq_some_iff] at hget
  obtain ⟨a, ha, -⟩ := hget
  exact ⟨a, ha⟩

/-- The LUT sites of an ALM are different. -/
theorem lutSites_ne (h : d.HasLab info x y) {z : Nat} {a : Alm} (ha : info.alms[z]? = some a) :
    a.lutSites.top ≠ a.lutSites.bottom := by
  obtain ⟨hz, heq⟩ := h.getElem?_alms ha
  have hsites := congrArg (fun b : Alm => b.lutSites) heq
  change a.lutSites = (labAlm x y z).lutSites at hsites
  rw [hsites]
  intro hsame
  have hz : z < 10 := hz
  have hnumber : (6 * z).toUInt16.toNat = (6 * z + 1).toUInt16.toNat :=
    congrArg (fun bel : BelId => bel.z.toNat) hsame
  rw [UInt16.toNat_ofNat_of_lt' (show 6 * z < 65536 by omega),
    UInt16.toNat_ofNat_of_lt' (show 6 * z + 1 < 65536 by omega)] at hnumber
  omega

end HasLab

/-- The only LAB of the smallest grid is that of the tile `1`, `1`. -/
theorem exists_hasLab_smallestGrid {d₀ d : Device} (hbuilt : ofSelection (.ofGrid 3 2) = .ok d₀)
    (hd : d.hardware = d₀.hardware) : ∃ info, d.labs[0]? = some info ∧ d.HasLab info 1 1 := by
  have hlabs : d.labs.map Lab.bare = d₀.labs.map Lab.bare := congrArg Hardware.labs hd
  have hget : (d.labs.map Lab.bare)[0]? = some (labAt 1 1) := by
    rw [hlabs, Array.getElem?_map, getElem?_labs_smallestGrid hbuilt, Option.map_some, bare_labAt]
  rw [Array.getElem?_map, Option.map_eq_some_iff] at hget
  obtain ⟨info, hinfo, hbare⟩ := hget
  obtain ⟨x, y, h⟩ := exists_hasLab hbuilt hd hinfo
  have hpos : Pos.pack x y = Pos.pack 1 1 := h.pos.symm.trans (congrArg Lab.pos hbare)
  obtain rfl : x = 1 := by
    rw [← Pos.x_pack h.x_lt h.y_lt, hpos]
    rfl
  obtain rfl : y = 1 := by
    rw [← Pos.y_pack h.x_lt h.y_lt, hpos]
    rfl
  exact ⟨info, hinfo, h⟩

/-- The only LAB of the smallest grid has its first ALM. -/
theorem exists_alm_smallestGrid {d₀ d : Device} (hbuilt : ofSelection (.ofGrid 3 2) = .ok d₀)
    (hd : d.hardware = d₀.hardware) : ∃ info a, d.labs[0]? = some info ∧ d.HasLab info 1 1 ∧
      info.alms[0]? = some a ∧ d.alm? 0 0 = some a := by
  obtain ⟨info, hinfo, hlab⟩ := exists_hasLab_smallestGrid hbuilt hd
  obtain ⟨a, ha⟩ := hlab.exists_alm (z := 0) (by decide)
  exact ⟨info, a, hinfo, hlab, ha, by rw [alm?, hinfo, Option.bind_some, ha]⟩

end Device

end Fabric
