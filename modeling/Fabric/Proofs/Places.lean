import Fabric.Proofs.AlmRoutes

/-!
# Places of a device

The LABs of a built device are on different tiles. So a LUT site belongs to one half of one ALM of
one LAB, and a control wire to one LAB: packing calls for different LABs or ALMs have nothing to
write in common. `IsState` is what all of this is said of, a consistent model on a built device.

## Main results

* `IsState.lab_inj`: different LABs are on different tiles;
* `IsState.lutSite_inj`, `IsState.flopSite_inj`: a site of an ALM has one LAB, one ALM and one
  place;
* `IsState.controlWire_inj`: a control wire has one LAB;
* `IsState.inputWire_inj`: a wire that a plan drives has one ALM;
* `IsState.notMem_controlWires_of_mem_inputWires`: such a wire is no control wire;
* `HasLab.driver_efSelector`, `HasLab.driver_ffIn`: the drivers that a plan leaves.
-/

namespace Fabric

open Device (syntheticNode syntheticCount)

/-- Tiles with one handle are one tile. -/
theorem Pos.pack_inj {x y x' y' : Nat} (hr : InRange x y) (hr' : InRange x' y')
    (h : Pos.pack x y = Pos.pack x' y') : x = x' ∧ y = y' := by
  have hx := congrArg Pos.x h
  have hy := congrArg Pos.y h
  rw [Pos.x_pack hr.x_lt hr.y_lt, Pos.x_pack hr'.x_lt hr'.y_lt] at hx
  rw [Pos.y_pack hr.x_lt hr.y_lt, Pos.y_pack hr'.x_lt hr'.y_lt] at hy
  exact ⟨hx, hy⟩

/-- Sites with one handle are on one tile and have one number. -/
theorem siteNumber_inj {x y n x' y' n' : Nat} (hr : InRange x y) (hr' : InRange x' y')
    (hn : n < siteCount) (hn' : n' < siteCount) (h : siteNumber x y n = siteNumber x' y' n') :
    x = x' ∧ y = y' ∧ n = n' := by
  obtain ⟨hpos, hz⟩ := BelId.mk.inj h
  obtain ⟨hx, hy⟩ := Pos.pack_inj hr hr' hpos
  have hnumber := congrArg UInt16.toNat hz
  rw [UInt16.toNat_ofNat_of_lt' hn, UInt16.toNat_ofNat_of_lt' hn'] at hnumber
  exact ⟨hx, hy, hnumber⟩

/-- The LABs of a chip are at different positions. -/
theorem Chip.nodup_labPositions {c : Chip} (hc : c.Fits) :
    ((c.labsOf c.tiles).map Lab.pos).Nodup := by
  have hblock (t : Nat × Nat) :
      (((c.blockAt t.1 t.2).map (blockLabs t.1 t.2)).getD []).map Lab.pos =
      if c.blockAt t.1 t.2 = some .lab then [Pos.pack t.1 t.2] else [] := by
    rcases c.blockAt t.1 t.2 with _ | _ | _ | _ <;> rfl
  rw [labsOf, List.map_flatMap]
  simp only [hblock]
  rw [List.nodup_flatMap]
  constructor
  · intro t _
    split <;> simp
  · refine c.nodup_tiles.pairwise_of_forall_ne fun t ht t' ht' hne => ?_
    rw [Function.onFun_apply, List.disjoint_left]
    intro pos hpos hpos'
    split at hpos
    · split at hpos'
      · have heq : Pos.pack t.1 t.2 = Pos.pack t'.1 t'.2 :=
          (List.mem_singleton.mp hpos).symm.trans (List.mem_singleton.mp hpos')
        obtain ⟨hx, hy⟩ := Pos.pack_inj (hc.inRange ht) (hc.inRange ht') heq
        exact hne (Prod.ext hx hy)
      · cases hpos'
    · cases hpos

namespace Device

/-- A state of a built device: a consistent model on its hardware. -/
structure IsState (d : Device) : Prop where
  built : ∃ selection d₀, ofSelection selection = .ok d₀ ∧ d.hardware = d₀.hardware
  consistent : d.Consistent

/-- What evolves from a state of the device is one. -/
theorem Evolves.isState {d d' : Device} (h : d.Evolves d') (hd : d.IsState) : d'.IsState := by
  refine ⟨?_, h.consistent hd.consistent⟩
  obtain ⟨selection, d₀, hbuilt, hd₀⟩ := hd.built
  exact ⟨selection, d₀, hbuilt, h.hardware.trans hd₀⟩

end Device

/-- Every model reached from a built device is a state of it. -/
theorem Reachable.isState {selection : Selection} {d₀ d : Device}
    (hbuilt : Device.ofSelection selection = .ok d₀) (h : Reachable d₀ d) : d.IsState :=
  ⟨⟨selection, d₀, hbuilt, h.hardware⟩, h.consistent hbuilt⟩

namespace Device

/-! ### Sites -/

/-- The LUT sites of an ALM by number. -/
theorem HasLab.lutSites_get {d : Device} {info : Lab} {x y z : Nat} (h : d.HasLab info x y)
    {a : Alm} (ha : info.alms[z]? = some a) (half : Half) :
    a.lutSites.get half = siteNumber x y (6 * z + half.index) := by
  obtain ⟨-, heq⟩ := h.getElem?_alms ha
  have hsites : a.lutSites = (labAlm x y z).lutSites := by rw [← heq]
  rw [hsites]
  cases half <;> rfl

/-- The flip-flop sites of an ALM by number. -/
theorem HasLab.ffSites_flop {d : Device} {info : Lab} {x y z : Nat} (h : d.HasLab info x y)
    {a : Alm} (ha : info.alms[z]? = some a) (half : Half) (second : Bool) :
    a.ffSites.flop half second = siteNumber x y (6 * z + 2 + (2 * half.index + second.toNat)) := by
  obtain ⟨-, heq⟩ := h.getElem?_alms ha
  have hsites : a.ffSites = (labAlm x y z).ffSites := by rw [← heq]
  rw [hsites]
  cases half <;> cases second <;> rfl

namespace IsState

variable {d : Device} {lab lab' z z' : Nat} {a a' : Alm} {info info' : Lab}

/-- The LABs of a state stand where they were built. -/
theorem exists_hasLab (hd : d.IsState) (hlab : d.labs[lab]? = some info) :
    ∃ x y, d.HasLab info x y := by
  obtain ⟨selection, d₀, hbuilt, hd₀⟩ := hd.built
  exact Device.exists_hasLab hbuilt hd₀ hlab

/-- Each LAB has its ten ALMs. -/
theorem exists_alm (hd : d.IsState) (hlab : lab < d.labs.size) (hz : z < Chip.almsPerLab) :
    ∃ a, d.alm? lab z = some a := by
  have hinfo : d.labs[lab]? = some d.labs[lab] := Array.getElem?_eq_getElem hlab
  obtain ⟨x, y, h⟩ := hd.exists_hasLab hinfo
  obtain ⟨a, ha⟩ := h.exists_alm hz
  exact ⟨a, by rw [alm?, hinfo, Option.bind_some, ha]⟩

/-- Different LABs are on different tiles. -/
theorem lab_inj (hd : d.IsState) (hlab : d.labs[lab]? = some info)
    (hlab' : d.labs[lab']? = some info') (hpos : info.pos = info'.pos) : lab = lab' := by
  obtain ⟨selection, d₀, hbuilt, hd₀⟩ := hd.built
  obtain ⟨c, hc, hbuilt⟩ := isBuilt_of_ofSelection hbuilt
  have hpositions : d.labs.map Lab.pos = d₀.labs.map Lab.pos := by
    have hbare (d : Device) : d.labs.map Lab.pos = (d.labs.map Lab.bare).map Lab.pos := by
      rw [Array.map_map]
      rfl
    rw [hbare, hbare,
      show d.labs.map Lab.bare = d₀.labs.map Lab.bare from congrArg Hardware.labs hd₀]
  have hnodup : (d.labs.map Lab.pos).toList.Nodup := by
    rw [hpositions, Array.toList_map, hbuilt.labs]
    exact Chip.nodup_labPositions hc
  have hget {i : Nat} {l : Lab} (hl : d.labs[i]? = some l) :
      (d.labs.map Lab.pos).toList[i]? = some l.pos := by
    rw [Array.getElem?_toList, Array.getElem?_map, hl, Option.map_some]
  have hlt := (List.getElem?_eq_some_iff.mp (hget hlab)).1
  exact (List.getElem?_inj hlt hnodup).mp ((hget hlab).trans (hpos ▸ (hget hlab').symm))

/-- LABs on one tile are one LAB. -/
theorem lab_inj_of_hasLab (hd : d.IsState) {x y : Nat} (hlab : d.labs[lab]? = some info)
    (hlab' : d.labs[lab']? = some info') (h : d.HasLab info x y) (h' : d.HasLab info' x y) :
    lab = lab' :=
  hd.lab_inj hlab hlab' (h.pos.trans h'.pos.symm)

/-- A site of an ALM, of which there are six, belongs to that ALM. -/
theorem almSite_inj (hd : d.IsState) {x y x' y' k k' : Nat} (hlab : d.labs[lab]? = some info)
    (hlab' : d.labs[lab']? = some info') (h : d.HasLab info x y) (h' : d.HasLab info' x' y')
    (ha : info.alms[z]? = some a) (ha' : info'.alms[z']? = some a') (hk : k < 6) (hk' : k' < 6)
    (heq : siteNumber x y (6 * z + k) = siteNumber x' y' (6 * z' + k')) :
    lab = lab' ∧ z = z' ∧ k = k' := by
  have hz : z < 10 := (h.getElem?_alms ha).1
  have hz' : z' < 10 := (h'.getElem?_alms ha').1
  have hcount : 60 ≤ siteCount := by decide
  obtain ⟨rfl, rfl, hnumber⟩ :=
    siteNumber_inj h.toInRange h'.toInRange (by omega) (by omega) heq
  exact ⟨hd.lab_inj_of_hasLab hlab hlab' h h', by omega, by omega⟩

/-- A LUT site belongs to one half of one ALM. -/
theorem lutSite_inj (hd : d.IsState) (ha : d.alm? lab z = some a) (ha' : d.alm? lab' z' = some a')
    {half half' : Half} (h : a.lutSites.get half = a'.lutSites.get half') :
    lab = lab' ∧ z = z' ∧ half = half' := by
  obtain ⟨info, hlab, hz⟩ := Option.bind_eq_some_iff.mp ha
  obtain ⟨info', hlab', hz'⟩ := Option.bind_eq_some_iff.mp ha'
  obtain ⟨x, y, hhas⟩ := hd.exists_hasLab hlab
  obtain ⟨x', y', hhas'⟩ := hd.exists_hasLab hlab'
  have hindex (half : Half) : half.index < 6 := by cases half <;> decide
  rw [hhas.lutSites_get hz, hhas'.lutSites_get hz'] at h
  obtain ⟨rfl, rfl, hnumber⟩ :=
    hd.almSite_inj hlab hlab' hhas hhas' hz hz' (hindex half) (hindex half') h
  refine ⟨rfl, rfl, ?_⟩
  cases half <;> cases half' <;> first | rfl | cases hnumber

/-- The number of a flip-flop site in its ALM, behind the LUT sites. -/
theorem flopSite_number (hd : d.IsState) (ha : d.alm? lab z = some a) : ∃ info x y,
    d.labs[lab]? = some info ∧ info.alms[z]? = some a ∧ d.HasLab info x y ∧ ∀ half second,
      a.ffSites.flop half second = siteNumber x y (6 * z + (2 + 2 * half.index + second.toNat)) ∧
      2 + 2 * half.index + second.toNat < 6 := by
  obtain ⟨info, hlab, hz⟩ := Option.bind_eq_some_iff.mp ha
  obtain ⟨x, y, h⟩ := hd.exists_hasLab hlab
  refine ⟨info, x, y, hlab, hz, h, fun half second => ⟨?_, ?_⟩⟩
  · rw [h.ffSites_flop hz]
    congr 1
    omega
  · cases half <;> cases second <;> decide

/-- A flip-flop site is one of one half of one ALM. -/
theorem flopSite_inj (hd : d.IsState) (ha : d.alm? lab z = some a) (ha' : d.alm? lab' z' = some a')
    {half half' : Half} {second second' : Bool}
    (h : a.ffSites.flop half second = a'.ffSites.flop half' second') :
    lab = lab' ∧ z = z' ∧ half = half' ∧ second = second' := by
  obtain ⟨info, x, y, hlab, hz, hhas, hsite⟩ := hd.flopSite_number ha
  obtain ⟨info', x', y', hlab', hz', hhas', hsite'⟩ := hd.flopSite_number ha'
  rw [(hsite half second).1, (hsite' half' second').1] at h
  obtain ⟨rfl, rfl, hnumber⟩ := hd.almSite_inj hlab hlab' hhas hhas' hz hz' (hsite half second).2
    (hsite' half' second').2 h
  refine ⟨rfl, rfl, ?_⟩
  cases half <;> cases half' <;> cases second <;> cases second' <;>
    first | exact ⟨rfl, rfl⟩ | cases hnumber

/-- A flip-flop site is no LUT site. -/
theorem flopSite_ne_lutSite (hd : d.IsState) (ha : d.alm? lab z = some a)
    (ha' : d.alm? lab' z' = some a') (half half' : Half) (second : Bool) :
    a.ffSites.flop half second ≠ a'.lutSites.get half' := by
  obtain ⟨info, x, y, hlab, hz, hhas, hsite⟩ := hd.flopSite_number ha
  obtain ⟨info', hlab', hz'⟩ := Option.bind_eq_some_iff.mp ha'
  obtain ⟨x', y', hhas'⟩ := hd.exists_hasLab hlab'
  have hindex : half'.index < 2 := by cases half' <;> decide
  rw [(hsite half second).1, hhas'.lutSites_get hz']
  intro heq
  obtain ⟨-, -, hnumber⟩ := hd.almSite_inj hlab hlab' hhas hhas' hz hz' (hsite half second).2
    (by omega) heq
  omega

/-! ### Wires -/

/-- A wire that a LAB made belongs to that LAB. -/
theorem node_inj (hd : d.IsState) (hlab : d.labs[lab]? = some info)
    (hlab' : d.labs[lab']? = some info') {x y x' y' n n' : Nat} (h : d.HasLab info x y)
    (h' : d.HasLab info' x' y') (hn : n < 190) (hn' : n' < 190)
    (heq : syntheticNode x y n = syntheticNode x' y' n') : lab = lab' ∧ n = n' := by
  have hle : 190 ≤ syntheticCount := by decide
  obtain ⟨rfl, rfl, rfl⟩ :=
    syntheticNode_inj h.x_lt h.y_lt (by omega) h'.x_lt h'.y_lt (by omega) heq
  exact ⟨hd.lab_inj_of_hasLab hlab hlab' h h', rfl⟩

end IsState

/-- A control wire of a LAB by number: a shared wire, or a selector of an ALM. -/
theorem HasLab.exists_number_of_mem_controlWires {d : Device} {info : Lab} {x y : Nat}
    (h : d.HasLab info x y) {w : Wire} (hw : w ∈ info.controlWires) :
    ∃ n < 190, w = syntheticNode x y n ∧ (n < 10 ∨ (n - 10) % 18 ∈ [2, 3, 4, 6, 7, 8]) := by
  rcases h.mem_controlWires.mp hw with ⟨kind, hshared⟩ | ⟨z, hz, kind, hk, half, rfl⟩
  · obtain ⟨slot, hslot, rfl⟩ := h.mem_shared hshared
    have hle := kind.firstShared_add_limit_le
    exact ⟨kind.firstShared + slot, by omega, rfl, .inl (by omega)⟩
  · have hz : z < 10 := hz
    have hlt := selectorNumber_lt hk half
    refine ⟨10 + 18 * z + selectorNumber half kind, by omega, rfl, .inr ?_⟩
    rw [show (10 + 18 * z + selectorNumber half kind - 10) % 18 = selectorNumber half kind by omega]
    simp only [ControlKind.selected, List.mem_cons, List.not_mem_nil, or_false] at hk
    rcases hk with rfl | rfl | rfl <;> cases half <;> decide

/-- A control wire has one LAB. -/
theorem IsState.controlWire_inj {d : Device} (hd : d.IsState) {lab lab' : Nat} {info info' : Lab}
    (hlab : d.labs[lab]? = some info) (hlab' : d.labs[lab']? = some info') {w : Wire}
    (hw : w ∈ info.controlWires) (hw' : w ∈ info'.controlWires) : lab = lab' := by
  obtain ⟨x, y, h⟩ := hd.exists_hasLab hlab
  obtain ⟨x', y', h'⟩ := hd.exists_hasLab hlab'
  obtain ⟨n, hn, rfl, -⟩ := h.exists_number_of_mem_controlWires hw
  obtain ⟨n', hn', heq, -⟩ := h'.exists_number_of_mem_controlWires hw'
  exact (hd.node_inj hlab hlab' h h' hn hn' heq).1

/-- The wires of an ALM that a plan drives, by number. -/
theorem HasLab.inputWires_eq {d : Device} {info : Lab} {x y z : Nat} (h : d.HasLab info x y)
    {a : Alm} (ha : info.alms[z]? = some a) :
    a.inputWires = [5, 9, 10, 12, 14, 16].map (almNode x y z) := by
  obtain ⟨-, heq⟩ := h.getElem?_alms ha
  have hsame : a.inputWires = (labAlm x y z).inputWires := by
    rw [← heq]
    rfl
  rw [hsame]
  rfl

/-- The input wires of an ALM are the six of its wires with these numbers. -/
theorem HasLab.mem_inputWires {d : Device} {info : Lab} {x y z : Nat} (h : d.HasLab info x y)
    {a : Alm} (ha : info.alms[z]? = some a) {w : Wire} :
    w ∈ a.inputWires ↔ ∃ k ∈ [5, 9, 10, 12, 14, 16], w = almNode x y z k := by
  rw [h.inputWires_eq ha, List.mem_map]
  simp only [eq_comm]

/-- The wires of an ALM that a plan drives are different. -/
theorem HasLab.nodup_inputWires {d : Device} {info : Lab} {x y z : Nat} (h : d.HasLab info x y)
    {a : Alm} (ha : info.alms[z]? = some a) : a.inputWires.Nodup := by
  have hz : z < 10 := (h.getElem?_alms ha).1
  have hbound : ∀ k ∈ [5, 9, 10, 12, 14, 16], k < 18 := by decide
  rw [h.inputWires_eq ha]
  refine List.Nodup.map_on (fun k hk k' hk' heq => ?_) (by decide)
  have hlt := hbound k hk
  have hlt' := hbound k' hk'
  have hnumber := h.node_inj (by omega) (by omega) heq
  omega

/-! ### The drivers that a plan leaves -/

/-- A plan drives the E/F selectors and the data inputs, each once. -/
theorem map_fst_plannedDrivers (x y z : Nat) (a : Alm) (plan : InputPlan) :
    (plannedDrivers x y z a plan).map Prod.fst = a.inputWires :=
  rfl

namespace HasLab

variable {d : Device} {info : Lab} {x y z : Nat} {a : Alm} {plan : InputPlan}

/-- The wires that a plan drives have the drivers that it gives them: as they are different, none is
overwritten. -/
theorem driver_of_mem (h : d.HasLab info x y) (ha : info.alms[z]? = some a) {w : Wire}
    {new : Option Wire} (hmem : (w, new) ∈ plannedDrivers x y z a plan)
    (driver : Wire → Option Wire) :
    redriven (plannedDrivers x y z a plan) driver w = new := by
  refine redriven_of_mem ?_ hmem driver
  rw [map_fst_plannedDrivers]
  exact h.nodup_inputWires ha

/-- An E/F selector has the wire of its planned pin. -/
theorem driver_efSelector (h : d.HasLab info x y) (ha : info.alms[z]? = some a)
    (driver : Wire → Option Wire) (half : Half) :
    redriven (plannedDrivers x y z a plan) driver (a.efSelector.get half) =
      (plan.efPins.get half).map (almInput x y z) := by
  refine h.driver_of_mem ha ?_ driver
  cases half <;> simp [plannedDrivers, Half.all]

/-- The data input of a flip-flop has its planned source. -/
theorem driver_ffIn (h : d.HasLab info x y) (ha : info.alms[z]? = some a)
    (driver : Wire → Option Wire) (half : Half) (second : Bool) :
    redriven (plannedDrivers x y z a plan) driver (a.ffIn.flop half second) =
      (plan.flopSource.flop half second).driver (a.combOut.get half) (a.efSelector.get half) := by
  refine h.driver_of_mem ha ?_ driver
  cases half <;> cases second <;> simp [plannedDrivers, Half.all, Flops.flop]

end HasLab

namespace IsState

variable {d : Device} {lab lab' z z' : Nat} {info info' : Lab} {a a' : Alm} {w : Wire}

/-- The wires that a plan drives are control wires of no LAB. -/
theorem notMem_controlWires_of_mem_inputWires (hd : d.IsState) (ha : d.alm? lab z = some a)
    (hw : w ∈ a.inputWires) (hlab' : d.labs[lab']? = some info') : w ∉ info'.controlWires := by
  intro hcontrol
  obtain ⟨info, hlab, hz⟩ := Option.bind_eq_some_iff.mp ha
  obtain ⟨x, y, h⟩ := hd.exists_hasLab hlab
  obtain ⟨k, hk, rfl⟩ := (h.mem_inputWires hz).mp hw
  obtain ⟨x', y', h'⟩ := hd.exists_hasLab hlab'
  obtain ⟨n, hn, heq, hnumber⟩ := h'.exists_number_of_mem_controlWires hcontrol
  have hlt : z < 10 := (h.getElem?_alms hz).1
  have hk18 : k < 18 ∧ k ∉ [2, 3, 4, 6, 7, 8] := by
    simp only [List.mem_cons, List.not_mem_nil, or_false] at hk
    rcases hk with rfl | rfl | rfl | rfl | rfl | rfl <;> decide
  obtain ⟨-, rfl⟩ := hd.node_inj hlab hlab' h h' (by omega) hn heq
  rw [show (10 + 18 * z + k - 10) % 18 = k by omega] at hnumber
  rcases hnumber with hlt | hmem
  · omega
  · exact hk18.2 hmem

/-- A wire that a plan drives has one ALM. -/
theorem inputWire_inj (hd : d.IsState) (ha : d.alm? lab z = some a) (ha' : d.alm? lab' z' = some a')
    (hw : w ∈ a.inputWires) (hw' : w ∈ a'.inputWires) : lab = lab' ∧ z = z' := by
  obtain ⟨info, hlab, hz⟩ := Option.bind_eq_some_iff.mp ha
  obtain ⟨info', hlab', hz'⟩ := Option.bind_eq_some_iff.mp ha'
  obtain ⟨x, y, h⟩ := hd.exists_hasLab hlab
  obtain ⟨x', y', h'⟩ := hd.exists_hasLab hlab'
  obtain ⟨k, hk, rfl⟩ := (h.mem_inputWires hz).mp hw
  obtain ⟨k', hk', heq⟩ := (h'.mem_inputWires hz').mp hw'
  have hlt : z < 10 := (h.getElem?_alms hz).1
  have hlt' : z' < 10 := (h'.getElem?_alms hz').1
  have hbound : ∀ k ∈ [5, 9, 10, 12, 14, 16], k < 18 := by decide
  have hk := hbound k hk
  have hk' := hbound k' hk'
  obtain ⟨hsame, hnumber⟩ := hd.node_inj hlab hlab' h h' (by omega) (by omega) heq
  exact ⟨hsame, by omega⟩

end IsState

end Device

end Fabric
