import Fabric.Proofs.AlmRoutes
import Fabric.Proofs.TruthTable
import Mathlib.Data.List.Induction

/-!
# The truth table of a planned ALM

The planner picks the pins of a LUT, applying the plan writes their names to the cell, and the
truth table is built from those names. After all three the table of the ALM holds the function of
each of its LUT cells: at the address that the pins spell, it has the bit of the cell's table
that the logical inputs spell.

## Main results

* `exists_lutSource`: a planned input reads its constant or its planned pin;
* `exists_fillsHalf`: after the plan was applied, each half fills its own part of the table;
* `lutMask_planned`: the truth table of an ALM whose plan was applied.
-/

namespace Fabric

/-! ### Pins of a planned cell -/

namespace Edit

/-- A plan says nothing about the states of the pins. -/
theorem pinState_applyLutPlan (plan : InputPlan) (half : Half) (c : Cell) (port : Ident) :
    (applyLutPlan plan half c).pinState port = c.pinState port :=
  (sameButSitePins_applyLutPlan plan half c).pinState port

/-- A logical input that is a port of its cell gets the site pins of the plan. -/
theorem sitePins_applyLutPlan (plan : InputPlan) (half : Half) {c : Cell} {port : Ident} {k : Nat}
    (hname : lutInputNames[k]? = some port) (hport : c.ports.contains port = true) :
    (applyLutPlan plan half c).sitePins port = plan.sitePins half k := by
  have hnodup : (lutInputNames ++ [Known.q]).Nodup := by decide
  have hmem : (port, k) ∈ lutInputNames.zipIdx := List.mem_zipIdx_iff_getElem?.mpr hname
  rw [applyLutPlan_eq]
  refine Cell.sitePins_putSitePins ?_ (List.mem_append_left _ (List.mem_map_of_mem hmem)) hport
  rwa [map_fst_plannedPins]

/-- A plan leaves the summary of the LUT as it is. -/
theorem lut_applyLutPlan (plan : InputPlan) (half : Half) (c : Cell) :
    (applyLutPlan plan half c).lut = c.lut :=
  (sameButSitePins_applyLutPlan plan half c).lut

end Edit

/-! ### Logical inputs -/

namespace Cell

/-- What logical input `k` of a LUT cell reads when the pins have the given values. A tied input
reads its constant and an open one zero. Any other reads its planned pin, inverted if the cell
inverts it; it reads nothing if the plan gives it no pin. -/
def inputValue? (c : Cell) (plan : InputPlan) (half : Half) (v : AlmPin → Bool) (k : Nat)
    (port : Ident) : Option Bool :=
  match c.pinState port with
  | .tied0 => some false
  | .tied1 => some true
  | state =>
    match (c.lut.inputs[k]?).join with
    | none => some false
    | some _ =>
      (((plan.lutPins.get half)[k]?).join).map fun pin => v pin != decide (state = .inverted)

/-- What the logical inputs of a LUT cell read. -/
def inputValues? (c : Cell) (plan : InputPlan) (half : Half) (v : AlmPin → Bool) :
    Option (List Bool) :=
  (lutInputNames.zipIdx.take c.lut.inputCount).mapM fun (port, k) =>
    c.inputValue? plan half v k port

end Cell

namespace Device

variable {d : Device} {a : Alm} {plan : InputPlan} {half : Half} {id : CellId} {c : Cell}

/-- A live input has a planned pin that drives an address bit, and its site pins
start with that pin. -/
theorem exists_pin_of_live (hplan : InputPlan.ofDemand? (d.almDemand a) = some plan)
    (hid : (d.lutCells a).get half = some id) {k : Nat} {net : NetId}
    (hlive : d.LiveInput id k net) :
    ∃ pin, ((plan.lutPins.get half)[k]?).join = some pin ∧
      (plan.sitePins half k).head? = some pin.ident ∧ (plan.fused = true ∨ pin ∈ half.lutPins) := by
  obtain ⟨nets, hsound⟩ := InputPlan.ofDemand?_sound hplan
  obtain ⟨own, hpin, huses, -⟩ := exists_pins_of_live hsound hid hlive
  obtain ⟨pin, rest, rfl⟩ := List.exists_cons_of_ne_nil huses.ne_nil
  refine ⟨pin, by rw [hpin]; rfl, by rw [InputPlan.sitePins_of_usesPins hpin huses]; rfl, ?_⟩
  cases hfused : plan.fused with
  | true => exact .inl rfl
  | false =>
      rw [InputPlan.UsesPins, hfused, if_neg (by simp)] at huses
      obtain ⟨q, hq, heq⟩ := huses
      obtain ⟨rfl, -⟩ := List.cons.inj heq
      exact .inr hq

/-- In fused mode one half at most holds a LUT cell. -/
theorem half_eq_of_fused (hplan : InputPlan.ofDemand? (d.almDemand a) = some plan)
    (hfused : plan.fused = true) {other : Half} {id' : CellId}
    (hid : (d.lutCells a).get half = some id) (hid' : (d.lutCells a).get other = some id') :
    half = other := by
  obtain ⟨nets, hsound⟩ := InputPlan.ofDemand?_sound hplan
  exact half_eq_of_lutCount_le d a (hsound.alone (hsound.fused ▸ hfused)) hid hid'

/-- A planned input reads its constant or its planned pin. -/
theorem exists_lutSource (hplan : InputPlan.ofDemand? (d.almDemand a) = some plan)
    (hid : (d.lutCells a).get half = some id) (hc : d.netlist.cell? id = some c)
    (hderived : c.Derived)
    {k : Nat} {port : Ident} (hname : lutInputNames[k]? = some port) (hk : k < c.lut.inputCount) :
    ∃ source, (Edit.applyLutPlan plan half c).lutSource? plan.fused half k port = some source ∧
      ∀ v, Joined plan.fused v → (Edit.applyLutPlan plan half c).inputValue? plan half v k port =
        some (source.read (ofBits (addressBits plan.fused half v))) := by
  rw [Cell.lutSource?]
  simp only [Cell.inputValue?, Edit.pinState_applyLutPlan, Edit.lut_applyLutPlan]
  have hlive (net : NetId) (hnet : (c.lut.inputs[k]?).join = some net)
      (hstate : c.pinState port = .signal ∨ c.pinState port = .inverted) :
        d.LiveInput id k net := by
    refine ⟨?_, ?_, port, hname, ?_⟩
    · rw [Netlist.lutInfo, hc]
      exact hk
    · rw [Netlist.lutInfo, hc]
      exact Option.join_eq_some_iff.mp hnet
    · rw [Netlist.pinState, hc]
      exact hstate
  -- What is left once the constants are read: the input is driven by its net, perhaps inverted.
  have hread (inverted : Bool) (hstate : c.pinState port = .signal ∨ c.pinState port = .inverted) :
      ∃ source, (if (c.lut.inputs[k]?).join.isNone then some (LutSource.const false)
          else ((((Edit.applyLutPlan plan half c).sitePins port).head?.bind AlmPin.ofIdent?).bind
            (addressBit? plan.fused half)).map fun bit => .address bit inverted) = some source ∧
        ∀ v, Joined plan.fused v →
          (match (c.lut.inputs[k]?).join with
            | none => some false
            | some _ => (((plan.lutPins.get half)[k]?).join).map fun pin => v pin != inverted) =
          some (source.read (ofBits (addressBits plan.fused half v))) := by
    cases hnet : (c.lut.inputs[k]?).join with
    | none => exact ⟨.const false, rfl, fun v _ => rfl⟩
    | some net =>
        obtain ⟨pin, hpin, hsite, hreads⟩ := exists_pin_of_live hplan hid (hlive net hnet hstate)
        obtain ⟨bit, hbit, haddress⟩ := exists_addressBit hreads
        have hport := hderived k net port (Option.join_eq_some_iff.mp hnet) hname
        rw [Edit.sitePins_applyLutPlan plan half hname hport, hsite, Option.bind_some,
          AlmPin.ofIdent?_ident, Option.bind_some, hbit, hpin]
        refine ⟨.address bit inverted, rfl, fun v hv => ?_⟩
        rw [LutSource.read, haddress v hv]
        rfl
  cases hstate : c.pinState port with
  | tied0 => exact ⟨.const false, rfl, fun v _ => rfl⟩
  | tied1 => exact ⟨.const true, rfl, fun v _ => rfl⟩
  | signal => exact hread false (.inl hstate)
  | inverted => exact hread true (.inr hstate)

/-- A planned LUT cell fills its half of the truth table with its own function. -/
theorem exists_halfMask (hplan : InputPlan.ofDemand? (d.almDemand a) = some plan)
    (hid : (d.lutCells a).get half = some id) (hc : d.netlist.cell? id = some c)
    (hderived : c.Derived) :
    ∃ sources, (Edit.applyLutPlan plan half c).lutSources? plan.fused half = some sources ∧
      ∀ v, Joined plan.fused v → ∃ values,
        (Edit.applyLutPlan plan half c).inputValues? plan half v = some values ∧
        tableBit c.lut.table sources (ofBits (addressBits plan.fused half v)) =
          c.lut.table.testBit (ofBits values) := by
  have hinput : ∀ entry ∈ lutInputNames.zipIdx.take c.lut.inputCount,
      lutInputNames[entry.2]? = some entry.1 ∧ entry.2 < c.lut.inputCount :=
    fun _ hmem => getElem?_of_mem_logicalInputs hmem
  have hsource (entry : Ident × Nat) (hmem : entry ∈ lutInputNames.zipIdx.take c.lut.inputCount) :=
    exists_lutSource hplan hid hc hderived (hinput entry hmem).1 (hinput entry hmem).2
  obtain ⟨sources, hsources, hread⟩ := exists_sources fun entry hmem =>
    (hsource entry hmem).imp fun _ h => h.1
  rw [Cell.lutSources?, Edit.lut_applyLutPlan]
  refine ⟨sources, hsources,
    fun v hv => ⟨sources.map (·.read (ofBits (addressBits plan.fused half v))), ?_, rfl⟩⟩
  rw [Cell.inputValues?, Edit.lut_applyLutPlan]
  refine hread _ _ fun entry hmem source hentry => ?_
  obtain ⟨source', hsource', hvalue⟩ := hsource entry hmem
  obtain rfl := Option.some.inj (hentry.symm.trans hsource')
  exact hvalue v hv

end Device

/-! ### The whole table -/

namespace Device

/-- The LUT sites of an ALM hold different cells. -/
theorem Placed.half_eq {d : Device} (hd : d.Placed) {a : Alm}
    (hsites : a.lutSites.top ≠ a.lutSites.bottom) {half other : Half} {id : CellId}
    (hid : (d.lutCells a).get half = some id) (hid' : (d.lutCells a).get other = some id) :
    half = other := by
  rw [lutCells, Halves.get_map, hd] at hid hid'
  have heq := Option.some.inj (hid.symm.trans hid')
  cases half <;> cases other
  · rfl
  · exact absurd heq hsites
  · exact absurd heq.symm hsites
  · rfl

/-- A cell stands in one half only. -/
theorem Consistent.half_eq {d : Device} (hd : d.Consistent) {a : Alm}
    (hsites : a.lutSites.top ≠ a.lutSites.bottom) {half other : Half} {id : CellId}
    (hid : (d.lutCells a).get half = some id) (hid' : (d.lutCells a).get other = some id) :
    half = other :=
  Placed.half_eq hd.placed hsites hid hid'

/-- The cell on a LUT site of a consistent model exists. -/
theorem Consistent.exists_cell {d : Device} (hd : d.Consistent) {a : Alm} {half : Half}
    {id : CellId} (hid : (d.lutCells a).get half = some id) : ∃ c, d.netlist.cell? id = some c := by
  rw [lutCells, Halves.get_map, hd.placed] at hid
  obtain ⟨c, hc, -⟩ := Option.bind_eq_some_iff.mp hid
  exact ⟨c, hc⟩

/-- The part of the truth table that belongs to a half: none of it is set if there is no LUT cell
in the half, and else it holds the function of the cell. -/
def FillsHalf (d : Device) (a : Alm) (plan : InputPlan) (half : Half) (mask : Nat) : Prop :=
  match (d.lutCells a).get half with
  | none => mask = 0
  | some id => ∃ c sources, d.netlist.cell? id = some c ∧
      mask = Fabric.lutMask plan.fused half c.lut.table sources ∧
      ∀ v, Joined plan.fused v → ∃ values, c.inputValues? plan half v = some values ∧
        tableBit c.lut.table sources (ofBits (addressBits plan.fused half v)) =
          c.lut.table.testBit (ofBits values)

/-- The part of a half lies within the addresses of the half. -/
theorem FillsHalf.testBit_eq_false {d : Device} {a : Alm} {plan : InputPlan} {half : Half}
    {mask i : Nat} (h : d.FillsHalf a plan half mask)
    (hi : ¬ (addressBase plan.fused half ≤ i ∧
      i < addressBase plan.fused half + addressCount plan.fused)) :
    mask.testBit i = false := by
  rw [FillsHalf] at h
  split at h
  · rw [h, Nat.zero_testBit]
  · obtain ⟨c, sources, -, rfl, -⟩ := h
    rw [testBit_lutMask, decide_eq_false hi, Bool.false_and]

/-- A half without a LUT has an empty mask. -/
theorem FillsHalf.eq_zero {d : Device} {a : Alm} {plan : InputPlan} {half : Half} {mask : Nat}
    (h : d.FillsHalf a plan half mask) (hnone : (d.lutCells a).get half = none) : mask = 0 := by
  rw [FillsHalf] at h
  rwa [hnone] at h

/-- At the address that the pins spell, the part of a half has the bit of the cell's table that
the inputs of the cell spell. -/
theorem FillsHalf.testBit_maskAddress {d : Device} {a : Alm} {plan : InputPlan} {half : Half}
    {mask : Nat} (h : d.FillsHalf a plan half mask) {id : CellId}
    (hid : (d.lutCells a).get half = some id) : ∃ c, d.netlist.cell? id = some c ∧
      ∀ v, Joined plan.fused v → ∃ values, c.inputValues? plan half v = some values ∧
        mask.testBit (maskAddress plan.fused half v) = c.lut.table.testBit (ofBits values) := by
  rw [FillsHalf, hid] at h
  obtain ⟨c, sources, hc, rfl, hvalues⟩ := h
  refine ⟨c, hc, fun v hv => ?_⟩
  obtain ⟨values, hvalue, hbit⟩ := hvalues v hv
  refine ⟨values, hvalue, ?_⟩
  rw [testBit_lutMask, decide_eq_true ⟨le_maskAddress .., maskAddress_lt ..⟩, Bool.true_and,
    maskAddress_eq, Nat.add_sub_cancel_left, hbit]

/-- No half touches the addresses of the other one. In fused mode those are the same addresses,
but then the other half has the ALM for itself. -/
theorem FillsHalf.testBit_of_ne {d : Device} {a : Alm} {plan : InputPlan} {half other : Half}
    {mask i : Nat} (h : d.FillsHalf a plan other mask) (hne : other ≠ half)
    (halone : plan.fused = true → (d.lutCells a).get other = none)
    (hi : addressBase plan.fused half ≤ i)
    (hlt : i < addressBase plan.fused half + addressCount plan.fused) : mask.testBit i = false := by
  cases hfused : plan.fused with
  | true => rw [h.eq_zero (halone hfused), Nat.zero_testBit]
  | false =>
      refine h.testBit_eq_false ?_
      rw [hfused] at hi hlt ⊢
      cases half <;> cases other <;> simp_all [addressBase, addressCount, Half.index]

/-- Applying the plan of an ALM moves no cell onto it or off it. -/
theorem lutCells_planned {d d' : Device} {lab alm : Nat} {plan : InputPlan} {a : Alm}
    (hsame : SameDesign (d.planned lab alm plan (d.lutCells a)) d') :
    d'.lutCells { a with fused := plan.fused } = d.lutCells a := by
  rw [lutCells, hsame.cellAt]
  rfl

/-- After the plan of an ALM was applied, each half fills its part of the truth table. -/
theorem exists_fillsHalf {d d' : Device} {lab alm : Nat} {plan : InputPlan} {a : Alm}
    (hd : d.Consistent) (hsites : a.lutSites.top ≠ a.lutSites.bottom)
    (hplan : InputPlan.ofDemand? (d.almDemand a) = some plan)
    (hsame : SameDesign (d.planned lab alm plan (d.lutCells a)) d') (half : Half) :
    ∃ mask, d'.halfMask? { a with fused := plan.fused } half = some mask ∧
      d'.FillsHalf { a with fused := plan.fused } plan half mask := by
  have hcells := lutCells_planned hsame
  unfold halfMask? FillsHalf
  rw [hcells]
  cases hid : (d.lutCells a).get half with
  | none => exact ⟨0, rfl, rfl⟩
  | some id =>
      obtain ⟨c, hc⟩ := hd.exists_cell hid
      have hplanned : d'.netlist.cell? id = some (Edit.applyLutPlan plan half c) := by
        rw [hsame.netlist, cell?_planned (fun _ _ _ h h' => hd.half_eq hsites h h') hid, hc,
          Option.map_some]
      obtain ⟨sources, hsources, hvalues⟩ := exists_halfMask hplan hid hc (hd.made id c hc).derived
      dsimp only
      rw [Option.bind_some, hplanned]
      dsimp only
      rw [hsources]
      refine ⟨_, rfl, _, sources, rfl, rfl, ?_⟩
      rw [Edit.lut_applyLutPlan]
      exact hvalues

/-- A bit of both parts together is the bit of one part if the other has none there. -/
theorem testBit_or_of_half (mask : Half → Nat) {half : Half} {i : Nat}
    (h : ∀ other, other ≠ half → (mask other).testBit i = false) :
    (mask .top ||| mask .bottom).testBit i = (mask half).testBit i := by
  rw [Nat.testBit_or]
  cases half with
  | top => rw [h .bottom (by simp), Bool.or_false]
  | bottom => rw [h .top (by simp), Bool.false_or]

/-- **The truth table of a planned ALM.** After the plan of an ALM was applied, at the address
that the values of its pins spell the table has the bit of the LUT cell's own table that its
logical inputs spell. Where there is no LUT cell the table is zero. -/
theorem lutMask_planned {selection : Selection} {d₀ d d' : Device} {lab alm : Nat}
    (hbuilt : ofSelection selection = .ok d₀) (hreach : Reachable d₀ d)
    (hrun : (Edit.reassignInputs lab alm).run d = (.ok (), d')) :
    ∃ plan a mask, d.planAlm? lab alm = some plan ∧ d'.alm? lab alm = some a ∧
      a.fused = plan.fused ∧ d'.lutMask lab alm = .ok mask ∧
      (∀ half id, (d'.lutCells a).get half = some id → ∃ c, d'.netlist.cell? id = some c ∧
        ∀ v : AlmPin → Bool, (a.fused = true → v .e0 = v .e1 ∧ v .f0 = v .f1) →
          ∃ values, c.inputValues? plan half v = some values ∧
            mask.testBit (maskAddress a.fused half v) = c.lut.table.testBit (ofBits values)) ∧
      (a.fused = false → ∀ half : Half, (d'.lutCells a).get half = none →
        ∀ i < 32, mask.testBit (32 * half.index + i) = false) ∧
      ((∀ half, (d'.lutCells a).get half = none) → mask = 0) := by
  obtain ⟨plan, info, a, hplan, hinfo, ha, hsame⟩ := Edit.run_reassignInputs_eq_ok hrun
  obtain ⟨x, y, hlab⟩ := exists_hasLab hbuilt hreach.hardware hinfo
  have halm : d.alm? lab alm = some a := by rw [alm?, hinfo, Option.bind_some, ha]
  have hdemand : InputPlan.ofDemand? (d.almDemand a) = some plan := by
    rwa [planAlm?, halm, Option.bind_some] at hplan
  have halm' : d'.alm? lab alm = some { a with fused := plan.fused } := alm?_of_planned halm hsame
  have hcells := lutCells_planned hsame
  choose mask hmask hfills using exists_fillsHalf (hreach.consistent hbuilt)
    (hlab.lutSites_ne ha) hdemand hsame
  refine ⟨plan, _, mask .top ||| mask .bottom, hplan, halm', rfl, ?_, ?_, ?_, ?_⟩
  · rw [lutMask, halm', Option.bind_some, hmask .top, hmask .bottom]
    rfl
  · intro half id hid
    obtain ⟨c, hc, hown⟩ := (hfills half).testBit_maskAddress hid
    refine ⟨c, hc, fun v hv => ?_⟩
    obtain ⟨values, hvalue, hbit⟩ := hown v hv
    refine ⟨values, hvalue, ?_⟩
    have hother (other : Half) (hne : other ≠ half) :
        (mask other).testBit (maskAddress plan.fused half v) = false := by
      refine (hfills other).testBit_of_ne hne (fun hfused => ?_) (le_maskAddress plan.fused half v)
        (maskAddress_lt plan.fused half v)
      rw [hcells] at hid ⊢
      exact Option.eq_none_iff_forall_ne_some.mpr fun id' hid' =>
        hne (half_eq_of_fused hdemand hfused hid' hid)
    exact (testBit_or_of_half mask hother).trans hbit
  · intro hsplit half hnone i hi
    have hsplit : plan.fused = false := hsplit
    have hbase : addressBase plan.fused half = 32 * half.index := by rw [hsplit]; rfl
    have hcount : addressCount plan.fused = 32 := by rw [hsplit]; rfl
    have hother (other : Half) (hne : other ≠ half) :
        (mask other).testBit (32 * half.index + i) = false :=
      (hfills other).testBit_of_ne hne (fun hfused => absurd (hsplit.symm.trans hfused) (by simp))
        (by omega) (by omega)
    rw [testBit_or_of_half mask hother, (hfills half).eq_zero hnone, Nat.zero_testBit]
  · intro hnone
    rw [(hfills .top).eq_zero (hnone .top), (hfills .bottom).eq_zero (hnone .bottom)]
    rfl

/-! ### An inverter -/

/-- An inverter whose input is on the first net. -/
def inverter (name : Ident) (site : Option BelId) (lut : LutInfo) : Cell where
  name := name
  type := Known.notGate
  ports := [(Known.a, ⟨Known.a, .input, some ⟨0⟩⟩)]
  site := site
  lut := lut

/-- The summary of such an inverter. -/
def inverterLut : LutInfo where
  inputCount := 1
  usedInputCount := 1
  tableBits := 2
  inputs := [some ⟨0⟩, none, none, none, none, none]
  table := 1

/-- What an inverter demands of the pins of its ALM, which it has for itself. -/
def inverterDemand : AlmDemand where
  luts := ⟨some ⟨[some ⟨0⟩, none, none, none, none, none], none, false⟩, none⟩
  flops := ⟨(none, none), (none, none)⟩

/-- An inverter can be created and connected. -/
theorem exists_inverter {d : Device} (hd : d.netlist = {}) : ∃ name d', Reachable d d' ∧
    d'.netlist.cells = #[inverter name none {}] ∧ d'.sites = d.sites ∧ d'.chip = d.chip := by
  let cellName := d.interner.intern "inverter"
  let netName := cellName.2.intern "input"
  let nl := ((({} : Netlist).addCell cellName.1 Known.notGate).2.addNet netName.1).2
  obtain ⟨joined, hjoin, hcells⟩ : ∃ joined,
      (nl.addPort ⟨0⟩ Known.a .input).connect ⟨0⟩ Known.a ⟨0⟩ = .ok joined ∧
      joined.cells = #[inverter cellName.1 none {}] := ⟨_, rfl, rfl⟩
  refine ⟨cellName.1, { d with interner := netName.2, netlist := joined }, ?_, hcells, rfl, rfl⟩
  have hreach :=
    ((((Reachable.built : Reachable d d).step (.createCell "inverter" Known.notGate)).step
    (.createNet "input")).step (.addPort ⟨0⟩ Known.a .input)).step (.connect ⟨0⟩ Known.a ⟨0⟩)
  rwa [Operation.apply_createCell, hd, Operation.apply_createNet,
    Operation.apply_addPort (c := ⟨cellName.1, Known.notGate, [], [], [], none, {}, {}⟩) rfl,
    Operation.apply_connect hjoin] at hreach

/-- It can be placed on the smallest grid, whose sites are all free at first. -/
theorem exists_placedInverter {d₀ : Device} (hbuilt : ofSelection (.ofGrid 3 2) = .ok d₀) :
    ∃ name d, Reachable d₀ d ∧
      d.netlist.cells = #[inverter name (some (siteNumber 1 1 0)) inverterLut] := by
  obtain ⟨d₀', hbuilt', hd₀⟩ := exists_ofSelection chip_smallestGrid
  obtain rfl := Except.ok.inj (hbuilt.symm.trans hbuilt')
  have hvacant := vacant_ofSelection hbuilt
  obtain ⟨site, hsite₀⟩ := hd₀.exists_site (Selection.fits_chip chip_smallestGrid)
    (x := 1) (y := 1) (n := 0) (by decide) (by decide)
  obtain ⟨name, d, hreach, hcells, hsites, hchip⟩ := exists_inverter hvacant.netlist
  have hcell : d.netlist.cell? ⟨0⟩ = some (inverter name none {}) := by
    rw [Netlist.cell?, hcells]
    rfl
  have hmoved : (d.moved (siteNumber 1 1 0) ⟨0⟩ none).netlist.cells =
      #[inverter name (some (siteNumber 1 1 0)) {}] := by
    rw [moved, Netlist.modifyCell, hcells]
    rfl
  have hcell' : (d.moved (siteNumber 1 1 0) ⟨0⟩ none).netlist.cell? ⟨0⟩ =
      some (inverter name (some (siteNumber 1 1 0)) {}) := by
    rw [Netlist.cell?, hmoved]
    rfl
  have hsite : d.site? (siteNumber 1 1 0) = some site := by
    rw [site?_eq_of_sites hchip hsites, hsite₀]
  have hrun := Edit.run_placeCell_of_free hsite (hvacant.free hsite₀) hcell
  rw [show (inverter name none {}).site = none from rfl] at hrun
  refine ⟨name, _, hreach.step (.placeCell (siteNumber 1 1 0) ⟨0⟩), ?_⟩
  show ((Edit.placeCell _ _).run d).2.netlist.cells = _
  rw [hrun, Edit.run_deriveCell_of_logic hcell' (n := 1) (by rfl)]
  show (Netlist.modifyCell _ _ _).cells = _
  rw [Netlist.modifyCell, hmoved]
  rfl

section Inverter

variable {d : Device} {name : Ident} {a : Alm}

/-- A consistent model with one cell has it on its site, and nothing elsewhere. -/
theorem Consistent.cellAt_of_single (hd : d.Consistent) {c : Cell} {bel : BelId}
    (hcells : d.netlist.cells = #[c]) (hc : c.site = some bel) (other : BelId) :
    d.cellAt other = if bel = other then some ⟨0⟩ else none := by
  have hsite (id : CellId) : d.netlist.siteOf id = some other ↔ id = ⟨0⟩ ∧ bel = other := by
    obtain ⟨_ | n⟩ := id
    · simp [Netlist.siteOf, Netlist.cell?, hcells, hc]
    · simp [Netlist.siteOf, Netlist.cell?, hcells]
  refine Option.ext fun id => ?_
  rw [hd.placed, hsite]
  split
  · rename_i h
    simp [h, eq_comm]
  · rename_i h
    simp [h]

/-- The demand of the inverter is for its one input. -/
theorem almDemand_inverter (hd : d.Consistent)
    (hcells : d.netlist.cells = #[inverter name (some (siteNumber 1 1 0)) inverterLut])
    (ha : ({ a with fused := false } : Alm) = labAlm 1 1 0) :
    d.lutCells a = ⟨some ⟨0⟩, none⟩ ∧ d.almDemand a = inverterDemand := by
  have hat := hd.cellAt_of_single hcells rfl
  have hluts : d.lutCells a = d.lutCells (labAlm 1 1 0) := by rw [← ha]; rfl
  have hflops : d.flopCells a = d.flopCells (labAlm 1 1 0) := by rw [← ha]; rfl
  have hcell :
      d.netlist.cell? ⟨0⟩ = some (inverter name (some (siteNumber 1 1 0)) inverterLut) := by
    rw [Netlist.cell?, hcells]
    rfl
  have hother : ∀ n ∈ [1, 2, 3, 4, 5], siteNumber 1 1 0 ≠ siteNumber 1 1 n := by decide +kernel
  have hcells : d.lutCells a = ⟨some ⟨0⟩, none⟩ := by
    rw [hluts, lutCells, Halves.map]
    show Halves.mk (d.cellAt (siteNumber 1 1 0)) (d.cellAt (siteNumber 1 1 1)) = _
    rw [hat, hat, if_pos rfl, if_neg (hother 1 (by simp))]
  refine ⟨hcells, ?_⟩
  rw [almDemand, hcells, hflops]
  show AlmDemand.mk ⟨some (d.lutDemand ⟨0⟩), none⟩ ⟨((d.cellAt (siteNumber 1 1 2)).map _,
    (d.cellAt (siteNumber 1 1 3)).map _), ((d.cellAt (siteNumber 1 1 4)).map _,
    (d.cellAt (siteNumber 1 1 5)).map _)⟩ = _
  rw [hat, hat, hat, hat, if_neg (hother 2 (by simp)), if_neg (hother 3 (by simp)),
    if_neg (hother 4 (by simp)), if_neg (hother 5 (by simp)), lutDemand]
  simp only [Netlist.lutInfo, Netlist.pinState, hcell]
  rfl

/-- The input of a planned inverter reads its pin. -/
theorem inputValues?_inverter (name : Ident) {plan : InputPlan} {pin : AlmPin}
    (hpin : ((plan.lutPins.get .top)[0]?).join = some pin) (v : AlmPin → Bool) :
    (Edit.applyLutPlan plan .top (inverter name (some (siteNumber 1 1 0)) inverterLut)).inputValues?
      plan .top v = some [v pin] := by
  have hinputs : lutInputNames.zipIdx.take inverterLut.inputCount = [(Known.a, 0)] := rfl
  have hstate (site : Option BelId) (lut : LutInfo) :
      (inverter name site lut).pinState Known.a = .signal := rfl
  have hvalue : (Edit.applyLutPlan plan .top
      (inverter name (some (siteNumber 1 1 0)) inverterLut)).inputValue? plan .top v 0 Known.a =
      some (v pin) := by
    simp only [Cell.inputValue?, Edit.pinState_applyLutPlan, Edit.lut_applyLutPlan, hstate]
    rw [hpin]
    simp [inverter, inverterLut]
  rw [Cell.inputValues?, Edit.lut_applyLutPlan]
  show List.mapM _ (lutInputNames.zipIdx.take inverterLut.inputCount) = _
  rw [hinputs]
  simp [hvalue]

/-- The mask of an inverter is its function at the pin that was planned for its input. -/
theorem lutMask_planned_inverter : ∃ d₀ d d' pin mask, ofSelection (.ofGrid 3 2) = .ok d₀ ∧
    Reachable d₀ d ∧ (Edit.reassignInputs 0 0).run d = (.ok (), d') ∧ d'.lutMask 0 0 = .ok mask ∧
    ∀ v : AlmPin → Bool, mask.testBit (maskAddress false .top v) = !v pin := by
  obtain ⟨d₀, hbuilt, -⟩ := exists_ofSelection chip_smallestGrid
  obtain ⟨name, d, hreach, hcells⟩ := exists_placedInverter hbuilt
  obtain ⟨info, a, hinfo, hlab, ha, halm⟩ := exists_alm_smallestGrid hbuilt hreach.hardware
  have hd := hreach.consistent hbuilt
  obtain ⟨hluts, hdemand⟩ := almDemand_inverter hd hcells (hlab.getElem?_alms ha).2
  obtain ⟨plan, pin, hofDemand, hfused, hpin⟩ : ∃ plan pin,
      InputPlan.ofDemand? inverterDemand = some plan ∧ plan.fused = false ∧
      ((plan.lutPins.get .top)[0]?).join = some pin := ⟨_, _, rfl, rfl, rfl⟩
  have hplan : d.planAlm? 0 0 = some plan := by
    rw [planAlm?, halm, Option.bind_some, hdemand, hofDemand]
  obtain ⟨d', hrun, hsame, -⟩ := Edit.exists_run_reassignInputs hinfo hlab ha hplan
  obtain ⟨plan', a', mask, hplan', ha', hmode, hmask, hbits, -⟩ :=
    lutMask_planned hbuilt hreach hrun
  obtain rfl := Option.some.inj (hplan.symm.trans hplan')
  obtain rfl := Option.some.inj (ha'.symm.trans (alm?_of_planned halm hsame))
  refine ⟨d₀, d, d', pin, mask, hbuilt, hreach, hrun, hmask, fun v => ?_⟩
  have htop : (d.lutCells a).get .top = some ⟨0⟩ := by rw [hluts]; rfl
  obtain ⟨c, hc, hbit⟩ := hbits .top ⟨0⟩ (by rw [lutCells_planned hsame, htop])
  obtain rfl : c = Edit.applyLutPlan plan .top
      (inverter name (some (siteNumber 1 1 0)) inverterLut) := by
    rw [hsame.netlist, cell?_planned (fun _ _ _ h h' => hd.half_eq (hlab.lutSites_ne ha) h h')
      htop, Netlist.cell?, hcells] at hc
    exact (Option.some.inj hc).symm
  obtain ⟨values, hvalues, hbit⟩ := hbit v (by rw [hmode, hfused]; simp)
  obtain rfl : values = [v pin] := by
    rw [inputValues?_inverter name hpin v] at hvalues
    exact (Option.some.inj hvalues).symm
  rw [hmode, hfused] at hbit
  rw [hbit, Edit.lut_applyLutPlan]
  show Nat.testBit 1 (ofBits [v pin]) = !v pin
  cases v pin <;> decide

end Inverter

end Device

end Fabric
