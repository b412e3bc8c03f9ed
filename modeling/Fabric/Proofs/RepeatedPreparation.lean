import Fabric.Proofs.PreRoute

/-!
# Preparing a device again

A design is prepared for routing, changed and prepared again. What the last preparation leaves of
the control signals of a LAB depends on the design alone: they are assigned anew whatever the LAB
holds. The same is true of the inputs of an ALM that holds a cell. An ALM that holds none is passed
over, so it keeps the mode and the reservations of an earlier preparation.

## Main results

* `control_of_preRoute`: the slots and the drivers of a LAB after a preparation;
* `inputs_of_preRoute`: the mode and the drivers of an ALM after a preparation;
* `preRoute_withDesign`: how far a preparation agrees with that of the same design on a fresh
  device;
* `preRoute_of_removed`: an ALM that was emptied keeps its reservations.
-/

namespace Fabric

namespace Device

/-! ### LABs that differ in what was packed into them -/

/-- The shared wires of a LAB do not depend on what was packed into it. -/
theorem shared_of_bare {info info' : Lab} (hbare : info'.bare = info.bare) :
    info'.shared = info.shared := by
  have hshared : info'.bare.shared = info.bare.shared := congrArg Lab.shared hbare
  exact hshared

namespace Repacked

variable {d d' : Device} {info info' : Lab}

/-- A repacking keeps every pip. -/
theorem uphill (h : d.Repacked d') : d'.wires.uphill? = d.wires.uphill? :=
  congrArg Hardware.uphill h.hardware

/-- The pips of the selectors depend on the bare LAB. -/
theorem selectorPips_bare (d : Device) (info : Lab) (slots : ControlSlots) :
    d.selectorPips info.bare slots = d.selectorPips info slots := by
  rw [selectorPips, selectedSignals_bare, List.filterMap_map, selectorPips]
  rfl

/-- The pips of the selectors are those found before. -/
theorem selectorPips_eq (h : d.Repacked d') (hbare : info'.bare = info.bare)
    (slots : ControlSlots) : d'.selectorPips info' slots = d.selectorPips info slots := by
  rw [← selectorPips_bare, hbare, selectorPips_bare, selectorPips, h.selectedSignals_eq,
    selectorPips]

/-- The routes that an assignment reserves are the same. -/
theorem controlRoutes_eq (h : d.Repacked d') (hbare : info'.bare = info.bare)
    (slots : ControlSlots) :
    d'.selectorPips info' slots ++ d'.sharedPips info' slots =
      d.selectorPips info slots ++ d.sharedPips info slots := by
  have hshared := shared_of_bare hbare
  have hroute : slotRoute? info' = slotRoute? info := by
    funext entry
    rw [slotRoute?, slotWire?, hshared, slotRoute?, slotWire?]
  rw [h.selectorPips_eq hbare, sharedPips, slotDrivers_congr h.net? h.uphill hshared, hroute,
    sharedPips]

end Repacked

/-- The drivers that an assignment of some slots gives to the control wires of a LAB. -/
def controlDrivers (d : Device) (info : Lab) (slots : ControlSlots) : Wire → Option Wire :=
  redriven (drives (d.selectorPips info slots ++ d.sharedPips info slots)) fun _ => none

/-- The drivers of the control wires are those found before. -/
theorem Repacked.controlDrivers_eq {d d' : Device} {info info' : Lab} (h : d.Repacked d')
    (hbare : info'.bare = info.bare) : d'.controlDrivers info' = d.controlDrivers info := by
  funext slots
  rw [controlDrivers, h.controlRoutes_eq hbare, controlDrivers]

/-- After an assignment the control wires have the drivers of its routes alone. -/
theorem Assigned.controlDriver {d d' : Device} {lab : Nat} {info : Lab} {slots : ControlSlots}
    (hassigned : d.Assigned lab info slots d') {w : Wire} (hw : w ∈ info.controlWires) :
    d'.wires.reservedDriver? w = d.controlDrivers info slots w := by
  rw [hassigned.driver]
  exact redriven_congr fun _ => if_pos hw

/-! ### After a preparation -/

variable {d d' : Device} {lab z : Nat} {info : Lab} {a : Alm}

/-- The slots of a LAB and the drivers of its control wires after a preparation are
those of the design. -/
theorem control_of_preRoute (hd : d.IsState) (hlab : d.labs[lab]? = some info)
    (hrun : Edit.preRoute.run d = (.ok (), d')) : ∃ slots, d.controlSlots info = .ok slots ∧
      (d'.labs[lab]?).map Lab.control = some slots ∧
      ∀ w ∈ info.controlWires, d'.wires.reservedDriver? w = d.controlDrivers info slots w := by
  obtain ⟨mid, mid', hbefore, hassign, hafter⟩ :=
    Edit.run_preRoute_assignControlSets (Array.getElem?_eq_some_iff.mp hlab).1 hrun
  have hmid := hbefore.isState hd
  obtain ⟨info', hlab', hbare⟩ := hbefore.exists_lab_after hlab
  obtain ⟨x, y, h⟩ := hmid.exists_hasLab hlab'
  cases hslots : mid.controlSlots info' with
  | error kind =>
      rw [Edit.run_assignControlSets_of_error hlab' hslots] at hassign
      cases hassign
  | ok slots =>
      obtain ⟨mid'', hassign', hassigned⟩ := Edit.exists_assigned hlab' h hslots
      obtain ⟨-, rfl⟩ := Prod.mk.inj (hassign'.symm.trans hassign)
      have hrep := Edit.repacks_assignControlSets lab mid
      rw [hassign] at hrep
      have hmid' := hrep.isState hmid
      refine ⟨slots, ?_, ?_, fun w hw => ?_⟩
      · rw [← hbefore.controlSlots_eq hbare, hslots]
      · rw [hafter.control hmid', hassigned.getElem?_labs hlab', Option.map_some]
      · have hsame : info'.controlWires = info.controlWires := by
          rw [← controlWires_bare, hbare, controlWires_bare]
        rw [← hsame] at hw
        have hof : w ∈ mid''.controlWiresOf lab := by
          rw [hrep.controlWiresOf_eq, controlWiresOf, hlab', Option.map_some, Option.getD_some]
          exact hw
        rw [hafter.driver hmid' w hof, hassigned.controlDriver hw,
          hbefore.toRepacked.controlDrivers_eq hbare]

/-- The inputs of an ALM do not depend on its mode. -/
theorem inputWires_of_bare {a a' : Alm} (hbare : a'.bare = a.bare) :
    a'.inputWires = a.inputWires := by
  have hwires : a'.bare.inputWires = a.bare.inputWires := congrArg Alm.inputWires hbare
  exact hwires

/-- An ALM that holds a cell has the mode and the drivers of its plan after a preparation. One that
holds none is as it was. -/
theorem inputs_of_preRoute (hd : d.IsState) (hlab : d.labs[lab]? = some info) {x y : Nat}
    (h : d.HasLab info x y) (ha : info.alms[z]? = some a)
    (hrun : Edit.preRoute.run d = (.ok (), d')) :
    (Edit.isOccupied d a = true ∧ ∃ plan, d.planAlm? lab z = some plan ∧
      d'.alm? lab z = some { a with fused := plan.fused } ∧
      ∀ w ∈ a.inputWires, d'.wires.reservedDriver? w =
        redriven (plannedDrivers x y z a plan) (fun _ => none) w) ∨
    (Edit.isOccupied d a = false ∧ d'.alm? lab z = some a ∧
      ∀ w ∈ a.inputWires, d'.wires.reservedDriver? w = d.wires.reservedDriver? w) := by
  have halm : d.alm? lab z = some a := by rw [alm?, hlab, Option.bind_some, ha]
  obtain ⟨mid, mid', used, hbefore, hstep, hafter⟩ := Edit.run_preRoute_alm
    (Array.getElem?_eq_some_iff.mp hlab).1 (h.getElem?_alms ha).1 hrun
  have hmid := hbefore.isState hd
  have halm' : mid.alm? lab z = some a := (hbefore.mode hd).trans halm
  have hrep := Edit.keeps_preRouteAlm (Edit.repacks_reassignInputs lab z) mid
  rw [hstep] at hrep
  have hmid' := hrep.isState hmid
  have hoccupied := hbefore.any_isOccupied_eq lab z
  rw [halm', halm, Option.any_some, Option.any_some] at hoccupied
  rcases Edit.run_preRouteAlm_eq_ok hstep with ⟨hused, hplanned⟩ | ⟨hfree, rfl⟩
  · rw [halm', Option.any_some, hoccupied] at hused
    obtain ⟨plan, -, -, hplan, -⟩ := Edit.run_reassignInputs_eq_ok hplanned
    obtain ⟨info', hlab', ha'⟩ := Option.bind_eq_some_iff.mp halm'
    obtain ⟨before, hlab'', hbare⟩ := hbefore.exists_lab hlab'
    obtain rfl := Option.some.inj (hlab.symm.trans hlab'')
    obtain ⟨mid'', hrun', hsame, hdriver⟩ := Edit.exists_run_reassignInputs hlab'
      (h.of_hardware hbefore.hardware hbare.symm) ha' hplan
    obtain ⟨-, rfl⟩ := Prod.mk.inj (hrun'.symm.trans hplanned)
    have hmode := alm?_of_planned halm' hsame
    refine .inl ⟨hused, plan, ?_, ?_, fun w hw => ?_⟩
    · rw [← hbefore.planAlm?_eq, hplan]
    · rw [hafter.mode hmid', hmode]
    · rw [hafter.driver hmid' _ hmode w hw, hdriver]
      exact redriven_congr fun hnone => absurd hw hnone
  · rw [halm', Option.any_some, hoccupied] at hfree
    refine .inr ⟨hfree, ?_, fun w hw => ?_⟩
    · rw [hafter.mode hmid', halm']
    · rw [hafter.driver hmid' a halm' w hw, hbefore.driver hd a halm w hw]

/-! ### A fresh device -/

/-- A device with the cells, the nets and the placement of another one. -/
def withDesign (d₀ d : Device) : Device :=
  { d₀ with netlist := d.netlist, sites := d.sites, interner := d.interner }

variable {selection : Selection} {d₀ d'' : Device}

/-- A design is the same on a fresh device, as far as packing goes. -/
theorem repacked_withDesign (h : d.hardware = d₀.hardware) : d.Repacked (d₀.withDesign d) := by
  have hchip : (d₀.withDesign d).chip = d.chip := congrArg Hardware.chip h.symm
  have hsite : ∀ bel, (d₀.withDesign d).site? bel = d.site? bel := site?_eq_of_sites hchip rfl
  have hcellAt : (d₀.withDesign d).cellAt = d.cellAt := by
    funext bel
    rw [cellAt, hsite, cellAt]
  refine ⟨⟨h.symm, fun bel => by rw [hsite], fun hd bel id => ?_, fun hd => hd, fun hd => hd⟩,
    hcellAt, rfl, rfl, rfl, rfl⟩
  rw [hcellAt]
  exact hd bel id

/-- The LABs of a built device are bare. -/
theorem bare_of_built (hbuilt : ofSelection selection = .ok d₀) {lab : Nat} {info : Lab}
    (hlab : d₀.labs[lab]? = some info) : info.bare = info := by
  obtain ⟨c, hc, hd₀⟩ := isBuilt_of_ofSelection hbuilt
  obtain ⟨x, y, rfl, -⟩ := IsBuilt.hasLab hc hd₀ hlab
  exact bare_labAt x y

/-- An ALM of a built device is bare. -/
theorem alm?_withDesign (hbuilt : ofSelection selection = .ok d₀) (h : d.hardware = d₀.hardware)
    (ha : d.alm? lab z = some a) : (d₀.withDesign d).alm? lab z = some a.bare := by
  obtain ⟨a', ha', hbare⟩ := (repacked_withDesign h).exists_alm ha
  obtain ⟨info, hlab, hz⟩ := Option.bind_eq_some_iff.mp ha'
  have hz' : info.bare.alms[z]? = some a' := by rw [bare_of_built hbuilt hlab, hz]
  rw [Lab.bare, Array.getElem?_map, hz, Option.map_some] at hz'
  rw [ha', ← hbare]
  exact congrArg some (Option.some.inj hz').symm

/-- If a design can be prepared then so can it on a fresh device. -/
theorem exists_run_preRoute_withDesign (hd : d.IsState) (h : d.hardware = d₀.hardware)
    (hrun : Edit.preRoute.run d = (.ok (), d')) :
    ∃ d'', Edit.preRoute.run (d₀.withDesign d) = (.ok (), d'') := by
  have hrep := repacked_withDesign h
  refine Edit.exists_run_preRoute (hrep.isState hd) (fun lab _ => ?_) fun lab hlab alm halm hused =>
    ?_
  · rw [hrep.isLabLegal_eq]
    exact Edit.isLabLegal_of_preRoute hrun lab
  · rw [hrep.size_labs_eq] at hlab
    rw [hrep.any_isOccupied_eq] at hused
    rw [hrep.planAlm?_eq]
    exact Edit.exists_plan_of_preRoute hrun hlab halm hused

/-- The control signals of a LAB after a preparation are those on a fresh device. -/
theorem control_withDesign (hbuilt : ofSelection selection = .ok d₀) (hreach : Reachable d₀ d)
    (hrun : Edit.preRoute.run d = (.ok (), d'))
    (hrun' : Edit.preRoute.run (d₀.withDesign d) = (.ok (), d''))
    (hlab : d.labs[lab]? = some info) :
    (d'.labs[lab]?).map Lab.control = (d''.labs[lab]?).map Lab.control ∧
      ∀ w ∈ info.controlWires, d'.wires.reservedDriver? w = d''.wires.reservedDriver? w := by
  have hd := hreach.isState hbuilt
  have hrep := repacked_withDesign hreach.hardware
  obtain ⟨info', hlab', hbare⟩ := hrep.exists_lab_after hlab
  obtain ⟨slots, hslots, hcontrol, hdriver⟩ := control_of_preRoute hd hlab hrun
  obtain ⟨slots', hslots', hcontrol', hdriver'⟩ :=
    control_of_preRoute (hrep.isState hd) hlab' hrun'
  rw [hrep.controlSlots_eq hbare, hslots] at hslots'
  obtain rfl := Except.ok.inj hslots'
  refine ⟨hcontrol.trans hcontrol'.symm, fun w hw => ?_⟩
  have hw' : w ∈ info'.controlWires := by
    rwa [← controlWires_bare, hbare, controlWires_bare]
  rw [hdriver w hw, hdriver' w hw', hrep.controlDrivers_eq hbare]

/-- The inputs of an ALM after a preparation are those on a fresh device if the ALM holds a cell. If
it holds none then they are as they were, while nothing is reserved on the fresh device. -/
theorem inputs_withDesign (hbuilt : ofSelection selection = .ok d₀) (hreach : Reachable d₀ d)
    (hrun : Edit.preRoute.run d = (.ok (), d'))
    (hrun' : Edit.preRoute.run (d₀.withDesign d) = (.ok (), d'')) (ha : d.alm? lab z = some a) :
    (Edit.isOccupied d a = true → d'.alm? lab z = d''.alm? lab z ∧
      ∀ w ∈ a.inputWires, d'.wires.reservedDriver? w = d''.wires.reservedDriver? w) ∧
    (Edit.isOccupied d a = false → d'.alm? lab z = some a ∧
      d''.alm? lab z = some { a with fused := false } ∧
      ∀ w ∈ a.inputWires, d'.wires.reservedDriver? w = d.wires.reservedDriver? w ∧
        d''.wires.reservedDriver? w = none) := by
  have hd := hreach.isState hbuilt
  have hrep := repacked_withDesign hreach.hardware
  obtain ⟨info, hlab, hz⟩ := Option.bind_eq_some_iff.mp ha
  obtain ⟨x, y, h⟩ := hd.exists_hasLab hlab
  have ha' := alm?_withDesign hbuilt hreach.hardware ha
  obtain ⟨info', hlab', hz'⟩ := Option.bind_eq_some_iff.mp ha'
  obtain ⟨before, hlab'', hbare⟩ := hrep.exists_lab hlab'
  obtain rfl := Option.some.inj (hlab.symm.trans hlab'')
  have hinputs := inputs_of_preRoute hd hlab h hz hrun
  have hinputs' := inputs_of_preRoute (hrep.isState hd) hlab'
    (h.of_hardware hrep.hardware hbare.symm) hz' hrun'
  have hoccupied := hrep.any_isOccupied_eq lab z
  rw [ha', ha, Option.any_some, Option.any_some] at hoccupied
  rw [hoccupied] at hinputs'
  constructor
  · intro hused
    rw [hused] at hinputs hinputs'
    obtain ⟨-, plan, hplan, hmode, hdriver⟩ := hinputs.resolve_right fun hfree => by cases hfree.1
    obtain ⟨-, plan', hplan', hmode', hdriver'⟩ :=
      hinputs'.resolve_right fun hfree => by cases hfree.1
    rw [hrep.planAlm?_eq, hplan] at hplan'
    obtain rfl := Option.some.inj hplan'
    exact ⟨hmode.trans hmode'.symm, fun w hw => (hdriver w hw).trans (hdriver' w hw).symm⟩
  · intro hfree
    rw [hfree] at hinputs hinputs'
    obtain ⟨-, hmode, hdriver⟩ := hinputs.resolve_left fun hused => by cases hused.1
    obtain ⟨-, hmode', hdriver'⟩ := hinputs'.resolve_left fun hused => by cases hused.1
    refine ⟨hmode, hmode', fun w hw => ⟨hdriver w hw, ?_⟩⟩
    rw [hdriver' w hw]
    exact (vacant_ofSelection hbuilt).wires.reservedDriver? w

/-! ### A design that is one flip-flop, or none -/

/-- On a device without placed cells no ALM is occupied. -/
theorem isOccupied_of_empty (hnone : ∀ bel, d.cellAt bel = none) (a : Alm) :
    Edit.isOccupied d a = false := by
  refine Edit.isOccupied_eq_false_iff.mpr ⟨Halves.ext_get fun half => ?_,
    Flops.ext_flop fun half second => ?_⟩
  · rw [lutCells, Halves.get_map, hnone]
    cases half <;> rfl
  · rw [flopCells, Flops.flop_mapFlops, hnone]
    cases half <;> cases second <;> rfl

/-- A device without placed cells can be prepared. -/
theorem exists_run_preRoute_of_empty (hd : d.IsState) (hnone : ∀ bel, d.cellAt bel = none) :
    ∃ d', Edit.preRoute.run d = (.ok (), d') := by
  refine Edit.exists_run_preRoute hd (fun lab hlab => ?_) fun lab hlab alm halm hused => ?_
  · refine isLabLegal_of_labFlipFlops_eq_nil (Array.getElem?_eq_getElem hlab)
      (List.eq_nil_iff_forall_not_mem.mpr ?_)
    rintro ⟨a, half, ff⟩ hmem
    obtain ⟨-, second, id, hid, -⟩ := mem_labFlipFlops.mp hmem
    rw [flopCells, Flops.flop_mapFlops, hnone] at hid
    cases hid
  · obtain ⟨a, ha⟩ := hd.exists_alm hlab halm
    rw [ha, Option.any_some, isOccupied_of_empty hnone] at hused
    cases hused

/-- A flip-flop with a data input, on a net or open. -/
def fed (name : Ident) (data : Option NetId) : Cell where
  name := name
  type := Known.flipFlop
  ports := [(Known.dataIn, ⟨Known.dataIn, .input, data⟩)]

/-- Such a flip-flop can be placed. -/
theorem exists_fed : ∃ d₀ d a name, ofSelection (.ofGrid 3 2) = .ok d₀ ∧ Reachable d₀ d ∧
    d.alm? 0 0 = some a ∧
    d.netlist.cells = #[(fed name (some ⟨0⟩)).placedAt (a.ffSites.flop .top false)] := by
  obtain ⟨d₀, hbuilt, -⟩ := exists_ofSelection chip_smallestGrid
  obtain ⟨-, a, -, -, -, halm₀⟩ := exists_alm_smallestGrid hbuilt rfl
  have hnetlist := (vacant_ofSelection hbuilt).netlist
  obtain ⟨name, d₁, h₁, hnl₁, hlabs₁, -⟩ := Reachable.built.exists_addCell "flop" Known.flipFlop
  obtain ⟨net, d₂, h₂, hnl₂, hlabs₂, -⟩ := h₁.exists_addNet "data"
  rw [hnl₁, hnetlist] at hnl₂
  obtain ⟨d₃, h₃, hnl₃, hlabs₃, -⟩ :=
    h₂.exists_addPort ⟨0⟩ (by rw [hnl₂]; rfl) Known.dataIn .input
  rw [hnl₂] at hnl₃
  obtain ⟨nl, hconnect, hcells⟩ : ∃ nl, d₃.netlist.connect ⟨0⟩ Known.dataIn ⟨0⟩ = .ok nl ∧
      nl.cells = #[fed name (some ⟨0⟩)] := by
    rw [hnl₃]
    exact ⟨_, rfl, rfl⟩
  obtain ⟨d₄, h₄, hnl₄, hlabs₄, -⟩ := h₃.exists_connect ⟨0⟩ Known.dataIn ⟨0⟩ hconnect
  have halm : d₄.alm? 0 0 = some a := by
    rw [alm?, hlabs₄, hlabs₃, hlabs₂, hlabs₁]
    exact halm₀
  have hfree (id : CellId) : d₄.netlist.siteOf id ≠ some (a.ffSites.flop .top false) := by
    rw [Netlist.siteOf, Netlist.cell?, hnl₄, hcells]
    intro hsite
    obtain ⟨_ | n⟩ := id
    · cases hsite
    · cases hsite
  obtain ⟨d, hreach, hlabs, hplaced⟩ := h₄.exists_placed hbuilt halm .top false hfree ⟨0⟩
    (by rw [Netlist.cell?, hnl₄, hcells]; rfl) ⟨rfl, rfl, rfl⟩
  refine ⟨d₀, d, a, name, hbuilt, hreach, by rw [alm?, hlabs]; exact halm, ?_⟩
  rw [hplaced, Netlist.modifyCell, hnl₄, hcells]
  rfl

/-- The plan of an ALM that holds such a flip-flop alone: its data comes in through `E0`. -/
def fedPlan : InputPlan where
  fused := false
  lutPins := ⟨List.replicate 6 none, List.replicate 6 none⟩
  efPins := ⟨some .e0, none⟩
  flopSource := ⟨(.selector, .open), (.open, .open)⟩

section Fed

variable {name : Ident} (hd : d.IsState) (ha : d.alm? 0 0 = some a)
  (hcells : d.netlist.cells = #[(fed name (some ⟨0⟩)).placedAt (a.ffSites.flop .top false)])

include hd ha hcells

/-- No ALM holds a LUT if the design is one flip-flop. -/
theorem lutCells_fed {lab z : Nat} {b : Alm} (hb : d.alm? lab z = some b) :
    d.lutCells b = ⟨none, none⟩ := by
  refine Halves.ext_get fun half => ?_
  rw [lutCells, Halves.get_map, hd.consistent.cellAt_of_single hcells rfl,
    if_neg (hd.flopSite_ne_lutSite ha hb .top half false)]
  cases half <;> rfl

/-- The flip-flops of an ALM if the design is one flip-flop. -/
theorem flopCells_fed {lab z : Nat} {b : Alm} (hb : d.alm? lab z = some b) : d.flopCells b =
    if lab = 0 ∧ z = 0 then ⟨(some ⟨0⟩, none), (none, none)⟩ else ⟨(none, none), (none, none)⟩ := by
  refine Flops.ext_flop fun half second => ?_
  rw [flopCells, Flops.flop_mapFlops, hd.consistent.cellAt_of_single hcells rfl]
  by_cases hsite : a.ffSites.flop .top false = b.ffSites.flop half second
  · obtain ⟨rfl, rfl, rfl, rfl⟩ := hd.flopSite_inj ha hb hsite
    rw [if_pos hsite]
    rfl
  · rw [if_neg hsite]
    split
    · rename_i hplace
      obtain ⟨rfl, rfl⟩ := hplace
      obtain rfl := Option.some.inj (ha.symm.trans hb)
      cases half <;> cases second <;> first | rfl | exact absurd rfl hsite
    · cases half <;> cases second <;> rfl

/-- Only its own ALM is occupied. -/
theorem isOccupied_fed {lab z : Nat} {b : Alm} (hb : d.alm? lab z = some b) :
    Edit.isOccupied d b = true ↔ lab = 0 ∧ z = 0 := by
  rw [Edit.isOccupied, lutCells_fed hd ha hcells hb, flopCells_fed hd ha hcells hb]
  split <;> simp_all [Halves.toList, Flops.toList]

/-- The lone flip-flop has a plan, which routes its data. -/
theorem planAlm?_fed : d.planAlm? 0 0 = some fedPlan := by
  have hinfo : d.netlist.flipFlopInfo ⟨0⟩ = (fed name (some ⟨0⟩)).flipFlopSummary none := by
    rw [Netlist.flipFlopInfo, Netlist.cell?, hcells]
    rfl
  have hdemand : d.almDemand a = ⟨⟨none, none⟩,
      ⟨(some ((fed name (some ⟨0⟩)).flipFlopSummary none), none), (none, none)⟩⟩ := by
    rw [almDemand, lutCells_fed hd ha hcells ha, flopCells_fed hd ha hcells ha, if_pos ⟨rfl, rfl⟩,
      ← hinfo]
    rfl
  rw [planAlm?, ha, Option.bind_some, hdemand]
  rfl

omit hd ha in
/-- One flip-flop without control signals is legal in every LAB. -/
theorem isLabLegal_fed {lab : Nat} (hlab : lab < d.labs.size) : d.isLabLegal lab = true := by
  refine (isLabLegal_iff (Array.getElem?_eq_getElem hlab)).mpr fun kind => ?_
  have hnone : d.demandedKeys d.labs[lab] kind = [] := by
    rw [demandedKeys, List.filter_eq_nil_iff.mpr, List.map_nil]
    intro signal hsignal
    obtain ⟨⟨b, half, ff⟩, hmem, rfl⟩ := List.mem_map.mp hsignal
    obtain ⟨-, second, ⟨n⟩, -, rfl⟩ := mem_labFlipFlops.mp hmem
    rw [Netlist.flipFlopInfo, Netlist.cell?, hcells]
    cases n <;> cases kind <;> exact Bool.false_ne_true
  rw [hnone]
  exact Nat.zero_le _

/-- Such a design can be prepared. -/
theorem exists_run_preRoute_fed : ∃ d', Edit.preRoute.run d = (.ok (), d') := by
  refine Edit.exists_run_preRoute hd (fun lab => isLabLegal_fed hcells) ?_
  intro lab hlab alm halm hused
  obtain ⟨b, hb⟩ := hd.exists_alm hlab halm
  rw [hb, Option.any_some] at hused
  obtain ⟨rfl, rfl⟩ := (isOccupied_fed hd ha hcells hb).mp hused
  rw [planAlm?_fed hd ha hcells]
  rfl

/-- The preparation reserves the E/F selector for the data of the flip-flop. -/
theorem efSelector_of_preRoute_fed (hrun : Edit.preRoute.run d = (.ok (), d')) :
    (d'.wires.reservedDriver? a.efSelector.top).isSome = true := by
  obtain ⟨info, hlab, hz⟩ := Option.bind_eq_some_iff.mp ha
  obtain ⟨x, y, h⟩ := hd.exists_hasLab hlab
  have hused : Edit.isOccupied d a = true := (isOccupied_fed hd ha hcells ha).mpr ⟨rfl, rfl⟩
  rcases inputs_of_preRoute hd hlab h hz hrun with ⟨-, plan, hplan, -, hdriver⟩ | ⟨hfree, -⟩
  · rw [planAlm?_fed hd ha hcells] at hplan
    obtain rfl := Option.some.inj hplan
    have hselector : redriven (plannedDrivers x y 0 a fedPlan) (fun _ => none) a.efSelector.top =
        some (almInput x y 0 .e0) :=
      h.driver_efSelector hz _ .top
    rw [hdriver _ List.mem_cons_self, hselector, Option.isSome_some]
  · rw [hused] at hfree
    cases hfree

end Fed

/-! ### Histories -/

/-- A preparation of a design agrees with that of the same design on a fresh device in the slots of
every LAB, in the drivers of its shared wires and selectors, and in the mode and the input drivers
of every ALM that holds a cell. An ALM that holds none has the mode and the input drivers of before,
while it is in split mode and has none on the fresh device. -/
theorem preRoute_withDesign (hbuilt : ofSelection selection = .ok d₀) (hreach : Reachable d₀ d)
    (hrun : Edit.preRoute.run d = (.ok (), d')) :
    ∃ d'', Edit.preRoute.run (d₀.withDesign d) = (.ok (), d'') ∧
      (∀ (lab : Nat) (info : Lab), d.labs[lab]? = some info →
        (d'.labs[lab]?).map Lab.control = (d''.labs[lab]?).map Lab.control ∧
        ∀ w ∈ info.controlWires, d'.wires.reservedDriver? w = d''.wires.reservedDriver? w) ∧
      ∀ (lab alm : Nat) (a : Alm), d.alm? lab alm = some a →
        (Edit.isOccupied d a = true → d'.alm? lab alm = d''.alm? lab alm ∧
          ∀ w ∈ a.inputWires, d'.wires.reservedDriver? w = d''.wires.reservedDriver? w) ∧
        (Edit.isOccupied d a = false → d'.alm? lab alm = some a ∧
          d''.alm? lab alm = some { a with fused := false } ∧
          ∀ w ∈ a.inputWires, d'.wires.reservedDriver? w = d.wires.reservedDriver? w ∧
            d''.wires.reservedDriver? w = none) := by
  obtain ⟨d'', hrun'⟩ :=
    exists_run_preRoute_withDesign (hreach.isState hbuilt) hreach.hardware hrun
  exact ⟨d'', hrun', fun lab info hlab => control_withDesign hbuilt hreach hrun hrun' hlab,
    fun lab alm a ha => inputs_withDesign hbuilt hreach hrun hrun' ha⟩

/-- A flip-flop that takes its data from outside is prepared in the same way on a fresh device. -/
theorem preRoute_withDesign_fed : ∃ d₀ d d' d'' a src, ofSelection (.ofGrid 3 2) = .ok d₀ ∧
    Reachable d₀ d ∧ Edit.preRoute.run d = (.ok (), d') ∧
    Edit.preRoute.run (d₀.withDesign d) = (.ok (), d'') ∧ d.alm? 0 0 = some a ∧
    Edit.isOccupied d a = true ∧ d'.alm? 0 0 = d''.alm? 0 0 ∧
    d'.wires.reservedDriver? a.efSelector.top = some src ∧
    d''.wires.reservedDriver? a.efSelector.top = some src := by
  obtain ⟨d₀, d, a, name, hbuilt, hreach, ha, hcells⟩ := exists_fed
  have hd := hreach.isState hbuilt
  have hused : Edit.isOccupied d a = true := (isOccupied_fed hd ha hcells ha).mpr ⟨rfl, rfl⟩
  obtain ⟨d', hrun⟩ := exists_run_preRoute_fed hd ha hcells
  obtain ⟨src, hsrc⟩ := Option.isSome_iff_exists.mp (efSelector_of_preRoute_fed hd ha hcells hrun)
  obtain ⟨d'', hrun', -, halms⟩ := preRoute_withDesign hbuilt hreach hrun
  obtain ⟨hmode, hdriver⟩ := (halms 0 0 a ha).1 hused
  have hmem : a.efSelector.top ∈ a.inputWires := List.mem_cons_self
  exact ⟨d₀, d, d', d'', a, src, hbuilt, hreach, hrun, hrun', ha, hused, hmode, hsrc,
    (hdriver _ hmem).symm.trans hsrc⟩

/-- An ALM that was emptied keeps its reservations: after the flip-flop is taken off its site, the
next preparation leaves the E/F selector reserved, while that of the same design on a fresh device
reserves nothing. -/
theorem preRoute_of_removed : ∃ d₀ d d' d'' a, ofSelection (.ofGrid 3 2) = .ok d₀ ∧
    Reachable d₀ d ∧ (∀ bel, d.cellAt bel = none) ∧ Edit.preRoute.run d = (.ok (), d') ∧
    Edit.preRoute.run (d₀.withDesign d) = (.ok (), d'') ∧ d.alm? 0 0 = some a ∧
    (d'.wires.reservedDriver? a.efSelector.top).isSome = true ∧
    d''.wires.reservedDriver? a.efSelector.top = none := by
  obtain ⟨d₀, d₁, a, name, hbuilt, h₁, ha, hcells⟩ := exists_fed
  have hd₁ := h₁.isState hbuilt
  obtain ⟨d₂, hrun₁⟩ := exists_run_preRoute_fed hd₁ ha hcells
  have hsrc := efSelector_of_preRoute_fed hd₁ ha hcells hrun₁
  have hrep := Edit.repacks_preRoute d₁
  rw [hrun₁] at hrep
  have h₂ : Reachable d₀ d₂ := by
    have hstep := h₁.step .preRoute
    rwa [Operation.apply, Operation.edit, hrun₁] at hstep
  have hat (bel : BelId) :
      d₂.cellAt bel = if a.ffSites.flop .top false = bel then some ⟨0⟩ else none := by
    rw [hrep.cellAt]
    exact hd₁.consistent.cellAt_of_single hcells rfl bel
  obtain ⟨d, hreach, hlabs, hwires, hcellAt⟩ := h₂.exists_removed ((hat _).trans (if_pos rfl))
  have hnone (bel : BelId) : d.cellAt bel = none := by
    rw [hcellAt, hat]
    split <;> rfl
  have hd := hreach.isState hbuilt
  obtain ⟨d', hrun⟩ := exists_run_preRoute_of_empty hd hnone
  obtain ⟨d'', hrun'⟩ := exists_run_preRoute_withDesign hd hreach.hardware hrun
  obtain ⟨a', ha', hbare⟩ := hrep.exists_alm ha
  have halm : d.alm? 0 0 = some a' := by rw [alm?, hlabs, ← alm?, ha']
  have hwires' := inputWires_of_bare hbare
  have hselector : a'.efSelector.top = a.efSelector.top := (List.cons.inj hwires').1
  obtain ⟨-, -, hdriver⟩ :=
    (inputs_withDesign hbuilt hreach hrun hrun' halm).2 (isOccupied_of_empty hnone a')
  obtain ⟨hold, hfresh⟩ := hdriver a'.efSelector.top List.mem_cons_self
  refine ⟨d₀, d, d', d'', a', hbuilt, hreach, hnone, hrun, hrun', halm, ?_, hfresh⟩
  rw [hold, hwires, hselector, hsrc]

end Device

end Fabric
