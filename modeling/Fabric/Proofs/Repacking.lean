import Fabric.Proofs.Consistency

/-!
# What packing leaves alone

Packing assigns control sets, plans inputs and reserves wires. It reads the placement, the nets, the
summaries of the cells and their pin states, and changes none of these: it writes reservations,
records, slots, modes and site pins. `Repacked` says so of the models before and after. What is
decided from the placement and the summaries alone is then decided in the same way before and
after, in particular the legality of a LAB and the plan of an ALM.

## Main results

* `Repacked.planAlm?_eq`: an ALM has the same plan;
* `Repacked.isLabLegal_eq`: the same LABs are legal.
-/

namespace Fabric

/-- An ALM before it is packed. -/
def Alm.bare (a : Alm) : Alm := { a with fused := false }

namespace Device

/-- A LAB stays on its tile as long as the hardware stays. -/
theorem HasLab.of_hardware {d d' : Device} {info info' : Lab} {x y : Nat} (h : d.HasLab info x y)
    (hhardware : d'.hardware = d.hardware) (hbare : info'.bare = info.bare) :
    d'.HasLab info' x y := by
  have hchip : d'.chip = d.chip := congrArg Hardware.chip hhardware
  have huphill : d'.wires.uphill? = d.wires.uphill? := congrArg Hardware.uphill hhardware
  refine ⟨?_, hbare.trans h.bare, ?_⟩
  · rw [hchip]
    exact h.toIsTile
  · rw [huphill]
    exact h.uphill

/-- The control wires of a LAB do not depend on what was packed into it. -/
theorem controlWires_bare (l : Lab) : l.bare.controlWires = l.controlWires := by
  rw [Lab.controlWires, Lab.selectorWires, Lab.bare, Array.toList_map, List.flatMap_map]
  rfl

/-- The control wires of a LAB, if it exists. -/
def controlWiresOf (d : Device) (lab : Nat) : List Wire :=
  ((d.labs[lab]?).map Lab.controlWires).getD []

/-- A model evolves in nothing that packing reads. -/
structure Repacked (d d' : Device) : Prop extends d.Evolves d' where
  cellAt : d'.cellAt = d.cellAt
  lutInfo : d'.netlist.lutInfo = d.netlist.lutInfo
  flipFlopInfo : d'.netlist.flipFlopInfo = d.netlist.flipFlopInfo
  pinState : d'.netlist.pinState = d.netlist.pinState
  net? : d'.netlist.net? = d.netlist.net?

namespace Repacked

variable {d d' d'' : Device}

protected theorem refl (d : Device) : d.Repacked d := ⟨.refl d, rfl, rfl, rfl, rfl, rfl⟩

protected theorem trans (h : d.Repacked d') (h' : d'.Repacked d'') : d.Repacked d'' where
  toEvolves := h.toEvolves.trans h'.toEvolves
  cellAt := h'.cellAt.trans h.cellAt
  lutInfo := h'.lutInfo.trans h.lutInfo
  flipFlopInfo := h'.flipFlopInfo.trans h.flipFlopInfo
  pinState := h'.pinState.trans h.pinState
  net? := h'.net?.trans h.net?

instance : IsPreorder Device Repacked where
  refl := Repacked.refl
  trans _ _ _ := Repacked.trans

/-! ### Changes that packing makes -/

/-- The same design is packed in the same hardware. -/
theorem of_sameDesign (h : SameDesign d d') : d.Repacked d' :=
  ⟨.of_sameDesign h, h.cellAt, by rw [h.netlist], by rw [h.netlist], by rw [h.netlist],
    by rw [h.netlist]⟩

/-- A repacking may change everything in a LAB but its sites and its wires. -/
theorem of_modifyLab (lab : Nat) {f : Lab → Lab} (h : ∀ l, (f l).bare = l.bare) :
    d.Repacked { d with labs := d.labs.modify lab f } :=
  ⟨.of_modifyLab lab h, rfl, rfl, rfl, rfl, rfl⟩

/-- Fusing or splitting an ALM is a repacking. -/
theorem of_modifyAlm (lab alm : Nat) (fused : Bool) :
    d.Repacked { d with labs := d.labs.modify lab fun l => { l with
      alms := l.alms.modify alm fun a => { a with fused := fused } } } :=
  ⟨.of_modifyAlm lab alm fused, rfl, rfl, rfl, rfl, rfl⟩

/-- A change of the site pins of a cell changes nothing that is read off cells. -/
theorem map_modifyCell {α : Type} {f : Cell → Cell} {g : Cell → α} (h : ∀ c, g (f c) = g c)
    (nl : Netlist) (id id' : CellId) :
    ((nl.modifyCell id f).cell? id').map g = (nl.cell? id').map g := by
  rw [Netlist.cell?_modifyCell]
  split
  · rw [Option.map_map, show g ∘ f = g from funext h]
  · rfl

/-- Recording the pins of sites in a cell is a repacking. -/
theorem of_sitePins (id : CellId) {f : Cell → Cell} (h : ∀ c : Cell, c.SameButSitePins (f c)) :
    d.Repacked { d with netlist := d.netlist.modifyCell id f } := by
  refine ⟨.of_netlist (d.netlist.evolves_modifyCell_of_sameButSitePins id h), rfl, ?_, ?_, ?_, rfl⟩
  · funext id'
    exact congrArg (Option.getD · _) (map_modifyCell (fun c => (h c).lut) d.netlist id id')
  · funext id'
    exact congrArg (Option.getD · _) (map_modifyCell (fun c => (h c).flipFlop) d.netlist id id')
  · funext id' pin
    exact congrArg (Option.getD · _)
      (map_modifyCell (fun c => (h c).pinState pin) d.netlist id id')

/-! ### What stays as it is -/

/-- The ALMs are the same but for their modes. -/
theorem map_bare_alm? (h : d.Repacked d') (lab alm : Nat) :
    (d'.alm? lab alm).map Alm.bare = (d.alm? lab alm).map Alm.bare := by
  have hbare (d : Device) : (d.alm? lab alm).map Alm.bare =
      ((d.labs.map Lab.bare)[lab]?).bind fun l => l.alms[alm]? := by
    rw [alm?, Array.getElem?_map]
    cases d.labs[lab]? with
    | none => rfl
    | some l =>
        rw [Option.map_some, Option.bind_some, Option.bind_some, Lab.bare, Array.getElem?_map]
        rfl
  rw [hbare, hbare, show d'.labs.map Lab.bare = d.labs.map Lab.bare from
    congrArg Hardware.labs h.hardware]

/-- The LUTs found in an ALM are those found before. -/
theorem lutCells_eq (h : d.Repacked d') (a : Alm) : d'.lutCells a = d.lutCells a := by
  rw [lutCells, h.cellAt, lutCells]

/-- An ALM is there before and after, but for its mode. -/
theorem exists_alm (h : d.Repacked d') {lab alm : Nat} {a : Alm} (ha : d.alm? lab alm = some a) :
    ∃ a', d'.alm? lab alm = some a' ∧ a'.bare = a.bare := by
  have hmap := h.map_bare_alm? lab alm
  rw [ha, Option.map_some] at hmap
  exact Option.map_eq_some_iff.mp hmap

/-- The flip-flops found in an ALM are those found before. -/
theorem flopCells_eq (h : d.Repacked d') (a : Alm) : d'.flopCells a = d.flopCells a := by
  rw [flopCells, h.cellAt, flopCells]

/-- The flip-flops of an ALM depend on its sites alone, also where its other records changed. -/
theorem flopCells_eq_of_bare (h : d.Repacked d') {a a' : Alm} (hbare : a'.bare = a.bare) :
    d'.flopCells a' = d.flopCells a := by
  have hsites : d.flopCells a'.bare = d.flopCells a.bare := congrArg d.flopCells hbare
  exact (h.flopCells_eq a').trans hsites

/-- Whether the control inputs of an ALM agree is unchanged. -/
theorem agree_eq (h : d.Repacked d') : d'.agree = d.agree := by
  unfold agree
  rw [h.flipFlopInfo]

/-- What an ALM demands is unchanged. -/
theorem almDemand_eq (h : d.Repacked d') (a : Alm) : d'.almDemand a = d.almDemand a := by
  have hdemand : d'.lutDemand = d.lutDemand := by
    funext id
    rw [lutDemand, h.lutInfo, h.pinState, lutDemand]
  rw [almDemand, h.lutCells_eq, h.flopCells_eq, hdemand, h.flipFlopInfo, almDemand]

/-- An answer about an ALM that does not read its mode is the same in both models. -/
theorem bind_alm?_eq {α : Type} (h : d.Repacked d') {f f' : Alm → Option α} (hf : ∀ a, f' a = f a)
    (hbare : ∀ a, f a.bare = f a) (lab alm : Nat) :
    (d'.alm? lab alm).bind f' = (d.alm? lab alm).bind f := by
  have hcomp : f ∘ Alm.bare = f := funext hbare
  rw [show f' = f from funext hf]
  calc (d'.alm? lab alm).bind f
      _ = ((d'.alm? lab alm).map Alm.bare).bind f := by rw [Option.bind_map, hcomp]
      _ = ((d.alm? lab alm).map Alm.bare).bind f := by rw [h.map_bare_alm? lab alm]
      _ = (d.alm? lab alm).bind f := by rw [Option.bind_map, hcomp]

/-- The plan of an ALM is the same. -/
theorem planAlm?_eq (h : d.Repacked d') : d'.planAlm? = d.planAlm? := by
  funext lab alm
  exact h.bind_alm?_eq (fun a => by rw [h.almDemand_eq]) (fun a => rfl) lab alm

/-- The same ALMs are occupied. -/
theorem any_isOccupied_eq (h : d.Repacked d') (lab alm : Nat) :
    (d'.alm? lab alm).any (Edit.isOccupied d') = (d.alm? lab alm).any (Edit.isOccupied d) := by
  have hany (o : Option Alm) (f : Alm → Bool) :
      o.any f = (o.bind fun a => some (f a)).getD false := by
    cases o <;> rfl
  rw [hany, hany, h.bind_alm?_eq (f := fun a => some (Edit.isOccupied d a)) (fun a => ?_)
    (fun a => rfl) lab alm]
  rw [Edit.isOccupied, h.lutCells_eq, h.flopCells_eq, Edit.isOccupied]

/-! ### Control signals -/

/-- The flip-flops of a LAB depend on the sites of its ALMs alone. -/
theorem labFlipFlops_bare (d : Device) (l : Lab) : d.labFlipFlops l.bare =
    (d.labFlipFlops l).map fun (a, half, info) => (a.bare, half, info) := by
  have hsites : l.bare.flipFlopSites = l.flipFlopSites.map (Prod.map Alm.bare id) := by
    rw [Lab.flipFlopSites, Lab.bare, Array.toList_map, List.flatMap_map, Lab.flipFlopSites,
      List.map_flatMap]
    refine congrArg (List.flatMap · _) (funext fun a => ?_)
    rw [List.map_map]
    rfl
  rw [labFlipFlops, hsites, List.filterMap_map, labFlipFlops, List.map_filterMap]
  refine List.filterMap_congr fun entry _ => ?_
  rw [Function.comp_apply, Option.map_map]
  rfl

/-- The control slots of a LAB depend on its flip-flops alone. -/
theorem controlSlots_bare (d : Device) (l : Lab) : d.controlSlots l.bare = d.controlSlots l := by
  rw [controlSlots, labFlipFlops_bare, List.map_map, controlSlots]
  rfl

/-- The selected signals of a LAB depend on its flip-flops alone. -/
theorem selectedSignals_bare (d : Device) (l : Lab) : d.selectedSignals l.bare =
    (d.selectedSignals l).map fun s => { s with alm := s.alm.bare } := by
  rw [selectedSignals, labFlipFlops_bare, List.flatMap_map, selectedSignals, List.map_flatMap]
  refine List.flatMap_congr fun entry _ => ?_
  rw [List.map_map]
  rfl

/-- The routes through the selectors depend on the bare LAB, its slots and its wires. -/
theorem selectorRoutes_bare (d : Device) (lab : Nat) (l : Lab) (slots : ControlSlots) :
    d.selectorRoutes lab l.bare slots = d.selectorRoutes lab l slots := by
  rw [selectorRoutes, selectedSignals_bare, List.mapM_map]
  rfl

/-- The flip-flops of a LAB are those found before. -/
theorem labFlipFlops_eq (h : d.Repacked d') (l : Lab) : d'.labFlipFlops l = d.labFlipFlops l := by
  rw [labFlipFlops, h.cellAt, h.flipFlopInfo, labFlipFlops]

/-- The slots of a LAB are the same, whatever was packed into it. -/
theorem controlSlots_eq (h : d.Repacked d') {l l' : Lab} (hbare : l'.bare = l.bare) :
    d'.controlSlots l' = d.controlSlots l := by
  rw [← controlSlots_bare, hbare, controlSlots_bare, controlSlots, h.labFlipFlops_eq, controlSlots]

/-- The selected signals of a LAB are those found before. -/
theorem selectedSignals_eq (h : d.Repacked d') (l : Lab) :
    d'.selectedSignals l = d.selectedSignals l := by
  rw [selectedSignals, h.labFlipFlops_eq, selectedSignals]

/-- The routes of the selectors of a LAB are the same, whatever was packed into it, and so is
the failure to find one. -/
theorem selectorRoutes_eq (h : d.Repacked d') {l l' : Lab} (hbare : l'.bare = l.bare) (lab : Nat)
    (slots : ControlSlots) : d'.selectorRoutes lab l' slots = d.selectorRoutes lab l slots := by
  rw [← selectorRoutes_bare, hbare, selectorRoutes_bare, selectorRoutes, h.selectedSignals_eq,
    selectorRoutes]

/-- Whether a LAB is legal is unchanged. -/
theorem isLabLegal_eq (h : d.Repacked d') : d'.isLabLegal = d.isLabLegal := by
  funext lab
  have heq (d : Device) : d.isLabLegal lab =
      ((d.labs.map Lab.bare)[lab]?).all fun info => (d.controlSlots info).isOk := by
    rw [isLabLegal, Array.getElem?_map]
    cases d.labs[lab]? with
    | none => rfl
    | some info => rw [Option.map_some, Option.all_some, Option.all_some, controlSlots_bare]
  rw [heq, heq, show d'.labs.map Lab.bare = d.labs.map Lab.bare from
    congrArg Hardware.labs h.hardware]
  refine congrArg (Option.all · _) (funext fun info => ?_)
  rw [controlSlots, h.labFlipFlops_eq, controlSlots]

/-- The LABs are the same but for their modes and slots. -/
theorem map_bare_labs (h : d.Repacked d') (lab : Nat) :
    (d'.labs[lab]?).map Lab.bare = (d.labs[lab]?).map Lab.bare := by
  have hlabs : d'.labs.map Lab.bare = d.labs.map Lab.bare := congrArg Hardware.labs h.hardware
  rw [← Array.getElem?_map, hlabs, Array.getElem?_map]

/-- A LAB that is there after was there before, but for its modes and slots. -/
theorem exists_lab (h : d.Repacked d') {lab : Nat} {info : Lab} (hlab : d'.labs[lab]? = some info) :
    ∃ before, d.labs[lab]? = some before ∧ before.bare = info.bare := by
  have hmap := h.map_bare_labs lab
  rw [hlab, Option.map_some] at hmap
  exact Option.map_eq_some_iff.mp hmap.symm

/-- A LAB that was there before is there after, but for its modes and slots. -/
theorem exists_lab_after (h : d.Repacked d') {lab : Nat} {info : Lab}
    (hlab : d.labs[lab]? = some info) :
    ∃ after, d'.labs[lab]? = some after ∧ after.bare = info.bare := by
  have hmap := h.map_bare_labs lab
  rw [hlab, Option.map_some] at hmap
  exact Option.map_eq_some_iff.mp hmap

/-- The control wires of a LAB are those found before. -/
theorem controlWiresOf_eq (h : d.Repacked d') (lab : Nat) :
    d'.controlWiresOf lab = d.controlWiresOf lab := by
  have hbare (d : Device) : d.controlWiresOf lab =
      (((d.labs.map Lab.bare)[lab]?).map Lab.controlWires).getD [] := by
    rw [controlWiresOf, Array.getElem?_map, Option.map_map]
    cases d.labs[lab]? with
    | none => rfl
    | some l => exact (controlWires_bare l).symm
  rw [hbare, hbare, show d'.labs.map Lab.bare = d.labs.map Lab.bare from
    congrArg Hardware.labs h.hardware]

/-- A repacking makes and removes no LAB. -/
theorem size_labs_eq (h : d.Repacked d') : d'.labs.size = d.labs.size := by
  have hlabs : d'.labs.map Lab.bare = d.labs.map Lab.bare := congrArg Hardware.labs h.hardware
  rw [← Array.size_map (f := Lab.bare), hlabs, Array.size_map]

end Repacked

end Device

end Fabric
