import Fabric.Proofs.PackingTouches
import Fabric.Proofs.Places

/-!
# What packing calls have in common

Assigning the control sets of a LAB writes to the control wires of that LAB, and planning the inputs
of an ALM to that ALM and to the LUT cells on it. As long as the LABs have the wires and sites that
they were built with, and each site holds the cell that records it, these have nothing in common for
different targets (`IsPlaced`). So a call leaves alone what a call for another target has done, and
it does so whether or not it succeeds.

## Main results

* `PackingCall.eq_of_mem_wires`, `PackingCall.eq_of_mem_cells`: a wire or a cell belongs to one
  call;
* `PackingCall.apart`: touches of different calls are of different parts;
* `SparesAlm`, `SparesControl`: the mode, the cells and the inputs of one ALM, or the control
  signals of one LAB, are left alone;
* `sparesAlm_preRouteLab`, `sparesControl_preRouteLab`: preparing one LAB spares all others.
-/

namespace Fabric

namespace Device

/-! ### Placements on LABs as they were built -/

/-- The LABs have the wires and sites that they were built with, and each site holds the cell that
records it. -/
structure IsPlaced (d : Device) : Prop where
  built : ∃ selection d₀, ofSelection selection = .ok d₀ ∧
    d.labs.map Lab.bare = d₀.labs.map Lab.bare
  placed : d.Placed

/-- In a state that is reached the LABs are as they were built, and each site holds its cell. -/
theorem IsState.isPlaced {d : Device} (hd : d.IsState) : d.IsPlaced := by
  obtain ⟨selection, d₀, hbuilt, hd₀⟩ := hd.built
  exact ⟨⟨selection, d₀, hbuilt, congrArg Hardware.labs hd₀⟩, hd.consistent.placed⟩

namespace IsPlaced

variable {d : Device} {lab lab' alm alm' : Nat} {w : Wire}

/-- The LABs are those of a state of the device, the built one without a design. -/
theorem exists_isState (hd : d.IsPlaced) : ∃ d₀ : Device, IsState { d₀ with labs := d.labs } := by
  obtain ⟨selection, d₀, hbuilt, hlabs⟩ := hd.built
  have hvacant := (vacant_ofSelection hbuilt).consistent
  refine ⟨d₀, ⟨selection, d₀, hbuilt, ?_⟩, hvacant.placed, hvacant.made, hvacant.closed⟩
  rw [hardware, hardware, hlabs]

/-- A control wire has one LAB. -/
theorem controlWire_inj (hd : d.IsPlaced) (hw : w ∈ d.controlWiresOf lab)
    (hw' : w ∈ d.controlWiresOf lab') : lab = lab' := by
  obtain ⟨d₀, hstate⟩ := hd.exists_isState
  obtain ⟨info, hlab, hmem⟩ := mem_controlWiresOf.mp hw
  obtain ⟨info', hlab', hmem'⟩ := mem_controlWiresOf.mp hw'
  exact hstate.controlWire_inj hlab hlab' hmem hmem'

/-- A wire that a plan drives has one ALM. -/
theorem inputWire_inj (hd : d.IsPlaced) (hw : w ∈ d.inputWiresOf lab alm)
    (hw' : w ∈ d.inputWiresOf lab' alm') : lab = lab' ∧ alm = alm' := by
  obtain ⟨d₀, hstate⟩ := hd.exists_isState
  obtain ⟨a, ha, hmem⟩ := mem_inputWiresOf.mp hw
  obtain ⟨a', ha', hmem'⟩ := mem_inputWiresOf.mp hw'
  exact hstate.inputWire_inj ha ha' hmem hmem'

/-- A wire that a plan drives is no control wire. -/
theorem notMem_controlWiresOf (hd : d.IsPlaced) (hw : w ∈ d.inputWiresOf lab alm) :
    w ∉ d.controlWiresOf lab' := by
  intro hcontrol
  obtain ⟨d₀, hstate⟩ := hd.exists_isState
  obtain ⟨a, ha, hmem⟩ := mem_inputWiresOf.mp hw
  obtain ⟨info', hlab', hmem'⟩ := mem_controlWiresOf.mp hcontrol
  exact hstate.notMem_controlWires_of_mem_inputWires ha hmem hlab' hmem'

/-- A LUT cell has one ALM. -/
theorem lutCell_inj (hd : d.IsPlaced) {id : CellId} (hid : id ∈ d.lutCellsOf lab alm)
    (hid' : id ∈ d.lutCellsOf lab' alm') : lab = lab' ∧ alm = alm' := by
  obtain ⟨d₀, hstate⟩ := hd.exists_isState
  obtain ⟨a, half, ha, hcell⟩ := mem_lutCellsOf.mp hid
  obtain ⟨a', half', ha', hcell'⟩ := mem_lutCellsOf.mp hid'
  rw [lutCells, Halves.get_map, hd.placed] at hcell hcell'
  have hsite := Option.some.inj (hcell.symm.trans hcell')
  obtain ⟨hlab, halm, -⟩ := hstate.lutSite_inj ha ha' hsite
  exact ⟨hlab, halm⟩

end IsPlaced

end Device

namespace PackingCall

variable {d : Device} {call call' : PackingCall}

/-! ### Parts of different calls -/

/-- A wire belongs to one call. -/
theorem eq_of_mem_wires (hd : d.IsPlaced) {w : Wire} (hw : w ∈ call.wires d)
    (hw' : w ∈ call'.wires d) : call = call' := by
  cases call with
  | control lab =>
    cases call' with
    | control lab' => rw [hd.controlWire_inj hw hw']
    | inputs lab' alm' => exact absurd hw (hd.notMem_controlWiresOf hw')
  | inputs lab alm =>
    cases call' with
    | control lab' => exact absurd hw' (hd.notMem_controlWiresOf hw)
    | inputs lab' alm' =>
      obtain ⟨rfl, rfl⟩ := hd.inputWire_inj hw hw'
      rfl

/-- A cell belongs to one call. -/
theorem eq_of_mem_cells (hd : d.IsPlaced) {id : CellId} (hid : id ∈ call.cells d)
    (hid' : id ∈ call'.cells d) : call = call' := by
  cases call with
  | control lab => cases hid
  | inputs lab alm =>
    cases call' with
    | control lab' => cases hid'
    | inputs lab' alm' =>
      obtain ⟨rfl, rfl⟩ := hd.lutCell_inj hid hid'
      rfl

/-- Touches that belong to different calls are of different parts. -/
theorem apart (hd : d.IsPlaced) (hne : call ≠ call') {t u : Touch} (ht : call.Owns d t)
    (hu : call'.Owns d u) : t.Apart u := by
  cases t with
  | wire w place =>
    cases u with
    | wire w' place' =>
      rintro rfl
      exact hne (eq_of_mem_wires hd ht hu)
    | _ => trivial
  | cell id plan half =>
    cases u with
    | cell id' plan' half' =>
      rintro rfl
      exact hne (eq_of_mem_cells hd ht hu)
    | _ => trivial
  | slots lab bound =>
    cases u with
    | slots lab' bound' =>
      rintro rfl
      exact hne (Eq.trans ht (Eq.symm hu))
    | _ => trivial
  | mode lab alm fused =>
    cases u with
    | mode lab' alm' fused' =>
      rintro ⟨rfl, rfl⟩
      exact hne (Eq.trans ht (Eq.symm hu))
    | _ => trivial
  | record entry => cases u <;> trivial

end PackingCall

namespace Device

/-! ### Sparing an ALM -/

/-- The mode of an ALM, the LUT cells on it and the drivers of its inputs stay as they are. -/
structure SparesAlm (lab alm : Nat) (d d' : Device) : Prop extends d.Repacked d' where
  mode : d.IsState → d'.alm? lab alm = d.alm? lab alm
  cell : d.IsState → ∀ a half id, d.alm? lab alm = some a → (d.lutCells a).get half = some id →
    d'.netlist.cell? id = d.netlist.cell? id
  driver : d.IsState → ∀ a, d.alm? lab alm = some a → ∀ w ∈ a.inputWires,
    d'.wires.reservedDriver? w = d.wires.reservedDriver? w

namespace SparesAlm

variable {lab alm : Nat} {d d' d'' : Device}

protected theorem refl (d : Device) : SparesAlm lab alm d d :=
  ⟨.refl d, fun _ => rfl, fun _ _ _ _ _ _ => rfl, fun _ _ _ _ _ => rfl⟩

protected theorem trans (h : SparesAlm lab alm d d') (h' : SparesAlm lab alm d' d'') :
    SparesAlm lab alm d d'' := by
  refine ⟨h.toRepacked.trans h'.toRepacked, fun hd => ?_, fun hd a half id ha hid => ?_,
    fun hd a ha w hw => ?_⟩
  · exact (h'.mode (h.isState hd)).trans (h.mode hd)
  · have ha' : d'.alm? lab alm = some a := (h.mode hd).trans ha
    have hid' : (d'.lutCells a).get half = some id := by rwa [h.lutCells_eq]
    exact (h'.cell (h.isState hd) a half id ha' hid').trans (h.cell hd a half id ha hid)
  · have ha' : d'.alm? lab alm = some a := (h.mode hd).trans ha
    exact (h'.driver (h.isState hd) a ha' w hw).trans (h.driver hd a ha w hw)

instance : IsPreorder Device (SparesAlm lab alm) where
  refl := SparesAlm.refl
  trans _ _ _ := SparesAlm.trans

/-- The truth table of an ALM that was spared is the same. -/
theorem lutMask_eq (h : SparesAlm lab alm d d') (hd : d.IsState) :
    d'.lutMask lab alm = d.lutMask lab alm := by
  rw [lutMask, lutMask, h.mode hd]
  cases ha : d.alm? lab alm with
  | none => rfl
  | some a =>
      have hhalf (half : Half) : d'.halfMask? a half = d.halfMask? a half := by
        rw [halfMask?, halfMask?, h.lutCells_eq]
        cases hid : (d.lutCells a).get half with
        | none => rfl
        | some id => rw [Option.bind_some, Option.bind_some, h.cell hd a half id ha hid]
      rw [Option.bind_some, Option.bind_some, hhalf, hhalf]

end SparesAlm

/-! ### Sparing the control signals of a LAB -/

/-- The slots of a LAB and the drivers of its control wires stay as they are. -/
structure SparesControl (lab : Nat) (d d' : Device) : Prop extends d.Repacked d' where
  control : d.IsState → (d'.labs[lab]?).map Lab.control = (d.labs[lab]?).map Lab.control
  driver : d.IsState → ∀ w ∈ d.controlWiresOf lab,
    d'.wires.reservedDriver? w = d.wires.reservedDriver? w

namespace SparesControl

variable {lab : Nat} {d d' d'' : Device}

protected theorem refl (d : Device) : SparesControl lab d d :=
  ⟨.refl d, fun _ => rfl, fun _ _ _ => rfl⟩

protected theorem trans (h : SparesControl lab d d') (h' : SparesControl lab d' d'') :
    SparesControl lab d d'' := by
  refine ⟨h.toRepacked.trans h'.toRepacked, fun hd => ?_, fun hd w hw => ?_⟩
  · exact (h'.control (h.isState hd)).trans (h.control hd)
  · have hw' : w ∈ d'.controlWiresOf lab := by rwa [h.controlWiresOf_eq]
    exact (h'.driver (h.isState hd) w hw').trans (h.driver hd w hw)

instance : IsPreorder Device (SparesControl lab) where
  refl := SparesControl.refl
  trans _ _ _ := SparesControl.trans

end SparesControl

end Device

open Device (SparesAlm SparesControl)

/-! ### What each call spares -/

namespace PackingCall

variable {lab alm : Nat}

/-- A call for another target spares an ALM. -/
theorem sparesAlm (call : PackingCall) (hne : call ≠ .inputs lab alm) :
    call.edit.Keeps (SparesAlm lab alm) := by
  intro d
  have hkeeps := call.keepsTo d
  refine ⟨(call.touched d).toRepacked, fun _ => hkeeps.mode lab alm hne,
    fun hd a half id ha hid => hkeeps.cell id fun hown => hne ?_, fun hd a ha w hw => ?_⟩
  · exact eq_of_mem_cells hd.isPlaced hown (Device.mem_lutCellsOf.mpr ⟨a, half, ha, hid⟩)
  · have hinput : w ∈ d.inputWiresOf lab alm := Device.mem_inputWiresOf.mpr ⟨a, ha, hw⟩
    have hwire := hkeeps.wire w fun hown => hne (eq_of_mem_wires hd.isPlaced hown hinput)
    rw [WireGraph.reservedDriver?, hwire, WireGraph.reservedDriver?]

/-- A call for another target spares the control signals of a LAB. -/
theorem sparesControl (call : PackingCall) (hne : call ≠ .control lab) :
    call.edit.Keeps (SparesControl lab) := by
  intro d
  have hkeeps := call.keepsTo d
  refine ⟨(call.touched d).toRepacked, fun _ => hkeeps.slots lab hne, fun hd w hw => ?_⟩
  have hwire := hkeeps.wire w fun hown => hne (eq_of_mem_wires hd.isPlaced hown hw)
  rw [WireGraph.reservedDriver?, hwire, WireGraph.reservedDriver?]

end PackingCall

/-! ### Preparing LABs -/

namespace Edit

/-- Preparing one LAB leaves the ALMs of the others alone. -/
theorem sparesAlm_preRouteLab {lab alm lab' : Nat} (hne : lab' ≠ lab) :
    (preRouteLab lab').Keeps (SparesAlm lab alm) :=
  keeps_preRouteLab (PackingCall.sparesAlm (.control lab') nofun) fun alm' =>
    PackingCall.sparesAlm (.inputs lab' alm') fun heq => hne (congrArg PackingCall.lab heq)

/-- Preparing one LAB leaves the control signals of the others alone. -/
theorem sparesControl_preRouteLab {lab lab' : Nat} (hne : lab' ≠ lab) :
    (preRouteLab lab').Keeps (SparesControl lab) :=
  keeps_preRouteLab
    (PackingCall.sparesControl (.control lab') fun heq => hne (congrArg PackingCall.lab heq))
    fun alm' => PackingCall.sparesControl (.inputs lab' alm') nofun

end Edit

end Fabric
