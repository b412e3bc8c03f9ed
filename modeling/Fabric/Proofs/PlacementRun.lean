import Fabric.Proofs.Derive
import Fabric.Proofs.LutMask

/-!
# Placement as a partial bijection

The placement of a design is kept twice, by the sites and by the cells. Placing a cell changes up
to three records, those of the cell and of two sites, and then derives the summary of the cell,
which cannot fail for a cell that exists. So the records always say the same, and they relate cells
and sites one to one.

`PlacementRun` are the states that this holds of: whatever happens to a built device, as long as
only `placeCell` and `removeCell` write where cells are.

## Main results

* `Edit.placeCell_spec`, `Edit.removeCell_spec`: what placing a cell changes, and taking one off its
  site;
* `Edit.run_placeCell_eq_error`, `Edit.run_removeCell_eq_error`: a placement or a removal that fails
  changes nothing;
* `PlacementRun.placed`: the two records agree;
* `PlacementRun.partialBijection`: the placement of a design is a partial bijection.
-/

namespace Fabric

/-- A site is free if it exists and holds no cell. -/
theorem Device.isFree_iff {d : Device} {bel : BelId} :
    d.isFree bel ↔ (d.site? bel).isSome ∧ d.cellAt bel = none := by
  rw [isFree, cellAt]
  cases d.site? bel <;> simp

namespace Edit

variable {d d' : Device} {bel : BelId} {id : CellId}

/-! ### Placing a cell -/

/-- A cell that exists can be derived, and stays where it is. -/
theorem exists_run_deriveCell {c : Cell} (hc : d.netlist.cell? id = some c) :
    ∃ d', (deriveCell id).run d = (.ok (), d') ∧ d'.cellAt = d.cellAt ∧
      d'.netlist.siteOf = d.netlist.siteOf := by
  have hsite (nl : Netlist) (hnl : nl.cell? = d.netlist.cell?) {f : Cell → Cell}
      (hf : ∀ c, (f c).site = c.site) : (nl.modifyCell id f).siteOf = d.netlist.siteOf := by
    funext i
    rw [Netlist.siteOf, Netlist.cell?_modifyCell, hnl, Netlist.siteOf]
    split
    · rw [Option.bind_map]
      exact congrArg _ (funext hf)
    · rfl
  cases hn : CellType.logicInputs? c.type with
  | some n => exact ⟨_, run_deriveCell_of_logic hc hn, rfl, hsite _ rfl fun _ => rfl⟩
  | none =>
    by_cases htype : c.type = Known.flipFlop
    · refine ⟨_, run_deriveCell_of_flipFlop hc htype, ?_,
        hsite _ (d.cell?_withLoadNet c) fun _ => rfl⟩
      rw [Device.withFlipFlop, Device.withLoadNet]
      split <;> rfl
    · exact ⟨d, run_deriveCell_of_other hc hn htype, rfl, rfl⟩

/-- A cell that exists is placed on a free site, and no cell is where it was before. -/
theorem placeCell_spec {c : Cell} (hc : d.netlist.cell? id = some c) (hfree : d.isFree bel) :
    ∃ d', (placeCell bel id).run d = (.ok (), d') ∧
      (∀ b, d'.cellAt b = if bel = b then some id else
        if d.netlist.siteOf id = some b then none else d.cellAt b) ∧
      ∀ i, d'.netlist.siteOf i = if id = i then some bel else d.netlist.siteOf i := by
  obtain ⟨site, hsite, hvacant⟩ := (Option.any_eq_true ..).mp hfree
  have hold : d.netlist.siteOf id = c.site := by rw [Netlist.siteOf, hc, Option.bind_some]
  have hmoved : ∃ c', (d.moved bel id c.site).netlist.cell? id = some c' :=
    ⟨_, by rw [Device.moved, Netlist.cell?_modifyCell, if_pos rfl, hc, Option.map_some]⟩
  obtain ⟨c', hc'⟩ := hmoved
  obtain ⟨d', hrun, hcells, hsites⟩ := exists_run_deriveCell hc'
  refine ⟨d', (run_placeCell_of_free hsite (Option.isNone_iff_eq_none.mp hvacant) hc).trans hrun,
    fun b => ?_, fun i => ?_⟩
  · rw [hcells, Device.cellAt_moved (by rw [hsite, Option.isSome_some]), hold]
  · rw [hsites, Device.moved, Device.siteOf_modifyCell]
    split
    · rename_i heq
      rw [← heq, hc, Option.bind_some]
    · rfl

/-- A placement that succeeds puts a cell that exists on a free site. -/
theorem run_placeCell_eq_ok (h : (placeCell bel id).run d = (.ok (), d')) :
    d.isFree bel ∧ ∃ c, d.netlist.cell? id = some c := by
  rcases run_placeCell bel id d with ⟨e, hrun⟩ | ⟨site, c, hsite, hfree, hc, -⟩
  · cases (Prod.mk.inj (hrun.symm.trans h)).1
  · refine ⟨?_, c, hc⟩
    rw [Device.isFree, hsite, Option.any_some, hfree]
    rfl

/-- A placement that fails changes nothing. -/
theorem run_placeCell_eq_error {e : Error} (h : (placeCell bel id).run d = (.error e, d')) :
    d' = d := by
  rcases run_placeCell bel id d with ⟨e', hrun⟩ | ⟨site, c, hsite, hfree, hc, -⟩
  · exact (Prod.mk.inj (hrun.symm.trans h)).2.symm
  · have hisFree : d.isFree bel := by rw [Device.isFree, hsite, Option.any_some, hfree]; rfl
    obtain ⟨_, hrun, -⟩ := placeCell_spec hc hisFree
    cases (Prod.mk.inj (hrun.symm.trans h)).1

/-! ### Taking a cell off its site -/

/-- The cell of a site that exists is taken off it. -/
theorem removeCell_spec (hsite : (d.site? bel).isSome) :
    ∃ d', (removeCell bel).run d = (.ok (d.cellAt bel), d') ∧
      (∀ b, d'.cellAt b = if bel = b then none else d.cellAt b) ∧
      ∀ i, d'.netlist.siteOf i = if d.cellAt bel = some i then none else d.netlist.siteOf i := by
  cases hat : d.cellAt bel with
  | none =>
    refine ⟨d, by rw [run_removeCell_of_vacant hat, if_pos hsite], fun b => ?_, fun i => ?_⟩
    · split
      · rename_i heq
        rw [← heq, hat]
      · rfl
    · rw [if_neg nofun]
  | some id =>
    refine ⟨_, run_removeCell hat, fun b => (Device.cellAt_modifySite d bel b _).trans ?_,
      fun i => ?_⟩
    · split
      · cases d.site? b <;> rfl
      · rfl
    · simp only [Device.siteOf_modifyCell, Option.some.injEq]
      split
      · cases d.netlist.cell? i <;> rfl
      · rfl

/-- A removal that fails changes nothing. -/
theorem run_removeCell_eq_error {e : Error} (h : (removeCell bel).run d = (.error e, d')) :
    d' = d := by
  cases hat : d.cellAt bel with
  | none => exact (Prod.mk.inj ((run_removeCell_of_vacant hat).symm.trans h)).2.symm
  | some id => cases (Prod.mk.inj ((run_removeCell hat).symm.trans h)).1

end Edit

/-! ### Runs -/

/-- The states of a device that a placement can be in: cells are placed and taken off their sites
by operations, and anything else may change that is no record of where a cell is, as long as the
LABs keep their wires and sites. -/
inductive PlacementRun (d₀ : Device) : Device → Prop where
  | built : PlacementRun d₀ d₀
  | operation {d : Device} (h : PlacementRun d₀ d) (op : Operation) : PlacementRun d₀ (op.apply d)
  | edit {d d' : Device} (h : PlacementRun d₀ d)
      (labs : d'.labs.map Lab.bare = d.labs.map Lab.bare)
      (cellAt : d'.cellAt = d.cellAt) (siteOf : d'.netlist.siteOf = d.netlist.siteOf) :
      PlacementRun d₀ d'

/-- Runs of operations are placement runs. -/
theorem Reachable.placementRun {d₀ d : Device} (h : Reachable d₀ d) : PlacementRun d₀ d := by
  induction h with
  | built => exact .built
  | step _ op ih => exact ih.operation op

namespace PlacementRun

variable {selection : Selection} {d₀ d : Device}

/-- The LABs are the built ones but for their modes and slots. -/
theorem map_bare_labs (h : PlacementRun d₀ d) : d.labs.map Lab.bare = d₀.labs.map Lab.bare := by
  induction h with
  | built => rfl
  | operation _ op ih => exact (congrArg Hardware.labs (op.keeps _).hardware).trans ih
  | edit _ labs _ _ ih => exact labs.trans ih

/-- The records of the cells and of the sites agree. -/
theorem placed (hbuilt : Device.ofSelection selection = .ok d₀) (h : PlacementRun d₀ d) :
    d.Placed := by
  induction h with
  | built => exact (Device.vacant_ofSelection hbuilt).consistent.placed
  | operation _ op ih => exact (op.keeps _).placed ih
  | edit _ _ cellAt siteOf ih =>
    intro bel id
    rw [cellAt, siteOf]
    exact ih bel id

/-- Placement is a partial bijection between cells and sites, kept by both. A cell that exists can
be placed exactly on the sites that exist and are free. It leaves the site it was on then, and
nothing else moves. What fails changes nothing. -/
theorem partialBijection (hbuilt : Device.ofSelection selection = .ok d₀) (h : PlacementRun d₀ d) :
    (∀ id bel, d.netlist.siteOf id = some bel ↔ d.cellAt bel = some id) ∧
    (∀ id id' bel, d.netlist.siteOf id = some bel → d.netlist.siteOf id' = some bel → id = id') ∧
    (∀ id bel bel', d.cellAt bel = some id → d.cellAt bel' = some id → bel = bel') ∧
    (∀ id bel, (d.netlist.cell? id).isSome →
      ((∃ d', (Edit.placeCell bel id).run d = (.ok (), d')) ↔
        (d.site? bel).isSome ∧ d.cellAt bel = none)) ∧
    (∀ id bel d', (Edit.placeCell bel id).run d = (.ok (), d') →
      (∀ b, d'.cellAt b = if bel = b then some id else
        if d.netlist.siteOf id = some b then none else d.cellAt b) ∧
      ∀ i, d'.netlist.siteOf i = if id = i then some bel else d.netlist.siteOf i) ∧
    (∀ bel, (d.site? bel).isSome →
      ∃ d', (Edit.removeCell bel).run d = (.ok (d.cellAt bel), d') ∧
        (∀ b, d'.cellAt b = if bel = b then none else d.cellAt b) ∧
        ∀ i, d'.netlist.siteOf i = if d.cellAt bel = some i then none else d.netlist.siteOf i) ∧
    (∀ id bel e d', (Edit.placeCell bel id).run d = (.error e, d') → d' = d) ∧
    (∀ bel e d', (Edit.removeCell bel).run d = (.error e, d') → d' = d) := by
  have hd : ∀ id bel, d.netlist.siteOf id = some bel ↔ d.cellAt bel = some id :=
    fun id bel => (h.placed hbuilt bel id).symm
  refine ⟨hd, fun id id' bel hid hid' => ?_, fun id bel bel' hbel hbel' => ?_, fun id bel hid => ?_,
    fun id bel d' hrun => ?_, fun bel hsite => Edit.removeCell_spec hsite,
    fun id bel e d' hrun => Edit.run_placeCell_eq_error hrun,
    fun bel e d' hrun => Edit.run_removeCell_eq_error hrun⟩
  · rw [hd] at hid hid'
    exact Option.some.inj (hid.symm.trans hid')
  · rw [← hd] at hbel hbel'
    exact Option.some.inj (hbel.symm.trans hbel')
  · obtain ⟨c, hc⟩ := Option.isSome_iff_exists.mp hid
    rw [← Device.isFree_iff]
    constructor
    · rintro ⟨d', hrun⟩
      exact (Edit.run_placeCell_eq_ok hrun).1
    · intro hfree
      obtain ⟨d', hrun, -⟩ := Edit.placeCell_spec hc hfree
      exact ⟨d', hrun⟩
  · obtain ⟨hfree, c, hc⟩ := Edit.run_placeCell_eq_ok hrun
    obtain ⟨d'', hrun', hmoved⟩ := Edit.placeCell_spec hc hfree
    obtain ⟨-, rfl⟩ := Prod.mk.inj (hrun.symm.trans hrun')
    exact hmoved

/-- A cell of a design on the smallest grid is recorded by its site, and a site that holds it takes
no other cell. -/
theorem partialBijection_inverter : ∃ d₀ d, Device.ofSelection (.ofGrid 3 2) = .ok d₀ ∧
    PlacementRun d₀ d ∧ d.cellAt (siteNumber 1 1 0) = some ⟨0⟩ ∧
    ¬ ∃ d', (Edit.placeCell (siteNumber 1 1 0) ⟨0⟩).run d = (.ok (), d') := by
  obtain ⟨d₀, hbuilt, -⟩ := Device.exists_ofSelection Device.chip_smallestGrid
  obtain ⟨name, d, hreach, hcells⟩ := Device.exists_placedInverter hbuilt
  obtain ⟨hagree, -, -, hplace, -⟩ := partialBijection hbuilt hreach.placementRun
  have hsite : d.netlist.siteOf ⟨0⟩ = some (siteNumber 1 1 0) := by
    rw [Netlist.siteOf, Netlist.cell?, hcells]
    rfl
  have hcell : (d.netlist.cell? ⟨0⟩).isSome := by
    rw [Netlist.cell?, hcells]
    rfl
  have hat := (hagree _ _).mp hsite
  refine ⟨d₀, d, hbuilt, hreach.placementRun, hat, fun hplaced => ?_⟩
  have hfree := ((hplace ⟨0⟩ _ hcell).mp hplaced).2
  rw [hat] at hfree
  cases hfree

end PlacementRun

end Fabric
