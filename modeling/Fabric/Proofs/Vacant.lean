import Fabric.Proofs.BuildWalk

/-!
# Built devices are vacant

Building a device makes sites and places nothing on them, it makes wires and reserves none of them,
and it leaves the netlist alone. All of this is kept by every step of a build, so a built device has
no cells, no nets and no reservations.

## Main results

* `keeps_build`: a build keeps a device vacant;
* `vacant_ofSelection`: a built device is vacant;
* `WireGraph.Plain.reservedDriver?`: so no wire of it is reserved.
-/

namespace Fabric

namespace WireGraph

/-! ### Wires without flags -/

/-- No wire has a flag set. -/
def Plain (g : WireGraph) : Prop := ∀ w info, g.get? w = some info → info.flags = 0

variable {g : WireGraph}

/-- No wire of the empty graph is flagged. -/
theorem plain_empty : empty.Plain := fun w info h => by simp [get?, empty] at h

/-- A change that sets no flag leaves the graph plain. -/
theorem Plain.update (h : g.Plain) (w : Wire) {f : WireInfo → WireInfo}
    (hf : ∀ info, info.flags = 0 → (f info).flags = 0) : (g.update w f).Plain := by
  intro u info hu
  rw [get?_update] at hu
  split at hu
  · obtain rfl := Option.some.inj hu
    refine hf _ ?_
    cases hw : g.get? w with
    | none => rfl
    | some before => exact h w before hw
  · exact h u info hu

/-- A pip sets no flag. -/
theorem Plain.addPip (h : g.Plain) (src dst : Wire) : (g.addPip src dst).Plain := by
  rw [WireGraph.addPip]
  refine Plain.update (Plain.update h src ?_) dst ?_
  · exact fun _ hinfo => hinfo
  · exact fun _ hinfo => hinfo

/-- Pips set no flag. -/
theorem Plain.addPips (h : g.Plain) (sources : List Wire) (dst : Wire) :
    (g.addPips sources dst).Plain := by
  rw [WireGraph.addPips]
  induction sources generalizing g with
  | nil => exact h
  | cons src rest ih => exact ih (h.addPip src dst)

/-- Attaching a pin sets no flag. -/
theorem Plain.attach (h : g.Plain) (w : Wire) (pin : BelPin) : (g.attach w pin).Plain := by
  rw [WireGraph.attach]
  exact h.update w fun _ hinfo => hinfo

/-- A wire made without flags leaves the graph plain. -/
theorem Plain.create (h : g.Plain) (w : Wire) (name : Ident) : (g.create w name 0).Plain := by
  rw [WireGraph.create]
  exact h.update w fun _ _ => rfl

/-- A wire without flags is not reserved. -/
theorem Plain.reservedDriver? (h : g.Plain) (w : Wire) : g.reservedDriver? w = none := by
  rw [WireGraph.reservedDriver?]
  cases hw : g.get? w with
  | none => rfl
  | some info =>
      rw [Option.bind_some, WireInfo.reservedDriver, h w info hw]
      rfl

end WireGraph

/-- A model without cells, nets and reservations. -/
structure Device.Vacant (d : Device) : Prop where
  netlist : d.netlist = {}
  sites : ∀ tile ∈ d.sites, ∀ site ∈ tile, site.cell = none
  wires : d.wires.Plain

/-- If one model is vacant then so is the other. -/
def StaysVacant (d d' : Device) : Prop := d.Vacant → d'.Vacant

instance : IsPreorder Device StaysVacant where
  refl _ h := h
  trans _ _ _ h h' hd := h' (h hd)

namespace Device

/-- No site of a vacant device holds a cell. -/
theorem Vacant.free {d : Device} (h : d.Vacant) {bel : BelId} {site : Site}
    (hsite : d.site? bel = some site) : site.cell = none := by
  rw [site?, tile?] at hsite
  obtain ⟨tile, htile, hsite⟩ := Option.bind_eq_some_iff.mp hsite
  obtain ⟨t, -, htile⟩ := Option.bind_eq_some_iff.mp htile
  exact h.sites tile (Array.mem_of_getElem? htile) site (Array.mem_of_getElem? hsite)

/-- No cell is found in a vacant device. -/
theorem Vacant.cellAt {d : Device} (h : d.Vacant) (bel : BelId) : d.cellAt bel = none := by
  rw [Device.cellAt]
  cases hsite : d.site? bel with
  | none => rfl
  | some site => exact h.free hsite

/-- A change of the sites of one tile that places nothing. -/
theorem Vacant.of_modify {d : Device} (h : d.Vacant) (t : Nat) {f : Array Site → Array Site}
    (hf : ∀ tile, (∀ site ∈ tile, site.cell = none) → ∀ site ∈ f tile, site.cell = none) :
    ({ d with sites := d.sites.modify t f } : Device).Vacant := by
  refine ⟨h.netlist, fun tile htile => ?_, h.wires⟩
  obtain ⟨i, hi⟩ := Array.mem_iff_getElem?.mp htile
  rw [Array.getElem?_modify] at hi
  split at hi
  · obtain ⟨tile₀, htile₀, rfl⟩ := Option.map_eq_some_iff.mp hi
    exact hf tile₀ (h.sites tile₀ (Array.mem_of_getElem? htile₀))
  · exact h.sites tile (Array.mem_of_getElem? hi)

/-- A change to a site that places no cell leaves the device vacant. -/
theorem Vacant.modifySite {d : Device} (h : d.Vacant) (bel : BelId) {f : Site → Site}
    (hf : ∀ site, (f site).cell = site.cell) : (d.modifySite bel f).Vacant := by
  rw [Device.modifySite]
  split
  · exact h
  · refine h.of_modify _ fun tile htile site hsite => ?_
    obtain ⟨i, hi⟩ := Array.mem_iff_getElem?.mp hsite
    rw [Array.getElem?_modify] at hi
    split at hi
    · obtain ⟨site₀, hsite₀, rfl⟩ := Option.map_eq_some_iff.mp hi
      rw [hf]
      exact htile site₀ (Array.mem_of_getElem? hsite₀)
    · exact htile site (Array.mem_of_getElem? hi)

end Device

namespace Edit

/-! ### Building -/

/-- A change of something else than cells, nets and sites. -/
theorem staysVacant_of_fields {d d' : Device} (hnetlist : d'.netlist = d.netlist)
    (hsites : d'.sites = d.sites) (hwires : d.wires.Plain → d'.wires.Plain) : StaysVacant d d' :=
  fun h => ⟨hnetlist.trans h.netlist, hsites ▸ h.sites, hwires h.wires⟩

/-- Building places nothing and reserves nothing. -/
theorem buildRelation_staysVacant : BuildRelation StaysVacant where
  diagnostics _ _ := staysVacant_of_fields rfl rfl id
  interner _ _ := staysVacant_of_fields rfl rfl id
  labs _ _ := staysVacant_of_fields rfl rfl id
  insertWire _ _ _ name w := staysVacant_of_fields rfl rfl fun h => h.create w name
  pips _ sources dst := staysVacant_of_fields rfl rfl fun h => h.addPips sources dst
  attach _ w pin := staysVacant_of_fields rfl rfl fun h => h.attach w pin
  addSite d t name type bels h := by
    have hpush := h.of_modify t (f := (·.push { name := name, type := type })) (by
      intro tile htile site hsite
      rcases Array.mem_push.mp hsite with hsite | rfl
      · exact htile site hsite
      · rfl)
    exact ⟨hpush.netlist, hpush.sites, hpush.wires⟩
  changeSite _ bel _ hf h := h.modifySite bel hf

/-- A recorded port places no cell and reserves no wire. -/
theorem keeps_recordPort (port : String) (attributes : Table String AttrValue) :
    (recordPort port attributes).Keeps StaysVacant := by
  have hbuild := buildRelation_staysVacant
  have hrecord (f : Device → Table Ident (Table Ident AttrValue)) :
      (modify fun d => { d with ioAttributes := f d } : Edit PUnit).Keeps StaysVacant :=
    .modify fun _ => staysVacant_of_fields rfl rfl id
  refine .bind (hbuild.intern port) fun portId => .bind (hrecord _) fun _ => ?_
  refine .bind (.forM fun entry _ => .bind (hbuild.intern _) fun _ => hrecord _) fun _ => ?_
  split
  · refine .bind .get fun d => ?_
    split
    · exact hbuild.log _
    · exact .pure _
  · exact .pure _

/-- A build keeps a device vacant. -/
theorem keeps_build (layout : Nat → Nat → List BlockKind) : (build layout).Keeps StaysVacant := by
  have hbuild := buildRelation_staysVacant
  refine .bind (hbuild.buildBlocks layout) fun _ => .bind hbuild.importRouting fun _ =>
    .bind .get fun d => ?_
  exact .forM fun entry _ => keeps_recordPort _ _

end Edit

namespace Device

/-- The blank device is vacant. -/
theorem vacant_blank (selection : Selection) (chip : Chip) : (blank selection chip).Vacant := by
  refine ⟨rfl, fun tile htile site hsite => ?_, WireGraph.plain_empty⟩
  obtain ⟨-, rfl⟩ := Array.mem_replicate.mp htile
  exact absurd hsite (Array.not_mem_empty site)

/-- A built device has no cells, no nets and no reservations. -/
theorem vacant_ofSelection {selection : Selection} {d : Device}
    (h : ofSelection selection = .ok d) :
    d.Vacant := by
  obtain ⟨c, -, hrun⟩ := exists_run_build h
  have hkeep := Edit.keeps_build (fun x y => (c.blockAt x y).toList) (blank selection c)
    (vacant_blank selection c)
  rwa [hrun] at hkeep

end Device

end Fabric
