import Fabric.Device.Edit
import Fabric.Device.Pack
import Fabric.Device.PinDefault
import Fabric.Device.Placement
import Fabric.Proofs.Cells
import Fabric.Proofs.ClosedNetlist
import Fabric.Proofs.Hardware
import Fabric.Proofs.Routes
import Fabric.Proofs.Sites

/-!
# Consistent models

A placed cell is recorded by its site and records its site. A model is *consistent* when the two
placements say the same (`Placed`), every cell is one that a design can have, and the netlist is
closed.

A change of a model *evolves* it if it keeps each of the three and leaves the hardware as it is.

## Main results

* `Netlist.Evolves`: the changes of a netlist move no cell, and keep every cell a made one and the
  netlist closed;
* `Device.Evolves`: what every operation on a model does;
* `evolves_moved`, `evolves_removed`: placing a cell, or taking it off its site, changes both
  records.
-/

namespace Fabric

/-- A site before a cell is placed on it. -/
def Site.bare (s : Site) : Site := { s with cell := none }

/-! ### Netlists -/

namespace Netlist

variable {nl nl' nl'' : Netlist}

/-- The site that a cell records. -/
def siteOf (nl : Netlist) (id : CellId) : Option BelId := (nl.cell? id).bind Cell.site

/-- A netlist evolves without moving a cell: made cells stay made ones, and it stays closed. -/
structure Evolves (nl nl' : Netlist) : Prop where
  siteOf : ∀ id, nl'.siteOf id = nl.siteOf id
  made : (∀ id c, nl.cell? id = some c → c.Made) → ∀ id c, nl'.cell? id = some c → c.Made
  closed : ∀ t, nl.Closed t → nl'.Closed t

protected theorem Evolves.refl (nl : Netlist) : nl.Evolves nl :=
  ⟨fun _ => rfl, fun h => h, fun _ h => h⟩

protected theorem Evolves.trans (h : nl.Evolves nl') (h' : nl'.Evolves nl'') : nl.Evolves nl'' :=
  ⟨fun id => (h'.siteOf id).trans (h.siteOf id), fun hd => h'.made (h.made hd),
    fun t ht => h'.closed t (h.closed t ht)⟩

/-- A change of a cell moves no cell if it leaves the site of that cell alone. -/
theorem evolves_modifyCell (nl : Netlist) (id : CellId) {f : Cell → Cell}
    (hsite : ∀ c, (f c).site = c.site)
    (hmade : ∀ c : Cell, nl.cell? id = some c → c.Made → (f c).Made)
    (hclosed : ∀ t, nl.Closed t → (nl.modifyCell id f).Closed t) :
    nl.Evolves (nl.modifyCell id f) := by
  refine ⟨fun id' => ?_, fun hd id' c hc => ?_, hclosed⟩
  · rw [siteOf, cell?_modifyCell, siteOf]
    split
    · cases nl.cell? id' with
      | none => rfl
      | some c => exact hsite c
    · rfl
  · rw [cell?_modifyCell] at hc
    split at hc
    · rename_i heq
      subst heq
      obtain ⟨c₀, hc₀, rfl⟩ := Option.map_eq_some_iff.mp hc
      exact hmade c₀ hc₀ (hd id c₀ hc₀)
    · exact hd id' c hc

/-- Changing what one cell records about its site's pins loses no name and no reference. -/
theorem evolves_modifyCell_of_sameButSitePins (nl : Netlist) (id : CellId) {f : Cell → Cell}
    (h : ∀ c : Cell, c.SameButSitePins (f c)) : nl.Evolves (nl.modifyCell id f) :=
  evolves_modifyCell nl id (fun c => (h c).site) (fun c _ hc => (h c).made hc) fun _ ht =>
    ht.modifyCell id fun c _ hnet => .inl (hnet.of_same (h c).ports (h c).flipFlop)

/-- Changing a net other than in its name loses no name and no reference. -/
theorem evolves_modifyNet (nl : Netlist) (id : NetId) {f : Net → Net}
    (h : ∀ n, (f n).name = n.name) :
    nl.Evolves (nl.modifyNet id f) :=
  ⟨fun _ => rfl, fun hd => hd, fun _ ht => ht.modifyNet id h⟩

/-- A new cell is on no site. -/
theorem evolves_addCell (nl : Netlist) (name type : Ident) :
    nl.Evolves (nl.addCell name type).2 := by
  refine ⟨fun id => ?_, fun hd id c hc => ?_, fun t ht => ht.addCell name type⟩
  · rw [siteOf, cell?_addCell, siteOf]
    split
    · rename_i h
      rw [cell?, Array.getElem?_eq_none (Nat.le_of_eq h.symm)]
      rfl
    · rfl
  · rw [cell?_addCell] at hc
    split at hc
    · obtain rfl := Option.some.inj hc
      exact .new name type
    · exact hd id c hc

/-- Adding a port to a cell that has its name already loses nothing. -/
theorem evolves_addPort (nl : Netlist) (id : CellId) (port : Ident) (dir : PortDir) :
    nl.Evolves (nl.addPort id port dir) :=
  evolves_modifyCell nl id (fun _ => rfl) (fun _ _ hc => hc.addPort port dir) fun _ ht =>
    ht.modifyCell id fun _ _ hnet => .inl (Cell.refersTo_addPort hnet)

/-- A port is pointed at a net that exists, or at none, so that every port still names a net. -/
theorem evolves_setNet (nl : Netlist) (id : CellId) (port : Ident) {net : Option NetId}
    (hnet : ∀ n, net = some n → (nl.net? n).isSome) :
    nl.Evolves (nl.modifyCell id (·.setNet port net)) := by
  refine evolves_modifyCell nl id (fun c => ?_) (fun c _ hc => hc.setNet port net) fun _ ht =>
    ht.modifyCell id fun _ n h => (Cell.refersTo_setNet h).imp_right (hnet n)
  rw [Cell.setNet]
  split <;> rfl

/-- A connection that is made is between a port and a net that both exist. -/
theorem evolves_connect {id : CellId} {port : Ident} {net : NetId}
    (h : nl.connect id port net = .ok nl') : nl.Evolves nl' := by
  rw [connect] at h
  split at h
  · cases h
  split at h
  · cases h
  split at h
  · cases h
  split at h
  · cases h
  rename_i n hn
  have hset : nl.Evolves (nl.modifyCell id (·.setNet port (some net))) :=
    evolves_setNet nl id port fun n' heq => by rw [← Option.some.inj heq, hn, Option.isSome_some]
  dsimp only at h
  split at h
  · split at h
    · cases h
    · obtain rfl := Except.ok.inj h
      exact hset.trans (evolves_modifyNet _ net fun _ => rfl)
  · obtain rfl := Except.ok.inj h
    exact hset.trans (evolves_modifyNet _ net fun _ => rfl)

/-- A disconnection only takes a reference away. -/
theorem evolves_disconnect (nl : Netlist) (id : CellId) (port : Ident) :
    nl.Evolves (nl.disconnect id port) := by
  rw [disconnect]
  split
  · exact .refl nl
  · have hset : nl.Evolves (nl.modifyCell id (·.setNet port none)) :=
      evolves_setNet nl id port nofun
    exact hset.trans (evolves_modifyNet _ _ fun _ => rfl)

end Netlist

namespace Device

/-! ### Models -/

/-- The two records of every placement agree: a site has a cell when the cell has the site. -/
def Placed (d : Device) : Prop := ∀ bel id, d.cellAt bel = some id ↔ d.netlist.siteOf id = some bel

/-- Every cell is a made one. -/
def CellsMade (d : Device) : Prop := ∀ id c, d.netlist.cell? id = some c → c.Made

/-- The two records of every placement agree, every cell is a made one, and the
netlist is closed. -/
structure Consistent (d : Device) : Prop where
  placed : ∀ bel id, d.cellAt bel = some id ↔ d.netlist.siteOf id = some bel
  made : ∀ id c, d.netlist.cell? id = some c → c.Made
  closed : d.netlist.Closed d.interner

/-- A model evolves on its hardware and its sites, and keeps what makes it consistent. -/
structure Evolves (d d' : Device) : Prop where
  hardware : d'.hardware = d.hardware
  sites : ∀ bel, (d'.site? bel).map Site.bare = (d.site? bel).map Site.bare
  placed : d.Placed → d'.Placed
  cellsMade : d.CellsMade → d'.CellsMade
  closed : d.netlist.Closed d.interner → d'.netlist.Closed d'.interner

namespace Evolves

variable {d d' d'' : Device}

protected theorem refl (d : Device) : d.Evolves d :=
  ⟨rfl, fun _ => rfl, fun h => h, fun h => h, fun h => h⟩

protected theorem trans (h : d.Evolves d') (h' : d'.Evolves d'') : d.Evolves d'' where
  hardware := h'.hardware.trans h.hardware
  sites bel := (h'.sites bel).trans (h.sites bel)
  placed hd := h'.placed (h.placed hd)
  cellsMade hd := h'.cellsMade (h.cellsMade hd)
  closed hd := h'.closed (h.closed hd)

/-- What evolves from a consistent model is consistent. -/
theorem consistent (h : d.Evolves d') (hd : d.Consistent) : d'.Consistent :=
  ⟨h.placed hd.placed, h.cellsMade hd.made, h.closed hd.closed⟩

instance : IsPreorder Device Evolves where
  refl := Evolves.refl
  trans _ _ _ := Evolves.trans

/-- A change of the netlist alone is an evolution of the model when it is one of the netlist. -/
theorem of_netlist {nl : Netlist} (h : d.netlist.Evolves nl) :
    d.Evolves { d with netlist := nl } :=
  ⟨rfl, fun _ => rfl, fun hd bel id => (hd bel id).trans (by rw [h.siteOf]), h.made, h.closed _⟩

/-- A name is put into use, and nets are added under names in use. -/
theorem of_intern (s : String) {nl : Netlist} (hcells : nl.cells = d.netlist.cells)
    (hclosed : d.netlist.Closed (d.interner.intern s).2 → nl.Closed (d.interner.intern s).2) :
    d.Evolves { d with interner := (d.interner.intern s).2, netlist := nl } := by
  have hcell : nl.cell? = d.netlist.cell? := by
    funext id
    rw [Netlist.cell?, hcells, Netlist.cell?]
  refine ⟨rfl, fun _ => rfl, fun hd bel id => ?_, fun hd => ?_, fun hd => hclosed (hd.intern s)⟩
  · show d.cellAt bel = some id ↔ nl.siteOf id = some bel
    rw [Netlist.siteOf, hcell]
    exact hd bel id
  · rw [CellsMade, hcell]
    exact hd

/-- Reservations and records are no part of a placement. -/
theorem of_sameDesign (h : SameDesign d d') : d.Evolves d' := by
  refine ⟨?_, fun bel => ?_, fun hd bel id => ?_, fun hd => ?_, fun hd => ?_⟩
  · rw [Device.hardware, Device.hardware, h.chip, h.uphill, h.labs]
  · rw [site?_eq_of_sites h.chip h.sites]
  · rw [h.cellAt, h.netlist]
    exact hd bel id
  · rw [CellsMade, h.netlist]
    exact hd
  · rw [h.netlist, h.interner]
    exact hd

/-- A change to a LAB that keeps its sites and its hardware is an evolution. -/
theorem of_modifyLab (lab : Nat) {f : Lab → Lab} (h : ∀ l, (f l).bare = l.bare) :
    d.Evolves { d with labs := d.labs.modify lab f } := by
  refine ⟨?_, fun _ => rfl, fun hd => hd, fun hd => hd, fun hd => hd⟩
  have hlabs : (d.labs.modify lab f).map Lab.bare = d.labs.map Lab.bare := by
    apply Array.ext_getElem?
    intro i
    rw [Array.getElem?_map, Array.getElem?_map, Array.getElem?_modify]
    split
    · rw [Option.map_map, show Lab.bare ∘ f = Lab.bare from funext h]
    · rfl
  rw [Device.hardware, Device.hardware, hlabs]

/-- The mode of an ALM is no part of the hardware. -/
theorem of_modifyAlm (lab alm : Nat) (fused : Bool) :
    d.Evolves { d with labs := d.labs.modify lab fun l => { l with
      alms := l.alms.modify alm fun a => { a with fused := fused } } } := by
  refine of_modifyLab lab fun l => ?_
  rw [Lab.bare, Lab.bare, Lab.mk.injEq]
  refine ⟨rfl, ?_, rfl, rfl⟩
  apply Array.ext_getElem?
  intro i
  rw [Array.getElem?_map, Array.getElem?_map, Array.getElem?_modify]
  split
  · rw [Option.map_map]
    rfl
  · rfl

end Evolves

/-! ### Moving a cell -/

variable {d : Device} {bel : BelId} {id : CellId}

/-- A change of the occupant of a site changes no site otherwise. -/
theorem bare_site?_modifySite (d : Device) (bel b : BelId) (cell : Option CellId) :
    ((d.modifySite bel fun s => { s with cell := cell }).site? b).map Site.bare =
      (d.site? b).map Site.bare := by
  rw [site?_modifySite]
  split
  · rw [Option.map_map]
    rfl
  · rfl

/-- Only the changed site can hold another cell than before. -/
theorem cellAt_modifySite (d : Device) (bel b : BelId) (f : Site → Site) :
    (d.modifySite bel f).cellAt b =
      if bel = b then (d.site? b).bind fun s => (f s).cell else d.cellAt b := by
  rw [cellAt, site?_modifySite]
  split
  · rw [Option.bind_map]
    rfl
  · rfl

/-- The model after a site, if one is given, was cleared. -/
def cleared (d : Device) : Option BelId → Device
  | some old => d.modifySite old fun s => { s with cell := none }
  | none => d

/-- Clearing the old site of a cell empties that site and no other. -/
theorem cellAt_cleared (d : Device) (old : Option BelId) (b : BelId) :
    (d.cleared old).cellAt b = if old = some b then none else d.cellAt b := by
  cases old with
  | none => rfl
  | some old =>
      rw [cleared, cellAt_modifySite]
      simp only [Option.some.injEq]
      split
      · cases d.site? b <;> rfl
      · rfl

/-- Clearing removes no site. -/
theorem isSome_site?_cleared (d : Device) (old : Option BelId) (b : BelId) :
    ((d.cleared old).site? b).isSome = (d.site? b).isSome := by
  cases old with
  | none => rfl
  | some old =>
      rw [cleared, site?_modifySite]
      split
      · rw [Option.isSome_map]
      · rfl

/-- The model after a cell was put on a site, away from the site that it was on. -/
def moved (d : Device) (bel : BelId) (id : CellId) (old : Option BelId) : Device :=
  { (d.cleared old).modifySite bel fun s => { s with cell := some id } with
    netlist := d.netlist.modifyCell id fun c => { c with site := some bel } }

/-- After a move the cell stands at its new site, its old site is empty and every other
site is as it was. -/
theorem cellAt_moved (hsite : (d.site? bel).isSome) (old : Option BelId) (b : BelId) :
    (d.moved bel id old).cellAt b =
      if bel = b then some id else if old = some b then none else d.cellAt b := by
  have hcell (nl : Netlist) (d : Device) :
      ({ d with netlist := nl } : Device).cellAt b = d.cellAt b :=
    rfl
  rw [moved, hcell, cellAt_modifySite, cellAt_cleared]
  split
  · rename_i heq
    rw [← isSome_site?_cleared d old] at hsite
    obtain ⟨s, hs⟩ := Option.isSome_iff_exists.mp hsite
    rw [← heq, hs, Option.bind_some]
  · rfl

/-- A move changes no site but in the cell it holds. -/
theorem bare_site?_moved (d : Device) (bel : BelId) (id : CellId) (old : Option BelId) (b : BelId) :
    ((d.moved bel id old).site? b).map Site.bare = (d.site? b).map Site.bare := by
  cases old with
  | none => exact bare_site?_modifySite d bel b (some id)
  | some old =>
      exact (bare_site?_modifySite (d.cleared (some old)) bel b (some id)).trans
        (bare_site?_modifySite d old b none)

/-- A move touches no hardware. -/
theorem hardware_moved (d : Device) (bel : BelId) (id : CellId) (old : Option BelId) :
    (d.moved bel id old).hardware = d.hardware := by
  cases old <;> simp [moved, cleared, hardware]

/-- Placing a cell changes the site of that cell only. -/
theorem siteOf_modifyCell (nl : Netlist) (id i : CellId) (site : Option BelId) :
    (nl.modifyCell id fun c => { c with site := site }).siteOf i =
      if id = i then (nl.cell? i).bind fun _ => site else nl.siteOf i := by
  rw [Netlist.siteOf, Netlist.cell?_modifyCell]
  split
  · rw [Option.bind_map]
    rfl
  · rfl

/-- Placing a cell keeps every cell well made. -/
theorem made_modifyCell {nl : Netlist} (h : ∀ i c, nl.cell? i = some c → c.Made) (id : CellId)
    (site : Option BelId) (i : CellId) (c : Cell)
    (hc : (nl.modifyCell id fun c => { c with site := site }).cell? i = some c) : c.Made := by
  rw [Netlist.cell?_modifyCell] at hc
  split at hc
  · obtain ⟨c₀, hc₀, rfl⟩ := Option.map_eq_some_iff.mp hc
    exact (h i c₀ hc₀).site site
  · exact h i c hc

/-- A move keeps every name of the netlist known to the interner. -/
theorem closed_moved (h : d.netlist.Closed d.interner) (bel : BelId) (id : CellId)
    (old : Option BelId) :
    (d.moved bel id old).netlist.Closed (d.moved bel id old).interner := by
  have hinterner : (d.moved bel id old).interner = d.interner := by
    cases old <;> simp [moved, cleared]
  rw [hinterner]
  exact h.modifyCell id fun _ _ => .inl

/-- A cell is moved to a free site in both records. -/
theorem evolves_moved {site : Site} {cell : Cell} (hsite : d.site? bel = some site)
    (hfree : site.cell = none) (hcell : d.netlist.cell? id = some cell) :
    d.Evolves (d.moved bel id cell.site) := by
  refine ⟨hardware_moved d bel id cell.site, bare_site?_moved d bel id cell.site,
    fun hd b i => ?_, fun hd => made_modifyCell hd id (some bel),
    fun hd => closed_moved hd bel id cell.site⟩
  have hvacant : d.cellAt bel = none := by rw [cellAt, hsite, Option.bind_some, hfree]
  have hold : d.netlist.siteOf id = cell.site := by rw [Netlist.siteOf, hcell, Option.bind_some]
  rw [cellAt_moved (by rw [hsite, Option.isSome_some]), moved, siteOf_modifyCell]
  by_cases hb : bel = b
  · subst hb
    by_cases hi : id = i
    · subst hi
      simp [hcell]
    · have hnot : d.netlist.siteOf i ≠ some bel := fun hs => by
        rw [← hd, hvacant] at hs
        cases hs
      simp [hi, hnot]
  · by_cases hi : id = i
    · subst hi
      have hnot : cell.site ≠ some b → d.cellAt b ≠ some id := fun hne hs => by
        rw [hd, hold] at hs
        exact hne hs
      simp only [if_neg hb, if_true, hcell, Option.bind_some, Option.some.injEq]
      refine iff_of_false ?_ hb
      split
      · simp
      · rename_i hne
        exact hnot hne
    · rw [if_neg hb, if_neg hi, ← hd]
      split
      · rename_i heq
        have hat : d.cellAt b = some id := (hd b id).mpr (hold.trans heq)
        simp [hat, hi]
      · exact Iff.rfl

/-- A cell is taken off its site in both records. -/
theorem evolves_removed (hat : d.cellAt bel = some id) :
    d.Evolves { d.modifySite bel fun s => { s with cell := none } with
      netlist := d.netlist.modifyCell id fun c => { c with site := none } } := by
  refine ⟨by simp [hardware], fun b => bare_site?_modifySite d bel b none, fun hd b i => ?_,
    fun hd => made_modifyCell hd id none,
    fun hd => (modifySite_interner d bel _).symm ▸ hd.modifyCell id fun _ _ => .inl⟩
  have hcell (nl : Netlist) (d : Device) :
      ({ d with netlist := nl } : Device).cellAt b = d.cellAt b :=
    rfl
  have hon := (hd bel id).mp hat
  rw [hcell, cellAt_modifySite, siteOf_modifyCell]
  by_cases hb : bel = b
  · subst hb
    have hnot : ¬ id = i → d.netlist.siteOf i ≠ some bel := fun hi hs => by
      rw [← hd, hat] at hs
      exact hi (Option.some.inj hs)
    by_cases hi : id = i
    · cases d.site? bel <;> simp [hi]
    · cases d.site? bel <;> simp [hi, hnot hi]
  · by_cases hi : id = i
    · subst hi
      have hnot : d.cellAt b ≠ some id := fun hs => by
        rw [hd, hon] at hs
        exact hb (Option.some.inj hs)
      simp [hb, hnot]
    · rw [if_neg hb, if_neg hi, hd]

end Device

end Fabric
