import Fabric.Proofs.CrossReferences
import Fabric.Proofs.WiringRun

/-!
# Runs of site calls

Sites, pins of sites, wires and pips can be added to a device at any time. A `SiteRun` is a device
to which such calls have led, each of which was answered. After any run the records that a device
keeps twice are in step, and a location leads to a site exactly if the tile has a site of this
number.

A tile has room for 65536 sites, as many as handles tell apart. One site more, and a new site gets
the handle of the first.

## Main results

* `Edit.run_addBel_eq_ok_iff`, `Edit.run_addBelPin_eq_ok_iff`: when a call is answered, and how;
* `SiteRun.crossReferenced`: a run keeps the records in step;
* `Device.belAt?_eq_some_iff`: what a location leads to;
* `SiteRun.sites_agree`: all views of sites and pins agree after a run.
-/

namespace Fabric

/-! ### Calls -/

namespace Edit

variable {d d' : Device}

/-- A call for a site is answered if the tile is on the grid. The site comes last in its tile. -/
theorem run_addBel_eq_ok_iff {x y : Nat} {name type : Ident} {bel : BelId} :
    (addBel x y name type).run d = (.ok bel, d') ↔
      ∃ tile t, d.tile? x y = some tile ∧ d.tileIndex? x y = some t ∧
        bel = siteNumber x y tile.size ∧
        d' = { d with
          sites := d.sites.modify t (·.push { name := name, type := type })
          bels := d.bels.push (siteNumber x y tile.size) } := by
  rw [addBel, run_get_bind, run_get_bind]
  cases htile : d.tile? x y with
  | none =>
    refine iff_of_false (fun h => ?_) (by simp)
    cases h
  | some tile =>
    obtain ⟨t, hindex, -⟩ := Option.bind_eq_some_iff.mp htile
    simp only [hindex, Option.some.injEq]
    rw [run_modify_bind, run_pure, Prod.mk.injEq, Except.ok.injEq]
    constructor
    · rintro ⟨rfl, rfl⟩
      exact ⟨tile, t, rfl, rfl, rfl, rfl⟩
    · rintro ⟨_, _, rfl, rfl, rfl, rfl⟩
      exact ⟨rfl, rfl⟩

/-- A call for a pin is answered if the site exists and has no pin of the name. -/
theorem run_addBelPin_eq_ok_iff {bel : BelId} {pin : Ident} {dir : PortDir} {wire : Wire} :
    (addBelPin bel pin dir wire).run d = (.ok (), d') ↔
      ∃ site, d.site? bel = some site ∧ site.pins.get? pin = none ∧
        d' = { d.modifySite bel fun s => { s with pins := s.pins.insert pin ⟨wire, dir⟩ } with
          wires := d.wires.attach wire ⟨bel, pin⟩ } := by
  rw [addBelPin, run_get_bind]
  cases d.site? bel with
  | none =>
    refine iff_of_false (fun h => ?_) (by simp)
    cases h
  | some site =>
    simp only [Option.some.injEq, exists_eq_left']
    cases hpin : site.pins.get? pin with
    | some p =>
      simp only [Table.contains, hpin, Option.isSome_some, if_true]
      refine iff_of_false (fun h => ?_) (by simp)
      cases h
    | none =>
      simp only [Table.contains, hpin, Option.isSome_none, Bool.false_eq_true, if_false, true_and]
      rw [run_modify_bind, run_modify, Device.modifySite_wires, Prod.mk.injEq, eq_comm (a := d')]
      exact and_iff_right rfl

/-- A call for a site adds it to the end of its tile. -/
theorem belsIn?_of_run_addBel {x y : Nat} {name type : Ident} {bel : BelId}
    (hrun : (addBel x y name type).run d = (.ok bel, d')) (x' y' : Nat) :
    d'.belsIn? x' y' =
      if x = x' ∧ y = y' then (d.belsIn? x' y').map (· ++ [bel]) else d.belsIn? x' y' := by
  obtain ⟨tile, t, htile, hindex, rfl, rfl⟩ := run_addBel_eq_ok_iff.mp hrun
  exact Device.belsIn?_push htile hindex _ _ x' y'

/-- A call for a pin adds no site. -/
theorem belsIn?_of_run_addBelPin {bel : BelId} {pin : Ident} {dir : PortDir} {wire : Wire}
    (hrun : (addBelPin bel pin dir wire).run d = (.ok (), d')) (x y : Nat) :
    d'.belsIn? x y = d.belsIn? x y := by
  obtain ⟨site, -, -, rfl⟩ := run_addBelPin_eq_ok_iff.mp hrun
  exact Device.belsIn?_congr (Device.size_tile?_modifySite d bel _ x y)

end Edit

/-- Calls that add sites, pins of sites, wires and pips lead from one device to another. -/
inductive SiteRun (d₀ : Device) : Device → Prop where
  | start : SiteRun d₀ d₀
  | site {d d' : Device} {x y : Nat} {name type : Ident} {bel : BelId} (h : SiteRun d₀ d)
      (hrun : (Edit.addBel x y name type).run d = (.ok bel, d')) : SiteRun d₀ d'
  | pin {d d' : Device} {bel : BelId} {pin : Ident} {dir : PortDir} {wire : Wire} (h : SiteRun d₀ d)
      (hrun : (Edit.addBelPin bel pin dir wire).run d = (.ok (), d')) : SiteRun d₀ d'
  | wire {d d' : Device} {x y : Nat} {name : Ident} {flags : UInt64} {w : Wire} (h : SiteRun d₀ d)
      (hrun : (Edit.addWire x y name flags).run d = (.ok w, d')) : SiteRun d₀ d'
  | pip {d d' : Device} {src dst : Wire} (h : SiteRun d₀ d)
      (hrun : (Edit.addPip src dst).run d = (.ok (), d')) : SiteRun d₀ d'

namespace SiteRun

variable {d₀ d : Device}

/-- No site operation changes the chip. -/
theorem chip (h : SiteRun d₀ d) : d.chip = d₀.chip := by
  induction h with
  | start => rfl
  | site _ hrun ih =>
    obtain ⟨_, _, -, -, -, rfl⟩ := Edit.run_addBel_eq_ok_iff.mp hrun
    exact ih
  | pin _ hrun ih =>
    obtain ⟨_, -, -, rfl⟩ := Edit.run_addBelPin_eq_ok_iff.mp hrun
    exact (Device.modifySite_chip ..).trans ih
  | wire _ hrun ih =>
    obtain ⟨-, ⟨-, rfl⟩ | ⟨-, -, rfl⟩⟩ := Edit.run_addWire_eq_ok_iff.mp hrun
    · exact ih
    · exact ih
  | pip _ hrun ih =>
    obtain rfl := Edit.run_addPip_eq_ok_iff.mp hrun
    exact ih

/-- A run keeps the records of sites and pins in step. -/
theorem crossReferenced (h : SiteRun d₀ d) (hd₀ : d₀.CrossReferenced) : d.CrossReferenced := by
  induction h with
  | start => exact hd₀
  | site _ hrun ih =>
    obtain ⟨tile, t, htile, hindex, -, rfl⟩ := Edit.run_addBel_eq_ok_iff.mp hrun
    exact ih.addSite htile hindex rfl
  | pin _ hrun ih =>
    obtain ⟨site, hsite, hnew, rfl⟩ := Edit.run_addBelPin_eq_ok_iff.mp hrun
    exact ih.addPin hsite hnew _
  | wire _ hrun ih =>
    obtain ⟨-, ⟨-, rfl⟩ | ⟨-, -, rfl⟩⟩ := Edit.run_addWire_eq_ok_iff.mp hrun
    · exact ih
    · exact ih.insertWire ..
  | pip _ hrun ih =>
    obtain rfl := Edit.run_addPip_eq_ok_iff.mp hrun
    exact ih.addPip ..

end SiteRun

/-! ### Locations -/

namespace Device

variable {d : Device} {x y z : Nat} {bel : BelId}

/-- A location leads to the site of its number, if its tile is on the grid and has so many sites. -/
theorem belAt?_eq_some_iff {loc : Loc} : d.belAt? loc = some bel ↔
    ∃ x y z : Nat, loc = ⟨x, y, z⟩ ∧ ∃ l, d.belsIn? x y = some l ∧ l[z]? = some bel := by
  have hnat (x y z : Nat) :
      d.belAt? ⟨x, y, z⟩ = some bel ↔ ∃ l, d.belsIn? x y = some l ∧ l[z]? = some bel := by
    simp only [belAt?, belsIn?]
    cases d.tile? x y with
    | none => simp
    | some tile =>
      simp only [Option.map_some, Option.some.injEq, exists_eq_left', List.getElem?_map]
      by_cases hz : z < tile.size
      · rw [if_pos hz, List.getElem?_range hz, Option.map_some]
      · rw [if_neg hz, List.getElem?_eq_none (by simpa using hz), Option.map_none]
  constructor
  · intro h
    obtain ⟨x | x, y | y, z | z⟩ := loc
    case ofNat.ofNat.ofNat => exact ⟨x, y, z, rfl, (hnat x y z).mp h⟩
    -- a coordinate below zero leads nowhere
    all_goals cases h
  · rintro ⟨x, y, z, rfl, h⟩
    exact (hnat x y z).mpr h

/-- The sites of a tile are known for the tiles of the grid. -/
theorem CrossReferenced.exists_belsIn?_iff (h : d.CrossReferenced) :
    (∃ l, d.belsIn? x y = some l) ↔ x < d.chip.width ∧ y < d.chip.height := by
  rw [← Chip.mem_tiles]
  constructor
  · rintro ⟨l, hl⟩
    obtain ⟨tile, htile, -⟩ := Option.map_eq_some_iff.mp hl
    exact mem_tiles_of_tile? htile
  · intro hmem
    obtain ⟨tile, htile⟩ := h.tiles x y (Chip.contains_iff.mpr hmem)
    exact ⟨_, congrArg (Option.map _) htile⟩

/-- A site is where its handle says. -/
theorem HasRoom.locationOf (hroom : d.HasRoom) {l : List BelId} (hl : d.belsIn? x y = some l)
    (hz : l[z]? = some bel) : Device.locationOf bel = ⟨x, y, z⟩ := by
  obtain ⟨tile, htile, rfl⟩ := Option.map_eq_some_iff.mp hl
  rw [List.getElem?_map, Option.map_eq_some_iff] at hz
  obtain ⟨n, hn, rfl⟩ := hz
  obtain ⟨hlt, rfl⟩ := eq_of_getElem?_range hn
  have hr := hroom.fits.inRange (mem_tiles_of_tile? htile)
  have hnumber : n.toUInt16.toNat = n := UInt16.toNat_ofNat_of_lt' (hroom.lt_siteCount htile hlt)
  rw [Device.locationOf, Pos.x_pack hr.x_lt hr.y_lt, Pos.y_pack hr.x_lt hr.y_lt, hnumber]

end Device

/-! ### All views of sites and pins -/

/-- Whatever sites, pins, wires and pips have been added to a built device, its views of sites and
pins agree, as long as no tile has more than 65536 sites. A pin of a site is on a wire exactly if
the wire lists it, and no wire lists a pin twice. The list of all sites names each site that there
is once, and they are the sites of the tiles. The sites of a tile are known exactly inside the grid;
a location leads to a site exactly if its tile is inside the grid and has so many sites; and then
the site is the one that the tile lists at this place, and is where the location says. -/
theorem SiteRun.sites_agree {selection : Selection} {d₀ d : Device}
    (hd₀ : Device.ofSelection selection = .ok d₀) (hrun : SiteRun d₀ d)
    (hsize : ∀ x y l, d.belsIn? x y = some l → l.length ≤ siteCount) :
    (∀ bel pin w, (d.belPin? bel pin).map SitePin.wire = some w ↔
      ∃ info, d.wireInfo w = .ok info ∧ ⟨bel, pin⟩ ∈ info.belPins) ∧
    (∀ w info, d.wireInfo w = .ok info → info.belPins.toList.Nodup) ∧
    d.bels.toList.Nodup ∧
    (∀ bel, bel ∈ d.bels ↔ ∃ site, d.siteInfo bel = .ok site) ∧
    (∀ bel, bel ∈ d.bels ↔ ∃ x y l, d.belsIn? x y = some l ∧ bel ∈ l) ∧
    (∀ x y, (∃ l, d.belsIn? x y = some l) ↔ x < d.chip.width ∧ y < d.chip.height) ∧
    (∀ loc, (∃ bel, d.belAt? loc = some bel) ↔
      ∃ x y z : Nat, loc = ⟨x, y, z⟩ ∧ ∃ l, d.belsIn? x y = some l ∧ z < l.length) ∧
    ∀ loc bel, d.belAt? loc = some bel → Device.locationOf bel = loc ∧
      ∃ l, d.belsIn? loc.x.toNat loc.y.toNat = some l ∧ l[loc.z.toNat]? = some bel := by
  obtain ⟨c, hfits, hbuilt⟩ := Device.isBuilt_of_ofSelection hd₀
  have hcross := hrun.crossReferenced (Device.crossReferenced_of_ofSelection hd₀)
  have hroom : d.HasRoom := ⟨by rwa [hrun.chip, hbuilt.chip], hsize⟩
  refine ⟨fun bel pin w => hcross.belPin?_iff, fun w info => hcross.nodup_belPins,
    hcross.nodup_bels hroom, fun bel => ?_, fun bel => hcross.mem_bels_iff,
    fun x y => hcross.exists_belsIn?_iff, fun loc => ?_, fun loc bel h => ?_⟩
  · rw [hcross.mem_bels_iff, ← hroom.exists_site?_iff]
    exact exists_congr fun site => Device.siteInfo_eq_ok_iff.symm
  · simp only [Device.belAt?_eq_some_iff]
    constructor
    · rintro ⟨bel, x, y, z, hloc, l, hl, hz⟩
      exact ⟨x, y, z, hloc, l, hl, (List.getElem?_eq_some_iff.mp hz).1⟩
    · rintro ⟨x, y, z, hloc, l, hl, hz⟩
      exact ⟨l[z], x, y, z, hloc, l, hl, List.getElem?_eq_getElem hz⟩
  · obtain ⟨x, y, z, rfl, l, hl, hz⟩ := Device.belAt?_eq_some_iff.mp h
    exact ⟨hroom.locationOf hl hz, l, hl, hz⟩

/-- A fifth site for the I/O block in the corner of the smallest grid, with a pin on a global clock.
The wire lists the pin, and the location after the four sites of the block leads to the new one. -/
theorem SiteRun.sites_agree_smallest : ∃ d₀ d bel, Device.ofSelection (.ofGrid 3 2) = .ok d₀ ∧
    SiteRun d₀ d ∧ (d.belPin? bel Known.a).map SitePin.wire = some (Chip.gclk 0) ∧
    (∃ info, d.wireInfo (Chip.gclk 0) = .ok info ∧ ⟨bel, Known.a⟩ ∈ info.belPins ∧
      info.belPins.toList.Nodup) ∧
    bel ∈ d.bels ∧ d.belAt? ⟨0, 0, 4⟩ = some bel ∧ Device.locationOf bel = ⟨0, 0, 4⟩ := by
  obtain ⟨d₀, hd₀, hbuilt⟩ := Device.exists_ofSelection Device.chip_smallestGrid
  obtain ⟨tile, htile, hfour⟩ : ∃ tile, d₀.tile? 0 0 = some tile ∧ tile.size = 4 :=
    Option.map_eq_some_iff.mp (hbuilt.sized (0, 0) (by decide))
  obtain ⟨t, hindex, -⟩ := Option.bind_eq_some_iff.mp htile
  let bel : BelId := siteNumber 0 0 4
  let d₁ : Device := { d₀ with
    sites := d₀.sites.modify t (·.push { name := Known.q, type := Known.ioSite })
    bels := d₀.bels.push bel }
  let connect (site : Site) : Site :=
    { site with pins := site.pins.insert Known.a ⟨Chip.gclk 0, .input⟩ }
  let d : Device := { d₁.modifySite bel connect with
    wires := d₁.wires.attach (Chip.gclk 0) ⟨bel, Known.a⟩ }
  have hadd : (Edit.addBel 0 0 Known.q Known.ioSite).run d₀ = (.ok bel, d₁) :=
    Edit.run_addBel_eq_ok_iff.mpr ⟨tile, t, htile, hindex, by rw [hfour], by rw [hfour]⟩
  have hsite : d₁.site? bel = some { name := Known.q, type := Known.ioSite } := by
    have htile₁ : d₁.tile? 0 0 = _ := Device.tile?_modify hindex _ 0 0
    rw [Device.site?_siteNumber d₁ (by decide) (by decide) (by decide), htile₁,
      if_pos ⟨rfl, rfl⟩, htile, Option.map_some, Option.bind_some, Array.getElem?_push,
      if_pos hfour.symm]
  have hattach : (Edit.addBelPin bel Known.a .input (Chip.gclk 0)).run d₁ = (.ok (), d) :=
    Edit.run_addBelPin_eq_ok_iff.mpr ⟨_, hsite, rfl, rfl⟩
  have hbels (x y : Nat) : d.belsIn? x y =
      if 0 = x ∧ 0 = y then (d₀.belsIn? x y).map (· ++ [bel]) else d₀.belsIn? x y :=
    (Edit.belsIn?_of_run_addBelPin hattach x y).trans (Edit.belsIn?_of_run_addBel hadd x y)
  have hsize : ∀ x y l, d.belsIn? x y = some l → l.length ≤ siteCount := by
    intro x y l hl
    rw [hbels] at hl
    split at hl
    · obtain ⟨l₀, hl₀, rfl⟩ := Option.map_eq_some_iff.mp hl
      have hlt := hbuilt.length_belsIn?_lt hl₀
      rw [List.length_append, List.length_singleton]
      omega
    · exact Nat.le_of_lt (hbuilt.length_belsIn?_lt hl)
  obtain ⟨hpins, hnodup, -, -, hlisted, -, -, hloc⟩ :=
    SiteRun.sites_agree hd₀ (.pin (.site .start hadd) hattach) hsize
  have hpin : (d.belPin? bel Known.a).map SitePin.wire = some (Chip.gclk 0) :=
    congrArg (Option.map SitePin.wire) (Device.belPin?_modifySite d₁ hsite connect bel Known.a)
  obtain ⟨info, hinfo, hmem⟩ := (hpins bel Known.a (Chip.gclk 0)).mp hpin
  have hlast : ∃ l, d.belsIn? 0 0 = some l ∧ l[4]? = some bel := by
    rw [hbels, if_pos ⟨rfl, rfl⟩, Device.belsIn?, htile, Option.map_some, Option.map_some, hfour]
    exact ⟨_, rfl, rfl⟩
  have hat : d.belAt? ⟨0, 0, 4⟩ = some bel := Device.belAt?_eq_some_iff.mpr ⟨0, 0, 4, rfl, hlast⟩
  obtain ⟨l, hl, hget⟩ := hlast
  exact ⟨d₀, d, bel, hd₀, .pin (.site .start hadd) hattach, hpin,
    ⟨info, hinfo, hmem, hnodup _ info hinfo⟩,
    (hlisted bel).mpr ⟨0, 0, l, hl, List.mem_of_getElem? hget⟩, hat, (hloc _ bel hat).1⟩

end Fabric
