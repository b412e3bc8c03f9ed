import Fabric.Proofs.DeviceNames

/-!
# Pins, wires and lists of sites

A pin of a site is stored twice: with the site, which knows the wire, and on the wire, which lists
its pins. A site is stored twice as well: in its tile, by number, and in the list of all sites.
Three changes matter to these records, a new site, a new pin of a site, and anything else, and each
keeps them in step. So they are in step in every built device.

How many pins a wire lists under a name is said by counting, with no bound on the number of sites.
That handles tell the sites of a tile apart takes such a bound: a tile may have 65536 of them.

## Main results

* `CrossReferenced.addSite`, `CrossReferenced.addPin`, `CrossReferenced.of_same`: what keeps the
  records in step;
* `Builds.crossReferenced`: the records of a built device are in step;
* `CrossReferenced.belPin?_iff`: a pin is found at its site exactly if its wire lists it, once;
* `CrossReferenced.nodup_bels`, `CrossReferenced.mem_bels_iff`: every site is listed, and once.
-/

namespace Fabric

/-- A list for each entry, of which one grows by an element. -/
theorem flatMap_perm_concat {α β : Type} {l : List α} (hl : l.Nodup) {a : α} (ha : a ∈ l)
    {f g : α → List β} {b : β} (hself : g a = f a ++ [b]) (hother : ∀ a' ≠ a, g a' = f a') :
    (l.flatMap g).Perm (l.flatMap f ++ [b]) := by
  obtain ⟨before, after, rfl⟩ := List.append_of_mem ha
  rw [List.nodup_append] at hl
  have hbefore : before.flatMap g = before.flatMap f := List.flatMap_congr fun a' ha' =>
    hother a' (hl.2.2 a' ha' a List.mem_cons_self)
  have hafter : after.flatMap g = after.flatMap f := List.flatMap_congr fun a' ha' =>
    hother a' fun heq => (List.nodup_cons.mp hl.2.1).1 (heq ▸ ha')
  rw [List.flatMap_append, List.flatMap_append, List.flatMap_cons, List.flatMap_cons, hbefore,
    hafter, hself, List.append_assoc, List.append_assoc, List.append_assoc]
  refine List.Perm.append_left _ (List.Perm.append_left _ ?_)
  exact List.perm_append_comm

namespace Device

/-- The sites of a tile, in order; there are none outside the grid. -/
def sitesIn (d : Device) (t : Nat × Nat) : List BelId := (d.belsIn? t.1 t.2).getD []

/-- Sites and wires refer to each other, and the sites are listed. -/
structure CrossReferenced (d : Device) : Prop where
  /-- A wire lists the pins that are on it, each once. -/
  pins : ∀ w bel name, (d.wires.infoOf w).belPins.toList.count ⟨bel, name⟩ =
    if (d.belPin? bel name).map SitePin.wire = some w then 1 else 0
  /-- Every tile of the grid has sites, if none yet. -/
  tiles : ∀ x y, d.chip.contains x y = true → ∃ tile, d.tile? x y = some tile
  /-- The sites listed are those of the tiles. -/
  bels : d.bels.toList.Perm (d.chip.tiles.flatMap d.sitesIn)

variable {d d' : Device} {bel : BelId} {name : Ident}

/-! ### Changes -/

/-- A tile has the sites that it had if its table is as long. -/
theorem belsIn?_congr {x y : Nat}
    (h : (d'.tile? x y).map Array.size = (d.tile? x y).map Array.size) :
    d'.belsIn? x y = d.belsIn? x y := by
  have hbels (d : Device) : d.belsIn? x y =
      ((d.tile? x y).map Array.size).map fun size => (List.range size).map (siteNumber x y) := by
    rw [Option.map_map]
    rfl
  rw [hbels, hbels, h]

/-- The sites of a tile are numbered from zero up to its count. -/
theorem sitesIn_eq_map (d : Device) (t : Nat × Nat) :
    d.sitesIn t = (List.range (((d.tile? t.1 t.2).map Array.size).getD 0)).map
      (siteNumber t.1 t.2) := by
  rw [sitesIn, belsIn?]
  cases d.tile? t.1 t.2 <;> rfl

/-- The sites of a tile depend on their count alone. -/
theorem sitesIn_congr {t : Nat × Nat}
    (h : (d'.tile? t.1 t.2).map Array.size = (d.tile? t.1 t.2).map Array.size) :
    d'.sitesIn t = d.sitesIn t :=
  congrArg (Option.getD · []) (belsIn?_congr h)

/-- A change that touches neither pins nor the number of sites. -/
theorem CrossReferenced.of_same (h : d.CrossReferenced) (hchip : d'.chip = d.chip)
    (hwires : ∀ w, (d'.wires.infoOf w).belPins.toList = (d.wires.infoOf w).belPins.toList)
    (hbels : d'.bels = d.bels) (hpins : ∀ bel name, d'.belPin? bel name = d.belPin? bel name)
    (hsize : ∀ x y, (d'.tile? x y).map Array.size = (d.tile? x y).map Array.size) :
    d'.CrossReferenced where
  pins w bel name := by rw [hwires, hpins, h.pins]
  tiles x y hxy := by
    obtain ⟨tile, htile⟩ := h.tiles x y (hchip ▸ hxy)
    have hmap := hsize x y
    rw [htile, Option.map_some, Option.map_eq_some_iff] at hmap
    exact hmap.imp fun _ htile' => htile'.1
  bels := by
    rw [hbels, hchip, List.flatMap_congr fun t _ => sitesIn_congr (hsize t.1 t.2)]
    exact h.bels

/-- Making a wire touches no pin. -/
theorem CrossReferenced.insertWire (h : d.CrossReferenced) (x y : Nat) (name : Ident)
    (flags : UInt64) (w : Wire) : (d.insertWire x y name flags w).CrossReferenced := by
  refine h.of_same rfl (fun u => ?_) rfl (fun _ _ => rfl) fun _ _ => rfl
  simp only [Device.insertWire, WireGraph.create, WireGraph.infoOf_update]
  split <;> rfl

/-- A pip touches no pin. -/
theorem CrossReferenced.addPip (h : d.CrossReferenced) (src dst : Wire) :
    CrossReferenced { d with wires := d.wires.addPip src dst } :=
  h.of_same rfl (fun w => by rw [WireGraph.infoOf_addPip]) rfl (fun _ _ => rfl) fun _ _ => rfl

/-- A new site starts without pins, and no other site's pins move. -/
theorem belPin?_push {x y t : Nat} (hindex : d.tileIndex? x y = some t) {new : Site}
    (hnew : new.pins = []) (bel : BelId) (name : Ident) :
    ({ d with sites := d.sites.modify t (·.push new) } : Device).belPin? bel name =
    d.belPin? bel name := by
  have htile := tile?_modify hindex (·.push new) bel.pos.x bel.pos.y
  rw [belPin?, belPin?, site?, site?, htile]
  split
  · cases d.tile? bel.pos.x bel.pos.y with
    | none => rfl
    | some tile =>
      -- a new site has no pins, and where it is no site was
      rw [Option.map_some, Option.bind_some, Option.bind_some, Array.getElem?_push]
      split
      · rename_i hlast
        rw [hlast, Array.getElem?_eq_none (Nat.le_refl _), Option.bind_some, hnew]
        rfl
      · rfl
  · rfl

/-- A new site comes after those of its tile. -/
theorem belsIn?_push {x y t : Nat} {tile : Array Site} (htile : d.tile? x y = some tile)
    (hindex : d.tileIndex? x y = some t) (new : Site) (bels : Array BelId) (x' y' : Nat) :
    ({ d with sites := d.sites.modify t (·.push new), bels := bels } : Device).belsIn? x' y' =
      if x = x' ∧ y = y' then (d.belsIn? x' y').map (· ++ [siteNumber x y tile.size])
      else d.belsIn? x' y' := by
  refine (congrArg (Option.map _) (tile?_modify hindex (·.push new) x' y')).trans ?_
  rw [belsIn?]
  split
  · rename_i heq
    obtain ⟨rfl, rfl⟩ := heq
    rw [htile, Option.map_some, Option.map_some, Option.map_some, Array.size_push, List.range_succ,
      List.map_append, List.map_singleton]
    rfl
  · rfl

/-- A new site has no pins. -/
theorem CrossReferenced.addSite (h : d.CrossReferenced) {x y t : Nat} {tile : Array Site}
    (htile : d.tile? x y = some tile) (hindex : d.tileIndex? x y = some t) {new : Site}
    (hnew : new.pins = []) : CrossReferenced { d with
      sites := d.sites.modify t (·.push new)
      bels := d.bels.push (siteNumber x y tile.size) } := by
  have hbels (t : Nat × Nat) :=
    belsIn?_push htile hindex new (d.bels.push (siteNumber x y tile.size)) t.1 t.2
  constructor
  case pins =>
    intro w bel name
    refine (h.pins w bel name).trans ?_
    rw [← belPin?_push hindex hnew]
    rfl
  case tiles =>
    intro x' y' hxy
    obtain ⟨tile', hold⟩ := h.tiles x' y' hxy
    have heq := tile?_modify hindex (·.push new) x' y'
    rw [hold] at heq
    split at heq
    · exact ⟨_, heq⟩
    · exact ⟨_, heq⟩
  case bels =>
    have hmem : (x, y) ∈ d.chip.tiles := by
      rw [tileIndex?, Option.ite_none_right_eq_some, Chip.contains_iff] at hindex
      exact hindex.1
    refine (Array.toList_push ▸ h.bels.append_right [siteNumber x y tile.size]).trans ?_
    refine (flatMap_perm_concat d.chip.nodup_tiles hmem ?_ fun t' hne => ?_).symm
    · rw [sitesIn, sitesIn, hbels, if_pos ⟨rfl, rfl⟩, belsIn?, htile]
      rfl
    · rw [sitesIn, sitesIn, hbels, if_neg]
      rintro ⟨rfl, rfl⟩
      exact hne rfl

/-- A change to one site changes the pins of that site only. -/
theorem belPin?_modifySite (d : Device) {bel : BelId} {site : Site}
    (hsite : d.site? bel = some site) (f : Site → Site) (bel' : BelId) (name : Ident) :
    (d.modifySite bel f).belPin? bel' name =
      if bel = bel' then (f site).pins.get? name else d.belPin? bel' name := by
  rw [belPin?, site?_modifySite]
  split
  · rename_i heq
    subst heq
    rw [hsite]
    rfl
  · rfl

/-- A site that exists gets a pin that it had not. -/
theorem CrossReferenced.addPin (h : d.CrossReferenced) {site : Site}
    (hsite : d.site? bel = some site) (hnew : site.pins.get? name = none) (p : SitePin) :
    CrossReferenced
      { d.modifySite bel fun s => { s with pins := s.pins.insert name p } with
        wires := d.wires.attach p.wire ⟨bel, name⟩ } := by
  have hnone : d.belPin? bel name = none := by rw [belPin?, hsite, Option.bind_some, hnew]
  have hpin (bel' : BelId) (name' : Ident) :
      (d.modifySite bel fun s => { s with pins := s.pins.insert name p }).belPin? bel' name' =
        if bel = bel' ∧ name = name' then some p else d.belPin? bel' name' := by
    rw [belPin?_modifySite d hsite]
    by_cases hbel : bel = bel'
    · subst hbel
      rw [if_pos rfl, Table.get?_insert, belPin?, hsite, Option.bind_some]
      simp only [true_and]
    · rw [if_neg hbel, if_neg fun hboth => hbel hboth.1]
  constructor
  case pins =>
    intro w bel' name'
    have hcount :
        ((d.wires.attach p.wire ⟨bel, name⟩).infoOf w).belPins.toList.count ⟨bel', name'⟩ =
        (d.wires.infoOf w).belPins.toList.count ⟨bel', name'⟩ +
          if p.wire = w ∧ bel = bel' ∧ name = name' then 1 else 0 := by
      rw [WireGraph.attach, WireGraph.infoOf_update]
      by_cases hw : p.wire = w
      · rw [if_pos hw, Array.toList_push, List.count_append, List.count_singleton]
        simp only [hw, true_and, beq_iff_eq, BelPin.mk.injEq]
      · rw [if_neg hw, if_neg fun hall => hw hall.1, Nat.add_zero]
    refine hcount.trans ?_
    rw [h.pins w bel' name']
    refine Eq.trans ?_ (congrArg (fun o => if Option.map SitePin.wire o = some w then 1 else 0)
      (hpin bel' name').symm)
    by_cases hboth : bel = bel' ∧ name = name'
    · obtain ⟨rfl, rfl⟩ := hboth
      simp [hnone]
    · simp [hboth]
  case tiles =>
    intro x y hxy
    obtain ⟨tile, htile⟩ := h.tiles x y (by rwa [← modifySite_chip d bel])
    have hsize := size_tile?_modifySite d bel (fun s => { s with pins := s.pins.insert name p }) x y
    rw [htile, Option.map_some, Option.map_eq_some_iff] at hsize
    exact hsize.imp fun _ htile' => htile'.1
  case bels =>
    rw [modifySite_bels, modifySite_chip]
    refine h.bels.trans (.of_eq (List.flatMap_congr fun t _ => (sitesIn_congr ?_).symm))
    exact size_tile?_modifySite d bel _ t.1 t.2

/-! ### Built devices -/

/-- Nothing is attached to anything in the blank device. -/
theorem crossReferenced_blank (selection : Selection) (c : Chip) :
    (blank selection c).CrossReferenced where
  pins w bel name := by
    have hnone : (blank selection c).belPin? bel name = none := by
      rw [belPin?, site?, Option.bind_assoc, Option.bind_eq_none_iff]
      intro tile htile
      obtain ⟨t, -, ht⟩ := Option.bind_eq_some_iff.mp htile
      have hempty : tile = #[] := by
        obtain ⟨-, rfl⟩ := Array.getElem?_eq_some_iff.mp ht
        exact Array.getElem_replicate ..
      rw [hempty]
      rfl
    rw [hnone, show (blank selection c).wires = .empty from rfl, WireGraph.infoOf_empty]
    rfl
  tiles x y hxy := by
    obtain ⟨tile, htile, -⟩ := Option.map_eq_some_iff.mp
      ((buildStage_blank selection c).blank (x, y) (Chip.contains_iff.mp hxy)).size
    exact ⟨tile, htile⟩
  bels := by
    refine List.Perm.of_eq (List.flatMap_eq_nil_iff.mpr fun t ht => ?_).symm
    rw [sitesIn_eq_map, ((buildStage_blank selection c).blank t ht).size]
    rfl

/-- What makes nothing keeps the two sides in agreement. -/
theorem Silent.crossReferenced (hd : d.Silent d') (h : d.CrossReferenced) : d'.CrossReferenced :=
  h.of_same hd.chip (fun _ => by rw [hd.wires]) hd.bels
    (fun bel _ => by rw [belPin?, hd.site? bel, belPin?]) fun x y => by rw [hd.tile? x y]

/-- Every step of a build keeps the records in step. -/
theorem Makes.crossReferenced {step : BuildStep} (hstep : d.Makes step d') (h : d.CrossReferenced) :
    d'.CrossReferenced := by
  cases hstep with
  | wire => exact h.insertWire ..
  | pip src dst => exact h.addPip src dst
  | site type _ htile hindex => exact h.addSite htile hindex rfl
  | pin p hsite hnew => exact h.addPin hsite hnew p
  | @place bel site part place hsite =>
    refine h.of_same (modifySite_chip ..) (fun _ => by rw [modifySite_wires]) (modifySite_bels ..)
      (fun bel' name => ?_) (size_tile?_modifySite d _ _)
    rw [belPin?_modifySite d hsite]
    split
    · rename_i heq
      subst heq
      rw [belPin?, hsite, Option.bind_some]
    · rfl

/-- Every step of a build keeps the two sides in agreement. -/
theorem Builds.crossReferenced {d₀ : Device} {s : List BuildStep} (hrun : d₀.Builds s d)
    (h : d₀.CrossReferenced) : d.CrossReferenced := by
  induction hrun with
  | start => exact h
  | silent _ hd ih => exact hd.crossReferenced ih
  | step _ hstep ih => exact hstep.crossReferenced ih

/-- The records of a built device are in step. -/
theorem crossReferenced_of_ofSelection {selection : Selection} (h : ofSelection selection = .ok d) :
    d.CrossReferenced := by
  obtain ⟨c, -, hbuilt⟩ := isBuiltBy_of_ofSelection h
  obtain ⟨selection', hbuilds⟩ := hbuilt.builds
  exact hbuilds.crossReferenced (crossReferenced_blank selection' c)

/-! ### What the records say -/

/-- A wire's record is found exactly when the graph holds the wire. -/
theorem wireInfo_eq_ok_iff {w : Wire} {info : WireInfo} :
    d.wireInfo w = .ok info ↔ d.wires.get? w = some info := by
  rw [wireInfo]
  cases d.wires.get? w with
  | none => simp
  | some info' => simp

/-- A pin of a site is on a wire exactly if the wire lists it. -/
theorem CrossReferenced.belPin?_iff (h : d.CrossReferenced) {w : Wire} :
    (d.belPin? bel name).map SitePin.wire = some w ↔
      ∃ info, d.wireInfo w = .ok info ∧ ⟨bel, name⟩ ∈ info.belPins := by
  have hcount := h.pins w bel name
  constructor
  · intro hpin
    rw [if_pos hpin] at hcount
    cases hget : d.wires.get? w with
    | none =>
      rw [WireGraph.infoOf, hget] at hcount
      cases hcount
    | some info =>
      rw [WireGraph.infoOf_of_get? hget] at hcount
      exact ⟨info, wireInfo_eq_ok_iff.mpr hget,
        Array.mem_toList_iff.mp (List.count_pos_iff.mp (by omega))⟩
  · rintro ⟨info, hinfo, hmem⟩
    have hpos := List.count_pos_iff.mpr (Array.mem_toList_iff.mpr hmem)
    rw [WireGraph.infoOf_of_get? (wireInfo_eq_ok_iff.mp hinfo)] at hcount
    by_contra hpin
    rw [if_neg hpin] at hcount
    omega

/-- No wire lists a pin twice. -/
theorem CrossReferenced.nodup_belPins (h : d.CrossReferenced) {w : Wire} {info : WireInfo}
    (hinfo : d.wireInfo w = .ok info) : info.belPins.toList.Nodup := by
  refine List.nodup_iff_count_le_one.mpr fun ⟨bel, name⟩ => ?_
  have hcount := h.pins w bel name
  rw [WireGraph.infoOf_of_get? (wireInfo_eq_ok_iff.mp hinfo)] at hcount
  rw [hcount]
  split <;> omega

/-- A device whose tiles have no more sites than handles tell apart. -/
structure HasRoom (d : Device) : Prop where
  fits : d.chip.Fits
  size_le : ∀ x y l, d.belsIn? x y = some l → l.length ≤ siteCount

/-- The sites of a place are those of its tile. -/
theorem mem_sitesIn {t : Nat × Nat} : bel ∈ d.sitesIn t ↔
    ∃ tile, d.tile? t.1 t.2 = some tile ∧ ∃ n < tile.size, bel = siteNumber t.1 t.2 n := by
  rw [sitesIn_eq_map]
  cases d.tile? t.1 t.2 with
  | none => simp
  | some tile => simp [eq_comm]

/-- The list of a place, where there is one, has the sites of its tile. -/
theorem exists_mem_belsIn?_iff {x y : Nat} :
    (∃ l, d.belsIn? x y = some l ∧ bel ∈ l) ↔ bel ∈ d.sitesIn (x, y) := by
  rw [sitesIn]
  cases d.belsIn? x y <;> simp

/-- In a device with room every site's number fits a site id. -/
theorem HasRoom.lt_siteCount (hroom : d.HasRoom) {x y n : Nat} {tile : Array Site}
    (htile : d.tile? x y = some tile) (hn : n < tile.size) : n < siteCount := by
  have hle := hroom.size_le x y _ (congrArg (Option.map _) htile)
  rw [List.length_map, List.length_range] at hle
  omega

/-- A tile with a table of sites is on the grid. -/
theorem mem_tiles_of_tile? {x y : Nat} {tile : Array Site} (htile : d.tile? x y = some tile) :
    (x, y) ∈ d.chip.tiles := by
  obtain ⟨t, hindex, -⟩ := Option.bind_eq_some_iff.mp htile
  rw [tileIndex?, Option.ite_none_right_eq_some, Chip.contains_iff] at hindex
  exact hindex.1

/-- The sites that there are, by tile. -/
theorem HasRoom.exists_site?_iff (hroom : d.HasRoom) :
    (∃ site, d.site? bel = some site) ↔ ∃ x y l, d.belsIn? x y = some l ∧ bel ∈ l := by
  simp only [exists_mem_belsIn?_iff]
  constructor
  · rintro ⟨site, hsite⟩
    obtain ⟨tile, htile, hget⟩ := Option.bind_eq_some_iff.mp hsite
    have hr := hroom.fits.inRange (mem_tiles_of_tile? htile)
    refine ⟨_, _,
      mem_sitesIn.mpr ⟨tile, htile, bel.z.toNat, (Array.getElem?_eq_some_iff.mp hget).1, ?_⟩⟩
    have hpos : bel.pos = .pack bel.pos.x bel.pos.y :=
      Pos.eq_of_x_eq_of_y_eq (Pos.x_pack hr.x_lt hr.y_lt).symm (Pos.y_pack hr.x_lt hr.y_lt).symm
    have hz : bel.z = bel.z.toNat.toUInt16 := UInt16.ofNat_toNat.symm
    exact BelId.mk.injEq .. ▸ ⟨hpos, hz⟩
  · rintro ⟨x, y, hbel⟩
    obtain ⟨tile, htile, n, hn, rfl⟩ := mem_sitesIn.mp hbel
    have hr := hroom.fits.inRange (mem_tiles_of_tile? htile)
    refine ⟨tile[n], ?_⟩
    rw [site?_siteNumber d hr.x_lt hr.y_lt (hroom.lt_siteCount htile hn), htile, Option.bind_some]
    exact Array.getElem?_eq_getElem hn

/-- The sites listed are those of the tiles. -/
theorem CrossReferenced.mem_bels_iff (h : d.CrossReferenced) :
    bel ∈ d.bels ↔ ∃ x y l, d.belsIn? x y = some l ∧ bel ∈ l := by
  simp only [exists_mem_belsIn?_iff]
  rw [← Array.mem_toList_iff, h.bels.mem_iff, List.mem_flatMap]
  constructor
  · rintro ⟨t, -, hbel⟩
    exact ⟨t.1, t.2, hbel⟩
  · rintro ⟨x, y, hbel⟩
    obtain ⟨tile, htile, -⟩ := mem_sitesIn.mp hbel
    exact ⟨(x, y), mem_tiles_of_tile? htile, hbel⟩

/-- No site is listed twice. -/
theorem CrossReferenced.nodup_bels (h : d.CrossReferenced) (hroom : d.HasRoom) :
    d.bels.toList.Nodup := by
  rw [h.bels.nodup_iff, List.nodup_flatMap]
  have hspec {t : Nat × Nat} {bel : BelId} (hbel : bel ∈ d.sitesIn t) : InRange t.1 t.2 ∧
      ∃ n < siteCount, bel = siteNumber t.1 t.2 n := by
    obtain ⟨tile, htile, n, hn, rfl⟩ := mem_sitesIn.mp hbel
    exact ⟨hroom.fits.inRange (mem_tiles_of_tile? htile), n, hroom.lt_siteCount htile hn, rfl⟩
  refine ⟨fun t ht => ?_, d.chip.nodup_tiles.pairwise_of_forall_ne fun t _ t' _ hne => ?_⟩
  · obtain ⟨tile, htile⟩ := h.tiles t.1 t.2 (Chip.contains_iff.mpr ht)
    have hr := hroom.fits.inRange ht
    rw [sitesIn_eq_map, htile, Option.map_some, Option.getD_some]
    refine List.nodup_range.map_on fun n hn n' hn' heq => ?_
    exact (siteNumber_inj hr hr (hroom.lt_siteCount htile (List.mem_range.mp hn))
      (hroom.lt_siteCount htile (List.mem_range.mp hn')) heq).2.2
  · rw [Function.onFun_apply, List.disjoint_left]
    intro bel hbel hbel'
    obtain ⟨hr, n, hn, rfl⟩ := hspec hbel
    obtain ⟨hr', n', hn', heq⟩ := hspec hbel'
    obtain ⟨hx, hy, -⟩ := siteNumber_inj hr hr' hn hn' heq
    exact hne (Prod.ext hx hy)

end Device

/-- A tile of a built device has room for another site. -/
theorem IsBuilt.length_belsIn?_lt {c : Chip} {d : Device} (h : IsBuilt c d) {x y : Nat}
    {l : List BelId} (hl : d.belsIn? x y = some l) : l.length < siteCount := by
  obtain ⟨tile, htile, rfl⟩ := Option.map_eq_some_iff.mp hl
  have hsize := h.sized (x, y) (h.chip ▸ Device.mem_tiles_of_tile? htile)
  rw [htile, Option.map_some, Option.some.injEq] at hsize
  rw [List.length_map, List.length_range, hsize]
  exact c.tileSites_lt (x, y)

end Fabric
