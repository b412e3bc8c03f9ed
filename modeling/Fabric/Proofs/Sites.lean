import Fabric.Device.Site
import Fabric.Proofs.Packing

/-!
# The table of sites

The sites of a device are kept row by row, and within a tile by number. This module says what a
change of one tile, or of one site, means for all of them.

## Main results

* `Device.tile?_modify`: changing one tile leaves every other tile as it is;
* `Device.site?_modifySite`: changing one site leaves every other site as it is;
* `Device.site?_siteNumber`: the sites of a tile by number;
* `Device.findInTile?_eq_some`: the site that a search of a tile finds.
-/

namespace Fabric

/-- The site number `n` of a tile. -/
def siteNumber (x y n : Nat) : BelId := ⟨.pack x y, n.toUInt16⟩

/-- A tile has room for this many sites. -/
def siteCount : Nat := 65536

namespace Device

/-! ### Tiles -/

/-- The tiles of the chip are numbered row by row. -/
theorem tileIndex?_of_contains {d : Device} {x y : Nat} (h : d.chip.contains x y = true) :
    d.tileIndex? x y = some (y * d.chip.width + x) := by
  rw [tileIndex?, if_pos h]

/-- Different tiles have different places in the table of sites. -/
theorem tileIndex?_inj {d : Device} {x y x' y' t : Nat} (h : d.tileIndex? x y = some t)
    (h' : d.tileIndex? x' y' = some t) : x = x' ∧ y = y' := by
  rw [tileIndex?, Option.ite_none_right_eq_some, Option.some.injEq, Chip.contains,
    Bool.and_eq_true, decide_eq_true_iff, decide_eq_true_iff] at h h'
  obtain ⟨⟨hx, -⟩, rfl⟩ := h
  obtain ⟨⟨hx', -⟩, heq⟩ := h'
  have hy : y' = y := by
    have hdiv := congrArg (· / d.chip.width) heq
    simpa [Nat.mul_comm _ d.chip.width, Nat.mul_add_div (Nat.zero_lt_of_lt hx),
      Nat.div_eq_of_lt hx, Nat.div_eq_of_lt hx'] using hdiv
  subst hy
  exact ⟨by omega, rfl⟩

/-- Changing one tile leaves every other tile as it is. -/
theorem tile?_modify {d : Device} {x y t : Nat} (h : d.tileIndex? x y = some t)
    (f : Array Site → Array Site) (x' y' : Nat) :
    ({ d with sites := d.sites.modify t f } : Device).tile? x' y' =
      if x = x' ∧ y = y' then (d.tile? x' y').map f else d.tile? x' y' := by
  have hindex : ({ d with sites := d.sites.modify t f } : Device).tileIndex? x' y' =
      d.tileIndex? x' y' := rfl
  rw [tile?, tile?, hindex]
  cases ht : d.tileIndex? x' y' with
  | none => simp
  | some t' =>
      rw [Option.bind_some, Option.bind_some, Array.getElem?_modify]
      by_cases heq : t = t'
      · subst heq
        obtain ⟨rfl, rfl⟩ := tileIndex?_inj h ht
        simp
      · have hne : ¬ (x = x' ∧ y = y') := by
          rintro ⟨rfl, rfl⟩
          exact heq (Option.some.inj (h.symm.trans ht))
        rw [if_neg heq, if_neg hne]

/-! ### Sites -/

/-- The site of a number is found in its tile. -/
theorem site?_siteNumber (d : Device) {x y n : Nat} (hx : x < coordinateCount)
    (hy : y < coordinateCount) (hn : n < siteCount) :
    d.site? (siteNumber x y n) = (d.tile? x y).bind (·[n]?) := by
  rw [site?, siteNumber, Pos.x_pack hx hy, Pos.y_pack hx hy]
  have h : n.toUInt16.toNat = n := UInt16.toNat_ofNat_of_lt' hn
  rw [h]

/-- A site's record is found exactly when the site exists. -/
theorem siteInfo_eq_ok_iff {d : Device} {bel : BelId} {site : Site} :
    d.siteInfo bel = .ok site ↔ d.site? bel = some site := by
  rw [siteInfo]
  cases d.site? bel <;> simp

/-- A site is the one that a search of its tile finds if it satisfies the test and
none before it does. -/
theorem findInTile?_eq_some {d : Device} {x y n : Nat} (hx : x < coordinateCount)
    (hy : y < coordinateCount) (hn : n < siteCount) {site : Site}
    (hsite : d.site? (siteNumber x y n) = some site)
    {test : Site → Bool} (htest : test site = true)
    (hbefore : ∀ m < n, ∀ site', d.site? (siteNumber x y m) = some site' → test site' = false) :
    d.findInTile? x y test = some (siteNumber x y n) := by
  rw [site?_siteNumber d hx hy hn] at hsite
  obtain ⟨tile, htile, hget⟩ := Option.bind_eq_some_iff.mp hsite
  obtain ⟨hlt, rfl⟩ := Array.getElem?_eq_some_iff.mp hget
  have hfind : tile.findIdx? test = some n := by
    refine Array.findIdx?_eq_some_iff_getElem.mpr ⟨hlt, htest, fun m hm => ?_⟩
    rw [Bool.not_eq_true]
    refine hbefore m hm _ ?_
    rw [site?_siteNumber d hx hy (Nat.lt_trans hm hn), htile, Option.bind_some]
    exact Array.getElem?_eq_getElem (Nat.lt_trans hm hlt)
  rw [findInTile?, htile]
  simp only [bind, Option.bind_some, hfind]
  rfl

/-! ### Changes of a site -/

section Fields

variable (d : Device) (bel : BelId) (f : Site → Site)

@[simp] theorem modifySite_selection : (d.modifySite bel f).selection = d.selection := by
  rw [modifySite]
  split <;> rfl

@[simp] theorem modifySite_chip : (d.modifySite bel f).chip = d.chip := by
  rw [modifySite]
  split <;> rfl

@[simp] theorem modifySite_interner : (d.modifySite bel f).interner = d.interner := by
  rw [modifySite]
  split <;> rfl

@[simp] theorem modifySite_netlist : (d.modifySite bel f).netlist = d.netlist := by
  rw [modifySite]
  split <;> rfl

@[simp] theorem modifySite_wires : (d.modifySite bel f).wires = d.wires := by
  rw [modifySite]
  split <;> rfl

@[simp] theorem modifySite_created : (d.modifySite bel f).created = d.created := by
  rw [modifySite]
  split <;> rfl

@[simp] theorem modifySite_labs : (d.modifySite bel f).labs = d.labs := by
  rw [modifySite]
  split <;> rfl

end Fields

/-- Changing one site leaves every other site as it is. -/
theorem site?_modifySite (d : Device) (bel bel' : BelId) (f : Site → Site) :
    (d.modifySite bel f).site? bel' =
      if bel = bel' then (d.site? bel').map f else d.site? bel' := by
  rw [modifySite]
  cases ht : d.tileIndex? bel.pos.x bel.pos.y with
  | none =>
      have hnone : d.site? bel = none := by simp [site?, tile?, ht]
      by_cases heq : bel = bel'
      · subst heq
        rw [if_pos rfl, hnone]
        rfl
      · rw [if_neg heq]
  | some t =>
      simp only [site?, tile?_modify ht]
      by_cases heq : bel = bel'
      · subst heq
        cases d.tile? bel.pos.x bel.pos.y with
        | none => simp
        | some tile => simp [Array.getElem?_modify]
      · rw [if_neg heq]
        split
        · rename_i hpos
          have hz : bel.z.toNat ≠ bel'.z.toNat := fun hz => heq (by
            obtain ⟨p, z⟩ := bel
            obtain ⟨p', z'⟩ := bel'
            rw [BelId.mk.injEq]
            exact ⟨Pos.eq_of_x_eq_of_y_eq hpos.1 hpos.2, UInt16.toNat.inj hz⟩)
          cases d.tile? bel'.pos.x bel'.pos.y with
          | none => rfl
          | some tile => simp [Array.getElem?_modify, hz]
        · rfl

/-- Changing a site changes no tile in size. -/
theorem size_tile?_modifySite (d : Device) (bel : BelId) (f : Site → Site) (x y : Nat) :
    ((d.modifySite bel f).tile? x y).map Array.size = (d.tile? x y).map Array.size := by
  rw [modifySite]
  split
  · rfl
  · rename_i t ht
    rw [tile?_modify ht]
    split
    · simp [Function.comp_def]
    · rfl

end Device

end Fabric
