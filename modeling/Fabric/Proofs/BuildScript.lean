import Fabric.Proofs.Places
import Mathlib.Data.List.Perm.Basic

/-!
# The script of a device

The steps that build a block come in the order in which its parts are made, each wire next to the
sites that use it. For what a built device holds that order does not matter, so the script of a
block is regrouped here: its wires with the pips to them, its sites, and the multiplexers of its
outputs. The script of a device is then known tile by tile.

## Main results

* `blockScript_perm`: the script of a block, regrouped;
* `Chip.mem_script`: the steps of a whole device;
* `Chip.labsOf_eq`, `Chip.getElem?_labsOf`: the LABs of a device, in the order of the LAB tiles.
-/

namespace Fabric

open Device (syntheticNode syntheticCount)

/-! ### Steps that make wires, sites and pips -/

/-- The steps that make sites of a block, from site number `n` on. -/
def sitesScript (x y n : Nat) (sites : List BlockSite) : List BuildStep :=
  (sites.zipIdx n).flatMap fun (site, k) => siteScript x y k site

/-- A wire is made first, and then its pips onto it. -/
theorem mem_wireScript {x y n : Nat} {wire : BlockWire} {step : BuildStep} :
    step ∈ wireScript x y n wire ↔ step = .wire x y n wire.name ∨
      ∃ src ∈ wire.uphill, step = .pip src (syntheticNode x y n) := by
  simp only [wireScript, List.mem_cons, List.mem_map, eq_comm]

/-- The wires of a script are made with the numbers they have in the list. -/
theorem mem_wiresScript {x y : Nat} {wires : List BlockWire} {step : BuildStep} :
    step ∈ wiresScript x y 0 wires ↔
      ∃ n wire, wires[n]? = some wire ∧ step ∈ wireScript x y n wire := by
  simp only [wiresScript, List.mem_flatMap, Prod.exists, List.mem_zipIdx_iff_getElem?]
  exact exists_comm

/-- A site is made, gets its pins and is placed in the device. -/
theorem mem_siteScript {x y n : Nat} {site : BlockSite} {step : BuildStep} :
    step ∈ siteScript x y n site ↔ step = .site x y n site.name site.type ∨
      (∃ pin ∈ site.pins, step = .pin (siteNumber x y n) pin.1 pin.2) ∨
      step = .place (siteNumber x y n) site.part site.place := by
  simp only [siteScript, List.cons_append, List.mem_cons, List.mem_append, List.mem_map,
    List.not_mem_nil, or_false, @eq_comm _ _ step]

/-- The sites of a script are made with the numbers they have in the list. -/
theorem mem_sitesScript {x y : Nat} {sites : List BlockSite} {step : BuildStep} :
    step ∈ sitesScript x y 0 sites ↔
      ∃ n site, sites[n]? = some site ∧ step ∈ siteScript x y n site := by
  simp only [sitesScript, List.mem_flatMap, Prod.exists, List.mem_zipIdx_iff_getElem?]
  exact exists_comm

/-- A mux is made pip after pip. -/
theorem mem_muxesScript {muxes : List Mux} {step : BuildStep} :
    step ∈ muxesScript muxes ↔ ∃ mux ∈ muxes, ∃ src ∈ mux.sources, step = .pip src mux.dst := by
  simp only [muxesScript, List.mem_flatMap, List.mem_map, eq_comm]

/-- The wires of two lists are made one list after the other, with the numbers running on. -/
theorem wiresScript_append (x y n : Nat) (wires wires' : List BlockWire) :
    wiresScript x y n (wires ++ wires') =
      wiresScript x y n wires ++ wiresScript x y (n + wires.length) wires' := by
  rw [wiresScript, List.zipIdx_append, List.flatMap_append]
  rfl

/-- The script of a list of sites starts with that of its head. -/
theorem sitesScript_cons (x y n : Nat) (site : BlockSite) (sites : List BlockSite) :
    sitesScript x y n (site :: sites) = siteScript x y n site ++ sitesScript x y (n + 1) sites := by
  rw [sitesScript, List.zipIdx_cons, List.flatMap_cons, sitesScript]

/-- No sites need no script. -/
theorem sitesScript_nil (x y n : Nat) : sitesScript x y n [] = [] := rfl

/-- The muxes of two lists are made one list after the other. -/
theorem muxesScript_append (muxes muxes' : List Mux) :
    muxesScript (muxes ++ muxes') = muxesScript muxes ++ muxesScript muxes' := List.flatMap_append

/-- The muxes of a list of lists are made list by list. -/
theorem muxesScript_flatMap {α : Type} (l : List α) (f : α → List Mux) :
    muxesScript (l.flatMap f) = l.flatMap fun a => muxesScript (f a) := List.flatMap_assoc

/-- Rows of equal length are numbered row by row. -/
theorem zipIdx_flatMap_range {α : Type} {f : Nat → List α} {size : Nat}
    (hsize : ∀ z, (f z).length = size) (n count : Nat) :
    ((List.range count).flatMap f).zipIdx n =
      (List.range count).flatMap fun z => (f z).zipIdx (n + size * z) := by
  induction count with
  | zero => rfl
  | succ count ih =>
    have hlength : ((List.range count).flatMap f).length = size * count := by
      simp [List.length_flatMap, hsize, Nat.mul_comm]
    rw [List.range_succ, List.flatMap_append, List.zipIdx_append, ih, hlength, List.flatMap_append,
      List.flatMap_singleton, List.flatMap_singleton]

/-- What is made of numbered entries that come in rows of equal length is made row by row. -/
theorem flatMap_zipIdx_rows {α β : Type} {f : Nat → List α} {size : Nat}
    (hsize : ∀ z, (f z).length = size) (g : α × Nat → List β) (n count : Nat) :
    (((List.range count).flatMap f).zipIdx n).flatMap g =
      (List.range count).flatMap fun z => ((f z).zipIdx (n + size * z)).flatMap g := by
  rw [zipIdx_flatMap_range hsize, List.flatMap_assoc]

/-- The entries of a row of single ones are numbered from zero on. -/
theorem flatMap_zipIdx_map_range {α β : Type} (f : Nat → α) (g : α × Nat → List β) (count : Nat) :
    (((List.range count).map f).zipIdx).flatMap g =
      (List.range count).flatMap fun z => g (f z, z) := by
  have hsize (z : Nat) : [f z].length = 1 := rfl
  rw [List.map_eq_flatMap, flatMap_zipIdx_rows hsize]
  simp

/-! ### Blocks -/

/-- The sites of ALM `z`. -/
def almSites (x y lab z : Nat) : List BlockSite :=
  let n := 10 + 18 * z
  [lutSite x y lab z n .top, lutSite x y lab z (n + 1) .bottom,
    flopSite x y lab z (n + 10) (halfWires x y z 0 2) .top 0,
    flopSite x y lab z (n + 12) (halfWires x y z 0 2) .top 1,
    flopSite x y lab z (n + 14) (halfWires x y z 1 6) .bottom 0,
    flopSite x y lab z (n + 16) (halfWires x y z 1 6) .bottom 1]

/-- The multiplexers of the outputs of ALM `z`. -/
def almMuxes (x y z : Nat) : List Mux :=
  let n := 10 + 18 * z
  flopMuxes x y z (n + 10) (almNode x y z 0) .top 0
    ++ flopMuxes x y z (n + 12) (almNode x y z 0) .top 1
    ++ flopMuxes x y z (n + 14) (almNode x y z 1) .bottom 0
    ++ flopMuxes x y z (n + 16) (almNode x y z 1) .bottom 1

/-- The sites of a block, given the number of the next LAB. -/
def blockSitePlan (x y lab : Nat) : BlockKind → List BlockSite
  | .lab => (List.range Chip.almsPerLab).flatMap (almSites x y lab)
  | .gpio => (List.range Chip.iosPerBlock).map (ioSite x y)
  | .clockMux => (List.range Chip.globalClockCount).map (clockBufferSite x y)

/-- The multiplexers of the outputs of a block. -/
def blockMuxes (x y : Nat) : BlockKind → List Mux
  | .lab => (List.range Chip.almsPerLab).flatMap (almMuxes x y)
  | .gpio => []
  | .clockMux => (List.range Chip.globalClockCount).map fun z =>
    ⟨Chip.gclk z, [syntheticNode x y z]⟩

/-- An ALM has two LUTs and four flip-flops. -/
theorem length_almSites (x y lab z : Nat) : (almSites x y lab z).length = 6 := rfl

/-- The plan of a block has as many sites as the block. -/
theorem length_blockSitePlan (x y lab : Nat) (block : BlockKind) :
    (blockSitePlan x y lab block).length = blockSites block := by
  cases block with
  | lab => simp [blockSitePlan, blockSites, List.length_flatMap, length_almSites, Chip.almsPerLab]
  | gpio => rfl
  | clockMux => rfl

/-- The steps of a block, regrouped: its wires, its sites, and the pips to its outputs. -/
def regrouped (x y lab : Nat) (block : BlockKind) : List BuildStep :=
  wiresScript x y 0 (blockPlan x y block) ++ sitesScript x y 0 (blockSitePlan x y lab block)
    ++ muxesScript (blockMuxes x y block)

/-- Lists made in three parts for each entry can be made part by part. -/
theorem flatMap_perm_three {α β : Type} {l : List α} {f p q r : α → List β}
    (h : ∀ a, (f a).Perm (p a ++ q a ++ r a)) :
    (l.flatMap f).Perm (l.flatMap p ++ l.flatMap q ++ l.flatMap r) :=
  calc
    (l.flatMap f).Perm (l.flatMap fun a => p a ++ q a ++ r a) :=
      List.Perm.flatMap_left l fun a _ => h a
    _ |>.Perm (l.flatMap (fun a => p a ++ q a) ++ l.flatMap r) := (List.flatMap_append_perm ..).symm
    _ |>.Perm _ := (List.flatMap_append_perm ..).symm.append_right _

/-- The steps of an ALM are those of its wires, its sites and its muxes, up to their order. -/
theorem almScript_perm (x y lab z : Nat) : (almScript x y lab z).Perm
    (wiresScript x y (10 + 18 * z) (almPlan x y z) ++ sitesScript x y (6 * z) (almSites x y lab z)
      ++ muxesScript (almMuxes x y z)) := by
  have hselectors (half : Half) : (selectorPlan x y z half).length = 4 := rfl
  have hflop (half : Half) (k : Nat) (out selector : Wire) :
      (flopPlan z half k out selector).length = 2 := rfl
  rw [List.perm_iff_count]
  intro step
  simp only [almScript, lutScript, flopScript, almPlan, almSites, almMuxes, wiresScript_append,
    wiresScript_cons, wiresScript_nil, sitesScript_cons, sitesScript_nil, muxesScript_append,
    List.count_append, List.count_nil, List.length_cons, List.length_nil, List.length_append,
    hselectors, hflop, halfWires, Nat.add_assoc, Nat.reduceAdd]
  omega

/-- The steps of a block are those of its wires, its sites and its muxes, up to their order. -/
theorem blockScript_perm (x y lab : Nat) (block : BlockKind) :
    (blockScript x y lab block).Perm (regrouped x y lab block) := by
  cases block with
  | lab =>
    have hwires : wiresScript x y 0 (labPlan x y) = wiresScript x y 0 (sharedPlan x y) ++
        (List.range Chip.almsPerLab).flatMap
          fun z => wiresScript x y (10 + 18 * z) (almPlan x y z) := by
      rw [labPlan, wiresScript_append, length_sharedPlan, Nat.zero_add]
      exact congrArg (_ ++ ·) (flatMap_zipIdx_rows (length_almPlan x y) ..)
    have hsites : sitesScript x y 0 (blockSitePlan x y lab .lab) =
        (List.range Chip.almsPerLab).flatMap
          fun z => sitesScript x y (6 * z) (almSites x y lab z) := by
      rw [blockSitePlan, sitesScript, flatMap_zipIdx_rows (length_almSites x y lab)]
      simp only [Nat.zero_add, sitesScript]
    rw [regrouped, blockPlan, hwires, hsites, blockMuxes, muxesScript_flatMap, blockScript,
      labScript, List.append_assoc, List.append_assoc]
    refine List.Perm.append_left _ ?_
    rw [← List.append_assoc]
    exact flatMap_perm_three (almScript_perm x y lab)
  | gpio =>
    have hall (l : List Nat) : l.flatMap (fun _ => ([] : List BuildStep)) = [] := by simp
    rw [regrouped, blockPlan, gpioPlan, blockSitePlan, wiresScript, flatMap_zipIdx_map_range,
      sitesScript, flatMap_zipIdx_map_range]
    have h := flatMap_perm_three (l := List.range Chip.iosPerBlock) (f := ioScript x y)
      (p := fun z => wireScript x y z ⟨s!"PAD[{z}]", []⟩)
      (q := fun z => siteScript x y z (ioSite x y z)) (r := fun _ => []) fun z => by
        rw [List.perm_iff_count]
        intro step
        simp only [ioScript, ioSite, siteScript, List.count_append, List.count_cons, List.count_nil]
        omega
    rwa [hall] at h
  | clockMux =>
    rw [regrouped, blockPlan, clockMuxPlan, blockSitePlan, wiresScript, flatMap_zipIdx_map_range,
      sitesScript, flatMap_zipIdx_map_range, blockMuxes, muxesScript, List.flatMap_map]
    refine flatMap_perm_three fun z => List.perm_iff_count.mpr fun step => ?_
    simp only [clockBufferScript, clockBufferSite, siteScript, List.map_cons, List.map_nil,
      List.count_append, List.count_cons, List.count_nil]
    omega

/-- The steps of a block: those of its wires, of its sites, and of its outputs. -/
theorem mem_blockScript {x y lab : Nat} {block : BlockKind} {step : BuildStep} :
    step ∈ blockScript x y lab block ↔
      (∃ n wire, (blockPlan x y block)[n]? = some wire ∧ step ∈ wireScript x y n wire) ∨
      (∃ n site, (blockSitePlan x y lab block)[n]? = some site ∧ step ∈ siteScript x y n site) ∨
      ∃ mux ∈ blockMuxes x y block, ∃ src ∈ mux.sources, step = .pip src mux.dst := by
  rw [(blockScript_perm x y lab block).mem_iff, regrouped, List.mem_append, List.mem_append,
    mem_wiresScript, mem_sitesScript, mem_muxesScript, or_assoc]

namespace Chip

/-! ### All tiles -/

/-- The steps of a device: those of the blocks of its tiles, and the routing. -/
theorem mem_script {c : Chip} {step : BuildStep} : step ∈ c.script ↔
    (∃ k t block, c.tiles[k]? = some t ∧ c.blockAt t.1 t.2 = some block ∧
      step ∈ blockScript t.1 t.2 (c.labNumber k) block) ∨
    ∃ mux ∈ c.muxes, ∃ src ∈ mux.sources, step = .pip src mux.dst := by
  rw [script, List.mem_append, routingScript, mem_muxesScript, blocksScript, List.take_length]
  refine or_congr_left ?_
  simp only [List.mem_flatMap, Prod.exists, List.mem_zipIdx_iff_getElem?, tileScript]
  constructor
  · rintro ⟨x, y, k, ht, hstep⟩
    cases hblock : c.blockAt x y with
    | none => simp [hblock] at hstep
    | some block =>
      rw [hblock, Option.map_some, Option.getD_some] at hstep
      exact ⟨k, x, y, block, ht, hblock, hstep⟩
  · rintro ⟨k, x, y, block, ht, hblock, hstep⟩
    refine ⟨x, y, k, ht, ?_⟩
    rwa [hblock, Option.map_some, Option.getD_some]

/-- The steps of a tile are steps of the device. -/
theorem mem_script_of_tile {c : Chip} {k : Nat} {t : Nat × Nat} {block : BlockKind}
    {step : BuildStep} (hk : c.tiles[k]? = some t) (hblock : c.blockAt t.1 t.2 = some block)
    (hstep : step ∈ blockScript t.1 t.2 (c.labNumber k) block) : step ∈ c.script :=
  mem_script.mpr (.inl ⟨k, t, block, hk, hblock, hstep⟩)

/-- The wires that a build makes are those of the plans. -/
theorem wire_mem_script {c : Chip} {x y n : Nat} {name : String} : .wire x y n name ∈ c.script ↔
    ∃ block wire, c.blockAt x y = some block ∧ (blockPlan x y block)[n]? = some wire ∧
      name = wire.name := by
  constructor
  · intro hstep
    simp only [mem_script, mem_blockScript, mem_wireScript, mem_siteScript, reduceCtorEq, and_false,
      exists_false, or_false, BuildStep.wire.injEq] at hstep
    obtain ⟨k, t, block, -, hblock, n', wire, hwire, rfl, rfl, rfl, rfl⟩ := hstep
    exact ⟨block, wire, hblock, hwire, rfl⟩
  · rintro ⟨block, wire, hblock, hwire, rfl⟩
    obtain ⟨k, hk⟩ := List.getElem?_of_mem (mem_tiles_of_blockAt hblock)
    exact mem_script_of_tile hk hblock
      (mem_blockScript.mpr (.inl ⟨n, wire, hwire, mem_wireScript.mpr (.inl rfl)⟩))

/-- The sites that a build makes are those of the plans. -/
theorem site_mem_script {c : Chip} {x y n : Nat} {name : String} {type : Ident} :
    .site x y n name type ∈ c.script ↔ ∃ k block plan, c.tiles[k]? = some (x, y) ∧
      c.blockAt x y = some block ∧ (blockSitePlan x y (c.labNumber k) block)[n]? = some plan ∧
      name = plan.name ∧ type = plan.type := by
  constructor
  · intro hstep
    simp only [mem_script, mem_blockScript, mem_wireScript, mem_siteScript, reduceCtorEq, and_false,
      exists_false, false_or, or_false, BuildStep.site.injEq] at hstep
    obtain ⟨k, t, block, hk, hblock, n', plan, hplan, rfl, rfl, rfl, rfl, rfl⟩ := hstep
    exact ⟨k, block, plan, hk, hblock, hplan, rfl, rfl⟩
  · rintro ⟨k, block, plan, hk, hblock, hplan, rfl, rfl⟩
    exact mem_script_of_tile hk hblock
      (mem_blockScript.mpr (.inr (.inl ⟨n, plan, hplan, mem_siteScript.mpr (.inl rfl)⟩)))

/-- The places that a build gives to sites are those of the plans. -/
theorem place_mem_script {c : Chip} {bel : BelId} {part : Nat} {place : Option LabPlace} :
    .place bel part place ∈ c.script ↔
    ∃ k t block n plan, c.tiles[k]? = some t ∧ c.blockAt t.1 t.2 = some block ∧
      (blockSitePlan t.1 t.2 (c.labNumber k) block)[n]? = some plan ∧ bel = siteNumber t.1 t.2 n ∧
      part = plan.part ∧ place = plan.place := by
  constructor
  · intro hstep
    simp only [mem_script, mem_blockScript, mem_wireScript, mem_siteScript, reduceCtorEq, and_false,
      exists_false, false_or, or_false, BuildStep.place.injEq] at hstep
    obtain ⟨k, t, block, hk, hblock, n, plan, hplan, rfl, rfl, rfl⟩ := hstep
    exact ⟨k, t, block, n, plan, hk, hblock, hplan, rfl, rfl, rfl⟩
  · rintro ⟨k, t, block, n, plan, hk, hblock, hplan, rfl, rfl, rfl⟩
    exact mem_script_of_tile hk hblock
      (mem_blockScript.mpr (.inr (.inl ⟨n, plan, hplan, mem_siteScript.mpr (.inr (.inr rfl))⟩)))

/-! ### LABs -/

/-- The tiles that hold a LAB, in order. -/
def labTiles (c : Chip) : List (Nat × Nat) := c.tiles.filter fun t => c.blockAt t.1 t.2 = some .lab

/-- The LABs of a list of tiles stand where the chip has a LAB block. -/
theorem labsOf_eq (c : Chip) (tiles : List (Nat × Nat)) : c.labsOf tiles =
    (tiles.filter fun t => c.blockAt t.1 t.2 = some .lab).map fun t => labAt t.1 t.2 := by
  rw [labsOf]
  induction tiles with
  | nil => rfl
  | cons t rest ih =>
    rw [List.flatMap_cons, ih]
    rcases hblock : c.blockAt t.1 t.2 with _ | _ | _ | _ <;> simp [hblock, blockLabs]

/-- A LAB comes after those on the tiles in front of its own. -/
theorem getElem?_labsOf {c : Chip} {k : Nat} {t : Nat × Nat} (ht : c.tiles[k]? = some t)
    (hblock : c.blockAt t.1 t.2 = some .lab) :
    (c.labsOf c.tiles)[c.labNumber k]? = some (labAt t.1 t.2) := by
  obtain ⟨hk, rfl⟩ := List.getElem?_eq_some_iff.mp ht
  have hsplit : c.labsOf c.tiles = c.labsOf (c.tiles.take k) ++ c.labsOf (c.tiles.drop k) := by
    rw [labsOf, labsOf, labsOf, ← List.flatMap_append, List.take_append_drop]
  rw [hsplit, labNumber, List.getElem?_append_right (Nat.le_refl _), Nat.sub_self,
    List.drop_eq_getElem_cons hk, labsOf, List.flatMap_cons, hblock]
  rfl

/-- No two LABs stand on one tile. -/
theorem nodup_labTiles (c : Chip) : c.labTiles.Nodup := c.nodup_tiles.filter _

end Chip

/-! ### Sites and LABs of a built device -/

section Built

variable {c : Chip} {d : Device}

/-- The LABs of a built device, by number. -/
theorem IsBuilt.exists_labTile (hc : c.Fits) (h : IsBuilt c d) {lab : Nat} {l : Lab}
    (hlab : d.labs[lab]? = some l) : ∃ k t, c.tiles[k]? = some t ∧ c.blockAt t.1 t.2 = some .lab ∧
      lab = c.labNumber k ∧ l = labAt t.1 t.2 := by
  rw [← Array.getElem?_toList, h.labs] at hlab
  have hmem := List.mem_of_getElem? hlab
  rw [Chip.labsOf_eq, List.mem_map] at hmem
  obtain ⟨t, ht, rfl⟩ := hmem
  obtain ⟨ht, hblock⟩ := List.mem_filter.mp ht
  obtain ⟨k, hk⟩ := List.getElem?_of_mem ht
  have hnumber := Chip.getElem?_labsOf hk (of_decide_eq_true hblock)
  have hpos {i : Nat} {l : Lab} (hl : (c.labsOf c.tiles)[i]? = some l) :
      ((c.labsOf c.tiles).map Lab.pos)[i]? = some l.pos := by
    rw [List.getElem?_map, hl, Option.map_some]
  have hlt := (List.getElem?_eq_some_iff.mp (hpos hlab)).1
  refine ⟨k, t, hk, of_decide_eq_true hblock, ?_, rfl⟩
  exact (List.getElem?_inj hlt (Chip.nodup_labPositions hc)).mp
    ((hpos hlab).trans (hpos hnumber).symm)

/-- The sites of a built device are those of the plans of its tiles. -/
theorem IsBuilt.exists_sitePlan (hc : c.Fits) (h : IsBuilt c d) {bel : BelId} {site : Site}
    (hsite : d.site? bel = some site) : ∃ k t block n plan, c.tiles[k]? = some t ∧
      c.blockAt t.1 t.2 = some block ∧
      (blockSitePlan t.1 t.2 (c.labNumber k) block)[n]? = some plan ∧
      bel = siteNumber t.1 t.2 n := by
  obtain ⟨tile, htile, hget⟩ := Option.bind_eq_some_iff.mp hsite
  obtain ⟨i, hindex, -⟩ := Option.bind_eq_some_iff.mp htile
  rw [Device.tileIndex?, Option.ite_none_right_eq_some, h.chip, Chip.contains_iff] at hindex
  have ht := hindex.1
  have hr := hc.inRange ht
  obtain ⟨k, hk⟩ := List.getElem?_of_mem ht
  obtain ⟨block, hblock⟩ := Chip.exists_blockAt ht
  have hsize := h.sized _ ht
  rw [htile, Option.map_some, Chip.tileSites, hblock, Option.map_some, Option.getD_some,
    Option.some.injEq] at hsize
  have hlt : bel.z.toNat < (blockSitePlan bel.pos.x bel.pos.y (c.labNumber k) block).length := by
    rw [length_blockSitePlan, ← hsize]
    exact (Array.getElem?_eq_some_iff.mp hget).1
  refine ⟨k, _, block, bel.z.toNat, _, hk, hblock, List.getElem?_eq_getElem hlt, ?_⟩
  have hpos : bel.pos = .pack bel.pos.x bel.pos.y :=
    Pos.eq_of_x_eq_of_y_eq (Pos.x_pack hr.x_lt hr.y_lt).symm (Pos.y_pack hr.x_lt hr.y_lt).symm
  have hz : bel.z = bel.z.toNat.toUInt16 := (UInt16.ofNat_toNat).symm
  obtain ⟨pos, z⟩ := bel
  rw [siteNumber, BelId.mk.injEq]
  exact ⟨hpos, hz⟩

/-- Every site of a block has a number that fits a site id. -/
theorem blockSitePlan_lt {x y lab n : Nat} {block : BlockKind} {plan : BlockSite}
    (hplan : (blockSitePlan x y lab block)[n]? = some plan) : n < siteCount := by
  have hlt := (List.getElem?_eq_some_iff.mp hplan).1
  rw [length_blockSitePlan] at hlt
  refine Nat.lt_of_lt_of_le hlt ?_
  cases block <;> decide

/-- A site of a built device is as the plan of its tile has it. -/
theorem IsBuiltBy.exists_site (hc : c.Fits) (h : IsBuiltBy c c.script d) {k n : Nat} {t : Nat × Nat}
    {block : BlockKind} {plan : BlockSite} (hk : c.tiles[k]? = some t)
    (hblock : c.blockAt t.1 t.2 = some block)
    (hplan : (blockSitePlan t.1 t.2 (c.labNumber k) block)[n]? = some plan) :
    ∃ site, d.site? (siteNumber t.1 t.2 n) = some site ∧
      d.interner.name? site.name = some plan.name ∧
      site.type = plan.type ∧ site.blockIndex = plan.part ∧
        ∀ place, plan.place = some place → site.place = some place := by
  obtain ⟨selection, hbuilds⟩ := h.builds
  have hr := hc.inRange (List.mem_of_getElem? hk)
  obtain ⟨site, hsite, hname, htype⟩ := hbuilds.exists_site hr.x_lt hr.y_lt (blockSitePlan_lt hplan)
    (Chip.site_mem_script.mpr ⟨k, block, plan, hk, hblock, hplan, rfl, rfl⟩)
  -- No other step gives the site a place.
  have honly : ∀ part place, .place (siteNumber t.1 t.2 n) part place ∈ c.script →
      part = plan.part ∧ place = plan.place := by
    intro part place hmem
    obtain ⟨k', t', block', n', plan', hk', hblock', hplan', hbel, hpart, hplace⟩ :=
      Chip.place_mem_script.mp hmem
    obtain ⟨hx, hy, rfl⟩ := siteNumber_inj hr (hc.inRange (List.mem_of_getElem? hk'))
      (blockSitePlan_lt hplan) (blockSitePlan_lt hplan') hbel
    obtain rfl : t = t' := Prod.ext hx hy
    obtain rfl := Option.some.inj (hblock.symm.trans hblock')
    obtain rfl := Chip.eq_of_getElem?_tiles hk hk'
    obtain rfl := Option.some.inj (hplan.symm.trans hplan')
    exact ⟨hpart, hplace⟩
  obtain ⟨site', hsite', hpart, hplace⟩ := hbuilds.place
    (Chip.place_mem_script.mpr ⟨k, t, block, n, plan, hk, hblock, hplan, rfl, rfl, rfl⟩) honly
  obtain rfl := Option.some.inj (hsite.symm.trans hsite')
  exact ⟨site, hsite, hname, htype, hpart, hplace⟩

end Built

end Fabric
