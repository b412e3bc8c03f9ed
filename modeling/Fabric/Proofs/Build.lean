import Fabric.Proofs.LabBuild
import Fabric.Proofs.RoutingNodes

/-!
# Built devices

Building a device succeeds for every chip that a selection can name, and `IsBuilt` says what is
built: each tile holds the wires that the plan of its block lists, each fed by the wires that the
plan gives, and the LABs are those of the LAB tiles, in the order of the tiles. `Chip.script` lists
all the steps of a build, block by block and then the routing.

## Main results

* `answers_buildBlock`: a block is built as planned, and no other tile is touched;
* `answers_build`: so is the whole device;
* `exists_isBuiltBy`, `isBuiltBy_of_ofSelection`: the model of a selection exists and is built by
  the script of its chip.
-/

namespace Fabric

open Device (syntheticNode syntheticCount)

/-! ### The plans of the other blocks -/

/-- The pad wires of an I/O block. -/
def gpioPlan : List BlockWire := (List.range Chip.iosPerBlock).map fun z => ⟨s!"PAD[{z}]", []⟩

/-- The wires of the clock buffers. -/
def clockMuxPlan : List BlockWire :=
  (List.range Chip.globalClockCount).map fun z => ⟨s!"CLKBUF[{z}]", []⟩

/-- I/O site `z` of a block. -/
def ioSite (x y z : Nat) : BlockSite where
  name := s!"IO{z}"
  type := Known.ioSite
  pins := [(Known.pad, ⟨syntheticNode x y z, .inout⟩), (Known.i, ⟨Chip.gin x y (z * 2), .input⟩),
    (Known.oe, ⟨Chip.gin x y (z * 2 + 1), .input⟩), (Known.o, ⟨Chip.gout x y z, .output⟩)]
  part := z

/-- The steps that make I/O site `z` of a block. It is known as a part of the block
before it has pins. -/
def ioScript (x y z : Nat) : List BuildStep :=
  wireScript x y z ⟨s!"PAD[{z}]", []⟩
    ++ [.site x y z s!"IO{z}" Known.ioSite, .place (siteNumber x y z) z none]
    ++ (ioSite x y z).pins.map fun (name, pin) => .pin (siteNumber x y z) name pin

/-- Clock buffer `z`. -/
def clockBufferSite (x y z : Nat) : BlockSite where
  name := s!"CLKBUF{z}"
  type := Known.clockBuffer
  pins := [(Known.a, ⟨Chip.gin x y z, .input⟩), (Known.q, ⟨syntheticNode x y z, .output⟩)]
  part := z

/-- The steps that make clock buffer `z`. Its output wire is made between its pins. -/
def clockBufferScript (x y z : Nat) : List BuildStep :=
  let bel := siteNumber x y z
  [.site x y z s!"CLKBUF{z}" Known.clockBuffer, .place bel z none,
      .pin bel Known.a ⟨Chip.gin x y z, .input⟩]
    ++ wireScript x y z ⟨s!"CLKBUF[{z}]", []⟩
    ++ [.pin bel Known.q ⟨syntheticNode x y z, .output⟩,
      .pip (syntheticNode x y z) (Chip.gclk z)]

/-- The steps that make a block, given the number of the next LAB. -/
def blockScript (x y lab : Nat) : BlockKind → List BuildStep
  | .lab => labScript x y lab
  | .gpio => (List.range Chip.iosPerBlock).flatMap (ioScript x y)
  | .clockMux => (List.range Chip.globalClockCount).flatMap (clockBufferScript x y)

/-- The wires of a block. -/
def blockPlan (x y : Nat) : BlockKind → List BlockWire
  | .lab => labPlan x y
  | .gpio => gpioPlan
  | .clockMux => clockMuxPlan

section Blocks

variable {d₀ : Device} {x y : Nat} {made : List BlockWire} {sites : Nat}
  {pins : Option (List Ident)}
  {script : List BuildStep}

/-- A block site joins the tile with the pins of its ports and its place among the sites. -/
theorem answers_blockSite {block : BlockKind} (ht : IsTile d₀.chip x y block)
    (hs : sites < siteCount) (name : String) (type : Ident) (blockIndex : Nat) :
    (Edit.blockSite x y name type blockIndex).Answers (TileStage d₀ x y made sites pins script)
      (siteNumber x y sites)
      (TileStage d₀ x y made (sites + 1) (some [])
        (script ++
          [.site x y sites name type, .place (siteNumber x y sites) blockIndex none])) := by
  rw [List.append_cons]
  refine TileStage.answers_intern_bind fun i => ?_
  refine .bind (TileStage.answers_addBel ht.toInRange ht.contains hs i type) ?_
  refine .bind (a := ()) (TileStage.answers_modifySite (fun _ => rfl) fun _ _ hsite h =>
    h.step (.place blockIndex none hsite)) ?_
  exact .pure fun d h => h

/-- An I/O block is built as planned. -/
theorem answers_buildGpio (ht : IsTile d₀.chip x y .gpio) :
    (Edit.buildGpio x y).Answers (TileStage d₀ x y [] 0 none []) ()
      (TileStage d₀ x y gpioPlan 4 none (blockScript x y d₀.labs.size .gpio)) := by
  have hr := ht.toInRange
  have hgin (n z : Nat) : IsTileWire x y n (Chip.gin x y z) := isTileWire_pack hr (by decide)
  have hgout (n z : Nat) : IsTileWire x y n (Chip.gout x y z) := isTileWire_pack hr (by decide)
  refine .mono (.forM (fun z => TileStage d₀ x y (gpioPlan.take z) z none
    ((List.range z).flatMap (ioScript x y))) ?_) (fun _ h => h) (fun _ h => h)
  intro i z hz
  obtain ⟨hlt, rfl⟩ := eq_of_getElem?_range hz
  have hlt : z < 4 := hlt
  have hplan : gpioPlan[z]? = some ⟨s!"PAD[{z}]", []⟩ := by
    rw [gpioPlan, List.getElem?_map, hz, Option.map_some]
  have hcount : (gpioPlan.take (z + 1)).length = z + 1 := by
    rw [List.length_take]
    exact Nat.min_eq_left hlt
  have hle : (gpioPlan.take (z + 1)).length ≤ syntheticCount := by
    rw [hcount]
    exact Nat.le_trans hlt (by decide)
  refine .bind (TileStage.answers_openWire hr (by decide +kernel) (by decide) hplan) ?_
  refine .bind (answers_blockSite ht (Nat.lt_of_lt_of_le hlt (by decide)) _ _ _) ?_
  refine .bind (a := ()) (TileStage.answers_addBelPin hr hle List.not_mem_nil ?_) ?_
  · rw [hcount]
    exact isTileWire_syntheticNode (Nat.lt_succ_self z)
  refine .bind (TileStage.answers_requirePort ht
    (congrArg (Option.map _) (indexBelow?_natCast hlt))) ?_
  refine .bind (a := ()) (TileStage.answers_addBelPin hr hle (by decide) (hgin _ _)) ?_
  refine .bind (TileStage.answers_requirePort ht
    (congrArg (Option.map _) (indexBelow?_natCast hlt))) ?_
  refine .bind (a := ()) (TileStage.answers_addBelPin hr hle (by decide) (hgin _ _)) ?_
  refine .bind (TileStage.answers_requirePort ht
    (congrArg (Option.map _) (indexBelow?_natCast hlt))) ?_
  refine .mono (TileStage.answers_addBelPin hr hle (by decide) (hgout _ _)) (fun _ h => h) ?_
  refine fun d h => h.close.congr ?_
  rw [List.range_succ, List.flatMap_append, List.flatMap_singleton]
  simp only [ioScript, ioSite, List.append_assoc, List.cons_append, List.nil_append, List.map_cons,
    List.map_nil]

/-- The clock buffers are built as planned. -/
theorem answers_buildClockMux (ht : IsTile d₀.chip x y .clockMux) :
    (Edit.buildClockMux x y).Answers (TileStage d₀ x y [] 0 none []) ()
      (TileStage d₀ x y clockMuxPlan 4 none (blockScript x y d₀.labs.size .clockMux)) := by
  have hr := ht.toInRange
  have hzero : InRange 0 0 := ⟨by decide, by decide⟩
  refine .mono (.forM (fun z => TileStage d₀ x y (clockMuxPlan.take z) z none
    ((List.range z).flatMap (clockBufferScript x y))) ?_) (fun _ h => h) (fun _ h => h)
  intro i z hz
  obtain ⟨hlt, rfl⟩ := eq_of_getElem?_range hz
  have hlt : z < 4 := hlt
  have hplan : clockMuxPlan[z]? = some ⟨s!"CLKBUF[{z}]", []⟩ := by
    rw [clockMuxPlan, List.getElem?_map, hz, Option.map_some]
  have hle (k : Nat) : (clockMuxPlan.take k).length ≤ syntheticCount := by
    rw [List.length_take]
    exact Nat.le_trans (Nat.min_le_right _ _) (by decide)
  have hwire : IsTileWire x y (clockMuxPlan.take (z + 1)).length (syntheticNode x y z) := by
    have hcount : (clockMuxPlan.take (z + 1)).length = z + 1 := by
      rw [List.length_take]
      exact Nat.min_eq_left hlt
    rw [hcount]
    exact isTileWire_syntheticNode (Nat.lt_succ_self z)
  refine .bind (answers_blockSite ht (Nat.lt_of_lt_of_le hlt (by decide)) _ _ _) ?_
  refine .bind (TileStage.answers_requirePort ht
    (congrArg (Option.map _) (indexBelow?_natCast hlt))) ?_
  refine .bind (a := ()) (TileStage.answers_addBelPin hr (hle _) List.not_mem_nil
    (isTileWire_pack hr (by decide))) ?_
  refine .bind (TileStage.answers_openWire hr (by decide +kernel) (by decide) hplan) ?_
  refine .bind (a := ()) (TileStage.answers_addBelPin hr (hle _) (by decide) hwire) ?_
  refine .bind (TileStage.answers_requirePort ht
    (congrArg (Option.map _) (indexBelow?_natCast hlt))) ?_
  rw [Edit.addPip_eq_addPips]
  refine .mono (TileStage.answers_addPips_chip hr (hle _) (kind_pack_lt z hzero (by decide)) ?_)
    (fun _ h => h) fun d h => h.close.congr ?_
  rotate_left
  · rw [List.range_succ, List.flatMap_append, List.flatMap_singleton]
    simp only [clockBufferScript, List.append_assoc, List.cons_append, List.nil_append,
      List.map_cons, List.map_nil]
  rintro src hsrc
  obtain rfl := List.mem_singleton.mp hsrc
  exact hwire

/-- The LABs of a block. -/
def blockLabs (x y : Nat) : BlockKind → List Lab
  | .lab => [labAt x y]
  | .gpio | .clockMux => []

/-- The number of sites of a block. -/
def blockSites : BlockKind → Nat
  | .lab => 60
  | .gpio => Chip.iosPerBlock
  | .clockMux => Chip.globalClockCount

/-- A tile holds its block, and nothing else has changed since `d₀`. -/
structure TileDone (d₀ : Device) (x y : Nat) (block : BlockKind) (d : Device) : Prop where
  builds : d₀.Builds (blockScript x y d₀.labs.size block) d
  chip : d.chip = d₀.chip
  labs : d.labs.toList = d₀.labs.toList ++ blockLabs x y block
  uphill : ∀ n < syntheticCount, d.wires.uphill? (syntheticNode x y n) =
    ((blockPlan x y block)[n]?).map BlockWire.uphill
  size : (d.tile? x y).map Array.size = some (blockSites block)
  elsewhere : ∀ x' y', (x', y') ≠ (x, y) → x' < coordinateCount → y' < coordinateCount →
    SameTile d₀ d x' y'

/-- A block is built as planned, and no other tile is touched. -/
theorem answers_buildBlock {block : BlockKind} (ht : IsTile d₀.chip x y block) :
    (Edit.buildBlock x y block).Answers (TileStage d₀ x y [] 0 none []) ()
      (TileDone d₀ x y block) := by
  cases block with
  | lab =>
      refine .mono (answers_buildLab ht) (fun _ h => h) fun d ⟨h, hbuilds⟩ => ?_
      refine ⟨hbuilds, h.chip, ?_, h.uphill, Option.map_eq_some_iff.mpr h.tile,
        fun x' y' hne hx' hy' => ?_⟩
      · rw [h.labs, Array.toList_push]
        rfl
      · exact { h.elsewhere x' y' hne hx' hy' with }
  | gpio =>
      refine .mono (answers_buildGpio ht) (fun _ h => h) fun d h => ?_
      exact ⟨h.builds, h.chip, by rw [h.labs, blockLabs, List.append_nil], h.uphill,
        Option.map_eq_some_iff.mpr h.tile, h.elsewhere⟩
  | clockMux =>
      refine .mono (answers_buildClockMux ht) (fun _ h => h) fun d h => ?_
      exact ⟨h.builds, h.chip, by rw [h.labs, blockLabs, List.append_nil], h.uphill,
        Option.map_eq_some_iff.mpr h.tile, h.elsewhere⟩

end Blocks

/-! ### All tiles -/

namespace Chip

/-- The wires of a tile. -/
def tilePlan (c : Chip) (t : Nat × Nat) : List BlockWire :=
  ((c.blockAt t.1 t.2).map (blockPlan t.1 t.2)).getD []

/-- The number of sites of a tile. -/
def tileSites (c : Chip) (t : Nat × Nat) : Nat := ((c.blockAt t.1 t.2).map blockSites).getD 0

/-- A tile has room for its sites. -/
theorem tileSites_lt (c : Chip) (t : Nat × Nat) : c.tileSites t < siteCount := by
  rw [tileSites]
  cases c.blockAt t.1 t.2 with
  | none => decide
  | some block => cases block <;> decide

/-- The LABs of some tiles, in order. -/
def labsOf (c : Chip) (tiles : List (Nat × Nat)) : List Lab :=
  tiles.flatMap fun t => ((c.blockAt t.1 t.2).map (blockLabs t.1 t.2)).getD []

/-- The number of LABs on the tiles in front of tile number `k`. -/
def labNumber (c : Chip) (k : Nat) : Nat := (c.labsOf (c.tiles.take k)).length

/-- The steps that make the block of a tile, given the number of the next LAB. -/
def tileScript (c : Chip) (lab : Nat) (t : Nat × Nat) : List BuildStep :=
  ((c.blockAt t.1 t.2).map (blockScript t.1 t.2 lab)).getD []

/-- The steps that make the blocks of the first `k` tiles. -/
def blocksScript (c : Chip) (k : Nat) : List BuildStep :=
  (c.tiles.take k).zipIdx.flatMap fun (t, i) => c.tileScript (c.labNumber i) t

/-- The steps that make the pips of the routing multiplexers. -/
def routingScript (c : Chip) : List BuildStep := muxesScript c.muxes

/-- The steps that make a device. -/
def script (c : Chip) : List BuildStep := c.blocksScript c.tiles.length ++ c.routingScript

/-- The steps for one more tile. -/
theorem blocksScript_succ {c : Chip} {k : Nat} {t : Nat × Nat} {block : BlockKind}
    (ht : c.tiles[k]? = some t) (hblock : c.blockAt t.1 t.2 = some block) :
    c.blocksScript (k + 1) = c.blocksScript k ++ blockScript t.1 t.2 (c.labNumber k) block := by
  have hlt := (List.getElem?_eq_some_iff.mp ht).1
  rw [blocksScript, List.take_add_one, ht, List.zipIdx_append, List.flatMap_append, ← blocksScript,
    List.length_take, Nat.min_eq_left (Nat.le_of_lt hlt), Nat.zero_add]
  simp [tileScript, hblock]

end Chip

/-- A tile holds no wires and sites. -/
structure IsBlank (d : Device) (t : Nat × Nat) : Prop where
  uphill : ∀ n < syntheticCount, d.wires.uphill? (syntheticNode t.1 t.2 n) = none
  created : ∀ name : Ident, d.created[(t.1, t.2, name)]? = none
  size : (d.tile? t.1 t.2).map Array.size = some 0

/-- The first `k` tiles of a chip hold their blocks, and the others nothing. -/
structure BuildStage (c : Chip) (k : Nat) (d : Device) : Prop where
  builds : ∃ selection, (Device.blank selection c).Builds (c.blocksScript k) d
  chip : d.chip = c
  labs : d.labs.toList = c.labsOf (c.tiles.take k)
  done : ∀ t ∈ c.tiles.take k, ∀ n < syntheticCount,
    d.wires.uphill? (syntheticNode t.1 t.2 n) = ((c.tilePlan t)[n]?).map BlockWire.uphill
  sized : ∀ t ∈ c.tiles.take k, (d.tile? t.1 t.2).map Array.size = some (c.tileSites t)
  blank : ∀ t ∈ c.tiles.drop k, IsBlank d t

/-- Before the first tile nothing is built. -/
theorem buildStage_blank (selection : Selection) (c : Chip) :
    BuildStage c 0 (Device.blank selection c) := by
  refine ⟨⟨selection, .start⟩, rfl, rfl, by simp, by simp, ?_⟩
  rintro ⟨x, y⟩ ht
  rw [List.drop_zero, Chip.mem_tiles] at ht
  obtain ⟨hx, hy⟩ := ht
  have hc : c.contains x y = true := by simp [Chip.contains, hx, hy]
  refine ⟨fun n _ => WireGraph.uphill?_empty _, fun name => by simp [Device.blank], ?_⟩
  have hlt : y * c.width + x < c.width * c.height := by
    have : y * c.width + c.width ≤ c.height * c.width := by
      rw [← Nat.succ_mul]
      exact Nat.mul_le_mul_right _ hy
    rw [Nat.mul_comm c.width]
    omega
  have htile : (Device.blank selection c).tile? x y = some #[] := by
    rw [Device.tile?, Device.tileIndex?_of_contains hc]
    simp [Device.blank, hlt]
  rw [htile]
  rfl

/-- A blank tile is at the first stage, with no wires and no sites. -/
theorem IsBlank.tileStage {d : Device} {x y : Nat} (h : IsBlank d (x, y)) :
    TileStage d x y [] 0 none [] d where
  builds := .start
  chip := rfl
  labs := rfl
  uphill n hn := h.uphill n hn
  named name w hw := by rw [h.created name] at hw; cases hw
  tile := Option.map_eq_some_iff.mp h.size
  lastSite ps hps := by cases hps
  elsewhere x' y' _ _ _ := ⟨fun _ _ => rfl, fun _ => rfl, rfl⟩

/-- The next tile gets its block. -/
theorem BuildStage.next {c : Chip} (hc : c.Fits) {k : Nat} {d d' : Device} (h : BuildStage c k d)
    {t : Nat × Nat} (ht : c.tiles[k]? = some t) {block : BlockKind}
    (hblock : c.blockAt t.1 t.2 = some block) (hdone : TileDone d t.1 t.2 block d') :
    BuildStage c (k + 1) d' := by
  obtain ⟨hk, rfl⟩ := List.getElem?_eq_some_iff.mp ht
  have htake : c.tiles.take (k + 1) = c.tiles.take k ++ [c.tiles[k]] := by
    rw [List.take_add_one, ht]
    rfl
  have hother {t : Nat × Nat} (hmem : t ∈ c.tiles) (hne : t ≠ c.tiles[k]) : SameTile d d' t.1 t.2 :=
    have hr := hc.inRange hmem
    hdone.elsewhere t.1 t.2 hne hr.x_lt hr.y_lt
  constructor
  case builds =>
    obtain ⟨selection, hbuilds⟩ := h.builds
    refine ⟨selection, ?_⟩
    rw [Chip.blocksScript_succ ht hblock, Chip.labNumber, ← h.labs, Array.length_toList]
    exact hbuilds.trans hdone.builds
  case chip => rw [hdone.chip, h.chip]
  case labs =>
    rw [hdone.labs, h.labs, htake, Chip.labsOf, Chip.labsOf, List.flatMap_append,
      List.flatMap_singleton, hblock]
    rfl
  case done =>
    intro t ht' n hn
    rw [htake] at ht'
    by_cases heq : t = c.tiles[k]
    · subst heq
      rw [hdone.uphill n hn, Chip.tilePlan, hblock]
      rfl
    · have hmem := (List.mem_append.mp ht').resolve_right (by simpa using heq)
      rw [(hother (List.mem_of_mem_take hmem) heq).uphill n hn, h.done t hmem n hn]
  case sized =>
    intro t ht'
    rw [htake] at ht'
    by_cases heq : t = c.tiles[k]
    · subst heq
      rw [hdone.size, Chip.tileSites, hblock]
      rfl
    · have hmem := (List.mem_append.mp ht').resolve_right (by simpa using heq)
      rw [(hother (List.mem_of_mem_take hmem) heq).size, h.sized t hmem]
  case blank =>
    intro t ht'
    -- No tile is listed twice, so the new one is not among those still to come.
    have hne : t ≠ c.tiles[k] := by
      rintro rfl
      obtain ⟨i, hi, heq⟩ := List.mem_drop_iff_getElem.mp ht'
      have := (List.Nodup.getElem_inj_iff c.nodup_tiles).mp heq
      omega
    have hsame := hother (List.mem_of_mem_drop ht') hne
    rw [← List.drop_drop] at ht'
    have hblank := h.blank t (List.mem_of_mem_drop ht')
    refine ⟨fun n hn => ?_, fun name => ?_, ?_⟩
    · rw [hsame.uphill n hn, hblank.uphill n hn]
    · rw [hsame.created name, hblank.created name]
    · rw [hsame.size, hblank.size]

/-! ### The whole device -/

/-- A model holds the blocks of its chip: their wires, each with the wires uphill of it, their
sites, and the LABs in the order of their tiles. -/
structure IsBuilt (c : Chip) (d : Device) : Prop where
  chip : d.chip = c
  labs : d.labs.toList = c.labsOf c.tiles
  uphill : ∀ t ∈ c.tiles, ∀ n < syntheticCount,
    d.wires.uphill? (syntheticNode t.1 t.2 n) = ((c.tilePlan t)[n]?).map BlockWire.uphill
  sized : ∀ t ∈ c.tiles, (d.tile? t.1 t.2).map Array.size = some (c.tileSites t)

/-- A model holds the blocks of its chip, and was made by a script. -/
structure IsBuiltBy (c : Chip) (script : List BuildStep) (d : Device) :
    Prop extends IsBuilt c d where
  builds : ∃ selection, (Device.blank selection c).Builds script d

/-- What makes nothing leaves the device built by the same script. -/
theorem IsBuiltBy.silent {c : Chip} {script : List BuildStep} {d d' : Device}
    (h : IsBuiltBy c script d) (hd : d.Silent d') (hd' : IsBuilt c d') : IsBuiltBy c script d' :=
  ⟨hd', h.builds.imp fun _ hbuilds => hbuilds.silent hd⟩

/-- The sites of a tile are numbered from zero. -/
theorem IsBuilt.exists_site {c : Chip} (hc : c.Fits) {d : Device} (h : IsBuilt c d) {x y n : Nat}
    (ht : (x, y) ∈ c.tiles) (hn : n < c.tileSites (x, y)) :
    ∃ site, d.site? (siteNumber x y n) = some site := by
  have hr := hc.inRange ht
  have hcount := c.tileSites_lt (x, y)
  obtain ⟨tile, htile, hsize⟩ := Option.map_eq_some_iff.mp (h.sized (x, y) ht)
  refine ⟨tile[n], ?_⟩
  rw [Device.site?_siteNumber d hr.x_lt hr.y_lt (by omega), htile, Option.bind_some]
  exact Array.getElem?_eq_getElem (by omega)

section Device

variable {c : Chip} {script : List BuildStep}

/-- The tiles are built one after another, up to the last. -/
theorem answers_buildBlocks (hc : c.Fits) :
    (Edit.buildBlocks fun x y => (c.blockAt x y).toList).Answers (BuildStage c 0) ()
      (IsBuiltBy c (c.blocksScript c.tiles.length)) := by
  rw [Edit.buildBlocks]
  refine .get_bind fun d hd => ?_
  rw [hd.chip]
  refine .bind (a := ()) (.forM (BuildStage c) ?_) ?_
  · rintro k ⟨x, y⟩ ht d h
    have hmem := List.mem_of_getElem? ht
    obtain ⟨block, hblock⟩ := Chip.exists_blockAt hmem
    have hblank : IsBlank d (x, y) :=
      h.blank (x, y) (List.mem_of_getElem? (i := 0) (by rw [List.getElem?_drop]; exact ht))
    obtain ⟨d', hrun, hdone⟩ := answers_buildBlock
      ⟨hc.inRange hmem, by rw [h.chip]; exact hblock⟩ d hblank.tileStage
    refine ⟨d', ?_, h.next hc ht hblock hdone⟩
    simp only [hblock, Option.toList_some]
    exact Edit.run_bind_of_ok hrun
  · refine .get_bind fun d _ => .modify fun d' h => ?_
    have hall : c.tiles.take c.tiles.length = c.tiles := List.take_length
    exact ⟨⟨h.chip, by rw [h.labs, hall], hall ▸ h.done, hall ▸ h.sized⟩,
      h.builds.imp fun _ hbuilds => hbuilds.silent (.of_fields rfl rfl rfl rfl rfl rfl)⟩

/-- Changes to the graph that make no synthetic wire leave the device built. -/
theorem IsBuilt.of_sameSynthetic (hc : c.Fits) {d : Device} (h : IsBuilt c d) {g : WireGraph}
    (hg : d.wires.SameSynthetic g) : IsBuilt c { d with wires := g } :=
  { h with
    uphill := fun t ht n hn =>
      have hr := hc.inRange ht
      (hg hr.x_lt hr.y_lt hn).trans (h.uphill t ht n hn) }

/-- Importing the multiplexers touches no wire that the blocks made. -/
theorem answers_importRouting (hc : c.Fits) :
    Edit.importRouting.Answers (IsBuiltBy c (c.blocksScript c.tiles.length)) ()
      (IsBuiltBy c c.script) := by
  rw [Edit.importRouting]
  refine .get_bind fun d hd => ?_
  rw [hd.chip]
  let pips (mux : Mux) : List BuildStep := mux.sources.map (.pip · mux.dst)
  refine .bind (a := ()) (.mono (.forM (fun k => IsBuiltBy c (c.blocksScript c.tiles.length ++
    (c.muxes.take k).flatMap pips)) ?_) (fun d h => ?_) fun d h => h) ?_
  · refine fun k mux hmux => .modify fun d h => ?_
    obtain ⟨hdst, hsrc⟩ := Chip.hasNode_muxes (List.mem_of_getElem? hmux)
    refine ⟨h.toIsBuilt.of_sameSynthetic hc (WireGraph.sameSynthetic_addPips (hdst.kind_lt hc)
      fun src hmem => .inl ((hsrc src hmem).kind_lt hc)), ?_⟩
    rw [List.take_add_one, hmux, Option.toList_some, List.flatMap_append, List.flatMap_singleton,
      ← List.append_assoc]
    exact h.builds.imp fun _ hbuilds => hbuilds.addPips mux.sources mux.dst
  · rwa [List.take_zero, List.flatMap_nil, List.append_nil]
  · refine .get_bind fun d _ => .modify fun d' h => ?_
    rw [List.take_length] at h
    exact h.silent (.of_fields rfl rfl rfl rfl rfl rfl) { h with }

/-- Interning a name before a step leaves the device built by the same script. -/
theorem answers_intern_bind_isBuiltBy {s : String} {f : Ident → Edit Unit}
    (hf : ∀ i, (f i).Answers (IsBuiltBy c script) () (IsBuiltBy c script)) :
    (Edit.intern s >>= f).Answers (IsBuiltBy c script) () (IsBuiltBy c script) :=
  .intern_bind (fun d h => h.silent (.intern d s) { h with }) fun i =>
    (hf i).mono (fun _ h => h.2) fun _ h => h

/-- Recording the attributes of a port touches neither wires nor LABs. -/
theorem answers_recordPort (port : String) (attributes : Table String AttrValue) :
    (Edit.recordPort port attributes).Answers (IsBuiltBy c script) () (IsBuiltBy c script) := by
  rw [Edit.recordPort]
  refine answers_intern_bind_isBuiltBy fun portId => ?_
  refine .bind (a := ()) (Q := IsBuiltBy c script) (.modify fun d h =>
    h.silent (.of_fields rfl rfl rfl rfl rfl rfl) { h with }) ?_
  refine .bind (a := ()) (.forM_const fun entry _ => ?_) ?_
  · exact answers_intern_bind_isBuiltBy fun keyId => .modify fun d h =>
      h.silent (.of_fields rfl rfl rfl rfl rfl rfl) { h with }
  · split
    · refine .get_bind fun d hd => ?_
      split
      · exact .modify fun d h => h.silent (.of_fields rfl rfl rfl rfl rfl rfl) { h with }
      · exact .pure fun d h => h
    · exact .pure fun d h => h

/-- Every device is built as planned. -/
theorem answers_build (hc : c.Fits) :
    (Edit.build fun x y => (c.blockAt x y).toList).Answers (BuildStage c 0) ()
      (IsBuiltBy c c.script) := by
  rw [Edit.build]
  refine .bind (a := ()) (answers_buildBlocks hc) (.bind (a := ()) (answers_importRouting hc) ?_)
  refine .get_bind fun d hd => ?_
  exact .forM_const fun entry _ => answers_recordPort entry.1 entry.2

end Device

/-! ### Selections -/

/-- A grid is from 3 to 128 columns wide and from 2 to 128 rows high. -/
theorem Chip.isGrid_iff {width height : Nat} :
    isGrid width height = true ↔ 3 ≤ width ∧ width ≤ 128 ∧ 2 ≤ height ∧ height ≤ 128 := by
  simp only [isGrid, Bool.and_eq_true, decide_eq_true_iff, and_assoc]

/-- The tiles of a grid have coordinates of seven bits. -/
theorem Chip.fits_of_isGrid {c : Chip} (h : Chip.isGrid c.width c.height = true) : c.Fits := by
  obtain ⟨-, hwidth, -, hheight⟩ := isGrid_iff.mp h
  exact ⟨hwidth, hheight⟩

/-- The chips that can be selected have grids of the right size. -/
theorem Selection.isGrid_chip {selection : Selection} {c : Chip} (h : selection.chip = .ok c) :
    Chip.isGrid c.width c.height = true := by
  rw [Selection.chip] at h
  split at h
  · split at h
    · rename_i chip hgrid
      obtain rfl := Except.ok.inj h
      rw [Chip.ofGrid?, Option.ite_none_right_eq_some] at hgrid
      obtain ⟨hgrid, h⟩ := hgrid
      obtain rfl := Option.some.inj h
      exact hgrid
    · cases h
  · split at h
    · rename_i chip hpart
      obtain rfl := Except.ok.inj h
      obtain ⟨entry, hentry, rfl⟩ := Option.map_eq_some_iff.mp hpart
      have hall : ∀ entry ∈ Chip.parts, Chip.isGrid entry.2.1 entry.2.2 = true := by decide
      exact hall entry (List.mem_of_find?_eq_some hentry)
    · cases h

/-- The chips that can be selected fit handles. -/
theorem Selection.fits_chip {selection : Selection} {c : Chip} (h : selection.chip = .ok c) :
    c.Fits :=
  Chip.fits_of_isGrid (isGrid_chip h)

namespace Device

/-- A model of a selected chip is what the build leaves. -/
theorem exists_run_build {selection : Selection} {d : Device} (h : ofSelection selection = .ok d) :
    ∃ c, selection.chip = .ok c ∧
      (Edit.build fun x y => (c.blockAt x y).toList).run (blank selection c) = (.ok (), d) := by
  cases hc : selection.chip with
  | error e =>
    simp only [ofSelection, hc, bind, Except.bind] at h
    cases h
  | ok c =>
    simp only [ofSelection, hc, bind, Except.bind, ofLayout] at h
    split at h
    · rename_i d' hrun
      obtain rfl := Except.ok.inj h
      exact ⟨c, rfl, hrun⟩
    · cases h

/-- The model of a selected chip exists, and is built as planned. -/
theorem exists_isBuiltBy {selection : Selection} {c : Chip} (h : selection.chip = .ok c) :
    ∃ d, ofSelection selection = .ok d ∧ IsBuiltBy c c.script d := by
  obtain ⟨d, hrun, hd⟩ := answers_build (Selection.fits_chip h) _ (buildStage_blank selection c)
  refine ⟨d, ?_, hd⟩
  simp only [ofSelection, h, ofLayout, bind, Except.bind, hrun]

/-- Where the chip is accepted a device is built. -/
theorem exists_ofSelection {selection : Selection} {c : Chip} (h : selection.chip = .ok c) :
    ∃ d, ofSelection selection = .ok d ∧ IsBuilt c d := by
  obtain ⟨d, hd, hbuilt⟩ := exists_isBuiltBy h
  exact ⟨d, hd, hbuilt.toIsBuilt⟩

/-- The chip of the smallest grid that can be asked for. -/
theorem chip_smallestGrid : (Selection.ofGrid 3 2).chip = .ok ⟨"synthetic-3x2", 3, 2⟩ := rfl

/-- A device made for a selection has gone through the script of its chip. -/
theorem isBuiltBy_of_ofSelection {selection : Selection} {d : Device}
    (h : ofSelection selection = .ok d) : ∃ c, selection.chip = .ok c ∧ IsBuiltBy c c.script d := by
  obtain ⟨c, hc, -⟩ := exists_run_build h
  obtain ⟨d', hd', hbuilt⟩ := exists_isBuiltBy hc
  obtain rfl := Except.ok.inj (h.symm.trans hd')
  exact ⟨c, hc, hbuilt⟩

/-- A device made for a selection is built, on a chip whose tiles fit a handle. -/
theorem isBuilt_of_ofSelection {selection : Selection} {d : Device}
    (h : ofSelection selection = .ok d) : ∃ c, c.Fits ∧ IsBuilt c d := by
  obtain ⟨c, hc, hbuilt⟩ := isBuiltBy_of_ofSelection h
  exact ⟨c, Selection.fits_chip hc, hbuilt.toIsBuilt⟩

end Device

end Fabric
