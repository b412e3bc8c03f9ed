import Fabric.Proofs.LabTopology
import Fabric.Proofs.WireSupply

/-!
# No parallel pips

The pips of a built device are those that its script makes, and these come in bundles: the uphill
wires of a wire that a block makes, the drivers of a block output, and the multiplexers of the chip.
Every bundle is a multiplexer of its own, no two of them drive the same wire, and none lists a
driver twice. So no two pips join the same wires.

## Main results

* `Chip.pips_perm`: the pips of a built device, bundle by bundle;
* `Chip.nodup_dst_bundles`, `Chip.nodup_sources_bundles`: no driven wire and no driver occurs twice;
* `Device.suppliedOnce`: no wire floats, and no pip occurs twice.
-/

namespace Fabric

open Device (syntheticNode)

/-! ### Pips of a script -/

/-- The pip that a step makes. -/
def BuildStep.pip? : BuildStep → Option Pip
  | pip src dst => some ⟨src, dst⟩
  | _ => none

/-- The pips of a multiplexer. -/
def Mux.pips (mux : Mux) : List Pip := mux.sources.map fun src => ⟨src, mux.dst⟩

/-- The pips of a model are those that the steps make. -/
theorem Device.Builds.pips_perm {d₀ d : Device} {s : List BuildStep} (h : d₀.Builds s d)
    (hblank : d₀.wires = .empty) : d.wires.pips.Perm (s.filterMap BuildStep.pip?) := by
  rw [List.perm_iff_count]
  rintro ⟨src, dst⟩
  have hnone : d₀.wires.sourcesOf dst = [] := by
    rw [hblank, WireGraph.sourcesOf, WireGraph.infoOf_empty]
  rw [WireGraph.count_pips, h.sourcesOf, hnone, List.nil_append, List.count_filterMap,
    List.count_filterMap]
  refine List.countP_congr fun step _ => ?_
  cases step with
  | pip src' dst' =>
    simp only [BuildStep.sourceFor, BuildStep.pip?, beq_iff_eq, Option.some.injEq, Pip.mk.injEq,
      Option.ite_none_right_eq_some]
    exact and_comm
  | wire => rfl
  | site => rfl
  | pin => rfl
  | place => rfl

/-- A mux is a bundle of its own pips. -/
theorem filterMap_muxesScript (muxes : List Mux) :
    (muxesScript muxes).filterMap BuildStep.pip? = muxes.flatMap Mux.pips := by
  rw [muxesScript, List.filterMap_flatMap]
  refine congrArg (List.flatMap · muxes) (funext fun mux => ?_)
  rw [List.filterMap_map]
  exact congrFun List.filterMap_eq_map' mux.sources

/-- Making a site adds no pip. -/
theorem filterMap_siteScript (x y n : Nat) (site : BlockSite) :
    (siteScript x y n site).filterMap BuildStep.pip? = [] := by
  rw [List.filterMap_eq_nil_iff]
  intro step hstep
  rcases mem_siteScript.mp hstep with rfl | ⟨_, _, rfl⟩ | rfl <;> rfl

/-- Making sites adds no pip. -/
theorem filterMap_sitesScript (x y n : Nat) (sites : List BlockSite) :
    (sitesScript x y n sites).filterMap BuildStep.pip? = [] := by
  rw [sitesScript, List.filterMap_flatMap, List.flatMap_eq_nil_iff]
  exact fun _ _ => filterMap_siteScript ..

/-! ### Bundles -/

/-- The bundles of pips to the wires that a block makes. -/
def wireBundles (x y : Nat) (wires : List BlockWire) : List Mux :=
  wires.zipIdx.map fun (wire, n) => ⟨syntheticNode x y n, wire.uphill⟩

/-- The pips onto the wires of a block are those of their bundles. -/
theorem filterMap_wiresScript (x y : Nat) (wires : List BlockWire) :
    (wiresScript x y 0 wires).filterMap BuildStep.pip? =
    (wireBundles x y wires).flatMap Mux.pips := by
  rw [wiresScript, List.filterMap_flatMap, wireBundles, List.flatMap_map]
  refine congrArg (List.flatMap · _) (funext fun entry => ?_)
  show (wireScript x y entry.2 entry.1).filterMap BuildStep.pip? = _
  rw [wireScript, List.filterMap_cons_none rfl, List.filterMap_map]
  exact congrFun List.filterMap_eq_map' entry.1.uphill

namespace Chip

variable {c : Chip}

/-- The bundles of a tile: those of its block, and the multiplexers of the chip. -/
def bundles (c : Chip) (t : Nat × Nat) : List Mux :=
  wireBundles t.1 t.2 (c.tilePlan t) ++ ((c.blockAt t.1 t.2).map (blockMuxes t.1 t.2)).getD []
    ++ c.inputMuxes t.1 t.2 ++ (List.range trackCount).map (c.horizontalMux t.1 t.2)
    ++ (List.range trackCount).map (c.verticalMux t.1 t.2)

/-- The pips of a block come in the bundles of its wires and of its outputs. -/
theorem filterMap_tileScript (c : Chip) (lab : Nat) (t : Nat × Nat) :
    ((c.tileScript lab t).filterMap BuildStep.pip?).Perm
      ((wireBundles t.1 t.2 (c.tilePlan t)).flatMap Mux.pips ++
        (((c.blockAt t.1 t.2).map (blockMuxes t.1 t.2)).getD []).flatMap Mux.pips) := by
  rw [tileScript, tilePlan]
  cases c.blockAt t.1 t.2 with
  | none => exact .refl _
  | some block =>
    refine ((blockScript_perm t.1 t.2 lab block).filterMap _).trans (.of_eq ?_)
    rw [regrouped, List.filterMap_append, List.filterMap_append, filterMap_wiresScript,
      filterMap_sitesScript, filterMap_muxesScript, List.append_nil]
    rfl

/-- The pips of a device come in bundles. -/
theorem pips_perm (c : Chip) :
    (c.script.filterMap BuildStep.pip?).Perm ((c.tiles.flatMap c.bundles).flatMap Mux.pips) := by
  have hblocks : ((c.blocksScript c.tiles.length).filterMap BuildStep.pip?).Perm
      (c.tiles.flatMap fun t => (wireBundles t.1 t.2 (c.tilePlan t)).flatMap Mux.pips ++
        (((c.blockAt t.1 t.2).map (blockMuxes t.1 t.2)).getD []).flatMap Mux.pips) := by
    rw [blocksScript, List.take_length, List.filterMap_flatMap]
    have h :=
      List.Perm.flatMap_left c.tiles.zipIdx fun p _ => c.filterMap_tileScript (c.labNumber p.2) p.1
    refine h.trans (.of_eq ?_)
    conv_rhs => rw [← List.zipIdx_map_fst 0 c.tiles, List.flatMap_map]
  have hrouting : c.routingScript.filterMap BuildStep.pip? =
      (c.tiles.flatMap fun t => (c.inputMuxes t.1 t.2).flatMap Mux.pips) ++
        (c.tiles.flatMap fun t =>
          ((List.range trackCount).map (c.horizontalMux t.1 t.2)).flatMap Mux.pips) ++
        (c.tiles.flatMap fun t =>
          ((List.range trackCount).map (c.verticalMux t.1 t.2)).flatMap Mux.pips) := by
    rw [routingScript, filterMap_muxesScript, muxes, List.flatMap_append, List.flatMap_append,
      List.flatMap_assoc, List.flatMap_assoc, List.flatMap_assoc]
  rw [script, List.filterMap_append, hrouting, List.flatMap_assoc]
  simp only [bundles, List.flatMap_append]
  rw [← List.append_assoc, ← List.append_assoc]
  refine .trans (.append_right _ (.trans (.append_right _ (.trans (.append_right _ hblocks)
    (List.flatMap_append_perm ..))) (List.flatMap_append_perm ..))) (List.flatMap_append_perm ..)

end Chip

/-! ### The driven wires -/

namespace Chip

variable {c : Chip} {x y : Nat}

/-- The outputs of a block that its wires drive. -/
def drivenOutputs (x y : Nat) : BlockKind → List Wire
  | .lab => (List.range BlockKind.lab.outputCount).map (gout x y)
  | .gpio => []
  | .clockMux => (List.range globalClockCount).map gclk

/-- Every output of a block is the target of one mux. -/
theorem map_dst_blockMuxes (x y : Nat) (block : BlockKind) :
    ((blockMuxes x y block).map Mux.dst).Perm (drivenOutputs x y block) := by
  cases block with
  | lab =>
    have hdst : (blockMuxes x y .lab).map Mux.dst = ((List.range almsPerLab).flatMap fun z =>
        [0, 1, 4, 2, 3, 5].map (z * almOutputCount + ·)).map (gout x y) := by
      rw [blockMuxes, List.map_flatMap, List.map_flatMap]
      rfl
    rw [hdst, drivenOutputs]
    exact List.Perm.map _ (by decide)
  | gpio => exact .refl _
  | clockMux => exact .refl _

/-- The wires that the bundles of a tile drive. -/
theorem map_dst_bundles {block : BlockKind} (hblock : c.blockAt x y = some block) :
    ((c.bundles (x, y)).map Mux.dst).Perm
      ((List.range (blockPlan x y block).length).map (syntheticNode x y) ++ drivenOutputs x y block
        ++ (List.range block.inputCount).map (gin x y) ++ (List.range trackCount).map (h4 x y)
        ++ (List.range trackCount).map (v4 x y)) := by
  have hwires : (wireBundles x y (blockPlan x y block)).map Mux.dst =
      (List.range (blockPlan x y block).length).map (syntheticNode x y) := by
    rw [List.range_eq_range', ← List.zipIdx_map_snd 0 (blockPlan x y block), List.map_map,
      wireBundles, List.map_map]
    rfl
  simp only [bundles, tilePlan, hblock, Option.map_some, Option.getD_some, List.map_append, hwires,
    map_dst_inputMuxes hblock, List.map_map]
  refine .append_right _ (.append_right _ (.append_right _ (.append_left _ ?_)))
  exact map_dst_blockMuxes x y block

/-- The keys of the wires that the bundles of a tile drive. -/
theorem map_key_drivenOutputs (hr : InRange x y) (block : BlockKind) :
    (drivenOutputs x y block).map Node.key = match block with
      | .lab => (List.range BlockKind.lab.outputCount).map ((NodeType.gout, x, y, ·))
      | .gpio => []
      | .clockMux => (List.range globalClockCount).map ((NodeType.gclk, 0, 0, ·)) := by
  cases block with
  | lab =>
    rw [drivenOutputs, List.map_map]
    exact List.map_congr_left fun z hz =>
      key_gout hr (Nat.lt_trans (List.mem_range.mp hz) (BlockKind.outputCount_lt .lab))
  | gpio => rfl
  | clockMux =>
    rw [drivenOutputs, List.map_map]
    exact List.map_congr_left fun i hi => key_gclk (List.mem_range.mp hi)

/-- No wire is driven by two bundles of a tile. -/
theorem nodup_dst_tile (hr : InRange x y) {block : BlockKind}
    (hblock : c.blockAt x y = some block) :
    ((c.bundles (x, y)).map Mux.dst).Nodup := by
  rw [(map_dst_bundles hblock).nodup_iff]
  refine .of_map Node.key ?_
  have hmade : ((List.range (blockPlan x y block).length).map (syntheticNode x y)).map Node.key =
      (List.range (blockPlan x y block).length).map ((Node.syntheticBase, x, y, ·)) := by
    rw [List.map_map]
    exact List.map_congr_left fun n hn =>
      key_syntheticNode hr (Nat.lt_trans (List.mem_range.mp hn) (length_blockPlan_lt x y block))
  have hinputs : ((List.range block.inputCount).map (gin x y)).map Node.key =
      (List.range block.inputCount).map ((NodeType.gin, x, y, ·)) := by
    rw [List.map_map]
    exact List.map_congr_left fun z hz =>
      key_gin hr (Nat.lt_trans (List.mem_range.mp hz) block.inputCount_lt)
  have htracks {f : Nat → Wire} {kind : Nat} (hf : ∀ t, (f t).key = (kind, x, y, t % trackCount)) :
      ((List.range trackCount).map f).map Node.key = (List.range trackCount).map
        ((kind, x, y, ·)) := by
    rw [List.map_map]
    exact List.map_congr_left fun t ht => by
      rw [Function.comp_apply, hf, Nat.mod_eq_of_lt (List.mem_range.mp ht)]
  have hrow {kind n x y : Nat} : ((List.range n).map fun z => (kind, x, y, z)).Nodup :=
    List.nodup_range.map fun z z' h => (Prod.mk.inj (Prod.mk.inj (Prod.mk.inj h).2).2).2
  simp only [List.map_append, hmade, map_key_drivenOutputs hr, hinputs, htracks (key_h4 hr),
    htracks (key_v4 hr)]
  cases block
  all_goals
    simp only [List.nodup_append, hrow, List.nodup_nil, true_and, List.mem_append, List.mem_map,
      List.not_mem_nil, or_false, ne_eq, NodeType.gin, NodeType.gout, NodeType.h4, NodeType.v4,
      NodeType.gclk, Node.syntheticBase]
    grind

/-- The clock mux stands in the middle of the lowest row. -/
theorem eq_of_blockAt_clockMux (hblock : c.blockAt x y = some .clockMux) :
    x = c.width / 2 ∧ y = 0 := by
  rw [blockAt] at hblock
  split at hblock
  · cases hblock
  · split at hblock
    · cases hblock
    · split at hblock
      · rename_i h
        exact h.symm
      · cases hblock

/-- A wire that the bundles of a tile drive is a wire of the tile, or a global clock, which the tile
of the clock multiplexer drives. -/
theorem owner_of_mem_dst (hr : InRange x y) {block : BlockKind}
    (hblock : c.blockAt x y = some block) {w : Wire} (hw : w ∈ (c.bundles (x, y)).map Mux.dst) :
    w.kind ≠ NodeType.gclk ∧ w.x = x ∧ w.y = y ∨ w.kind = NodeType.gclk ∧ block = .clockMux := by
  have hown {kind z : Nat} (hkey : w.key = (kind, x, y, z)) (hkind : kind ≠ NodeType.gclk) :
      w.kind ≠ NodeType.gclk ∧ w.x = x ∧ w.y = y := by
    simp only [Node.key, Prod.mk.injEq] at hkey
    obtain ⟨rfl, rfl, rfl, -⟩ := hkey
    exact ⟨hkind, rfl, rfl⟩
  rw [(map_dst_bundles hblock).mem_iff] at hw
  simp only [List.mem_append, List.mem_map, List.mem_range] at hw
  rcases hw with (((⟨n, hn, rfl⟩ | hw) | ⟨z, hz, rfl⟩) | ⟨t, -, rfl⟩) | ⟨t, -, rfl⟩
  · exact .inl
      (hown (key_syntheticNode hr (Nat.lt_trans hn (length_blockPlan_lt x y block))) (by decide))
  · cases block with
    | lab =>
      obtain ⟨z, hz, rfl⟩ := List.mem_map.mp hw
      exact .inl
        (hown (key_gout hr (Nat.lt_trans (List.mem_range.mp hz) (BlockKind.outputCount_lt .lab)))
        (by decide))
    | gpio => cases hw
    | clockMux =>
      obtain ⟨i, hi, rfl⟩ := List.mem_map.mp hw
      exact .inr ⟨congrArg Prod.fst (key_gclk (List.mem_range.mp hi)), rfl⟩
  · exact .inl (hown (key_gin hr (Nat.lt_trans hz block.inputCount_lt)) (by decide))
  · exact .inl (hown (key_h4 hr t) (by decide))
  · exact .inl (hown (key_v4 hr t) (by decide))

/-- No wire is driven by two bundles. -/
theorem nodup_dst_bundles (hc : c.Fits) : ((c.tiles.flatMap c.bundles).map Mux.dst).Nodup := by
  rw [List.map_flatMap, List.nodup_flatMap]
  constructor
  · rintro ⟨x, y⟩ ht
    obtain ⟨block, hblock⟩ := exists_blockAt ht
    exact nodup_dst_tile (hc.inRange ht) hblock
  · refine c.nodup_tiles.pairwise_of_forall_ne ?_
    rintro ⟨x, y⟩ ht ⟨x', y'⟩ ht' hne
    rw [Function.onFun_apply, List.disjoint_left]
    intro w hw hw'
    obtain ⟨block, hblock⟩ := exists_blockAt ht
    obtain ⟨block', hblock'⟩ := exists_blockAt ht'
    refine hne (Prod.ext_iff.mpr ?_)
    rcases owner_of_mem_dst (hc.inRange ht) hblock hw with ⟨hkind, rfl, rfl⟩ | ⟨hkind, rfl⟩
    all_goals rcases owner_of_mem_dst (hc.inRange ht') hblock' hw' with ⟨hkind', rfl, rfl⟩ |
      ⟨hkind', rfl⟩
    · exact ⟨rfl, rfl⟩
    · exact absurd hkind' hkind
    · exact absurd hkind hkind'
    · obtain ⟨rfl, rfl⟩ := eq_of_blockAt_clockMux hblock
      obtain ⟨rfl, rfl⟩ := eq_of_blockAt_clockMux hblock'
      exact ⟨rfl, rfl⟩

end Chip

/-! ### The drivers of a wire -/

section Sources

variable {c : Chip} {x y : Nat}

/-- Nodes with different keys are different. -/
theorem nodup_of_key {l : List Wire} (h : (l.map Node.key).Nodup) : l.Nodup := .of_map Node.key h

/-- Wires that a tile makes are different if their numbers are. -/
theorem nodup_map_syntheticNode (hr : InRange x y) {l : List Nat} (hl : l.Nodup)
    (hlt : ∀ n ∈ l, n < Node.indexCount) : (l.map (syntheticNode x y)).Nodup := by
  refine hl.map_on fun n hn n' hn' heq => ?_
  have hkey := congrArg Node.key heq
  rw [Chip.key_syntheticNode hr (hlt n hn), Chip.key_syntheticNode hr (hlt n' hn')] at hkey
  simpa using hkey

/-- No shared wire of a LAB has a source twice. -/
theorem nodup_uphill_sharedPlan (hr : InRange x y) :
    ∀ wire ∈ sharedPlan x y, wire.uphill.Nodup := by
  have hlines (first : Nat) : (labDataLines x y first).Nodup := (labDataLines_perm x y first).1
  -- A dedicated input is no data line.
  have hdedicated {z : Nat} (first : Nat) (hz : z < 89) (hline : z < 83 ∨ 87 ≤ z) :
      (Chip.gin x y z :: labDataLines x y first).Nodup := by
    refine List.nodup_cons.mpr ⟨fun hmem => ?_, hlines first⟩
    obtain ⟨k, -, heq⟩ := List.mem_map.mp hmem
    have hmod : (first + k) % Chip.labDataLineCount < 4 := Nat.mod_lt _ (by decide)
    have hbase : Chip.labDataLineBase = 83 := rfl
    have hcount : Node.indexCount = 1024 := rfl
    have hkey := congrArg Node.key heq
    rw [Chip.key_gin hr (by omega), Chip.key_gin hr (by omega)] at hkey
    simp only [Prod.mk.injEq, true_and] at hkey
    omega
  intro wire hwire
  simp only [sharedPlan, List.mem_append, List.mem_map, List.mem_range, List.mem_cons,
    List.not_mem_nil, or_false] at hwire
  rcases hwire with ((⟨i, hi, rfl⟩ | ⟨p, -, rfl⟩) | ⟨p, hp, rfl⟩) | rfl | rfl
  · have hi : i < 3 := hi
    have hbase : Chip.labClockBase = 80 := rfl
    exact hdedicated 0 (by omega) (.inl (by omega))
  · exact hlines p.2
  · refine hdedicated p.2 ?_ (.inr ?_) <;> rcases hp with rfl | rfl <;> decide
  · exact hlines 3
  · exact hlines 1

/-- No wire of an ALM has a source twice. -/
theorem nodup_uphill_almPlan (hr : InRange x y) {z : Nat} (hz : z < Chip.almsPerLab) :
    ∀ wire ∈ almPlan x y z, wire.uphill.Nodup := by
  have hz : z < 10 := hz
  have hcount : Node.indexCount = 1024 := rfl
  have hshared (kind : ControlKind) : ((labShared x y).get kind).Nodup := by
    have hle := kind.firstShared_add_limit_le
    rw [get_labShared, ← Function.comp_def (syntheticNode x y), ← List.map_map]
    refine nodup_map_syntheticNode hr (List.nodup_range.map fun _ _ => Nat.add_left_cancel)
      fun n hn => ?_
    obtain ⟨slot, hslot, rfl⟩ := List.mem_map.mp hn
    have hslot := List.mem_range.mp hslot
    omega
  have hselector (half : Half) : ∀ wire ∈ selectorPlan x y z half, wire.uphill.Nodup := by
    intro wire hwire
    simp only [selectorPlan, List.mem_cons, List.not_mem_nil, or_false] at hwire
    rcases hwire with rfl | rfl | rfl | rfl
    · exact hshared .clk
    · exact hshared .ena
    · exact hshared .aclr
    · have hpin (pin : AlmPin) : (almInput x y z pin).key =
          (NodeType.gin, x, y, z * Chip.almInputCount + pin.index) := by
        have hindex : pin.index < 8 := by cases pin <;> decide
        exact Chip.key_gin hr (show z * 8 + pin.index < 1024 by omega)
      refine nodup_of_key ?_
      cases half <;> simp [Half.efPins, hpin, AlmPin.index]
  have hflop {half : Half} {k out selector : Nat} (hout : out < 18) (hselector : selector < 18)
      (hne : out ≠ selector) :
      ∀ wire ∈ flopPlan z half k (almNode x y z out) (almNode x y z selector),
        wire.uphill.Nodup := by
    intro wire hwire
    simp only [flopPlan, List.mem_cons, List.not_mem_nil, or_false] at hwire
    rcases hwire with rfl | rfl
    · refine nodup_map_syntheticNode hr (l := [10 + 18 * z + out, 10 + 18 * z + selector]) ?_ ?_
      · simpa using hne
      · simp only [List.mem_cons, List.not_mem_nil, or_false]
        rintro n (rfl | rfl) <;> omega
    · exact List.nodup_nil
  intro wire hwire
  simp only [almPlan, List.mem_append, List.mem_cons, List.not_mem_nil, or_false] at hwire
  rcases hwire with (((((hwire | hwire) | hwire) | hwire) | hwire) | hwire) | hwire
  · rcases hwire with rfl | rfl <;> exact List.nodup_nil
  · exact hselector .top wire hwire
  · exact hselector .bottom wire hwire
  all_goals exact hflop (by decide) (by decide) (by decide) wire hwire

/-- A block feeds no wire twice from one source. -/
theorem nodup_uphill_blockPlan (hr : InRange x y) {block : BlockKind} :
    ∀ wire ∈ blockPlan x y block, wire.uphill.Nodup := by
  intro wire hwire
  cases block with
  | lab =>
    rcases List.mem_append.mp hwire with hwire | hwire
    · exact nodup_uphill_sharedPlan hr wire hwire
    · obtain ⟨z, hz, hwire⟩ := List.mem_flatMap.mp hwire
      exact nodup_uphill_almPlan hr (List.mem_range.mp hz) wire hwire
  | gpio =>
    obtain ⟨z, -, rfl⟩ := List.mem_map.mp hwire
    exact List.nodup_nil
  | clockMux =>
    obtain ⟨z, -, rfl⟩ := List.mem_map.mp hwire
    exact List.nodup_nil

/-- No output of a block has a source twice. -/
theorem nodup_sources_blockMuxes (hr : InRange x y) {block : BlockKind} :
    ∀ mux ∈ blockMuxes x y block, mux.sources.Nodup := by
  intro mux hmux
  cases block with
  | lab =>
    obtain ⟨z, hz, hmux⟩ := List.mem_flatMap.mp hmux
    have hz : z < 10 := List.mem_range.mp hz
    have hcount : Node.indexCount = 1024 := rfl
    have hflop {half : Half} {n out k : Nat} (hlt : n < 18) (hout : out < 18) (hne : n + 1 ≠ out)
        (hmux : mux ∈ flopMuxes x y z (10 + 18 * z + n) (almNode x y z out) half k) :
        mux.sources.Nodup := by
      obtain ⟨o, -, rfl⟩ := List.mem_map.mp hmux
      refine nodup_map_syntheticNode hr (l := [10 + 18 * z + n + 1, 10 + 18 * z + out]) ?_ ?_
      · refine List.nodup_cons.mpr ⟨?_, List.nodup_singleton _⟩
        rw [List.mem_singleton]
        omega
      · simp only [List.mem_cons, List.not_mem_nil, or_false]
        rintro m (rfl | rfl) <;> omega
    simp only [almMuxes, List.mem_append] at hmux
    rcases hmux with ((hmux | hmux) | hmux) | hmux
    all_goals exact hflop (by decide) (by decide) (by decide) hmux
  | gpio => cases hmux
  | clockMux =>
    obtain ⟨z, -, rfl⟩ := List.mem_map.mp hmux
    exact List.nodup_singleton _

/-! ### Multiplexers of the chip -/

namespace Chip

/-- Two nodes of different types are different. -/
theorem nodup_pair {a b : Wire} (h : a.kind ≠ b.kind) : [a, b].Nodup := by
  have hne : a ≠ b := fun heq => h (congrArg Node.kind heq)
  simpa using hne

/-- No input of a tile has a source twice. -/
theorem nodup_sources_inputMuxes (hr : InRange x y) :
    ∀ mux ∈ c.inputMuxes x y, mux.sources.Nodup := by
  intro mux hmux
  have htracks (t t' : Nat) : [h4 x y t, v4 x y t'].Nodup :=
    nodup_pair (by rw [kind_h4 hr, kind_v4 hr]; decide)
  rw [inputMuxes] at hmux
  split at hmux
  · simp only [labInputMuxes, List.mem_append, List.mem_flatMap, List.mem_map,
      List.mem_range] at hmux
    rcases hmux with ((⟨_, -, _, -, rfl⟩ | ⟨_, -, rfl⟩) | ⟨_, -, rfl⟩) | ⟨i, hi, rfl⟩
    · exact htracks _ _
    · refine List.nodup_range.map_on fun i hi i' hi' heq => ?_
      have hkey := congrArg Node.key heq
      rw [key_gclk (List.mem_range.mp hi), key_gclk (List.mem_range.mp hi')] at hkey
      simpa using hkey
    · exact htracks _ _
    · have hi : i < 2 := hi
      exact nodup_pair (by rw [kind_h4 hr, kind_gclk (show 2 + i < 4 by omega)]; decide)
  · simp only [List.mem_flatMap, List.mem_cons, List.not_mem_nil, or_false] at hmux
    rcases hmux with ⟨_, -, rfl | rfl⟩ <;> exact List.nodup_singleton _
  · obtain ⟨_, -, rfl⟩ := List.mem_map.mp hmux
    exact List.nodup_singleton _
  · cases hmux

/-- Outputs of a tile that drive a track: all of them different. -/
theorem trackOutputs_spec (hr : InRange x y) (shift t : Nat) : (c.trackOutputs x y shift t).Nodup ∧
    ∀ w ∈ c.trackOutputs x y shift t, w.kind = NodeType.gout := by
  rw [trackOutputs]
  split
  · constructor
    · refine (List.nodup_range.filter _).map_on fun k hk k' hk' heq => ?_
      have hlt {k : Nat} (hk : k ∈ (List.range (almsPerLab * almOutputCount)).filter fun k =>
          (k + shift) % trackCount = t) : k < Node.indexCount :=
        Nat.lt_trans (List.mem_range.mp (List.mem_of_mem_filter hk)) (by decide)
      have hkey := congrArg Node.key heq
      rw [key_gout hr (hlt hk), key_gout hr (hlt hk')] at hkey
      simpa using hkey
    · intro w hw
      obtain ⟨k, -, rfl⟩ := List.mem_map.mp hw
      exact kind_gout hr k
  · split
    · exact ⟨List.nodup_singleton _, fun w hw => by rw [List.mem_singleton.mp hw, kind_gout hr]⟩
    · exact ⟨List.nodup_nil, fun w hw => by cases hw⟩
  · exact ⟨List.nodup_nil, fun w hw => by cases hw⟩
  · exact ⟨List.nodup_nil, fun w hw => by cases hw⟩

/-- The drivers of a track: block outputs, tracks of the two neighbours, and a track across. -/
theorem nodup_trackSources {outputs : List Wire} {before after across : Wire} {p q : Prop}
    [Decidable p] [Decidable q] (kind : Nat) (houtputs : outputs.Nodup)
    (hkinds : ∀ w ∈ outputs, w.kind = NodeType.gout) (hbefore : p → before.kind = kind)
    (hafter : q → after.kind = kind) (hne : p → q → before ≠ after) (hkind : kind ≠ NodeType.gout)
    (hacross : across.kind ≠ kind) (hacross' : across.kind ≠ NodeType.gout) :
    (outputs ++ (if p then [before] else []) ++ (if q then [after] else []) ++ [across]).Nodup := by
  simp only [List.nodup_append, houtputs, true_and, List.nodup_singleton, List.mem_append,
    List.mem_ite_nil_right, List.mem_singleton, ne_eq]
  refine ⟨⟨⟨?_, ?_⟩, ?_, ?_⟩, ?_⟩
  · split <;> simp
  · rintro w hw _ ⟨hp, rfl⟩ rfl
    exact hkind ((hbefore hp).symm.trans (hkinds _ hw))
  · split <;> simp
  · rintro w (hw | ⟨hp, rfl⟩) _ ⟨hq, rfl⟩ rfl
    · exact hkind ((hafter hq).symm.trans (hkinds _ hw))
    · exact hne hp hq rfl
  · rintro w ((hw | ⟨hp, rfl⟩) | ⟨hq, rfl⟩) _ rfl rfl
    · exact hacross' (hkinds _ hw)
    · exact hacross (hbefore hp)
    · exact hacross (hafter hq)

/-- The multiplexer of a track lists no driver twice. -/
theorem Direction.nodup_sources_mux (dir : Direction) (hc : c.Fits) {tile : Nat × Nat}
    (ht : tile ∈ c.tiles) (t : Nat) : (dir.mux c tile t).sources.Nodup := by
  have hr := hc.inRange ht
  have hplace := dir.place_lt ht
  obtain ⟨houtputs, hkinds⟩ := trackOutputs_spec (c := c) hr dir.shift t
  obtain ⟨hkind, hacross⟩ := dir.nodeType_spec
  have hacrossKind : (dir.across.track tile t).kind = dir.across.nodeType :=
    dir.across.kind_track hr t
  have hrange {k : Nat} (hk : k < dir.lineLength c) :
      InRange (dir.tileAt tile k).1 (dir.tileAt tile k).2 :=
    hc.inRange ((dir.tileAt_mem_iff ht).mpr hk)
  rw [dir.sources_mux]
  refine nodup_trackSources dir.nodeType houtputs hkinds
    (fun _ => dir.kind_track (hrange (by omega)) t) (fun hlt => dir.kind_track (hrange hlt) t) ?_
    hkind.ne' (hacrossKind ▸ hacross) (hacrossKind ▸ dir.across.nodeType_spec.1.ne')
  -- The tracks of the two neighbours are at different places of the line.
  intro hpos hlt heq
  have hsame := congrArg Node.key heq
  rw [dir.key_track (hrange (by omega)), dir.key_track (hrange hlt)] at hsame
  have htiles : dir.tileAt tile (dir.place tile - 1) = dir.tileAt tile (dir.place tile + 1) :=
    Prod.ext (congrArg (·.2.1) hsame) (congrArg (·.2.2.1) hsame)
  have hplaces := congrArg dir.place htiles
  rw [dir.place_tileAt, dir.place_tileAt] at hplaces
  omega

/-- No bundle lists a driver twice. -/
theorem nodup_sources_bundles (hc : c.Fits) :
    ∀ mux ∈ c.tiles.flatMap c.bundles, mux.sources.Nodup := by
  intro mux hmux
  obtain ⟨⟨x, y⟩, ht, hmux⟩ := List.mem_flatMap.mp hmux
  have hr := hc.inRange ht
  obtain ⟨block, hblock⟩ := exists_blockAt ht
  simp only [bundles, tilePlan, hblock, Option.map_some, Option.getD_some, List.mem_append] at hmux
  rcases hmux with (((hmux | hmux) | hmux) | hmux) | hmux
  · obtain ⟨⟨wire, n⟩, hwire, rfl⟩ := List.mem_map.mp hmux
    exact nodup_uphill_blockPlan hr wire
      (List.mem_of_getElem? (List.mem_zipIdx_iff_getElem?.mp hwire))
  · exact nodup_sources_blockMuxes hr mux hmux
  · exact nodup_sources_inputMuxes hr mux hmux
  · obtain ⟨t, -, rfl⟩ := List.mem_map.mp hmux
    exact Direction.row.nodup_sources_mux hc ht t
  · obtain ⟨t, -, rfl⟩ := List.mem_map.mp hmux
    exact Direction.column.nodup_sources_mux hc ht t

end Chip

end Sources

/-! ### Built devices -/

/-- Bundles that drive different wires from different sources hold different pips. -/
theorem nodup_flatMap_pips {muxes : List Mux} (hdst : (muxes.map Mux.dst).Nodup)
    (hsources : ∀ mux ∈ muxes, mux.sources.Nodup) : (muxes.flatMap Mux.pips).Nodup := by
  rw [List.nodup_flatMap]
  constructor
  · exact fun mux hmux => (hsources mux hmux).map fun _ _ h => (Pip.mk.inj h).1
  · refine (List.pairwise_map.mp hdst).imp fun {mux mux'} hne => ?_
    rw [Function.onFun_apply, List.disjoint_left]
    intro p hp hp'
    obtain ⟨_, -, rfl⟩ := List.mem_map.mp hp
    obtain ⟨_, -, heq⟩ := List.mem_map.mp hp'
    exact hne (Pip.mk.inj heq).2.symm

/-- A finished build has made no pip twice. -/
theorem IsBuiltBy.nodup_pips {c : Chip} (hc : c.Fits) {d : Device} (h : IsBuiltBy c c.script d) :
    d.wires.pips.Nodup := by
  obtain ⟨selection, hbuilds⟩ := h.builds
  rw [((hbuilds.pips_perm rfl).trans c.pips_perm).nodup_iff]
  exact nodup_flatMap_pips (Chip.nodup_dst_bundles hc) (Chip.nodup_sources_bundles hc)

namespace Device

/-- On the device of every chip that can be selected, each wire has a driver and a load, and no two
pips join the same wires. -/
theorem suppliedOnce {selection : Selection} {c : Chip} (h : selection.chip = .ok c) :
    ∃ d, ofSelection selection = .ok d ∧ (∀ w ∈ d.wires.wires, d.HasDriver w ∧ d.HasLoad w) ∧
      d.wires.pips.Nodup := by
  obtain ⟨d, hd, hbuilt⟩ := exists_isBuiltBy h
  refine ⟨d, hd, fun w hw => ?_, hbuilt.nodup_pips (Selection.fits_chip h)⟩
  obtain ⟨selection', hbuilds⟩ := hbuilt.builds
  obtain ⟨hdriver, hload⟩ := Chip.supplies_script (Selection.isGrid_chip h) (hbuilt.hasWire hw)
  exact ⟨hbuilds.hasDriver hdriver, hbuilds.hasLoad hload⟩

/-- On the smallest grid the first clock wire of the LAB has a driver, its dedicated input, and a
load, the first clock selector. One pip joins it to each of them. -/
theorem suppliedOnce_smallest : ∃ d, ofSelection (.ofGrid 3 2) = .ok d ∧
    d.HasDriver (syntheticNode 1 1 0) ∧ d.HasLoad (syntheticNode 1 1 0) ∧
    d.wires.pips.count ⟨.pack 1 1 1 80, syntheticNode 1 1 0⟩ = 1 ∧
    d.wires.pips.count ⟨syntheticNode 1 1 0, (labAlm 1 1 0).clkSelector.top⟩ = 1 := by
  obtain ⟨d, hd, hsupplied, hnodup⟩ := suppliedOnce chip_smallestGrid
  obtain ⟨d', hd', hbuilt⟩ := exists_isBuiltBy chip_smallestGrid
  obtain rfl := Except.ok.inj (hd.symm.trans hd')
  have hdriver : (⟨.pack 1 1 1 80, syntheticNode 1 1 0⟩ : Pip) ∈ d.wires.pips :=
    hbuilt.mem_pips_of_plan (t := (1, 1)) (by decide) (by decide) rfl List.mem_cons_self
  have hload : (⟨syntheticNode 1 1 0, (labAlm 1 1 0).clkSelector.top⟩ : Pip) ∈ d.wires.pips :=
    hbuilt.mem_pips_of_plan (t := (1, 1)) (n := 12) (by decide) (by decide) rfl List.mem_cons_self
  obtain ⟨hdriven, hused⟩ := hsupplied _ (hbuilt.mem_wires_of_mem_pips hdriver).2
  exact ⟨d, hd, hdriven, hused, List.count_eq_one_of_mem hnodup hdriver,
    List.count_eq_one_of_mem hnodup hload⟩

end Device

end Fabric
