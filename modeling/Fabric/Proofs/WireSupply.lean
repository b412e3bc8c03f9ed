import Fabric.Proofs.BlockWires
import Fabric.Proofs.Adjacency
import Mathlib.Tactic.IntervalCases

/-!
# No floating wires

On a built device every wire can be driven and is used: it has a pip to it or is on a pin through
which a site drives it, and it has a pip from it or is on a pin through which a site reads it. The
wires come from three places, the multiplexers of the chip, the LABs, and the other blocks, and each
is completed only by another one.

## Main results

* `givesDriver_of_isBlockWire`, `givesLoad_of_isBlockWire`: what a block does for the wires that it
  makes;
* `Chip.supplies_script`: every wire of a device gets a driver and a load.
-/

namespace Fabric

open Device (syntheticNode)

/-! ### Drivers and loads in a script -/

/-- A script gives a wire a driver: a pip to it, or a pin that may drive it. -/
def GivesDriver (s : List BuildStep) (w : Wire) : Prop :=
  (∃ src, .pip src w ∈ s) ∨ ∃ bel name dir, .pin bel name ⟨w, dir⟩ ∈ s ∧ dir ≠ .input

/-- A script gives a wire a load: a pip from it, or a pin that may read it. -/
def GivesLoad (s : List BuildStep) (w : Wire) : Prop :=
  (∃ dst, .pip w dst ∈ s) ∨ ∃ bel name dir, .pin bel name ⟨w, dir⟩ ∈ s ∧ dir ≠ .output

/-- A longer script gives the same drivers. -/
theorem GivesDriver.mono {s s' : List BuildStep} (hs : s ⊆ s') {w : Wire} (h : GivesDriver s w) :
    GivesDriver s' w :=
  h.imp (fun ⟨src, hsrc⟩ => ⟨src, hs hsrc⟩) fun ⟨bel, name, dir, hpin, hdir⟩ =>
    ⟨bel, name, dir, hs hpin, hdir⟩

/-- A longer script gives the same loads. -/
theorem GivesLoad.mono {s s' : List BuildStep} (hs : s ⊆ s') {w : Wire} (h : GivesLoad s w) :
    GivesLoad s' w :=
  h.imp (fun ⟨dst, hdst⟩ => ⟨dst, hs hdst⟩) fun ⟨bel, name, dir, hpin, hdir⟩ =>
    ⟨bel, name, dir, hs hpin, hdir⟩

section Block

variable {x y lab : Nat} {block : BlockKind}

/-- The script of a block makes a pip from each wire that its plan has uphill of a wire. -/
theorem pip_mem_of_uphill {n : Nat} {wire : BlockWire} {src : Wire}
    (hn : (blockPlan x y block)[n]? = some wire) (hsrc : src ∈ wire.uphill) :
    .pip src (syntheticNode x y n) ∈ blockScript x y lab block :=
  mem_blockScript.mpr (.inl ⟨n, wire, hn, mem_wireScript.mpr (.inr ⟨src, hsrc, rfl⟩)⟩)

/-- The script of a block makes a pip from each source of a multiplexer of its outputs. -/
theorem pip_mem_of_mux {mux : Mux} {src : Wire} (hmux : mux ∈ blockMuxes x y block)
    (hsrc : src ∈ mux.sources) : .pip src mux.dst ∈ blockScript x y lab block :=
  mem_blockScript.mpr (.inr (.inr ⟨mux, hmux, src, hsrc, rfl⟩))

/-- The script of a block makes the pins of its sites. -/
theorem exists_pin_mem {site : BlockSite} {pin : Ident × SitePin}
    (hsite : site ∈ blockSitePlan x y lab block) (hpin : pin ∈ site.pins) :
    ∃ bel, .pin bel pin.1 pin.2 ∈ blockScript x y lab block := by
  obtain ⟨n, hn⟩ := List.getElem?_of_mem hsite
  exact ⟨siteNumber x y n, mem_blockScript.mpr
    (.inr (.inl ⟨n, site, hn, mem_siteScript.mpr (.inr (.inl ⟨pin, hpin, rfl⟩))⟩))⟩

/-- A wire that the plan of a block feeds has a driver. -/
theorem givesDriver_of_uphill {n : Nat} {wire : BlockWire} {src : Wire}
    (hn : (blockPlan x y block)[n]? = some wire) (hsrc : src ∈ wire.uphill) :
    GivesDriver (blockScript x y lab block) (syntheticNode x y n) :=
  .inl ⟨src, pip_mem_of_uphill hn hsrc⟩

/-- A wire that the plan of a block uses to feed another one has a load. -/
theorem givesLoad_of_uphill {n : Nat} {wire : BlockWire} {src : Wire}
    (hn : (blockPlan x y block)[n]? = some wire) (hsrc : src ∈ wire.uphill) :
    GivesLoad (blockScript x y lab block) src :=
  .inl ⟨_, pip_mem_of_uphill hn hsrc⟩

/-- A wire at a pin of a site that may drive it has a driver. -/
theorem givesDriver_of_pin {site : BlockSite} {name : Ident} {w : Wire} (dir : PortDir)
    (hsite : site ∈ blockSitePlan x y lab block) (hpin : (name, ⟨w, dir⟩) ∈ site.pins)
    (hdir : dir ≠ .input) : GivesDriver (blockScript x y lab block) w := by
  obtain ⟨bel, hmem⟩ := exists_pin_mem hsite hpin
  exact .inr ⟨bel, name, dir, hmem, hdir⟩

/-- A wire at a pin of a site that may read it has a load. -/
theorem givesLoad_of_pin {site : BlockSite} {name : Ident} {w : Wire} (dir : PortDir)
    (hsite : site ∈ blockSitePlan x y lab block) (hpin : (name, ⟨w, dir⟩) ∈ site.pins)
    (hdir : dir ≠ .output) : GivesLoad (blockScript x y lab block) w := by
  obtain ⟨bel, hmem⟩ := exists_pin_mem hsite hpin
  exact .inr ⟨bel, name, dir, hmem, hdir⟩

/-! ### Wires of a LAB -/

section Lab

variable {z : Nat}

/-- The wires of an ALM are wires of the block. -/
theorem getElem?_blockPlan_alm (hz : z < Chip.almsPerLab) {k : Nat} (hk : k < 18) :
    (blockPlan x y .lab)[10 + 18 * z + k]? = (almPlan x y z)[k]? :=
  getElem?_labPlan hz hk

/-- The sites of an ALM are sites of the block. -/
theorem mem_blockSitePlan_lab (hz : z < Chip.almsPerLab) {site : BlockSite}
    (hsite : site ∈ almSites x y lab z) : site ∈ blockSitePlan x y lab .lab :=
  List.mem_flatMap.mpr ⟨z, List.mem_range.mpr hz, hsite⟩

/-- A wire at an output of a site of an ALM has a driver. -/
theorem givesDriver_of_almSite (hz : z < Chip.almsPerLab) (s i : Nat) {site : BlockSite}
    {name : Ident} {w : Wire} (hsite : (almSites x y lab z)[s]? = some site)
    (hpin : site.pins[i]? = some (name, ⟨w, .output⟩)) :
    GivesDriver (blockScript x y lab .lab) w :=
  givesDriver_of_pin .output (mem_blockSitePlan_lab hz (List.mem_of_getElem? hsite))
    (List.mem_of_getElem? hpin) (by decide)

/-- A wire at an input of a site of an ALM has a load. -/
theorem givesLoad_of_almSite (hz : z < Chip.almsPerLab) (s i : Nat) {site : BlockSite}
    {name : Ident} {w : Wire} (hsite : (almSites x y lab z)[s]? = some site)
    (hpin : site.pins[i]? = some (name, ⟨w, .input⟩)) :
    GivesLoad (blockScript x y lab .lab) w :=
  givesLoad_of_pin .input (mem_blockSitePlan_lab hz (List.mem_of_getElem? hsite))
    (List.mem_of_getElem? hpin) (by decide)

/-- A wire that feeds a wire of an ALM has a load. -/
theorem givesLoad_of_almPlan (hz : z < Chip.almsPerLab) {j : Nat} (hj : j < 18) {wire : BlockWire}
    {src : Wire} (hwire : (almPlan x y z)[j]? = some wire) (hsrc : src ∈ wire.uphill) :
    GivesLoad (blockScript x y lab .lab) src :=
  givesLoad_of_uphill ((getElem?_blockPlan_alm hz hj).trans hwire) hsrc

/-- A wire that feeds an output of an ALM has a load. -/
theorem givesLoad_of_almMux (hz : z < Chip.almsPerLab) (i : Nat) {mux : Mux} {src : Wire}
    (hmux : (almMuxes x y z)[i]? = some mux) (hsrc : src ∈ mux.sources) :
    GivesLoad (blockScript x y lab .lab) src :=
  .inl ⟨mux.dst, pip_mem_of_mux
    (List.mem_flatMap.mpr ⟨z, List.mem_range.mpr hz, List.mem_of_getElem? hmux⟩) hsrc⟩

/-- A wire of an ALM is the output of a LUT or of a flip-flop, or is fed by other wires. -/
theorem givesDriver_almNode (hz : z < Chip.almsPerLab) {k : Nat} (hk : k < 18) :
    GivesDriver (blockScript x y lab .lab) (almNode x y z k) := by
  have hfed {wire : BlockWire} {src : Wire} (hwire : (almPlan x y z)[k]? = some wire)
      (hsrc : src ∈ wire.uphill) : GivesDriver (blockScript x y lab .lab) (almNode x y z k) :=
    givesDriver_of_uphill ((getElem?_blockPlan_alm hz hk).trans hwire) hsrc
  interval_cases k
  -- The outputs of the LUTs.
  · exact givesDriver_of_almSite hz 0 8 rfl rfl
  · exact givesDriver_of_almSite hz 1 8 rfl rfl
  -- The selectors.
  iterate 8 exact hfed rfl (.head _)
  -- The data inputs and the outputs of the flip-flops, in turn.
  · exact hfed rfl (.head _)
  · exact givesDriver_of_almSite hz 2 7 rfl rfl
  · exact hfed rfl (.head _)
  · exact givesDriver_of_almSite hz 3 7 rfl rfl
  · exact hfed rfl (.head _)
  · exact givesDriver_of_almSite hz 4 7 rfl rfl
  · exact hfed rfl (.head _)
  · exact givesDriver_of_almSite hz 5 7 rfl rfl

/-- A wire of an ALM is read by a flip-flop, or feeds a flip-flop or an output of the block. -/
theorem givesLoad_almNode (hz : z < Chip.almsPerLab) {k : Nat} (hk : k < 18) :
    GivesLoad (blockScript x y lab .lab) (almNode x y z k) := by
  interval_cases k
  -- The outputs of the LUTs feed the data inputs of the flip-flops.
  · exact givesLoad_of_almPlan hz (j := 10) (by decide) rfl (.head _)
  · exact givesLoad_of_almPlan hz (j := 14) (by decide) rfl (.head _)
  -- The selectors are read by the first flip-flop of their half.
  · exact givesLoad_of_almSite hz 2 0 rfl rfl
  · exact givesLoad_of_almSite hz 2 1 rfl rfl
  · exact givesLoad_of_almSite hz 2 2 rfl rfl
  · exact givesLoad_of_almSite hz 2 5 rfl rfl
  · exact givesLoad_of_almSite hz 4 0 rfl rfl
  · exact givesLoad_of_almSite hz 4 1 rfl rfl
  · exact givesLoad_of_almSite hz 4 2 rfl rfl
  · exact givesLoad_of_almSite hz 4 5 rfl rfl
  -- The data inputs and the outputs of the flip-flops, in turn.
  · exact givesLoad_of_almSite hz 2 6 rfl rfl
  · exact givesLoad_of_almMux hz 0 rfl (.head _)
  · exact givesLoad_of_almSite hz 3 6 rfl rfl
  · exact givesLoad_of_almMux hz 1 rfl (.head _)
  · exact givesLoad_of_almSite hz 4 6 rfl rfl
  · exact givesLoad_of_almMux hz 3 rfl (.head _)
  · exact givesLoad_of_almSite hz 5 6 rfl rfl
  · exact givesLoad_of_almMux hz 4 rfl (.head _)

/-- A shared wire is fed by the data lines. -/
theorem givesDriver_shared {n : Nat} (hn : n < 10) :
    GivesDriver (blockScript x y lab .lab) (syntheticNode x y n) := by
  have hfed {wire : BlockWire} {src : Wire} (hwire : (sharedPlan x y)[n]? = some wire)
      (hsrc : src ∈ wire.uphill) :
        GivesDriver (blockScript x y lab .lab) (syntheticNode x y n) := by
    refine givesDriver_of_uphill ?_ hsrc
    rw [blockPlan, labPlan, List.getElem?_append_left (by rwa [length_sharedPlan]), hwire]
  interval_cases n
  all_goals exact hfed rfl (.head _)

/-- A shared wire feeds the selectors of its category, or the flip-flops themselves. -/
theorem givesLoad_shared {n : Nat} (hn : n < 10) :
    GivesLoad (blockScript x y lab .lab) (syntheticNode x y n) := by
  have hzero : 0 < Chip.almsPerLab := by decide
  interval_cases n
  -- The selectors of the first ALM are fed by all clocks, enables and clears.
  · exact givesLoad_of_almPlan hzero (j := 2) (by decide) rfl (.head _)
  · exact givesLoad_of_almPlan hzero (j := 2) (by decide) rfl (.tail _ (.head _))
  · exact givesLoad_of_almPlan hzero (j := 2) (by decide) rfl (.tail _ (.tail _ (.head _)))
  · exact givesLoad_of_almPlan hzero (j := 3) (by decide) rfl (.head _)
  · exact givesLoad_of_almPlan hzero (j := 3) (by decide) rfl (.tail _ (.head _))
  · exact givesLoad_of_almPlan hzero (j := 3) (by decide) rfl (.tail _ (.tail _ (.head _)))
  · exact givesLoad_of_almPlan hzero (j := 4) (by decide) rfl (.head _)
  · exact givesLoad_of_almPlan hzero (j := 4) (by decide) rfl (.tail _ (.head _))
  -- The synchronous clear and load are read by its first flip-flop.
  · exact givesLoad_of_almSite hzero 2 3 rfl rfl
  · exact givesLoad_of_almSite hzero 2 4 rfl rfl

/-- The inputs of a LAB are read: those of the ALMs by LUTs, the others by shared wires. -/
theorem givesLoad_labInput {n : Nat} (hn : n < BlockKind.lab.inputCount) :
    GivesLoad (blockScript x y lab .lab) (Chip.gin x y n) := by
  have hn : n < 89 := hn
  rcases Nat.lt_or_ge n 80 with hlt | hge
  · have hz : n / 8 < Chip.almsPerLab := Nat.div_lt_of_lt_mul hlt
    have hpin : ∀ k < 8, ∃ pin ∈ AlmPin.all, pin.index = k := by decide
    obtain ⟨pin, hpin, hindex⟩ := hpin (n % 8) (Nat.mod_lt _ (by decide))
    have hwire : Chip.gin x y n = almInput x y (n / 8) pin := by
      rw [almInput, hindex, Nat.mul_comm, Chip.almInputCount, Nat.div_add_mod]
    rw [hwire]
    have hread : (pin.ident, ⟨almInput x y (n / 8) pin, .input⟩) ∈
        (lutSite x y lab (n / 8) (10 + 18 * (n / 8)) .top).pins := by
      refine List.mem_append_left _ ?_
      simp only [almInputs, List.map_map, List.mem_map]
      exact ⟨pin, hpin, rfl⟩
    exact givesLoad_of_pin .input (mem_blockSitePlan_lab hz (.head _)) hread (by decide)
  · have hfeeds {j : Nat} {wire : BlockWire} (hj : j < 10)
        (hwire : (sharedPlan x y)[j]? = some wire)
        (hsrc : Chip.gin x y n ∈ wire.uphill) :
          GivesLoad (blockScript x y lab .lab) (Chip.gin x y n) := by
      refine givesLoad_of_uphill (?_ : (blockPlan x y .lab)[j]? = some wire) hsrc
      rw [blockPlan, labPlan, List.getElem?_append_left (by rwa [length_sharedPlan]), hwire]
    interval_cases n
    · exact hfeeds (j := 0) (by decide) rfl (.head _)
    · exact hfeeds (j := 1) (by decide) rfl (.head _)
    · exact hfeeds (j := 2) (by decide) rfl (.head _)
    · exact hfeeds (j := 5) (by decide) rfl (.head _)
    · exact hfeeds (j := 5) (by decide) rfl (.tail _ (.head _))
    · exact hfeeds (j := 5) (by decide) rfl (.tail _ (.tail _ (.head _)))
    · exact hfeeds (j := 5) (by decide) rfl (.tail _ (.tail _ (.tail _ (.head _))))
    · exact hfeeds (j := 6) (by decide) rfl (.head _)
    · exact hfeeds (j := 7) (by decide) rfl (.head _)

/-- The outputs of a LAB are driven by flip-flops and LUTs. -/
theorem givesDriver_labOutput {n : Nat} (hn : n < BlockKind.lab.outputCount) :
    GivesDriver (blockScript x y lab .lab) (Chip.gout x y n) := by
  have hn : n < 60 := hn
  have hz : n / 6 < Chip.almsPerLab := Nat.div_lt_of_lt_mul hn
  obtain ⟨mux, hmux, hdst, src, hsrc⟩ : ∃ mux ∈ almMuxes x y (n / 6), mux.dst = Chip.gout x y n ∧
      ∃ src, src ∈ mux.sources := by
    obtain ⟨z, k, hk, rfl⟩ : ∃ z k, k < 6 ∧ n = z * Chip.almOutputCount + k :=
      ⟨n / 6, n % 6, Nat.mod_lt _ (by decide),
        by rw [Chip.almOutputCount, Nat.mul_comm, Nat.div_add_mod]⟩
    have hdiv : (z * Chip.almOutputCount + k) / 6 = z := by
      rw [Chip.almOutputCount]
      omega
    rw [hdiv]
    have hmux {i : Nat} {mux : Mux} (hi : (almMuxes x y z)[i]? = some mux) :
        mux ∈ almMuxes x y z := List.mem_of_getElem? hi
    interval_cases k
    · exact ⟨_, hmux (i := 0) rfl, rfl, _, .head _⟩
    · exact ⟨_, hmux (i := 1) rfl, rfl, _, .head _⟩
    · exact ⟨_, hmux (i := 3) rfl, rfl, _, .head _⟩
    · exact ⟨_, hmux (i := 4) rfl, rfl, _, .head _⟩
    · exact ⟨_, hmux (i := 2) rfl, rfl, _, .head _⟩
    · exact ⟨_, hmux (i := 5) rfl, rfl, _, .head _⟩
  rw [← hdst]
  exact .inl ⟨src, pip_mem_of_mux (List.mem_flatMap.mpr ⟨_, List.mem_range.mpr hz, hmux⟩) hsrc⟩

end Lab

/-! ### Wires of all blocks -/

/-- Every wire that a block makes gets a driver within the block. -/
theorem givesDriver_made {n : Nat} (hn : n < (blockPlan x y block).length) :
    GivesDriver (blockScript x y lab block) (syntheticNode x y n) := by
  cases block with
  | lab =>
    rw [blockPlan, length_labPlan] at hn
    rcases Nat.lt_or_ge n 10 with hlt | hge
    · exact givesDriver_shared hlt
    · have hz : (n - 10) / 18 < 10 := by omega
      have h :
          GivesDriver (blockScript x y lab .lab) (almNode x y ((n - 10) / 18) ((n - 10) % 18)) :=
        givesDriver_almNode hz (Nat.mod_lt _ (by decide))
      rwa [almNode, show 10 + 18 * ((n - 10) / 18) + (n - 10) % 18 = n by omega] at h
  | gpio =>
    have hn : n < 4 := hn
    exact givesDriver_of_pin .inout (List.mem_map.mpr ⟨n, List.mem_range.mpr hn, rfl⟩) (.head _)
      (by decide)
  | clockMux =>
    have hn : n < 4 := hn
    exact givesDriver_of_pin .output (List.mem_map.mpr ⟨n, List.mem_range.mpr hn, rfl⟩)
      (.tail _ (.head _)) (by decide)

/-- Every wire that a block makes gets a load within the block. -/
theorem givesLoad_made {n : Nat} (hn : n < (blockPlan x y block).length) :
    GivesLoad (blockScript x y lab block) (syntheticNode x y n) := by
  cases block with
  | lab =>
    rw [blockPlan, length_labPlan] at hn
    rcases Nat.lt_or_ge n 10 with hlt | hge
    · exact givesLoad_shared hlt
    · have hz : (n - 10) / 18 < 10 := by omega
      have h : GivesLoad (blockScript x y lab .lab) (almNode x y ((n - 10) / 18) ((n - 10) % 18)) :=
        givesLoad_almNode hz (Nat.mod_lt _ (by decide))
      rwa [almNode, show 10 + 18 * ((n - 10) / 18) + (n - 10) % 18 = n by omega] at h
  | gpio =>
    have hn : n < 4 := hn
    exact givesLoad_of_pin .inout (List.mem_map.mpr ⟨n, List.mem_range.mpr hn, rfl⟩) (.head _)
      (by decide)
  | clockMux =>
    have hn : n < 4 := hn
    have hmux : ⟨Chip.gclk n, [syntheticNode x y n]⟩ ∈ blockMuxes x y .clockMux :=
      List.mem_map.mpr ⟨n, List.mem_range.mpr hn, rfl⟩
    exact .inl ⟨Chip.gclk n, pip_mem_of_mux hmux (.head _)⟩

/-- A block reads all its inputs. -/
theorem givesLoad_input {z : Nat} (hz : z < block.inputCount) :
    GivesLoad (blockScript x y lab block) (Chip.gin x y z) := by
  cases block with
  | lab => exact givesLoad_labInput hz
  | gpio =>
    have hz : z < 8 := hz
    obtain ⟨i, hi, rfl | rfl⟩ : ∃ i < 4, z = i * 2 ∨ z = i * 2 + 1 := ⟨z / 2, by omega, by omega⟩
    · exact givesLoad_of_pin .input (List.mem_map.mpr ⟨i, List.mem_range.mpr hi, rfl⟩)
        (.tail _ (.head _)) (by decide)
    · exact givesLoad_of_pin .input (List.mem_map.mpr ⟨i, List.mem_range.mpr hi, rfl⟩)
        (.tail _ (.tail _ (.head _))) (by decide)
  | clockMux =>
    exact givesLoad_of_pin .input (List.mem_map.mpr ⟨z, List.mem_range.mpr hz, rfl⟩) (.head _)
      (by decide)

/-- A block drives all its outputs. -/
theorem givesDriver_output {z : Nat} (hz : z < block.outputCount) :
    GivesDriver (blockScript x y lab block) (Chip.gout x y z) := by
  cases block with
  | lab => exact givesDriver_labOutput hz
  | gpio =>
    exact givesDriver_of_pin .output (List.mem_map.mpr ⟨z, List.mem_range.mpr hz, rfl⟩)
      (.tail _ (.tail _ (.tail _ (.head _)))) (by decide)
  | clockMux => exact absurd hz (Nat.not_lt_zero z)

end Block

/-! ### All wires -/

namespace Chip

variable {c : Chip} {x y : Nat}

/-- The script of a device makes the pips of its multiplexers. -/
theorem pip_mem_script {mux : Mux} (hmux : mux ∈ c.muxes) {src : Wire} (hsrc : src ∈ mux.sources) :
    .pip src mux.dst ∈ c.script :=
  mem_script.mpr (.inr ⟨mux, hmux, src, hsrc, rfl⟩)

/-- The steps of a block are steps of the device, for some number of its LAB. -/
theorem exists_blockScript_subset {block : BlockKind} (hblock : c.blockAt x y = some block) :
    ∃ lab, blockScript x y lab block ⊆ c.script := by
  obtain ⟨k, hk⟩ := List.getElem?_of_mem (mem_tiles_of_blockAt hblock)
  exact ⟨c.labNumber k, fun _ hstep => mem_script_of_tile hk hblock hstep⟩

/-- The multiplexers of the inputs of a tile are among those of the chip. -/
theorem inputMuxes_subset (ht : (x, y) ∈ c.tiles) : c.inputMuxes x y ⊆ c.muxes := fun _ hmux =>
  List.mem_append_left _ (List.mem_append_left _ (List.mem_flatMap.mpr ⟨(x, y), ht, hmux⟩))

/-- The multiplexers of the inputs of a block, by their outputs. -/
theorem map_dst_inputMuxes {block : BlockKind} (hblock : c.blockAt x y = some block) :
    (c.inputMuxes x y).map Mux.dst = (List.range block.inputCount).map (gin x y) := by
  rw [inputMuxes, hblock]
  cases block <;> rfl

/-- Every input of a block has a driver to select from. -/
theorem sources_inputMuxes_ne_nil {mux : Mux} (hmux : mux ∈ c.inputMuxes x y) :
    mux.sources ≠ [] := by
  rw [inputMuxes] at hmux
  split at hmux
  · simp only [labInputMuxes, List.mem_append, List.mem_flatMap, List.mem_map] at hmux
    rcases hmux with ((⟨_, -, _, -, rfl⟩ | ⟨_, -, rfl⟩) | ⟨_, -, rfl⟩) | ⟨_, -, rfl⟩ <;>
      exact List.cons_ne_nil _ _
  · simp only [List.mem_flatMap, List.mem_cons, List.not_mem_nil, or_false] at hmux
    rcases hmux with ⟨_, -, rfl | rfl⟩ <;> exact List.cons_ne_nil _ _
  · obtain ⟨_, -, rfl⟩ := List.mem_map.mp hmux
    exact List.cons_ne_nil _ _
  · cases hmux

/-- An input of a block is the output of a multiplexer. -/
theorem exists_inputMux {block : BlockKind} (hblock : c.blockAt x y = some block) {z : Nat}
    (hz : z < block.inputCount) : ∃ mux ∈ c.inputMuxes x y, mux.dst = gin x y z := by
  have hdst : gin x y z ∈ (c.inputMuxes x y).map Mux.dst := by
    rw [map_dst_inputMuxes hblock]
    exact List.mem_map_of_mem (List.mem_range.mpr hz)
  exact List.mem_map.mp hdst

/-- An input of a block is driven by its multiplexer. -/
theorem givesDriver_gin {block : BlockKind} (hblock : c.blockAt x y = some block) {z : Nat}
    (hz : z < block.inputCount) : GivesDriver c.script (gin x y z) := by
  obtain ⟨mux, hmux, heq⟩ := exists_inputMux hblock hz
  obtain ⟨src, hsrc⟩ := List.exists_mem_of_ne_nil _ (sources_inputMuxes_ne_nil hmux)
  rw [← heq]
  exact .inl ⟨src, pip_mem_script (inputMuxes_subset (mem_tiles_of_blockAt hblock) hmux) hsrc⟩

/-- An output of a block feeds a horizontal track. -/
theorem gout_mem_sources_row {block : BlockKind} (hblock : c.blockAt x y = some block) {z : Nat}
    (hz : z < block.outputCount) :
    gout x y z ∈ (Direction.row.mux c (x, y) (z % trackCount)).sources := by
  refine List.mem_append_left _ (List.mem_append_left _ (List.mem_append_left _ ?_))
  rw [trackOutputs, hblock]
  cases block with
  | lab =>
    refine List.mem_map_of_mem (List.mem_filter.mpr ⟨List.mem_range.mpr hz, ?_⟩)
    rw [Nat.add_zero, decide_eq_true_iff]
  | gpio =>
    have hz : z < 4 := hz
    have hmod : z % trackCount = z := Nat.mod_eq_of_lt (Nat.lt_trans hz (by decide))
    simp only [hmod, show z < iosPerBlock from hz, if_true]
    exact List.mem_singleton_self _
  | clockMux => exact absurd hz (Nat.not_lt_zero z)

/-- An output of a block drives a horizontal track of its tile. -/
theorem givesLoad_gout {block : BlockKind} (hblock : c.blockAt x y = some block) {z : Nat}
    (hz : z < block.outputCount) : GivesLoad c.script (gout x y z) :=
  .inl ⟨_,
    pip_mem_script (Direction.row.mux_mem (mem_tiles_of_blockAt hblock) (mod_trackCount_lt z))
    (gout_mem_sources_row hblock hz)⟩

/-- The tracks of a tile with one number drive each other. -/
theorem pip_across_mem_script (dir : Direction) {tile : Nat × Nat} (ht : tile ∈ c.tiles) (t : Nat) :
    .pip (dir.across.track tile t) (dir.track tile t) ∈ c.script := by
  have hmem := pip_mem_script (dir.mux_mem ht (mod_trackCount_lt t))
    ((dir.mem_sources_mux ht).mpr (.inr (.inr rfl)))
  rwa [dir.dst_mux, dir.track_mod, dir.across.track_mod] at hmem

/-- A track is driven by the like track across. -/
theorem givesDriver_track (dir : Direction) {tile : Nat × Nat} (ht : tile ∈ c.tiles) (t : Nat) :
    GivesDriver c.script (dir.track tile t) :=
  .inl ⟨_, pip_across_mem_script dir ht t⟩

/-- A track drives the like track across. -/
theorem givesLoad_track (dir : Direction) {tile : Nat × Nat} (ht : tile ∈ c.tiles) (t : Nat) :
    GivesLoad c.script (dir.track tile t) := by
  have hmem := pip_across_mem_script dir.across ht t
  rw [dir.across_across] at hmem
  exact .inl ⟨_, hmem⟩

/-- Every grid has a clock multiplexer, which drives the global clocks. -/
theorem givesDriver_gclk (hc : isGrid c.width c.height = true) {i : Nat}
    (hi : i < globalClockCount) :
    GivesDriver c.script (gclk i) := by
  rw [isGrid_iff] at hc
  have hblock : c.blockAt (c.width / 2) 0 = some .clockMux := by
    rw [blockAt, if_neg, if_neg, if_pos ⟨rfl, rfl⟩]
    · omega
    · simp only [contains, Bool.and_eq_true, decide_eq_true_iff]
      omega
  obtain ⟨lab, hsubset⟩ := exists_blockScript_subset hblock
  have hmux : ⟨gclk i, [syntheticNode (c.width / 2) 0 i]⟩ ∈ blockMuxes (c.width / 2) 0 .clockMux :=
    List.mem_map.mpr ⟨i, List.mem_range.mpr hi, rfl⟩
  exact .inl ⟨_, hsubset (pip_mem_of_mux hmux (.head _))⟩

/-- Every grid has a LAB, whose clock inputs the global clocks feed. -/
theorem exists_gclk_mem_sources (hc : isGrid c.width c.height = true) {i : Nat}
    (hi : i < globalClockCount) :
    ∃ mux ∈ c.muxes, gclk i ∈ mux.sources := by
  rw [isGrid_iff] at hc
  have hblock : c.blockAt 1 1 = some .lab := by
    rw [blockAt, if_neg, if_neg, if_neg]
    · omega
    · omega
    · simp only [contains, Bool.and_eq_true, decide_eq_true_iff]
      omega
  have hmux :
      ⟨gin 1 1 (labClockBase + 0), (List.range globalClockCount).map gclk⟩ ∈ c.inputMuxes 1 1 := by
    simp only [inputMuxes, hblock]
    exact List.mem_append_left _ (List.mem_append_left _ (List.mem_append_right _
      (List.mem_map.mpr ⟨0, List.mem_range.mpr (by decide), rfl⟩)))
  exact ⟨_, inputMuxes_subset (mem_tiles_of_blockAt hblock) hmux,
    List.mem_map_of_mem (List.mem_range.mpr hi)⟩

/-- A global clock drives the clock inputs of a LAB. -/
theorem givesLoad_gclk (hc : isGrid c.width c.height = true) {i : Nat} (hi : i < globalClockCount) :
    GivesLoad c.script (gclk i) := by
  obtain ⟨mux, hmux, hsrc⟩ := exists_gclk_mem_sources hc hi
  exact .inl ⟨_, pip_mem_script hmux hsrc⟩

/-- Every wire of a device gets a driver and a load. -/
theorem supplies_script (hc : isGrid c.width c.height = true) {w : Wire} (hw : c.HasWire w) :
    GivesDriver c.script w ∧ GivesLoad c.script w := by
  rcases hw with hw | hw
  · cases hw with
    | made hblock hn =>
      obtain ⟨lab, hsubset⟩ := exists_blockScript_subset hblock
      exact ⟨(givesDriver_made hn).mono hsubset, (givesLoad_made hn).mono hsubset⟩
  · cases hw with
    | gin hblock hz =>
      obtain ⟨lab, hsubset⟩ := exists_blockScript_subset hblock
      exact ⟨givesDriver_gin hblock hz, (givesLoad_input hz).mono hsubset⟩
    | gout hblock hz =>
      obtain ⟨lab, hsubset⟩ := exists_blockScript_subset hblock
      exact ⟨(givesDriver_output hz).mono hsubset, givesLoad_gout hblock hz⟩
    | h4 ht t => exact ⟨givesDriver_track .row ht t, givesLoad_track .row ht t⟩
    | v4 ht t => exact ⟨givesDriver_track .column ht t, givesLoad_track .column ht t⟩
    | gclk hi => exact ⟨givesDriver_gclk hc hi, givesLoad_gclk hc hi⟩

end Chip

/-! ### Built devices -/

namespace Device

/-- A wire can be driven: by a pip, or by a site through an output pin on it. -/
def HasDriver (d : Device) (w : Wire) : Prop :=
  d.wires.sourcesOf w ≠ [] ∨ ∃ pin ∈ (d.wires.infoOf w).belPins, ∃ dir,
    d.belPin? pin.bel pin.pin = some ⟨w, dir⟩ ∧ dir ∈ [.output, .inout]

/-- A wire is used: by a pip, or by a site through an input pin on it. -/
def HasLoad (d : Device) (w : Wire) : Prop :=
  d.wires.targetsOf w ≠ [] ∨ ∃ pin ∈ (d.wires.infoOf w).belPins, ∃ dir,
    d.belPin? pin.bel pin.pin = some ⟨w, dir⟩ ∧ dir ∈ [.input, .inout]

namespace Builds

variable {d₀ d : Device} {s : List BuildStep} {w : Wire}

/-- A pin that a script makes is found on its wire and on its site. -/
theorem pin_mem (h : d₀.Builds s d) {bel : BelId} {name : Ident} {dir : PortDir}
    (hpin : .pin bel name ⟨w, dir⟩ ∈ s) : ∃ pin ∈ (d.wires.infoOf w).belPins,
      d.belPin? pin.bel pin.pin = some ⟨w, dir⟩ := by
  refine ⟨⟨bel, name⟩, ?_, h.belPin? hpin⟩
  rw [← Array.mem_toList_iff, h.belPins]
  exact List.mem_append_right _ (List.mem_filterMap.mpr ⟨_, hpin, if_pos rfl⟩)

/-- A driver that a script gives is a driver in the device. -/
theorem hasDriver (h : d₀.Builds s d) (hw : GivesDriver s w) : d.HasDriver w := by
  rcases hw with ⟨src, hsrc⟩ | ⟨bel, name, dir, hpin, hdir⟩
  · refine .inl (List.ne_nil_of_mem (a := src) ?_)
    rw [h.sourcesOf]
    exact List.mem_append_right _ (List.mem_filterMap.mpr ⟨_, hsrc, if_pos rfl⟩)
  · obtain ⟨pin, hmem, hpin⟩ := h.pin_mem hpin
    refine .inr ⟨pin, hmem, dir, hpin, ?_⟩
    cases dir <;> first | decide | exact absurd rfl hdir

/-- A load that a script gives is a load in the device. -/
theorem hasLoad (h : d₀.Builds s d) (hw : GivesLoad s w) : d.HasLoad w := by
  rcases hw with ⟨dst, hdst⟩ | ⟨bel, name, dir, hpin, hdir⟩
  · refine .inl (List.ne_nil_of_mem (a := dst) ?_)
    rw [h.targetsOf]
    exact List.mem_append_right _ (List.mem_filterMap.mpr ⟨_, hdst, if_pos rfl⟩)
  · obtain ⟨pin, hmem, hpin⟩ := h.pin_mem hpin
    refine .inr ⟨pin, hmem, dir, hpin, ?_⟩
    cases dir <;> first | decide | exact absurd rfl hdir

end Builds

end Device

end Fabric
