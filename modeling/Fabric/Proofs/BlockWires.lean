import Fabric.Proofs.Adjacency
import Fabric.Proofs.BuildScript

/-!
# The wires of a device

The steps that build a block speak of few wires: those that the block makes, the inputs and outputs
of the block, and the global clocks if it drives them. So every wire of a built device is a wire
that the block of a tile makes, or a routing node of the chip.

## Main results

* `IsBlockWire.of_blockScript`: the wires of a block;
* `IsBuiltBy.hasWire`: the wires of a built device;
* `IsBuiltBy.mem_pips_of_plan`: a planned wire has its pips.
-/

namespace Fabric

open Device (syntheticNode)

/-- The wires of a block fit one range of node indices. -/
theorem length_blockPlan_lt (x y : Nat) (block : BlockKind) :
    (blockPlan x y block).length < Node.indexCount := by
  cases block with
  | lab =>
    rw [blockPlan, length_labPlan]
    decide
  | gpio => exact show 4 < Node.indexCount by decide
  | clockMux => exact show 4 < Node.indexCount by decide

/-! ### The wires of a block -/

/-- A wire that the block of a tile makes, reads or drives. -/
inductive IsBlockWire (x y : Nat) (block : BlockKind) : Wire → Prop where
  | made {n : Nat} (hn : n < (blockPlan x y block).length) :
      IsBlockWire x y block (syntheticNode x y n)
  | input {z : Nat} (hz : z < block.inputCount) : IsBlockWire x y block (Chip.gin x y z)
  | output {z : Nat} (hz : z < block.outputCount) : IsBlockWire x y block (Chip.gout x y z)
  | clock {i : Nat} (hblock : block = .clockMux) (hi : i < Chip.globalClockCount) :
    IsBlockWire x y block (Chip.gclk i)

namespace IsBlockWire

variable {x y lab : Nat}

/-- The wires of a LAB are numbered below 190. -/
theorem ofNumber {n : Nat} (hn : n < 190) : IsBlockWire x y .lab (syntheticNode x y n) :=
  .made (by rwa [blockPlan, length_labPlan])

/-- The wires of an ALM are wires of its LAB. -/
theorem almNode {z k : Nat} (hz : z < Chip.almsPerLab) (hk : k < 18) :
    IsBlockWire x y .lab (almNode x y z k) := by
  have hz : z < 10 := hz
  exact .ofNumber (by omega)

/-- The inputs of an ALM are wires of its LAB. -/
theorem almInput {z : Nat} (hz : z < Chip.almsPerLab) (pin : AlmPin) :
    IsBlockWire x y .lab (almInput x y z pin) := by
  have hz : z < 10 := hz
  refine .input ?_
  have hpin : pin.index < 8 := by cases pin <;> decide
  have hcount : BlockKind.lab.inputCount = 89 := rfl
  rw [hcount, Chip.almInputCount]
  omega

/-- The data lines are wires of the LAB. -/
theorem labDataLines {first : Nat} : ∀ w ∈ labDataLines x y first, IsBlockWire x y .lab w := by
  intro w hw
  obtain ⟨k, -, rfl⟩ := List.mem_map.mp hw
  refine .input ?_
  have hmod : (first + k) % Chip.labDataLineCount < 4 := Nat.mod_lt _ (by decide)
  have hcount : BlockKind.lab.inputCount = 89 := rfl
  have hbase : Chip.labDataLineBase = 83 := rfl
  omega

/-- The shared control wires are wires of the LAB. -/
theorem labShared (kind : ControlKind) :
    ∀ w ∈ (labShared x y).get kind, IsBlockWire x y .lab w := by
  intro w hw
  rw [get_labShared, List.mem_map] at hw
  obtain ⟨slot, hslot, rfl⟩ := hw
  have hslot := List.mem_range.mp hslot
  have hlt := kind.firstShared_add_limit_le
  exact .ofNumber (by omega)

/-! ### Uphill wires of the plan -/

/-- The shared control wires have their sources in the LAB. -/
theorem of_sharedPlan : ∀ wire ∈ sharedPlan x y, ∀ src ∈ wire.uphill, IsBlockWire x y .lab src := by
  have hgin {z : Nat} (hz : z < 89) : IsBlockWire x y .lab (Chip.gin x y z) := .input hz
  intro wire hwire src hsrc
  simp only [sharedPlan, List.mem_append, List.mem_map, List.mem_range, List.mem_cons,
    List.not_mem_nil, or_false] at hwire
  rcases hwire with ((⟨i, hi, rfl⟩ | ⟨p, -, rfl⟩) | ⟨p, hp, rfl⟩) | rfl | rfl
  · rcases List.mem_cons.mp hsrc with rfl | hsrc
    · have hi : i < 3 := hi
      exact hgin (show 80 + i < 89 by omega)
    · exact labDataLines src hsrc
  · exact labDataLines src hsrc
  · rcases List.mem_cons.mp hsrc with rfl | hsrc
    · refine hgin ?_
      rcases hp with rfl | rfl <;> decide
    · exact labDataLines src hsrc
  · exact labDataLines src hsrc
  · exact labDataLines src hsrc

/-- The wires of an ALM have their sources in the LAB. -/
theorem of_almPlan {z : Nat} (hz : z < Chip.almsPerLab) :
    ∀ wire ∈ almPlan x y z, ∀ src ∈ wire.uphill, IsBlockWire x y .lab src := by
  have hselector {half : Half} : ∀ wire ∈ selectorPlan x y z half, ∀ src ∈ wire.uphill,
      IsBlockWire x y .lab src := by
    intro wire hwire src hsrc
    simp only [selectorPlan, List.mem_cons, List.not_mem_nil, or_false] at hwire
    rcases hwire with rfl | rfl | rfl | rfl
    · exact labShared .clk src hsrc
    · exact labShared .ena src hsrc
    · exact labShared .aclr src hsrc
    · obtain ⟨pin, -, rfl⟩ := List.mem_map.mp hsrc
      exact almInput hz pin
  have hflop {half : Half} {k out selector : Nat} (hout : out < 18) (hselector : selector < 18) :
      ∀ wire ∈ flopPlan z half k (Fabric.almNode x y z out) (Fabric.almNode x y z selector),
      ∀ src ∈ wire.uphill, IsBlockWire x y .lab src := by
    intro wire hwire src hsrc
    simp only [flopPlan, List.mem_cons, List.not_mem_nil, or_false] at hwire
    rcases hwire with rfl | rfl
    · simp only [List.mem_cons, List.not_mem_nil, or_false] at hsrc
      rcases hsrc with rfl | rfl
      · exact almNode hz hout
      · exact almNode hz hselector
    · cases hsrc
  intro wire hwire
  simp only [almPlan, List.mem_append, List.mem_cons, List.not_mem_nil, or_false] at hwire
  rcases hwire with (((((hwire | hwire) | hwire) | hwire) | hwire) | hwire) | hwire
  · rcases hwire with rfl | rfl <;> simp [lutPlan]
  · exact hselector wire hwire
  · exact hselector wire hwire
  all_goals exact hflop (by decide) (by decide) wire hwire

/-- What feeds the wires of a block are wires of it. -/
theorem of_blockPlan {block : BlockKind} {wire : BlockWire} (hwire : wire ∈ blockPlan x y block)
    {src : Wire} (hsrc : src ∈ wire.uphill) : IsBlockWire x y block src := by
  cases block with
  | lab =>
    rcases List.mem_append.mp hwire with hwire | hwire
    · exact of_sharedPlan wire hwire src hsrc
    · obtain ⟨z, hz, hwire⟩ := List.mem_flatMap.mp hwire
      exact of_almPlan (List.mem_range.mp hz) wire hwire src hsrc
  | gpio =>
    obtain ⟨z, -, rfl⟩ := List.mem_map.mp hwire
    cases hsrc
  | clockMux =>
    obtain ⟨z, -, rfl⟩ := List.mem_map.mp hwire
    cases hsrc

/-! ### Pins and outputs -/

/-- The pins of a LUT are on wires of the LAB. -/
theorem of_lutSite {z n : Nat} (hz : z < Chip.almsPerLab) (hn : n < 190) (half : Half) :
    ∀ pin ∈ (lutSite x y lab z n half).pins, IsBlockWire x y .lab pin.2.wire := by
  intro pin hpin
  rcases List.mem_append.mp hpin with hpin | hpin
  · simp only [almInputs, List.mem_map] at hpin
    obtain ⟨_, ⟨input, -, rfl⟩, rfl⟩ := hpin
    exact almInput hz input
  · obtain rfl := List.mem_singleton.mp hpin
    exact .ofNumber hn

/-- The pins of a flip-flop are on wires of the LAB. -/
theorem of_flopSite {z n combOut selectors k : Nat} (hz : z < Chip.almsPerLab) (hn : n + 1 < 190)
    (hselectors : selectors + 3 < 18) (half : Half) :
    ∀ pin ∈ (flopSite x y lab z n (halfWires x y z combOut selectors) half k).pins,
      IsBlockWire x y .lab pin.2.wire := by
  intro pin hpin
  rcases List.mem_append.mp hpin with hpin | hpin
  · simp only [flopInputs, halfWires, List.map_cons, List.map_nil, List.mem_cons, List.not_mem_nil,
      or_false] at hpin
    rcases hpin with rfl | rfl | rfl | rfl | rfl | rfl | rfl
    · exact almNode hz (by omega)
    · exact almNode hz (by omega)
    · exact almNode hz (by omega)
    · exact .ofNumber (by decide)
    · exact .ofNumber (by decide)
    · exact almNode hz (by omega)
    · exact .ofNumber (by omega)
  · obtain rfl := List.mem_singleton.mp hpin
    exact .ofNumber hn

/-- The pins of the sites of a block are on wires of it. -/
theorem of_blockSitePlan {block : BlockKind} {site : BlockSite}
    (hsite : site ∈ blockSitePlan x y lab block) {pin : Ident × SitePin} (hpin : pin ∈ site.pins) :
    IsBlockWire x y block pin.2.wire := by
  cases block with
  | lab =>
    obtain ⟨z, hz, hsite⟩ := List.mem_flatMap.mp hsite
    have hz := List.mem_range.mp hz
    have hz' : z < 10 := hz
    simp only [almSites, List.mem_cons, List.not_mem_nil, or_false] at hsite
    rcases hsite with rfl | rfl | rfl | rfl | rfl | rfl
    · exact of_lutSite hz (by omega) _ pin hpin
    · exact of_lutSite hz (by omega) _ pin hpin
    all_goals exact of_flopSite hz (by omega) (by decide) _ pin hpin
  | gpio =>
    obtain ⟨z, hz, rfl⟩ := List.mem_map.mp hsite
    have hz : z < 4 := List.mem_range.mp hz
    simp only [ioSite, List.mem_cons, List.not_mem_nil, or_false] at hpin
    rcases hpin with rfl | rfl | rfl | rfl
    · exact .made hz
    · exact .input (show z * 2 < 8 by omega)
    · exact .input (show z * 2 + 1 < 8 by omega)
    · exact .output hz
  | clockMux =>
    obtain ⟨z, hz, rfl⟩ := List.mem_map.mp hsite
    have hz : z < 4 := List.mem_range.mp hz
    simp only [clockBufferSite, List.mem_cons, List.not_mem_nil, or_false] at hpin
    rcases hpin with rfl | rfl
    · exact .input hz
    · exact .made hz

/-- The outputs of a block are driven by wires of it. -/
theorem of_blockMuxes {block : BlockKind} {mux : Mux} (hmux : mux ∈ blockMuxes x y block) :
    IsBlockWire x y block mux.dst ∧ ∀ src ∈ mux.sources, IsBlockWire x y block src := by
  cases block with
  | lab =>
    obtain ⟨z, hz, hmux⟩ := List.mem_flatMap.mp hmux
    have hz := List.mem_range.mp hz
    have hz' : z < 10 := hz
    have hflop {half : Half} {n out k : Nat} (hn : n + 1 < 190) (hout : out < 18)
        (hmux : mux ∈ flopMuxes x y z n (Fabric.almNode x y z out) half k) :
        IsBlockWire x y .lab mux.dst ∧ ∀ src ∈ mux.sources, IsBlockWire x y .lab src := by
      obtain ⟨o, -, rfl⟩ := List.mem_map.mp hmux
      refine ⟨.output ?_, fun src hsrc => ?_⟩
      · have ho : o.index < 6 := by cases o <;> decide
        have hcount : BlockKind.lab.outputCount = 60 := rfl
        rw [hcount, Chip.almOutputCount]
        omega
      · simp only [List.mem_cons, List.not_mem_nil, or_false] at hsrc
        rcases hsrc with rfl | rfl
        · exact .ofNumber hn
        · exact almNode hz hout
    simp only [almMuxes, List.mem_append] at hmux
    rcases hmux with ((hmux | hmux) | hmux) | hmux
    all_goals exact hflop (by omega) (by decide) hmux
  | gpio => cases hmux
  | clockMux =>
    obtain ⟨z, hz, rfl⟩ := List.mem_map.mp hmux
    have hz : z < 4 := List.mem_range.mp hz
    refine ⟨.clock rfl hz, fun src hsrc => ?_⟩
    obtain rfl := List.mem_singleton.mp hsrc
    exact .made hz

/-- The steps of a block speak of wires of it. -/
theorem of_blockScript {block : BlockKind} {step : BuildStep}
    (hstep : step ∈ blockScript x y lab block) {w : Wire} (hw : w ∈ step.wires) :
    IsBlockWire x y block w := by
  rcases mem_blockScript.mp hstep with ⟨n, wire, hn, hstep⟩ | ⟨n, site, hn, hstep⟩ |
    ⟨mux, hmux, src, hsrc, rfl⟩
  · have hmade : IsBlockWire x y block (syntheticNode x y n) :=
      .made (List.getElem?_eq_some_iff.mp hn).1
    rcases mem_wireScript.mp hstep with rfl | ⟨src, hsrc, rfl⟩
    · obtain rfl := List.mem_singleton.mp hw
      exact hmade
    · simp only [BuildStep.wires, List.mem_cons, List.not_mem_nil, or_false] at hw
      rcases hw with rfl | rfl
      · exact of_blockPlan (List.mem_of_getElem? hn) hsrc
      · exact hmade
  · rcases mem_siteScript.mp hstep with rfl | ⟨pin, hpin, rfl⟩ | rfl
    · cases hw
    · obtain rfl := List.mem_singleton.mp hw
      exact of_blockSitePlan (List.mem_of_getElem? hn) hpin
    · cases hw
  · obtain ⟨hdst, hsources⟩ := of_blockMuxes hmux
    simp only [BuildStep.wires, List.mem_cons, List.not_mem_nil, or_false] at hw
    rcases hw with rfl | rfl
    · exact hsources _ hsrc
    · exact hdst

end IsBlockWire

/-! ### All wires -/

namespace Chip

variable {c : Chip} {x y : Nat}

/-- The wires that the blocks of a chip make. -/
inductive MakesWire (c : Chip) : Wire → Prop where
  | made {x y n : Nat} {block : BlockKind} (hblock : c.blockAt x y = some block)
      (hn : n < (blockPlan x y block).length) : MakesWire c (syntheticNode x y n)

/-- A wire of a device: one that a block makes, or a node of the chip. -/
def HasWire (c : Chip) (w : Wire) : Prop := c.MakesWire w ∨ c.HasNode w

/-- The wires of a block are wires of its chip. -/
theorem hasWire_of_isBlockWire {block : BlockKind} (hblock : c.blockAt x y = some block) {w : Wire}
    (hw : IsBlockWire x y block w) : c.HasWire w := by
  cases hw with
  | made hn => exact .inl (.made hblock hn)
  | input hz => exact .inr (.gin hblock hz)
  | output hz => exact .inr (.gout hblock hz)
  | clock _ hi => exact .inr (.gclk hi)

/-- The steps of a build speak of wires of the device only. -/
theorem hasWire_of_mem_script {step : BuildStep} (hstep : step ∈ c.script) {w : Wire}
    (hw : w ∈ step.wires) : c.HasWire w := by
  rcases mem_script.mp hstep with ⟨k, t, block, hk, hblock, hstep⟩ | ⟨mux, hmux, src, hsrc, rfl⟩
  · exact hasWire_of_isBlockWire hblock (.of_blockScript hstep hw)
  · obtain ⟨hdst, hsources⟩ := hasNode_muxes hmux
    simp only [BuildStep.wires, List.mem_cons, List.not_mem_nil, or_false] at hw
    rcases hw with rfl | rfl
    · exact .inr (hsources _ hsrc)
    · exact .inr hdst

end Chip

/-- A wire of a built device is one that a block makes, or a node of the chip. -/
theorem IsBuiltBy.hasWire {c : Chip} {d : Device} (h : IsBuiltBy c c.script d) {w : Wire}
    (hw : w ∈ d.wires.wires) : c.HasWire w := by
  obtain ⟨selection, hbuilds⟩ := h.builds
  rcases (hbuilds.mem_wires w).mp hw with hblank | ⟨step, hstep, hw⟩
  · cases hblank
  · exact Chip.hasWire_of_mem_script hstep hw

/-- The ends of a pip are wires. -/
theorem IsBuiltBy.mem_wires_of_mem_pips {c : Chip} {script : List BuildStep} {d : Device}
    (h : IsBuiltBy c script d) {p : Pip} (hp : p ∈ d.wires.pips) :
    p.src ∈ d.wires.wires ∧ p.dst ∈ d.wires.wires := by
  obtain ⟨selection, hbuilds⟩ := h.builds
  rw [WireGraph.mem_pips, WireGraph.connected_iff, hbuilds.sourcesOf] at hp
  rcases List.mem_append.mp hp with hblank | hp
  · rw [Device.blank, WireGraph.sourcesOf, WireGraph.infoOf_empty] at hblank
    cases hblank
  · obtain ⟨step, hstep, hsource⟩ := List.mem_filterMap.mp hp
    cases step with
    | pip src dst =>
      obtain ⟨rfl, hsrc⟩ := Option.ite_none_right_eq_some.mp hsource
      obtain rfl := Option.some.inj hsrc
      exact ⟨(hbuilds.mem_wires _).mpr (.inr ⟨_, hstep, List.mem_cons_self⟩),
        (hbuilds.mem_wires _).mpr (.inr ⟨_, hstep, List.mem_cons_of_mem _ List.mem_cons_self⟩)⟩
    | wire => cases hsource
    | site => cases hsource
    | pin => cases hsource
    | place => cases hsource

/-- The plan of a wire that a block makes says what drives it. -/
theorem IsBuiltBy.mem_pips_of_plan {c : Chip} {script : List BuildStep} {d : Device}
    (h : IsBuiltBy c script d) {t : Nat × Nat} (ht : t ∈ c.tiles) {n : Nat}
    (hn : n < Device.syntheticCount) {l : List Wire}
    (hplan : ((c.tilePlan t)[n]?).map BlockWire.uphill = some l) {src : Wire} (hsrc : src ∈ l) :
    ⟨src, syntheticNode t.1 t.2 n⟩ ∈ d.wires.pips :=
  WireGraph.mem_pips.mpr (WireGraph.connected_of_uphill? ((h.uphill t ht n hn).trans hplan) hsrc)

end Fabric
