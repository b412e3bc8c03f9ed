import Fabric.Proofs.MuxOrder
import Fabric.Proofs.TrackReach

/-!
# Ports and multiplexers

The node behind a port is computed from the block, the port and the index that tells like ports
apart; the multiplexers are listed by node, tile by tile. The two agree on every grid: a node
belongs to one port, the multiplexers into the blocks end at the nodes of the input ports and leave
none out, and those out of the blocks begin at the nodes of the output ports. The outputs of the
clock multiplexer are the one exception to the numbering by tile: behind them are the global clocks.

## Main results

* `Chip.node?_eq_some_iff`: the node behind a port, case by case;
* `Chip.node?_inj`: a node belongs to one port;
* `Chip.gin_mem_dst_iff`, `Chip.gout_mem_sources_iff`: which nodes of blocks the multiplexers join;
* `Chip.ports_agree_with_muxes`: ports and multiplexers agree.
-/

namespace Fabric

/-- The index that tells apart the like ports of a block: the port index for the ports that a block
has once, the block index for those that each of its parts has. -/
def BlockPort.index (p : BlockPort) : Int :=
  match p.block, p.port with
  | .lab, .clkIn | .lab, .dataIn | .clockMux, .clkIn => p.portIndex
  | _, _ => p.blockIndex

/-- Whether the routing drives a port, which otherwise drives the routing. -/
def ChipPort.isInput : ChipPort → Bool
  | .almInput _ | .clkIn | .dataIn | .aclr | .oeIn => true
  | .almOutput _ | .dataOut | .clkOut => false

namespace Chip

variable {c : Chip} {x y : Nat} {block : BlockKind} {port : ChipPort} {i : Nat} {n : Node}

/-- An index is taken as it is when it is below the limit. -/
theorem indexBelow?_eq_some_iff {limit : Nat} {k : Int} :
    indexBelow? limit k = some i ↔ k = i ∧ i < limit := by
  cases k with
  | ofNat m =>
    simp only [indexBelow?, Option.ite_none_right_eq_some, Option.some.injEq, Int.ofNat_eq_natCast,
      Int.natCast_inj]
    exact ⟨fun ⟨hm, hi⟩ => ⟨hi, hi ▸ hm⟩, fun ⟨hi, hlt⟩ => ⟨hi ▸ hlt, hi⟩⟩
  | negSucc m => simp [indexBelow?]

/-! ### The node behind a port -/

/-- Port number `i` among the like ports of the block of tile `x`, `y` has a
certain node behind it. -/
inductive LeadsTo (x y : Nat) : BlockKind → ChipPort → Nat → Node → Prop where
  | almInput {alm : Nat} (pin : AlmPin) (h : alm < almsPerLab) :
      LeadsTo x y .lab (.almInput pin) alm (gin x y (alm * almInputCount + pin.index))
  | almOutput {alm : Nat} (output : AlmOutput) (h : alm < almsPerLab) :
      LeadsTo x y .lab (.almOutput output) alm (gout x y (alm * almOutputCount + output.index))
  | labClock {i : Nat} (h : i < labClockCount) :
      LeadsTo x y .lab .clkIn i (gin x y (labClockBase + i))
  | labData {i : Nat} (h : i < labDataLineCount) :
      LeadsTo x y .lab .dataIn i (gin x y (labDataLineBase + i))
  | labClear {i : Nat} (h : i < labClearCount) :
      LeadsTo x y .lab .aclr i (gin x y (labClearBase + i))
  | padData {z : Nat} (h : z < iosPerBlock) : LeadsTo x y .gpio .dataIn z (gin x y (z * 2))
  | padEnable {z : Nat} (h : z < iosPerBlock) : LeadsTo x y .gpio .oeIn z (gin x y (z * 2 + 1))
  | padOutput {z : Nat} (h : z < iosPerBlock) : LeadsTo x y .gpio .dataOut z (gout x y z)
  | clockSelect {i : Nat} (h : i < globalClockCount) : LeadsTo x y .clockMux .clkIn i (gin x y i)
  | clockOutput {i : Nat} (h : i < globalClockCount) : LeadsTo x y .clockMux .clkOut i (gclk i)

/-- The node behind a port of a block in its tile. -/
theorem node?_eq_some_iff {p : BlockPort} : c.node? p = some n ↔
    c.blockAt p.pos.x p.pos.y = some p.block ∧
      ∃ i : Nat, p.index = i ∧ LeadsTo p.pos.x p.pos.y p.block p.port i n := by
  obtain ⟨block, pos, port, blockIndex, portIndex⟩ := p
  rw [node?, Option.ite_none_right_eq_some]
  refine and_congr_right fun _ => ?_
  constructor
  · intro h
    cases block <;> cases port
    -- a port that the block has not is behind no node; each of the others is its own case of
    -- `LeadsTo`
    all_goals
      first
      | cases h
      | obtain ⟨i, hi, rfl⟩ := Option.map_eq_some_iff.mp h
        obtain ⟨rfl, hlt⟩ := indexBelow?_eq_some_iff.mp hi
        exact ⟨i, rfl, by constructor; exact hlt⟩
  · rintro ⟨i, hindex, h⟩
    cases h
    all_goals
      simp only [BlockPort.index] at hindex
      subst hindex
      exact Option.map_eq_some_iff.mpr ⟨i, indexBelow?_eq_some_iff.mpr ⟨rfl, ‹_›⟩, rfl⟩

/-! ### The ports of a block by number -/

/-- The port behind input number `z` of a block, and its place among the like ports. -/
def inputPort : BlockKind → Nat → ChipPort × Nat
  | .lab, z =>
    if z < labClockBase then (.almInput (AlmPin.all.getD (z % almInputCount) .a), z / almInputCount)
    else if z < labDataLineBase then (.clkIn, z - labClockBase)
    else if z < labClearBase then (.dataIn, z - labDataLineBase)
    else (.aclr, z - labClearBase)
  | .gpio, z => (if z % 2 = 0 then .dataIn else .oeIn, z / 2)
  | .clockMux, z => (.clkIn, z)

/-- The port behind output number `z` of a block, and its place among the like ports. -/
def outputPort : BlockKind → Nat → ChipPort × Nat
  | .lab, z => (.almOutput (AlmOutput.all.getD (z % almOutputCount) .top0), z / almOutputCount)
  | .gpio, z => (.dataOut, z)
  | .clockMux, z => (.clkOut, z)

/-- The inputs of a LAB are numbered ALM by ALM. -/
theorem inputPort_alm :
    ∀ alm < almsPerLab, ∀ pin, inputPort .lab (alm * almInputCount + pin.index) =
    (.almInput pin, alm) := by
  have h : ∀ alm < almsPerLab, ∀ pin ∈ AlmPin.all,
      inputPort .lab (alm * almInputCount + pin.index) = (.almInput pin, alm) := by decide
  exact fun alm halm pin => h alm halm pin (by cases pin <;> decide)

/-- The outputs of a LAB are numbered ALM by ALM. -/
theorem outputPort_alm : ∀ alm < almsPerLab, ∀ output,
    outputPort .lab (alm * almOutputCount + output.index) = (.almOutput output, alm) := by
  have h : ∀ alm < almsPerLab, ∀ output ∈ AlmOutput.all,
      outputPort .lab (alm * almOutputCount + output.index) = (.almOutput output, alm) := by decide
  exact fun alm halm output => h alm halm output (by cases output <;> decide)

/-- The other inputs of a LAB follow those of its ALMs. -/
theorem inputPort_shared : (∀ i < labClockCount, inputPort .lab (labClockBase + i) = (.clkIn, i)) ∧
    (∀ i < labDataLineCount, inputPort .lab (labDataLineBase + i) = (.dataIn, i)) ∧
    ∀ i < labClearCount, inputPort .lab (labClearBase + i) = (.aclr, i) := by
  decide

/-- The inputs of an I/O tile are numbered pin by pin. -/
theorem inputPort_pad : (∀ z < iosPerBlock, inputPort .gpio (z * 2) = (.dataIn, z)) ∧
    ∀ z < iosPerBlock, inputPort .gpio (z * 2 + 1) = (.oeIn, z) := by
  decide

/-- An input of a tile leads into its block. -/
theorem isInput_inputPort (block : BlockKind) (z : Nat) : (inputPort block z).1.isInput = true := by
  cases block <;> unfold inputPort <;> repeat' split
  all_goals rfl

/-- An output of a tile leads out of its block. -/
theorem isInput_outputPort (block : BlockKind) (z : Nat) :
    (outputPort block z).1.isInput = false := by
  cases block <;> rfl

/-- The node of a block is an input, an output or a global clock, and known by its
number among them. -/
theorem LeadsTo.eq_node (h : LeadsTo x y block port i n) :
    (∃ z < block.inputCount, n = gin x y z ∧ inputPort block z = (port, i)) ∨
    (∃ z < block.outputCount, n = gout x y z ∧ outputPort block z = (port, i)) ∨
    (block = .clockMux ∧ i < globalClockCount ∧ n = gclk i ∧ port = .clkOut) := by
  cases h with
  | almInput pin h =>
    have hpin : pin.index < 8 := by cases pin <;> decide
    have hlt : i < 10 := h
    exact .inl ⟨_, show i * 8 + pin.index < 89 by omega, rfl, inputPort_alm i h pin⟩
  | almOutput output h =>
    have houtput : output.index < 6 := by cases output <;> decide
    have hlt : i < 10 := h
    exact .inr (.inl ⟨_, show i * 6 + output.index < 60 by omega, rfl, outputPort_alm i h output⟩)
  | labClock h =>
    have hlt : i < 3 := h
    exact .inl ⟨_, show 80 + i < 89 by omega, rfl, inputPort_shared.1 i h⟩
  | labData h =>
    have hlt : i < 4 := h
    exact .inl ⟨_, show 83 + i < 89 by omega, rfl, inputPort_shared.2.1 i h⟩
  | labClear h =>
    have hlt : i < 2 := h
    exact .inl ⟨_, show 87 + i < 89 by omega, rfl, inputPort_shared.2.2 i h⟩
  | padData h =>
    have hlt : i < 4 := h
    exact .inl ⟨_, show i * 2 < 8 by omega, rfl, inputPort_pad.1 i h⟩
  | padEnable h =>
    have hlt : i < 4 := h
    exact .inl ⟨_, show i * 2 + 1 < 8 by omega, rfl, inputPort_pad.2 i h⟩
  | padOutput h => exact .inr (.inl ⟨i, h, rfl, rfl⟩)
  | clockSelect h => exact .inl ⟨i, h, rfl, rfl⟩
  | clockOutput h => exact .inr (.inr ⟨rfl, h, rfl, rfl⟩)

/-- Every input of a block has a port. -/
theorem leadsTo_inputPort {z : Nat} (hz : z < block.inputCount) :
    LeadsTo x y block (inputPort block z).1 (inputPort block z).2 (gin x y z) := by
  have hclock : labClockBase = 80 := rfl
  have hdata : labDataLineBase = 83 := rfl
  have hclear : labClearBase = 87 := rfl
  cases block with
  | lab =>
    have hz : z < 89 := hz
    simp only [inputPort]
    split
    · have hindex : ∀ k < 8, (AlmPin.all.getD k .a).index = k := by decide
      have h := LeadsTo.almInput (x := x) (y := y) (AlmPin.all.getD (z % 8) .a)
        (show z / 8 < 10 by omega)
      rw [hindex _ (Nat.mod_lt z (by decide)), show z / 8 * almInputCount + z % 8 = z by
        exact Nat.div_add_mod' z 8] at h
      exact h
    split
    · have h := LeadsTo.labClock (x := x) (y := y) (show z - labClockBase < 3 by omega)
      rwa [Nat.add_sub_cancel' (by omega)] at h
    split
    · have h := LeadsTo.labData (x := x) (y := y) (show z - labDataLineBase < 4 by omega)
      rwa [Nat.add_sub_cancel' (by omega)] at h
    · have h := LeadsTo.labClear (x := x) (y := y) (show z - labClearBase < 2 by omega)
      rwa [Nat.add_sub_cancel' (by omega)] at h
  | gpio =>
    have hz : z < 8 := hz
    simp only [inputPort]
    by_cases heven : z % 2 = 0
    · have h := LeadsTo.padData (x := x) (y := y) (show z / 2 < 4 by omega)
      rw [show z / 2 * 2 = z by omega] at h
      simpa only [heven, if_true] using h
    · have h := LeadsTo.padEnable (x := x) (y := y) (show z / 2 < 4 by omega)
      rw [show z / 2 * 2 + 1 = z by omega] at h
      simpa only [heven, if_false] using h
  | clockMux => exact .clockSelect hz

/-- Every output of a block has a port. -/
theorem leadsTo_outputPort {z : Nat} (hz : z < block.outputCount) :
    LeadsTo x y block (outputPort block z).1 (outputPort block z).2 (gout x y z) := by
  cases block with
  | lab =>
    have hz : z < 60 := hz
    have hindex : ∀ k < 6, (AlmOutput.all.getD k .top0).index = k := by decide
    have h := LeadsTo.almOutput (x := x) (y := y) (AlmOutput.all.getD (z % 6) .top0)
      (show z / 6 < 10 by omega)
    rw [hindex _ (Nat.mod_lt z (by decide)), show z / 6 * almOutputCount + z % 6 = z by
      exact Nat.div_add_mod' z 6] at h
    exact h
  | gpio => exact .padOutput hz
  | clockMux => exact absurd hz (Nat.not_lt_zero z)

/-! ### A node belongs to one port -/

/-- The port of a block is known by the type and the number of its node. -/
theorem LeadsTo.port_eq (hr : InRange x y) (h : LeadsTo x y block port i n) :
    (if n.kind = NodeType.gin then inputPort block n.z else outputPort block n.z) = (port, i) := by
  rcases h.eq_node with ⟨z, hz, rfl, hport⟩ | ⟨z, hz, rfl, hport⟩ | ⟨rfl, hi, rfl, rfl⟩
  · have hnumber : (gin x y z).z = z :=
      congrArg (·.2.2.2) (key_gin hr (hz.trans block.inputCount_lt))
    rw [if_pos (kind_gin hr z), hnumber, hport]
  · have hnumber : (gout x y z).z = z :=
      congrArg (·.2.2.2) (key_gout hr (hz.trans block.outputCount_lt))
    rw [kind_gout hr, if_neg (by decide), hnumber, hport]
  · have hnumber : (gclk i).z = i := congrArg (·.2.2.2) (key_gclk hi)
    rw [kind_gclk hi, if_neg (by decide), hnumber]
    rfl

/-- The node of a block is a node of its tile, or a global clock. -/
theorem LeadsTo.tile (hr : InRange x y) (h : LeadsTo x y block port i n) :
    n.kind ≠ NodeType.gclk ∧ n.x = x ∧ n.y = y ∨ n.kind = NodeType.gclk ∧ block = .clockMux := by
  rcases h.eq_node with ⟨z, hz, rfl, -⟩ | ⟨z, hz, rfl, -⟩ | ⟨rfl, hi, rfl, -⟩
  · have hkey := key_gin hr (hz.trans block.inputCount_lt)
    simp only [Node.key, Prod.mk.injEq] at hkey
    obtain ⟨hkind, hx, hy, -⟩ := hkey
    exact .inl ⟨by rw [hkind]; decide, hx, hy⟩
  · have hkey := key_gout hr (hz.trans block.outputCount_lt)
    simp only [Node.key, Prod.mk.injEq] at hkey
    obtain ⟨hkind, hx, hy, -⟩ := hkey
    exact .inl ⟨by rw [hkind]; decide, hx, hy⟩
  · exact .inr ⟨kind_gclk hi, rfl⟩

/-- Ports of one node are the same port of one block: the type of the node tells whether its tile
can be read from it, and there is only one clock multiplexer. -/
theorem node?_inj (hc : c.Fits) {p q : BlockPort} (hp : c.node? p = some n)
    (hq : c.node? q = some n) :
    p.block = q.block ∧ p.pos = q.pos ∧ p.port = q.port ∧ p.index = q.index := by
  obtain ⟨hblock, i, hi, hleads⟩ := node?_eq_some_iff.mp hp
  obtain ⟨hblock', i', hi', hleads'⟩ := node?_eq_some_iff.mp hq
  have hr := hc.inRange_of_blockAt hblock
  have hr' := hc.inRange_of_blockAt hblock'
  have htile : p.pos.x = q.pos.x ∧ p.pos.y = q.pos.y := by
    rcases hleads.tile hr with ⟨hkind, hx, hy⟩ | ⟨hkind, hmux⟩
    all_goals rcases hleads'.tile hr' with ⟨hkind', hx', hy'⟩ | ⟨hkind', hmux'⟩
    · exact ⟨hx.symm.trans hx', hy.symm.trans hy'⟩
    · exact absurd hkind' hkind
    · exact absurd hkind hkind'
    · rw [hmux] at hblock
      rw [hmux'] at hblock'
      obtain ⟨hx, hy⟩ := eq_of_blockAt_clockMux hblock
      obtain ⟨hx', hy'⟩ := eq_of_blockAt_clockMux hblock'
      exact ⟨hx.trans hx'.symm, hy.trans hy'.symm⟩
  have hsame : p.block = q.block := by
    rw [htile.1, htile.2, hblock'] at hblock
    exact (Option.some.inj hblock).symm
  have hport := hleads.port_eq hr
  rw [hsame, hleads'.port_eq hr', Prod.mk.injEq] at hport
  refine ⟨hsame, Pos.eq_of_x_eq_of_y_eq htile.1 htile.2, hport.1.symm, ?_⟩
  rw [hi, hi', hport.2]

/-! ### Which nodes have ports -/

/-- A node that a port of the block of a tile leads to is the node of some port of the chip. -/
theorem LeadsTo.exists_port (hc : c.Fits) (hblock : c.blockAt x y = some block)
    (h : LeadsTo x y block port i n) : ∃ p : BlockPort, p.port = port ∧ c.node? p = some n := by
  have hr := hc.inRange_of_blockAt hblock
  refine ⟨⟨block, .pack x y, port, i, i⟩, rfl, node?_eq_some_iff.mpr ?_⟩
  simp only [Pos.x_pack hr.x_lt hr.y_lt, Pos.y_pack hr.x_lt hr.y_lt]
  refine ⟨hblock, i, ?_, h⟩
  unfold BlockPort.index
  split <;> rfl

/-- The nodes of the input ports are the inputs of the blocks. -/
theorem exists_inputPort_iff (hc : c.Fits) :
    (∃ p : BlockPort, p.port.isInput = true ∧ c.node? p = some n) ↔
    ∃ x y block, c.blockAt x y = some block ∧ ∃ z < block.inputCount, n = gin x y z := by
  constructor
  · rintro ⟨p, hinput, hp⟩
    obtain ⟨hblock, i, -, hleads⟩ := node?_eq_some_iff.mp hp
    rcases hleads.eq_node with ⟨z, hz, rfl, -⟩ | ⟨z, -, -, hport⟩ | ⟨-, -, -, hport⟩
    · exact ⟨_, _, _, hblock, z, hz, rfl⟩
    · have houtput := isInput_outputPort p.block z
      rw [hport, hinput] at houtput
      cases houtput
    · rw [hport] at hinput
      cases hinput
  · rintro ⟨x, y, block, hblock, z, hz, rfl⟩
    obtain ⟨p, hport, hp⟩ := (leadsTo_inputPort hz).exists_port hc hblock
    exact ⟨p, by rw [hport, isInput_inputPort], hp⟩

/-- The nodes of the output ports, those of the clock multiplexer left out, are the
outputs of the blocks. -/
theorem exists_outputPort_iff (hc : c.Fits) :
    (∃ p : BlockPort, p.port.isInput = false ∧ p.port ≠ .clkOut ∧ c.node? p = some n) ↔
    ∃ x y block, c.blockAt x y = some block ∧ ∃ z < block.outputCount, n = gout x y z := by
  constructor
  · rintro ⟨p, houtput, hclock, hp⟩
    obtain ⟨hblock, i, -, hleads⟩ := node?_eq_some_iff.mp hp
    rcases hleads.eq_node with ⟨z, -, -, hport⟩ | ⟨z, hz, rfl, -⟩ | ⟨-, -, -, hport⟩
    · have hinput := isInput_inputPort p.block z
      rw [hport, houtput] at hinput
      cases hinput
    · exact ⟨_, _, _, hblock, z, hz, rfl⟩
    · exact absurd hport hclock
  · rintro ⟨x, y, block, hblock, z, hz, rfl⟩
    obtain ⟨p, hport, hp⟩ := (leadsTo_outputPort hz).exists_port hc hblock
    refine ⟨p, by rw [hport, isInput_outputPort], ?_, hp⟩
    rw [hport]
    cases block with
    | lab => nofun
    | gpio => nofun
    | clockMux => exact absurd hz (Nat.not_lt_zero z)

/-! ### Which nodes of blocks the multiplexers join -/

/-- The block inputs that multiplexers drive are all inputs of the blocks. -/
theorem gin_mem_dst_iff (hc : c.Fits) : (n.kind = NodeType.gin ∧ ∃ mux ∈ c.muxes, mux.dst = n) ↔
    ∃ x y block, c.blockAt x y = some block ∧ ∃ z < block.inputCount, n = gin x y z := by
  constructor
  · rintro ⟨hkind, mux, hmux, rfl⟩
    rcases mem_muxes.mp hmux with ⟨x, y, ht, hmux⟩ | ⟨dir, tile, ht, t, -, rfl⟩
    · obtain ⟨block, hblock⟩ := exists_blockAt ht
      have hdst := List.mem_map_of_mem (f := Mux.dst) hmux
      rw [map_dst_inputMuxes hblock] at hdst
      obtain ⟨z, hz, hdst⟩ := List.mem_map.mp hdst
      exact ⟨x, y, block, hblock, z, List.mem_range.mp hz, hdst.symm⟩
    · rw [dir.dst_mux, dir.kind_track (hc.inRange ht)] at hkind
      exact absurd hkind dir.nodeType_ne_gin
  · rintro ⟨x, y, block, hblock, z, hz, rfl⟩
    have ht := mem_tiles_of_blockAt hblock
    obtain ⟨mux, hmux, heq⟩ := exists_inputMux hblock hz
    exact ⟨kind_gin (hc.inRange ht) z, mux, inputMuxes_subset ht hmux, heq⟩

/-- The block outputs among which multiplexers select are all outputs of the blocks. -/
theorem gout_mem_sources_iff (hc : c.Fits) :
    (n.kind = NodeType.gout ∧ ∃ mux ∈ c.muxes, n ∈ mux.sources) ↔
    ∃ x y block, c.blockAt x y = some block ∧ ∃ z < block.outputCount, n = gout x y z := by
  constructor
  · rintro ⟨hkind, mux, hmux, hsrc⟩
    cases (hasNode_muxes hmux).2 n hsrc with
    | gin hblock => cases hkind.symm.trans (kind_gin (hc.inRange_of_blockAt hblock) _)
    | gout hblock hz => exact ⟨_, _, _, hblock, _, hz, rfl⟩
    | h4 ht => cases hkind.symm.trans (kind_h4 (hc.inRange ht) _)
    | v4 ht => cases hkind.symm.trans (kind_v4 (hc.inRange ht) _)
    | gclk hi => cases hkind.symm.trans (kind_gclk hi)
  · rintro ⟨x, y, block, hblock, z, hz, rfl⟩
    have ht := mem_tiles_of_blockAt hblock
    exact ⟨kind_gout (hc.inRange ht) z, _, Direction.row.mux_mem ht (mod_trackCount_lt z),
      gout_mem_sources_row hblock hz⟩

/-- The multiplexers lead from outputs, tracks and global clocks to tracks and inputs. -/
theorem kind_dst_ne_gout (hc : c.Fits) {mux : Mux} (hmux : mux ∈ c.muxes) :
    mux.dst.kind ≠ NodeType.gout := by
  rcases mem_muxes.mp hmux with ⟨x, y, ht, hmux⟩ | ⟨dir, tile, ht, t, -, rfl⟩
  · rw [(inputMuxes_spec (hc.inRange ht) hmux).1]
    decide
  · rw [dir.dst_mux, dir.kind_track (hc.inRange ht)]
    exact dir.nodeType_spec.1.ne'

/-- The drivers of a block input: at least one, and none listed twice. -/
theorem sources_of_kind_gin (hc : c.Fits) {mux : Mux} (hmux : mux ∈ c.muxes)
    (hkind : mux.dst.kind = NodeType.gin) : mux.sources ≠ [] ∧ mux.sources.Nodup := by
  rcases mem_muxes.mp hmux with ⟨x, y, ht, hmux⟩ | ⟨dir, tile, ht, t, -, rfl⟩
  · exact ⟨sources_inputMuxes_ne_nil hmux, nodup_sources_inputMuxes (hc.inRange ht) mux hmux⟩
  · rw [dir.dst_mux, dir.kind_track (hc.inRange ht)] at hkind
    exact absurd hkind dir.nodeType_ne_gin

/-- Behind an output of the clock multiplexer is a global clock, which some LAB input can select. -/
theorem node?_clkOut (hgrid : isGrid c.width c.height = true) {p : BlockPort}
    (hp : c.node? p = some n) (hport : p.port = .clkOut) :
    n.kind = NodeType.gclk ∧ ∃ mux ∈ c.muxes, n ∈ mux.sources := by
  obtain ⟨-, i, -, hleads⟩ := node?_eq_some_iff.mp hp
  rw [hport] at hleads
  cases hp' : p.block with
  | lab => rw [hp'] at hleads; cases hleads
  | gpio => rw [hp'] at hleads; cases hleads
  | clockMux =>
    rw [hp'] at hleads
    cases hleads with
    | clockOutput h => exact ⟨kind_gclk h, exists_gclk_mem_sources hgrid h⟩

/-- Ports and multiplexers agree on every grid. A node is behind one port only: ports with one node
have the same block, tile, port and index. The block inputs that the multiplexers drive are the
nodes of the input ports, each with drivers and none of them listed twice; the block outputs among
which the multiplexers select are the nodes of the output ports, where those of the clock
multiplexer are global clocks instead. No input is a driver, no output is driven, and the
multiplexers are in ascending order of the driven node, so that each is driven by one of them. -/
theorem ports_agree_with_muxes {c : Chip} (hgrid : isGrid c.width c.height = true) :
    (∀ p q n, c.node? p = some n → c.node? q = some n →
      p.block = q.block ∧ p.pos = q.pos ∧ p.port = q.port ∧ p.index = q.index) ∧
    (∀ n, (n.kind = NodeType.gin ∧ ∃ mux ∈ c.muxes, mux.dst = n) ↔
      ∃ p : BlockPort, p.port.isInput = true ∧ c.node? p = some n) ∧
    (∀ mux ∈ c.muxes, mux.dst.kind = NodeType.gin → mux.sources ≠ [] ∧ mux.sources.Nodup) ∧
    (∀ n, (n.kind = NodeType.gout ∧ ∃ mux ∈ c.muxes, n ∈ mux.sources) ↔
      ∃ p : BlockPort, p.port.isInput = false ∧ p.port ≠ .clkOut ∧ c.node? p = some n) ∧
    (∀ p n, c.node? p = some n → p.port = .clkOut →
      n.kind = NodeType.gclk ∧ ∃ mux ∈ c.muxes, n ∈ mux.sources) ∧
    (∀ mux ∈ c.muxes, mux.dst.kind ≠ NodeType.gout ∧ ∀ src ∈ mux.sources, src.kind ≠ NodeType.gin) ∧
    c.muxes.Pairwise fun mux mux' => mux.dst.raw < mux'.dst.raw := by
  have hc := fits_of_isGrid hgrid
  refine ⟨fun p q n hp hq => node?_inj hc hp hq, fun n => ?_,
    fun mux hmux => sources_of_kind_gin hc hmux, fun n => ?_,
    fun p n hp hport => node?_clkOut hgrid hp hport, fun mux hmux => ⟨?_, fun src hsrc => ?_⟩,
    pairwise_muxes hc⟩
  · exact (gin_mem_dst_iff hc).trans (exists_inputPort_iff hc).symm
  · exact (gout_mem_sources_iff hc).trans (exists_outputPort_iff hc).symm
  · exact kind_dst_ne_gout hc hmux
  · exact Drives.kind_src_ne_gin hc ⟨mux, hmux, rfl, hsrc⟩

/-- On five columns and three rows, asynchronous clear 1 of the LAB at (1, 1) has a multiplexer with
drivers, and the clock input 3 of the clock multiplexer at (2, 0) is the only port with its node. -/
theorem ports_agree_with_muxes_fiveByThree : isGrid 5 3 = true ∧
    (∃ mux ∈ muxes ⟨"", 5, 3⟩, mux.dst = gin 1 1 88 ∧ mux.sources ≠ []) ∧
    ∀ p, node? ⟨"", 5, 3⟩ p = some (gin 2 0 3) → p.block = .clockMux ∧ p.port = .clkIn ∧
      p.portIndex = 3 := by
  have hgrid : isGrid 5 3 = true := rfl
  obtain ⟨hinj, hinputs, hsources, -⟩ := ports_agree_with_muxes (c := ⟨"", 5, 3⟩) hgrid
  refine ⟨hgrid, ?_, fun p hp => ?_⟩
  · obtain ⟨hkind, mux, hmux, hdst⟩ :=
      (hinputs (gin 1 1 88)).mpr ⟨⟨.lab, .pack 1 1, .aclr, 1, -1⟩, rfl, rfl⟩
    exact ⟨mux, hmux, hdst, (hsources mux hmux (by rw [hdst, hkind])).1⟩
  · have hsame := hinj p ⟨.clockMux, .pack 2 0, .clkIn, -1, 3⟩ _ hp rfl
    obtain ⟨hblock, -, hport, hindex⟩ := hsame
    refine ⟨hblock, hport, ?_⟩
    simpa only [BlockPort.index, hblock, hport] using hindex

end Chip

end Fabric
