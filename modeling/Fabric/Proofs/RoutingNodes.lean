import Fabric.Proofs.Tile

/-!
# Routing nodes

The routing nodes of a chip are the inputs and the outputs of its blocks, the tracks of its tiles,
and the global clocks: `Chip.HasNode` lists them. The multiplexers of the chip join nodes of the
chip and nothing else. All nodes are told apart by type, column, row and index, the *key* of a node.

## Main results

* `Node.key_pack` and its cases: the keys of the nodes of a chip;
* `Chip.mem_muxes`, `Chip.hasNode_muxes`: the multiplexers of a chip and what they join;
* `Chip.Direction.mem_sources_mux`: what drives a track, the same in both directions;
* `Chip.HasNode.kind_lt`: no node of the chip is a synthetic one.
-/

namespace Fabric

open Device (syntheticNode)

/-! ### Tiles -/

namespace Chip

/-- The coordinates of a chip fit a handle. -/
def Fits (c : Chip) : Prop := c.width ≤ coordinateCount ∧ c.height ≤ coordinateCount

/-- The tiles of a chip are those of its grid. -/
theorem mem_tiles {c : Chip} {x y : Nat} : (x, y) ∈ c.tiles ↔ x < c.width ∧ y < c.height := by
  simp [tiles]

/-- A chip contains the tiles that it lists. -/
theorem contains_iff {c : Chip} {x y : Nat} : c.contains x y = true ↔ (x, y) ∈ c.tiles := by
  rw [contains, Bool.and_eq_true, decide_eq_true_iff, decide_eq_true_iff, mem_tiles]

/-- The tiles of a chip are listed once each. -/
theorem nodup_tiles (c : Chip) : c.tiles.Nodup := by
  rw [tiles, List.nodup_flatMap]
  refine ⟨fun x _ => ?_, ?_⟩
  · exact List.nodup_range.map fun y y' h => (Prod.mk.inj h).2
  · refine List.nodup_range.imp fun {x x'} hne => ?_
    simp [Function.onFun, List.disjoint_left, hne.symm]

/-- A tile comes once. -/
theorem eq_of_getElem?_tiles {c : Chip} {k k' : Nat} {t : Nat × Nat} (hk : c.tiles[k]? = some t)
    (hk' : c.tiles[k']? = some t) : k = k' :=
  (List.getElem?_inj (List.getElem?_eq_some_iff.mp hk).1 c.nodup_tiles).mp (hk.trans hk'.symm)

/-- A handle has room for the coordinates of every tile of a chip. -/
theorem Fits.inRange {c : Chip} (hc : c.Fits) {x y : Nat} (h : (x, y) ∈ c.tiles) : InRange x y := by
  obtain ⟨hx, hy⟩ := mem_tiles.mp h
  exact ⟨Nat.lt_of_lt_of_le hx hc.1, Nat.lt_of_lt_of_le hy hc.2⟩

/-- Every tile of a chip holds a block. -/
theorem exists_blockAt {c : Chip} {x y : Nat} (h : (x, y) ∈ c.tiles) :
    ∃ block, c.blockAt x y = some block := by
  rw [blockAt]
  rw [if_neg (by simp [contains_iff.mpr h])]
  split
  · exact ⟨_, rfl⟩
  · split
    · exact ⟨_, rfl⟩
    · exact ⟨_, rfl⟩

/-- Blocks are on tiles of the chip. -/
theorem mem_tiles_of_blockAt {c : Chip} {x y : Nat} {block : BlockKind}
    (hblock : c.blockAt x y = some block) : (x, y) ∈ c.tiles :=
  contains_iff.mp (contains_of_blockAt hblock)

/-- A handle has room for the coordinates of every block. -/
theorem Fits.inRange_of_blockAt {c : Chip} (hc : c.Fits) {x y : Nat} {block : BlockKind}
    (hblock : c.blockAt x y = some block) : InRange x y :=
  hc.inRange (mem_tiles_of_blockAt hblock)

end Chip

/-! ### Keys of nodes -/

/-- The type, the tile and the index of a node. -/
def Node.key (n : Node) : Nat × Nat × Nat × Nat := (n.kind, n.x, n.y, n.z)

/-- All four parts of a node can be read back, if there is room for them. -/
theorem Node.key_pack {kind x y z : Nat} (hk : kind < kindCount) (hr : InRange x y)
    (hz : z < indexCount) : (pack kind x y z).key = (kind, x, y, z) := by
  rw [key, kind_pack z hk hr.x_lt hr.y_lt, x_pack z hr.x_lt hr.y_lt, y_pack z hr.y_lt, z_pack,
    Nat.mod_eq_of_lt hz]

namespace Chip

variable {x y : Nat}

/-- An input of a block is known by its tile and its number. -/
theorem key_gin (hr : InRange x y) {z : Nat} (hz : z < Node.indexCount) :
    (gin x y z).key = (NodeType.gin, x, y, z) :=
  Node.key_pack (by decide) hr hz

/-- An output of a block is known by its tile and its number. -/
theorem key_gout (hr : InRange x y) {z : Nat} (hz : z < Node.indexCount) :
    (gout x y z).key = (NodeType.gout, x, y, z) :=
  Node.key_pack (by decide) hr hz

/-- Track numbers are counted round. -/
theorem mod_trackCount_lt (t : Nat) : t % trackCount < trackCount := Nat.mod_lt _ (by decide)

/-- A horizontal track is known by its tile and its number, counted round. -/
theorem key_h4 (hr : InRange x y) (t : Nat) :
    (h4 x y t).key = (NodeType.h4, x, y, t % trackCount) :=
  Node.key_pack (by decide) hr (Nat.lt_trans (mod_trackCount_lt t) (by decide))

/-- A vertical track is known by its tile and its number, counted round. -/
theorem key_v4 (hr : InRange x y) (t : Nat) :
    (v4 x y t).key = (NodeType.v4, x, y, t % trackCount) :=
  Node.key_pack (by decide) hr (Nat.lt_trans (mod_trackCount_lt t) (by decide))

/-- A global clock is known by its number; its tile is the first one. -/
theorem key_gclk {i : Nat} (hi : i < globalClockCount) : (gclk i).key = (NodeType.gclk, 0, 0, i) :=
  Node.key_pack (by decide) ⟨by decide, by decide⟩ (Nat.lt_trans hi (by decide))

/-- Inputs of blocks have a type of their own. -/
theorem kind_gin (hr : InRange x y) (z : Nat) : (gin x y z).kind = NodeType.gin :=
  Node.kind_pack z (by decide) hr.x_lt hr.y_lt

/-- Outputs of blocks have a type of their own. -/
theorem kind_gout (hr : InRange x y) (z : Nat) : (gout x y z).kind = NodeType.gout :=
  Node.kind_pack z (by decide) hr.x_lt hr.y_lt

/-- Horizontal tracks have a type of their own. -/
theorem kind_h4 (hr : InRange x y) (t : Nat) : (h4 x y t).kind = NodeType.h4 :=
  congrArg Prod.fst (key_h4 hr t)

/-- Vertical tracks have a type of their own. -/
theorem kind_v4 (hr : InRange x y) (t : Nat) : (v4 x y t).kind = NodeType.v4 :=
  congrArg Prod.fst (key_v4 hr t)

/-- Global clocks have a type of their own. -/
theorem kind_gclk {i : Nat} (hi : i < globalClockCount) : (gclk i).kind = NodeType.gclk :=
  congrArg Prod.fst (key_gclk hi)

/-- The nodes that the blocks of a tile make all have the first synthetic type. -/
theorem key_syntheticNode (hr : InRange x y) {n : Nat} (hn : n < Node.indexCount) :
    (syntheticNode x y n).key = (Node.syntheticBase, x, y, n) := by
  rw [syntheticNode, Nat.div_eq_of_lt hn, Nat.add_zero]
  exact Node.key_pack (by decide) hr hn

end Chip

/-! ### Tracks of both directions

Horizontal tracks run along a row of tiles and vertical ones along a column. Apart from that they
are built alike. -/

namespace Chip

/-- The number of a horizontal track is counted round. -/
theorem h4_mod (x y t : Nat) : h4 x y (t % trackCount) = h4 x y t := by rw [h4, h4, Nat.mod_mod]

/-- The number of a vertical track is counted round. -/
theorem v4_mod (x y t : Nat) : v4 x y (t % trackCount) = v4 x y t := by rw [v4, v4, Nat.mod_mod]

/-- The line of tiles along which a track runs. -/
inductive Direction where
  | row
  | column

namespace Direction

/-- The other direction. -/
def across : Direction → Direction
  | .row => .column
  | .column => .row

/-- Track `t` of a tile, counted round. -/
def track (dir : Direction) (tile : Nat × Nat) (t : Nat) : Node :=
  match dir with
  | .row => h4 tile.1 tile.2 t
  | .column => v4 tile.1 tile.2 t

/-- The multiplexer of a track. -/
def mux (c : Chip) (dir : Direction) (tile : Nat × Nat) (t : Nat) : Mux :=
  match dir with
  | .row => c.horizontalMux tile.1 tile.2 t
  | .column => c.verticalMux tile.1 tile.2 t

/-- The type of the tracks. -/
def nodeType : Direction → Nat
  | .row => NodeType.h4
  | .column => NodeType.v4

/-- The step by which the track of a LAB output is shifted. -/
def shift : Direction → Nat
  | .row => 0
  | .column => 1

/-- The place of a tile in its line. -/
def place (dir : Direction) (tile : Nat × Nat) : Nat :=
  match dir with
  | .row => tile.1
  | .column => tile.2

/-- The tile at another place of the line. -/
def tileAt (dir : Direction) (tile : Nat × Nat) (k : Nat) : Nat × Nat :=
  match dir with
  | .row => (k, tile.2)
  | .column => (tile.1, k)

/-- The number of tiles of a line. -/
def lineLength (c : Chip) : Direction → Nat
  | .row => c.width
  | .column => c.height

variable {c : Chip} {tile : Nat × Nat}

/-- Across the tracks that run across is the direction again. -/
theorem across_across (dir : Direction) : dir.across.across = dir := by
  cases dir <;> rfl

/-- A tile is at its own place of its line. -/
theorem tileAt_place (dir : Direction) (tile : Nat × Nat) :
    dir.tileAt tile (dir.place tile) = tile := by
  cases dir <;> rfl

/-- The tile at a place of a line is at that place. -/
theorem place_tileAt (dir : Direction) (tile : Nat × Nat) (k : Nat) :
    dir.place (dir.tileAt tile k) = k := by
  cases dir <;> rfl

/-- All tiles of a line have the same line. -/
theorem tileAt_tileAt (dir : Direction) (tile : Nat × Nat) (k k' : Nat) :
    dir.tileAt (dir.tileAt tile k) k' = dir.tileAt tile k' := by
  cases dir <;> rfl

/-- A tile of a line is on the chip exactly if its place is one of the line. -/
theorem tileAt_mem_iff (dir : Direction) (ht : tile ∈ c.tiles) {k : Nat} :
    dir.tileAt tile k ∈ c.tiles ↔ k < dir.lineLength c := by
  obtain ⟨hx, hy⟩ := mem_tiles.mp ht
  cases dir with
  | row => exact mem_tiles.trans (and_iff_left hy)
  | column => exact mem_tiles.trans (and_iff_right hx)

/-- Every tile of the chip has a place on its line. -/
theorem place_lt (dir : Direction) (ht : tile ∈ c.tiles) : dir.place tile < dir.lineLength c :=
  (dir.tileAt_mem_iff ht).mp (by rwa [tileAt_place])

/-- The number of a track is counted round, in either direction. -/
theorem track_mod (dir : Direction) (tile : Nat × Nat) (t : Nat) :
    dir.track tile (t % trackCount) = dir.track tile t := by
  cases dir with
  | row => exact h4_mod tile.1 tile.2 t
  | column => exact v4_mod tile.1 tile.2 t

/-- A track is known by its direction, its tile and its number, counted round. -/
theorem key_track (dir : Direction) (hr : InRange tile.1 tile.2) (t : Nat) :
    (dir.track tile t).key = (dir.nodeType, tile.1, tile.2, t % trackCount) := by
  cases dir with
  | row => exact key_h4 hr t
  | column => exact key_v4 hr t

/-- The type of a track is that of its direction. -/
theorem kind_track (dir : Direction) (hr : InRange tile.1 tile.2) (t : Nat) :
    (dir.track tile t).kind = dir.nodeType :=
  congrArg Prod.fst (dir.key_track hr t)

/-- Tracks have a type of their own, and a different one in each direction. -/
theorem nodeType_spec (dir : Direction) :
    NodeType.gout < dir.nodeType ∧ dir.across.nodeType ≠ dir.nodeType := by
  cases dir <;> decide

/-- A track is no input of a block. -/
theorem nodeType_ne_gin (dir : Direction) : dir.nodeType ≠ NodeType.gin := by
  cases dir <;> decide

/-- The multiplexer of a track drives that track. -/
theorem dst_mux (dir : Direction) (tile : Nat × Nat) (t : Nat) :
    (dir.mux c tile t).dst = dir.track tile t := by
  cases dir <;> rfl

/-- The drivers of a track: block outputs, the like tracks of the two neighbours in the line, and
the track across. -/
theorem sources_mux (dir : Direction) (tile : Nat × Nat) (t : Nat) :
    (dir.mux c tile t).sources = c.trackOutputs tile.1 tile.2 dir.shift t
      ++ (if 0 < dir.place tile then [dir.track (dir.tileAt tile (dir.place tile - 1)) t] else [])
      ++ (if dir.place tile + 1 < dir.lineLength c then
          [dir.track (dir.tileAt tile (dir.place tile + 1)) t] else [])
      ++ [dir.across.track tile t] := by
  cases dir <;> rfl

/-- A track is driven by block outputs of its tile, by the like tracks of the tiles beside it on its
line, and by the like track across. -/
theorem mem_sources_mux (dir : Direction) (ht : tile ∈ c.tiles) {t : Nat} {src : Node} :
    src ∈ (dir.mux c tile t).sources ↔ src ∈ c.trackOutputs tile.1 tile.2 dir.shift t ∨
      (∃ k < dir.lineLength c, (k + 1 = dir.place tile ∨ k = dir.place tile + 1) ∧
        src = dir.track (dir.tileAt tile k) t) ∨ src = dir.across.track tile t := by
  have hplace := dir.place_lt ht
  simp only [sources_mux, List.mem_append, List.mem_ite_nil_right, List.mem_singleton, or_assoc]
  refine or_congr_right ⟨?_, ?_⟩
  · rintro (⟨hpos, rfl⟩ | ⟨hlt, rfl⟩ | rfl)
    · exact .inl ⟨_, by omega, .inl (by omega), rfl⟩
    · exact .inl ⟨_, hlt, .inr rfl, rfl⟩
    · exact .inr rfl
  · rintro (⟨k, hk, hbefore | rfl, rfl⟩ | rfl)
    · refine .inl ⟨by omega, ?_⟩
      rw [← hbefore, Nat.add_sub_cancel]
    · exact .inr (.inl ⟨hk, rfl⟩)
    · exact .inr (.inr rfl)

end Direction

end Chip

/-! ### The nodes of a chip -/

namespace BlockKind

/-- The number of inputs of a block. -/
def inputCount : BlockKind → Nat
  | .lab => Chip.labClearBase + Chip.labClearCount
  | .gpio => 2 * Chip.iosPerBlock
  | .clockMux => Chip.globalClockCount

/-- The number of outputs of a block, the global clocks left out. -/
def outputCount : BlockKind → Nat
  | .lab => Chip.almsPerLab * Chip.almOutputCount
  | .gpio => Chip.iosPerBlock
  | .clockMux => 0

/-- A block has fewer inputs than a node has numbers. -/
theorem inputCount_lt (block : BlockKind) : block.inputCount < Node.indexCount := by
  cases block <;> decide

/-- A block has fewer outputs than a node has numbers. -/
theorem outputCount_lt (block : BlockKind) : block.outputCount < Node.indexCount := by
  cases block <;> decide

end BlockKind

namespace Chip

/-- The routing nodes of a chip. -/
inductive HasNode (c : Chip) : Wire → Prop where
  | gin {x y z : Nat} {block : BlockKind} (hblock : c.blockAt x y = some block)
      (hz : z < block.inputCount) : HasNode c (gin x y z)
  | gout {x y z : Nat} {block : BlockKind} (hblock : c.blockAt x y = some block)
      (hz : z < block.outputCount) : HasNode c (gout x y z)
  | h4 {x y : Nat} (ht : (x, y) ∈ c.tiles) (t : Nat) : HasNode c (h4 x y t)
  | v4 {x y : Nat} (ht : (x, y) ∈ c.tiles) (t : Nat) : HasNode c (v4 x y t)
  | gclk {i : Nat} (hi : i < globalClockCount) : HasNode c (gclk i)

/-! ### Multiplexers -/

variable {c : Chip} {x y : Nat}

/-- The multiplexers of the block inputs of a tile join nodes of the chip. -/
theorem hasNode_inputMuxes (ht : (x, y) ∈ c.tiles) {mux : Mux} (hmux : mux ∈ c.inputMuxes x y) :
    c.HasNode mux.dst ∧ ∀ src ∈ mux.sources, c.HasNode src := by
  obtain ⟨block, hblock⟩ := exists_blockAt ht
  have hh4 (t : Nat) : c.HasNode (h4 x y t) := .h4 ht t
  have hv4 (t : Nat) : c.HasNode (v4 x y t) := .v4 ht t
  have hgclk {i : Nat} (hi : i < 4) : c.HasNode (gclk i) := .gclk hi
  rw [inputMuxes, hblock] at hmux
  cases block with
  | lab =>
    have hgin {z : Nat} (hz : z < 89) : c.HasNode (gin x y z) := .gin hblock hz
    simp only [labInputMuxes, List.mem_append, List.mem_flatMap, List.mem_map,
      List.mem_range] at hmux
    rcases hmux with ((⟨alm, halm, p, hp, rfl⟩ | ⟨i, hi, rfl⟩) | ⟨i, hi, rfl⟩) | ⟨i, hi, rfl⟩
    · have halm : alm < 10 := halm
      have hp : p < 8 := hp
      exact ⟨hgin (show alm * 8 + p < 89 by omega), by simp [hh4, hv4]⟩
    · have hi : i < 3 := hi
      refine ⟨hgin (show 80 + i < 89 by omega), fun src hsrc => ?_⟩
      obtain ⟨i, hi, rfl⟩ := List.mem_map.mp hsrc
      exact hgclk (List.mem_range.mp hi)
    · have hi : i < 4 := hi
      exact ⟨hgin (show 83 + i < 89 by omega), by simp [hh4, hv4]⟩
    · have hi : i < 2 := hi
      exact ⟨hgin (show 87 + i < 89 by omega), by simp [hh4, hgclk (show 2 + i < 4 by omega)]⟩
  | gpio =>
    have hgin {z : Nat} (hz : z < 8) : c.HasNode (gin x y z) := .gin hblock hz
    simp only [List.mem_flatMap, List.mem_cons, List.not_mem_nil, or_false, List.mem_range] at hmux
    obtain ⟨z, hz, rfl | rfl⟩ := hmux
    · have hz : z < 4 := hz
      exact ⟨hgin (by omega), by simp [hh4]⟩
    · have hz : z < 4 := hz
      exact ⟨hgin (by omega), by simp [hv4]⟩
  | clockMux =>
    obtain ⟨i, hi, rfl⟩ := List.mem_map.mp hmux
    exact ⟨.gin hblock (List.mem_range.mp hi), by simp [hh4]⟩

/-- The block outputs that drive a track are nodes of the chip. -/
theorem hasNode_trackOutputs {shift t : Nat} : ∀ w ∈ c.trackOutputs x y shift t, c.HasNode w := by
  intro w hw
  rw [trackOutputs] at hw
  split at hw
  · rename_i hblock
    obtain ⟨k, hk, rfl⟩ := List.mem_map.mp hw
    exact .gout hblock (List.mem_range.mp (List.mem_of_mem_filter hk))
  · rename_i hblock
    split at hw
    · rename_i ht
      obtain rfl := List.mem_singleton.mp hw
      exact .gout hblock ht
    · cases hw
  · cases hw
  · cases hw

/-- A multiplexer of the chip belongs to a block input or to a track. -/
theorem mem_muxes {mux : Mux} : mux ∈ c.muxes ↔
    (∃ x y, (x, y) ∈ c.tiles ∧ mux ∈ c.inputMuxes x y) ∨
    ∃ dir : Direction, ∃ tile ∈ c.tiles, ∃ t < trackCount, dir.mux c tile t = mux := by
  simp only [muxes, List.mem_append, List.mem_flatMap, List.mem_map, List.mem_range, Prod.exists,
    or_assoc]
  refine or_congr_right ⟨?_, ?_⟩
  · rintro (⟨x, y, ht, t, hlt, rfl⟩ | ⟨x, y, ht, t, hlt, rfl⟩)
    · exact ⟨.row, x, y, ht, t, hlt, rfl⟩
    · exact ⟨.column, x, y, ht, t, hlt, rfl⟩
  · rintro ⟨_ | _, x, y, ht, t, hlt, rfl⟩
    · exact .inl ⟨x, y, ht, t, hlt, rfl⟩
    · exact .inr ⟨x, y, ht, t, hlt, rfl⟩

/-- The multiplexers of all tracks are among those of the chip. -/
theorem Direction.mux_mem (dir : Direction) {tile : Nat × Nat} (ht : tile ∈ c.tiles) {t : Nat}
    (htrack : t < trackCount) : dir.mux c tile t ∈ c.muxes :=
  mem_muxes.mpr (.inr ⟨dir, tile, ht, t, htrack, rfl⟩)

/-- The tracks of all tiles are nodes of the chip. -/
theorem Direction.hasNode_track (dir : Direction) {tile : Nat × Nat} (ht : tile ∈ c.tiles)
    (t : Nat) : c.HasNode (dir.track tile t) := by
  cases dir with
  | row => exact .h4 ht t
  | column => exact .v4 ht t

/-- The multiplexers of the chip join nodes of the chip. -/
theorem hasNode_muxes {mux : Mux} (hmux : mux ∈ c.muxes) :
    c.HasNode mux.dst ∧ ∀ src ∈ mux.sources, c.HasNode src := by
  rcases mem_muxes.mp hmux with ⟨x, y, ht, hmux⟩ | ⟨dir, tile, ht, t, -, rfl⟩
  · exact hasNode_inputMuxes ht hmux
  · rw [dir.dst_mux]
    refine ⟨dir.hasNode_track ht t, fun src hsrc => ?_⟩
    rcases (dir.mem_sources_mux ht).mp hsrc with hsrc | ⟨k, hk, -, rfl⟩ | rfl
    · exact hasNode_trackOutputs src hsrc
    · exact dir.hasNode_track ((dir.tileAt_mem_iff ht).mpr hk) t
    · exact dir.across.hasNode_track ht t

/-- The nodes of a chip have types of the chip. -/
theorem HasNode.kind_lt (hc : c.Fits) {w : Wire} (hw : c.HasNode w) :
    w.kind < Node.syntheticBase := by
  cases hw with
  | gin hblock => exact kind_pack_lt _ (hc.inRange_of_blockAt hblock) (by decide)
  | gout hblock => exact kind_pack_lt _ (hc.inRange_of_blockAt hblock) (by decide)
  | h4 ht => exact kind_pack_lt _ (hc.inRange ht) (by decide)
  | v4 ht => exact kind_pack_lt _ (hc.inRange ht) (by decide)
  | gclk => exact kind_pack_lt _ ⟨by decide, by decide⟩ (by decide)

end Chip

end Fabric
