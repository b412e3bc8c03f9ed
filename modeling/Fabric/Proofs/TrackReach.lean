import Fabric.Proofs.UniquePips
import Mathlib.Logic.Relation

/-!
# What the routing can reach

A signal that leaves an output of a block goes from node to node through the routing multiplexers of
the chip. It enters a track of each direction, and from then on it keeps to tracks of the same
number: a track is driven by like tracks and block outputs only, and an input of a block leads
nowhere. In the other direction, all tracks of one number form one network over the grid, through
the tracks of the corner tile.

So the number of a track decides what can be connected, and the distance between two tiles does not.

## Main results

* `Chip.Drives.cases`: what a step through a multiplexer can be;
* `Chip.OnTrack.of_reaches`: a signal never changes its track;
* `Chip.OnTrack.reaches`: tracks of one number reach each other;
* `Chip.reaches_iff_sameTrack`: which outputs of the LABs of a grid reach which inputs.
-/

namespace Fabric.Chip

/-- Some multiplexer of the chip can drive node `dst` from node `src`. -/
def Drives (c : Chip) (src dst : Node) : Prop := ∃ mux ∈ c.muxes, mux.dst = dst ∧ src ∈ mux.sources

/-- A signal on node `src` can be led to node `dst` through the multiplexers of the chip. -/
abbrev Reaches (c : Chip) : Node → Node → Prop := Relation.ReflTransGen c.Drives

/-- A node is a track of the chip with number `t`, counted round, in one of the two directions. -/
inductive OnTrack (c : Chip) (t : Nat) : Node → Prop where
  | track (dir : Direction) {tile : Nat × Nat} (ht : tile ∈ c.tiles) :
      OnTrack c t (dir.track tile t)

variable {c : Chip} {x y : Nat}

/-! ### Tracks -/

/-- The horizontal wires of a track are on it. -/
theorem OnTrack.h4 {t : Nat} (ht : (x, y) ∈ c.tiles) : c.OnTrack t (h4 x y t) :=
  show c.OnTrack t (Direction.row.track (x, y) t) from .track .row ht

/-- The vertical wires of a track are on it. -/
theorem OnTrack.v4 {t : Nat} (ht : (x, y) ∈ c.tiles) : c.OnTrack t (v4 x y t) :=
  show c.OnTrack t (Direction.column.track (x, y) t) from .track .column ht

/-- Track numbers that agree modulo the count of tracks name the same track. -/
theorem OnTrack.congr {t t' : Nat} (h : t % trackCount = t' % trackCount) {n : Node}
    (hn : c.OnTrack t n) : c.OnTrack t' n := by
  obtain ⟨dir, ht⟩ := hn
  rw [← dir.track_mod, h, dir.track_mod]
  exact .track dir ht

/-- A track has one number. -/
theorem OnTrack.mod_eq (hc : c.Fits) {t t' : Nat} {n : Node} (h : c.OnTrack t n)
    (h' : c.OnTrack t' n) : t % trackCount = t' % trackCount := by
  have hindex {s : Nat} (hs : c.OnTrack s n) : n.key.2.2.2 = s % trackCount := by
    obtain ⟨dir, ht⟩ := hs
    rw [dir.key_track (hc.inRange ht)]
  exact (hindex h).symm.trans (hindex h')

/-- No block input and no block output is a track. -/
theorem OnTrack.gout_lt_kind (hc : c.Fits) {t : Nat} {n : Node} (h : c.OnTrack t n) :
    NodeType.gout < n.kind := by
  obtain ⟨dir, ht⟩ := h
  rw [dir.kind_track (hc.inRange ht)]
  exact dir.nodeType_spec.1

/-! ### Steps through the multiplexers -/

/-- A node has one multiplexer, and what that lists is all that can drive it. -/
theorem drives_dst_iff (hc : c.Fits) {mux : Mux} (hmux : mux ∈ c.muxes) {src : Node} :
    c.Drives src mux.dst ↔ src ∈ mux.sources := by
  have hbundle {mux : Mux} (hmux : mux ∈ c.muxes) : mux ∈ c.tiles.flatMap c.bundles := by
    rw [List.mem_flatMap]
    simp only [bundles, List.mem_append]
    rcases mem_muxes.mp hmux with ⟨x, y, ht, h⟩ | ⟨_ | _, tile, ht, t, hlt, rfl⟩
    · exact ⟨(x, y), ht, .inl (.inl (.inr h))⟩
    · exact ⟨tile, ht, .inl (.inr (List.mem_map_of_mem (List.mem_range.mpr hlt)))⟩
    · exact ⟨tile, ht, .inr (List.mem_map_of_mem (List.mem_range.mpr hlt))⟩
  constructor
  · rintro ⟨mux', hmux', hdst, hsrc⟩
    rwa [← List.inj_on_of_nodup_map (nodup_dst_bundles hc) (hbundle hmux') (hbundle hmux) hdst]
  · exact fun hsrc => ⟨mux, hmux, rfl, hsrc⟩

/-- A multiplexer of a block input selects among tracks and global clocks. -/
theorem inputMuxes_spec (hr : InRange x y) {mux : Mux} (hmux : mux ∈ c.inputMuxes x y) :
    mux.dst.kind = NodeType.gin ∧ ∀ src ∈ mux.sources, NodeType.gout < src.kind := by
  have hh4 (t : Nat) : NodeType.gout < (h4 x y t).kind := by
    rw [kind_h4 hr]
    decide
  have hv4 (t : Nat) : NodeType.gout < (v4 x y t).kind := by
    rw [kind_v4 hr]
    decide
  have hgclk {i : Nat} (hi : i < globalClockCount) : NodeType.gout < (gclk i).kind := by
    rw [kind_gclk hi]
    decide
  rw [inputMuxes] at hmux
  split at hmux
  · simp only [labInputMuxes, List.mem_append, List.mem_flatMap, List.mem_map,
      List.mem_range] at hmux
    rcases hmux with ((⟨alm, -, p, -, rfl⟩ | ⟨i, -, rfl⟩) | ⟨i, -, rfl⟩) | ⟨i, hi, rfl⟩
    · exact ⟨kind_gin hr _, by simp [hh4, hv4]⟩
    · refine ⟨kind_gin hr _, fun src hsrc => ?_⟩
      obtain ⟨i, hi, rfl⟩ := List.mem_map.mp hsrc
      exact hgclk (List.mem_range.mp hi)
    · exact ⟨kind_gin hr _, by simp [hh4, hv4]⟩
    · have hclear : 2 + i < globalClockCount := Nat.add_lt_add_left (show i < 2 from hi) 2
      exact ⟨kind_gin hr _, by simp [hh4, hgclk hclear]⟩
  · simp only [List.mem_flatMap, List.mem_cons, List.not_mem_nil, or_false] at hmux
    obtain ⟨z, -, rfl | rfl⟩ := hmux
    · exact ⟨kind_gin hr _, by simp [hh4]⟩
    · exact ⟨kind_gin hr _, by simp [hv4]⟩
  · obtain ⟨i, -, rfl⟩ := List.mem_map.mp hmux
    exact ⟨kind_gin hr _, by simp [hh4]⟩
  · cases hmux

/-- A step enters a block input, keeps to its track, or leaves a block output for the
track of that output. -/
theorem Drives.cases (hc : c.Fits) {src dst : Node} (h : c.Drives src dst) :
    (NodeType.gout < src.kind ∧ dst.kind = NodeType.gin) ∨
    (∃ t, c.OnTrack t src ∧ c.OnTrack t dst) ∨
    ∃ dir : Direction, ∃ tile ∈ c.tiles, ∃ t,
      src ∈ c.trackOutputs tile.1 tile.2 dir.shift t ∧ dst = dir.track tile t := by
  obtain ⟨mux, hmux, rfl, hsrc⟩ := h
  rcases mem_muxes.mp hmux with ⟨x, y, ht, hmux⟩ | ⟨dir, tile, ht, t, -, rfl⟩
  · obtain ⟨hdst, hsources⟩ := inputMuxes_spec (hc.inRange ht) hmux
    exact .inl ⟨hsources src hsrc, hdst⟩
  · rw [dir.dst_mux]
    rcases (dir.mem_sources_mux ht).mp hsrc with hsrc | ⟨k, hk, -, rfl⟩ | rfl
    · exact .inr (.inr ⟨dir, tile, ht, t, hsrc, rfl⟩)
    · exact .inr (.inl ⟨t, .track dir ((dir.tileAt_mem_iff ht).mpr hk), .track dir ht⟩)
    · exact .inr (.inl ⟨t, .track dir.across ht, .track dir ht⟩)

/-! ### A signal keeps its track -/

/-- A block input drives nothing. -/
theorem Drives.kind_src_ne_gin (hc : c.Fits) {src dst : Node} (h : c.Drives src dst) :
    src.kind ≠ NodeType.gin := by
  have hlt : NodeType.gin < NodeType.gout := by decide
  rcases h.cases hc with ⟨hsrc, -⟩ | ⟨t, hsrc, -⟩ | ⟨dir, tile, ht, t, hsrc, -⟩
  · exact (Nat.lt_trans hlt hsrc).ne'
  · exact (Nat.lt_trans hlt (hsrc.gout_lt_kind hc)).ne'
  · rw [(trackOutputs_spec (hc.inRange ht) dir.shift t).2 src hsrc]
    exact hlt.ne'

/-- A step from a track leads to a track of the same number, or into a block. -/
theorem OnTrack.of_drives (hc : c.Fits) {t : Nat} {src dst : Node} (hsrc : c.OnTrack t src)
    (h : c.Drives src dst) : c.OnTrack t dst ∨ dst.kind = NodeType.gin := by
  rcases h.cases hc with ⟨-, hdst⟩ | ⟨t', hsrc', hdst⟩ | ⟨dir, tile, ht, t', houtput, -⟩
  · exact .inr hdst
  · exact .inl (hdst.congr (hsrc'.mod_eq hc hsrc))
  · have hkind := (trackOutputs_spec (hc.inRange ht) dir.shift t').2 src houtput
    exact absurd hkind (hsrc.gout_lt_kind hc).ne'

/-- Wherever a signal on a track gets, it is on a track of the same number or
has entered a block. -/
theorem OnTrack.of_reaches (hc : c.Fits) {t : Nat} {n n' : Node} (hn : c.OnTrack t n)
    (h : c.Reaches n n') : c.OnTrack t n' ∨ n'.kind = NodeType.gin := by
  induction h with
  | refl => exact .inl hn
  | tail _ hstep ih =>
    rcases ih with hmid | hmid
    · exact hmid.of_drives hc hstep
    · exact absurd hmid (hstep.kind_src_ne_gin hc)

/-! ### Tracks of one number reach each other -/

/-- The sources of a mux drive the wire of its direction and track. -/
theorem Direction.drives_track (dir : Direction) {tile : Nat × Nat} (ht : tile ∈ c.tiles) {t : Nat}
    {src : Node} (hsrc : src ∈ (dir.mux c tile (t % trackCount)).sources) :
    c.Drives src (dir.track tile t) :=
  ⟨_, dir.mux_mem ht (mod_trackCount_lt t), by rw [dir.dst_mux, dir.track_mod], hsrc⟩

/-- The track of the other direction drives the one of the same tile and number. -/
theorem Direction.drives_across (dir : Direction) {tile : Nat × Nat} (ht : tile ∈ c.tiles)
    (t : Nat) : c.Drives (dir.across.track tile t) (dir.track tile t) :=
  dir.drives_track ht ((dir.mem_sources_mux ht).mpr (.inr (.inr (dir.across.track_mod ..).symm)))

/-- Like tracks of two neighbours in a line drive each other. -/
theorem Direction.drives_along (dir : Direction) {tile : Nat × Nat} (ht : tile ∈ c.tiles) (t : Nat)
    {k k' : Nat} (hk : k < dir.lineLength c) (hk' : k' < dir.lineLength c)
    (hnext : k + 1 = k' ∨ k = k' + 1) :
    c.Drives (dir.track (dir.tileAt tile k) t) (dir.track (dir.tileAt tile k') t) := by
  have ht' := (dir.tileAt_mem_iff ht).mpr hk'
  refine dir.drives_track ht' ((dir.mem_sources_mux ht').mpr (.inr (.inl ⟨k, hk, ?_, ?_⟩)))
  · rwa [dir.place_tileAt]
  · rw [dir.tileAt_tileAt, dir.track_mod]

/-- Two nodes that reach each other. -/
def Connected (c : Chip) (n n' : Node) : Prop := c.Reaches n n' ∧ c.Reaches n' n

/-- Connections can be read backwards. -/
theorem Connected.symm {n n' : Node} (h : c.Connected n n') : c.Connected n' n := ⟨h.2, h.1⟩

theorem Connected.trans {n n' n'' : Node} (h : c.Connected n n') (h' : c.Connected n' n'') :
    c.Connected n n'' :=
  ⟨h.1.trans h'.1, h'.2.trans h.2⟩

/-- Along a line, by induction on the distance from its first tile. -/
theorem Direction.connected_line (dir : Direction) {tile : Nat × Nat} (ht : tile ∈ c.tiles)
    (t : Nat) {k : Nat} (hk : k < dir.lineLength c) :
    c.Connected (dir.track (dir.tileAt tile 0) t) (dir.track (dir.tileAt tile k) t) := by
  induction k with
  | zero => exact ⟨.refl, .refl⟩
  | succ k ih =>
    have hk' : k < dir.lineLength c := Nat.lt_of_succ_lt hk
    exact (ih hk').trans ⟨.single (dir.drives_along ht t hk' hk (.inl rfl)),
      .single (dir.drives_along ht t hk hk' (.inr rfl))⟩

/-- Along its direction every tile's wire is connected to that of the first tile. -/
theorem Direction.connected_first (dir : Direction) {tile : Nat × Nat} (ht : tile ∈ c.tiles)
    (t : Nat) : c.Connected (dir.track (dir.tileAt tile 0) t) (dir.track tile t) := by
  have hline := dir.connected_line ht t (dir.place_lt ht)
  rwa [dir.tileAt_place] at hline

/-- Every track of number `t` is connected to that of the corner tile: along its line to the first
tile, across, and along the line of that tile. -/
theorem OnTrack.connected_corner {t : Nat} {n : Node} (h : c.OnTrack t n) :
    c.Connected (Chip.v4 0 0 t) n := by
  have hacross (dir : Direction) {tile : Nat × Nat} (ht : tile ∈ c.tiles) :
      c.Connected (dir.across.track tile t) (dir.track tile t) := by
    have hback := dir.across.drives_across ht t
    rw [dir.across_across] at hback
    exact ⟨.single (dir.drives_across ht t), .single hback⟩
  have hrow {tile : Nat × Nat} (ht : tile ∈ c.tiles) :
      c.Connected (Chip.v4 0 0 t) (Direction.row.track tile t) := by
    have hfirst : Direction.row.tileAt tile 0 ∈ c.tiles :=
      (Direction.row.tileAt_mem_iff ht).mpr (Nat.zero_lt_of_lt (Direction.row.place_lt ht))
    exact ((Direction.column.connected_first hfirst t).trans (hacross .row hfirst)).trans
      (Direction.row.connected_first ht t)
  obtain ⟨_ | _, ht⟩ := h
  · exact hrow ht
  · exact (hrow ht).trans (hacross .column ht)

/-- Tracks of one number reach each other, wherever they are on the grid. -/
theorem OnTrack.reaches {t : Nat} {n n' : Node} (h : c.OnTrack t n) (h' : c.OnTrack t n') :
    c.Reaches n n' :=
  (h.connected_corner.symm.trans h'.connected_corner).1

/-- Of two tracks, one reaches the other exactly if they have the same number. -/
theorem OnTrack.reaches_iff (hc : c.Fits) {t t' : Nat} {n n' : Node} (h : c.OnTrack t n)
    (h' : c.OnTrack t' n') : c.Reaches n n' ↔ t % trackCount = t' % trackCount := by
  constructor
  · intro hreach
    rcases h.of_reaches hc hreach with hsame | hgin
    · exact hsame.mod_eq hc h'
    · have hlt : NodeType.gin < n'.kind := Nat.lt_trans (by decide) (h'.gout_lt_kind hc)
      exact absurd hgin hlt.ne'
  · intro hmod
    exact (h.congr hmod).reaches h'

/-! ### The outputs and inputs of the ALMs -/

/-- An output of a LAB is listed for the tracks of its own tile, and there by its number. The tile
and the number are read back from the node. -/
theorem gout_mem_trackOutputs_iff (hc : c.Fits) (hlab : c.blockAt x y = some .lab) {k : Nat}
    (hk : k < almsPerLab * almOutputCount) {x' y' shift t : Nat} (ht' : (x', y') ∈ c.tiles) :
    gout x y k ∈ c.trackOutputs x' y' shift t ↔ x' = x ∧ y' = y ∧ (k + shift) % trackCount = t := by
  constructor
  · intro hmem
    have hkey : (gout x y k).key = (NodeType.gout, x, y, k) :=
      key_gout (hc.inRange_of_blockAt hlab) (Nat.lt_trans hk (by decide))
    rw [trackOutputs] at hmem
    split at hmem
    · obtain ⟨k', hk', heq⟩ := List.mem_map.mp hmem
      rw [List.mem_filter, List.mem_range, decide_eq_true_iff] at hk'
      rw [← heq, key_gout (hc.inRange ht') (Nat.lt_trans hk'.1 (by decide))] at hkey
      simp only [Prod.mk.injEq, true_and] at hkey
      obtain ⟨rfl, rfl, rfl⟩ := hkey
      exact ⟨rfl, rfl, hk'.2⟩
    · rename_i hgpio
      rw [List.mem_ite_nil_right, List.mem_singleton] at hmem
      rw [hmem.2, key_gout (hc.inRange ht') (Nat.lt_trans hmem.1 (by decide))] at hkey
      simp only [Prod.mk.injEq, true_and] at hkey
      rw [hkey.1, hkey.2.1, hlab] at hgpio
      cases hgpio
    · cases hmem
    · cases hmem
  · rintro ⟨rfl, rfl, hmod⟩
    rw [trackOutputs, hlab]
    exact List.mem_map_of_mem (List.mem_filter.mpr ⟨List.mem_range.mpr hk, decide_eq_true hmod⟩)

/-- Output `k` of a LAB drives its horizontal track `k` and its vertical track `k + 1`,
and nothing else. -/
theorem drives_gout_iff (hc : c.Fits) (hlab : c.blockAt x y = some .lab) {k : Nat}
    (hk : k < almsPerLab * almOutputCount) {dst : Node} :
    c.Drives (gout x y k) dst ↔ dst = h4 x y k ∨ dst = v4 x y (k + 1) := by
  have ht := mem_tiles_of_blockAt hlab
  have hkind := kind_gout (hc.inRange ht) k
  constructor
  · intro h
    rcases h.cases hc with ⟨hlt, -⟩ | ⟨t, hsrc, -⟩ | ⟨dir, ⟨x', y'⟩, ht', t, hmem, rfl⟩
    · exact absurd hkind hlt.ne'
    · exact absurd hkind (hsrc.gout_lt_kind hc).ne'
    · obtain ⟨rfl, rfl, rfl⟩ := (gout_mem_trackOutputs_iff hc hlab hk ht').mp hmem
      rw [dir.track_mod]
      cases dir with
      | row => exact .inl rfl
      | column => exact .inr rfl
  · have hdrives (dir : Direction) : c.Drives (gout x y k) (dir.track (x, y) (k + dir.shift)) :=
      dir.drives_track ht ((dir.mem_sources_mux ht).mpr
        (.inl ((gout_mem_trackOutputs_iff hc hlab hk ht).mpr ⟨rfl, rfl, rfl⟩)))
    rintro (rfl | rfl)
    · exact hdrives .row
    · exact hdrives .column

/-- Input `p` of ALM `a` of a LAB is driven by its horizontal track `a + p` and its vertical track
`3 * a + p`, and by nothing else. -/
theorem drives_gin_iff (hc : c.Fits) (hlab : c.blockAt x y = some .lab) {a p : Nat}
    (ha : a < almsPerLab) (hp : p < almInputCount) {src : Node} :
    c.Drives src (gin x y (a * almInputCount + p)) ↔ src = h4 x y (a + p) ∨
      src = v4 x y (3 * a + p) := by
  have hmem :
      ⟨gin x y (a * almInputCount + p), [h4 x y (a + p), v4 x y (a * 3 + p)]⟩ ∈ c.muxes := by
    refine mem_muxes.mpr (.inl ⟨x, y, mem_tiles_of_blockAt hlab, ?_⟩)
    rw [inputMuxes, hlab]
    simp only [labInputMuxes, List.mem_append, List.mem_flatMap, List.mem_map, List.mem_range]
    exact .inl (.inl (.inl ⟨a, ha, p, hp, rfl⟩))
  rw [drives_dst_iff hc hmem, List.mem_pair, Nat.mul_comm a 3]

/-! ### Which outputs reach which inputs -/

/-- An output of one LAB reaches an ALM input of another exactly if a track that the output drives
has the number of a track that drives the input. -/
theorem gout_reaches_gin_iff (hc : c.Fits) {x' y' k a p : Nat} (hlab : c.blockAt x y = some .lab)
    (hlab' : c.blockAt x' y' = some .lab) (hk : k < almsPerLab * almOutputCount)
    (ha : a < almsPerLab)
    (hp : p < almInputCount) :
    c.Reaches (gout x y k) (gin x' y' (a * almInputCount + p)) ↔
      ∃ t ∈ [k, k + 1], ∃ t' ∈ [a + p, 3 * a + p], t % trackCount = t' % trackCount := by
  have ht := mem_tiles_of_blockAt hlab
  have ht' := mem_tiles_of_blockAt hlab'
  constructor
  · intro h
    -- the first step enters a track, the last one leaves it
    obtain ⟨first, hfirst, hrest⟩ : ∃ first, c.Drives (gout x y k) first ∧
        c.Reaches first (gin x' y' (a * almInputCount + p)) := by
      rcases h.cases_head with heq | h
      · have hkind := congrArg Node.kind heq
        rw [kind_gout (hc.inRange ht), kind_gin (hc.inRange ht')] at hkind
        cases hkind
      · exact h
    obtain ⟨t, hmem, hon⟩ : ∃ t ∈ [k, k + 1], c.OnTrack t first := by
      rcases (drives_gout_iff hc hlab hk).mp hfirst with rfl | rfl
      · exact ⟨k, by simp, .h4 ht⟩
      · exact ⟨k + 1, by simp, .v4 ht⟩
    rcases hrest.cases_tail with heq | ⟨last, hreach, hlast⟩
    · have hlt := hon.gout_lt_kind hc
      rw [← heq, kind_gin (hc.inRange ht')] at hlt
      exact absurd hlt (by decide)
    obtain ⟨t', hmem', hon'⟩ : ∃ t' ∈ [a + p, 3 * a + p], c.OnTrack t' last := by
      rcases (drives_gin_iff hc hlab' ha hp).mp hlast with rfl | rfl
      · exact ⟨a + p, by simp, .h4 ht'⟩
      · exact ⟨3 * a + p, by simp, .v4 ht'⟩
    exact ⟨t, hmem, t', hmem', (hon.reaches_iff hc hon').mp hreach⟩
  · rintro ⟨t, hmem, t', hmem', hmod⟩
    obtain ⟨first, hfirst, hon⟩ : ∃ first, c.Drives (gout x y k) first ∧ c.OnTrack t first := by
      rcases List.mem_pair.mp hmem with rfl | rfl
      · exact ⟨_, (drives_gout_iff hc hlab hk).mpr (.inl rfl), .h4 ht⟩
      · exact ⟨_, (drives_gout_iff hc hlab hk).mpr (.inr rfl), .v4 ht⟩
    obtain ⟨last, hlast, hon'⟩ : ∃ last, c.Drives last (gin x' y' (a * almInputCount + p)) ∧
        c.OnTrack t' last := by
      rcases List.mem_pair.mp hmem' with rfl | rfl
      · exact ⟨_, (drives_gin_iff hc hlab' ha hp).mpr (.inl rfl), .h4 ht'⟩
      · exact ⟨_, (drives_gin_iff hc hlab' ha hp).mpr (.inr rfl), .v4 ht'⟩
    exact .head hfirst (((hon.reaches_iff hc hon').mpr hmod).tail hlast)

/-- The nodes behind the outputs and the inputs of the ALMs of a LAB. -/
theorem node?_alm (hc : c.Fits) (hlab : c.blockAt x y = some .lab) {alm : Nat}
    (halm : alm < almsPerLab) :
    (∀ output, c.node? ⟨.lab, .pack x y, .almOutput output, alm, -1⟩ =
      some (gout x y (alm * almOutputCount + output.index))) ∧
    ∀ pin, c.node? ⟨.lab, .pack x y, .almInput pin, alm, -1⟩ =
      some (gin x y (alm * almInputCount + pin.index)) := by
  have htile : IsTile c x y .lab := ⟨hc.inRange_of_blockAt hlab, hlab⟩
  refine ⟨fun output => ?_, node?_almInput htile halm⟩
  rw [node?_labPort htile]
  exact congrArg (Option.map _) (indexBelow?_natCast halm)

/-- On every grid the track alone decides what the routing reaches. The ALM outputs of a LAB number
its output nodes `k` and the ALM inputs its input nodes `8 * a + p`; output `k` of one LAB reaches
input `p` of ALM `a` of another, or of the same, exactly if the tracks that the one drives and those
that drive the other have a number in common. Tracks of one number reach each other across the whole
grid, in either direction, and tracks of different numbers never do. -/
theorem reaches_iff_sameTrack {c : Chip} (hgrid : isGrid c.width c.height = true) :
    (∀ x y, c.blockAt x y = some .lab → ∀ alm < almsPerLab,
      (∀ output, c.node? ⟨.lab, .pack x y, .almOutput output, alm, -1⟩ =
        some (gout x y (alm * almOutputCount + output.index))) ∧
      ∀ pin, c.node? ⟨.lab, .pack x y, .almInput pin, alm, -1⟩ =
        some (gin x y (alm * almInputCount + pin.index))) ∧
    (∀ x y x' y', c.blockAt x y = some .lab → c.blockAt x' y' = some .lab →
      ∀ k < almsPerLab * almOutputCount, ∀ a < almsPerLab, ∀ p < almInputCount,
        (c.Reaches (gout x y k) (gin x' y' (a * almInputCount + p)) ↔
          ({k % trackCount, (k + 1) % trackCount} ∩
            {(a + p) % trackCount, (3 * a + p) % trackCount} : Finset Nat).Nonempty)) ∧
    ∀ x y x' y', (x, y) ∈ c.tiles → (x', y') ∈ c.tiles → ∀ t < trackCount, ∀ t' < trackCount,
      ∀ n ∈ [h4 x y t, v4 x y t], ∀ n' ∈ [h4 x' y' t', v4 x' y' t'], (c.Reaches n n' ↔ t = t') := by
  have hc := fits_of_isGrid hgrid
  refine ⟨fun x y hlab alm halm => node?_alm hc hlab halm, ?_, ?_⟩
  · intro x y x' y' hlab hlab' k hk a ha p hp
    rw [gout_reaches_gin_iff hc hlab hlab' hk ha hp]
    simp only [Finset.Nonempty, Finset.mem_inter, Finset.mem_insert, Finset.mem_singleton,
      List.mem_pair]
    constructor
    · rintro ⟨t, ht, t', ht', hmod⟩
      refine ⟨t % trackCount, ht.imp (congrArg (· % trackCount)) (congrArg (· % trackCount)), ?_⟩
      rw [hmod]
      exact ht'.imp (congrArg (· % trackCount)) (congrArg (· % trackCount))
    · rintro ⟨_, rfl | rfl, hmod | hmod⟩
      · exact ⟨k, .inl rfl, a + p, .inl rfl, hmod⟩
      · exact ⟨k, .inl rfl, 3 * a + p, .inr rfl, hmod⟩
      · exact ⟨k + 1, .inr rfl, a + p, .inl rfl, hmod⟩
      · exact ⟨k + 1, .inr rfl, 3 * a + p, .inr rfl, hmod⟩
  · intro x y x' y' ht ht' t hlt t' hlt' n hn n' hn'
    have hon {x y t : Nat} {n : Node} (ht : (x, y) ∈ c.tiles) (hn : n ∈ [h4 x y t, v4 x y t]) :
        c.OnTrack t n := by
      rcases List.mem_pair.mp hn with rfl | rfl
      · exact .h4 ht
      · exact .v4 ht
    rw [(hon ht hn).reaches_iff hc (hon ht' hn'), Nat.mod_eq_of_lt hlt, Nat.mod_eq_of_lt hlt']

/-- On five columns and three rows, output 7 of the LAB at (1, 1) reaches input 6 of ALM 3 of the
LAB at (3, 2), by track 7 or 0, and not input 1 of its ALM 0, which only track 1 drives. -/
theorem reaches_iff_sameTrack_fiveByThree : isGrid 5 3 = true ∧
    Reaches ⟨"", 5, 3⟩ (gout 1 1 7) (gin 3 2 (3 * almInputCount + 6)) ∧
    ¬ Reaches ⟨"", 5, 3⟩ (gout 1 1 7) (gin 3 2 (0 * almInputCount + 1)) ∧
    Reaches ⟨"", 5, 3⟩ (h4 0 0 5) (v4 4 2 5) ∧ ¬ Reaches ⟨"", 5, 3⟩ (h4 0 0 5) (h4 0 0 6) := by
  have hgrid : isGrid 5 3 = true := rfl
  obtain ⟨-, hports, htracks⟩ := reaches_iff_sameTrack (c := ⟨"", 5, 3⟩) hgrid
  refine ⟨hgrid, ?_, ?_, ?_, ?_⟩
  · exact (hports 1 1 3 2 rfl rfl 7 (by decide) 3 (by decide) 6 (by decide)).mpr (by decide)
  · exact fun h => absurd
      ((hports 1 1 3 2 rfl rfl 7 (by decide) 0 (by decide) 1 (by decide)).mp h) (by decide)
  · exact (htracks 0 0 4 2 (by decide) (by decide) 5 (by decide) 5 (by decide) _ (by decide) _
      (by decide)).mpr rfl
  · exact fun h => absurd ((htracks 0 0 0 0 (by decide) (by decide) 5 (by decide) 6 (by decide) _
      (by decide) _ (by decide)).mp h) (by decide)

end Fabric.Chip
