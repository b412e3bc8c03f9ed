import Fabric.Proofs.UniquePips

/-!
# The order of the multiplexers

The word of a node is made of its type, column, row and index, in this order of weight, so nodes are
ordered by their types first, then by tile, column by column, and last by index. The driven nodes of
the multiplexers of a chip are listed in this order: block inputs, horizontal tracks, vertical
tracks, each sort tile by tile. So no node is listed twice.

## Main results

* `Node.raw_lt_iff`: nodes are ordered by type, column, row and index;
* `Chip.map_dst_muxes`: the driven nodes, sort by sort;
* `Chip.pairwise_muxes`: the multiplexers are in ascending order of the driven node.
-/

namespace Fabric

/-! ### The order of nodes -/

namespace Node

/-- The raw number orders nodes by kind, then column, row and index. -/
theorem toNat_raw (n : Node) : n.raw.toNat = ((n.kind * 128 + n.x) * 128 + n.y) * 1024 + n.z := by
  have hkind : n.kind = n.raw.toNat >>> 24 := rfl
  have hx : n.x = n.raw.toNat >>> 17 &&& (2 ^ 7 - 1) := rfl
  have hy : n.y = n.raw.toNat >>> 10 &&& (2 ^ 7 - 1) := rfl
  have hz : n.z = n.raw.toNat &&& (2 ^ 10 - 1) := rfl
  rw [Nat.shiftRight_eq_div_pow] at hkind
  rw [Nat.shiftRight_eq_div_pow, Nat.and_two_pow_sub_one_eq_mod] at hx hy
  rw [Nat.and_two_pow_sub_one_eq_mod] at hz
  omega

/-- Nodes are ordered by type, then by column, row and index. -/
theorem raw_lt_iff {m n : Node} : m.raw < n.raw ↔ m.kind < n.kind ∨ m.kind = n.kind ∧
    (m.x < n.x ∨ m.x = n.x ∧ (m.y < n.y ∨ m.y = n.y ∧ m.z < n.z)) := by
  have hx : m.x < 128 ∧ n.x < 128 := ⟨m.x_lt, n.x_lt⟩
  have hy : m.y < 128 ∧ n.y < 128 := ⟨m.y_lt, n.y_lt⟩
  have hz : m.z < 1024 ∧ n.z < 1024 := ⟨m.z_lt, n.z_lt⟩
  rw [UInt32.lt_iff_toNat_lt, toNat_raw, toNat_raw]
  omega

end Node

namespace Chip

variable {c : Chip}

/-! ### Rows of nodes -/

/-- The first nodes of a type in a tile. -/
def nodeRow (kind count : Nat) (t : Nat × Nat) : List Node :=
  (List.range count).map (Node.pack kind t.1 t.2)

/-- The nodes of a row have its kind and stand at its tile. -/
theorem mem_nodeRow_spec {kind count : Nat} {t : Nat × Nat} (hr : InRange t.1 t.2)
    (hkind : kind < Node.kindCount) {n : Node} (hn : n ∈ nodeRow kind count t) :
    n.kind = kind ∧ n.x = t.1 ∧ n.y = t.2 := by
  obtain ⟨z, -, rfl⟩ := List.mem_map.mp hn
  exact ⟨Node.kind_pack z hkind hr.x_lt hr.y_lt, Node.x_pack z hr.x_lt hr.y_lt,
    Node.y_pack z hr.y_lt⟩

/-- The nodes of one type in one tile ascend by index. -/
theorem pairwise_nodeRow {kind count : Nat} {t : Nat × Nat} (hr : InRange t.1 t.2)
    (hkind : kind < Node.kindCount) (hcount : count ≤ Node.indexCount) :
    (nodeRow kind count t).Pairwise fun m n => m.raw < n.raw := by
  rw [nodeRow, List.pairwise_map]
  refine List.pairwise_lt_range.imp_of_mem fun {z z'} hz hz' hlt => ?_
  have hkey {z : Nat} (hz : z ∈ List.range count) :
      (Node.pack kind t.1 t.2 z).key = (kind, t.1, t.2, z) :=
    Node.key_pack hkind hr (Nat.lt_of_lt_of_le (List.mem_range.mp hz) hcount)
  have h := hkey hz
  have h' := hkey hz'
  simp only [Node.key, Prod.mk.injEq] at h h'
  rw [Node.raw_lt_iff]
  omega

/-- The tiles of a chip ascend by column and row. -/
theorem pairwise_tiles (c : Chip) :
    c.tiles.Pairwise fun t t' => t.1 < t'.1 ∨ t.1 = t'.1 ∧ t.2 < t'.2 := by
  rw [tiles, List.pairwise_flatMap]
  refine ⟨fun x _ => ?_, List.pairwise_lt_range.imp fun {x x'} hlt => ?_⟩
  · exact List.pairwise_map.mpr (List.pairwise_lt_range.imp fun hlt => .inr ⟨rfl, hlt⟩)
  · intro t ht t' ht'
    obtain ⟨y, -, rfl⟩ := List.mem_map.mp ht
    obtain ⟨y', -, rfl⟩ := List.mem_map.mp ht'
    exact .inl hlt

/-- The nodes of one type ascend tile by tile. -/
theorem pairwise_flatMap_nodeRow (hc : c.Fits) {kind : Nat} (hkind : kind < Node.kindCount)
    {count : Nat × Nat → Nat} (hcount : ∀ t ∈ c.tiles, count t ≤ Node.indexCount) :
    (c.tiles.flatMap fun t => nodeRow kind (count t) t).Pairwise fun m n => m.raw < n.raw := by
  rw [List.pairwise_flatMap]
  refine ⟨fun t ht => pairwise_nodeRow (hc.inRange ht) hkind (hcount t ht), ?_⟩
  refine c.pairwise_tiles.imp_of_mem fun {t t'} ht ht' hlt n hn n' hn' => ?_
  obtain ⟨hk, hx, hy⟩ := mem_nodeRow_spec (hc.inRange ht) hkind hn
  obtain ⟨hk', hx', hy'⟩ := mem_nodeRow_spec (hc.inRange ht') hkind hn'
  rw [Node.raw_lt_iff]
  omega

/-! ### The driven nodes -/

/-- The number of inputs of the block of a tile. -/
def inputCountAt (c : Chip) (t : Nat × Nat) : Nat :=
  ((c.blockAt t.1 t.2).map BlockKind.inputCount).getD 0

/-- A tile has at most as many inputs as there are indices. -/
theorem inputCountAt_le (c : Chip) (t : Nat × Nat) : c.inputCountAt t ≤ Node.indexCount := by
  rw [inputCountAt]
  cases c.blockAt t.1 t.2 with
  | none => exact Nat.zero_le _
  | some block => exact Nat.le_of_lt block.inputCount_lt

/-- The driven nodes of a chip: the inputs of its blocks, then the tracks of either direction. -/
theorem map_dst_muxes (c : Chip) : c.muxes.map Mux.dst =
    (c.tiles.flatMap fun t => nodeRow NodeType.gin (c.inputCountAt t) t)
      ++ (c.tiles.flatMap (nodeRow NodeType.h4 trackCount))
      ++ (c.tiles.flatMap (nodeRow NodeType.v4 trackCount)) := by
  have hinputs : ∀ t ∈ c.tiles, (c.inputMuxes t.1 t.2).map Mux.dst =
      nodeRow NodeType.gin (c.inputCountAt t) t := by
    intro t ht
    obtain ⟨block, hblock⟩ := exists_blockAt ht
    rw [map_dst_inputMuxes hblock, inputCountAt, hblock]
    rfl
  have htracks {f : Nat → Mux} {kind : Nat} {t : Nat × Nat}
      (hf : ∀ k, (f k).dst = .pack kind t.1 t.2 (k % trackCount)) :
      ((List.range trackCount).map f).map Mux.dst = nodeRow kind trackCount t := by
    rw [List.map_map]
    refine List.map_congr_left fun k hk => ?_
    rw [Function.comp_apply, hf, Nat.mod_eq_of_lt (List.mem_range.mp hk)]
  rw [muxes, List.map_append, List.map_append, List.map_flatMap, List.map_flatMap, List.map_flatMap]
  refine congrArg₂ _ (congrArg₂ _ (List.flatMap_congr hinputs) ?_) ?_
  · exact List.flatMap_congr fun t _ => htracks fun _ => rfl
  · exact List.flatMap_congr fun t _ => htracks fun _ => rfl

/-- The multiplexers of a chip are listed in ascending order of the driven node, and
so no node twice. -/
theorem pairwise_muxes (hc : c.Fits) :
    c.muxes.Pairwise fun mux mux' => mux.dst.raw < mux'.dst.raw := by
  -- a node of a sort that is listed earlier comes before a node of a later one
  have hbefore {kind kind' : Nat} {count count' : Nat × Nat → Nat} (hlt : kind < kind')
      (hkind' : kind' < Node.kindCount) {n n' : Node}
      (hn : n ∈ c.tiles.flatMap fun t => nodeRow kind (count t) t)
      (hn' : n' ∈ c.tiles.flatMap fun t => nodeRow kind' (count' t) t) : n.raw < n'.raw := by
    obtain ⟨t, ht, hn⟩ := List.mem_flatMap.mp hn
    obtain ⟨t', ht', hn'⟩ := List.mem_flatMap.mp hn'
    rw [Node.raw_lt_iff, (mem_nodeRow_spec (hc.inRange ht) (Nat.lt_trans hlt hkind') hn).1,
      (mem_nodeRow_spec (hc.inRange ht') hkind' hn').1]
    exact .inl hlt
  have hdst : (c.muxes.map Mux.dst).Pairwise fun m n => m.raw < n.raw := by
    rw [map_dst_muxes, List.pairwise_append, List.pairwise_append]
    refine ⟨⟨pairwise_flatMap_nodeRow hc (by decide) fun t _ => c.inputCountAt_le t,
      pairwise_flatMap_nodeRow hc (by decide) fun _ _ => by decide, fun n hn n' hn' => ?_⟩,
      pairwise_flatMap_nodeRow hc (by decide) fun _ _ => by decide, fun n hn n' hn' => ?_⟩
    · exact hbefore (by decide) (by decide) hn hn'
    · rcases List.mem_append.mp hn with hn | hn
      · exact hbefore (by decide) (by decide) hn hn'
      · exact hbefore (by decide) (by decide) hn hn'
  rwa [List.pairwise_map] at hdst

end Chip

end Fabric
