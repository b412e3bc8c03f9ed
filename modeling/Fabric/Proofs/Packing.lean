import Fabric.Device.Wire
import Mathlib.Tactic.NormNum

/-!
# What packing keeps apart

A handle packs small numbers into one word. As long as every part fits its field the parts can be
read back, so different parts make different handles: tiles and nodes within the grid of a chip
never collide, and the synthetic nodes of a tile are as many as the tile has numbers for them. A
part that does not fit runs into the fields above its own.

## Main results

* `Pos.x_pack`, `Pos.y_pack`: a tile within the grid reads back;
* `Pos.eq_of_x_eq_of_y_eq`: a tile is known by its column and row;
* `Pad.pos_pack`, `Pad.blockIndex_pack`: a pad reads back;
* `Node.kind_pack_eq`, `Node.x_pack_eq`, `Node.y_pack_eq`, `Node.z_pack`: what a node reads back as,
  whatever was packed;
* `Node.kind_pack`, `Node.x_pack`, `Node.y_pack`: a node within the grid reads back;
* `Device.syntheticNode_inj`: equal synthetic nodes have equal tiles and equal numbers.
-/

namespace Fabric

/-- The number of columns, and of rows, that a handle has room for. -/
def coordinateCount : Nat := 128

namespace Pos

/-- The raw position is y below x, seven bits each. -/
theorem toNat_raw_pack {x y : Nat} (hx : x < coordinateCount) (hy : y < coordinateCount) :
    (pack x y).raw.toNat = x * 2 ^ 7 + y := by
  rw [coordinateCount] at hx hy
  rw [pack, ← Nat.shiftLeft_add_eq_or_of_lt (i := 7) (by omega), Nat.shiftLeft_eq,
    Nat.toUInt32_eq, UInt32.toNat_ofNat_of_lt' (by norm_num [UInt32.size]; omega)]

/-- The column is read back from a position packed from it. -/
theorem x_pack {x y : Nat} (hx : x < coordinateCount) (hy : y < coordinateCount) :
    (pack x y).x = x := by
  have hraw := toNat_raw_pack hx hy
  rw [coordinateCount] at hx hy
  rw [Pos.x, UInt32.toNat_shiftRight, hraw, Nat.shiftRight_eq_div_pow]
  show (x * 2 ^ 7 + y) / 2 ^ 7 = x
  omega

/-- The row is read back from a position packed from it. -/
theorem y_pack {x y : Nat} (hx : x < coordinateCount) (hy : y < coordinateCount) :
    (pack x y).y = y := by
  have hraw := toNat_raw_pack hx hy
  rw [coordinateCount] at hx hy
  rw [Pos.y, UInt32.toNat_and, hraw]
  show (x * 2 ^ 7 + y) &&& (2 ^ 7 - 1) = y
  rw [Nat.and_two_pow_sub_one_eq_mod]
  omega

/-- A tile is known by its column and row, whether or not these fit a handle. -/
theorem eq_of_x_eq_of_y_eq {p q : Pos} (hx : p.x = q.x) (hy : p.y = q.y) : p = q := by
  have hx : p.raw.toNat >>> 7 = q.raw.toNat >>> 7 := hx
  have hy : p.raw.toNat &&& (2 ^ 7 - 1) = q.raw.toNat &&& (2 ^ 7 - 1) := hy
  rw [Nat.shiftRight_eq_div_pow, Nat.shiftRight_eq_div_pow] at hx
  rw [Nat.and_two_pow_sub_one_eq_mod, Nat.and_two_pow_sub_one_eq_mod] at hy
  obtain ⟨p⟩ := p
  obtain ⟨q⟩ := q
  rw [Pos.mk.injEq]
  exact UInt32.toNat.inj (by dsimp only at hx hy; omega)

end Pos

namespace Pad

variable {x y index : Nat}

/-- The raw id is the position below the index, with no bits lost. -/
theorem toNat_raw_pack (hx : x < coordinateCount) (hy : y < coordinateCount)
    (hindex : index < 2 ^ 18) :
    (pack (.pack x y) index).raw.toNat = index * 2 ^ 14 + (x * 2 ^ 7 + y) := by
  have hpos := Pos.toNat_raw_pack hx hy
  rw [coordinateCount] at hx hy
  rw [pack, Nat.toUInt32_eq, UInt32.toNat_or, hpos, UInt32.toNat_ofNat_of_lt', Nat.or_comm,
    ← Nat.shiftLeft_add_eq_or_of_lt (by omega), Nat.shiftLeft_eq]
  rw [Nat.shiftLeft_eq, UInt32.size]
  omega

/-- The tile of a pad reads back. -/
theorem pos_pack (hx : x < coordinateCount) (hy : y < coordinateCount) (hindex : index < 2 ^ 18) :
    (pack (.pack x y) index).pos = .pack x y := by
  have hraw := toNat_raw_pack hx hy hindex
  have hpos := Pos.toNat_raw_pack hx hy
  rw [coordinateCount] at hx hy
  have hmask : (pack (.pack x y) index).raw &&& 0x3fff = (Pos.pack x y).raw := by
    refine UInt32.toNat.inj ?_
    rw [UInt32.toNat_and, hraw, hpos]
    show (index * 2 ^ 14 + (x * 2 ^ 7 + y)) &&& (2 ^ 14 - 1) = x * 2 ^ 7 + y
    rw [Nat.and_two_pow_sub_one_eq_mod]
    omega
  exact congrArg Pos.mk hmask

/-- The place of a pad in its tile reads back. -/
theorem blockIndex_pack (hx : x < coordinateCount) (hy : y < coordinateCount)
    (hindex : index < 2 ^ 18) :
    (pack (.pack x y) index).blockIndex = index := by
  have hraw := toNat_raw_pack hx hy hindex
  rw [coordinateCount] at hx hy
  rw [blockIndex, UInt32.toNat_shiftRight, hraw, Nat.shiftRight_eq_div_pow]
  show (index * 2 ^ 14 + (x * 2 ^ 7 + y)) / 2 ^ 14 = index
  omega

end Pad

namespace Node

/-- The number of node types. -/
def kindCount : Nat := 256

/-- A kind has the bits that are left over by the rest of a node. -/
theorem kind_lt (n : Node) : n.kind < kindCount := by
  have hraw := n.raw.toNat_lt
  have hkind : n.kind = n.raw.toNat >>> 24 := rfl
  rw [hkind, Nat.shiftRight_eq_div_pow, kindCount]
  omega

/-- A column has seven bits. -/
theorem x_lt (n : Node) : n.x < coordinateCount := by
  rw [Node.x, UInt32.toNat_and]
  exact Nat.lt_of_le_of_lt Nat.and_le_right (by decide)

/-- A row has seven bits. -/
theorem y_lt (n : Node) : n.y < coordinateCount := by
  rw [Node.y, UInt32.toNat_and]
  exact Nat.lt_of_le_of_lt Nat.and_le_right (by decide)

/-- An index has the bits the chip's numbering leaves for it. -/
theorem z_lt (n : Node) : n.z < indexCount := by
  rw [Node.z, UInt32.toNat_and]
  exact Nat.lt_of_le_of_lt Nat.and_le_right (by decide)

/-- What is read from a word of bits at an offset, if the bits there are those of a number. -/
theorem shiftRight_mod_eq {a b offset width : Nat}
    (h : ∀ i < width, a.testBit (offset + i) = b.testBit i) :
    a >>> offset % 2 ^ width = b % 2 ^ width := by
  refine Nat.eq_of_testBit_eq fun i => ?_
  rw [Nat.testBit_mod_two_pow, Nat.testBit_mod_two_pow, Nat.testBit_shiftRight]
  by_cases hi : i < width
  · rw [h i hi]
  · rw [decide_eq_false hi, Bool.false_and, Bool.false_and]

section Fields

variable (kind x y z : Nat)

/-- A bit of a packed node is set if one of the parts that reach it has it set. -/
theorem testBit_raw_pack {i : Nat} (hi : i < 32) : (pack kind x y z).raw.toNat.testBit i =
    (24 ≤ i && kind.testBit (i - 24) || 17 ≤ i && x.testBit (i - 17) || 10 ≤ i && y.testBit (i - 10)
      || i < 10 && z.testBit i) := by
  have hz : z % indexCount = z % 2 ^ 10 := rfl
  rw [pack, Nat.toUInt32_eq, UInt32.toNat_ofNat', hz, Nat.testBit_mod_two_pow, decide_eq_true hi,
    Bool.true_and]
  simp only [Nat.testBit_mod_two_pow, Nat.testBit_or, Nat.testBit_shiftLeft, ge_iff_le]

/-- The bits of a coordinate that its field has no room for run into the fields above. -/
theorem kind_pack_eq : (pack kind x y z).kind = (kind ||| x >>> 7 ||| y >>> 14) % 2 ^ 8 := by
  have hlt : (pack kind x y z).raw.toNat >>> 24 < 2 ^ 8 := kind_lt _
  rw [Node.kind, UInt32.toNat_shiftRight]
  refine (Nat.mod_eq_of_lt hlt).symm.trans (shiftRight_mod_eq fun i hi => ?_)
  rw [testBit_raw_pack _ _ _ _ (by omega), Nat.testBit_or, Nat.testBit_or, Nat.testBit_shiftRight,
    Nat.testBit_shiftRight]
  grind

/-- A row that does not fit runs over into the column. -/
theorem x_pack_eq : (pack kind x y z).x = (x ||| y >>> 7) % 2 ^ 7 := by
  rw [Node.x, UInt32.toNat_and, UInt32.toNat_shiftRight]
  refine (Nat.and_two_pow_sub_one_eq_mod _ 7).trans (shiftRight_mod_eq fun i hi => ?_)
  refine (testBit_raw_pack kind x y z (i := 17 + i) (by omega)).trans ?_
  rw [Nat.testBit_or, Nat.testBit_shiftRight]
  grind

/-- Of a row that does not fit the low seven bits are kept. -/
theorem y_pack_eq : (pack kind x y z).y = y % 2 ^ 7 := by
  rw [Node.y, UInt32.toNat_and, UInt32.toNat_shiftRight]
  refine (Nat.and_two_pow_sub_one_eq_mod _ 7).trans (shiftRight_mod_eq fun i hi => ?_)
  refine (testBit_raw_pack kind x y z (i := 10 + i) (by omega)).trans ?_
  grind

/-- Of an index that does not fit the low bits are kept. -/
theorem z_pack : (pack kind x y z).z = z % indexCount := by
  have hlow : (pack kind x y z).raw.toNat >>> 0 % 2 ^ 10 = z % 2 ^ 10 :=
    shiftRight_mod_eq fun i hi => by
    rw [Nat.zero_add, testBit_raw_pack _ _ _ _ (by omega)]
    grind
  rw [Node.z, UInt32.toNat_and]
  exact (Nat.and_two_pow_sub_one_eq_mod _ 10).trans hlow

end Fields

variable {kind x y : Nat} (z : Nat)

/-- The kind is read back where the coordinates fit. -/
theorem kind_pack (hk : kind < kindCount) (hx : x < coordinateCount) (hy : y < coordinateCount) :
    (pack kind x y z).kind = kind := by
  rw [kind_pack_eq, Nat.shiftRight_eq_zero x 7 hx,
    Nat.shiftRight_eq_zero y 14 (Nat.lt_trans hy (by decide)), Nat.or_zero, Nat.or_zero]
  exact Nat.mod_eq_of_lt hk

/-- The column is read back where the coordinates fit. -/
theorem x_pack (hx : x < coordinateCount) (hy : y < coordinateCount) : (pack kind x y z).x = x := by
  rw [x_pack_eq, Nat.shiftRight_eq_zero y 7 hy, Nat.or_zero]
  exact Nat.mod_eq_of_lt hx

/-- The row is read back where it fits. -/
theorem y_pack (hy : y < coordinateCount) : (pack kind x y z).y = y := by
  rw [y_pack_eq]
  exact Nat.mod_eq_of_lt hy

/-- A node is known by its type, its tile and its index. -/
theorem eq_of_parts {m n : Node} (hkind : m.kind = n.kind) (hx : m.x = n.x) (hy : m.y = n.y)
    (hz : m.z = n.z) : m = n := by
  have hkind : m.raw.toNat >>> 24 = n.raw.toNat >>> 24 := hkind
  have hx : m.raw.toNat >>> 17 &&& (2 ^ 7 - 1) = n.raw.toNat >>> 17 &&& (2 ^ 7 - 1) := hx
  have hy : m.raw.toNat >>> 10 &&& (2 ^ 7 - 1) = n.raw.toNat >>> 10 &&& (2 ^ 7 - 1) := hy
  have hz : m.raw.toNat &&& (2 ^ 10 - 1) = n.raw.toNat &&& (2 ^ 10 - 1) := hz
  simp only [Nat.shiftRight_eq_div_pow, Nat.and_two_pow_sub_one_eq_mod] at hkind hx hy hz
  obtain ⟨m⟩ := m
  obtain ⟨n⟩ := n
  rw [Node.mk.injEq]
  exact UInt32.toNat.inj (by dsimp only at hkind hx hy hz; omega)

end Node

namespace Device

/-! ### Synthetic nodes -/

/-- The synthetic numbers end below the last kind. -/
theorem syntheticKind_lt {n : Nat} (hn : n < syntheticCount) :
    Node.syntheticBase + n / Node.indexCount < Node.kindCount := by
  have hn : n < (256 - 128) * 1024 := hn
  show 128 + n / 1024 < 256
  omega

/-- The kind of a synthetic wire counts in steps of the index range. -/
theorem kind_syntheticNode {x y n : Nat} (hx : x < coordinateCount) (hy : y < coordinateCount)
    (hn : n < syntheticCount) :
    (syntheticNode x y n).kind = Node.syntheticBase + n / Node.indexCount :=
  Node.kind_pack n (syntheticKind_lt hn) hx hy

/-- Coordinates that do not fit leave the type of a synthetic node where it is, or raise it. -/
theorem le_kind_syntheticNode (x y : Nat) {n : Nat} (hn : n < syntheticCount) :
    Node.syntheticBase + n / Node.indexCount ≤ (syntheticNode x y n).kind := by
  have hfits : (Node.syntheticBase + n / Node.indexCount) % 2 ^ 8 =
      Node.syntheticBase + n / Node.indexCount := Nat.mod_eq_of_lt (syntheticKind_lt hn)
  rw [syntheticNode, Node.kind_pack_eq, Nat.or_mod_two_pow, Nat.or_mod_two_pow, hfits]
  exact Nat.le_trans Nat.left_le_or Nat.left_le_or

/-- The synthetic nodes of a chip are all different. -/
theorem syntheticNode_inj {x y n x' y' n' : Nat} (hx : x < coordinateCount)
    (hy : y < coordinateCount) (hn : n < syntheticCount) (hx' : x' < coordinateCount)
    (hy' : y' < coordinateCount) (hn' : n' < syntheticCount)
    (h : syntheticNode x y n = syntheticNode x' y' n') : x = x' ∧ y = y' ∧ n = n' := by
  have hkind := congrArg Node.kind h
  have hz := congrArg Node.z h
  rw [kind_syntheticNode hx hy hn, kind_syntheticNode hx' hy' hn'] at hkind
  rw [syntheticNode, syntheticNode, Node.z_pack, Node.z_pack] at hz
  have hxx := congrArg Node.x h
  have hyy := congrArg Node.y h
  rw [syntheticNode, syntheticNode, Node.x_pack n hx hy, Node.x_pack n' hx' hy'] at hxx
  rw [syntheticNode, syntheticNode, Node.y_pack n hy, Node.y_pack n' hy'] at hyy
  refine ⟨hxx, hyy, ?_⟩
  have hdiv : n / 1024 = n' / 1024 := Nat.add_left_cancel hkind
  have hmod : n % 1024 = n' % 1024 := hz
  omega

/-- A node of the chip is no synthetic node. -/
theorem ne_syntheticNode {x y n : Nat} (hx : x < coordinateCount) (hy : y < coordinateCount)
    (hn : n < syntheticCount) {w : Node} (hw : w.kind < Node.syntheticBase) :
    w ≠ syntheticNode x y n := by
  rintro rfl
  rw [kind_syntheticNode hx hy hn] at hw
  exact Nat.not_lt.mpr (Nat.le_add_right _ _) hw

end Device

end Fabric
