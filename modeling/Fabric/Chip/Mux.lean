import Fabric.Chip.Port

/-!
# Routing multiplexers

Every routing node that can be driven is the output of one multiplexer, which selects one
of several source nodes. The multiplexers of a tile follow from its block:

* an ALM input `p` of ALM `a` of a LAB can be driven by the horizontal track `a + p` and
  the vertical track `3a + p`, counted round;
* output `k` of a LAB drives the horizontal track `k` and the vertical track `k + 1`;
* each track is also driven by the like track of the two neighbouring tiles along its
  direction, and by the track of the same number in the other direction.

The multiplexers of a chip are listed in ascending order of the driven node: all block
inputs, then all horizontal tracks, then all vertical tracks.
-/

namespace Fabric

/-- A routing multiplexer: a driven node and the nodes that can drive it, in order. -/
structure Mux where
  dst : Node
  sources : List Node
  deriving DecidableEq, Inhabited, Repr

namespace Chip

/-! ### The multiplexers of one tile -/

/-- The multiplexers of the block inputs of a LAB. -/
def labInputMuxes (x y : Nat) : List Mux :=
  ((List.range almsPerLab).flatMap fun alm => (List.range almInputCount).map fun p =>
      ⟨gin x y (alm * almInputCount + p), [h4 x y (alm + p), v4 x y (alm * 3 + p)]⟩)
    ++ ((List.range labClockCount).map fun i =>
      ⟨gin x y (labClockBase + i), (List.range globalClockCount).map gclk⟩)
    ++ ((List.range labDataLineCount).map fun i =>
      ⟨gin x y (labDataLineBase + i), [h4 x y i, v4 x y (i + 4)]⟩)
    ++ ((List.range labClearCount).map fun i =>
      ⟨gin x y (labClearBase + i), [gclk (2 + i), h4 x y (4 + i)]⟩)

/-- The multiplexers of the block inputs of a tile. -/
def inputMuxes (c : Chip) (x y : Nat) : List Mux :=
  match c.blockAt x y with
  | some .lab => labInputMuxes x y
  | some .gpio =>
    (List.range iosPerBlock).flatMap fun z =>
      [⟨gin x y (z * 2), [h4 x y z]⟩, ⟨gin x y (z * 2 + 1), [v4 x y (z + 4)]⟩]
  | some .clockMux => (List.range globalClockCount).map fun i => ⟨gin x y i, [h4 x y i]⟩
  | none => []

/-- The block outputs that drive track `t` of a tile, given the step by which the track of
a LAB output is shifted: none for horizontal tracks, one for vertical ones. -/
def trackOutputs (c : Chip) (x y shift t : Nat) : List Node :=
  match c.blockAt x y with
  | some .lab =>
    ((List.range (almsPerLab * almOutputCount)).filter fun k =>
      (k + shift) % trackCount = t).map (gout x y)
  | some .gpio => if t < iosPerBlock then [gout x y t] else []
  | some .clockMux | none => []

/-- The multiplexer of a horizontal track. -/
def horizontalMux (c : Chip) (x y t : Nat) : Mux :=
  ⟨h4 x y t,
    c.trackOutputs x y 0 t
      ++ (if 0 < x then [h4 (x - 1) y t] else [])
      ++ (if x + 1 < c.width then [h4 (x + 1) y t] else [])
      ++ [v4 x y t]⟩

/-- The multiplexer of a vertical track. -/
def verticalMux (c : Chip) (x y t : Nat) : Mux :=
  ⟨v4 x y t,
    c.trackOutputs x y 1 t
      ++ (if 0 < y then [v4 x (y - 1) t] else [])
      ++ (if y + 1 < c.height then [v4 x (y + 1) t] else [])
      ++ [h4 x y t]⟩

/-! ### The multiplexers of a chip -/

/-- Every routing multiplexer of a chip, in ascending order of the driven node. -/
def muxes (c : Chip) : List Mux :=
  (c.tiles.flatMap fun (x, y) => c.inputMuxes x y)
    ++ (c.tiles.flatMap fun (x, y) => (List.range trackCount).map (c.horizontalMux x y))
    ++ (c.tiles.flatMap fun (x, y) => (List.range trackCount).map (c.verticalMux x y))

/-- The nodes that can drive a node, if it has a multiplexer. -/
def sourcesOf? (c : Chip) (dst : Node) : Option (List Node) :=
  (c.muxes.find? (·.dst == dst)).map Mux.sources

/-- A one-line description of a chip. -/
def describe (c : Chip) : String :=
  let text := s!"part: \"{c.part}\", sx: {c.width}, sy: {c.height}, rmuxes: {c.muxes.length}"
  s!"SyntheticChip \x7b {text} \x7d"

end Chip

end Fabric
