import Fabric.Chip.Block
import Fabric.Numeral

/-!
# Chips

A chip is a part name and the size of a grid of tiles; everything else follows from the
size. Its floorplan has I/O blocks in the first and last column, the clock multiplexer in
the middle of the bottom row, and LABs everywhere else.

A chip comes from a list of named parts, found without regard to case, or from a grid size.
-/

namespace Fabric

/-- A chip. -/
structure Chip where
  part : String
  /-- The number of columns. -/
  width : Nat
  /-- The number of rows. -/
  height : Nat
  deriving DecidableEq, Inhabited, Repr

namespace Chip

/-! ### Choosing a chip -/

/-- The named parts and their grid sizes. -/
def parts : List (String × Nat × Nat) :=
  [("5CEBA2F17C8", 34, 22),
   ("5CEBA4F23C7", 34, 30),
   ("5CSEBA6U23I7", 68, 45),
   ("5CSEMA5F31C6", 68, 45),
   ("5CEFA9F23I7", 90, 62)]

/-- The names of the named parts. -/
def partNames : List String := parts.map Prod.fst

/-- Whether two texts agree up to the case of ASCII letters. -/
def sameName (a b : String) : Bool :=
  a.toList.map Char.toLower == b.toList.map Char.toLower

/-- The named part with a given name. -/
def ofPart? (name : String) : Option Chip :=
  (parts.find? fun p => sameName p.1 name).map fun (part, width, height) => ⟨part, width, height⟩

/-- Whether a chip of this size exists: a grid has at least three columns and two rows, and
its coordinates fit seven bits. -/
def isGrid (width height : Nat) : Bool :=
  3 ≤ width && width ≤ 128 && 2 ≤ height && height ≤ 128

/-- The chip with a given grid, if there is one of this size. -/
def ofGrid? (width height : Nat) : Option Chip :=
  if isGrid width height then some ⟨s!"synthetic-{width}x{height}", width, height⟩ else none

/-! ### Floorplan -/

/-- Whether a tile is on the chip. -/
def contains (c : Chip) (x y : Nat) : Bool := x < c.width && y < c.height

/-- The block of a tile. -/
def blockAt (c : Chip) (x y : Nat) : Option BlockKind :=
  if ¬ c.contains x y then none
  else if x = 0 ∨ x = c.width - 1 then some .gpio
  else if y = 0 ∧ x = c.width / 2 then some .clockMux
  else some .lab

/-- The tiles of a chip, column by column from the bottom. -/
def tiles (c : Chip) : List (Nat × Nat) :=
  (List.range c.width).flatMap fun x => (List.range c.height).map fun y => (x, y)

/-! ### Package pins -/

/-- The number of I/O sites of an I/O block. -/
def iosPerBlock : Nat := 4

/-- The pad of a package pin. The pins `PIN_L0`, `PIN_L1`, … run up the first column and the
pins `PIN_R0`, `PIN_R1`, … up the last, four to a tile. -/
def packagePin? (c : Chip) (name : String) : Option Pad :=
  match name.toList with
  | 'P' :: 'I' :: 'N' :: '_' :: side :: digits =>
    let column := if side = 'L' then some 0 else if side = 'R' then some (c.width - 1) else none
    match column, Numeral.word32? digits with
    | some x, some n =>
      if n / iosPerBlock < c.height then
        some (.pack (.pack x (n / iosPerBlock)) (n % iosPerBlock))
      else none
    | _, _ => none
  | _ => none

end Chip

end Fabric
