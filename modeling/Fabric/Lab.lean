import Fabric.Alm.Pin
import Fabric.Control.Slots
import Fabric.Handle
import Fabric.Table

/-!
# Sites and LABs

A *site* is a place for one cell. A *LAB* is a tile of ten ALMs whose flip-flops share a few
control wires. Each ALM has two LUT sites and four flip-flop sites; each half selects its
clock, enable and asynchronous clear among the shared wires of the LAB, and has an E/F
selector that can feed its flip-flops from outside the ALM.
-/

namespace Fabric

/-! ### Sites -/

/-- A pin of a site: its wire and direction. -/
structure SitePin where
  wire : Wire
  dir : PortDir
  deriving DecidableEq, Inhabited, Repr

/-- The place of a logic site in the list of LABs. -/
structure LabPlace where
  lab : Nat
  alm : Nat
  /-- Which LUT or flip-flop of the ALM this is. -/
  index : Nat
  deriving DecidableEq, Inhabited, Repr

/-- A place for one cell. -/
structure Site where
  /-- The name of the site within its tile. -/
  name : Ident
  type : Ident
  /-- Which of the like parts of its block the site is. -/
  blockIndex : Int := 0
  /-- The pins, in order of creation. -/
  pins : Table Ident SitePin := []
  /-- Where the site is among the LABs, if it is a logic site. -/
  place : Option LabPlace := none
  /-- The cell placed here. -/
  cell : Option CellId := none
  deriving Inhabited, Repr

/-- The group of sites among which a cell can be moved: those of one type. -/
def Site.bucket (s : Site) : Ident := s.type

/-! ### LABs -/

/-- The wires and sites of one ALM. -/
structure Alm where
  /-- The LUT outputs. -/
  combOut : Halves Wire
  clkSelector : Halves Wire
  enaSelector : Halves Wire
  aclrSelector : Halves Wire
  /-- The selectors that feed flip-flops from an `E` or `F` pin. -/
  efSelector : Halves Wire
  /-- The data inputs of the flip-flops. -/
  ffIn : Flops Wire
  /-- The outputs of the flip-flops. -/
  ffOut : Flops Wire
  lutSites : Halves BelId
  ffSites : Flops BelId
  /-- Whether one LUT of six inputs spans both halves. -/
  fused : Bool := false
  deriving Inhabited, Repr

/-- The selectors of a control category, if its halves have any. -/
def Alm.selectors? (a : Alm) : ControlKind → Option (Halves Wire)
  | .clk => some a.clkSelector
  | .ena => some a.enaSelector
  | .aclr => some a.aclrSelector
  | .sclr | .sload => none

/-- One LAB. -/
structure Lab where
  pos : Pos
  alms : Array Alm
  /-- The shared control wires, in slot order. -/
  shared : ByKind (List Wire)
  /-- The signals bound to the shared wires by the last assignment. -/
  control : ControlSlots := .free
  deriving Inhabited, Repr

namespace Lab

/-- Every shared control wire, by category and then by slot. -/
def sharedWires (l : Lab) : List Wire := ControlKind.all.flatMap l.shared.get

/-- Every clock, enable and clear selector, ALM by ALM. -/
def selectorWires (l : Lab) : List Wire :=
  l.alms.toList.flatMap fun a =>
    a.clkSelector.toList ++ a.enaSelector.toList ++ a.aclrSelector.toList

/-- Every wire whose reservation belongs to the control signals of the LAB. -/
def controlWires (l : Lab) : List Wire := l.sharedWires ++ l.selectorWires

/-- Every flip-flop site with its ALM and half, in order. -/
def flipFlopSites (l : Lab) : List (Alm × Half × BelId) :=
  l.alms.toList.flatMap fun a => a.ffSites.withHalf.map fun (half, bel) => (a, half, bel)

end Lab

end Fabric
