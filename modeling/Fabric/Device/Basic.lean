import Fabric.Chip.Mux
import Fabric.Config.Settings
import Fabric.Diagnostic.Sink
import Fabric.Lab
import Fabric.Name.Path
import Fabric.Netlist.Basic
import Fabric.Wire.Graph

/-!
# Device models

A device model ties everything together: the chip it stands for, its sites and wires, the
LABs, the netlist that is to be placed, and the records made on the way.

Operations that change a model are written in `Edit`, which may fail and which keeps the
state on failure: a failed operation can leave a part of its work behind. The operations of
which this is not so say that they change nothing when they fail.
-/

namespace Fabric

/-- The choice of a device and of options for its model. -/
structure Selection where
  /-- The part name, used when no grid is given. -/
  device : String := ""
  grid : Option (Nat × Nat) := none
  /-- Whether debug records are kept. -/
  debug : Bool := false
  /-- The attributes of the I/O ports of the design. -/
  io : IoTable := []
  deriving Inhabited, Repr

namespace Selection

/-- A named part. -/
def ofPart (device : String) : Selection := { device := device }

/-- A synthetic grid. -/
def ofGrid (width height : Nat) : Selection := { grid := some (width, height) }

/-- The choice that settings make. -/
def ofSettings (s : Settings) : Selection :=
  { device := s.part.getD "", grid := s.grid, debug := s.debug, io := s.io }

/-- The chip that is chosen. -/
def chip (s : Selection) : Except Error Chip :=
  match s.grid with
  | some (width, height) =>
    match Chip.ofGrid? width height with
    | some chip => .ok chip
    | none => .error (.invalidGrid width height)
  | none =>
    match Chip.ofPart? s.device with
    | some chip => .ok chip
    | none => .error (.unknownDevice s.device)

end Selection

/-- A device model. -/
structure Device where
  selection : Selection
  chip : Chip
  interner : Interner
  netlist : Netlist
  diagnostics : Sink
  wires : WireGraph
  /-- The wires made by the model, by column, row and name. -/
  created : Std.HashMap (Nat × Nat × Ident) Wire
  labs : Array Lab
  /-- The sites of each tile, row by row. -/
  sites : Array (Array Site)
  /-- Every site, in order of creation. -/
  bels : Array BelId
  /-- The I/O attributes, by port and attribute. -/
  ioAttributes : Table Ident (Table Ident AttrValue)
  deriving Inhabited

namespace Device

/-- A model of a chip without sites and wires. -/
def blank (selection : Selection) (chip : Chip) : Device where
  selection := selection
  chip := chip
  interner := Known.interner
  netlist := {}
  diagnostics := { verbose := selection.debug }
  wires := .empty
  created := ∅
  labs := #[]
  sites := Array.replicate (chip.width * chip.height) #[]
  bels := #[]
  ioAttributes := []

/-! ### Names -/

/-- The character between the components of a name. -/
def delimiter : Char := '.'

/-- The string of an identifier. -/
def nameOf (d : Device) (i : Ident) : String := d.interner.name i

/-- A hierarchical name as text. -/
def textOf (d : Device) (p : Path) : String := p.display d.interner delimiter

/-! ### Tiles, sites and ALMs -/

/-- The place of a tile in the table of sites. -/
def tileIndex? (d : Device) (x y : Nat) : Option Nat :=
  if d.chip.contains x y then some (y * d.chip.width + x) else none

/-- The sites of a tile. -/
def tile? (d : Device) (x y : Nat) : Option (Array Site) :=
  (d.tileIndex? x y).bind (d.sites[·]?)

/-- The data of a site. -/
def site? (d : Device) (bel : BelId) : Option Site :=
  (d.tile? bel.pos.x bel.pos.y).bind (·[bel.z.toNat]?)

/-- Changes the data of a site that exists. -/
def modifySite (d : Device) (bel : BelId) (f : Site → Site) : Device :=
  match d.tileIndex? bel.pos.x bel.pos.y with
  | none => d
  | some t => { d with sites := d.sites.modify t fun tile => tile.modify bel.z.toNat f }

/-- The cell placed on a site. -/
def cellAt (d : Device) (bel : BelId) : Option CellId := (d.site? bel).bind Site.cell

/-- An ALM of a LAB. -/
def alm? (d : Device) (lab alm : Nat) : Option Alm := (d.labs[lab]?).bind (·.alms[alm]?)

/-- The cells placed on the LUT sites of an ALM. -/
def lutCells (d : Device) (a : Alm) : Halves (Option CellId) := a.lutSites.map d.cellAt

/-- The cells placed on the flip-flop sites of an ALM. -/
def flopCells (d : Device) (a : Alm) : Flops (Option CellId) := a.ffSites.mapFlops d.cellAt

end Device

/-! ### Edits -/

/-- An operation that changes a device model and may fail. The state is kept on failure. -/
abbrev Edit := ExceptT Error (StateM Device)

namespace Edit

variable {α : Type}

/-- Runs an edit on a model. -/
def run (e : Edit α) (d : Device) : Except Error α × Device := ExceptT.run e d

/-- Fails because the caller broke a promise. -/
def misuse (why : Misuse) : Edit α := throw (.misuse why)

/-- A value that has to be there. -/
def require (value : Option α) (otherwise : Error) : Edit α :=
  match value with
  | some a => pure a
  | none => throw otherwise

/-- Changes the netlist by an operation that changes nothing when it fails. -/
def onNetlist (f : Netlist → Except Error Netlist) : Edit Unit := do
  match f (← get).netlist with
  | .ok netlist => modify fun d => { d with netlist := netlist }
  | .error e => throw e

/-- Makes a record. -/
def log (record : Diagnostic) : Edit Unit :=
  modify fun d => { d with diagnostics := d.diagnostics.emit record }

/-- The identifier of a string, put into use if it is not yet. -/
def intern (s : String) : Edit Ident :=
  modifyGet fun d =>
    let (i, t) := d.interner.intern s
    (i, { d with interner := t })

/-- Reads a hierarchical name, putting its components into use. -/
def parseName (s : String) : Edit Path :=
  modifyGet fun d =>
    let (p, t) := Path.parse d.interner s Device.delimiter
    (p, { d with interner := t })

end Edit

end Fabric
