import Fabric.Device.Wire

/-!
# Sites of a device

A site is named by its tile and its name within the tile, as in `3.4.ALM0_FF2`. It can also
be found by its location, or by the part of the chip's block that it stands for.
-/

namespace Fabric

namespace Device

/-! ### Finding sites -/

/-- The first site of a tile that satisfies a test. -/
def findInTile? (d : Device) (x y : Nat) (test : Site → Bool) : Option BelId := do
  let tile ← d.tile? x y
  let z ← tile.findIdx? test
  return ⟨.pack x y, z.toUInt16⟩

/-- The site with a given name. -/
def belNamed? (d : Device) : Path → Option BelId
  | [x, y, name] => do
    let x ← Known.numeral? x
    let y ← Known.numeral? y
    d.findInTile? x y (·.name == name)
  | _ => none

/-- The data of a site. -/
def siteInfo (d : Device) (bel : BelId) : Except Error Site :=
  match d.site? bel with
  | some site => .ok site
  | none => .error (.belNotFound bel)

/-- The name of a site. -/
def belName (d : Device) (bel : BelId) : Except Error Path := do
  let site ← d.siteInfo bel
  return [Known.numeral bel.pos.x, Known.numeral bel.pos.y, site.name]

/-- The location that a site handle spells. -/
def locationOf (bel : BelId) : Loc := ⟨bel.pos.x, bel.pos.y, bel.z.toNat⟩

/-- The site at a location, if that is inside the grid and its tile has so many sites. -/
def belAt? (d : Device) (loc : Loc) : Option BelId :=
  match loc.x, loc.y, loc.z with
  | .ofNat x, .ofNat y, .ofNat z =>
    match d.tile? x y with
    | some tile => if z < tile.size then some ⟨.pack x y, z.toUInt16⟩ else none
    | none => none
  | _, _, _ => none

/-- The sites of a tile, in order. -/
def belsIn? (d : Device) (x y : Nat) : Option (List BelId) :=
  (d.tile? x y).map fun tile => (List.range tile.size).map fun z => ⟨.pack x y, z.toUInt16⟩

/-- The site of a type that stands for a part of the block of a tile. -/
def belOfBlock? (d : Device) (x y : Nat) (type : Ident) (blockIndex : Int) : Option BelId :=
  d.findInTile? x y fun s => s.blockIndex == blockIndex && s.type == type

/-- Fails unless a tile is on the chip. -/
def requireTile (d : Device) (x y : Nat) : Except Error Unit :=
  if d.chip.contains x y then .ok () else .error (.misuse .noTile)

/-! ### Pins -/

/-- A pin of a site. -/
def belPin? (d : Device) (bel : BelId) (pin : Ident) : Option SitePin :=
  (d.site? bel).bind (·.pins.get? pin)

/-! ### Package pins -/

/-- The I/O site behind a pad. -/
def belOfPad? (d : Device) (pad : Pad) : Option BelId :=
  d.belOfBlock? pad.pos.x pad.pos.y Known.ioSite pad.blockIndex

/-- The I/O site behind a package pin. -/
def belOfPin? (d : Device) (name : String) : Option BelId :=
  (d.chip.packagePin? name).bind d.belOfPad?

/-- The I/O site that a port of the design is constrained to by its `PIN` attribute. -/
def constrainedBel? (d : Device) (port : Ident) : Option BelId := do
  match ← (← d.ioAttributes.get? port).get? Known.pin with
  | .text pin => d.belOfPin? pin
  | _ => none

end Device

namespace Edit

/-- Adds a site at the end of a tile. -/
def addBel (x y : Nat) (name type : Ident) : Edit BelId := do
  match (← get).tile? x y, (← get).tileIndex? x y with
  | some tile, some t =>
    let bel : BelId := ⟨.pack x y, tile.size.toUInt16⟩
    modify fun d => { d with
      sites := d.sites.modify t (·.push { name := name, type := type })
      bels := d.bels.push bel }
    return bel
  | _, _ => misuse .noTile

/-- Changes the data of a site that has to exist. -/
def modifySite (bel : BelId) (f : Site → Site) : Edit Unit := do
  match (← get).site? bel with
  | some _ => modify (·.modifySite bel f)
  | none => misuse .noSite

/-- Gives a site a pin and attaches it to a wire, creating the wire if it does not exist. -/
def addBelPin (bel : BelId) (pin : Ident) (dir : PortDir) (wire : Wire) : Edit Unit := do
  match (← get).site? bel with
  | none => misuse .noSite
  | some site =>
    if site.pins.contains pin then misuse .duplicatePin
    modify fun d => d.modifySite bel fun s => { s with pins := s.pins.insert pin ⟨wire, dir⟩ }
    modify fun d => { d with wires := d.wires.attach wire ⟨bel, pin⟩ }

end Edit

end Fabric
