import Fabric.Device.Derived
import Fabric.Device.Site

/-!
# Placement

A cell is placed by putting it on a free site. The site records the cell and the cell
records the site, and a cell that is placed elsewhere is moved, so the two records
always say the same.
-/

namespace Fabric

namespace Device

/-! ### What can be placed -/

/-- Whether a site exists and holds no cell. -/
def isFree (d : Device) (bel : BelId) : Bool := (d.site? bel).any (·.cell.isNone)

/-- Whether a cell of a type may be placed on a site. -/
def accepts (d : Device) (type : Ident) (bel : BelId) : Bool :=
  (d.site? bel).any fun site => CellType.fits type site.type

end Device

namespace Edit

/-! ### Placing and removing cells -/

/-- A site that has to exist. -/
def requireSite (bel : BelId) : Edit Site := do
  require ((← get).site? bel) (.belNotFound bel)

/-- Places a cell on a free site, taking it off the site that it was on, and derives its
summary. Changes nothing when it fails. -/
def placeCell (bel : BelId) (id : CellId) : Edit Unit := do
  let site ← requireSite bel
  if let some other := site.cell then throw (.fault (.siteOccupied bel other))
  let cell ← requireCell id
  if let some old := cell.site then
    modify (·.modifySite old fun s => { s with cell := none })
  modify (·.modifySite bel fun s => { s with cell := some id })
  modifyCell id fun c => { c with site := some bel }
  deriveCell id

/-- Takes the cell off a site, and returns it. Changes nothing when it fails. -/
def removeCell (bel : BelId) : Edit (Option CellId) := do
  let site ← requireSite bel
  match site.cell with
  | none => return none
  | some id =>
    modify (·.modifySite bel fun s => { s with cell := none })
    modify fun d => { d with netlist := d.netlist.modifyCell id fun c => { c with site := none } }
    return some id

end Edit

end Fabric
