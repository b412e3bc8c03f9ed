import Fabric.Name.Known

/-!
# Types of cells

The cell types that a device can hold. A *logic* cell occupies one half of an ALM and
computes a function of up to six inputs; I/O cells occupy I/O sites; every other cell goes
on a site of its own type.
-/

namespace Fabric.CellType

/-- The number of inputs of a logic cell type. -/
def logicInputs? (type : Ident) : Option Nat :=
  if type = Known.alut6 then some 6
  else if type = Known.alut5 then some 5
  else if type = Known.alut4 then some 4
  else if type = Known.alut3 then some 3
  else if type = Known.alut2 then some 2
  else if type = Known.notGate ∨ type = Known.bufGate then some 1
  else if type = Known.const then some 0
  else none

/-- Whether cells of this type occupy one half of an ALM. -/
def isLogic (type : Ident) : Bool := (logicInputs? type).isSome

/-- Whether cells of this type occupy an I/O site. -/
def isPad (type : Ident) : Bool :=
  type == Known.ioSite || type == Known.inputBuffer || type == Known.outputBuffer

/-- The type of site that a cell type is placed on. -/
def siteType (type : Ident) : Ident :=
  if isLogic type then Known.combSite
  else if isPad type then Known.ioSite
  else type

/-- Whether a cell of this type may be placed on a site of type `site`. -/
def fits (type site : Ident) : Bool :=
  if site = Known.combSite then isLogic type
  else if site = Known.ioSite then isPad type
  else site == type

/-- A LUT has at most six inputs. -/
theorem logicInputs?_le {type : Ident} {n : Nat} (h : logicInputs? type = some n) : n ≤ 6 := by
  grind [logicInputs?]

end Fabric.CellType
