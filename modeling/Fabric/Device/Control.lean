import Fabric.Device.Derived
import Fabric.Device.Wire

/-!
# Control sets of a LAB

The flip-flops placed in a LAB draw their control signals from its shared wires. A LAB is
legal when the different slot keys that they demand fit: then each key is bound to a shared
wire, in order of first demand, and every selector and shared wire is reserved for its
driver.

A shared wire that carries a global net is fed from its dedicated input, if it has one. Any
other takes the data line that already carries its net, or else the first free one; when all
lines carry other nets the wire is left without a reservation, with a warning.
-/

namespace Fabric

namespace Device

/-! ### Binding the slots -/

/-- The flip-flop cells placed in a LAB, with their ALM and half, in order. -/
def labFlipFlops (d : Device) (lab : Lab) : List (Alm × Half × FlipFlopInfo) :=
  lab.flipFlopSites.filterMap fun (alm, half, bel) =>
    (d.cellAt bel).map fun id => (alm, half, d.netlist.flipFlopInfo id)

/-- Binds one control signal, unless the pin is open. Fails with the category that
has no slot left. -/
def bindSignal (set : ControlSet) (slots : ControlSlots) (kind : ControlKind) :
    Except ControlKind ControlSlots :=
  let signal := set.get kind
  if signal.net.isNone then .ok slots
  else match slots.bind? kind (kind.slotKey signal) with
    | some (_, slots) => .ok slots
    | none => .error kind

/-- Binds the control signals of flip-flops, one flip-flop after the other. -/
def bindSets (sets : List ControlSet) : Except ControlKind ControlSlots :=
  sets.foldlM (fun slots set => ControlKind.all.foldlM (bindSignal set) slots) .free

/-- The slots of a LAB for the flip-flops placed in it, or the first category that has too
many signals. -/
def controlSlots (d : Device) (lab : Lab) : Except ControlKind ControlSlots :=
  bindSets ((d.labFlipFlops lab).map fun (_, _, info) => info.control)

/-- Whether the control signals of a LAB fit its shared wires. -/
def isLabLegal (d : Device) (lab : Nat) : Bool :=
  (d.labs[lab]?).all fun info => (d.controlSlots info).isOk

/-! ### Reservations -/

/-- A signal as it is called in messages. -/
def signalText (d : Device) (signal : ControlSignal) : String :=
  let name := ((signal.net.bind d.netlist.net?).map (d.nameOf ·.name)).getD ""
  if signal.inverted then s!"!{name}" else name

/-- A connected control signal of a placed flip-flop, in a category that has selectors. -/
structure SelectedSignal where
  /-- The ALM and the half of the flip-flop. -/
  alm : Alm
  half : Half
  kind : ControlKind
  signal : ControlSignal

/-- The connected clock, enable and asynchronous clear signals of the flip-flops placed in a
LAB, one flip-flop after the other. -/
def selectedSignals (d : Device) (info : Lab) : List SelectedSignal :=
  (d.labFlipFlops info).flatMap fun (alm, half, ff) =>
    (ControlKind.selected.filter fun kind => (ff.control.get kind).net.isSome).map fun kind =>
      ⟨alm, half, kind, ff.control.get kind⟩

/-- The route of the selector of a half for a signal: from the shared wire of the
slot that holds the key of the signal. Fails when no slot holds it, and when the slot
has no shared wire. -/
def selectorRoute (lab : Nat) (info : Lab) (slots : ControlSlots) (s : SelectedSignal) :
    Except Error (Option Pip) :=
  match slots.find? s.kind (s.kind.slotKey s.signal) with
  | none => .error (.fault (.lostSlot lab s.kind))
  | some slot =>
    match s.alm.selectors? s.kind with
    | none => .ok none
    | some selectors =>
      match (info.shared.get s.kind)[slot]? with
      | none => .error (.misuse .noSharedWire)
      | some shared => .ok (some ⟨shared, selectors.get s.half⟩)

/-- The routes of the selectors: each selector of a half with a flip-flop takes the shared
wire that the flip-flop's signal is bound to. Fails at the first signal without a slot. -/
def selectorRoutes (d : Device) (lab : Nat) (info : Lab) (slots : ControlSlots) :
    Except Error (List Pip) :=
  List.reduceOption <$> (d.selectedSignals info).mapM (selectorRoute lab info slots)

/-- The bound slots of a LAB that carry a net, by category and then by slot. -/
def boundSlots (slots : ControlSlots) : List (ControlKind × Nat × ControlSignal × NetId) :=
  ControlKind.all.flatMap fun kind =>
    (slots.get kind).zipIdx.filterMap fun (signal, slot) =>
      signal.net.map fun net => (kind, slot, signal, net)

/-- The data lines in use and the net that each of them carries. -/
abbrev DataLines := Table Wire NetId

/-- The line among `candidates` that carries a net, else the first that carries none. -/
def chooseLine (lines : DataLines) (candidates : List Wire) (net : NetId) : Option Wire :=
  (candidates.find? fun line => lines.get? line = some net).or
    (candidates.find? fun line => (lines.get? line).isNone)

/-- The driver of a shared wire that carries a net, and the data lines then in use. -/
def sharedDriver (d : Device) (lines : DataLines) (kind : ControlKind) (uphill : List Wire)
    (net : NetId) : Option Wire × DataLines :=
  let isGlobal := (d.netlist.net? net).any (·.isGlobal)
  if kind.hasDedicatedInput ∧ isGlobal then (uphill.head?, lines)
  else
    let candidates := if kind.hasDedicatedInput then uphill.drop 1 else uphill
    match chooseLine lines candidates net with
    | some line => (some line, lines.insert line net)
    | none => (none, lines)

end Device

namespace Edit

/-- Reports that a slot was given a signal, or that there was no data line for it. -/
def logSlot (severity : Severity) (lab : Nat) (message : String) : Edit Unit :=
  log { severity := severity, code := .controlSlot, message := message, subject := s!"LAB {lab}" }

/-- Chooses the drivers of the shared wires of bound slots, one slot after the other, and
reports them. -/
def sharedRoutes (lab : Nat) (info : Lab) :
    List (ControlKind × Nat × ControlSignal × NetId) → Device.DataLines → Edit (List Pip)
  | [], _ => return []
  | (kind, slot, signal, net) :: rest, lines => do
    let some shared := (info.shared.get kind)[slot]? | misuse .noSharedWire
    let d ← get
    let some wire := d.wires.get? shared | throw (.wireNotFound shared)
    let (driver, lines) := d.sharedDriver lines kind wire.uphill.toList net
    let text := s!"{kind.name}{slot} <- {d.signalText signal}"
    if driver.isNone then logSlot .warning lab s!"no free data line for {text}"
    if d.diagnostics.verbose then logSlot .debug lab text
    let routes ← sharedRoutes lab info rest lines
    return (driver.map fun src => (⟨src, shared⟩ : Pip)).toList ++ routes

/-- Binds each control signal of a LAB to a shared wire, and reserves every selector and
shared wire for its driver. Reservations made before are removed first. -/
def assignControlSets (lab : Nat) : Edit Unit := do
  let some info := (← get).labs[lab]? | misuse .noLab
  match (← get).controlSlots info with
  | .error kind => throw (.controlSetOverflow lab kind)
  | .ok slots =>
    info.controlWires.forM unreserve
    let selectorRoutes ← MonadExcept.ofExcept ((← get).selectorRoutes lab info slots)
    let sharedRoutes ← sharedRoutes lab info (Device.boundSlots slots) []
    (selectorRoutes ++ sharedRoutes).forM fun p => reserve p.src p.dst
    modify fun d => { d with labs := d.labs.modify lab fun l => { l with control := slots } }

end Edit

end Fabric
