import Fabric.Device.Basic

/-!
# Wires and pips of a device

Wires have hierarchical names. A wire made by the model is `WIRE.x.y.name`; a wire of the
chip is `TYPE.x.y.z` after its routing node. A pip is named by its source followed by its
destination, eight components in all.

A new wire of the model gets the first free synthetic node of its tile: indices first, then
the next type, so a tile has room for 131072 of them.
-/

namespace Fabric

namespace Device

/-! ### Names of wires -/

/-- The wire with a given name. -/
def wireNamed? (d : Device) : Path → Option Wire
  | [type, x, y, last] =>
    let made := if type = Known.wire then
        (Known.numeral? x).bind fun x => (Known.numeral? y).bind fun y => d.created[(x, y, last)]?
      else none
    made.or do
      let kind ← Known.nodeType? type
      let x ← Known.numeral? x
      let y ← Known.numeral? y
      let z ← Known.numeral? last
      if d.chip.contains x y then
        let wire := Node.pack kind x y z
        if d.wires.contains wire then some wire else none
      else none
  | _ => none

/-- The name of a wire. -/
def wireName (d : Device) (w : Wire) : Except Error Path :=
  match d.wires.get? w with
  | none => .error (.wireNotFound w)
  | some info =>
    if ¬ info.name.isEmpty then
      .ok [Known.wire, Known.numeral w.x, Known.numeral w.y, info.name]
    else if w.kind < Known.nodeTypeNames.length then
      .ok [Known.nodeType w.kind, Known.numeral w.x, Known.numeral w.y, Known.numeral w.z]
    else .error (.wireNotFound w)

/-- The name of a wire as text, or its node if it has no name. -/
def wireText (d : Device) (w : Wire) : String :=
  match d.wireName w with
  | .ok name => d.textOf name
  | .error _ => w.label

/-- The data of a wire. -/
def wireInfo (d : Device) (w : Wire) : Except Error WireInfo :=
  match d.wires.get? w with
  | none => .error (.wireNotFound w)
  | some info => .ok info

/-! ### Pips -/

/-- The pip with a given name. -/
def pipNamed? (d : Device) (name : Path) : Option Pip :=
  if name.length = 8 then do
    let src ← d.wireNamed? (name.take 4)
    let dst ← d.wireNamed? (name.drop 4)
    if d.wires.connected src dst then some ⟨src, dst⟩ else none
  else none

/-- The name of a pip. -/
def pipName (d : Device) (p : Pip) : Except Error Path := do
  return (← d.wireName p.src) ++ (← d.wireName p.dst)

/-- The pips that drive a wire. -/
def pipsUphill (d : Device) (w : Wire) : Except Error (List Pip) := do
  return (← d.wireInfo w).uphillPips w

/-- The pips that a wire drives. -/
def pipsDownhill (d : Device) (w : Wire) : Except Error (List Pip) := do
  return (← d.wireInfo w).downhillPips w

/-! ### New wires -/

/-- The number of synthetic nodes of a tile. -/
def syntheticCount : Nat := (256 - Node.syntheticBase) * Node.indexCount

/-- The synthetic node number `n` of a tile. -/
def syntheticNode (x y n : Nat) : Node :=
  .pack (Node.syntheticBase + n / Node.indexCount) x y n

/-- The first synthetic node of a tile from number `n` on that is no wire yet, among the
next `fuel` ones. -/
def freeNodeFrom? (g : WireGraph) (x y : Nat) : (fuel n : Nat) → Option Node
  | 0, _ => none
  | fuel + 1, n =>
    let node := syntheticNode x y n
    if g.contains node then freeNodeFrom? g x y fuel (n + 1) else some node

/-- The first synthetic node of a tile that is no wire yet. -/
def freeNode? (g : WireGraph) (x y : Nat) : Option Node := freeNodeFrom? g x y syntheticCount 0

/-- Puts a wire under its name. -/
def insertWire (d : Device) (x y : Nat) (name : Ident) (flags : UInt64) (w : Wire) : Device :=
  { d with
    wires := d.wires.create w name flags
    created := d.created.insert (x, y, name) w }

end Device

namespace Edit

/-- Makes a wire of the given name in a tile, or finds the one made before. -/
def addWire (x y : Nat) (name : Ident) (flags : UInt64) : Edit Wire := do
  if Known.numeralCount ≤ x ∨ Known.numeralCount ≤ y then misuse .noNumeral
  match (← get).created[(x, y, name)]? with
  | some wire => return wire
  | none =>
    let wire ← require (Device.freeNode? (← get).wires x y) (.misuse .noNode)
    modify (·.insertWire x y name flags wire)
    return wire

/-- Adds a pip, creating its wires if they do not exist. -/
def addPip (src dst : Wire) : Edit Unit :=
  modify fun d => { d with wires := d.wires.addPip src dst }

/-! ### Reservations -/

/-- Reserves a wire for one of its drivers. Changes nothing when it fails. -/
def reserve (src dst : Wire) : Edit Unit := do
  match (← get).wires.reserve src dst with
  | .error .noWire => throw (.wireNotFound dst)
  | .error .noPip => throw (.pipNotFound src dst)
  | .ok wires =>
    modify fun d => { d with wires := wires }
    let d ← get
    if d.diagnostics.verbose then
      match d.wireName dst, d.wireName src with
      | .ok dstName, .ok srcName =>
        let dstText := d.textOf dstName
        log {
          severity := .debug
          code := .reservation
          message := s!"reserved {d.textOf srcName} -> {dstText}"
          subject := some dstText }
      | _, _ => pure ()

/-- Removes the reservation of a wire. Changes nothing when it fails. -/
def unreserve (w : Wire) : Edit Unit := do
  if (← get).wires.contains w then modify fun d => { d with wires := d.wires.unreserve w }
  else throw (.wireNotFound w)

end Edit

end Fabric
