import Fabric.Name.Interner
import Fabric.Handle
import Std.Data.HashMap

/-!
# The wire graph

Every routing wire of a device, in order of creation, with its neighbours and the site pins
attached to it. A pip is not stored: the pip from `u` to `w` is there when `u` is among the
wires *uphill* of `w`, and then `w` is among those *downhill* of `u`.

The low nine bits of a wire's flags hold its *reservation*: one bit says that the wire may
be driven by one uphill neighbour only, and eight bits hold the place of that neighbour.

All pips are enumerated by a *walk*, which goes through the wires in order and yields the pips
that drive each of them, one pip at a step.

## Main results

* `PipWalk.next_eq` — a step of a walk yields the first pip that is left;
* `pips_eq` — what the walk over a graph yields;
* `get?_ensure`, `get?_modify` — the effect of the two primitive updates on a lookup;
* `mem_order` (a field) — the wires listed are exactly the wires found.
-/

namespace Fabric

/-- A pin of a site, as attached to a wire. -/
structure BelPin where
  bel : BelId
  pin : Ident
  deriving DecidableEq, Inhabited, Repr

/-- The neighbours and other data of one wire. -/
structure WireInfo where
  /-- The name of a wire made by the device model; empty for a wire of the chip, whose name
  follows from its node. -/
  name : Ident := .empty
  /-- The wires that this wire drives. -/
  downhill : Array Wire := #[]
  /-- The wires that drive this wire. -/
  uphill : Array Wire := #[]
  /-- The site pins on this wire. -/
  belPins : Array BelPin := #[]
  flags : UInt64 := 0
  deriving DecidableEq, Inhabited, Repr

namespace WireInfo

/-- The flag that says that a wire is reserved for one driver. -/
def reservedFlag : UInt64 := 0x100

/-- The flags that hold the place of the reserved driver. -/
def reservedIndexMask : UInt64 := 0xff

/-- The flags of a wire once its reservation is removed. -/
def unreservedFlags (flags : UInt64) : UInt64 := flags &&& ~~~(reservedFlag ||| reservedIndexMask)

/-- The flags of a wire once it is reserved for its uphill neighbour at place `i`. -/
def reservedFlags (flags : UInt64) (i : Nat) : UInt64 :=
  unreservedFlags flags ||| reservedFlag ||| i.toUInt64

/-- The only wire that may drive this one, if it is reserved. -/
def reservedDriver (info : WireInfo) : Option Wire :=
  if info.flags &&& reservedFlag = 0 then none
  else info.uphill[(info.flags &&& reservedIndexMask).toNat]?

/-- The place of a driver that a reservation can hold: its first place uphill, if
that fits the flags. -/
def reservableIndex? (info : WireInfo) (src : Wire) : Option Nat :=
  (info.uphill.idxOf? src).filter (· ≤ reservedIndexMask.toNat)

/-- The pips that drive a wire with this data. -/
def uphillPips (info : WireInfo) (wire : Wire) : List Pip :=
  info.uphill.toList.map fun src => ⟨src, wire⟩

/-- The pips that a wire with this data drives. -/
def downhillPips (info : WireInfo) (wire : Wire) : List Pip :=
  info.downhill.toList.map fun dst => ⟨wire, dst⟩

end WireInfo

/-! ### Walks over pips -/

/-- A walk over the pips of a graph, on its way. -/
structure PipWalk where
  /-- The wires that were not reached yet. -/
  wires : List (Wire × WireInfo)
  /-- The wire that was reached last, with those of its drivers that are still to come. -/
  current : Option (Wire × List Wire) := none

namespace PipWalk

/-- The next pip, from the current wire or else from the first wire on that has a driver. -/
def nextFrom : Option (Wire × List Wire) → List (Wire × WireInfo) → Option Pip × PipWalk
  | some (dst, src :: rest), wires => (some ⟨src, dst⟩, ⟨wires, some (dst, rest)⟩)
  | current, [] => (none, ⟨[], current⟩)
  | _, (dst, info) :: wires => nextFrom (some (dst, info.uphill.toList)) wires

/-- One step of a walk: the next pip, if there is one, and the walk from there. -/
def next (walk : PipWalk) : Option Pip × PipWalk := nextFrom walk.current walk.wires

/-- The pips of the current wire that are still to come. -/
def leftAt : Option (Wire × List Wire) → List Pip
  | none => []
  | some (dst, sources) => sources.map fun src => ⟨src, dst⟩

/-- The pips that are still to come. -/
def left (walk : PipWalk) : List Pip :=
  leftAt walk.current ++ walk.wires.flatMap fun (dst, info) => info.uphillPips dst

/-- The next pip is the first one left, and the others stay. -/
theorem nextFrom_eq (current : Option (Wire × List Wire)) (wires : List (Wire × WireInfo)) :
    (nextFrom current wires).1 = (left ⟨wires, current⟩).head? ∧
      (nextFrom current wires).2.left = (left ⟨wires, current⟩).tail := by
  induction wires generalizing current with
  | nil =>
    match current with
    | none => exact ⟨rfl, rfl⟩
    | some (_, []) => exact ⟨rfl, rfl⟩
    | some (_, _ :: _) => exact ⟨rfl, rfl⟩
  | cons wire wires ih =>
    match current with
    | none => exact ih _
    | some (_, []) => exact ih _
    | some (_, _ :: _) => exact ⟨rfl, rfl⟩

/-- A step of a walk yields the first pip that is left, and leaves the others. -/
theorem next_eq (walk : PipWalk) :
    walk.next.1 = walk.left.head? ∧ walk.next.2.left = walk.left.tail :=
  nextFrom_eq walk.current walk.wires

/-- A pip that the walk yields was the first one left. -/
theorem left_of_next_some {walk rest : PipWalk} {p : Pip} (h : walk.next = (some p, rest)) :
    walk.left = p :: rest.left := by
  obtain ⟨hpip, hleft⟩ := walk.next_eq
  rw [h] at hpip hleft
  obtain ⟨tail, hcons⟩ := List.head?_eq_some_iff.1 hpip.symm
  rw [hleft, hcons, List.tail_cons]

/-- A walk that yields nothing had nothing left. -/
theorem left_of_next_none {walk rest : PipWalk} (h : walk.next = (none, rest)) :
    walk.left = [] := by
  have hpip := walk.next_eq.1
  rw [h] at hpip
  exact List.head?_eq_none_iff.1 hpip.symm

/-- Goes on to the end of a walk, and collects the pips. -/
def collect (walk : PipWalk) (found : Array Pip) : Array Pip :=
  match h : walk.next with
  | (none, _) => found
  | (some p, rest) =>
    have : rest.left.length < walk.left.length := by
      rw [left_of_next_some h]
      exact Nat.lt_succ_self _
    collect rest (found.push p)
termination_by walk.left.length

/-- Collecting the rest of a walk lists what is left of it. -/
theorem toList_collect (walk : PipWalk) (found : Array Pip) :
    (walk.collect found).toList = found.toList ++ walk.left := by
  fun_induction collect walk found with
  | case1 walk found rest h => rw [left_of_next_none h, List.append_nil]
  | case2 walk found p rest h _ ih =>
    rw [ih, left_of_next_some h, Array.toList_push, List.append_assoc, List.singleton_append]

end PipWalk

/-- The wires of a device, in order of creation. -/
structure WireGraph where
  order : Array Wire
  info : Std.HashMap Wire WireInfo
  /-- No wire is listed twice. -/
  order_nodup : order.toList.Nodup
  /-- The wires listed are those that have data. -/
  mem_order : ∀ w, w ∈ order ↔ w ∈ info

namespace WireGraph

/-- The graph without wires. -/
def empty : WireGraph := ⟨#[], ∅, by simp, by simp⟩

instance : Inhabited WireGraph := ⟨empty⟩

/-! ### Lookups -/

/-- The number of wires. -/
def size (g : WireGraph) : Nat := g.order.size

/-- Whether a wire exists. -/
def contains (g : WireGraph) (w : Wire) : Bool := g.info.contains w

/-- The data of a wire. -/
def get? (g : WireGraph) (w : Wire) : Option WireInfo := g.info[w]?

/-- The wires, in order of creation. -/
def wires (g : WireGraph) : List Wire := g.order.toList

/-- Whether a pip from `src` to `dst` exists. -/
def connected (g : WireGraph) (src dst : Wire) : Bool :=
  (g.get? dst).any fun info => info.uphill.contains src

/-- The wires with their data, in order of creation. -/
def entries (g : WireGraph) : List (Wire × WireInfo) :=
  g.wires.filterMap fun w => (g.get? w).map fun info => (w, info)

/-- A walk over every pip, before its first step. -/
def walk (g : WireGraph) : PipWalk := { wires := g.entries }

/-- Every pip: for each wire in order, the pips that drive it. -/
def pips (g : WireGraph) : List Pip := (g.walk.collect #[]).toList

/-- The number of pips. -/
def pipCount (g : WireGraph) : Nat :=
  (g.wires.map fun w => ((g.get? w).map (·.uphill.size)).getD 0).foldr (· + ·) 0

/-- The only wire that may drive a wire, if that is reserved. -/
def reservedDriver? (g : WireGraph) (w : Wire) : Option Wire :=
  (g.get? w).bind WireInfo.reservedDriver

/-- Whether a pip may be used: its end exists and is not reserved for another driver. -/
def available (g : WireGraph) (p : Pip) : Bool :=
  match g.get? p.dst with
  | none => false
  | some info => info.reservedDriver.all (· == p.src)

/-! ### Updates -/

/-- Creates a wire without neighbours, unless it exists. -/
def ensure (g : WireGraph) (w : Wire) : WireGraph :=
  if h : w ∈ g.info then g
  else
    { order := g.order.push w
      info := g.info.insert w {}
      order_nodup := by
        have : w ∉ g.order := fun hw => h ((g.mem_order w).1 hw)
        rw [Array.toList_push, List.nodup_append]
        refine ⟨g.order_nodup, by simp, ?_⟩
        intro a ha b hb hab
        simp only [List.mem_singleton] at hb
        exact this (Array.mem_toList_iff.1 (hb ▸ hab ▸ ha))
      mem_order := fun u => by
        simp only [Array.mem_push, g.mem_order, Std.HashMap.mem_insert, beq_iff_eq]
        exact ⟨fun hu => hu.symm.imp_left Eq.symm, fun hu => hu.symm.imp_right Eq.symm⟩ }

/-- Changes the data of a wire that exists. -/
def modify (g : WireGraph) (w : Wire) (f : WireInfo → WireInfo) : WireGraph :=
  { g with
    info := g.info.modify w f
    mem_order := fun u => by rw [g.mem_order, Std.HashMap.mem_modify] }

/-- Changes the data of a wire, creating it first if it does not exist. -/
def update (g : WireGraph) (w : Wire) (f : WireInfo → WireInfo) : WireGraph :=
  (g.ensure w).modify w f

/-- Adds a pip, creating its wires if they do not exist. -/
def addPip (g : WireGraph) (src dst : Wire) : WireGraph :=
  (g.update src fun info => { info with downhill := info.downhill.push dst }).update dst
    fun info => { info with uphill := info.uphill.push src }

/-- Adds the pips of a multiplexer: one from each source, in order. -/
def addPips (g : WireGraph) (sources : List Wire) (dst : Wire) : WireGraph :=
  sources.foldl (fun g src => g.addPip src dst) g

/-- Attaches a site pin to a wire, creating the wire if it does not exist. -/
def attach (g : WireGraph) (w : Wire) (pin : BelPin) : WireGraph :=
  g.update w fun info => { info with belPins := info.belPins.push pin }

/-- Creates a wire with a name and flags. -/
def create (g : WireGraph) (w : Wire) (name : Ident) (flags : UInt64) : WireGraph :=
  g.update w fun info => { info with name := name, flags := flags }

/-- Why a reservation is refused. -/
inductive ReserveError where
  /-- The driven wire does not exist. -/
  | noWire
  /-- The driver is not among the first 256 uphill neighbours. -/
  | noPip
  deriving DecidableEq, Repr

/-- Reserves a wire for one of its drivers. -/
def reserve (g : WireGraph) (src dst : Wire) : Except ReserveError WireGraph :=
  match g.get? dst with
  | none => .error .noWire
  | some info =>
    match info.reservableIndex? src with
    | none => .error .noPip
    | some i =>
      .ok (g.modify dst fun info => { info with flags := WireInfo.reservedFlags info.flags i })

/-- Removes the reservation of a wire, if the wire exists. -/
def unreserve (g : WireGraph) (w : Wire) : WireGraph :=
  g.modify w fun info => { info with flags := WireInfo.unreservedFlags info.flags }

/-! ### All pips -/

/-- A new walk has all pips of the graph left. -/
theorem left_walk (g : WireGraph) : g.walk.left = g.pips := by
  rw [pips, PipWalk.toList_collect]
  rfl

/-- The pips are those that drive the wires, wire by wire. -/
theorem pips_eq (g : WireGraph) :
    g.pips = g.wires.flatMap fun w => ((g.get? w).map (·.uphillPips w)).getD [] := by
  rw [← left_walk, walk, PipWalk.left, PipWalk.leftAt, List.nil_append, entries]
  induction g.wires with
  | nil => rfl
  | cons w rest ih =>
    rw [List.filterMap_cons, List.flatMap_cons, ← ih]
    cases g.get? w <;> rfl

/-! ### Lookups after updates -/

/-- Making sure of a wire gives it an empty record, unless it has one. -/
theorem get?_ensure (g : WireGraph) (w u : Wire) :
    (g.ensure w).get? u = if w = u ∧ ¬ g.contains w then some {} else g.get? u := by
  unfold ensure
  split
  · rename_i h
    simp [contains, h]
  · rename_i h
    have hc : g.contains w = false := by
      simpa [contains] using h
    simp [get?, Std.HashMap.getElem?_insert, hc]

/-- A modification reaches the record of its wire only. -/
theorem get?_modify (g : WireGraph) (w u : Wire) (f : WireInfo → WireInfo) :
    (g.modify w f).get? u = if w = u then (g.get? w).map f else g.get? u := by
  simp only [modify, get?, Std.HashMap.getElem?_modify, beq_iff_eq]

theorem contains_eq_isSome (g : WireGraph) (w : Wire) : g.contains w = (g.get? w).isSome := by
  simp [contains, get?]

end WireGraph

end Fabric
