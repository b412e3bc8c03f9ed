import Fabric.Handle
import Fabric.Pin.Style

/-!
# Control signals of flip-flops

A flip-flop has five control inputs: clock, clock enable, asynchronous clear, synchronous
clear and synchronous load. Within a LAB each of the five categories is served by a few
shared wires, three for clocks, three for enables, two for asynchronous clears and one each
for the others.

Two signals can use one shared wire when they have equal *slot keys*: net and polarity, but
for clocks the net alone, because a flip-flop can invert its clock in place.
-/

namespace Fabric

/-- A category of control signal. -/
inductive ControlKind where
  /-- Clock. -/
  | clk
  /-- Clock enable. -/
  | ena
  /-- Asynchronous clear. -/
  | aclr
  /-- Synchronous clear. -/
  | sclr
  /-- Synchronous load. -/
  | sload
  deriving DecidableEq, Inhabited, Repr

namespace ControlKind

/-- All categories, in the order in which slots are assigned. -/
def all : List ControlKind := [.clk, .ena, .aclr, .sclr, .sload]

/-- The categories for which every half of an ALM has a selector. The synchronous ones have
none: flip-flops use the shared wires directly. -/
def selected : List ControlKind := [.clk, .ena, .aclr]

/-- The word for a category. -/
def name : ControlKind → String
  | .clk => "CLK"
  | .ena => "ENA"
  | .aclr => "ACLR"
  | .sclr => "SCLR"
  | .sload => "SLOAD"

/-- The flip-flop pin that carries the signal. -/
def pin : ControlKind → Ident
  | .clk => Known.clk
  | .ena => Known.ena
  | .aclr => Known.aclr
  | .sclr => Known.sclr
  | .sload => Known.sload

/-- The number of shared wires of a LAB for a category. -/
def limit : ControlKind → Nat
  | .clk | .ena => 3
  | .aclr => 2
  | .sclr | .sload => 1

/-- Whether the shared wires have a dedicated input ahead of the general data lines. -/
def hasDedicatedInput : ControlKind → Bool
  | .clk | .aclr => true
  | _ => false

theorem mem_all (kind : ControlKind) : kind ∈ all := by
  cases kind <;> simp [all]

end ControlKind

/-- One value for each category. -/
structure ByKind (α : Type) where
  clk : α
  ena : α
  aclr : α
  sclr : α
  sload : α
  deriving DecidableEq, Inhabited, Repr

namespace ByKind

variable {α : Type}

/-- The same value for every category. -/
def const (a : α) : ByKind α := ⟨a, a, a, a, a⟩

/-- The value of a category. -/
def get (v : ByKind α) : ControlKind → α
  | .clk => v.clk
  | .ena => v.ena
  | .aclr => v.aclr
  | .sclr => v.sclr
  | .sload => v.sload

/-- Replaces the value of a category. -/
def set (v : ByKind α) (kind : ControlKind) (a : α) : ByKind α :=
  match kind with
  | .clk => { v with clk := a }
  | .ena => { v with ena := a }
  | .aclr => { v with aclr := a }
  | .sclr => { v with sclr := a }
  | .sload => { v with sload := a }

theorem get_set (v : ByKind α) (kind other : ControlKind) (a : α) :
    (v.set kind a).get other = if kind = other then a else v.get other := by
  cases kind <;> cases other <;> simp [get, set]

@[simp] theorem get_const (a : α) (kind : ControlKind) : (const a).get kind = a := by
  cases kind <;> rfl

end ByKind

/-- A control signal: a net, if the pin is connected, and its polarity. -/
structure ControlSignal where
  net : Option NetId := none
  inverted : Bool := false
  deriving DecidableEq, Inhabited, Repr

/-- The control signals of a flip-flop. -/
abbrev ControlSet := ByKind ControlSignal

/-- What a signal counts as when shared wires are handed out. Pins that invert in place
share one wire between both polarities. -/
def ControlKind.slotKey (kind : ControlKind) (signal : ControlSignal) : ControlSignal :=
  if (PinStyle.ofFlipFlopPin kind.pin).invert then { signal with inverted := false } else signal

end Fabric
