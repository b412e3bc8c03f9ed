import Fabric.Name.Known

/-!
# Pins of an adaptive logic module

An adaptive logic module (ALM) has eight physical inputs and two halves, *top* and
*bottom*. Each half holds one LUT and two flip-flops, so a flip-flop is addressed by its
half and a place in it.

* In **split** mode each half is a LUT of its own, which reads `A`, `B` and three private
  pins, in this order of address bits: `A B C E0 F0` on top and `A B D E1 F1` below.
* In **fused** mode one LUT of six logical inputs spans both halves; inputs `E` and `F`
  use both copies of their pin.
* The flip-flops of a half can also be fed through the half's *E/F selector*, which reads
  `E` of its own half or `F` of the other.
-/

namespace Fabric

/-- A physical input of an ALM. -/
inductive AlmPin where
  | a
  | b
  | c
  | d
  | e0
  | e1
  | f0
  | f1
  deriving DecidableEq, Inhabited, Repr

namespace AlmPin

/-- The eight inputs, in physical order. -/
def all : List AlmPin := [.a, .b, .c, .d, .e0, .e1, .f0, .f1]

/-- The place of an input in physical order. -/
def index : AlmPin → Nat
  | .a => 0
  | .b => 1
  | .c => 2
  | .d => 3
  | .e0 => 4
  | .e1 => 5
  | .f0 => 6
  | .f1 => 7

/-- The name of the site pin at an input. -/
def ident : AlmPin → Ident
  | .a => Known.a
  | .b => Known.b
  | .c => Known.c
  | .d => Known.d
  | .e0 => Known.e0
  | .e1 => Known.e1
  | .f0 => Known.f0
  | .f1 => Known.f1

/-- The input with a given site pin name. -/
def ofIdent? (name : Ident) : Option AlmPin := all.find? (·.ident == name)

theorem mem_all (p : AlmPin) : p ∈ all := by
  cases p <;> simp [all]

@[simp] theorem ofIdent?_ident (p : AlmPin) : ofIdent? p.ident = some p := by
  cases p <;> rfl

end AlmPin

/-! ### Halves -/

/-- A half of an ALM. -/
inductive Half where
  | top
  | bottom
  deriving DecidableEq, Inhabited, Repr

namespace Half

/-- Both halves, top first. -/
def all : List Half := [.top, .bottom]

/-- The place of a half. -/
def index : Half → Nat
  | .top => 0
  | .bottom => 1

/-- The pins that the LUT of a half reads in split mode, in address-bit order. -/
def lutPins : Half → List AlmPin
  | .top => [.a, .b, .c, .e0, .f0]
  | .bottom => [.a, .b, .d, .e1, .f1]

/-- The order in which a half takes free pins: its private ones, then the shared ones. -/
def freeOrder : Half → List AlmPin
  | .top => [.c, .e0, .f0, .a, .b]
  | .bottom => [.d, .e1, .f1, .a, .b]

/-- The pins that the E/F selector of a half reads. -/
def efPins : Half → List AlmPin
  | .top => [.e0, .f1]
  | .bottom => [.e1, .f0]

end Half

/-- One value for each half. -/
structure Halves (α : Type) where
  top : α
  bottom : α
  deriving DecidableEq, Inhabited, Repr

namespace Halves

variable {α β : Type}

/-- The value of a half. -/
def get (v : Halves α) : Half → α
  | .top => v.top
  | .bottom => v.bottom

/-- The values, top first. -/
def toList (v : Halves α) : List α := [v.top, v.bottom]

/-- Applies a function to the value of each half. -/
def map (f : α → β) (v : Halves α) : Halves β := ⟨f v.top, f v.bottom⟩

/-- The values that a function gives to the halves. -/
def ofFn (f : Half → α) : Halves α := ⟨f .top, f .bottom⟩

@[simp] theorem get_map (f : α → β) (v : Halves α) (h : Half) : (v.map f).get h = f (v.get h) := by
  cases h <;> rfl

@[simp] theorem get_ofFn (f : Half → α) (h : Half) : (ofFn f).get h = f h := by
  cases h <;> rfl

end Halves

/-- Two values for each half, one for each flip-flop. -/
abbrev Flops (α : Type) := Halves (α × α)

namespace Flops

variable {α β : Type}

/-- The values of the four flip-flops, with the top half first. -/
def toList (v : Flops α) : List α := [v.top.1, v.top.2, v.bottom.1, v.bottom.2]

/-- The values of the four flip-flops, each with its half. -/
def withHalf (v : Flops α) : List (Half × α) :=
  [(.top, v.top.1), (.top, v.top.2), (.bottom, v.bottom.1), (.bottom, v.bottom.2)]

/-- Applies a function to the value of each flip-flop. -/
def mapFlops (f : α → β) (v : Flops α) : Flops β :=
  ⟨(f v.top.1, f v.top.2), (f v.bottom.1, f v.bottom.2)⟩

end Flops

/-! ### Logical inputs -/

/-- The names of the six logical LUT inputs, in truth-table bit order. -/
def lutInputNames : List Ident := [Known.a, Known.b, Known.c, Known.d, Known.e, Known.f]

/-- The physical pins of each logical input in fused mode, in truth-table bit order. -/
def fusedPins : List (List AlmPin) := [[.a], [.b], [.c], [.d], [.e0, .e1], [.f0, .f1]]

end Fabric
