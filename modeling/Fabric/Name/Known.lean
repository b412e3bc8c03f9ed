import Fabric.Name.Interner

/-!
# Well-known names

The vocabulary that every device model starts from. Its interner holds, in this order, the
empty string, the well-known names, the numerals below 1024 and the names of the chip's
node types. All of them therefore have fixed identifiers, and a numeral or a type name is
recognised by its place alone.
-/

namespace Fabric

namespace Known

/-- The well-known names, from place one on. -/
def names : List String :=
  ["A", "B", "C", "D", "E", "F", "E0", "E1", "F0", "F1",
   "Q", "COMBOUT",
   "CLK", "ENA", "ACLR", "SCLR", "SLOAD", "SDATA", "DATAIN",
   "PAD", "I", "OE", "O",
   "LUT", "PIN",
   "WIRE",
   "MISTRAL_COMB", "MISTRAL_FF", "MISTRAL_IO", "MISTRAL_CLKENA",
   "MISTRAL_ALUT6", "MISTRAL_ALUT5", "MISTRAL_ALUT4", "MISTRAL_ALUT3", "MISTRAL_ALUT2",
   "MISTRAL_NOT", "MISTRAL_BUF", "MISTRAL_CONST", "MISTRAL_IB", "MISTRAL_OB"]

/-! ### Inputs of an ALM and of its LUTs -/

@[match_pattern] def a : Ident := ⟨1⟩
@[match_pattern] def b : Ident := ⟨2⟩
@[match_pattern] def c : Ident := ⟨3⟩
@[match_pattern] def d : Ident := ⟨4⟩
@[match_pattern] def e : Ident := ⟨5⟩
@[match_pattern] def f : Ident := ⟨6⟩
@[match_pattern] def e0 : Ident := ⟨7⟩
@[match_pattern] def e1 : Ident := ⟨8⟩
@[match_pattern] def f0 : Ident := ⟨9⟩
@[match_pattern] def f1 : Ident := ⟨10⟩

/-! ### Outputs -/

@[match_pattern] def q : Ident := ⟨11⟩
@[match_pattern] def combOut : Ident := ⟨12⟩

/-! ### Pins of a flip-flop -/

@[match_pattern] def clk : Ident := ⟨13⟩
@[match_pattern] def ena : Ident := ⟨14⟩
@[match_pattern] def aclr : Ident := ⟨15⟩
@[match_pattern] def sclr : Ident := ⟨16⟩
@[match_pattern] def sload : Ident := ⟨17⟩
@[match_pattern] def sdata : Ident := ⟨18⟩
@[match_pattern] def dataIn : Ident := ⟨19⟩

/-! ### Pins of an I/O block -/

@[match_pattern] def pad : Ident := ⟨20⟩
@[match_pattern] def i : Ident := ⟨21⟩
@[match_pattern] def oe : Ident := ⟨22⟩
@[match_pattern] def o : Ident := ⟨23⟩

/-! ### Parameters, attributes and the first component of created wires -/

@[match_pattern] def lut : Ident := ⟨24⟩
@[match_pattern] def pin : Ident := ⟨25⟩
@[match_pattern] def wire : Ident := ⟨26⟩

/-! ### Types of sites -/

@[match_pattern] def combSite : Ident := ⟨27⟩
@[match_pattern] def flipFlop : Ident := ⟨28⟩
@[match_pattern] def ioSite : Ident := ⟨29⟩
@[match_pattern] def clockBuffer : Ident := ⟨30⟩

/-! ### Types of cells -/

@[match_pattern] def alut6 : Ident := ⟨31⟩
@[match_pattern] def alut5 : Ident := ⟨32⟩
@[match_pattern] def alut4 : Ident := ⟨33⟩
@[match_pattern] def alut3 : Ident := ⟨34⟩
@[match_pattern] def alut2 : Ident := ⟨35⟩
@[match_pattern] def notGate : Ident := ⟨36⟩
@[match_pattern] def bufGate : Ident := ⟨37⟩
@[match_pattern] def const : Ident := ⟨38⟩
@[match_pattern] def inputBuffer : Ident := ⟨39⟩
@[match_pattern] def outputBuffer : Ident := ⟨40⟩

/-! ### Numerals and node types -/

/-- The number of numerals that have a fixed identifier. -/
def numeralCount : Nat := 1024

/-- The place of the numeral `0`. -/
def numeralBase : Nat := 41

/-- The place of the first node type. -/
def nodeTypeBase : Nat := numeralBase + numeralCount

/-- The identifier of a numeral below `numeralCount`. -/
def numeral (n : Nat) : Ident := ⟨numeralBase + n⟩

/-- The number that an identifier is the numeral of. -/
def numeral? (i : Ident) : Option Nat :=
  if numeralBase ≤ i.index ∧ i.index < nodeTypeBase then some (i.index - numeralBase) else none

/-- The identifier of a chip node type. -/
def nodeType (t : Nat) : Ident := ⟨nodeTypeBase + t⟩

/-- The names of the chip's node types; their places are the types. -/
def nodeTypeNames : List String := ["NONE", "GIN", "GOUT", "H4", "V4", "GCLK"]

/-- The chip node type that an identifier names. -/
def nodeType? (i : Ident) : Option Nat :=
  if nodeTypeBase ≤ i.index ∧ i.index < nodeTypeBase + nodeTypeNames.length then
    some (i.index - nodeTypeBase)
  else none

/-- The numerals known are those below the count. -/
@[simp] theorem numeral?_eq_some_iff (i : Ident) (n : Nat) :
    numeral? i = some n ↔ n < numeralCount ∧ i = numeral n := by
  obtain ⟨i⟩ := i
  unfold numeral? numeral nodeTypeBase
  rw [Option.ite_none_right_eq_some, Option.some.injEq, Ident.mk.injEq]
  show (_ ≤ i ∧ i < _) ∧ i - _ = n ↔ _
  omega

/-- The node types known are those in the list. -/
@[simp] theorem nodeType?_eq_some_iff (i : Ident) (t : Nat) :
    nodeType? i = some t ↔ t < nodeTypeNames.length ∧ i = nodeType t := by
  obtain ⟨i⟩ := i
  unfold nodeType? nodeType
  rw [Option.ite_none_right_eq_some, Option.some.injEq, Ident.mk.injEq]
  show (_ ≤ i ∧ i < _) ∧ i - _ = t ↔ _
  omega

/-- Every string that has a fixed identifier, in order after the empty string. -/
def vocabulary : List String :=
  names ++ (List.range numeralCount).map toString ++ nodeTypeNames

/-- The interner that every device model starts from. -/
def interner : Interner := (Interner.empty.internAll vocabulary).2

end Known

end Fabric
