import Fabric.Json.Codec
import Fabric.Name.Path
import Fabric.Wire.Graph

/-!
# Serial form of handles

A packed handle is written as its word, an identifier as a number of 32 bits, and a
hierarchical name as the list of its identifiers. A handle with parts is a record.
-/

namespace Fabric

open Json (field? ofFields word?)

/-! ### Numbers -/

instance : ToJson Pos := ⟨fun p => toJson p.raw⟩

instance : FromJson Pos := ⟨fun j => (ofJson? j).map Pos.mk, none⟩

instance : ToJson Node := ⟨fun n => toJson n.raw⟩

instance : FromJson Node := ⟨fun j => (ofJson? j).map Node.mk, none⟩

instance : ToJson Ident := ⟨fun i => toJson i.index⟩

instance : FromJson Ident := ⟨fun j => (j.word? 32).map Ident.mk, none⟩

/-! ### Records -/

instance : ToJson BelId := ⟨fun b => ofFields [("pos", toJson b.pos), ("z", toJson b.z)]⟩

instance : FromJson BelId where
  ofJson? j := do
    let [pos, z] ← j.record? ["pos", "z"] | none
    return ⟨← field? pos, ← field? z⟩

instance : ToJson Pip := ⟨fun p => ofFields [("src", toJson p.src), ("dst", toJson p.dst)]⟩

instance : FromJson Pip where
  ofJson? j := do
    let [src, dst] ← j.record? ["src", "dst"] | none
    return ⟨← field? src, ← field? dst⟩

instance : ToJson Loc :=
  ⟨fun l => ofFields [("x", toJson l.x), ("y", toJson l.y), ("z", toJson l.z)]⟩

/-- A coordinate has to fit a signed word of 32 bits. -/
def Loc.part? (j : Option Json) : Option Int :=
  (field? j).filter fun n => -capacity 31 ≤ n && n < capacity 31

instance : FromJson Loc where
  ofJson? j := do
    let [x, y, z] ← j.record? ["x", "y", "z"] | none
    return ⟨← Loc.part? x, ← Loc.part? y, ← Loc.part? z⟩

instance : ToJson BelPin := ⟨fun p => ofFields [("bel", toJson p.bel), ("pin", toJson p.pin)]⟩

instance : FromJson BelPin where
  ofJson? j := do
    let [bel, pin] ← j.record? ["bel", "pin"] | none
    return ⟨← field? bel, ← field? pin⟩

end Fabric
