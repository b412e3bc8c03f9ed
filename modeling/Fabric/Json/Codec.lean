import Fabric.Json.Parser

/-!
# Types as JSON

`ToJson` writes a value of a type, `FromJson` reads one. A type is read strictly: a number
has to be an integer in the range of the type.

A record is written as an object. It is read from an object, in which members with other
names are ignored, or from an array of all its fields in order. A field that is left out is
an error, unless its type has a value for that case; a field that is there twice is an error.
An alternative without data is written as its tag, and also read from an object that has the
tag as its only member, with the value `null`.
-/

namespace Fabric

/-- The types that are written as JSON. -/
class ToJson (α : Type) where
  toJson : α → Json

/-- The types that are read from JSON. -/
class FromJson (α : Type) where
  ofJson? : Json → Option α
  /-- What a field of this type is in a record that leaves it out. -/
  absent? : Option α := none

export ToJson (toJson)
export FromJson (ofJson?)

namespace Json

variable {α : Type}

/-! ### Writing -/

instance : ToJson Json := ⟨id⟩

instance : ToJson Nat := ⟨fun n => .number (toString n)⟩

instance : ToJson Int := ⟨.ofInt⟩

instance : ToJson Bool := ⟨.bool⟩

instance : ToJson String := ⟨.ofText⟩

instance : ToJson UInt16 := ⟨fun n => toJson n.toNat⟩

instance : ToJson UInt32 := ⟨fun n => toJson n.toNat⟩

instance : ToJson UInt64 := ⟨fun n => toJson n.toNat⟩

instance [ToJson α] : ToJson (Option α) where
  toJson
    | none => .null
    | some a => toJson a

instance [ToJson α] : ToJson (List α) := ⟨fun l => .array (l.map toJson)⟩

instance [ToJson α] : ToJson (Array α) := ⟨fun a => toJson a.toList⟩

/-! ### Reading -/

instance : FromJson Json := ⟨some, none⟩

instance : FromJson Nat := ⟨Json.nat?, none⟩

instance : FromJson Int := ⟨Json.int?, none⟩

instance : FromJson Bool := ⟨Json.bool?, none⟩

instance : FromJson String := ⟨Json.text?, none⟩

/-- The natural number that a value is, if it fits some bits. -/
def word? (bits : Nat) (j : Json) : Option Nat := j.nat?.filter (· < capacity bits)

instance : FromJson UInt16 := ⟨fun j => (j.word? 16).map Nat.toUInt16, none⟩

instance : FromJson UInt32 := ⟨fun j => (j.word? 32).map Nat.toUInt32, none⟩

instance [FromJson α] : FromJson (Option α) where
  ofJson?
    | .null => some none
    | j => (ofJson? j).map some
  absent? := some none

instance [FromJson α] : FromJson (List α) := ⟨fun j => j.items?.bind (·.mapM ofJson?), none⟩

/-! ### Records and alternatives -/

/-- The fields of a record, in order; `none` for a field that is left out. -/
def record? (names : List String) (j : Json) : Option (List (Option Json)) :=
  match j with
  | .array items => if items.length = names.length then some (items.map some) else none
  | j => do
    let fields ← j.fields?
    let values (name : String) : List Json :=
      fields.filterMap fun (other, value) => if other = name then some value else none
    if names.all fun name => (values name).length ≤ 1 then
      some (names.map fun name => (values name).head?)
    else none

/-- Reads a field of a record. -/
def field? [FromJson α] : Option Json → Option α
  | none => FromJson.absent?
  | some j => ofJson? j

/-- The tag and the data of an alternative. -/
def tagged? (j : Json) : Option (String × Json) := do
  let [member] ← j.fields? | none
  return member

/-- Reads one of some alternatives without data. -/
def alternative? (all : List α) (tag : α → String) (j : Json) : Option α := do
  let name ← match j with
    | .string written => textOf? written
    | j => do
      let (name, .null) ← j.tagged? | none
      pure name
  all.find? fun a => tag a == name

end Json

end Fabric
