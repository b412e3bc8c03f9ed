import Std.Data.HashMap

/-!
# Interned names

Every bel, wire, pin, cell and net of a model is known by an `Ident`, a small number that
stands for a string. An `Interner` is the one-to-one correspondence between the numbers in
use and their strings. Number zero is always the empty string.

## Main results

* `name?_intern_self` — an interned string reads back;
* `name?_intern` — interning never changes what an identifier in use stands for;
* `get?_eq_some_iff` — a string's identifier is the one that stands for it.
-/

namespace Fabric

/-- An interned name, as its place in the interner. -/
structure Ident where
  index : Nat
  deriving DecidableEq, Hashable, Inhabited, Ord, Repr

namespace Ident

/-- The identifier of the empty string. -/
@[match_pattern] def empty : Ident := ⟨0⟩

/-- Whether this is the identifier of the empty string. -/
def isEmpty (i : Ident) : Bool := i == empty

end Ident

/-- The strings in use, each at the place that is its number. -/
structure Interner where
  names : Array String
  index : Std.HashMap String Nat
  /-- The index is the inverse of the list of names. -/
  index_eq_some_iff : ∀ (s : String) (i : Nat), index[s]? = some i ↔ names[i]? = some s

namespace Interner

/-- The interner with no strings at all. -/
def blank : Interner := ⟨#[], ∅, by simp⟩

instance : Inhabited Interner := ⟨blank⟩

/-- The identifier of a string that is in use. -/
def get? (t : Interner) (s : String) : Option Ident := t.index[s]?.map .mk

/-- The string that an identifier stands for, if it is in use. -/
def name? (t : Interner) (i : Ident) : Option String := t.names[i.index]?

/-- The string that an identifier stands for; one that is not in use stands for nothing. -/
def name (t : Interner) (i : Ident) : String := (t.name? i).getD ""

/-- The number of strings in use. -/
def size (t : Interner) : Nat := t.names.size

/-- The identifier of a string, put into use if it is not yet. -/
def intern (t : Interner) (s : String) : Ident × Interner :=
  match h : t.index[s]? with
  | some i => (⟨i⟩, t)
  | none =>
    (⟨t.names.size⟩,
      { names := t.names.push s
        index := t.index.insert s t.names.size
        index_eq_some_iff := fun u i => by
          have fresh : ∀ j : Nat, t.names[j]? ≠ some s := fun j hj =>
            by simp [(t.index_eq_some_iff s j).2 hj] at h
          rw [Std.HashMap.getElem?_insert, Array.getElem?_push]
          by_cases hs : s = u
          · subst hs
            by_cases hi : i = t.names.size
            · simp [hi]
            · simp [hi, fresh, Ne.symm hi]
          · by_cases hi : i = t.names.size
            · subst hi
              have : t.index[u]? ≠ some t.names.size := fun hu => by
                simpa using (t.index_eq_some_iff u _).1 hu
              simp [hs, this]
            · simp [hs, hi, t.index_eq_some_iff] })

/-- Interns strings one after the other. -/
def internAll (t : Interner) : List String → List Ident × Interner
  | [] => ([], t)
  | s :: rest =>
    let (i, t) := t.intern s
    let (is, t) := t.internAll rest
    (i :: is, t)

/-- An interner that holds only the empty string. -/
def empty : Interner := (blank.intern "").2

/-- An interner whose identifiers from one on stand for the given names, in order. There is
none if a name is empty or occurs twice, because it would then not get its place. -/
def ofNames? (names : List String) : Option Interner :=
  names.foldlM (fun t s => if (t.get? s).isSome then none else some (t.intern s).2) empty

/-- A one-line description of an interner. -/
def describe (t : Interner) : String := s!"Interner \x7b len: {t.size} \x7d"

/-! ### What the operations mean for names -/

/-- A text is found under the name that spells it. -/
theorem get?_eq_some_iff (t : Interner) (s : String) (i : Ident) :
    t.get? s = some i ↔ t.name? i = some s := by
  obtain ⟨i⟩ := i
  rw [get?, name?, ← t.index_eq_some_iff]
  cases t.index[s]? <;> simp

/-- An interned string reads back. -/
@[simp] theorem name?_intern_self (t : Interner) (s : String) :
    (t.intern s).2.name? (t.intern s).1 = some s := by
  unfold intern
  split
  · rename_i i h
    exact (t.index_eq_some_iff s i).1 h
  · simp [name?]

/-- Interning never changes what an identifier in use stands for. -/
theorem name?_intern {t : Interner} {i : Ident} {u : String} (h : t.name? i = some u)
    (s : String) : (t.intern s).2.name? i = some u := by
  unfold intern
  split
  · exact h
  · simp only [name?] at h ⊢
    have hi : i.index < t.names.size := (Array.getElem?_eq_some_iff.1 h).1
    rw [Array.getElem?_push]
    simp [Nat.ne_of_lt hi, h]

/-- A text that was interned is found. -/
theorem get?_intern_self (t : Interner) (s : String) :
    (t.intern s).2.get? s = some (t.intern s).1 := by
  rw [get?_eq_some_iff]
  exact name?_intern_self t s

end Interner

end Fabric
