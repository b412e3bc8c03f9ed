import Fabric.Proofs.Vocabulary

/-!
# Names and their texts

A hierarchical name has a text, and a text is read as a name. The two undo each other: whatever text
is read, the name that it was read as has that text; and a name is read back from its text, as long
as no component of it holds the delimiter. One name is not: the name of one empty component has the
empty text, which is the text of the name without components.

Reading puts the components of a text into use, so the interner grows on the way. What was in use
before stays as it is.

## Main results

* `Path.display?_parse`: the name that a text was read as has this text;
* `Path.parse_display?_iff`: which names are read back from their texts;
* `Path.text_roundTrip`: both directions, whatever strings are in use.
-/

namespace Fabric

/-! ### Strings put into use -/

namespace Interner

/-- Strings that are in use stay in use. -/
theorem name?_internAll {t : Interner} {i : Ident} {u : String} (h : t.name? i = some u)
    (l : List String) :
    (t.internAll l).2.name? i = some u := by
  induction l generalizing t with
  | nil => exact h
  | cons s rest ih => exact ih (name?_intern h s)

/-- Strings that were put into use are read back from their identifiers. -/
theorem mapM_name?_internAll (t : Interner) (l : List String) :
    (t.internAll l).1.mapM (t.internAll l).2.name? = some l := by
  induction l generalizing t with
  | nil => rfl
  | cons s rest ih =>
    have hs : (t.internAll (s :: rest)).2.name? (t.intern s).1 = some s :=
      name?_internAll (name?_intern_self t s) rest
    rw [internAll] at hs ⊢
    rw [List.mapM_cons, hs, ih]
    rfl

end Interner

namespace Path

variable {t : Interner} {p : Path} {d : Char} {s : String}

/-! ### From texts to names and back -/

/-- Reading a text leaves the strings in use as they were. -/
theorem name?_parse {i : Ident} {u : String} (h : t.name? i = some u) (s : String) (d : Char) :
    (parse t s d).2.name? i = some u := by
  rw [parse]
  split
  · exact h
  · exact Interner.name?_internAll h _

/-- The name that a text was read as has this text. -/
theorem display?_parse (t : Interner) (s : String) (d : Char) :
    display? (parse t s d).2 (parse t s d).1 d = some s := by
  rw [parse]
  split
  · rename_i hempty
    rw [String.isEmpty_iff.mp hempty]
    rfl
  · have hpieces : ((split d s.toList).map String.ofList).map String.toList = split d s.toList := by
      simp only [List.map_map, Function.comp_def, String.toList_ofList, List.map_id']
    rw [display?, Interner.mapM_name?_internAll, Option.map_some, hpieces, join_split,
      String.ofList_toList]

/-! ### From names to texts and back -/

/-- A name has a text if its components are in use. -/
theorem display?_eq_some (h : ∀ i ∈ p, ∃ u, t.name? i = some u) :
    display? t p d = some (display t p d) := by
  have hnames : p.mapM t.name? = some (p.map t.name) := by
    induction p with
    | nil => rfl
    | cons i rest ih =>
      obtain ⟨u, hu⟩ := h i List.mem_cons_self
      rw [List.mapM_cons, ih fun j hj => h j (List.mem_cons_of_mem i hj), List.map_cons,
        Interner.name, hu]
      rfl
  rw [display?, hnames, Option.map_some, List.map_map, display]
  rfl

/-- Of the names whose components are in use and hold no delimiter, exactly the name of one empty
component is not read back from its text. Reading the text of such a name puts nothing into use. -/
theorem parse_display?_iff (h : ∀ i ∈ p, ∃ u, t.name? i = some u ∧ d ∉ u.toList)
    (hs : display? t p d = some s) :
    (parse t s d).2 = t ∧ ((parse t s d).1 = p ↔ p.map t.name? ≠ [some ""]) := by
  have hnames : p.map t.name? = (p.map t.name).map some := by
    rw [List.map_map]
    refine List.map_congr_left fun i hi => ?_
    obtain ⟨u, hu, -⟩ := h i hi
    rw [Function.comp_apply, Interner.name, hu, Option.getD_some]
  have hone : p.map t.name? = [some ""] ↔ p.map t.name = [""] := by
    rw [hnames]
    exact (List.map_injective_iff.mpr fun _ _ => Option.some.inj).eq_iff (b := [""])
  obtain rfl : display t p d = s :=
    Option.some.inj ((display?_eq_some fun i hi => (h i hi).imp fun _ hu => hu.1).symm.trans hs)
  by_cases hempty : p.map t.name = [""]
  · have htext : display t p d = "" := display_eq_empty_iff.mpr (Or.inr hempty)
    have hparse : parse t "" d = ([], t) := rfl
    rw [htext, hparse]
    refine ⟨rfl, fun hp => ?_, fun hne => absurd (hone.mpr hempty) hne⟩
    subst hp
    cases hempty
  · rw [parse_display_of_ne hempty h]
    exact ⟨rfl, fun _ hp => hempty (hone.mp hp), fun _ => rfl⟩

/-- Names and texts undo each other, whatever strings are in use and whatever the delimiter is: the
name that a text was read as has this text; a name whose components hold no delimiter has a text,
and is read back from it unless it is the name of one empty component; and what is in use stays as
it is when a text is read. -/
theorem text_roundTrip (t : Interner) (d : Char) :
    (∀ s, display? (parse t s d).2 (parse t s d).1 d = some s) ∧
      (∀ p, (∀ i ∈ p, ∃ u, t.name? i = some u ∧ d ∉ u.toList) →
        ∃ s, display? t p d = some s ∧ (parse t s d).2 = t ∧
          ((parse t s d).1 = p ↔ p.map t.name? ≠ [some ""])) ∧
      ∀ s i u, t.name? i = some u → (parse t s d).2.name? i = some u := by
  refine ⟨fun s => display?_parse t s d, fun p h => ?_, fun s i u hu => name?_parse hu s d⟩
  have hs : display? t p d = some (display t p d) :=
    display?_eq_some fun i hi => (h i hi).imp fun _ hu => hu.1
  exact ⟨_, hs, parse_display?_iff h hs⟩

/-- The name of `WIRE` and the empty component is read back, and keeps the empty component apart. -/
theorem text_roundTrip_vocabulary :
    ∃ s, display? Known.interner [Known.wire, .empty] '.' = some s ∧
      (parse Known.interner s '.').1 = [Known.wire, .empty] := by
  have huse :
      ∀ i ∈ [Known.wire, Ident.empty], ∃ u, Known.interner.name? i = some u ∧ '.' ∉ u.toList := by
    rw [List.forall_mem_cons, List.forall_mem_singleton]
    exact ⟨⟨_, Known.name?_wire, by decide⟩, ⟨_, Known.name?_empty, by decide⟩⟩
  obtain ⟨s, hs, -, hparse⟩ := (text_roundTrip Known.interner '.').2.1 _ huse
  exact ⟨s, hs, hparse.mpr fun hone => absurd (congrArg List.length hone) (by decide)⟩

end Path
end Fabric
