import Fabric.Name.Known
import Fabric.Name.Path
import Mathlib.Data.List.Nodup

/-!
# Strings in use

What the identifiers of an interner stand for: identifiers of one string are the same, strings that
are in use keep their identifiers, and the interner that every model starts from gives each
well-known name, each numeral and each node type its fixed place. A hierarchical name whose
components are in use and hold no delimiter is read back from its text.

## Main results

* `Known.name?_wire`, `Known.name?_numeral`, `Known.name?_nodeType`: the fixed places;
* `Path.parse_display_of_ne`: a name is read back from its text.
-/

namespace Fabric

namespace Interner

variable {t : Interner} {s : String} {i j : Ident}

/-- Identifiers of one string are the same. -/
theorem eq_of_name? (hi : t.name? i = some s) (hj : t.name? j = some s) : i = j := by
  rw [← get?_eq_some_iff] at hi hj
  exact Option.some.inj (hi.symm.trans hj)

/-- Interning a string that is in use changes nothing. -/
theorem intern_of_get? (h : t.get? s = some i) : t.intern s = (i, t) := by
  obtain ⟨k, hk, rfl⟩ := Option.map_eq_some_iff.mp h
  unfold intern
  split
  · rename_i j hj
    rw [Option.some.inj (hk.symm.trans hj)]
  · rename_i hnone
    exact absurd (hk.symm.trans hnone) nofun

/-- A string that is not in use gets the next place. -/
theorem names_intern_of_notMem (h : s ∉ t.names.toList) :
    (t.intern s).2.names.toList = t.names.toList ++ [s] := by
  unfold intern
  split
  · rename_i k hk
    have hmem :=
      List.mem_of_getElem? ((Array.getElem?_toList ..).trans ((t.index_eq_some_iff s k).mp hk))
    exact absurd hmem h
  · exact Array.toList_push

/-- New strings get the next places, in order. -/
theorem names_internAll {l : List String} (h : (t.names.toList ++ l).Nodup) :
    (t.internAll l).2.names.toList = t.names.toList ++ l := by
  induction l generalizing t with
  | nil => exact (List.append_nil _).symm
  | cons s rest ih =>
    have hnew : s ∉ t.names.toList := fun hmem =>
      (List.nodup_append.mp h).2.2 s hmem s List.mem_cons_self rfl
    have hnames := names_intern_of_notMem hnew
    rw [List.append_cons, ← hnames] at h
    rw [internAll, List.append_cons, ← hnames]
    exact ih h

/-- Interning the strings of identifiers gives the identifiers back, and changes nothing. -/
theorem internAll_map_name {l : List Ident} (h : ∀ i ∈ l, ∃ s, t.name? i = some s) :
    t.internAll (l.map t.name) = (l, t) := by
  induction l with
  | nil => rfl
  | cons i rest ih =>
    obtain ⟨s, hs⟩ := h i List.mem_cons_self
    have hname : t.name i = s := by rw [name, hs, Option.getD_some]
    rw [List.map_cons, internAll, hname, intern_of_get? ((t.get?_eq_some_iff s i).mpr hs)]
    simp only [ih fun j hj => h j (List.mem_cons_of_mem _ hj)]

end Interner

/-! ### Numerals -/

/-- A numeral is made of digits. -/
theorem isDigit_of_mem_toString {n : Nat} {c : Char} (h : c ∈ (toString n).toList) :
    c.isDigit = true := by
  rw [Nat.toString_eq_repr, Nat.toList_repr] at h
  exact Nat.isDigit_of_mem_toDigits (by decide) (by decide) h

/-- Two numbers with one numeral are equal. -/
theorem toString_nat_inj {m n : Nat} (h : toString m = toString n) : m = n := by
  have hdigits : Nat.toDigits 10 m = Nat.toDigits 10 n := by
    simpa only [Nat.toString_eq_repr, Nat.toList_repr] using congrArg String.toList h
  rw [← Nat.ofDigitChars_ten_toDigits (n := m), hdigits, Nat.ofDigitChars_ten_toDigits]

namespace Known

/-! ### Fixed places -/

/-- The strings in use from the beginning that are no numerals. -/
def words : List String := "" :: names ++ nodeTypeNames

/-- The words are distinct, and none of them but the empty one is made of digits. -/
theorem words_spec : words.Nodup ∧ ∀ s ∈ words, s = "" ∨ s.toList.all Char.isDigit = false := by
  decide +kernel

/-- No word is a numeral. -/
theorem toString_notMem_words (n : Nat) : toString n ∉ words := by
  intro hmem
  rcases words_spec.2 _ hmem with hempty | hdigits
  · have hlist := congrArg String.toList hempty
    rw [Nat.toString_eq_repr, Nat.toList_repr] at hlist
    exact Nat.toDigits_ne_nil hlist
  · rw [List.all_eq_true.mpr fun c hc => isDigit_of_mem_toString hc] at hdigits
    cases hdigits

/-- No text of the vocabulary occurs twice. -/
theorem nodup_vocabulary : ("" :: vocabulary).Nodup := by
  have hwords : ("" :: names ++ nodeTypeNames).Nodup := words_spec.1
  have hnumerals : ((List.range numeralCount).map fun n => toString n).Nodup :=
    List.nodup_range.map fun _ _ => toString_nat_inj
  have hnumeral : ∀ s ∈ (List.range numeralCount).map fun n => toString n,
      s ∉ "" :: names ++ nodeTypeNames := by
    intro s hs
    obtain ⟨n, -, rfl⟩ := List.mem_map.mp hs
    exact toString_notMem_words n
  rw [List.nodup_append] at hwords
  rw [vocabulary, ← List.cons_append, ← List.cons_append, List.nodup_append, List.nodup_append]
  refine ⟨⟨hwords.1, hnumerals, ?_⟩, hwords.2.1, ?_⟩
  · rintro s hs _ hs' rfl
    exact hnumeral s hs' (List.mem_append_left _ hs)
  · rintro s hs _ hs' rfl
    rcases List.mem_append.mp hs with hs | hs
    · exact hwords.2.2 s hs s hs' rfl
    · exact hnumeral s hs (List.mem_append_right _ hs')

/-- The interner starts with the empty name and the vocabulary. -/
theorem names_interner : interner.names.toList = "" :: vocabulary := by
  have hempty : Interner.empty.names.toList = [""] :=
    Interner.names_intern_of_notMem List.not_mem_nil
  have h := Interner.names_internAll (t := .empty) (l := vocabulary)
    (by rw [hempty]; exact nodup_vocabulary)
  rw [interner, h, hempty, List.singleton_append]

/-- The names of the starting interner are those of the vocabulary, by position. -/
theorem name?_interner (k : Nat) : interner.name? ⟨k⟩ = ("" :: vocabulary)[k]? := by
  rw [Interner.name?, ← Array.getElem?_toList, names_interner]

/-- The first name is empty. -/
theorem name?_empty : interner.name? .empty = some "" := by rw [Ident.empty, name?_interner]; rfl

/-- The name that starts the path of a wire. -/
theorem name?_wire : interner.name? wire = some "WIRE" := by
  have hplace : names[25]? = some "WIRE" := rfl
  have h := name?_interner (25 + 1)
  rwa [List.getElem?_cons_succ, vocabulary, List.append_assoc,
    List.getElem?_append_left (by decide), hplace] at h

/-- The name that starts the path of a pin. -/
theorem name?_pin : interner.name? pin = some "PIN" := by
  rw [pin, name?_interner]
  rfl

/-- The numerals are among the names. -/
theorem name?_numeral {n : Nat} (hn : n < numeralCount) :
    interner.name? (numeral n) = some (toString n) := by
  have hbase : numeralBase + n = (names.length + n) + 1 := by
    rw [show numeralBase = names.length + 1 from rfl]
    omega
  rw [numeral, hbase, name?_interner, List.getElem?_cons_succ, vocabulary, List.append_assoc,
    List.getElem?_append_right (Nat.le_add_right ..), Nat.add_sub_cancel_left,
    List.getElem?_append_left (by simpa using hn), List.getElem?_map, List.getElem?_range hn,
    Option.map_some]

/-- The names of the node types are among the names, in the order of the types. -/
theorem name?_nodeType (t : Nat) : interner.name? (nodeType t) = nodeTypeNames[t]? := by
  have hbase : nodeTypeBase + t =
      ((names ++ (List.range numeralCount).map fun n => toString n).length + t) + 1 := by
    rw [List.length_append, List.length_map, List.length_range,
      show nodeTypeBase = names.length + numeralCount + 1 from rfl]
    omega
  rw [nodeType, hbase, name?_interner, List.getElem?_cons_succ, vocabulary,
    List.getElem?_append_right (Nat.le_add_right ..), Nat.add_sub_cancel_left]

end Known

/-! ### Names as text -/

namespace Path

/-- Only an empty list, or the empty piece alone, joins to nothing. -/
theorem join_eq_nil_iff {d : Char} {pieces : List (List Char)} :
    join d pieces = [] ↔ pieces = [] ∨ pieces = [[]] := by
  match pieces with
  | [] => simp [join]
  | [piece] => simp [join]
  | piece :: next :: rest => simp [join_cons_of_ne_nil d piece (List.cons_ne_nil next rest)]

/-- A text is empty only for the name without components and for the name of one empty component. -/
theorem display_eq_empty_iff {t : Interner} {p : Path} {d : Char} :
    display t p d = "" ↔ p = [] ∨ p.map t.name = [""] := by
  have hpieces : (p.map fun i => (t.name i).toList) = [[]] ↔ p.map t.name = [""] := by
    match p with
    | [] => simp
    | [i] => simp [String.toList_eq_nil_iff]
    | _ :: _ :: _ => simp
  rw [← String.toList_eq_nil_iff, display, String.toList_ofList, join_eq_nil_iff,
    List.map_eq_nil_iff, hpieces]

/-- A name whose components are in use and hold no delimiter is read back from its text, unless it
is the name of one empty component. -/
theorem parse_display_of_ne {t : Interner} {p : Path} {d : Char} (hne : p.map t.name ≠ [""])
    (h : ∀ i ∈ p, ∃ s, t.name? i = some s ∧ d ∉ s.toList) : parse t (display t p d) d = (p, t) := by
  rcases eq_or_ne p [] with rfl | hp
  · rfl
  have hempty : (display t p d).isEmpty = false := by
    rw [← Bool.not_eq_true, String.isEmpty_iff, display_eq_empty_iff]
    exact not_or.mpr ⟨hp, hne⟩
  have hsplit :
      split d (join d (p.map fun i => (t.name i).toList)) = p.map fun i => (t.name i).toList := by
    refine split_join d (by simpa using hp) fun piece hpiece => ?_
    obtain ⟨i, hi, rfl⟩ := List.mem_map.mp hpiece
    obtain ⟨s, hs, hd⟩ := h i hi
    rwa [Interner.name, hs, Option.getD_some]
  have hnames : (p.map fun i => (t.name i).toList).map String.ofList = p.map t.name := by
    rw [List.map_map]
    exact List.map_congr_left fun i _ => String.ofList_toList
  rw [parse, hempty, display, String.toList_ofList, hsplit, hnames]
  exact Interner.internAll_map_name fun i hi => (h i hi).imp fun _ hs => hs.1

/-- A name of several components that are in use and hold no delimiter is read
back from its text. -/
theorem parse_display {t : Interner} {p : Path} {d : Char} (hlength : 2 ≤ p.length)
    (h : ∀ i ∈ p, ∃ s, t.name? i = some s ∧ d ∉ s.toList) : parse t (display t p d) d = (p, t) := by
  refine parse_display_of_ne (fun hname => ?_) h
  have hone : p.length = 1 := by rw [← List.length_map (f := t.name), hname, List.length_singleton]
  omega

end Path

end Fabric
