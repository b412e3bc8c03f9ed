import Fabric.Proofs.BuildWalk

/-!
# Attributes of the I/O ports

Once its blocks and its routing are there, a model records the attributes of the I/O ports that come
with the selection, port by port, and attribute by attribute. Ports and attributes are known by the
identifiers of their names, and a later value replaces an earlier one under the same names. So every
attribute is on record in the end if no port and no attribute of a port is listed twice, in
whichever order they come.

## Main results

* `Device.Records.put`, `Device.records_put`: what one attribute more means for the others;
* `answers_recordPort`: recording a port keeps what is on record of the other ports;
* `Device.records_ofSelection`: a built device has the attributes of its ports on record.
-/

namespace Fabric

/-- No port is listed twice, and no attribute of a port. -/
structure IoTable.Distinct (t : IoTable) : Prop where
  ports : t.keys.Nodup
  attributes : ∀ entry ∈ t, entry.2.keys.Nodup

namespace Device

/-- An attribute of a port is on record. -/
def Records (d : Device) (port key : String) (v : AttrValue) : Prop :=
  ∃ i k, d.interner.name? i = some port ∧ d.interner.name? k = some key ∧
    (d.ioAttributes.get? i).bind (·.get? k) = some v

variable {d : Device} {port key port' key' : String} {v : AttrValue} {i k : Ident}

/-! ### One attribute -/

/-- Interning a name keeps what is recorded. -/
theorem Records.intern (h : d.Records port key v) (s : String) :
    Records { d with interner := (d.interner.intern s).2 } port key v := by
  obtain ⟨i, k, hi, hk, hv⟩ := h
  exact ⟨i, k, Interner.name?_intern hi s, Interner.name?_intern hk s, hv⟩

/-- Opening a port keeps what is recorded. -/
theorem Records.openPort (h : d.Records port key v) (i : Ident) :
    Records { d with ioAttributes := d.ioAttributes.update i [] id } port key v := by
  obtain ⟨i₀, k₀, hi₀, hk₀, hv⟩ := h
  refine ⟨i₀, k₀, hi₀, hk₀, ?_⟩
  rw [Table.get?_update]
  split
  · rename_i heq
    obtain ⟨t, ht, hget⟩ := Option.bind_eq_some_iff.mp hv
    rw [heq, ht, Option.getD_some, Option.bind_some]
    exact hget
  · exact hv

/-- Another attribute replaces nothing. -/
theorem Records.put (h : d.Records port key v) (hi : d.interner.name? i = some port')
    (hk : d.interner.name? k = some key') (hne : ¬ (port = port' ∧ key = key'))
    (value : AttrValue) :
    Records { d with ioAttributes := d.ioAttributes.update i [] (·.insert k value) }
      port key v := by
  obtain ⟨i₀, k₀, hi₀, hk₀, hv⟩ := h
  refine ⟨i₀, k₀, hi₀, hk₀, ?_⟩
  rw [Table.get?_update]
  split
  · rename_i heq
    subst heq
    obtain ⟨t, ht, hget⟩ := Option.bind_eq_some_iff.mp hv
    rw [ht, Option.getD_some, Option.bind_some, Table.get?_insert, if_neg, hget]
    rintro rfl
    exact hne ⟨Option.some.inj (hi₀.symm.trans hi), Option.some.inj (hk₀.symm.trans hk)⟩
  · exact hv

/-- A value put under the names of a port and a key is recorded for them. -/
theorem records_put (hi : d.interner.name? i = some port) (hk : d.interner.name? k = some key)
    (value : AttrValue) :
    Records { d with ioAttributes := d.ioAttributes.update i [] (·.insert k value) }
      port key value :=
  ⟨i, k, hi, hk, by rw [Table.get?_update, if_pos rfl, Option.bind_some, Table.get?_insert_self]⟩

/-- All of these attributes are on record. -/
def RecordsAll (S : String → String → AttrValue → Prop) (d : Device) : Prop :=
  ∀ port key v, S port key v → d.Records port key v

/-- Interning a name keeps all that is recorded. -/
theorem RecordsAll.intern {S : String → String → AttrValue → Prop} (h : d.RecordsAll S)
    (s : String) :
    RecordsAll S { d with interner := (d.interner.intern s).2 } :=
  fun port key v hS => (h port key v hS).intern s

end Device

/-! ### One port -/

section Port

/-- The entries in front of a place have other keys. -/
theorem Table.notMem_take {υ : Type} {t : Table String υ} (ht : t.keys.Nodup) {n : Nat}
    {key : String} {value : υ} (hentry : t[n]? = some (key, value)) (v : υ) :
    (key, v) ∉ t.take n := by
  intro hmem
  refine not_mem_take_of_nodup ht (k := n) (a := key) ?_ ?_
  · rw [keys, List.getElem?_map, hentry, Option.map_some]
  · rw [keys, ← List.map_take]
    exact List.mem_map_of_mem hmem

variable {port : String} {attributes : Table String AttrValue}
  {S : String → String → AttrValue → Prop}

/-- Recording a port puts its attributes on record, and keeps those of the other ports. -/
theorem answers_recordPort_records (hkeys : attributes.keys.Nodup) (hS : ∀ key v, ¬ S port key v) :
    (Edit.recordPort port attributes).Answers (Device.RecordsAll S) ()
      (Device.RecordsAll fun p k v => S p k v ∨ p = port ∧ (k, v) ∈ attributes) := by
  rw [Edit.recordPort]
  refine .intern_bind (fun d h => h.intern port) fun i => ?_
  -- after `n` attributes these are on record, besides those of other ports
  let stage (n : Nat) (d : Device) : Prop := d.interner.name? i = some port ∧
    d.RecordsAll fun p k v => S p k v ∨ p = port ∧ (k, v) ∈ attributes.take n
  refine .bind (a := ()) (Q := stage 0) (.modify fun d h => ⟨h.1, ?_⟩) ?_
  · rintro p k v (hpkv | ⟨-, hmem⟩)
    · exact (h.2 p k v hpkv).openPort i
    · exact absurd hmem List.not_mem_nil
  refine .bind (a := ()) (Q := stage attributes.length) (.forM stage fun n entry hentry => ?_) ?_
  · obtain ⟨key, value⟩ := entry
    refine .intern_bind (fun d h => ⟨Interner.name?_intern h.1 key, h.2.intern key⟩) fun k => ?_
    refine .modify fun d h => ⟨h.2.1, fun p k' v hpkv => ?_⟩
    rw [List.take_add_one, hentry, Option.toList_some, List.mem_append, List.mem_singleton] at hpkv
    rcases hpkv with hother | ⟨rfl, hbefore | hnew⟩
    · refine (h.2.2 p k' v (.inl hother)).put h.2.1 h.1 ?_ value
      rintro ⟨rfl, rfl⟩
      exact hS k' v hother
    · refine (h.2.2 p k' v (.inr ⟨rfl, hbefore⟩)).put h.2.1 h.1 ?_ value
      rintro ⟨-, rfl⟩
      exact Table.notMem_take hkeys hentry v hbefore
    · obtain ⟨rfl, rfl⟩ := Prod.mk.inj hnew
      exact Device.records_put h.2.1 h.1 v
  · have hlast (d : Device) (h : stage attributes.length d) :
        d.RecordsAll fun p k v => S p k v ∨ p = port ∧ (k, v) ∈ attributes := by
      have hall := h.2
      rwa [List.take_length] at hall
    split
    · refine .get_bind fun d hd => ?_
      split
      · exact .modify fun d h => hlast d h
      · exact .pure hlast
    · exact .pure hlast

/-- Recording ports one after the other puts all their attributes on record. -/
theorem answers_recordPorts {t : IoTable} (ht : t.Distinct) :
    (t.forM fun (port, attributes) => Edit.recordPort port attributes).Answers (fun _ => True) ()
      (Device.RecordsAll fun p k v => ∃ attributes, (p, attributes) ∈ t ∧ (k, v) ∈ attributes) := by
  let stage (n : Nat) : Device → Prop :=
    Device.RecordsAll fun p k v => ∃ attributes, (p, attributes) ∈ t.take n ∧ (k, v) ∈ attributes
  refine .mono (P := stage 0) (Q := stage t.length) (.forM stage fun n entry hentry => ?_)
    (fun d _ p k v h => ?_) fun d h => ?_
  · obtain ⟨port, attributes⟩ := entry
    have hkeys := ht.attributes _ (List.mem_of_getElem? hentry)
    refine (answers_recordPort_records hkeys fun key v hother => ?_).mono (fun d h => h)
      fun d h p k v hpkv => h p k v ?_
    · obtain ⟨attributes', hmem, -⟩ := hother
      exact Table.notMem_take ht.ports hentry attributes' hmem
    · obtain ⟨attributes', hmem, hkv⟩ := hpkv
      rw [List.take_add_one, hentry, Option.toList_some, List.mem_append,
        List.mem_singleton] at hmem
      rcases hmem with hmem | heq
      · exact .inl ⟨attributes', hmem, hkv⟩
      · obtain ⟨rfl, rfl⟩ := Prod.mk.inj heq
        exact .inr ⟨rfl, hkv⟩
  · obtain ⟨attributes, hmem, -⟩ := h
    exact absurd hmem List.not_mem_nil
  · have hall : t.take t.length = t := List.take_length
    exact hall ▸ h

end Port

/-! ### A built device -/

/-- Sorting keeps the ports and their keys distinct. -/
theorem IoTable.Distinct.sorted {t : IoTable} (h : t.Distinct) : t.sorted.Distinct where
  ports := (((List.mergeSort_perm t _).map Prod.fst).nodup_iff).mpr h.ports
  attributes entry hentry := h.attributes entry ((List.mergeSort_perm t _).mem_iff.mp hentry)

namespace Device

/-- One model comes from the same selection as the other. -/
def SameSelection (d d' : Device) : Prop := d'.selection = d.selection

instance : IsPreorder Device SameSelection where
  refl _ := rfl
  trans _ _ _ h h' := Eq.trans h' h

/-- No step of the build changes the selection. -/
theorem buildRelation_sameSelection : Edit.BuildRelation SameSelection where
  diagnostics _ _ := rfl
  interner _ _ := rfl
  labs _ _ := rfl
  insertWire _ _ _ _ _ := rfl
  pips _ _ _ := rfl
  attach _ _ _ := rfl
  addSite _ _ _ _ _ := rfl
  changeSite _ _ _ _ := modifySite_selection ..

/-- A built device has the attributes of its ports on record. -/
theorem records_ofSelection {selection : Selection} {d : Device} (h : ofSelection selection = .ok d)
    (hio : selection.io.Distinct) {port key : String} {attributes : Table String AttrValue}
    (hport : selection.io.get? port = some attributes) {v : AttrValue}
    (hkey : attributes.get? key = some v) : d.Records port key v := by
  obtain ⟨c, -, hrun⟩ := exists_run_build h
  obtain ⟨_, d₁, hblocks, hrun⟩ := Edit.run_bind_eq_ok.mp hrun
  obtain ⟨_, d₂, hrouting, hrun⟩ := Edit.run_bind_eq_ok.mp hrun
  have hselection : d₂.selection = selection := by
    have hbefore := buildRelation_sameSelection.buildBlocks (fun x y => (c.blockAt x y).toList)
      (blank selection c)
    have hafter := buildRelation_sameSelection.importRouting d₁
    rw [hblocks] at hbefore
    rw [hrouting] at hafter
    exact Eq.trans hafter hbefore
  rw [Edit.run_get_bind, hselection] at hrun
  obtain ⟨d', hrun', hall⟩ := answers_recordPorts hio.sorted d₂ trivial
  obtain rfl : d = d' := congrArg Prod.snd (hrun.symm.trans hrun')
  exact hall port key v ⟨attributes,
    (List.mergeSort_perm _ _).mem_iff.mpr (Table.mem_of_get? hport),
    Table.mem_of_get? hkey⟩

end Device

end Fabric
