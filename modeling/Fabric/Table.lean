/-!
# Tables in insertion order

A `Table κ υ` is a small finite map that remembers the order in which its keys were first
inserted. Inserting under a key that is present replaces the value and keeps the place.

## Main results

* `get?_insert` — what a lookup answers after an insertion;
* `insert_insert`, `insert_comm` — one insertion after another;
* `mem_of_get?`, `get?_of_mem` — lookups and the pairs of the table;
* `keys_insert` — an insertion keeps the keys, or adds the new one at the end.
-/

namespace Fabric

/-- A finite map as a list of pairs, in order of first insertion. -/
abbrev Table (κ υ : Type) := List (κ × υ)

namespace Table

variable {κ υ : Type} [DecidableEq κ]

/-- The value under a key. -/
def get? : Table κ υ → κ → Option υ
  | [], _ => none
  | (k, v) :: rest, key => if k = key then some v else get? rest key

/-- Whether a key is present. -/
def contains (t : Table κ υ) (key : κ) : Bool := (t.get? key).isSome

/-- Puts a value under a key: in place if the key is present, else at the end. -/
def insert : Table κ υ → κ → υ → Table κ υ
  | [], key, value => [(key, value)]
  | (k, v) :: rest, key, value =>
    if k = key then (key, value) :: rest else (k, v) :: insert rest key value

/-- Changes the value under a key, starting from `fresh` if the key is absent. -/
def update (t : Table κ υ) (key : κ) (fresh : υ) (f : υ → υ) : Table κ υ :=
  t.insert key (f ((t.get? key).getD fresh))

/-- The keys, in order of first insertion. -/
def keys (t : Table κ υ) : List κ := t.map Prod.fst

/-- The values, in order of first insertion of their keys. -/
def values (t : Table κ υ) : List υ := t.map Prod.snd

/-! ### Lookups after an insertion -/

/-- An insertion sets the value of its key and leaves the other keys alone. -/
theorem get?_insert (t : Table κ υ) (key other : κ) (value : υ) :
    (t.insert key value).get? other = if key = other then some value else t.get? other := by
  induction t with
  | nil => simp [insert, get?]
  | cons entry rest ih =>
    obtain ⟨k, v⟩ := entry
    by_cases hk : k = key
    · subst hk
      by_cases ho : k = other <;> simp [insert, get?, ho]
    · by_cases ho : k = other
      · subst ho
        simp [insert, get?, hk, Ne.symm hk]
      · simp [insert, get?, hk, ho, ih]

@[simp] theorem get?_insert_self (t : Table κ υ) (key : κ) (value : υ) :
    (t.insert key value).get? key = some value := by
  simp [get?_insert]

/-- An update changes the value of its key, or inserts a fresh one changed. -/
theorem get?_update (t : Table κ υ) (key other : κ) (fresh : υ) (f : υ → υ) :
    (t.update key fresh f).get? other =
      if key = other then some (f ((t.get? key).getD fresh)) else t.get? other :=
  get?_insert ..

/-! ### Insertions one after another -/

/-- An insertion under a key hides an earlier one. -/
theorem insert_insert (t : Table κ υ) (key : κ) (hidden value : υ) :
    (t.insert key hidden).insert key value = t.insert key value := by
  induction t with
  | nil => simp [insert]
  | cons entry rest ih =>
    obtain ⟨k, v⟩ := entry
    by_cases hk : k = key <;> simp [insert, hk, ih]

/-- An insertion under a key that is present can be made before one under another key. -/
theorem insert_comm {t : Table κ υ} {key other : κ} (hne : key ≠ other)
    (hkey : t.contains key = true) (value value' : υ) :
    (t.insert other value').insert key value = (t.insert key value).insert other value' := by
  induction t with
  | nil => cases hkey
  | cons entry rest ih =>
    obtain ⟨k, v⟩ := entry
    by_cases hk : k = key
    · subst hk
      simp [insert, hne]
    · have hrest : contains rest key = true := by simpa [contains, get?, hk] using hkey
      by_cases ho : k = other
      · subst ho
        simp [insert, hk]
      · simp [insert, hk, ho, ih hrest]

/-! ### Keys -/

/-- The keys of a table are those with a value. -/
theorem get?_isSome_iff (t : Table κ υ) (key : κ) : (t.get? key).isSome ↔ key ∈ t.keys := by
  induction t with
  | nil => simp [get?, keys]
  | cons entry rest ih =>
    obtain ⟨k, v⟩ := entry
    by_cases hk : k = key
    · simp [get?, keys, hk]
    · simp only [get?, hk, if_false, ih]
      simp [keys, Ne.symm hk]

/-- A value that is found is listed with its key. -/
theorem mem_of_get? {t : Table κ υ} {key : κ} {value : υ} (h : t.get? key = some value) :
    (key, value) ∈ t := by
  induction t with
  | nil => cases h
  | cons entry rest ih =>
    obtain ⟨k, v⟩ := entry
    rw [get?] at h
    split at h
    · rename_i hk
      rw [← hk, Option.some.inj h]
      exact List.mem_cons_self
    · exact List.mem_cons_of_mem _ (ih h)

/-- A value is found under its key, if no key occurs twice. -/
theorem get?_of_mem {t : Table κ υ} (ht : t.keys.Nodup) {key : κ} {value : υ}
    (h : (key, value) ∈ t) :
    t.get? key = some value := by
  induction t with
  | nil => cases h
  | cons entry rest ih =>
    obtain ⟨k, v⟩ := entry
    rw [keys, List.map_cons, List.nodup_cons] at ht
    rw [get?]
    rcases List.mem_cons.mp h with heq | hmem
    · obtain ⟨rfl, rfl⟩ := Prod.mk.inj heq
      exact if_pos rfl
    · have hne : k ≠ key := by
        rintro rfl
        exact ht.1 (List.mem_map.mpr ⟨_, hmem, rfl⟩)
      rw [if_neg hne]
      exact ih ht.2 hmem

/-- A value that is found is a value of the table. -/
theorem mem_values_of_get? {t : Table κ υ} {key : κ} {value : υ} (h : t.get? key = some value) :
    value ∈ t.values :=
  List.mem_map_of_mem (mem_of_get? h)

/-- An insertion keeps the keys, or adds the new one at the end. -/
theorem keys_insert (t : Table κ υ) (key : κ) (value : υ) :
    (t.insert key value).keys = if key ∈ t.keys then t.keys else t.keys ++ [key] := by
  induction t with
  | nil => simp [insert, keys]
  | cons entry rest ih =>
    obtain ⟨k, v⟩ := entry
    by_cases hk : k = key
    · subst hk
      simp [insert, keys]
    · have hne : ¬ key = k := fun h => hk h.symm
      simp only [keys] at ih
      by_cases hm : key ∈ rest.map Prod.fst <;>
        simp [insert, keys, hk, hne, hm, ih]

/-- Inserting keeps the keys distinct. -/
theorem keys_insert_nodup {t : Table κ υ} (h : t.keys.Nodup) (key : κ) (value : υ) :
    (t.insert key value).keys.Nodup := by
  rw [keys_insert]
  split
  · exact h
  · rename_i hm
    rw [List.nodup_append]
    refine ⟨h, by simp, ?_⟩
    intro a ha b hb hab
    simp only [List.mem_singleton] at hb
    exact hm (hb ▸ hab ▸ ha)

end Table

end Fabric
