import Fabric.Proofs.SlotKeys

/-!
# Data lines

A LAB has four data lines, and the nets that do not come in through a dedicated input share them.
The shared wires look for a line in different orders, but all of them see the same four, so which
nets get a line does not depend on who asks first: they are the first four.

`DataLines.Serves` is the invariant of the table of lines that are in use. It says that each of the
first four nets so far is on one line and that there are no others. `DataLines.Step` is what one
more demand does.

## Main results

* `eraseDups_prefix`: the different entries of a list keep their places when it grows;
* `DataLines.Serves.step`: one more net is served like those before it.
-/

namespace Fabric

/-! ### First occurrences -/

/-- The different entries of a list come first in those of a longer one. -/
theorem eraseDups_prefix {α : Type} [DecidableEq α] (xs ys : List α) :
    xs.eraseDups <+: (xs ++ ys).eraseDups := by
  induction ys using List.reverseRecOn with
  | nil => rw [List.append_nil]
  | append_singleton ys y ih =>
      rw [← List.append_assoc, eraseDups_concat]
      split
      · exact ih
      · exact ih.trans (List.prefix_append ..)

/-- An entry that a list starts with is among its first ones, if it is among the first ones of a
longer list without repetitions. -/
theorem mem_take_shorter {α : Type} {xs ys : List α} (h : xs <+: ys) (hnodup : ys.Nodup) {a : α}
    {n : Nat} (ha : a ∈ xs) (htake : a ∈ ys.take n) : a ∈ xs.take n := by
  obtain ⟨zs, rfl⟩ := h
  rw [List.take_append, List.mem_append] at htake
  rcases htake with htake | htake
  · exact htake
  · exact ((List.nodup_append.mp hnodup).2.2 a ha a (List.mem_of_mem_take htake) rfl).elim

/-- What is among the first of a list is among the first of a longer one. -/
theorem mem_take_longer {α : Type} {xs ys : List α} (h : xs <+: ys) {a : α} {n : Nat}
    (ha : a ∈ xs.take n) : a ∈ ys.take n := by
  obtain ⟨zs, rfl⟩ := h
  rw [List.take_append]
  exact List.mem_append_left _ ha

namespace Device

/-! ### The table of lines -/

/-- The number of lines that carry no net. -/
def DataLines.freeCount (lines : DataLines) (data : List Wire) : Nat :=
  data.countP fun line => (lines.get? line).isNone

/-- A table serves some nets, in order of their first demand: each of the first four is on one of
the data lines, and no other net is on any. -/
structure DataLines.Serves (lines : DataLines) (data : List Wire) (nets : List NetId) : Prop where
  carried : ∀ line net, lines.get? line = some net → line ∈ data ∧ net ∈ nets.take 4
  served : ∀ net ∈ nets.take 4, ∃ line, lines.get? line = some net
  once : ∀ line line' net, lines.get? line = some net → lines.get? line' = some net → line = line'
  free : lines.freeCount data + (nets.take 4).length = 4

namespace DataLines

variable {lines : DataLines} {data candidates : List Wire} {nets : List NetId} {net : NetId}

/-- An empty table serves no net. -/
theorem serves_nil (hdata : data.length = 4) : Serves [] data [] where
  carried _ _ h := by cases h
  served _ h := by cases h
  once _ _ _ h := by cases h
  free := by
    have hall :
        data.countP (fun line => ((Table.get? ([] : DataLines) line).isNone)) = data.length :=
      List.countP_eq_length.mpr fun _ _ => rfl
    rw [freeCount, hall, hdata]
    rfl

/-- The line of a net that has one. -/
theorem Serves.chooseLine_of_mem (h : lines.Serves data nets)
    (hcand : ∀ line, line ∈ candidates ↔ line ∈ data) (hnet : net ∈ nets.take 4) :
    ∃ line, chooseLine lines candidates net = some line ∧ lines.get? line = some net := by
  obtain ⟨line, hline⟩ := h.served net hnet
  have hmem := (hcand line).mpr (h.carried line net hline).1
  obtain ⟨found, hfound⟩ : ∃ found, candidates.find? (fun line => lines.get? line = some net) =
      some found :=
    Option.isSome_iff_exists.mp (List.find?_isSome.mpr ⟨line, hmem, decide_eq_true hline⟩)
  refine ⟨found, ?_, by simpa using List.find?_some hfound⟩
  rw [chooseLine, hfound, Option.some_or]

/-- Another net is on no line, so a free one is looked for. -/
theorem Serves.chooseLine_of_notMem (h : lines.Serves data nets) (hnet : net ∉ nets.take 4) :
    chooseLine lines candidates net = candidates.find? fun line => (lines.get? line).isNone := by
  have hnone : candidates.find? (fun line => decide (lines.get? line = some net)) = none := by
    rw [List.find?_eq_none]
    intro line _ hline
    exact hnet (h.carried line net (of_decide_eq_true hline)).2
  rw [chooseLine, hnone, Option.none_or]

/-- A table depends on its lookups only. -/
theorem Serves.congr {later : DataLines} (h : lines.Serves data nets)
    (hget : ∀ line, later.get? line = lines.get? line) : later.Serves data nets where
  carried line net hline := h.carried line net ((hget line).symm.trans hline)
  served net hnet := by
    obtain ⟨line, hline⟩ := h.served net hnet
    exact ⟨line, (hget line).trans hline⟩
  once line line' net hline hline' :=
    h.once line line' net ((hget line).symm.trans hline) ((hget line').symm.trans hline')
  free := by
    have hcount : later.freeCount data = lines.freeCount data :=
      List.countP_congr fun line _ => by rw [hget]
    rw [hcount, h.free]

/-- A net that is new takes a free line if it is among the first four. -/
theorem Serves.insert (h : lines.Serves data nets) (hdata : data.Nodup) (hshort : nets.length < 4)
    (hnet : net ∉ nets) {line : Wire} (hline : line ∈ data) (hfree : lines.get? line = none) :
    DataLines.Serves (lines.insert line net) data (nets ++ [net]) := by
  have htake : nets.take 4 = nets := List.take_of_length_le (by omega)
  have htake' : (nets ++ [net]).take 4 = nets ++ [net] :=
    List.take_of_length_le (by rw [List.length_append, List.length_singleton]; omega)
  constructor
  case carried =>
    intro other n hother
    rw [Table.get?_insert] at hother
    rw [htake', List.mem_append, List.mem_singleton]
    split at hother
    · rename_i heq
      exact ⟨heq ▸ hline, .inr (Option.some.inj hother).symm⟩
    · obtain ⟨hmem, hn⟩ := h.carried other n hother
      rw [htake] at hn
      exact ⟨hmem, .inl hn⟩
  case served =>
    intro n hn
    rw [htake', List.mem_append, List.mem_singleton] at hn
    rcases hn with hn | rfl
    · obtain ⟨other, hother⟩ := h.served n (by rwa [htake])
      refine ⟨other, ?_⟩
      rw [Table.get?_insert, if_neg, hother]
      rintro rfl
      rw [hfree] at hother
      cases hother
    · exact ⟨line, Table.get?_insert_self ..⟩
  case once =>
    -- The net is new, so no line but the one just taken carries it.
    have hold {other : Wire} (hother : (lines.insert line net).get? other = some net) :
        other = line := by
      rw [Table.get?_insert] at hother
      split at hother
      · rename_i heq
        exact heq.symm
      · exact absurd (h.carried other net hother).2 (by rwa [htake])
    intro other other' n hother hother'
    by_cases hn : n = net
    · subst hn
      rw [hold hother, hold hother']
    · rw [Table.get?_insert] at hother hother'
      split at hother
      · exact absurd (Option.some.inj hother).symm hn
      split at hother'
      · exact absurd (Option.some.inj hother').symm hn
      exact h.once other other' n hother hother'
  case free =>
    have hcount : DataLines.freeCount (lines.insert line net) data + 1 = lines.freeCount data :=
      countP_add_one (a := line) hdata hline (by rw [hfree]; rfl)
        (by rw [Table.get?_insert_self]; rfl)
        fun other hother => by rw [Table.get?_insert, if_neg (Ne.symm hother)]
    have hall := h.free
    rw [htake] at hall
    rw [htake', List.length_append, List.length_singleton]
    omega

/-- The table after a line was chosen for a net, or none. -/
def withLine (lines : DataLines) (choice : Option Wire) (net : NetId) : DataLines :=
  match choice with
  | some line => lines.insert line net
  | none => lines

/-- What one more net does to the table: it gets its line if it is among the first four, and no
other net is moved. -/
structure Step (lines : DataLines) (data : List Wire) (nets : List NetId) (net : NetId)
    (choice : Option Wire) : Prop where
  serves : (lines.withLine choice net).Serves data nets
  kept : ∀ line n, lines.get? line = some n → (lines.withLine choice net).get? line = some n
  given : net ∈ nets.take 4 →
    ∃ line, choice = some line ∧ (lines.withLine choice net).get? line = some net
  refused : net ∉ nets.take 4 → choice = none

/-- A net that is new gets a line if fewer than four came before it. -/
theorem Serves.step_of_lt (h : lines.Serves data nets) (hdata : data.Nodup)
    (hcand : ∀ line, line ∈ candidates ↔ line ∈ data) (hnet : net ∉ nets)
    (hshort : nets.length < 4) :
    lines.Step data (nets ++ [net]) net (chooseLine lines candidates net) := by
  have htake : nets.take 4 = nets := List.take_of_length_le (by omega)
  have hfree := h.free
  rw [htake] at hfree
  obtain ⟨line, hline, hnone⟩ : ∃ line ∈ data, (lines.get? line).isNone :=
    List.countP_pos_iff.mp (show 0 < lines.freeCount data by omega)
  obtain ⟨found, hfound⟩ : ∃ found, candidates.find? (fun line => (lines.get? line).isNone) =
      some found :=
    Option.isSome_iff_exists.mp (List.find?_isSome.mpr ⟨line, (hcand line).mpr hline, hnone⟩)
  have hmem := (hcand found).mp (List.mem_of_find?_eq_some hfound)
  have hunused : lines.get? found = none := by simpa using List.find?_some hfound
  rw [h.chooseLine_of_notMem (by rwa [htake]), hfound]
  refine ⟨h.insert hdata hshort hnet hmem hunused, fun other n hother => ?_, fun _ => ?_,
    fun hlate => ?_⟩
  · rw [withLine, Table.get?_insert, if_neg, hother]
    rintro rfl
    rw [hunused] at hother
    cases hother
  · exact ⟨found, rfl, Table.get?_insert_self ..⟩
  · rw [List.take_of_length_le (by rw [List.length_append, List.length_singleton]; omega)] at hlate
    exact (hlate (List.mem_append_right _ List.mem_cons_self)).elim

/-- A net that has its line keeps it. -/
theorem Serves.step_of_mem (h : lines.Serves data nets)
    (hcand : ∀ line, line ∈ candidates ↔ line ∈ data) (hnet : net ∈ nets.take 4) :
    lines.Step data nets net (chooseLine lines candidates net) := by
  obtain ⟨line, hchoice, hline⟩ := h.chooseLine_of_mem hcand hnet
  have hget (other : Wire) : (lines.withLine (some line) net).get? other = lines.get? other := by
    rw [withLine, Table.get?_insert]
    split
    · rename_i heq
      rw [← heq, hline]
    · rfl
  rw [hchoice]
  refine ⟨h.congr hget, fun other n hother => (hget other).trans hother, fun _ => ?_,
    fun hlate => ?_⟩
  · exact ⟨line, rfl, (hget line).trans hline⟩
  · exact (hlate hnet).elim

/-- A net that comes after four others gets no line. -/
theorem Serves.step_of_late (h : lines.Serves data nets)
    (hcand : ∀ line, line ∈ candidates ↔ line ∈ data) (hlong : 4 ≤ nets.length)
    (hnet : net ∉ nets.take 4) {later : List NetId}
    (hlater : later.take 4 = nets.take 4) :
    lines.Step data later net (chooseLine lines candidates net) := by
  have hnone : chooseLine lines candidates net = none := by
    have hfree := h.free
    rw [List.length_take, Nat.min_eq_left hlong] at hfree
    have hzero : lines.freeCount data = 0 := by omega
    rw [h.chooseLine_of_notMem hnet, List.find?_eq_none]
    exact fun line hline => List.countP_eq_zero.mp hzero line ((hcand line).mp hline)
  rw [hnone]
  refine ⟨⟨?_, ?_, h.once, ?_⟩, fun _ _ hother => hother, fun hearly => ?_, fun _ => rfl⟩
  · rw [hlater]
    exact h.carried
  · rw [hlater]
    exact h.served
  · rw [hlater]
    exact h.free
  · rw [hlater] at hearly
    exact (hnet hearly).elim

/-- One more net is served like those before it. -/
theorem Serves.step {seen : List NetId} (h : lines.Serves data seen.eraseDups) (hdata : data.Nodup)
    (hcand : ∀ line, line ∈ candidates ↔ line ∈ data) (net : NetId) :
    lines.Step data (seen ++ [net]).eraseDups net (chooseLine lines candidates net) := by
  rw [eraseDups_concat]
  split
  · rename_i hnet
    by_cases hearly : net ∈ seen.eraseDups.take 4
    · exact h.step_of_mem hcand hearly
    · refine h.step_of_late hcand ?_ hearly rfl
      by_contra hshort
      rw [List.take_of_length_le (by omega), List.mem_eraseDups] at hearly
      exact hearly hnet
  · rename_i hnet
    have hnew : net ∉ seen.eraseDups := by rwa [List.mem_eraseDups]
    by_cases hshort : seen.eraseDups.length < 4
    · exact h.step_of_lt hdata hcand hnew hshort
    · exact h.step_of_late hcand (by omega) (fun hmem => hnew (List.mem_of_mem_take hmem))
        (List.take_append_of_le_length (by omega))

end DataLines

end Device

end Fabric
