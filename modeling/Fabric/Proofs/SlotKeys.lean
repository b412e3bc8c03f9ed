import Fabric.Device.Control
import Mathlib.Data.Finset.Card
import Mathlib.Data.List.Induction

/-!
# Slots and distinct keys

Binding the control signals of some flip-flops is a fold in a fold that can stop early. Its
outcome depends on one thing only: how many different slot keys there are in each category.

## Main results

* `bindSets_eq_ok`: bound slots hold the different keys, in order of first occurrence;
* `bindSets_eq_error`: binding stops at a category that has too many keys;
* `isOk_bindSets_iff`: it succeeds exactly when every category has few enough.
-/

namespace Fabric

/-! ### Lists without repetitions -/

/-- An element at the end is kept when it has not occurred before. -/
theorem eraseDups_concat {α : Type} [DecidableEq α] (l : List α) (a : α) :
    (l ++ [a]).eraseDups = if a ∈ l then l.eraseDups else l.eraseDups ++ [a] := by
  rw [List.eraseDups_append]
  by_cases ha : a ∈ l <;> simp [ha, List.removeAll, List.eraseDups_cons]

/-- A list without repetitions has none. -/
theorem nodup_eraseDups {α : Type} [DecidableEq α] (l : List α) : l.eraseDups.Nodup := by
  induction l using List.reverseRecOn with
  | nil => exact List.nodup_nil
  | append_singleton l a ih =>
      rw [eraseDups_concat]
      split
      · exact ih
      · rename_i ha
        exact ih.append (List.nodup_singleton a) (by simpa using ha)

/-- The different entries of a list are as many as its set of entries has elements. -/
theorem length_eraseDups {α : Type} [DecidableEq α] (l : List α) :
    l.eraseDups.length = l.toFinset.card := by
  rw [← List.toFinset_card_of_nodup (nodup_eraseDups l)]
  congr 1
  ext a
  simp

/-- A count falls by one when one of the entries that it counts does not count any more. -/
theorem countP_add_one {α : Type} [DecidableEq α] {before after : α → Bool} {l : List α} {a : α}
    (hnodup : l.Nodup) (ha : a ∈ l) (hbefore : before a = true) (hafter : after a = false)
    (hsame : ∀ b ≠ a, after b = before b) : l.countP after + 1 = l.countP before := by
  have hperm := List.perm_cons_erase ha
  have hrest : (l.erase a).countP after = (l.erase a).countP before :=
    List.countP_congr fun b hb => by rw [hsame b (hnodup.mem_erase_iff.mp hb).1]
  rw [hperm.countP_eq after, hperm.countP_eq before, List.countP_cons_of_pos hbefore,
    List.countP_cons_of_neg (by rw [hafter]; exact Bool.false_ne_true), hrest]

/-! ### Signals one after the other -/

/-- The slot keys of a category among the connected signals of some control sets, in order. -/
def ControlKind.keys (kind : ControlKind) (sets : List ControlSet) : List ControlSignal :=
  ((sets.map (ByKind.get · kind)).filter (·.net.isSome)).map kind.slotKey

namespace Device

/-- The signals of some control sets, each with its category. -/
def signals (sets : List ControlSet) : List (ControlKind × ControlSignal) :=
  sets.flatMap fun set => ControlKind.all.map fun kind => (kind, set.get kind)

/-- The slot keys of a category among some signals. -/
def keysAmong (kind : ControlKind) (ps : List (ControlKind × ControlSignal)) :
    List ControlSignal :=
  (((ps.filter (·.1 = kind)).map Prod.snd).filter (·.net.isSome)).map kind.slotKey

/-- The keys among the signals of control sets are those of the sets. -/
theorem keysAmong_signals (kind : ControlKind) (sets : List ControlSet) :
    keysAmong kind (signals sets) = kind.keys sets := by
  have h : ((signals sets).filter (·.1 = kind)).map Prod.snd = sets.map (ByKind.get · kind) := by
    induction sets with
    | nil => rfl
    | cons set rest ih =>
        rw [signals, List.flatMap_cons, ← signals, List.filter_append, List.map_append, ih]
        cases kind <;> rfl
  rw [keysAmong, h, ControlKind.keys]

/-- Binds one signal of a category, unless it is open. -/
def bindOne (slots : ControlSlots) (p : ControlKind × ControlSignal) :
    Except ControlKind ControlSlots :=
  bindSignal (.const p.2) slots p.1

/-- Binding the sets is binding their signals one by one. -/
theorem bindSets_eq_foldlM (sets : List ControlSet) :
    bindSets sets = (signals sets).foldlM bindOne .free := by
  rw [bindSets]
  generalize ControlSlots.free = slots
  induction sets generalizing slots with
  | nil => rfl
  | cons set rest ih =>
      have hone (slots : ControlSlots) (kind : ControlKind) :
          bindOne slots (kind, set.get kind) = bindSignal set slots kind := by
        simp only [bindOne, bindSignal, ByKind.get_const]
      rw [List.foldlM_cons, signals, List.flatMap_cons, ← signals, List.foldlM_append,
        List.foldlM_map]
      simp only [hone, ih]

/-- What bound slots hold: the different keys of each category, which fit its slots. -/
def Holds (slots : ControlSlots) (keys : ControlKind → List ControlSignal) : Prop :=
  ∀ kind, slots.get kind = (keys kind).eraseDups ∧ (keys kind).eraseDups.length ≤ kind.limit

/-- A signal at the end adds its key to those of its kind, if it has a net. -/
theorem keysAmong_concat (kind other : ControlKind) (signal : ControlSignal)
    (ps : List (ControlKind × ControlSignal)) :
    keysAmong other (ps ++ [(kind, signal)]) =
      if kind = other ∧ signal.net.isSome then keysAmong other ps ++ [kind.slotKey signal]
      else keysAmong other ps := by
  by_cases hk : kind = other
  · subst hk
    by_cases hs : signal.net.isSome = true <;> simp [keysAmong, hs]
  · simp [keysAmong, hk]

/-- One more signal is bound unless its key is new and its category full. -/
theorem bindOne_spec {slots : ControlSlots} {ps : List (ControlKind × ControlSignal)}
    (h : Holds slots fun kind => keysAmong kind ps) (p : ControlKind × ControlSignal) :
    match bindOne slots p with
    | .ok slots => Holds slots fun kind => keysAmong kind (ps ++ [p])
    | .error kind => kind.limit < (keysAmong kind (ps ++ [p])).eraseDups.length := by
  obtain ⟨kind, signal⟩ := p
  have hkeys (other : ControlKind) : slots.get other = (keysAmong other ps).eraseDups ∧
      (keysAmong other ps).eraseDups.length ≤ other.limit := h other
  rw [bindOne, bindSignal]
  simp only [ByKind.get_const, keysAmong_concat]
  cases hnet : signal.net with
  | none => simpa using h
  | some net =>
      simp only [Option.isNone_some, Option.isSome_some, and_true, Bool.false_eq_true, if_false]
      cases hbind : slots.bind? kind (kind.slotKey signal) with
      | none =>
          -- The key is new and its category is full, so there is one key too many.
          obtain ⟨hnew, hfull⟩ := (ControlSlots.bind?_eq_none_iff ..).mp hbind
          rw [(hkeys kind).1, List.mem_eraseDups] at hnew
          rw [(hkeys kind).1] at hfull
          simp only [if_true, eraseDups_concat, hnew, if_false, List.length_append,
            List.length_singleton]
          omega
      | some bound =>
          obtain ⟨slot, slots'⟩ := bound
          intro other
          have hget := ControlSlots.bound_bind hbind other
          by_cases hother : kind = other
          · subst hother
            rw [hget, (hkeys kind).1]
            simp only [true_and, if_true, List.mem_eraseDups, eraseDups_concat]
            by_cases hmem : kind.slotKey signal ∈ keysAmong kind ps
            · simpa [hmem] using (hkeys kind).2
            -- A new key that was bound found its category not full.
            · have hroom : ¬ kind.limit ≤ (slots.get kind).length := fun hfull => by
                have hnone := (ControlSlots.bind?_eq_none_iff slots kind (kind.slotKey signal)).mpr
                  ⟨by rwa [(hkeys kind).1, List.mem_eraseDups], hfull⟩
                rw [hnone] at hbind
                cases hbind
              rw [(hkeys kind).1] at hroom
              simp only [hmem, not_false_eq_true, if_true, if_false, List.length_append,
                List.length_singleton, true_and]
              omega
          · simp only [hother, false_and, if_false] at hget ⊢
            rw [hget]
            exact hkeys other

/-- Signals are bound one after the other as long as they fit. -/
theorem foldlM_bindOne_spec (ps : List (ControlKind × ControlSignal)) :
    match ps.foldlM bindOne .free with
    | .ok slots => Holds slots fun kind => keysAmong kind ps
    | .error kind => kind.limit < (keysAmong kind ps).eraseDups.length := by
  induction ps using List.reverseRecOn with
  | nil =>
      intro kind
      exact ⟨ByKind.get_const [] kind, Nat.zero_le _⟩
  | append_singleton ps p ih =>
      rw [List.foldlM_append]
      cases hps : ps.foldlM bindOne .free with
      | ok slots =>
          rw [hps] at ih
          have hspec := bindOne_spec ih p
          simp only [List.foldlM_cons, List.foldlM_nil, bind_pure]
          exact hspec
      | error kind =>
          rw [hps] at ih
          obtain ⟨other, signal⟩ := p
          show kind.limit < _
          rw [keysAmong_concat]
          split
          · rw [eraseDups_concat]
            split
            · exact ih
            · rw [List.length_append]
              exact Nat.lt_add_right _ ih
          · exact ih

/-! ### Control sets -/

/-- Slots that are bound hold the different keys of each category, in order of first occurrence,
and these fit. -/
theorem bindSets_eq_ok {sets : List ControlSet} {slots : ControlSlots}
    (h : bindSets sets = .ok slots) (kind : ControlKind) :
    slots.get kind = (kind.keys sets).eraseDups ∧
      (kind.keys sets).toFinset.card ≤ kind.limit := by
  have hspec := foldlM_bindOne_spec (signals sets)
  rw [← bindSets_eq_foldlM, h] at hspec
  rw [← keysAmong_signals, ← length_eraseDups]
  exact hspec kind

/-- Binding stops at a category that has too many keys. -/
theorem bindSets_eq_error {sets : List ControlSet} {kind : ControlKind}
    (h : bindSets sets = .error kind) : kind.limit < (kind.keys sets).toFinset.card := by
  have hspec := foldlM_bindOne_spec (signals sets)
  rw [← bindSets_eq_foldlM, h] at hspec
  rw [← keysAmong_signals, ← length_eraseDups]
  exact hspec

/-- Binding succeeds exactly when every category has few enough keys. -/
theorem isOk_bindSets_iff (sets : List ControlSet) :
    (bindSets sets).isOk = true ↔
      ∀ kind : ControlKind, (kind.keys sets).toFinset.card ≤ kind.limit := by
  cases h : bindSets sets with
  | ok slots => simp [Except.isOk, Except.toBool, fun kind => (bindSets_eq_ok h kind).2]
  | error kind =>
      simp only [Except.isOk, Except.toBool, Bool.false_eq_true, false_iff, not_forall, not_le]
      exact ⟨kind, bindSets_eq_error h⟩

end Device

end Fabric
