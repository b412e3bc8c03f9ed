import Fabric.Proofs.PackingTouches

/-!
# Packing again

A touch hides an earlier one of the same part, and it can be moved past touches of other parts. So
touches that are made again change nothing, however many of them are of one part: what counts for a
part is the last touch of it, which is the same one the second time.

A packing call makes the same touches whenever it is made. Made twice in a row it leaves what it
left at first, but for the records, and this holds of calls that fail as well.

## Main results

* `Touch.apply_hides`: a touch hides another one of the same part;
* `Device.after_after_of_subset`: touches leave no trace if they are made again later;
* `PackingCall.exists_run_again`: a packing call made twice leaves what it left at first.
-/

namespace Fabric

/-- Of two changes at one place of an array the first is lost if the second hides it. -/
theorem modify_modify_of_hides {α : Type} (xs : Array α) {f g : α → α} {i : Nat}
    (h : ∀ a, g (f a) = g a) : (xs.modify i f).modify i g = xs.modify i g := by
  apply Array.ext_getElem?
  intro k
  simp only [Array.getElem?_modify]
  split
  · rw [Option.map_map]
    exact congrArg (Option.map · _) (funext h)
  · rfl

/-- The reservation of a wire hides the one it had. -/
theorem WireInfo.withPlace_withPlace (info : WireInfo) (hidden place : Option (Fin 256)) :
    (info.withPlace hidden).withPlace place = info.withPlace place := by
  have hbare := info.bare_withPlace hidden
  cases place with
  | none => exact hbare
  | some i =>
    have hflags (later : WireInfo) : later.withPlace (some i) =
        { later.bare with flags := later.bare.flags ||| reservedFlag ||| (i : Nat).toUInt64 } :=
      rfl
    rw [hflags, hbare, hflags]

/-- The last mode of an ALM hides the one before. -/
theorem Lab.withMode_withMode (l : Lab) (alm : Nat) (hidden fused : Bool) :
    (l.withMode alm hidden).withMode alm fused = l.withMode alm fused := by
  have halms := modify_modify_of_hides l.alms (i := alm) (f := fun a => { a with fused := hidden })
    (g := fun a => { a with fused := fused }) fun _ => rfl
  rw [withMode, withMode, halms, withMode]

/-! ### Touches of the same part -/

namespace Touch

variable {t u : Touch}

/-- What is not apart is written to the same wires, so the first write is hidden. -/
theorem get?_onWires_hides (h : ¬ t.Apart u) (g : WireGraph) :
    (u.onWires (t.onWires g)).get? = (u.onWires g).get? := by
  cases t with
  | wire w hidden =>
    cases u with
    | wire w' place =>
      obtain rfl : w = w' := not_not.mp h
      funext v
      simp only [onWires, WireGraph.get?_modify, if_true]
      split
      · rw [Option.map_map]
        exact congrArg (Option.map · _) (funext fun info => info.withPlace_withPlace hidden place)
      · rfl
    | _ => exact absurd trivial h
  | _ => rfl

/-- What is not apart is written to the same cells, so the first write is hidden. -/
theorem onNetlist_hides (h : ¬ t.Apart u) (nl : Netlist) :
    u.onNetlist (t.onNetlist nl) = u.onNetlist nl := by
  cases t with
  | cell id hidden half =>
    cases u with
    | cell id' plan half' =>
      obtain rfl : id = id' := not_not.mp h
      exact congrArg (fun cells => { nl with cells := cells }) (modify_modify_of_hides nl.cells
        fun c => Edit.applyLutPlan_applyLutPlan hidden plan half half' c)
    | _ => exact absurd trivial h
  | _ => rfl

/-- What is not apart is written to the same LAB, so the first write is hidden. -/
theorem onLabs_hides (h : ¬ t.Apart u) (labs : Array Lab) :
    u.onLabs (t.onLabs labs) = u.onLabs labs := by
  cases t with
  | slots lab hidden =>
    cases u with
    | slots lab' bound =>
      obtain rfl : lab = lab' := not_not.mp h
      exact modify_modify_of_hides labs fun _ => rfl
    | _ => exact absurd trivial h
  | mode lab alm hidden =>
    cases u with
    | mode lab' alm' fused =>
      obtain ⟨rfl, rfl⟩ : lab = lab' ∧ alm = alm' := not_not.mp h
      exact modify_modify_of_hides labs fun l => l.withMode_withMode alm hidden fused
    | _ => exact absurd trivial h
  | _ => rfl

/-- A touch hides another one of the same part. -/
theorem apply_hides (h : ¬ t.Apart u) (d : Device) :
    (u.apply d).SameButRecords (u.apply (t.apply d)) where
  design := by
    have hdesign (d : Device) : (u.apply d).design =
        { d.design with netlist := u.onNetlist d.netlist, labs := u.onLabs d.labs } := rfl
    have hdesign' : (t.apply d).design =
        { d.design with netlist := t.onNetlist d.netlist, labs := t.onLabs d.labs } := rfl
    have hnetlist : u.onNetlist (t.apply d).netlist = u.onNetlist d.netlist := onNetlist_hides h _
    have hlabs : u.onLabs (t.apply d).labs = u.onLabs d.labs := onLabs_hides h _
    rw [hdesign, hdesign, hdesign', hnetlist, hlabs]
  order := by
    show (u.onWires (t.onWires d.wires)).order = (u.onWires d.wires).order
    simp only [order_onWires]
  get? := get?_onWires_hides h d.wires

/-- A touch is of the same part as itself, unless it is a record. -/
theorem not_apart_self_or (t : Touch) : ¬ t.Apart t ∨ ∃ entry, t = .record entry := by
  cases t with
  | record entry => exact .inr ⟨entry, rfl⟩
  | mode lab alm fused => exact .inl fun h => h ⟨rfl, rfl⟩
  | _ => exact .inl fun h => h rfl

end Touch

/-! ### Touches made again -/

namespace Device

/-- A touch leaves no trace if it is hidden later. -/
theorem after_apply_of_hidden {t : Touch} {ts : List Touch} (h : ∃ u ∈ ts, ¬ t.Apart u)
    (d : Device) :
    (d.after ts).SameButRecords ((t.apply d).after ts) := by
  induction ts generalizing d with
  | nil => exact absurd h (by simp)
  | cons u rest ih =>
    by_cases hu : t.Apart u
    · have hrest : ∃ v ∈ rest, ¬ t.Apart v := by
        obtain ⟨v, hv, hsame⟩ := h
        rcases List.mem_cons.mp hv with rfl | hv
        · exact absurd hu hsame
        · exact ⟨v, hv, hsame⟩
      exact (ih hrest (u.apply d)).trans ((Touch.apply_comm hu d).sameButRecords.after rest)
    · exact (Touch.apply_hides hu d).after rest

/-- A touch leaves no trace if it is made again later. -/
theorem after_apply_of_mem {t : Touch} {ts : List Touch} (h : t ∈ ts) (d : Device) :
    (d.after ts).SameButRecords ((t.apply d).after ts) := by
  rcases t.not_apart_self_or with hself | ⟨entry, rfl⟩
  · exact after_apply_of_hidden ⟨t, h, hself⟩ d
  · have hrecord : d.SameButRecords ((Touch.record entry).apply d) := ⟨rfl, rfl, rfl⟩
    exact hrecord.after ts

/-- Touches leave no trace if all of them are made again later. -/
theorem after_after_of_subset {us ts : List Touch} (h : us ⊆ ts) (d : Device) :
    (d.after ts).SameButRecords ((d.after us).after ts) := by
  induction us generalizing d with
  | nil => exact .refl _
  | cons t rest ih =>
    obtain ⟨ht, hrest⟩ := List.cons_subset.mp h
    exact (after_apply_of_mem ht d).trans (ih hrest (t.apply d))

end Device

/-- A packing call that is made twice in a row answers the same, and leaves what it left at first
but for the records. -/
theorem PackingCall.exists_run_again (call : PackingCall) (d : Device) :
    ∃ answer d' d'', call.edit.run d = (answer, d') ∧ call.edit.run d' = (answer, d'') ∧
      d'.SameButRecords d'' := by
  obtain ⟨answer, ts, -, -, hrun⟩ := call.traced d
  exact ⟨answer, d.after ts, (d.after ts).after ts, hrun d (.refl d), hrun _ (.of_after ts d),
    Device.after_after_of_subset (List.Subset.refl ts) d⟩

end Fabric
