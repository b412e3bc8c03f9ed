import Fabric.Device.Basic
import Mathlib.Order.Defs.Unbundled

/-!
# Running edits

An edit is run step by step, and this module says what a run of each step is. Three kinds
of statement about runs are used throughout:

* an *equation* or an *inversion*: what an edit answers on a given model, and which model it
  leaves; `run_bind_of_ok` and `run_bind_eq_ok` compose and take apart such statements;
* `Edit.Answers P a Q`: from every model that satisfies `P` the edit answers `a`, and the model
  that it leaves satisfies `Q`;
* `Edit.Keeps R`: whatever an edit answers, the models before and after are related by `R`. A
  preorder passes through every control structure, so an edit keeps what its parts keep.

## Main results

* `run_bind_eq_ok`, `run_bind_of_ok`, `run_bind_of_error`: runs of a sequence;
* `Answers.bind`, `Answers.forM`, `Answers.mapM`: a loop whose steps advance a stage runs to the
  end;
* `Keeps.bind`, `Keeps.forM`, `Keeps.mapM`: what an edit keeps, from what its parts keep;
* `exists_run_mapM`, `run_mapM_eq_ok`: a loop succeeds if its steps do, and the run of one step
  among those of the others.
-/

namespace Fabric.Edit

variable {α β γ : Type}

/-! ### Runs of single steps -/

/-- A value is answered without a change. -/
@[simp] theorem run_pure (a : α) (d : Device) : (pure a : Edit α).run d = (.ok a, d) := rfl

/-- An error is answered without a change. -/
@[simp] theorem run_throw (e : Error) (d : Device) :
    (throw e : Edit α).run d = (.error e, d) := rfl

/-- A change is answered by nothing else than the changed model. -/
@[simp] theorem run_modify (f : Device → Device) (d : Device) :
    (modify f : Edit PUnit).run d = (.ok ⟨⟩, f d) := rfl

/-- A change with an answer answers it and changes the model. -/
@[simp] theorem run_modifyGet (f : Device → α × Device) (d : Device) :
    (modifyGet f : Edit α).run d = (.ok (f d).1, (f d).2) := rfl

/-- A value that is there is answered without a change. -/
@[simp] theorem run_require_some (a : α) (otherwise : Error) (d : Device) :
    (require (some a) otherwise).run d = (.ok a, d) := rfl

/-- An answer that was computed is given without a change. -/
@[simp] theorem run_ofExcept (answer : Except Error α) (d : Device) :
    (MonadExcept.ofExcept answer : Edit α).run d = (answer, d) := by
  cases answer <;> rfl

/-- A value that is not there is answered by the error, without a change. -/
@[simp] theorem run_require_none (otherwise : Error) (d : Device) :
    (require (none : Option α) otherwise).run d = (.error otherwise, d) := rfl

/-! ### Runs of a sequence -/

/-- A sequence runs its second part on what the first one leaves, unless that fails. -/
theorem run_bind (e : Edit α) (f : α → Edit β) (d : Device) :
    (e >>= f).run d =
      match e.run d with
      | (.ok a, mid) => (f a).run mid
      | (.error why, mid) => (.error why, mid) := by
  unfold run
  rw [ExceptT.run_bind]
  simp only [Bind.bind, StateT.bind]
  rcases ExceptT.run e d with ⟨_ | a, mid⟩ <;> rfl

/-- A sequence whose first part succeeds goes on with its second part. -/
theorem run_bind_of_ok {e : Edit α} {f : α → Edit β} {d mid : Device} {a : α}
    (h : e.run d = (.ok a, mid)) : (e >>= f).run d = (f a).run mid := by
  rw [run_bind, h]

/-- A sequence whose first part fails ends with its error. -/
theorem run_bind_of_error {e : Edit α} {f : α → Edit β} {d mid : Device} {why : Error}
    (h : e.run d = (.error why, mid)) : (e >>= f).run d = (.error why, mid) := by
  rw [run_bind, h]

/-- A sequence succeeds exactly when both of its parts do, one after the other. -/
theorem run_bind_eq_ok {e : Edit α} {f : α → Edit β} {d d' : Device} {b : β} :
    (e >>= f).run d = (.ok b, d') ↔
      ∃ a mid, e.run d = (.ok a, mid) ∧ (f a).run mid = (.ok b, d') := by
  rw [run_bind]
  constructor
  · intro h
    split at h
    · rename_i a mid he
      exact ⟨a, mid, he, h⟩
    · cases h
  · rintro ⟨a, mid, he, hf⟩
    rw [he]
    exact hf

/-- The model can be looked at first. -/
@[simp] theorem run_get_bind (f : Device → Edit β) (d : Device) :
    (get >>= f).run d = (f d).run d := rfl

/-- The model can be changed first. -/
@[simp] theorem run_modify_bind (g : Device → Device) (f : PUnit → Edit β) (d : Device) :
    ((modify g : Edit PUnit) >>= f).run d = (f ⟨⟩).run (g d) := rfl

/-! ### Edits that answer

Building a device never fails, and every answer on the way is known beforehand: the next node,
the next site. Such edits are followed forwards, from a condition on the model before to a
condition on the model after. -/

/-- From every model that satisfies `P` the edit answers `a`, and the model that it leaves
satisfies `Q`. -/
def Answers (e : Edit α) (P : Device → Prop) (a : α) (Q : Device → Prop) : Prop :=
  ∀ d, P d → ∃ d', e.run d = (.ok a, d') ∧ Q d'

namespace Answers

variable {P Q R : Device → Prop} {a : α} {b : β}

/-- A value is answered wherever the condition after follows from the one before. -/
protected theorem pure (h : ∀ d, P d → Q d) : (pure a : Edit α).Answers P a Q :=
  fun d hd => ⟨d, rfl, h d hd⟩

/-- A change answers wherever the condition after holds of the changed model. -/
protected theorem modify {f : Device → Device} (h : ∀ d, P d → Q (f d)) :
    (modify f : Edit PUnit).Answers P ⟨⟩ Q :=
  fun d hd => ⟨f d, rfl, h d hd⟩

/-- The parts of a sequence are followed one after the other. -/
protected theorem bind {e : Edit α} {f : α → Edit β} (he : e.Answers P a Q)
    (hf : (f a).Answers Q b R) : (e >>= f).Answers P b R := by
  intro d hd
  obtain ⟨mid, hrun, hmid⟩ := he d hd
  obtain ⟨d', hrun', hd'⟩ := hf mid hmid
  exact ⟨d', by rw [run_bind_of_ok hrun, hrun'], hd'⟩

/-- An edit that starts by looking at the model is followed for each model by itself. -/
theorem get_bind {f : Device → Edit β} (h : ∀ d, P d → (f d).Answers P b Q) :
    (get >>= f).Answers P b Q :=
  fun d hd => h d hd d hd

/-- An edit that starts by interning a string goes on with an identifier that stands for it. -/
theorem intern_bind {s : String} {f : Ident → Edit β}
    (hP : ∀ d, P d → P { d with interner := (d.interner.intern s).2 })
    (hf : ∀ i, (f i).Answers (fun d => d.interner.name? i = some s ∧ P d) b Q) :
    (intern s >>= f).Answers P b Q := by
  intro d hd
  rw [intern, run_bind_of_ok (run_modifyGet ..)]
  exact hf _ _ ⟨Interner.name?_intern_self d.interner s, hP d hd⟩

/-- The condition before may be strengthened, and the one after weakened. -/
theorem mono {e : Edit α} {P' Q' : Device → Prop} (he : e.Answers P a Q)
    (hP : ∀ d, P' d → P d) (hQ : ∀ d, Q d → Q' d) : e.Answers P' a Q' := by
  intro d hd
  obtain ⟨d', hrun, hd'⟩ := he d (hP d hd)
  exact ⟨d', hrun, hQ d' hd'⟩

/-- A loop is followed through stages: `I k` holds once `k` steps are done. -/
protected theorem forM {l : List β} {f : β → Edit PUnit} (I : Nat → Device → Prop)
    (step : ∀ k x, l[k]? = some x → (f x).Answers (I k) ⟨⟩ (I (k + 1))) :
    (forM l f).Answers (I 0) ⟨⟩ (I l.length) := by
  induction l generalizing I with
  | nil => exact .pure fun d hd => hd
  | cons x rest ih =>
      rw [List.forM_cons]
      exact .bind (step 0 x rfl) (ih (fun k => I (k + 1)) fun k y hy => step (k + 1) y hy)

/-- The same for a loop that collects an answer from each step. -/
protected theorem mapM {l : List β} {f : β → Edit γ} (g : β → γ) (I : Nat → Device → Prop)
    (step : ∀ k x, l[k]? = some x → (f x).Answers (I k) (g x) (I (k + 1))) :
    (l.mapM f).Answers (I 0) (l.map g) (I l.length) := by
  induction l generalizing I with
  | nil => exact .pure fun d hd => hd
  | cons x rest ih =>
      rw [List.mapM_cons]
      refine .bind (step 0 x rfl) ?_
      refine .bind (ih (fun k => I (k + 1)) fun k y hy => step (k + 1) y hy) ?_
      exact .pure fun d hd => hd

/-- A loop keeps what its steps keep. -/
theorem forM_const {l : List β} {f : β → Edit PUnit}
    (step : ∀ x ∈ l, (f x).Answers P ⟨⟩ P) : (forM l f).Answers P ⟨⟩ P :=
  .forM (fun _ => P) fun _ x hx => step x (List.mem_of_getElem? hx)

end Answers

/-! ### What edits keep -/

/-- Every run of an edit relates the model before it to the model after it. -/
def Keeps (R : Device → Device → Prop) (e : Edit α) : Prop := ∀ d, R d (e.run d).2

namespace Keeps

variable {R : Device → Device → Prop} [IsPreorder Device R]

/-- An edit that leaves every model as it is keeps every preorder. -/
theorem of_same {e : Edit α} (h : ∀ d, (e.run d).2 = d) : e.Keeps R := by
  intro d
  rw [h d]
  exact refl_of R d

/-- A value keeps every preorder. -/
protected theorem pure (a : α) : (pure a : Edit α).Keeps R := of_same fun _ => rfl

/-- An error keeps every preorder. -/
protected theorem throw (e : Error) : (throw e : Edit α).Keeps R := of_same fun _ => rfl

/-- Looking at the model keeps every preorder. -/
protected theorem get : (get : Edit Device).Keeps R := of_same fun _ => rfl

/-- A refusal keeps every preorder. -/
protected theorem misuse (why : Misuse) : (misuse why : Edit α).Keeps R := of_same fun _ => rfl

/-- Asking for a value keeps every preorder, whether it is there or not. -/
protected theorem require (value : Option α) (otherwise : Error) :
    (require value otherwise).Keeps R := by
  cases value with
  | none => exact of_same fun _ => rfl
  | some a => exact of_same fun _ => rfl

/-- An answer that was computed keeps every preorder. -/
protected theorem ofExcept (answer : Except Error α) :
    (MonadExcept.ofExcept answer : Edit α).Keeps R :=
  of_same fun d => by rw [run_ofExcept]

omit [IsPreorder Device R] in
/-- A change keeps a relation that holds between every model and the changed one. -/
protected theorem modify {f : Device → Device} (h : ∀ d, R d (f d)) :
    (modify f : Edit PUnit).Keeps R := h

omit [IsPreorder Device R] in
/-- A change with an answer keeps a relation as a change without one does. -/
protected theorem modifyGet {f : Device → α × Device} (h : ∀ d, R d (f d).2) :
    (modifyGet f : Edit α).Keeps R := h

/-- A sequence keeps what both of its parts keep. -/
protected theorem bind {e : Edit α} {f : α → Edit β} (he : e.Keeps R) (hf : ∀ a, (f a).Keeps R) :
    (e >>= f).Keeps R := by
  intro d
  rw [run_bind]
  have hd := he d
  split
  · rename_i a mid hrun
    rw [hrun] at hd
    exact trans_of R hd (hf a mid)
  · rename_i why mid hrun
    rw [hrun] at hd
    exact hd

/-- What is made of an answer does not matter. -/
protected theorem map (f : α → β) {e : Edit α} (he : e.Keeps R) : (f <$> e).Keeps R := by
  rw [map_eq_pure_bind]
  exact .bind he fun a => .pure (f a)

/-- A loop keeps what its steps keep. -/
protected theorem forM {l : List β} {f : β → Edit PUnit} (hf : ∀ x ∈ l, (f x).Keeps R) :
    (forM l f).Keeps R := by
  induction l with
  | nil => exact .pure PUnit.unit
  | cons x rest ih =>
      rw [List.forM_cons]
      exact .bind (hf x List.mem_cons_self) fun _ => ih fun y hy => hf y (List.mem_cons_of_mem x hy)

/-- A loop that collects answers keeps what its steps keep. -/
protected theorem mapM {l : List β} {f : β → Edit γ} (hf : ∀ x ∈ l, (f x).Keeps R) :
    (l.mapM f).Keeps R := by
  induction l with
  | nil => exact .pure []
  | cons x rest ih =>
      rw [List.mapM_cons]
      refine .bind (hf x List.mem_cons_self) fun _ => ?_
      exact .bind (ih fun y hy => hf y (List.mem_cons_of_mem x hy)) fun _ => .pure _

end Keeps

/-! ### Loops over different targets

The steps of a loop keep a relation, but for the step of one target: that step then starts from a
model that is related to the first one, and the last model is related to the one that it leaves. -/

section Loops

variable {R : Device → Device → Prop} [IsPreorder Device R] {l : List α} {f : α → Edit β}
  {d d' : Device}

/-- A loop runs to the end if each of its steps succeeds on every model that the
loop can lead to. -/
theorem exists_run_mapM (hkeep : ∀ x ∈ l, (f x).Keeps R)
    (h : ∀ x ∈ l, ∀ mid, R d mid → ∃ b mid', (f x).run mid = (.ok b, mid')) :
    ∃ bs d', (l.mapM f).run d = (.ok bs, d') := by
  induction l generalizing d with
  | nil => exact ⟨[], d, rfl⟩
  | cons x rest ih =>
      obtain ⟨b, mid, hrun⟩ := h x List.mem_cons_self d (refl_of R d)
      have hmid : R d mid := by
        have hx := hkeep x List.mem_cons_self d
        rwa [hrun] at hx
      obtain ⟨bs, d', hrest⟩ := ih (d := mid) (fun y hy => hkeep y (List.mem_cons_of_mem x hy))
        fun y hy later hlater => h y (List.mem_cons_of_mem x hy) later (trans_of R hmid hlater)
      refine ⟨b :: bs, d', ?_⟩
      rw [List.mapM_cons, run_bind_of_ok hrun, run_bind_of_ok hrest, run_pure]

/-- The step of a target in a loop that ran to the end. -/
theorem run_mapM_eq_ok {bs : List β} (hl : l.Nodup) {x : α} (hx : x ∈ l)
    (hkeep : ∀ y ∈ l, y ≠ x → (f y).Keeps R) (hrun : (l.mapM f).run d = (.ok bs, d')) :
    ∃ mid mid' b, R d mid ∧ (f x).run mid = (.ok b, mid') ∧ R mid' d' := by
  induction l generalizing d bs with
  | nil => cases hx
  | cons y rest ih =>
      rw [List.mapM_cons, run_bind_eq_ok] at hrun
      obtain ⟨b, mid, hstep, hrun⟩ := hrun
      obtain ⟨bs', d'', hrest, hlast⟩ := run_bind_eq_ok.mp hrun
      obtain ⟨-, rfl⟩ := Prod.mk.inj hlast
      obtain ⟨hnot, hrestNodup⟩ := List.nodup_cons.mp hl
      by_cases hxy : y = x
      · subst hxy
        have hafter : (rest.mapM f).Keeps R := .mapM fun z hz =>
          hkeep z (List.mem_cons_of_mem y hz) fun heq => hnot (heq ▸ hz)
        have hlater := hafter mid
        rw [hrest] at hlater
        exact ⟨d, mid, b, refl_of R d, hstep, hlater⟩
      · have hmem : x ∈ rest := (List.mem_cons.mp hx).resolve_left (Ne.symm hxy)
        have hbefore := hkeep y List.mem_cons_self hxy d
        rw [hstep] at hbefore
        obtain ⟨mid₁, mid₂, b', hfirst, hmiddle, hlater⟩ := ih hrestNodup hmem
          (fun z hz => hkeep z (List.mem_cons_of_mem y hz)) hrest
        exact ⟨mid₁, mid₂, b', trans_of R hbefore hfirst, hmiddle, hlater⟩

end Loops

end Fabric.Edit
