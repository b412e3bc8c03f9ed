import Fabric.Proofs.Operations

/-!
# Applying an input plan

Applying the plan of an ALM first changes the design: the mode of the ALM, and the site pins of
its LUT cells. `Device.planned` is the model after that. What follows are reservations, so the
design stays the planned one.

## Main results

* `run_reassignInputs_eq_ok`: a successful run leaves the planned design;
* `cell?_planned`: what the planned netlist holds for the LUT cells of the ALM.
-/

namespace Fabric

open Device (syntheticNode)

namespace Device

/-- The netlist after the LUT cell of a half, if there is one, was planned. -/
def planHalf (plan : InputPlan) (luts : Halves (Option CellId)) (nl : Netlist) (half : Half) :
    Netlist :=
  match luts.get half with
  | none => nl
  | some id => nl.modifyCell id (Edit.applyLutPlan plan half)

/-- The model after the mode of an ALM and its LUT cells were planned. -/
def planned (d : Device) (lab alm : Nat) (plan : InputPlan) (luts : Halves (Option CellId)) :
    Device :=
  { d with
    labs := d.labs.modify lab fun l => { l with
      alms := l.alms.modify alm fun a => { a with fused := plan.fused } }
    netlist := Half.all.foldl (planHalf plan luts) d.netlist }

/-- An ALM with a plan exists. -/
theorem exists_alm_of_planAlm? {d : Device} {lab alm : Nat} {plan : InputPlan}
    (h : d.planAlm? lab alm = some plan) :
    ∃ info a, d.labs[lab]? = some info ∧ info.alms[alm]? = some a ∧ d.alm? lab alm = some a ∧
      InputPlan.ofDemand? (d.almDemand a) = some plan := by
  obtain ⟨a, ha, hplan⟩ := Option.bind_eq_some_iff.mp h
  obtain ⟨info, hinfo, hget⟩ := Option.bind_eq_some_iff.mp ha
  exact ⟨info, a, hinfo, hget, ha, hplan⟩

/-- The mode of a planned ALM. -/
theorem alm?_of_planned {d d' : Device} {lab alm : Nat} {a : Alm} {plan : InputPlan}
    {luts : Halves (Option CellId)} (ha : d.alm? lab alm = some a)
    (hsame : SameDesign (d.planned lab alm plan luts) d') :
    d'.alm? lab alm = some { a with fused := plan.fused } := by
  obtain ⟨info, hinfo, hget⟩ := Option.bind_eq_some_iff.mp ha
  rw [alm?, hsame.labs, planned, Array.getElem?_modify, if_pos rfl, hinfo, Option.map_some,
    Option.bind_some, Array.getElem?_modify, if_pos rfl, hget, Option.map_some]

/-- The LUT cell of a half is planned for that half, and for it alone if the other half holds
another cell. -/
theorem cell?_planned {d : Device} {lab alm : Nat} {plan : InputPlan}
    {luts : Halves (Option CellId)}
    (hne : ∀ half other id, luts.get half = some id → luts.get other = some id → half = other)
    {half : Half} {id : CellId} (hid : luts.get half = some id) :
    (d.planned lab alm plan luts).netlist.cell? id =
      (d.netlist.cell? id).map (Edit.applyLutPlan plan half) := by
  have hstep (nl : Netlist) (other : Half) : (planHalf plan luts nl other).cell? id =
      if other = half then (nl.cell? id).map (Edit.applyLutPlan plan half) else nl.cell? id := by
    rw [planHalf]
    cases hother : luts.get other with
    | none =>
        rw [if_neg]
        rintro rfl
        rw [hid] at hother
        cases hother
    | some id' =>
        dsimp only
        rw [Netlist.cell?_modifyCell]
        by_cases hsame : id' = id
        · subst hsame
          obtain rfl := hne other half id' hother hid
          rw [if_pos rfl, if_pos rfl]
        · rw [if_neg hsame, if_neg]
          rintro rfl
          exact hsame (Option.some.inj (hother.symm.trans hid))
  simp only [planned, Half.all, List.foldl_cons, List.foldl_nil, hstep]
  cases half <;> simp

end Device

namespace Edit

/-! ### Runs -/

/-- Reserves the E/F selectors and the data inputs of an ALM as planned. -/
def routeInputs (pos : Pos) (alm : Nat) (a : Alm) (plan : InputPlan) : Edit Unit := do
  Half.all.forM fun half =>
    reserveSelector pos alm (a.efSelector.get half) (plan.efPins.get half)
  Half.all.forM fun half => do
    reserveData (a.combOut.get half) (a.efSelector.get half) (a.ffIn.get half).1
      (plan.flopSource.get half).1
    reserveData (a.combOut.get half) (a.efSelector.get half) (a.ffIn.get half).2
      (plan.flopSource.get half).2

/-- Routing the inputs of an ALM keeps the design. -/
theorem keeps_routeInputs (pos : Pos) (alm : Nat) (a : Alm) (plan : InputPlan) :
    (routeInputs pos alm a plan).Keeps SameDesign :=
  .bind (.forM fun _ _ => keeps_reserveSelector _ _ _ _) fun _ =>
    .forM fun _ _ => .bind (keeps_reserveData _ _ _ _) fun _ => keeps_reserveData _ _ _ _

/-- The planned pins are recorded half by half. -/
theorem run_forM_planHalf (plan : InputPlan) (luts : Halves (Option CellId)) (halves : List Half)
    (d : Device) : (halves.forM fun half => (luts.get half).forM fun id =>
      (modify fun d => { d with
        netlist := d.netlist.modifyCell id (applyLutPlan plan half) } : Edit Unit)).run d =
      (.ok (), { d with netlist := halves.foldl (Device.planHalf plan luts) d.netlist }) := by
  induction halves generalizing d with
  | nil => rfl
  | cons half rest ih =>
      have hstep : ((luts.get half).forM fun id => (modify fun d => { d with
          netlist := d.netlist.modifyCell id (applyLutPlan plan half) } : Edit Unit)).run d =
          (.ok (), { d with netlist := Device.planHalf plan luts d.netlist half }) := by
        rw [Device.planHalf]
        cases luts.get half <;> rfl
      exact (run_bind_of_ok hstep).trans (ih _)

/-- The plan is applied to the design first; then come the reservations. -/
theorem run_reassignInputs {d : Device} {lab alm : Nat} {plan : InputPlan} {info : Lab} {a : Alm}
    (hplan : d.planAlm? lab alm = some plan) (hinfo : d.labs[lab]? = some info)
    (ha : d.alm? lab alm = some a) : (reassignInputs lab alm).run d =
      (routeInputs info.pos alm a plan).run (d.planned lab alm plan (d.lutCells a)) := by
  rw [reassignInputs, run_get_bind]
  simp only [hplan, hinfo, ha]
  rw [run_modify_bind, run_bind_of_ok (run_forM_planHalf plan (d.lutCells a) Half.all _)]
  rfl

/-- Without a plan nothing is changed. -/
theorem run_reassignInputs_of_none {d : Device} {lab alm : Nat}
    (hplan : d.planAlm? lab alm = none) :
    (reassignInputs lab alm).run d = (.error (.illegalAlm lab alm), d) := by
  rw [reassignInputs, run_get_bind]
  simp only [hplan]
  rfl

/-- A successful run leaves the planned design. -/
theorem run_reassignInputs_eq_ok {d d' : Device} {lab alm : Nat}
    (h : (reassignInputs lab alm).run d = (.ok (), d')) :
    ∃ plan info a, d.planAlm? lab alm = some plan ∧ d.labs[lab]? = some info ∧
      info.alms[alm]? = some a ∧ SameDesign (d.planned lab alm plan (d.lutCells a)) d' := by
  cases hplan : d.planAlm? lab alm with
  | none =>
      rw [run_reassignInputs_of_none hplan] at h
      cases h
  | some plan =>
      obtain ⟨info, a, hinfo, hget, ha, -⟩ := Device.exists_alm_of_planAlm? hplan
      have hkeep := keeps_routeInputs info.pos alm a plan (d.planned lab alm plan (d.lutCells a))
      rw [← run_reassignInputs hplan hinfo ha, h] at hkeep
      exact ⟨plan, info, a, rfl, hinfo, hget, hkeep⟩

end Edit

end Fabric
