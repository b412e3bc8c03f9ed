import Fabric.Proofs.Footprints
import Fabric.Proofs.LutMask

/-!
# Runs of the preparation for routing

Preparation assigns the control sets of every LAB and then plans every ALM that holds a cell. The
calls for one LAB or ALM spare all the others, so what is true when the call for a target returns is
true at the end, and what a call demands can be said of the model at the start.

## Main results

* `exists_run_preRoute`, `isLabLegal_of_preRoute`, `exists_plan_of_preRoute`: preparation succeeds
  exactly when every LAB is legal and every ALM that holds a cell has a plan;
* `run_preRoute_assignControlSets`, `run_preRoute_alm`: the step of one LAB or ALM in a preparation
  that succeeds;
* `exists_lutMask_of_preRoute`: afterwards every ALM has a truth table.
-/

namespace Fabric

namespace Edit

open Device (IsState Repacked SparesAlm SparesControl)

variable {d d' : Device} {lab alm : Nat}

/-! ### Runs that succeed -/

/-- A plan can be applied on any state of a device. -/
theorem exists_run_reassignInputs_of_isState (hd : d.IsState)
    (hplan : (d.planAlm? lab alm).isSome) :
    ∃ d', (reassignInputs lab alm).run d = (.ok (), d') := by
  obtain ⟨plan, hplan⟩ := Option.isSome_iff_exists.mp hplan
  obtain ⟨info, a, hinfo, ha, -, -⟩ := Device.exists_alm_of_planAlm? hplan
  obtain ⟨x, y, h⟩ := hd.exists_hasLab hinfo
  obtain ⟨d', hrun, -⟩ := exists_run_reassignInputs hinfo h ha hplan
  exact ⟨d', hrun⟩

/-- The preparation of an ALM succeeds when a plan exists for the ALM, or the ALM is empty. -/
theorem exists_run_preRouteAlm (hd : d.IsState)
    (hplan : (d.alm? lab alm).any (isOccupied d) = true → (d.planAlm? lab alm).isSome) :
    ∃ used d', (preRouteAlm lab alm).run d = (.ok used, d') := by
  rw [preRouteAlm, run_get_bind]
  split
  · rename_i hoccupied
    obtain ⟨d', hrun⟩ := exists_run_reassignInputs_of_isState hd (hplan hoccupied)
    exact ⟨true, d', by rw [run_bind_of_ok hrun, run_pure]⟩
  · exact ⟨false, d, rfl⟩

/-- The control sets of a legal LAB can be assigned. -/
theorem exists_run_assignControlSets (hd : d.IsState) (hlt : lab < d.labs.size)
    (hlegal : d.isLabLegal lab = true) : ∃ d', (assignControlSets lab).run d = (.ok (), d') := by
  have hlab : d.labs[lab]? = some d.labs[lab] := Array.getElem?_eq_getElem hlt
  obtain ⟨x, y, h⟩ := hd.exists_hasLab hlab
  cases hslots : d.controlSlots d.labs[lab] with
  | error kind => simp [Device.isLabLegal, hlab, hslots, Except.isOk, Except.toBool] at hlegal
  | ok slots =>
      obtain ⟨d', hrun, -⟩ := exists_assigned hlab h hslots
      exact ⟨d', hrun⟩

/-- A LAB can be prepared if it is legal and each of its ALMs that holds a cell has a plan. -/
theorem exists_run_preRouteLab (hd : d.IsState) (hlt : lab < d.labs.size)
    (hlegal : d.isLabLegal lab = true)
    (hplan : ∀ alm < Chip.almsPerLab, (d.alm? lab alm).any (isOccupied d) = true →
      (d.planAlm? lab alm).isSome) :
    ∃ used d', (preRouteLab lab).run d = (.ok used, d') := by
  obtain ⟨mid, hassign⟩ := exists_run_assignControlSets hd hlt hlegal
  have hrep := repacks_assignControlSets lab d
  rw [hassign] at hrep
  have hkeep (alm : Nat) : (preRouteAlm lab alm).Keeps Repacked :=
    keeps_preRouteAlm (repacks_reassignInputs lab alm)
  obtain ⟨used, d', hrun⟩ := exists_run_mapM (l := List.range Chip.almsPerLab) (d := mid)
    (fun alm _ => hkeep alm) fun alm halm later hlater => by
      have h := hrep.trans hlater
      refine exists_run_preRouteAlm (h.isState hd) fun hoccupied => ?_
      rw [h.any_isOccupied_eq] at hoccupied
      rw [h.planAlm?_eq]
      exact hplan alm (List.mem_range.mp halm) hoccupied
  exact ⟨used.any id,
    d', by rw [preRouteLab_eq, run_bind_of_ok hassign, run_bind_of_ok hrun, run_pure]⟩

/-- A design can be prepared if every LAB is legal and every ALM that holds a cell has a plan. -/
theorem exists_run_preRoute (hd : d.IsState) (hlegal : ∀ lab < d.labs.size, d.isLabLegal lab = true)
    (hplan : ∀ lab < d.labs.size, ∀ alm < Chip.almsPerLab,
      (d.alm? lab alm).any (isOccupied d) = true → (d.planAlm? lab alm).isSome) :
    ∃ d', preRoute.run d = (.ok (), d') := by
  obtain ⟨used, d', hrun⟩ := exists_run_mapM (l := List.range d.labs.size) (d := d)
    (fun lab _ => repacks_preRouteLab lab) fun lab hlab mid h => by
      have hlt := List.mem_range.mp hlab
      refine exists_run_preRouteLab (h.isState hd) (h.size_labs_eq ▸ hlt) ?_
        fun alm halm hoccupied => ?_
      · rw [h.isLabLegal_eq]
        exact hlegal lab hlt
      · rw [h.any_isOccupied_eq] at hoccupied
        rw [h.planAlm?_eq]
        exact hplan lab hlt alm halm hoccupied
  exact ⟨_, by rw [preRoute, run_get_bind, run_bind_of_ok hrun]; rfl⟩

/-! ### The step of one target -/

/-- Writing a record spares every ALM. -/
theorem sparesAlm_log (record : Diagnostic) : (log record).Keeps (SparesAlm lab alm) :=
  .modify fun d =>
    ⟨.of_sameDesign (SameDesign.diagnostics d _), fun _ => rfl, fun _ _ _ _ _ _ => rfl,
    fun _ _ _ _ _ => rfl⟩

/-- Writing a record spares the control wires. -/
theorem sparesControl_log (record : Diagnostic) : (log record).Keeps (SparesControl lab) :=
  .modify fun d => ⟨.of_sameDesign (SameDesign.diagnostics d _), fun _ => rfl, fun _ _ _ => rfl⟩

/-- The preparation of one LAB in a preparation that succeeds. -/
theorem run_preRoute_lab {R : Device → Device → Prop} [IsPreorder Device R]
    (hlog : ∀ record, (log record).Keeps R)
    (hkeep : ∀ other, other ≠ lab → (preRouteLab other).Keeps R)
    (hlab : lab < d.labs.size) (hrun : preRoute.run d = (.ok (), d')) :
    ∃ mid mid' used, R d mid ∧ (preRouteLab lab).run mid = (.ok used, mid') ∧ R mid' d' := by
  rw [preRoute, run_get_bind, run_bind_eq_ok] at hrun
  obtain ⟨bs, last, hloop, hlast⟩ := hrun
  obtain ⟨mid, mid', used, hbefore, hstep, hafter⟩ := run_mapM_eq_ok List.nodup_range
    (List.mem_range.mpr hlab) (fun other _ hne => hkeep other hne) hloop
  obtain rfl : _ = d' := congrArg Prod.snd hlast
  exact ⟨mid, mid', used, hbefore, hstep, trans_of R hafter (hlog _ last)⟩

/-- The assignment of one LAB in a preparation that succeeds. -/
theorem run_preRoute_assignControlSets (hlab : lab < d.labs.size)
    (hrun : preRoute.run d = (.ok (), d')) : ∃ mid mid', SparesControl lab d mid ∧
      (assignControlSets lab).run mid = (.ok (), mid') ∧ SparesControl lab mid' d' := by
  obtain ⟨mid, last, used, hbefore, hstep, hafter⟩ := run_preRoute_lab (R := SparesControl lab)
    sparesControl_log (fun _ hne => sparesControl_preRouteLab hne) hlab hrun
  rw [preRouteLab_eq, run_bind_eq_ok] at hstep
  obtain ⟨⟨⟩, mid', hassign, hstep⟩ := hstep
  obtain ⟨bs, later, hloop, hlast⟩ := run_bind_eq_ok.mp hstep
  obtain ⟨-, rfl⟩ := Prod.mk.inj hlast
  have hkeep : ((List.range Chip.almsPerLab).mapM (preRouteAlm lab)).Keeps (SparesControl lab) :=
    .mapM fun alm _ => keeps_preRouteAlm (PackingCall.sparesControl (.inputs lab alm) nofun)
  have hloop' := hkeep mid'
  rw [hloop] at hloop'
  exact ⟨mid, mid', hbefore, hassign, hloop'.trans hafter⟩

/-- The step of one ALM in a preparation that succeeds. -/
theorem run_preRoute_alm (hlab : lab < d.labs.size) (halm : alm < Chip.almsPerLab)
    (hrun : preRoute.run d = (.ok (), d')) : ∃ mid mid' used, SparesAlm lab alm d mid ∧
      (preRouteAlm lab alm).run mid = (.ok used, mid') ∧ SparesAlm lab alm mid' d' := by
  obtain ⟨mid, last, used, hbefore, hstep, hafter⟩ := run_preRoute_lab (R := SparesAlm lab alm)
    sparesAlm_log (fun _ hne => sparesAlm_preRouteLab hne) hlab hrun
  rw [preRouteLab_eq, run_bind_eq_ok] at hstep
  obtain ⟨⟨⟩, mid', hassign, hstep⟩ := hstep
  have hassigned : (assignControlSets lab).Keeps (SparesAlm lab alm) :=
    PackingCall.sparesAlm (.control lab) nofun
  have hassigned := hassigned mid
  rw [hassign] at hassigned
  obtain ⟨bs, later, hloop, hlast⟩ := run_bind_eq_ok.mp hstep
  obtain ⟨-, rfl⟩ := Prod.mk.inj hlast
  obtain ⟨mid₁, mid₂, used', hfirst, hrunAlm, hlater⟩ := run_mapM_eq_ok List.nodup_range
    (List.mem_range.mpr halm) (fun other _ hne => keeps_preRouteAlm (R := SparesAlm lab alm)
      (PackingCall.sparesAlm (.inputs lab other) fun heq => hne (PackingCall.inputs.inj heq).2))
      hloop
  exact ⟨mid₁, mid₂, used', (hbefore.trans hassigned).trans hfirst, hrunAlm, hlater.trans hafter⟩

/-! ### What success says -/

/-- Only a legal LAB can be assigned. -/
theorem isLabLegal_of_run (hrun : (assignControlSets lab).run d = (.ok (), d')) :
    d.isLabLegal lab = true := by
  cases hlab : d.labs[lab]? with
  | none => rw [Device.isLabLegal, hlab]; rfl
  | some info =>
      cases hslots : d.controlSlots info with
      | error kind =>
          rw [run_assignControlSets_of_error hlab hslots] at hrun
          cases hrun
      | ok slots =>
          rw [Device.isLabLegal, hlab, Option.all_some, hslots]
          rfl

/-- After a preparation that succeeded every LAB is legal. -/
theorem isLabLegal_of_preRoute (hrun : preRoute.run d = (.ok (), d')) (lab : Nat) :
    d.isLabLegal lab = true := by
  by_cases hlab : lab < d.labs.size
  · obtain ⟨mid, mid', hbefore, hassign, -⟩ := run_preRoute_assignControlSets hlab hrun
    rw [← hbefore.isLabLegal_eq]
    exact isLabLegal_of_run hassign
  · rw [Device.isLabLegal, Array.getElem?_eq_none (Nat.le_of_not_lt hlab)]
    rfl

/-- The step of an occupied ALM applies its plan; that of an empty one does nothing. -/
theorem run_preRouteAlm_eq_ok {used : Bool} (hrun : (preRouteAlm lab alm).run d = (.ok used, d')) :
    ((d.alm? lab alm).any (isOccupied d) = true ∧ (reassignInputs lab alm).run d = (.ok (), d')) ∨
    ((d.alm? lab alm).any (isOccupied d) = false ∧ d' = d) := by
  rw [preRouteAlm, run_get_bind] at hrun
  split at hrun
  · rename_i hoccupied
    obtain ⟨⟨⟩, mid, hstep, hlast⟩ := run_bind_eq_ok.mp hrun
    obtain ⟨-, rfl⟩ := Prod.mk.inj hlast
    exact .inl ⟨hoccupied, hstep⟩
  · rename_i hfree
    obtain ⟨-, rfl⟩ := Prod.mk.inj hrun
    exact .inr ⟨by simpa using hfree, rfl⟩

/-- After a preparation that succeeded every ALM that holds a cell has a plan. -/
theorem exists_plan_of_preRoute (hrun : preRoute.run d = (.ok (), d')) (hlab : lab < d.labs.size)
    (halm : alm < Chip.almsPerLab) (hoccupied : (d.alm? lab alm).any (isOccupied d) = true) :
    (d.planAlm? lab alm).isSome := by
  obtain ⟨mid, mid', used, hbefore, hstep, -⟩ := run_preRoute_alm hlab halm hrun
  rw [← hbefore.any_isOccupied_eq] at hoccupied
  rw [← hbefore.planAlm?_eq]
  rcases run_preRouteAlm_eq_ok hstep with ⟨-, hplanned⟩ | ⟨hfree, -⟩
  · obtain ⟨plan, info, a, hplan, -⟩ := run_reassignInputs_eq_ok hplanned
    rw [hplan, Option.isSome_some]
  · rw [hoccupied] at hfree
    cases hfree

/-! ### Truth tables -/

/-- The plan of an ALM, once applied, gives it a truth table. -/
theorem exists_lutMask_of_reassignInputs (hd : d.IsState)
    (hrun : (reassignInputs lab alm).run d = (.ok (), d')) :
    ∃ mask, d'.lutMask lab alm = .ok mask := by
  obtain ⟨plan, info, a, hplan, hinfo, ha, hsame⟩ := run_reassignInputs_eq_ok hrun
  obtain ⟨x, y, hlab⟩ := hd.exists_hasLab hinfo
  have halm : d.alm? lab alm = some a := by rw [Device.alm?, hinfo, Option.bind_some, ha]
  have hdemand : InputPlan.ofDemand? (d.almDemand a) = some plan := by
    rwa [Device.planAlm?, halm, Option.bind_some] at hplan
  have halm' := Device.alm?_of_planned halm hsame
  obtain ⟨top, htop, -⟩ :=
    Device.exists_fillsHalf hd.consistent (hlab.lutSites_ne ha) hdemand hsame .top
  obtain ⟨bottom, hbottom, -⟩ :=
    Device.exists_fillsHalf hd.consistent (hlab.lutSites_ne ha) hdemand hsame .bottom
  refine ⟨top ||| bottom, ?_⟩
  rw [Device.lutMask, halm', Option.bind_some, htop, hbottom]
  rfl

/-- No cell is placed in an ALM that is not occupied. -/
theorem isOccupied_eq_false_iff {a : Alm} : isOccupied d a = false ↔
    d.lutCells a = ⟨none, none⟩ ∧ d.flopCells a = ⟨(none, none), (none, none)⟩ := by
  rw [isOccupied]
  generalize d.lutCells a = luts
  generalize d.flopCells a = flops
  obtain ⟨top, bottom⟩ := luts
  obtain ⟨⟨f₀, f₁⟩, ⟨f₂, f₃⟩⟩ := flops
  simp [Halves.toList, Flops.toList, and_assoc]

/-- An ALM that is not occupied has an empty truth table. -/
theorem lutMask_of_not_isOccupied {a : Alm} (ha : d.alm? lab alm = some a)
    (h : isOccupied d a = false) : d.lutMask lab alm = .ok 0 := by
  have hhalf (half : Half) : d.halfMask? a half = some 0 := by
    rw [Device.halfMask?, (isOccupied_eq_false_iff.mp h).1]
    cases half <;> rfl
  rw [Device.lutMask, ha, Option.bind_some, hhalf, hhalf]
  rfl

/-- After a preparation that succeeded every ALM has a truth table. -/
theorem exists_lutMask_of_preRoute (hd : d.IsState) (hrun : preRoute.run d = (.ok (), d'))
    (hlab : lab < d.labs.size) (halm : alm < Chip.almsPerLab) :
    ∃ mask, d'.lutMask lab alm = .ok mask := by
  obtain ⟨mid, mid', used, hbefore, hstep, hafter⟩ := run_preRoute_alm hlab halm hrun
  have hmid := hbefore.isState hd
  have hmid' : mid'.IsState := by
    have hrep := keeps_preRouteAlm (repacks_reassignInputs lab alm) mid
    rw [hstep] at hrep
    exact hrep.isState hmid
  rw [hafter.lutMask_eq hmid']
  rcases run_preRouteAlm_eq_ok hstep with ⟨-, hplanned⟩ | ⟨hfree, rfl⟩
  · exact exists_lutMask_of_reassignInputs hmid hplanned
  · obtain ⟨a, ha⟩ := hmid.exists_alm (by rwa [hbefore.size_labs_eq]) halm
    rw [ha, Option.any_some] at hfree
    exact ⟨0, lutMask_of_not_isOccupied ha hfree⟩

end Edit

end Fabric
