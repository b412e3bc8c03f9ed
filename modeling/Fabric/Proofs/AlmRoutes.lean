import Fabric.Proofs.ControlWires
import Fabric.Proofs.Reassign

/-!
# Reservations of an input plan

Applying the plan of an ALM ends with reservations: each E/F selector for the pin that it reads,
and each data input of a flip-flop for its source. On a LAB of a built device all of these are
pips, so whenever there is a plan it can be applied. The drivers of the six wires are then as
planned, and those of all other wires as before.

## Main results

* `InputPlan.efPin_mem`: a planned E/F pin is one that the selector reads;
* `exists_run_reassignInputs`: a plan can be applied, and what it reserves.
-/

namespace Fabric

/-- A planned E/F pin is one that the selector of its half reads. -/
theorem InputPlan.efPin_mem {demand : AlmDemand} {plan : InputPlan} {half : Half} {pin : AlmPin}
    (hplan : ofDemand? demand = some plan) (hpin : plan.efPins.get half = some pin) :
    pin ∈ half.efPins := by
  obtain ⟨nets, hsound⟩ := ofDemand?_sound hplan
  rcases List.eq_nil_or_concat (demand.selectorNets half) with hnone | ⟨rest, net, hnets⟩
  · rw [hsound.unused half hnone] at hpin
    cases hpin
  · obtain ⟨-, own, hmem, hown, -⟩ := hsound.selector half net (by rw [hnets]; simp)
    rw [hpin] at hown
    rwa [Option.some.inj hown]

/-- The driver that a source of data is, if it is one. -/
def FlopSource.driver (lutOutput selector : Wire) : FlopSource → Option Wire
  | .open => none
  | .lut => some lutOutput
  | .selector => some selector

/-- The wires of an ALM that a plan drives: its E/F selectors and the data inputs of its
flip-flops. -/
def Alm.inputWires (a : Alm) : List Wire := a.efSelector.toList ++ a.ffIn.toList

namespace Device

/-! ### Planned drivers -/

/-- The drivers that a plan gives to the E/F selectors and the data inputs of an ALM. -/
def plannedDrivers (x y z : Nat) (a : Alm) (plan : InputPlan) : List (Wire × Option Wire) :=
  Half.all.map (fun half =>
    (a.efSelector.get half, (plan.efPins.get half).map (almInput x y z))) ++
  Half.all.flatMap fun half =>
    let source := FlopSource.driver (a.combOut.get half) (a.efSelector.get half)
    [((a.ffIn.get half).1, source (plan.flopSource.get half).1),
      ((a.ffIn.get half).2, source (plan.flopSource.get half).2)]

/-- The design and the hardware of one model, with other reservations. -/
structure Driven (d₀ : Device) (driver : Wire → Option Wire) (d : Device) : Prop where
  same : SameDesign d₀ d
  driver : d.wires.reservedDriver? = driver

namespace HasLab

variable {d : Device} {info : Lab} {x y z : Nat}

/-- An E/F selector is fed by two pins of its ALM. -/
theorem uphill_efSelector (h : d.HasLab info x y) (hz : z < Chip.almsPerLab) (half : Half) :
    d.wires.uphill? ((labAlm x y z).efSelector.get half) =
      some (half.efPins.map (almInput x y z)) := by
  cases half with
  | top => exact h.uphill_almNode hz (k := 5) (by omega)
  | bottom => exact h.uphill_almNode hz (k := 9) (by omega)

/-- The data input of a flip-flop is fed by the LUT and by the E/F selector of its half. -/
theorem uphill_ffIn (h : d.HasLab info x y) (hz : z < Chip.almsPerLab) (half : Half)
    {data : Wire} (hdata : data = ((labAlm x y z).ffIn.get half).1 ∨
      data = ((labAlm x y z).ffIn.get half).2) : d.wires.uphill? data =
      some [(labAlm x y z).combOut.get half, (labAlm x y z).efSelector.get half] := by
  cases half with
  | top =>
      rcases hdata with rfl | rfl
      · exact h.uphill_almNode hz (k := 10) (by omega)
      · exact h.uphill_almNode hz (k := 12) (by omega)
  | bottom =>
      rcases hdata with rfl | rfl
      · exact h.uphill_almNode hz (k := 14) (by omega)
      · exact h.uphill_almNode hz (k := 16) (by omega)

end HasLab

end Device

namespace Edit

open Device (Driven)

variable {d₀ : Device} {f : Wire → Option Wire} {info : Lab} {x y z : Nat}

/-! ### Single wires -/

/-- A wire that exists is released. -/
theorem answers_unreserve {w : Wire} (hw : (d₀.wires.uphill? w).isSome) :
    (unreserve w).Answers (Driven d₀ f) ⟨⟩ (Driven d₀ (Function.update f w none)) := by
  intro d hd
  obtain ⟨d', hrun, hsame, hdriver⟩ := exists_run_unreserve (d := d) (by rwa [hd.same.uphill])
  refine ⟨d', hrun, hd.same.trans hsame, funext fun u => ?_⟩
  rw [hdriver, hd.driver, Function.update_apply]
  simp only [eq_comm]

/-- A pip that can be routed is reserved. -/
theorem answers_reserve {src dst : Wire} (hroute : d₀.Routable ⟨src, dst⟩) :
    (reserve src dst).Answers (Driven d₀ f) ⟨⟩
      (Driven d₀ (Function.update f dst (some src))) := by
  intro d hd
  obtain ⟨d', hrun, hsame, hdriver⟩ := exists_run_reserve (hroute.of_sameDesign hd.same)
  refine ⟨d', hrun, hd.same.trans hsame, funext fun u => ?_⟩
  rw [hdriver, hd.driver, Function.update_apply]
  simp only [eq_comm]

/-- A wire that was freed and then reserved for a wire uphill of it has that driver. -/
theorem answers_reserve_of_mem {src dst : Wire} {l : List Wire} (hl : d₀.wires.uphill? dst = some l)
    (hsrc : src ∈ l) (hlen : l.length ≤ 256) :
    (reserve src dst).Answers (Driven d₀ (Function.update f dst none)) ⟨⟩
      (Driven d₀ (Function.update f dst (some src))) := by
  have hreserve := answers_reserve (f := Function.update f dst none) ⟨l, hl, hsrc, hlen⟩
  rwa [Function.update_idem] at hreserve

/-- Reserving an E/F selector gives it the wire behind its planned pin. -/
theorem answers_reserveSelector (h : d₀.HasLab info x y) (hz : z < Chip.almsPerLab) {half : Half}
    {pin : Option AlmPin} (hpin : ∀ p ∈ pin, p ∈ half.efPins) :
    (reserveSelector info.pos z ((labAlm x y z).efSelector.get half) pin).Answers (Driven d₀ f)
      ⟨⟩ (Driven d₀ (Function.update f ((labAlm x y z).efSelector.get half)
        (pin.map (almInput x y z)))) := by
  have huphill := h.uphill_efSelector hz half
  refine .bind (answers_unreserve (by rw [huphill]; rfl)) ?_
  cases pin with
  | none => exact .pure fun d hd => hd
  | some p =>
      have hport : (requirePort info.pos.x info.pos.y .lab (.almInput p) z (-1)).Answers
          (Driven d₀ (Function.update f ((labAlm x y z).efSelector.get half) none))
          (almInput x y z p)
          (Driven d₀ (Function.update f ((labAlm x y z).efSelector.get half) none)) := by
        intro d hd
        have ht : IsTile d.chip x y .lab := by
          rw [hd.same.chip]
          exact h.toIsTile
        rw [h.pos, Pos.x_pack ht.x_lt ht.y_lt, Pos.y_pack ht.x_lt ht.y_lt]
        exact ⟨d, TileStage.run_requirePort ht
          (congrArg (Option.map _) (indexBelow?_natCast hz)), hd⟩
      refine .bind hport (answers_reserve_of_mem huphill ?_ ?_)
      · exact List.mem_map_of_mem (hpin p rfl)
      · rw [List.length_map]
        cases half <;> decide

/-- Reserving a data input gives it its planned source. -/
theorem answers_reserveData {lutOutput selector data : Wire}
    (hl : d₀.wires.uphill? data = some [lutOutput, selector]) (source : FlopSource) :
    (reserveData lutOutput selector data source).Answers (Driven d₀ f) ⟨⟩
      (Driven d₀ (Function.update f data (source.driver lutOutput selector))) := by
  refine .bind (answers_unreserve (by rw [hl]; rfl)) ?_
  cases source with
  | «open» => exact .pure fun d hd => hd
  | lut => exact answers_reserve_of_mem hl (by simp) (by simp)
  | selector => exact answers_reserve_of_mem hl (by simp) (by simp)

/-! ### Whole ALMs -/

/-- The reservations of an ALM all succeed, and leave the planned drivers. -/
theorem answers_routeInputs (h : d₀.HasLab info x y) (hz : z < Chip.almsPerLab) {plan : InputPlan}
    (hpins : ∀ half, ∀ p ∈ plan.efPins.get half, p ∈ half.efPins) :
    (routeInputs info.pos z (labAlm x y z) plan).Answers (Driven d₀ f) ⟨⟩
      (Driven d₀ (Device.redriven (Device.plannedDrivers x y z (labAlm x y z) plan) f)) := by
  have hsource (half : Half) (source : FlopSource) {data : Wire}
      (hdata : data = ((labAlm x y z).ffIn.get half).1 ∨ data = ((labAlm x y z).ffIn.get half).2)
      {f : Wire → Option Wire} := answers_reserveData (f := f) (h.uphill_ffIn hz half hdata) source
  refine .bind (.bind (answers_reserveSelector h hz (hpins .top))
    (.bind (answers_reserveSelector h hz (hpins .bottom)) (.pure fun d hd => hd))) ?_
  exact .bind (.bind (hsource .top _ (.inl rfl)) (hsource .top _ (.inr rfl)))
    (.bind (.bind (hsource .bottom _ (.inl rfl)) (hsource .bottom _ (.inr rfl)))
      (.pure fun d hd => hd))

/-- **Applying a plan.** In a LAB of a built device the plan of an ALM can be applied. That leaves
the planned design with the planned drivers. -/
theorem exists_run_reassignInputs {d : Device} {lab : Nat} {plan : InputPlan}
    (hinfo : d.labs[lab]? = some info) (h : d.HasLab info x y) {a : Alm}
    (ha : info.alms[z]? = some a) (hplan : d.planAlm? lab z = some plan) :
    ∃ d', (reassignInputs lab z).run d = (.ok (), d') ∧
      SameDesign (d.planned lab z plan (d.lutCells a)) d' ∧
      d'.wires.reservedDriver? =
        Device.redriven (Device.plannedDrivers x y z a plan) d.wires.reservedDriver? := by
  obtain ⟨info', a', hinfo', ha', halm, hdemand⟩ := Device.exists_alm_of_planAlm? hplan
  obtain rfl := Option.some.inj (hinfo.symm.trans hinfo')
  obtain rfl := Option.some.inj (ha.symm.trans ha')
  obtain ⟨hz, heq⟩ := h.getElem?_alms ha
  -- The mode of the ALM plays no part in its wires.
  have hlab : (d.planned lab z plan (d.lutCells a)).HasLab info x y :=
    ⟨h.toIsTile, h.bare, h.uphill⟩
  obtain ⟨d', hrun, hd'⟩ := answers_routeInputs hlab hz
    (fun half p hp => InputPlan.efPin_mem hdemand hp) _ ⟨SameDesign.refl _, rfl⟩
  rw [← heq] at hrun hd'
  exact ⟨d', (run_reassignInputs hplan hinfo halm).trans hrun, hd'.same, hd'.driver⟩

end Edit

end Fabric
