import Fabric.Proofs.PlanCompleteness
import Mathlib.Data.Set.Card

/-!
# Two LUTs share an ALM if their nets can be counted on its pins

An ALM has eight pins, and a pin carries one net, so LUTs with more than eight different live nets
have no plan. Where nothing else wants a pin, that is all: two LUTs of five inputs each have a plan
whenever they have eight live nets together, on whatever inputs and however often each net is.

The count works out because of how the pins are divided. Each half has three pins of its own and
reads the two shared ones. If the LUTs have `m` and `n` nets, then they have `m + n - s` nets
together, `s` of them common. Sharing puts two of the common nets on the shared pins, or all of
them, and what a half is short of then is no more than what is left of the shared pins.

## Main results

* `InputPlan.exists_ofDemand?_of_card_le`: a plan for demands of eight nets;
* `Device.mem_wantedNets`: the planner serves the nets that some input of a LUT is live on;
* `Device.card_wantedNets_le`: a plan never serves more than eight;
* `Device.planAlm?_isSome_iff`: both for a placed ALM.
-/

namespace Fabric

namespace InputPlan

variable {d : AlmDemand}

/-! ### Demands -/

/-- The common nets count twice in the nets of the halves. -/
theorem card_wanted_add_card_wanted (d : AlmDemand) :
    (d.wanted .top).card + (d.wanted .bottom).card =
    (d.wanted .top ∪ d.wanted .bottom).card + d.sharedNets.length := by
  have hinter : d.wanted .top ∩ d.wanted .bottom = d.sharedNets.toFinset := by
    ext net
    rw [Finset.mem_inter, AlmDemand.mem_wanted, AlmDemand.mem_wanted, List.mem_toFinset,
      AlmDemand.mem_sharedNets]
    exact ⟨fun h half => half.casesOn h.1 h.2, fun h => ⟨h .top, h .bottom⟩⟩
  have hcard : d.sharedNets.toFinset.card = d.sharedNets.length :=
    List.toFinset_card_of_nodup (nodup_eraseDups _)
  rw [← Finset.card_union_add_card_inter, hinter, hcard]

/-- Two LUTs with five nets each, and eight nets together, get their pins if all pins are free. -/
theorem isSome_lutPins?_of_card_le (hsplit : d.isFused = false)
    (hfive : ∀ half, (d.wanted half).card ≤ 5)
    (height : (d.wanted .top ∪ d.wanted .bottom).card ≤ 8) : (lutPins? d .free).isSome := by
  have hmissing (half : Half) : PinNets.missing .free half (d.wanted half) = d.wanted half :=
    Finset.filter_true_of_mem fun _ _ _ _ => nofun
  have hprivate (half : Half) : PinNets.freeCount .free half.privatePins = 3 := by
    cases half <;> rfl
  have hboth := card_wanted_add_card_wanted d
  have htop := hfive .top
  have hbottom := hfive .bottom
  -- Each half wants from the shared pins what its three private ones leave it short of.
  refine isSome_lutPins?_of_counts hsplit rfl rfl (fun half => (d.wanted half).card - 3)
    (fun half => ?_) (fun half => ?_) ?_ fun _ _ _ => nofun
  · rw [hmissing, hprivate]
    omega
  · have := hfive half
    omega
  · omega

/-- There is a plan for two LUTs with five nets each, and eight nets together, if no flip-flop wants
a net through a selector. -/
theorem exists_ofDemand?_of_card_le (hsplit : d.isFused = false)
    (hselector : ∀ half, d.selectorNets half = []) (hfive : ∀ half, (d.wanted half).card ≤ 5)
    (height : (d.wanted .top ∪ d.wanted .bottom).card ≤ 8) : ∃ plan, ofDemand? d = some plan := by
  have hnothing : EfPlaced d (.ofFn fun _ => none) (.ofFn fun _ => none) .free := by
    refine ⟨fun half => ?_, fun half => ?_, .free, rfl, rfl⟩
    · rw [hselector, Halves.get_ofFn]
      rfl
    · rw [Halves.get_ofFn, Halves.get_ofFn]
      exact List.mem_singleton_self none
  refine exists_ofDemand? (fun hfused => ?_) hnothing
    (isSome_lutPins?_of_card_le hsplit hfive height)
  rw [hsplit] at hfused
  cases hfused

end InputPlan

/-! ### Placed ALMs -/

namespace Device

variable {d : Device} {a : Alm}

/-- The nets that are live on an ALM: some input of one of its LUTs is live on them. -/
def liveNets (d : Device) (a : Alm) : Set NetId :=
  { net | ∃ half id k, (d.lutCells a).get half = some id ∧ d.LiveInput id k net }

/-- The nets that the planner has to serve for the LUTs of an ALM. -/
def wantedNets (d : Device) (a : Alm) : Finset NetId :=
  (d.almDemand a).wanted .top ∪ (d.almDemand a).wanted .bottom

/-- A LUT wants the nets that its inputs are live on. -/
theorem mem_wanted_almDemand {half : Half} {net : NetId} : net ∈ (d.almDemand a).wanted half ↔
    ∃ id k, (d.lutCells a).get half = some id ∧ d.LiveInput id k net := by
  rw [AlmDemand.mem_wanted, InputPlan.mem_lutNets]
  constructor
  · rintro ⟨lut, k, hlut, hk⟩
    obtain ⟨id, hid, rfl⟩ := almDemand_luts_eq_some hlut
    exact ⟨id, k, hid, (liveInput_iff d id k net).mpr hk⟩
  · rintro ⟨id, k, hid, hlive⟩
    refine ⟨d.lutDemand id, k, ?_, (liveInput_iff d id k net).mp hlive⟩
    rw [almDemand_luts_get, hid, Option.map_some]

/-- The planner has to serve the nets that are live. -/
theorem mem_wantedNets {net : NetId} : net ∈ d.wantedNets a ↔ net ∈ d.liveNets a := by
  rw [wantedNets, Finset.mem_union, mem_wanted_almDemand, mem_wanted_almDemand]
  constructor
  · rintro (h | h)
    · exact ⟨.top, h⟩
    · exact ⟨.bottom, h⟩
  · rintro ⟨_ | _, h⟩
    · exact .inl h
    · exact .inr h

/-- So there are as many live nets as the planner counts. -/
theorem encard_liveNets_le_iff {n : Nat} :
    (d.liveNets a).encard ≤ n ↔ (d.wantedNets a).card ≤ n := by
  have hsame : (d.wantedNets a : Set NetId) = d.liveNets a :=
    Set.ext fun _ => Finset.mem_coe.trans mem_wantedNets
  rw [← hsame, Set.encard_coe_eq_coe_finsetCard, Nat.cast_le]

/-- A LUT of five inputs has five live nets at most. -/
theorem card_wanted_le {half : Half} {n : Nat} (h : ∀ id, (d.lutCells a).get half = some id →
    (d.netlist.lutInfo id).inputCount ≤ n) : ((d.almDemand a).wanted half).card ≤ n := by
  cases hid : (d.lutCells a).get half with
  | none =>
    have hempty : (d.almDemand a).wanted half = ∅ := by
      refine Finset.eq_empty_of_forall_notMem fun net hnet => ?_
      obtain ⟨id, -, hid', -⟩ := mem_wanted_almDemand.mp hnet
      rw [hid] at hid'
      cases hid'
    rw [hempty, Finset.card_empty]
    exact Nat.zero_le n
  | some id =>
    have hcard : ((d.almDemand a).wanted half).card ≤ (List.range n).length := by
      refine InputPlan.card_le_length (fun k => ((d.netlist.lutInfo id).inputs[k]?).join) _
        fun net hnet => ?_
      obtain ⟨id', k, hid', hlt, hk, -⟩ := mem_wanted_almDemand.mp hnet
      obtain rfl := Option.some.inj (hid.symm.trans hid')
      exact ⟨k, List.mem_range.mpr (hlt.trans_le (h id hid)), by rw [hk, Option.join_some]⟩
    rwa [List.length_range] at hcard

/-- No plan serves two LUTs with more than eight live nets. -/
theorem card_wantedNets_le {lab alm : Nat} {plan : InputPlan} (ha : d.alm? lab alm = some a)
    (hsplit : ¬ d.SpansHalves a) (h : d.planAlm? lab alm = some plan) :
    (d.wantedNets a).card ≤ 8 := by
  rw [planAlm?, ha, Option.bind_some] at h
  obtain ⟨nets, hsound⟩ := InputPlan.ofDemand?_sound h
  refine InputPlan.card_le_length nets AlmPin.all fun net hnet => ?_
  obtain ⟨half, id, k, hid, hlive⟩ := mem_wantedNets.mp hnet
  obtain ⟨p, -, hp⟩ := (accommodates_of_sound hsound).split hsplit half id k net hid hlive
  exact ⟨p, AlmPin.mem_all p, hp⟩

/-- **Eight nets**: an ALM whose LUTs have less than six inputs, and whose flip-flops take nothing
through a selector, has a plan exactly if at most eight nets are live on its LUTs. It does not
matter on which inputs the nets are, in which order, and how often. -/
theorem planAlm?_isSome_iff (d : Device) (lab alm : Nat) (a : Alm) (ha : d.alm? lab alm = some a)
    (hsized : ∀ half id, (d.lutCells a).get half = some id →
      (d.netlist.lutInfo id).inputCount ≤ 6)
    (hsplit : ¬ d.SpansHalves a) (hdata : ∀ half net, ¬ d.NeedsSelector a half net) :
    (d.planAlm? lab alm).isSome = true ↔ (d.liveNets a).encard ≤ 8 := by
  refine Iff.trans ?_ encard_liveNets_le_iff.symm
  constructor
  · intro h
    obtain ⟨plan, hplan⟩ := Option.isSome_iff_exists.mp h
    exact card_wantedNets_le ha hsplit hplan
  · intro height
    have hfive (half : Half) : ((d.almDemand a).wanted half).card ≤ 5 := by
      refine card_wanted_le fun id hid => ?_
      have hne : (d.netlist.lutInfo id).inputCount ≠ 6 := fun hsix => hsplit ⟨half, id, hid, hsix⟩
      have := hsized half id hid
      omega
    have hselector (half : Half) : (d.almDemand a).selectorNets half = [] := by
      refine List.eq_nil_iff_forall_not_mem.mpr fun net hnet => ?_
      exact hdata half net ((mem_almDemand_selectorNets d a half net).mp hnet)
    rw [spansHalves_iff, Bool.not_eq_true] at hsplit
    obtain ⟨plan, hplan⟩ := InputPlan.exists_ofDemand?_of_card_le hsplit hselector hfive height
    rw [planAlm?, ha, Option.bind_some, hplan, Option.isSome_some]

/-- Two LUTs on the same five nets, and a flip-flop on the output of its LUT, have a plan. -/
theorem planAlm?_isSome_iff_twinLut : ∃ a, (twinLutModel 6).alm? 0 0 = some a ∧
    ((twinLutModel 6).liveNets a).encard ≤ 8 ∧
    ((twinLutModel 6).planAlm? 0 0).isSome = true := by
  refine ⟨_, rfl, ?card, (planAlm?_isSome_iff (twinLutModel 6) 0 0 _ rfl ?_ ?_ ?_).mpr ?card⟩
  case card => exact encard_liveNets_le_iff.mpr (by decide +kernel)
  · rintro (_ | _) id hid
    · obtain rfl := Option.some.inj ((by decide +kernel : some (⟨0⟩ : CellId) = _).trans hid)
      decide
    · obtain rfl := Option.some.inj ((by decide +kernel : some (⟨1⟩ : CellId) = _).trans hid)
      decide
  · rw [spansHalves_iff]
    decide +kernel
  · intro half net
    rw [← mem_almDemand_selectorNets]
    revert net
    cases half <;> decide +kernel

end Device

end Fabric
