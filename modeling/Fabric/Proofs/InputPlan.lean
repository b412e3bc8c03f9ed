import Fabric.Device.Pack
import Fabric.Proofs.PinNets

/-!
# Soundness of input plans

A plan for the inputs of an ALM is sound when one assignment of nets to the eight physical pins
explains all of it: `Device.Explains` says so of a placed ALM, in terms of the cells on its
sites. An assignment is a function from pins to nets, so no pin carries two nets.

The planner never states the assignment that it ends with. `InputPlan.Sound` recovers it from
the phases of the planner (`PinNets.Extends`), for what the occupants demand; the last section
reads the demands back as cells.

## Main results

* `ofDemand?_sound`: a plan for some demands is explained by one assignment of nets to pins;
* `planAlm?_sound`: so is the plan of a placed ALM.
-/

namespace Fabric

/-- The value of one flip-flop of a half: the first one, or the `second`. -/
def Flops.flop {α : Type} (v : Flops α) (half : Half) (second : Bool) : α :=
  bif second then (Halves.get v half).2 else (Halves.get v half).1

/-- A mapped family has the mapped value at every flip-flop. -/
theorem Flops.flop_mapFlops {α β : Type} (f : α → β) (v : Flops α) (half : Half) (second : Bool) :
    (v.mapFlops f).flop half second = f (v.flop half second) := by
  cases half <;> cases second <;> rfl

/-- Four values are determined by what stands at each flip-flop. -/
theorem Flops.ext_flop {α : Type} {v w : Flops α}
    (h : ∀ half second, v.flop half second = w.flop half second) : v = w := by
  obtain ⟨⟨v₀, v₁⟩, ⟨v₂, v₃⟩⟩ := v
  obtain ⟨⟨w₀, w₁⟩, ⟨w₂, w₃⟩⟩ := w
  obtain rfl : v₀ = w₀ := h .top false
  obtain rfl : v₁ = w₁ := h .top true
  obtain rfl : v₂ = w₂ := h .bottom false
  obtain rfl : v₃ = w₃ := h .bottom true
  rfl

/-- Two values are determined by what stands at each half. -/
theorem Halves.ext_get {α : Type} {v w : Halves α} (h : ∀ half, v.get half = w.get half) :
    v = w := by
  obtain ⟨v₀, v₁⟩ := v
  obtain ⟨w₀, w₁⟩ := w
  obtain rfl : v₀ = w₀ := h .top
  obtain rfl : v₁ = w₁ := h .bottom
  rfl

/-- The values of the two halves are those that the list of them has. -/
theorem Halves.mem_toList {α : Type} {v : Halves α} {x : α} :
    x ∈ v.toList ↔ ∃ half, v.get half = x := by
  constructor
  · intro h
    rcases List.mem_cons.mp h with rfl | h
    · exact ⟨.top, rfl⟩
    · obtain rfl := List.mem_singleton.mp h
      exact ⟨.bottom, rfl⟩
  · rintro ⟨_ | _, rfl⟩
    · exact List.mem_cons_self
    · exact List.mem_cons_of_mem _ List.mem_cons_self

/-- A pin that is not tied passes its net on, as it is or inverted. -/
theorem PinState.not_isTied_iff (s : PinState) : ¬ s.isTied ↔ s = .signal ∨ s = .inverted := by
  cases s <;> simp [PinState.isTied, PinState.constant?]

/-- The nets that a flip-flop takes through the E/F selector, one by one. -/
theorem FlipFlopInfo.mem_selectorNets (info : FlipFlopInfo) (output : Option NetId)
    (net : NetId) : net ∈ info.selectorNets output ↔
      info.sdata = some net ∨ info.dataIn = some net ∧ output ≠ some net := by
  cases h : info.dataIn with
  | none => simp [selectorNets, source, h]
  | some data =>
      by_cases ho : output = some data
      · simp only [selectorNets, source, h, ho, if_true, reduceCtorEq, if_false, List.nil_append,
          Option.mem_toList, Option.some.injEq]
        grind
      · simp only [selectorNets, source, h, ho, if_true, if_false, Option.toList_some,
          List.mem_append, List.mem_singleton, Option.mem_toList, Option.some.injEq]
        grind

/-- Two lists related place by place are related at each place. -/
theorem forall₂_getElem? {α β : Type} {R : α → β → Prop} {xs : List α} {ys : List β}
    (h : List.Forall₂ R xs ys) {k : Nat} {x : α} (hx : xs[k]? = some x) :
    ∃ y, ys[k]? = some y ∧ R x y := by
  induction h generalizing k with
  | nil => simp at hx
  | cons hab _ ih =>
      cases k with
      | zero =>
          obtain rfl := Option.some.inj hx
          exact ⟨_, rfl, hab⟩
      | succ k => exact ih hx

namespace InputPlan

/-! ### The E/F nets -/

/-- Some nets are all the same when there are none of them, or when each is the first. -/
theorem onlyNet?_eq_some {nets : List NetId} {net : Option NetId}
    (h : onlyNet? nets = some net) : (net = none ∧ nets = []) ∨
      ∃ n, net = some n ∧ n ∈ nets ∧ ∀ m ∈ nets, m = n := by
  cases nets with
  | nil =>
      obtain rfl := Option.some.inj h
      exact .inl ⟨rfl, rfl⟩
  | cons n rest =>
      rw [onlyNet?, Option.ite_none_right_eq_some] at h
      obtain ⟨hall, h⟩ := h
      obtain rfl := Option.some.inj h
      refine .inr ⟨n, rfl, List.mem_cons_self, ?_⟩
      intro m hm
      rcases List.mem_cons.mp hm with rfl | hm
      · rfl
      · simpa using List.all_eq_true.mp hall m hm

/-- Claiming the pin of an E/F net, if there is one, adds that entry and nothing else. -/
theorem claimEf?_iff {net : Option NetId} {pin : Option AlmPin} {nets later : PinNets}
    (h : claimEf? net pin nets = some later) {p : AlmPin} {n : NetId} :
    later p = some n ↔ nets p = some n ∨ net = some n ∧ pin = some p := by
  unfold claimEf? at h
  split at h
  · simpa using PinNets.claim?_iff h
  · rename_i hnone
    obtain rfl := Option.some.inj h
    exact ⟨.inl, fun hn => hn.resolve_right fun hboth => hnone n p hboth.1 hboth.2⟩

/-- The E/F nets of some demands, a choice of the pins that feed the selectors, and the assignment
that puts the ones on the others. -/
structure EfPlaced (d : AlmDemand) (efNets : Halves (Option NetId)) (pins : Halves (Option AlmPin))
    (nets : PinNets) : Prop where
  only : ∀ half, onlyNet? (d.selectorNets half) = some (efNets.get half)
  choice : ∀ half, pins.get half ∈ efChoices half (efNets.get half)
  claims : ∃ mid, claimEf? efNets.top pins.top .free = some mid ∧
    claimEf? efNets.bottom pins.bottom mid = some nets

namespace EfPlaced

variable {d : AlmDemand} {efNets : Halves (Option NetId)} {pins : Halves (Option AlmPin)}
  {nets : PinNets}

/-- The pins of the selectors carry the E/F nets, and no other pin carries anything. -/
theorem carries_iff (h : EfPlaced d efNets pins nets) {p : AlmPin} {n : NetId} :
    nets p = some n ↔ ∃ half, efNets.get half = some n ∧ pins.get half = some p := by
  obtain ⟨mid, htop, hbottom⟩ := h.claims
  rw [claimEf?_iff hbottom, claimEf?_iff htop]
  constructor
  · rintro ((hnone | hboth) | hboth)
    · cases hnone
    · exact ⟨.top, hboth⟩
    · exact ⟨.bottom, hboth⟩
  · rintro ⟨_ | _, hboth⟩
    · exact .inl (.inr hboth)
    · exact .inr hboth

/-- A net that is on a pin is an E/F net of a half, and the pin can feed the
selector of that half. -/
theorem exists_half (h : EfPlaced d efNets pins nets) {p : AlmPin} {n : NetId}
    (hn : nets p = some n) : ∃ half, n ∈ d.selectorNets half ∧ p ∈ half.efPins := by
  obtain ⟨half, hnet, hpin⟩ := h.carries_iff.mp hn
  rcases onlyNet?_eq_some (h.only half) with ⟨hnone, -⟩ | ⟨m, hm, hmem, -⟩
  · rw [hnone] at hnet
    cases hnet
  · obtain rfl := Option.some.inj (hm.symm.trans hnet)
    have hchoice := h.choice half
    rw [hnet, hpin, efChoices, if_pos Option.isSome_some] at hchoice
    obtain ⟨q, hq, heq⟩ := List.mem_map.mp hchoice
    obtain rfl := Option.some.inj heq
    exact ⟨half, hmem, hq⟩

end EfPlaced

/-! ### The LUT inputs of both halves -/

/-- What a plan promises the LUT of a half: each input is on its own pins in fused mode, and on a
pin that the half reads in split mode; a half without a LUT uses no pins. -/
def OnPins (fused : Bool) (half : Half) (nets : PinNets) (lut : Option LutDemand)
    (pins : List (Option AlmPin)) : Prop :=
  match lut with
  | none => pins = noPins
  | some lut =>
    bif fused then List.Forall₂ (OnOwnPins nets) (lut.inputs.zip fusedPins) pins
    else List.Forall₂ (OnHalfPin half nets) lut.inputs pins

/-- Pins that serve a LUT go on doing so as more nets are put on pins. -/
theorem OnPins.mono {fused : Bool} {half : Half} {nets later : PinNets} {lut : Option LutDemand}
    {pins : List (Option AlmPin)} (h : nets.Extends later) (hp : OnPins fused half nets lut pins) :
    OnPins fused half later lut pins := by
  obtain _ | lut := lut
  · exact hp
  · cases fused with
    | true => exact List.Forall₂.imp (fun _ _ => OnOwnPins.mono h) hp
    | false => exact List.Forall₂.imp (fun _ _ => OnHalfPin.mono h) hp

/-- The pins that a live input uses: all of its own pins, or one that its half reads. -/
def UsesPins (fused : Bool) (half : Half) (k : Nat) (pins : List AlmPin) : Prop :=
  if fused then fusedPins[k]? = some pins else ∃ p ∈ half.lutPins, pins = [p]

/-- An input in use has a pin. -/
theorem UsesPins.ne_nil {fused : Bool} {half : Half} {k : Nat} {pins : List AlmPin}
    (h : UsesPins fused half k pins) : pins ≠ [] := by
  cases fused with
  | true =>
      have hall : ∀ own ∈ fusedPins, own ≠ [] := by decide
      exact hall pins (List.mem_of_getElem? h)
  | false =>
      obtain ⟨p, -, rfl⟩ := h
      exact List.cons_ne_nil p []

/-- A live input is on pins that carry its net. -/
theorem OnPins.live {fused : Bool} {half : Half} {nets : PinNets} {lut : LutDemand}
    {pins : List (Option AlmPin)} (h : OnPins fused half nets (some lut) pins) {k : Nat}
    (hk : k < fusedPins.length) {net : NetId} (hnet : lut.inputs[k]? = some (some net)) :
    ∃ own, pins[k]? = some own.head? ∧ UsesPins fused half k own ∧ ∀ p ∈ own,
      nets p = some net := by
  cases fused with
  | true =>
      have hzip : (lut.inputs.zip fusedPins)[k]? = some (some net, fusedPins[k]) := by
        rw [List.getElem?_zip_eq_some]
        exact ⟨hnet, List.getElem?_eq_getElem hk⟩
      obtain ⟨pin, hpin, rfl, hcarry⟩ := forall₂_getElem? h hzip
      exact ⟨fusedPins[k], hpin, List.getElem?_eq_getElem hk, hcarry⟩
  | false =>
      obtain ⟨pin, hpin, p, rfl, hmem, hcarry⟩ := forall₂_getElem? h hnet
      exact ⟨[p], hpin, ⟨p, hmem, rfl⟩, by simpa using hcarry⟩

/-- An input without a net uses no pin. -/
theorem OnPins.dead {fused : Bool} {half : Half} {nets : PinNets} {lut : Option LutDemand}
    {pins : List (Option AlmPin)} (h : OnPins fused half nets lut pins) {k : Nat}
    (hdead : ∀ l, lut = some l → ∀ net, l.inputs[k]? ≠ some (some net)) :
    (pins[k]?).join = none := by
  obtain _ | lut := lut
  · obtain rfl : pins = noPins := h
    rw [noPins, List.getElem?_replicate]
    split <;> rfl
  have hdead := hdead lut rfl
  cases hpin : pins[k]? with
  | none => rfl
  | some pin =>
      cases fused with
      | true =>
          obtain ⟨⟨_ | net, own⟩, hx, hon⟩ := forall₂_getElem? h.flip hpin
          · exact hon
          · rw [List.getElem?_zip_eq_some] at hx
            exact (hdead net hx.1).elim
      | false =>
          obtain ⟨_ | net, hx, hon⟩ := forall₂_getElem? h.flip hpin
          · exact hon
          · exact (hdead net hx).elim

/-- The pins of a fused LUT carry its nets, and no net was taken off a pin for them. -/
theorem fusedHalf?_sound (half : Half) {lut : Option LutDemand} {nets later : PinNets}
    {pins : List (Option AlmPin)} (h : fusedHalf? lut nets = some (pins, later)) :
    nets.Extends later ∧ OnPins true half later lut pins := by
  cases lut with
  | none =>
      obtain ⟨rfl, rfl⟩ := Prod.mk.inj (Option.some.inj h)
      exact ⟨.refl nets, rfl⟩
  | some lut => exact placeFused?_sound h

/-- The pins of a LUT in one half carry its nets, and no net was taken off a pin for them. -/
theorem splitHalf?_sound {half : Half} {lut : Option LutDemand} {nets later : PinNets}
    {pins : List (Option AlmPin)} (h : splitHalf? half lut nets = some (pins, later)) :
    nets.Extends later ∧ OnPins false half later lut pins := by
  cases lut with
  | none =>
      obtain ⟨rfl, rfl⟩ := Prod.mk.inj (Option.some.inj h)
      exact ⟨.refl nets, rfl⟩
  | some lut => exact placeSplit?_sound h

/-- Placing the LUT inputs of both halves moves no net. -/
theorem lutPins?_sound {d : AlmDemand} {nets : PinNets} {pins : Halves (List (Option AlmPin))}
    (h : lutPins? d nets = some pins) :
    ∃ later, nets.Extends later ∧
      ∀ half, OnPins d.isFused half later (d.luts.get half) (pins.get half) := by
  rw [lutPins?] at h
  cases hfused : d.isFused with
  | true =>
      simp only [hfused, if_true, Option.bind_eq_bind, Option.bind_eq_some_iff] at h
      obtain ⟨⟨top, mid⟩, htop, ⟨bottom, later⟩, hbottom, h⟩ := h
      obtain rfl := Option.some.inj h
      obtain ⟨hext, hon⟩ := fusedHalf?_sound .top htop
      obtain ⟨hext', hon'⟩ := fusedHalf?_sound .bottom hbottom
      refine ⟨later, hext.trans hext', ?_⟩
      rintro (_ | _)
      · exact hon.mono hext'
      · exact hon'
  | false =>
      simp only [hfused, Bool.false_eq_true, if_false, Option.bind_eq_bind,
        Option.bind_eq_some_iff] at h
      obtain ⟨⟨top, mid⟩, htop, ⟨bottom, later⟩, hbottom, h⟩ := h
      obtain rfl := Option.some.inj h
      obtain ⟨hext, hon⟩ := splitHalf?_sound htop
      obtain ⟨hext', hon'⟩ := splitHalf?_sound hbottom
      have hshare := foldl_share_extends (d.lutNets .bottom) (d.lutNets .top) nets
      refine ⟨later, hshare.trans (hext.trans hext'), ?_⟩
      rintro (_ | _)
      · exact hon.mono hext'
      · exact hon'

/-! ### Site pins -/

/-- The site pins of a live input are the names of the pins that it uses. -/
theorem sitePins_of_usesPins {plan : InputPlan} {half : Half} {k : Nat} {pins : List AlmPin}
    (hpin : (plan.lutPins.get half)[k]? = some pins.head?) (h : UsesPins plan.fused half k pins) :
    plan.sitePins half k = pins.map AlmPin.ident := by
  obtain ⟨p, rest, rfl⟩ := List.exists_cons_of_ne_nil h.ne_nil
  rw [sitePins, hpin]
  cases hfused : plan.fused with
  | true =>
      rw [hfused, UsesPins, if_pos rfl] at h
      simp [List.getD_eq_getElem?_getD, h]
  | false =>
      rw [hfused] at h
      obtain ⟨q, -, hq⟩ := h
      obtain ⟨rfl, rfl⟩ := List.cons.inj hq
      rfl

/-- An input without a pin in the plan uses none at the site. -/
theorem sitePins_of_join_eq_none {plan : InputPlan} {half : Half} {k : Nat}
    (h : ((plan.lutPins.get half)[k]?).join = none) : plan.sitePins half k = [] := by
  rw [sitePins, h]

/-! ### Whole plans -/

/-- A plan for some demands is sound under an assignment of nets to pins. -/
structure Sound (d : AlmDemand) (plan : InputPlan) (nets : PinNets) : Prop where
  fused : plan.fused = d.isFused
  /-- A LUT of six inputs has the ALM for itself. -/
  alone : d.isFused → d.lutCount ≤ 1
  inputs : ∀ half, OnPins d.isFused half nets (d.luts.get half) (plan.lutPins.get half)
  /-- The flip-flops of a half take one net at most through the E/F selector, and the pin of the
  selector carries it. -/
  selector : ∀ half, ∀ net ∈ d.selectorNets half, (∀ other ∈ d.selectorNets half, other = net) ∧
    ∃ pin ∈ half.efPins, plan.efPins.get half = some pin ∧ nets pin = some net
  unused : ∀ half, d.selectorNets half = [] → plan.efPins.get half = none
  sources : plan.flopSource = .ofFn d.flopSources

/-- What a plan is made from: the E/F nets have their pins, and the LUT inputs got theirs. -/
theorem ofDemand?_eq_some {d : AlmDemand} {plan : InputPlan} (h : ofDemand? d = some plan) :
    (d.isFused → d.lutCount ≤ 1) ∧ plan.fused = d.isFused ∧ plan.flopSource = .ofFn d.flopSources ∧
      ∃ efNets nets, EfPlaced d efNets plan.efPins nets ∧ lutPins? d nets = some plan.lutPins := by
  rw [ofDemand?] at h
  by_cases halone : d.isFused ∧ 1 < d.lutCount
  · simp [halone] at h
  simp only [halone, if_false, Option.bind_eq_bind, Option.bind_eq_some_iff] at h
  obtain ⟨topNet, htop, bottomNet, hbottom, h⟩ := h
  obtain ⟨⟨top, bottom⟩, hchoice, h⟩ := List.exists_of_findSome?_eq_some h
  obtain ⟨t, htopPin, hrest⟩ := List.mem_flatMap.mp hchoice
  obtain ⟨b, hbottomPin, heq⟩ := List.mem_map.mp hrest
  obtain ⟨rfl, rfl⟩ := Prod.mk.inj heq
  simp only [tryChoice?, Option.bind_eq_bind, Option.bind_eq_some_iff] at h
  obtain ⟨mid, hclaimTop, nets, hclaimBottom, pins, hpins, h⟩ := h
  obtain rfl := Option.some.inj h
  refine ⟨fun hfused => Nat.le_of_not_lt fun hlt => halone ⟨hfused, hlt⟩, rfl, rfl,
    ⟨topNet, bottomNet⟩, nets, ⟨?_, ?_, mid, hclaimTop, hclaimBottom⟩, hpins⟩
  · rintro (_ | _)
    · exact htop
    · exact hbottom
  · rintro (_ | _)
    · exact htopPin
    · exact hbottomPin

/-- There is a plan if for some pins of the E/F nets the LUT inputs get theirs. -/
theorem exists_ofDemand? {d : AlmDemand} {efNets : Halves (Option NetId)}
    {efPins : Halves (Option AlmPin)} {nets : PinNets} (halone : d.isFused → d.lutCount ≤ 1)
    (hef : EfPlaced d efNets efPins nets) (hluts : (lutPins? d nets).isSome) :
    ∃ plan, ofDemand? d = some plan := by
  obtain ⟨lutPins, hluts⟩ := Option.isSome_iff_exists.mp hluts
  obtain ⟨mid, hclaimTop, hclaimBottom⟩ := hef.claims
  have htry : (tryChoice? d ⟨efNets.top, efNets.bottom⟩ efPins.top efPins.bottom).isSome := by
    simp only [tryChoice?, Option.bind_eq_bind, hclaimTop, hclaimBottom, Option.bind_some, hluts]
    rfl
  have halone' : ¬ (d.isFused ∧ 1 < d.lutCount) := fun h => by have := halone h.1; omega
  have htop : onlyNet? (d.selectorNets .top) = some efNets.top := hef.only .top
  have hbottom : onlyNet? (d.selectorNets .bottom) = some efNets.bottom := hef.only .bottom
  simp only [ofDemand?, halone', if_false, htop, hbottom, Option.bind_eq_bind, Option.bind_some]
  refine Option.isSome_iff_exists.mp (List.findSome?_isSome_iff.mpr
    ⟨(efPins.top, efPins.bottom), List.mem_flatMap.mpr ⟨efPins.top, hef.choice .top, ?_⟩, htry⟩)
  exact List.mem_map.mpr ⟨efPins.bottom, hef.choice .bottom, rfl⟩

/-- The pins chosen for the E/F selector of one half are as `Sound` asks for. -/
theorem efPin_sound {half : Half} {demanded : List NetId} {net : Option NetId}
    {pin : Option AlmPin} {nets : PinNets} (honly : onlyNet? demanded = some net)
    (hpin : pin ∈ efChoices half net)
    (hclaim : ∀ n p, net = some n → pin = some p → nets p = some n) :
    (∀ n ∈ demanded, (∀ m ∈ demanded, m = n) ∧
      ∃ p ∈ half.efPins, pin = some p ∧ nets p = some n) ∧ (demanded = [] → pin = none) := by
  rcases onlyNet?_eq_some honly with ⟨rfl, rfl⟩ | ⟨n, rfl, hmem, hall⟩
  · refine ⟨by simp, fun _ => ?_⟩
    simpa [efChoices] using hpin
  · simp only [efChoices, Option.isSome_some, if_true, List.mem_map] at hpin
    obtain ⟨p, hp, rfl⟩ := hpin
    refine ⟨fun m hm => ?_, fun hnil => ?_⟩
    · obtain rfl := hall m hm
      exact ⟨hall, p, hp, rfl, hclaim m p rfl rfl⟩
    · rw [hnil] at hmem
      cases hmem

/-- **Soundness of the planner**: a plan for some demands is explained by one
assignment of nets to pins. -/
theorem ofDemand?_sound {d : AlmDemand} {plan : InputPlan} (h : ofDemand? d = some plan) :
    ∃ nets, Sound d plan nets := by
  obtain ⟨halone, hfused, hsources, efNets, nets, hef, hluts⟩ := ofDemand?_eq_some h
  obtain ⟨later, hext, hinputs⟩ := lutPins?_sound hluts
  have hselector (half : Half) := efPin_sound (hef.only half) (hef.choice half)
    fun n p hn hp => hext (hef.carries_iff.mpr ⟨half, hn, hp⟩)
  exact ⟨later, hfused, halone, hinputs, fun half => (hselector half).1,
    fun half => (hselector half).2, hsources⟩

end InputPlan

/-! ### Plans of placed ALMs -/

namespace Device

/-- Logical input `k` of a LUT cell is *live* on a net: it is an input of the cell, connected to
the net, and driven by it or by its inverse. -/
def LiveInput (d : Device) (id : CellId) (k : Nat) (net : NetId) : Prop :=
  k < (d.netlist.lutInfo id).inputCount ∧ (d.netlist.lutInfo id).inputs[k]? = some (some net) ∧
    ∃ port, lutInputNames[k]? = some port ∧
      (d.netlist.pinState id port = .signal ∨ d.netlist.pinState id port = .inverted)

/-- The net that the LUT of a half drives. -/
def lutOutput (d : Device) (a : Alm) (half : Half) : Option NetId :=
  ((d.lutCells a).get half).bind fun id => (d.netlist.lutInfo id).output

/-- A flip-flop of a half needs a net through the E/F selector: as the data of a synchronous
load, or as data that the LUT of the half does not drive. -/
def NeedsSelector (d : Device) (a : Alm) (half : Half) (net : NetId) : Prop :=
  ∃ second id, (d.flopCells a).flop half second = some id ∧
    ((d.netlist.flipFlopInfo id).sdata = some net ∨
      (d.netlist.flipFlopInfo id).dataIn = some net ∧ d.lutOutput a half ≠ some net)

/-- An assignment of nets to the pins of a placed ALM explains a plan. -/
structure Explains (d : Device) (a : Alm) (plan : InputPlan) (nets : AlmPin → Option NetId) :
    Prop where
  /-- The ALM is fused for a LUT of six inputs, which then has it for itself. -/
  fused : plan.fused = true ↔
    ∃ half id, (d.lutCells a).get half = some id ∧ (d.netlist.lutInfo id).inputCount = 6
  alone : plan.fused = true → ∀ half other id id', (d.lutCells a).get half = some id →
    (d.lutCells a).get other = some id' → half = other
  /-- A live input is on pins that carry its net: in fused mode on all of its own pins, in split
  mode on one that its half reads. -/
  live : ∀ half id k net, (d.lutCells a).get half = some id → d.LiveInput id k net →
    ∃ pins : List AlmPin, (plan.lutPins.get half)[k]? = some pins.head? ∧
      plan.sitePins half k = pins.map AlmPin.ident ∧
      InputPlan.UsesPins plan.fused half k pins ∧ ∀ p ∈ pins, nets p = some net
  /-- An input that is tied or open uses no pin. -/
  dead : ∀ half id k, (d.lutCells a).get half = some id → (∀ net, ¬ d.LiveInput id k net) →
    ((plan.lutPins.get half)[k]?).join = none ∧ plan.sitePins half k = []
  vacant : ∀ half k, (d.lutCells a).get half = none →
    ((plan.lutPins.get half)[k]?).join = none ∧ plan.sitePins half k = []
  /-- The flip-flops of a half need one net at most through the E/F selector, and the pin that
  the selector reads carries it. -/
  selector : ∀ half net, d.NeedsSelector a half net →
    (∀ other, d.NeedsSelector a half other → other = net) ∧
      ∃ pin ∈ half.efPins, plan.efPins.get half = some pin ∧ nets pin = some net
  idle : ∀ half, (∀ net, ¬ d.NeedsSelector a half net) → plan.efPins.get half = none
  /-- Open data has no source; data that the LUT of the half drives comes from there; any other
  comes through the E/F selector. -/
  source : ∀ half second id, (d.flopCells a).flop half second = some id →
    plan.flopSource.flop half second =
      match (d.netlist.flipFlopInfo id).dataIn with
      | none => .open
      | some net => if d.lutOutput a half = some net then .lut else .selector

/-! ### Demands read back as cells -/

/-- The demand of a LUT names the nets of its connected inputs up to its input count. -/
theorem getElem?_lutDemand_inputs (d : Device) (id : CellId) (k : Nat) :
    (d.lutDemand id).inputs[k]? = (lutInputNames[k]?).map fun port =>
      if k < (d.netlist.lutInfo id).inputCount ∧ ¬ (d.netlist.pinState id port).isTied then
        ((d.netlist.lutInfo id).inputs[k]?).join
      else none := by
  simp [lutDemand, List.getElem?_map, List.getElem?_zipIdx, Function.comp_def]

/-- An input is live on a net exactly when the demand of its cell names the net. -/
theorem liveInput_iff (d : Device) (id : CellId) (k : Nat) (net : NetId) :
    d.LiveInput id k net ↔ (d.lutDemand id).inputs[k]? = some (some net) := by
  rw [getElem?_lutDemand_inputs, LiveInput]
  constructor
  · rintro ⟨hlt, hnet, port, hport, hstate⟩
    simp [hport, hlt, (PinState.not_isTied_iff _).mpr hstate, hnet]
  · intro h
    obtain ⟨port, hport, h⟩ := Option.map_eq_some_iff.mp h
    rw [Option.ite_none_right_eq_some] at h
    obtain ⟨⟨hlt, hstate⟩, h⟩ := h
    exact ⟨hlt, Option.join_eq_some_iff.mp h, port, hport, (PinState.not_isTied_iff _).mp hstate⟩

/-- The demand of an ALM has that of its LUTs at their halves. -/
theorem almDemand_luts_get (d : Device) (a : Alm) (half : Half) :
    (d.almDemand a).luts.get half = ((d.lutCells a).get half).map d.lutDemand :=
  Halves.get_map ..

/-- The demand of an ALM has the summaries of its flip-flops at their places. -/
theorem almDemand_flops_flop (d : Device) (a : Alm) (half : Half) (second : Bool) :
    (d.almDemand a).flops.flop half second =
      ((d.flopCells a).flop half second).map d.netlist.flipFlopInfo :=
  Flops.flop_mapFlops ..

/-- The demand of an ALM names the output of each LUT. -/
theorem almDemand_lutOutput (d : Device) (a : Alm) (half : Half) :
    (d.almDemand a).lutOutput half = d.lutOutput a half := by
  rw [AlmDemand.lutOutput, lutOutput, almDemand_luts_get, Option.bind_map]
  rfl

/-- The selector nets of a half are those its flip-flops need from outside. -/
theorem mem_almDemand_selectorNets (d : Device) (a : Alm) (half : Half) (net : NetId) :
    net ∈ (d.almDemand a).selectorNets half ↔ d.NeedsSelector a half net := by
  have hnets (flop : Option CellId) :
      net ∈ ((flop.map d.netlist.flipFlopInfo).map
        (·.selectorNets ((d.almDemand a).lutOutput half))).getD [] ↔
      ∃ id, flop = some id ∧ ((d.netlist.flipFlopInfo id).sdata = some net ∨
        (d.netlist.flipFlopInfo id).dataIn = some net ∧ d.lutOutput a half ≠ some net) := by
    cases flop with
    | none => simp
    | some id => simp [FlipFlopInfo.mem_selectorNets, almDemand_lutOutput]
  have hfirst := almDemand_flops_flop d a half false
  have hsecond := almDemand_flops_flop d a half true
  simp only [Flops.flop, cond_false, cond_true] at hfirst hsecond
  rw [AlmDemand.selectorNets, List.mem_append, hfirst, hsecond, hnets, hnets, NeedsSelector]
  simp [Flops.flop]

/-- The source of a flip-flop in a sound plan. -/
theorem flopSources_flop (d : Device) (a : Alm) (half : Half) (second : Bool) {id : CellId}
    (h : (d.flopCells a).flop half second = some id) :
    Flops.flop (.ofFn (d.almDemand a).flopSources) half second =
      (d.netlist.flipFlopInfo id).source (d.lutOutput a half) := by
  have hflop := almDemand_flops_flop d a half second
  rw [h] at hflop
  cases second <;>
    simp_all [Flops.flop, AlmDemand.flopSources, almDemand_lutOutput]

/-- An ALM is fused exactly when one of its LUTs has six inputs. -/
theorem almDemand_isFused_iff (d : Device) (a : Alm) : (d.almDemand a).isFused = true ↔
    ∃ half id, (d.lutCells a).get half = some id ∧ (d.netlist.lutInfo id).inputCount = 6 := by
  simp only [AlmDemand.isFused, List.any_eq_true, Halves.mem_toList, Option.any_eq_true,
    exists_exists_eq_and, almDemand_luts_get, Option.map_eq_some_iff]
  constructor
  · rintro ⟨half, _, ⟨id, hid, rfl⟩, hsix⟩
    exact ⟨half, id, hid, by simpa [lutDemand] using hsix⟩
  · rintro ⟨half, id, hid, hsix⟩
    exact ⟨half, _, ⟨id, hid, rfl⟩, by simpa [lutDemand] using hsix⟩

/-- Two LUTs in different halves count as two. -/
theorem half_eq_of_lutCount_le (d : Device) (a : Alm) (h : (d.almDemand a).lutCount ≤ 1)
    {half other : Half} {id id' : CellId} (hid : (d.lutCells a).get half = some id)
    (hid' : (d.lutCells a).get other = some id') : half = other := by
  have hdemand := almDemand_luts_get d a half
  have hdemand' := almDemand_luts_get d a other
  rw [hid] at hdemand
  rw [hid'] at hdemand'
  cases half <;> cases other <;>
    simp_all [AlmDemand.lutCount, Halves.toList, Halves.get]

/-- A sound plan puts a live input on pins that carry its net. -/
theorem exists_pins_of_live {d : Device} {a : Alm} {plan : InputPlan} {nets : PinNets}
    (hsound : InputPlan.Sound (d.almDemand a) plan nets) {half : Half} {id : CellId}
    (hid : (d.lutCells a).get half = some id) {k : Nat} {net : NetId}
    (hlive : d.LiveInput id k net) :
    ∃ pins : List AlmPin, (plan.lutPins.get half)[k]? = some pins.head? ∧
      InputPlan.UsesPins plan.fused half k pins ∧ ∀ p ∈ pins, nets p = some net := by
  have hk : k < fusedPins.length := by
    obtain ⟨-, -, port, hport, -⟩ := hlive
    exact List.getElem?_eq_some_iff.mp hport |>.1
  have hon := hsound.inputs half
  rw [← hsound.fused, almDemand_luts_get, hid, Option.map_some] at hon
  exact hon.live hk ((liveInput_iff d id k net).mp hlive)

/-- **Soundness of the plan of an ALM**: one assignment of nets to the physical pins explains
whatever plan there is, for every netlist and every placement. -/
theorem planAlm?_sound (d : Device) (lab alm : Nat) (plan : InputPlan)
    (h : d.planAlm? lab alm = some plan) :
    ∃ a nets, d.alm? lab alm = some a ∧ d.Explains a plan nets := by
  obtain ⟨a, halm, hplan⟩ := Option.bind_eq_some_iff.mp h
  obtain ⟨nets, hsound⟩ := InputPlan.ofDemand?_sound hplan
  refine ⟨a, nets, halm, ?_⟩
  have hfused : plan.fused = (d.almDemand a).isFused := hsound.fused
  have hon (half : Half) : InputPlan.OnPins plan.fused half nets
      (((d.lutCells a).get half).map d.lutDemand) (plan.lutPins.get half) := by
    rw [hfused, ← almDemand_luts_get]
    exact hsound.inputs half
  constructor
  case fused => rw [hfused, almDemand_isFused_iff]
  case alone =>
    intro hf half other id id' hid hid'
    exact half_eq_of_lutCount_le d a (hsound.alone (hfused ▸ hf)) hid hid'
  case live =>
    intro half id k net hid hlive
    obtain ⟨own, hpin, huses, hcarry⟩ := exists_pins_of_live hsound hid hlive
    exact ⟨own, hpin, InputPlan.sitePins_of_usesPins hpin huses, huses, hcarry⟩
  case dead =>
    intro half id k hid hdead
    have hnone := (hon half).dead (k := k) fun lut hlut net hnet => by
      rw [hid] at hlut
      obtain rfl := Option.some.inj hlut
      exact hdead net ((liveInput_iff d id k net).mpr hnet)
    exact ⟨hnone, InputPlan.sitePins_of_join_eq_none hnone⟩
  case vacant =>
    intro half k hid
    have hnone := (hon half).dead (k := k) fun lut hlut => by
      rw [hid] at hlut
      cases hlut
    exact ⟨hnone, InputPlan.sitePins_of_join_eq_none hnone⟩
  case selector =>
    intro half net hneeds
    obtain ⟨hall, hpin⟩ :=
      hsound.selector half net ((mem_almDemand_selectorNets d a half net).mpr hneeds)
    exact ⟨fun other h => hall other ((mem_almDemand_selectorNets d a half other).mpr h), hpin⟩
  case idle =>
    intro half hidle
    refine hsound.unused half (List.eq_nil_iff_forall_not_mem.mpr fun net hnet => ?_)
    exact hidle net ((mem_almDemand_selectorNets d a half net).mp hnet)
  case source =>
    intro half second id hid
    rw [hsound.sources, flopSources_flop d a half second hid]
    rfl

/-- A model of a single ALM. The LUTs of its halves have two inputs each and share net 0, and a
flip-flop of the bottom half takes net 2 from outside. -/
def sharedNetModel : Device :=
  let bel (z : UInt16) : BelId := ⟨.pack 0 0, z⟩
  let site (cell : Option Nat) : Site :=
    { name := .empty, type := .empty, cell := cell.map CellId.mk }
  let lut (other output : Nat) : Cell :=
    { name := .empty, type := Known.alut2
      lut := {
        inputCount := 2
        inputs := [some ⟨0⟩, some ⟨other⟩, none, none, none, none]
        output := some ⟨output⟩ } }
  let flop : Cell := { name := .empty, type := Known.flipFlop, flipFlop := { dataIn := some ⟨2⟩ } }
  let wires : Halves Wire := ⟨⟨0⟩, ⟨0⟩⟩
  let flopWires : Flops Wire := ⟨(⟨0⟩, ⟨0⟩), (⟨0⟩, ⟨0⟩)⟩
  let alm : Alm :=
    { combOut := wires, clkSelector := wires, enaSelector := wires, aclrSelector := wires
      efSelector := wires, ffIn := flopWires, ffOut := flopWires
      lutSites := ⟨bel 0, bel 1⟩, ffSites := ⟨(bel 2, bel 3), (bel 4, bel 5)⟩ }
  { blank {} ⟨"", 1, 1⟩ with
    netlist := { cells := #[lut 1 3, lut 2 4, flop] }
    labs := #[{ pos := .pack 0 0, alms := #[alm], shared := .const [] }]
    sites := #[[some 0, some 1, none, none, none, some 2].toArray.map site] }

/-- The plan of that ALM: the shared net uses `A`, and net 2 reaches the bottom LUT and the
flip-flop through `E1`. -/
def sharedNetPlan : InputPlan where
  fused := false
  lutPins :=
    ⟨[some .a, some .c, none, none, none, none], [some .a, some .e1, none, none, none, none]⟩
  efPins := ⟨none, some .e1⟩
  flopSource := ⟨(.open, .open), (.open, .selector)⟩

/-- The plan of the model with a shared net is explained. -/
theorem planAlm?_sharedNetModel : sharedNetModel.planAlm? 0 0 = some sharedNetPlan ∧
    ∃ a nets, sharedNetModel.alm? 0 0 = some a ∧ sharedNetModel.Explains a sharedNetPlan nets :=
  ⟨by decide +kernel, planAlm?_sound sharedNetModel 0 0 sharedNetPlan (by decide +kernel)⟩

end Device

end Fabric
