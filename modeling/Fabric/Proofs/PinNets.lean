import Fabric.Alm.Plan
import Mathlib.Data.List.Forall2

/-!
# Pins keep their nets

Planning an ALM hands out its eight physical pins in several phases, and a later phase sees
what the earlier ones did through one value only: the net that each pin carries. This module
proves the invariant that all phases share. Each of them *extends* the assignment: a pin that
carries a net keeps it, and an input that a phase has placed is on a pin that carries its net
from then on.

## Main results

* `PinNets.Extends`: one assignment of nets to pins extends another;
* `claimAll?_sound`, `foldl_share_extends`, `placeNet?_sound`: what one step of each phase does;
* `placeFused?_sound`, `placeSplit?_sound`: what a phase does to all inputs of a LUT.
-/

namespace Fabric

namespace PinNets

variable {nets mid later : PinNets} {pin : AlmPin} {net : NetId}

/-- One assignment extends another when every pin keeps the net that it carries. -/
def Extends (nets later : PinNets) : Prop :=
  ∀ ⦃p n⦄, nets p = some n → later p = some n

theorem Extends.refl (nets : PinNets) : nets.Extends nets := fun _ _ h => h

theorem Extends.trans (h₁ : nets.Extends mid) (h₂ : mid.Extends later) : nets.Extends later :=
  fun _ _ h => h₂ (h₁ h)

/-! ### Single pins -/

/-- A pin has the net last put on it. -/
@[simp] theorem put_self (nets : PinNets) (pin : AlmPin) (net : NetId) :
    nets.put pin net pin = some net := by
  simp [put]

/-- A net that goes on a free pin displaces no other. -/
theorem extends_put (net : NetId) (h : nets pin = none) : nets.Extends (nets.put pin net) := by
  intro p n hp
  have hne : p ≠ pin := by
    rintro rfl
    rw [h] at hp
    cases hp
  rw [put, if_neg hne]
  exact hp

/-- A claim that is granted puts the net on the pin and moves no other net. -/
theorem claim?_sound (h : nets.claim? pin net = some later) :
    nets.Extends later ∧ later pin = some net := by
  rw [claim?] at h
  cases hp : nets pin with
  | none =>
      rw [hp] at h
      obtain rfl := Option.some.inj h
      exact ⟨extends_put net hp, put_self nets pin net⟩
  | some other =>
      rw [hp, Option.ite_none_right_eq_some] at h
      obtain ⟨rfl, h⟩ := h
      obtain rfl := Option.some.inj h
      exact ⟨Extends.refl nets, hp⟩

/-- A claim that is granted adds one entry to the assignment, and nothing else. -/
theorem claim?_iff (h : nets.claim? pin net = some later) {p : AlmPin} {n : NetId} :
    later p = some n ↔ nets p = some n ∨ net = n ∧ pin = p := by
  obtain ⟨hext, hput⟩ := claim?_sound h
  constructor
  · intro hn
    rw [claim?] at h
    split at h
    · obtain rfl := Option.some.inj h
      rw [put] at hn
      split at hn
      · rename_i heq
        exact .inr ⟨Option.some.inj hn, heq.symm⟩
      · exact .inl hn
    · rw [Option.ite_none_right_eq_some] at h
      obtain ⟨-, h⟩ := h
      obtain rfl := Option.some.inj h
      exact .inl hn
  · rintro (hn | ⟨rfl, rfl⟩)
    · exact hext hn
    · exact hput

/-- Claiming several pins puts the net on all of them. -/
theorem claimAll?_sound {pins : List AlmPin} (h : nets.claimAll? pins net = some later) :
    nets.Extends later ∧ ∀ p ∈ pins, later p = some net := by
  induction pins generalizing nets with
  | nil =>
      obtain rfl := Option.some.inj h
      exact ⟨Extends.refl nets, by simp⟩
  | cons p rest ih =>
      rw [claimAll?, List.foldlM_cons] at h
      obtain ⟨mid, hmid, hrest⟩ := Option.bind_eq_some_iff.mp h
      obtain ⟨hext, hp⟩ := claim?_sound hmid
      obtain ⟨hext', hall⟩ := ih hrest
      refine ⟨hext.trans hext', ?_⟩
      intro q hq
      rcases List.mem_cons.mp hq with rfl | hq
      · exact hext' hp
      · exact hall q hq

/-- The carrier of a net is one of the pins, and has the net. -/
theorem carrier?_eq_some {pins : List AlmPin} (h : nets.carrier? pins net = some pin) :
    pin ∈ pins ∧ nets pin = some net :=
  ⟨List.mem_of_find?_eq_some h, by simpa using List.find?_some h⟩

/-- The first free pin is one of the pins, and has no net. -/
theorem firstFree?_eq_some {pins : List AlmPin} (h : nets.firstFree? pins = some pin) :
    pin ∈ pins ∧ nets pin = none :=
  ⟨List.mem_of_find?_eq_some h, by simpa using List.find?_some h⟩

end PinNets

/-- A half takes only pins that it reads. -/
theorem Half.mem_lutPins_of_mem_freeOrder {half : Half} {pin : AlmPin}
    (h : pin ∈ half.freeOrder) : pin ∈ half.lutPins := by
  cases half <;> cases pin <;> simp_all [Half.freeOrder, Half.lutPins]

namespace InputPlan

variable {nets later : PinNets} {pin : AlmPin} {net : NetId}

/-! ### The inputs of a LUT in fused mode -/

/-- What the fused mode promises an input with the pins `own`: a net is on all of them, and an
input without a net uses none. -/
def OnOwnPins (nets : PinNets) (input : Option NetId × List AlmPin) (pin : Option AlmPin) : Prop :=
  match input.1 with
  | none => pin = none
  | some net => pin = input.2.head? ∧ ∀ p ∈ input.2, nets p = some net

/-- An input stays on its own pins as more nets are put on pins. -/
theorem OnOwnPins.mono (h : nets.Extends later) {input : Option NetId × List AlmPin}
    {pin : Option AlmPin} (hp : OnOwnPins nets input pin) : OnOwnPins later input pin := by
  obtain ⟨_ | net, own⟩ := input
  · exact hp
  · exact ⟨hp.1, fun p hmem => h (hp.2 p hmem)⟩

/-- Placing the inputs of a fused LUT moves no net and puts every live input on its own pins. -/
theorem placeFused?_sound {inputs : List (Option NetId × List AlmPin)}
    {pins : List (Option AlmPin)} (h : placeFused? inputs nets = some (pins, later)) :
    nets.Extends later ∧ List.Forall₂ (OnOwnPins later) inputs pins := by
  fun_induction placeFused? inputs nets generalizing pins later with
  | case1 nets =>
      obtain ⟨rfl, rfl⟩ := Prod.mk.inj (Option.some.inj h)
      exact ⟨.refl nets, .nil⟩
  | case2 own rest nets ih =>
      simp only [Option.bind_eq_bind, Option.bind_eq_some_iff] at h
      obtain ⟨⟨tail, mid⟩, hrest, h⟩ := h
      obtain ⟨rfl, rfl⟩ := Prod.mk.inj (Option.some.inj h)
      obtain ⟨hext, hall⟩ := ih hrest
      exact ⟨hext, .cons rfl hall⟩
  | case3 net own rest nets ih =>
      simp only [Option.bind_eq_bind, Option.bind_eq_some_iff] at h
      obtain ⟨claimed, hclaim, ⟨tail, mid⟩, hrest, h⟩ := h
      obtain ⟨rfl, rfl⟩ := Prod.mk.inj (Option.some.inj h)
      obtain ⟨hext, hown⟩ := PinNets.claimAll?_sound hclaim
      obtain ⟨hext', hall⟩ := ih claimed hrest
      exact ⟨hext.trans hext', .cons ⟨rfl, fun p hp => hext' (hown p hp)⟩ hall⟩

/-! ### The inputs of a LUT in split mode -/

/-- What the split mode promises an input of a half: a net is on the pin of the input, which the
half reads, and an input without a net uses no pin. -/
def OnHalfPin (half : Half) (nets : PinNets) (input : Option NetId) (pin : Option AlmPin) :
    Prop :=
  match input with
  | none => pin = none
  | some net => ∃ p, pin = some p ∧ p ∈ half.lutPins ∧ nets p = some net

/-- An input stays on a pin of its half as more nets are put on pins. -/
theorem OnHalfPin.mono {half : Half} (h : nets.Extends later) {input : Option NetId}
    {pin : Option AlmPin} (hp : OnHalfPin half nets input pin) :
    OnHalfPin half later input pin := by
  cases input with
  | none => exact hp
  | some net =>
      obtain ⟨p, hpin, hmem, hnet⟩ := hp
      exact ⟨p, hpin, hmem, h hnet⟩

/-- Sharing a net between the halves moves no other net. -/
theorem share_extends (others : List NetId) (nets : PinNets) (net : NetId) :
    nets.Extends (share others nets net) := by
  rw [share]
  split
  · split
    · rename_i pin hfree
      exact PinNets.extends_put net (PinNets.firstFree?_eq_some hfree).2
    · exact .refl nets
  · exact .refl nets

/-- Sharing takes no net off a pin. -/
theorem foldl_share_extends (others shared : List NetId) (nets : PinNets) :
    nets.Extends (shared.foldl (share others) nets) := by
  induction shared generalizing nets with
  | nil => exact .refl nets
  | cons net rest ih => exact (share_extends others nets net).trans (ih _)

/-- Placing a net in a half moves no other net and puts it on a pin that the half reads. -/
theorem placeNet?_sound {half : Half} (h : placeNet? half nets net = some (pin, later)) :
    nets.Extends later ∧ pin ∈ half.lutPins ∧ later pin = some net := by
  rw [placeNet?] at h
  split at h
  · rename_i p hcarrier
    obtain ⟨rfl, rfl⟩ := Prod.mk.inj (Option.some.inj h)
    obtain ⟨hmem, hnet⟩ := PinNets.carrier?_eq_some hcarrier
    exact ⟨.refl nets, hmem, hnet⟩
  · obtain ⟨p, hfree, h⟩ := Option.map_eq_some_iff.mp h
    obtain ⟨rfl, rfl⟩ := Prod.mk.inj h
    obtain ⟨hmem, hnone⟩ := PinNets.firstFree?_eq_some hfree
    exact ⟨PinNets.extends_put net hnone, Half.mem_lutPins_of_mem_freeOrder hmem,
      PinNets.put_self nets p net⟩

/-- Placing the inputs of the LUT of a half moves no net and puts every live input on a pin that
the half reads. -/
theorem placeSplit?_sound {half : Half} {inputs : List (Option NetId)}
    {pins : List (Option AlmPin)} (h : placeSplit? half inputs nets = some (pins, later)) :
    nets.Extends later ∧ List.Forall₂ (OnHalfPin half later) inputs pins := by
  fun_induction placeSplit? half inputs nets generalizing pins later with
  | case1 nets =>
      obtain ⟨rfl, rfl⟩ := Prod.mk.inj (Option.some.inj h)
      exact ⟨.refl nets, .nil⟩
  | case2 rest nets ih =>
      simp only [Option.bind_eq_bind, Option.bind_eq_some_iff] at h
      obtain ⟨⟨tail, mid⟩, hrest, h⟩ := h
      obtain ⟨rfl, rfl⟩ := Prod.mk.inj (Option.some.inj h)
      obtain ⟨hext, hall⟩ := ih hrest
      exact ⟨hext, .cons rfl hall⟩
  | case3 net rest nets ih =>
      simp only [Option.bind_eq_bind, Option.bind_eq_some_iff] at h
      obtain ⟨⟨p, placed⟩, hplace, ⟨tail, mid⟩, hrest, h⟩ := h
      obtain ⟨rfl, rfl⟩ := Prod.mk.inj (Option.some.inj h)
      obtain ⟨hext, hmem, hnet⟩ := placeNet?_sound hplace
      obtain ⟨hext', hall⟩ := ih placed hrest
      exact ⟨hext.trans hext', .cons ⟨p, rfl, hmem, hext' hnet⟩ hall⟩

end InputPlan

end Fabric
