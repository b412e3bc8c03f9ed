import Fabric.Proofs.PinNets
import Fabric.Proofs.SlotKeys
import Mathlib.Data.List.ReduceOption

/-!
# Supply and demand of pins

The planner hands out pins one after the other and never takes one back, so it succeeds when
the pins do not run out. Whether they do is a matter of counting: a half needs a pin for each
of its nets that is on none of its pins yet (`PinNets.missing`), and takes free private pins
before free shared ones (`PinNets.freeCount`).

Where there is nothing to choose, as for an E/F net on a given pin and for a LUT that spans both
halves, the count is not needed: a phase that follows a given assignment cannot fail.

## Main results

* `claim?_of_extends`, `exists_placeFused?`: following a given assignment;
* `foldl_share_eq`: the nets of both halves that end on the shared pins;
* `exists_placeSplit?`: a half gets its pins if there are enough, and leaves the others free.
-/

namespace Fabric

/-- The pins that only one half reads. -/
def Half.privatePins : Half → List AlmPin
  | .top => [.c, .e0, .f0]
  | .bottom => [.d, .e1, .f1]

/-- The pins that both halves read. -/
def sharedPins : List AlmPin := [.a, .b]

/-- A half takes its private pins before the two shared ones. -/
theorem Half.freeOrder_eq (half : Half) : half.freeOrder = half.privatePins ++ sharedPins := by
  cases half <;> rfl

/-- The LUT pins of a half are its private ones and the shared ones. -/
theorem Half.mem_lutPins_iff {half : Half} {pin : AlmPin} :
    pin ∈ half.lutPins ↔ pin ∈ half.privatePins ∨ pin ∈ sharedPins := by
  cases half <;> cases pin <;> decide

/-- The private pins of a half are distinct. -/
theorem Half.nodup_privatePins (half : Half) : half.privatePins.Nodup := by
  cases half <;> decide

/-- No private pin is shared. -/
theorem Half.notMem_sharedPins {half : Half} {pin : AlmPin} (h : pin ∈ half.privatePins) :
    pin ∉ sharedPins := by
  cases half <;> cases pin <;> simp_all [Half.privatePins, sharedPins]

namespace PinNets

variable {nets full : PinNets} {pin : AlmPin} {net : NetId}

/-! ### Following an assignment -/

/-- A claim that agrees with a given assignment is granted. -/
theorem claim?_of_extends (h : nets.Extends full) (hpin : full pin = some net) :
    nets.claim? pin net = some (nets.put pin net) := by
  cases hnet : nets pin with
  | none => rw [claim?, hnet]
  | some other =>
      obtain rfl : other = net := Option.some.inj ((h hnet).symm.trans hpin)
      have hput : nets.put pin other = nets := by
        funext p
        by_cases hp : p = pin
        · rw [hp, put_self, hnet]
        · rw [put, if_neg hp]
      rw [claim?, hnet, hput]
      exact if_pos rfl

/-- An assignment that a full one extends stays so when a pin gets the net it has there. -/
theorem Extends.put (h : nets.Extends full) (hpin : full pin = some net) :
    (nets.put pin net).Extends full := by
  intro p n hn
  rw [PinNets.put] at hn
  split at hn
  · rename_i heq
    obtain rfl := Option.some.inj hn
    rw [heq, hpin]
  · exact h hn

/-- Claiming pins for the net they have in a full assignment succeeds, and stays below it. -/
theorem exists_claimAll? {pins : List AlmPin} (h : nets.Extends full)
    (hpins : ∀ p ∈ pins, full p = some net) :
    ∃ later, nets.claimAll? pins net = some later ∧ later.Extends full := by
  induction pins generalizing nets with
  | nil => exact ⟨nets, rfl, h⟩
  | cons p rest ih =>
      have hp := hpins p List.mem_cons_self
      obtain ⟨later, hlater, hext⟩ := ih (h.put hp) fun q hq => hpins q (List.mem_cons_of_mem p hq)
      refine ⟨later, ?_, hext⟩
      rw [claimAll?, List.foldlM_cons, claim?_of_extends h hp]
      exact hlater

/-! ### Counts -/

/-- How many of some pins carry nothing. -/
def freeCount (nets : PinNets) (pins : List AlmPin) : Nat := pins.countP fun p => (nets p).isNone

/-- The nets that no pin of a half carries yet. -/
def missing (nets : PinNets) (half : Half) (wanted : Finset NetId) : Finset NetId :=
  wanted.filter fun net => ∀ p ∈ half.lutPins, nets p ≠ some net

/-- A wanted net is missing when no LUT pin of the half has it. -/
theorem mem_missing {half : Half} {wanted : Finset NetId} :
    net ∈ nets.missing half wanted ↔ net ∈ wanted ∧ ∀ p ∈ half.lutPins, nets p ≠ some net :=
  Finset.mem_filter

/-- A net has no carrier among pins that all have another net or none. -/
theorem carrier?_eq_none_iff {pins : List AlmPin} :
    nets.carrier? pins net = none ↔ ∀ p ∈ pins, nets p ≠ some net := by
  simp [carrier?]

/-- The count of free pins depends on those pins alone. -/
theorem freeCount_congr {later : PinNets} {pins : List AlmPin} (h : ∀ p ∈ pins, later p = nets p) :
    later.freeCount pins = nets.freeCount pins :=
  List.countP_congr fun p hp => by rw [h p hp]

/-- Some pin is free when the count says so. -/
theorem exists_firstFree? {pins : List AlmPin} (h : 0 < nets.freeCount pins) :
    ∃ p, nets.firstFree? pins = some p := by
  obtain ⟨p, hp, hfree⟩ := List.countP_pos_iff.mp h
  exact Option.isSome_iff_exists.mp (List.find?_isSome.mpr ⟨p, hp, hfree⟩)

/-- The first free pin is among the first pins if one of those is free. -/
theorem firstFree?_append {pins more : List AlmPin} (h : 0 < nets.freeCount pins) :
    nets.firstFree? (pins ++ more) = nets.firstFree? pins := by
  obtain ⟨p, hp⟩ := exists_firstFree? h
  rw [firstFree?] at hp
  rw [firstFree?, firstFree?, List.find?_append, hp, Option.some_or]

/-- Where no pin is free, the search goes on behind them. -/
theorem firstFree?_append_of_eq_zero {pins more : List AlmPin} (h : nets.freeCount pins = 0) :
    nets.firstFree? (pins ++ more) = nets.firstFree? more := by
  have hnone : pins.find? (fun p => (nets p).isNone) = none := by
    rw [List.find?_eq_none]
    exact List.countP_eq_zero.mp h
  rw [firstFree?, firstFree?, List.find?_append, hnone, Option.none_or]

/-- A net put on another pin leaves the count as it was. -/
theorem freeCount_put_of_notMem (nets : PinNets) (net : NetId) {pins : List AlmPin}
    (h : pin ∉ pins) :
    (nets.put pin net).freeCount pins = nets.freeCount pins := by
  refine freeCount_congr fun p hp => ?_
  rw [put, if_neg]
  rintro rfl
  exact h hp

/-- A net that goes on a free pin uses it up. -/
theorem freeCount_put_of_mem (net : NetId) {pins : List AlmPin} (hnodup : pins.Nodup)
    (h : pin ∈ pins) (hfree : nets pin = none) :
    (nets.put pin net).freeCount pins + 1 = nets.freeCount pins :=
  countP_add_one hnodup h (by rw [hfree]; rfl) (by rw [put_self]; rfl)
    fun p hp => by rw [put, if_neg hp]

/-- A net that goes on a free pin of a half is not missing there any more. -/
theorem missing_put (net : NetId) {half : Half} (hpin : pin ∈ half.lutPins)
    (hfree : nets pin = none) (wanted : Finset NetId) :
    (nets.put pin net).missing half wanted = (nets.missing half wanted).erase net := by
  ext n
  rw [Finset.mem_erase, mem_missing, mem_missing]
  constructor
  · rintro ⟨hn, hcarry⟩
    have hne : n ≠ net := by
      rintro rfl
      exact hcarry pin hpin (put_self nets pin n)
    refine ⟨hne, hn, fun p hp hnet => hcarry p hp (extends_put net hfree hnet)⟩
  · rintro ⟨hne, hn, hcarry⟩
    refine ⟨hn, fun p hp hnet => ?_⟩
    rw [put] at hnet
    split at hnet
    · exact hne (Option.some.inj hnet).symm
    · exact hcarry p hp hnet

/-- A net that the half already has is not missing. -/
theorem missing_insert_of_carried {half : Half} (hpin : pin ∈ half.lutPins)
    (hnet : nets pin = some net) (wanted : Finset NetId) :
    nets.missing half (insert net wanted) = nets.missing half wanted := by
  rw [missing, Finset.filter_insert, if_neg]
  · rfl
  · exact fun h => h pin hpin hnet

/-- A net that the half does not have is missing once it is wanted. -/
theorem missing_insert {half : Half} (h : ∀ p ∈ half.lutPins, nets p ≠ some net)
    (wanted : Finset NetId) :
    nets.missing half (insert net wanted) = insert net (nets.missing half wanted) := by
  rw [missing, Finset.filter_insert, if_pos h]
  rfl

/-- Where an assignment that extends this one has a net that is missing, nothing is yet. -/
theorem Extends.eq_none_of_missing (h : nets.Extends full) {half : Half} {wanted : Finset NetId}
    (hmissing : net ∈ nets.missing half wanted) (hpin : pin ∈ half.lutPins)
    (hfull : full pin = some net) : nets pin = none := by
  cases hcarried : nets pin with
  | none => rfl
  | some other =>
      obtain rfl : other = net := Option.some.inj ((h hcarried).symm.trans hfull)
      exact ((mem_missing.mp hmissing).2 pin hpin hcarried).elim

/-- Nothing new is missing when the assignment is extended. -/
theorem Extends.missing_subset {later : PinNets} (h : nets.Extends later) (half : Half)
    (wanted : Finset NetId) : later.missing half wanted ⊆ nets.missing half wanted := by
  intro n hn
  obtain ⟨hmem, hcarry⟩ := mem_missing.mp hn
  exact mem_missing.mpr ⟨hmem, fun p hp hnet => hcarry p hp (h hnet)⟩

end PinNets

namespace InputPlan

variable {nets full : PinNets}

/-- The inputs of a fused LUT follow a given assignment that has each of them on its pins. -/
theorem exists_placeFused? {inputs : List (Option NetId × List AlmPin)} (h : nets.Extends full)
    (hlive : ∀ net own, (some net, own) ∈ inputs → ∀ p ∈ own, full p = some net) :
    ∃ pins later, placeFused? inputs nets = some (pins, later) ∧ later.Extends full := by
  induction inputs generalizing nets with
  | nil => exact ⟨[], nets, rfl, h⟩
  | cons input rest ih =>
      have hrest : ∀ net own, (some net, own) ∈ rest → ∀ p ∈ own, full p = some net :=
        fun net own hmem => hlive net own (List.mem_cons_of_mem input hmem)
      obtain ⟨_ | net, own⟩ := input
      · obtain ⟨pins, later, hplace, hext⟩ := ih h hrest
        exact ⟨none :: pins, later, by rw [placeFused?, hplace]; rfl, hext⟩
      · obtain ⟨claimed, hclaim, hmid⟩ :=
          PinNets.exists_claimAll? h (hlive net own List.mem_cons_self)
        obtain ⟨pins, later, hplace, hext⟩ := ih hmid hrest
        refine ⟨own.head? :: pins, later, ?_, hext⟩
        rw [placeFused?, hclaim]
        simp only [Option.bind_eq_bind, Option.bind_some, hplace]
        rfl

/-! ### Sharing -/

/-- Puts the first two of some nets on the shared pins. -/
def onShared (nets : PinNets) (shared : List NetId) : PinNets
  | .a => shared[0]?
  | .b => shared[1]?
  | p => nets p

/-- Sharing a net that both halves want puts it behind the shared ones, unless it is there. -/
theorem share_onShared {others shared : List NetId} {net : NetId} (hnet : net ∈ others) :
    share others (onShared nets shared) net =
      onShared nets (if net ∈ shared then shared else shared ++ [net]) := by
  match shared with
  | [] =>
      have hput : (onShared nets []).put .a net = onShared nets [net] := by
        funext p
        cases p <;> rfl
      simpa [share, hnet, PinNets.carrier?, PinNets.firstFree?, onShared] using hput
  | [first] =>
      have hput : (onShared nets [first]).put .b net = onShared nets [first, net] := by
        funext p
        cases p <;> rfl
      by_cases hfirst : net = first
      · simp [share, PinNets.carrier?, onShared, hfirst]
      · have hne : first ≠ net := Ne.symm hfirst
        simpa [share, hnet, PinNets.carrier?, PinNets.firstFree?, onShared, hfirst, hne] using hput
  | first :: second :: rest =>
      -- Both pins are taken, whether by this net or by others.
      have hsame : share others (onShared nets (first :: second :: rest)) net =
          onShared nets (first :: second :: rest) := by
        simp [share, PinNets.firstFree?, onShared]
      rw [hsame]
      split
      · rfl
      · funext p
        cases p <;> rfl

/-- The nets on both halves take the shared pins in order, each once. -/
theorem foldl_share_eq {others xs : List NetId} (ha : nets .a = none) (hb : nets .b = none) :
    xs.foldl (share others) nets = onShared nets ((xs.filter (· ∈ others)).eraseDups) := by
  induction xs using List.reverseRecOn with
  | nil =>
      funext p
      cases p <;> simp [onShared, ha, hb]
  | append_singleton xs net ih =>
      rw [List.foldl_append, ih, List.foldl_cons, List.foldl_nil]
      by_cases hnet : net ∈ others
      · rw [share_onShared hnet, List.filter_append, List.filter_singleton]
        simp only [hnet, decide_true, cond_true, eraseDups_concat, List.mem_eraseDups]
      · simp [share, hnet, List.filter_append]

/-- Putting nets on A and B keeps what was on the other pins. -/
theorem extends_onShared (ha : nets .a = none) (hb : nets .b = none) (shared : List NetId) :
    nets.Extends (onShared nets shared) := by
  intro p n hn
  cases p <;> simp_all [onShared]

/-- The first two nets are on the shared pins. -/
theorem exists_pin_onShared (nets : PinNets) {shared : List NetId} {net : NetId}
    (h : net ∈ shared.take 2) : ∃ p ∈ sharedPins, onShared nets shared p = some net := by
  match shared with
  | [] => cases h
  | [first] =>
      obtain rfl := List.mem_singleton.mp h
      exact ⟨.a, by decide, rfl⟩
  | first :: second :: rest =>
      rcases List.mem_pair.mp h with rfl | rfl
      · exact ⟨.a, by decide, rfl⟩
      · exact ⟨.b, by decide, rfl⟩

/-- Every shared net takes up one of the two shared pins. -/
theorem freeCount_onShared (nets : PinNets) (shared : List NetId) :
    (onShared nets shared).freeCount sharedPins = 2 - shared.length := by
  match shared with
  | [] => rfl
  | [first] => rfl
  | first :: second :: rest =>
      rw [List.length_cons, List.length_cons, Nat.sub_eq_zero_of_le (by omega)]
      rfl

/-- The private pins are as free as they were. -/
theorem freeCount_onShared_private (nets : PinNets) (shared : List NetId) (half : Half) :
    (onShared nets shared).freeCount half.privatePins = nets.freeCount half.privatePins :=
  PinNets.freeCount_congr fun p hp => by
    cases half <;> cases p <;> simp_all [Half.privatePins, onShared]

/-- Nets that a half misses and that take the shared pins are not missing there any more. -/
theorem card_missing_onShared_le {half : Half} {wanted : Finset NetId} {shared : List NetId}
    (ha : nets .a = none) (hb : nets .b = none) (hnodup : (shared.take 2).Nodup)
    (h : ∀ net ∈ shared.take 2, net ∈ nets.missing half wanted) :
    ((onShared nets shared).missing half wanted).card + min 2 shared.length ≤
      (nets.missing half wanted).card := by
  have hsub : (onShared nets shared).missing half wanted ⊆
      nets.missing half wanted \ (shared.take 2).toFinset := by
    intro net hnet
    refine Finset.mem_sdiff.mpr
      ⟨(extends_onShared ha hb shared).missing_subset half wanted hnet, fun hmem => ?_⟩
    obtain ⟨p, hp, hcarried⟩ := exists_pin_onShared nets (List.mem_toFinset.mp hmem)
    exact (PinNets.mem_missing.mp hnet).2 p (Half.mem_lutPins_iff.mpr (.inr hp)) hcarried
  have htake : (shared.take 2).toFinset ⊆ nets.missing half wanted :=
    fun net hnet => h net (List.mem_toFinset.mp hnet)
  have hcard := Finset.card_sdiff_add_card_eq_card htake
  rw [List.toFinset_card_of_nodup hnodup, List.length_take] at hcard
  have hle := Finset.card_le_card hsub
  omega

/-! ### Split mode -/

/-- A net that a half does not carry yet takes a free private pin, or else a free shared one. -/
theorem exists_placeNet? (half : Half) {net : NetId} (h : ∀ p ∈ half.lutPins, nets p ≠ some net)
    (hfree : 0 < nets.freeCount half.privatePins + nets.freeCount sharedPins) :
    ∃ pin, placeNet? half nets net = some (pin, nets.put pin net) ∧ nets pin = none ∧
      pin ∈ if 0 < nets.freeCount half.privatePins then half.privatePins else sharedPins := by
  simp only [placeNet?, PinNets.carrier?_eq_none_iff.mpr h, half.freeOrder_eq]
  by_cases hprivate : 0 < nets.freeCount half.privatePins
  · rw [if_pos hprivate]
    obtain ⟨pin, hpin⟩ := PinNets.exists_firstFree? hprivate
    obtain ⟨hmem, hnone⟩ := PinNets.firstFree?_eq_some hpin
    exact ⟨pin, by rw [PinNets.firstFree?_append hprivate, hpin]; rfl, hnone, hmem⟩
  · rw [if_neg hprivate]
    have hzero : nets.freeCount half.privatePins = 0 := by omega
    obtain ⟨pin, hpin⟩ : ∃ pin, nets.firstFree? sharedPins = some pin :=
      PinNets.exists_firstFree? (by omega)
    obtain ⟨hmem, hnone⟩ := PinNets.firstFree?_eq_some hpin
    exact ⟨pin, by rw [PinNets.firstFree?_append_of_eq_zero hzero, hpin]; rfl, hnone, hmem⟩

/-- A net that takes a pin as a half hands them out leaves one pin fewer, a private one
if there was one. -/
theorem freeCount_placed {half : Half} {pin : AlmPin} (net : NetId)
    (hmem : pin ∈ if 0 < nets.freeCount half.privatePins then half.privatePins else sharedPins)
    (hnone : nets pin = none) :
    (nets.put pin net).freeCount half.privatePins = nets.freeCount half.privatePins - 1 ∧
      (nets.put pin net).freeCount sharedPins + (1 - nets.freeCount half.privatePins) =
        nets.freeCount sharedPins := by
  split at hmem
  · have hprivate := PinNets.freeCount_put_of_mem net half.nodup_privatePins hmem hnone
    have hshared := PinNets.freeCount_put_of_notMem nets net
      (Half.notMem_sharedPins hmem)
    omega
  · have hprivate := PinNets.freeCount_put_of_notMem nets net
      fun h : pin ∈ half.privatePins => Half.notMem_sharedPins h hmem
    have hshared := PinNets.freeCount_put_of_mem net (by decide) hmem hnone
    omega

/-- **Supply and demand of a half**: its LUT gets its pins if no more nets are missing than pins
are free. The pins that it does not read keep their nets, and it takes no more shared pins than
its private ones leave it short of. -/
theorem exists_placeSplit? (half : Half) (inputs : List (Option NetId)) (nets : PinNets)
    (h : (nets.missing half inputs.reduceOption.toFinset).card ≤
      nets.freeCount half.privatePins + nets.freeCount sharedPins) :
    ∃ pins later, placeSplit? half inputs nets = some (pins, later) ∧
      (∀ p ∉ half.lutPins, later p = nets p) ∧
      nets.freeCount sharedPins ≤ later.freeCount sharedPins +
        ((nets.missing half inputs.reduceOption.toFinset).card -
          nets.freeCount half.privatePins) := by
  induction inputs generalizing nets with
  | nil => exact ⟨[], nets, rfl, fun _ _ => rfl, Nat.le_add_right ..⟩
  | cons input rest ih =>
      cases input with
      | none =>
          rw [List.reduceOption_cons_of_none] at h ⊢
          obtain ⟨pins, later, hplace, hkeep, hcount⟩ := ih nets h
          exact ⟨none :: pins, later, by rw [placeSplit?, hplace]; rfl, hkeep, hcount⟩
      | some net =>
          rw [List.reduceOption_cons_of_some, List.toFinset_cons] at h ⊢
          by_cases hcarried : ∀ p ∈ half.lutPins, nets p ≠ some net
          -- The net is missing: it takes a free pin, and the others that are missing stay so.
          · have hcard := Finset.card_erase_add_one
              (Finset.mem_insert_self net (nets.missing half rest.reduceOption.toFinset))
            rw [Finset.erase_insert_eq_erase] at hcard
            rw [PinNets.missing_insert hcarried, ← hcard] at h ⊢
            obtain ⟨pin, hplaced, hnone, hmem⟩ := exists_placeNet? half hcarried (by omega)
            have hread : pin ∈ half.lutPins := by
              rw [Half.mem_lutPins_iff]
              split at hmem
              · exact .inl hmem
              · exact .inr hmem
            have hmissing := PinNets.missing_put net hread hnone
              rest.reduceOption.toFinset
            have hfree := freeCount_placed net hmem hnone
            obtain ⟨pins, later, hplace, hkeep, hcount⟩ :=
              ih (nets.put pin net) (by rw [hmissing]; omega)
            rw [hmissing] at hcount
            refine ⟨some pin :: pins, later, ?_, fun p hp => ?_, ?_⟩
            · rw [placeSplit?, hplaced]
              simp only [Option.bind_eq_bind, Option.bind_some, hplace]
              rfl
            · have hne : p ≠ pin := by
                rintro rfl
                exact hp hread
              rw [hkeep p hp, PinNets.put, if_neg hne]
            · omega
          -- A pin of the half has the net already, and nothing is put on another.
          · push Not at hcarried
            obtain ⟨p, hp, hnet⟩ := hcarried
            rw [PinNets.missing_insert_of_carried hp hnet] at h ⊢
            obtain ⟨pin, hcarrier⟩ : ∃ pin, nets.carrier? half.lutPins net = some pin :=
              Option.isSome_iff_exists.mp (List.find?_isSome.mpr ⟨p, hp, by simpa using hnet⟩)
            obtain ⟨pins, later, hplace, hkeep, hcount⟩ := ih nets h
            refine ⟨some pin :: pins, later, ?_, hkeep, hcount⟩
            simp only [placeSplit?, placeNet?, hcarrier, Option.bind_eq_bind, Option.bind_some,
              hplace]
            rfl

/-- The same for a half that may have no LUT. -/
theorem exists_splitHalf? (half : Half) (lut : Option LutDemand) (nets : PinNets)
    (wanted : Finset NetId)
    (hwanted : wanted = ((lut.map fun l => l.inputs.reduceOption).getD []).toFinset)
    (h : (nets.missing half wanted).card ≤
      nets.freeCount half.privatePins + nets.freeCount sharedPins) :
    ∃ pins later, splitHalf? half lut nets = some (pins, later) ∧
      (∀ p ∉ half.lutPins, later p = nets p) ∧
      nets.freeCount sharedPins ≤ later.freeCount sharedPins +
        ((nets.missing half wanted).card - nets.freeCount half.privatePins) := by
  subst hwanted
  cases lut with
  | none => exact ⟨noPins, nets, rfl, fun _ _ => rfl, Nat.le_add_right ..⟩
  | some lut => exact exists_placeSplit? half lut.inputs nets h

end InputPlan

end Fabric
