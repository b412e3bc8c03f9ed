import Fabric.Proofs.InputPlan
import Fabric.Proofs.PinSupply

/-!
# Completeness of input plans

The planner refuses an ALM when it finds no plan. This module compares that answer with *every*
assignment of nets to the eight pins: `Device.Accommodates` says of an assignment that each
occupant of a placed ALM finds its nets on pins that it can read.

The E/F pins are tried exhaustively and a fused LUT has no choice, so only the greedy part of the
split mode can miss an assignment. It shares the first two nets of both LUTs before it looks at
what the E/F pins carry already. That costs nothing as long as neither of the two is an E/F net:
a shared pin given to a net of both halves serves two demands, and no assignment does better. An
E/F net, however, may be on a pin of its own that one of the halves reads, and the shared pin
that it takes then serves one demand only.

## Main results

* `isSome_lutPins?_of_counts`: the greedy part succeeds where the counts allow it;
* `ofDemand?_complete`: an accommodating assignment yields a plan, E/F nets apart;
* `planAlm?_eq_none`: what it means that a placed ALM has no plan;
* `planAlm?_of_sharedSelectorNet`: an ALM that is refused although its occupants fit.
-/

namespace Fabric

namespace AlmDemand

/-- The live nets of the LUT of a half. -/
def wanted (d : AlmDemand) (half : Half) : Finset NetId := (d.lutNets half).toFinset

theorem mem_wanted {d : AlmDemand} {half : Half} {net : NetId} :
    net ∈ d.wanted half ↔ net ∈ d.lutNets half :=
  List.mem_toFinset

/-- The nets of both LUTs, each once, in order of the inputs of the top LUT. -/
def sharedNets (d : AlmDemand) : List NetId :=
  ((d.lutNets .top).filter (· ∈ d.lutNets .bottom)).eraseDups

/-- A shared net is one that both halves read. -/
theorem mem_sharedNets {d : AlmDemand} {net : NetId} :
    net ∈ d.sharedNets ↔ ∀ half, net ∈ d.lutNets half := by
  simp only [sharedNets, List.mem_eraseDups, List.mem_filter, decide_eq_true_eq]
  exact ⟨fun h half => half.casesOn h.1 h.2, fun h => ⟨h .top, h .bottom⟩⟩

theorem nodup_take_sharedNets (d : AlmDemand) : (d.sharedNets.take 2).Nodup :=
  (nodup_eraseDups _).sublist (List.take_sublist ..)

end AlmDemand

namespace InputPlan

variable {d : AlmDemand} {nets full : PinNets}

/-! ### Demand against supply -/

/-- Things that are found under different labels are no more than the labels. -/
theorem card_le_length {α β : Type} [DecidableEq β] {s : Finset β} (f : α → Option β)
    (labels : List α) (h : ∀ b ∈ s, ∃ x ∈ labels, f x = some b) : s.card ≤ labels.length := by
  have hsub : s ⊆ (labels.map f).reduceOption.toFinset := by
    intro b hb
    rw [List.mem_toFinset, List.reduceOption_mem_iff]
    exact List.mem_map.mpr (h b hb)
  calc s.card ≤ (labels.map f).reduceOption.toFinset.card := Finset.card_le_card hsub
    _ ≤ (labels.map f).reduceOption.length := List.toFinset_card_le _
    _ ≤ (labels.map f).length := List.reduceOption_length_le _
    _ = labels.length := List.length_map _

/-- The nets that an assignment has on the shared pins. -/
def netsOnShared (full : PinNets) : Finset NetId := (sharedPins.map full).reduceOption.toFinset

/-- A net is shared in a full assignment when it is on A or B. -/
theorem mem_netsOnShared {net : NetId} :
    net ∈ netsOnShared full ↔ ∃ p ∈ sharedPins, full p = some net := by
  rw [netsOnShared, List.mem_toFinset, List.reduceOption_mem_iff, List.mem_map]

/-- Two pins share at most two nets. -/
theorem card_netsOnShared_le (full : PinNets) : (netsOnShared full).card ≤ 2 :=
  card_le_length full sharedPins fun _ => mem_netsOnShared.mp

/-- What a half still misses, an assignment has on its private pins that were free, or on the
shared pins. -/
theorem card_missing_le {half : Half} {wanted : Finset NetId} (h : nets.Extends full)
    (hlive : ∀ net ∈ wanted, ∃ p ∈ half.lutPins, full p = some net) :
    (nets.missing half wanted).card ≤ nets.freeCount half.privatePins +
      (nets.missing half wanted ∩ netsOnShared full).card := by
  have hsplit := Finset.card_inter_add_card_sdiff (nets.missing half wanted) (netsOnShared full)
  have hprivate : (nets.missing half wanted \ netsOnShared full).card ≤
      (half.privatePins.filter fun p => (nets p).isNone).length := by
    refine card_le_length full _ fun net hnet => ?_
    obtain ⟨hmissing, hshared⟩ := Finset.mem_sdiff.mp hnet
    obtain ⟨p, hp, hfull⟩ := hlive net (PinNets.mem_missing.mp hmissing).1
    have hown : p ∈ half.privatePins :=
      (Half.mem_lutPins_iff.mp hp).resolve_right fun hmem =>
        hshared (mem_netsOnShared.mpr ⟨p, hmem, hfull⟩)
    have hfree := h.eq_none_of_missing hmissing hp hfull
    exact ⟨p, List.mem_filter.mpr ⟨hown, by rw [hfree]; rfl⟩, hfull⟩
  rw [PinNets.freeCount, List.countP_eq_length_filter]
  omega

/-- Two demands that the shared pins serve count double only for a net of both halves. -/
theorem card_inter_add_card_inter_le {α : Type} [DecidableEq α] (s t u : Finset α) :
    (s ∩ u).card + (t ∩ u).card ≤ u.card + min u.card (s ∩ t).card := by
  have hsum := Finset.card_union_add_card_inter (s ∩ u) (t ∩ u)
  have hunion : (s ∩ u ∪ t ∩ u).card ≤ u.card :=
    Finset.card_le_card (Finset.union_subset Finset.inter_subset_right Finset.inter_subset_right)
  have hboth : (s ∩ u ∩ (t ∩ u)).card ≤ (s ∩ t).card :=
    Finset.card_le_card
      (Finset.inter_subset_inter Finset.inter_subset_left Finset.inter_subset_left)
  have hinter : (s ∩ u ∩ (t ∩ u)).card ≤ u.card :=
    Finset.card_le_card (Finset.inter_subset_left.trans Finset.inter_subset_right)
  omega

/-- What an assignment says about the counts: with `shared half` of its shared pins, each half
misses no more than it has private pins free, and a shared pin serves both halves for a net of
both LUTs only. -/
theorem exists_sharedDemand (h : nets.Extends full)
    (hlive : ∀ half, ∀ net ∈ d.lutNets half, ∃ p ∈ half.lutPins, full p = some net) :
    ∃ shared : Half → Nat, (∀ half, (nets.missing half (d.wanted half)).card ≤
        nets.freeCount half.privatePins + shared half) ∧
      (∀ half, shared half ≤ 2) ∧ shared .top + shared .bottom ≤ 2 + min 2 d.sharedNets.length := by
  have htwo := card_netsOnShared_le full
  refine ⟨fun half => (nets.missing half (d.wanted half) ∩ netsOnShared full).card,
    fun half => ?_, fun half => ?_, ?_⟩
  · exact card_missing_le h fun net hnet => hlive half net (AlmDemand.mem_wanted.mp hnet)
  · exact (Finset.card_le_card Finset.inter_subset_right).trans htwo
  · have hdouble := card_inter_add_card_inter_le (nets.missing .top (d.wanted .top))
      (nets.missing .bottom (d.wanted .bottom)) (netsOnShared full)
    have hboth : nets.missing .top (d.wanted .top) ∩ nets.missing .bottom (d.wanted .bottom) ⊆
        d.sharedNets.toFinset := by
      intro net hnet
      obtain ⟨htop, hbottom⟩ := Finset.mem_inter.mp hnet
      have hmem {half : Half} (hhalf : net ∈ nets.missing half (d.wanted half)) :
          net ∈ d.lutNets half :=
        AlmDemand.mem_wanted.mp (PinNets.mem_missing.mp hhalf).1
      exact List.mem_toFinset.mpr (AlmDemand.mem_sharedNets.mpr
        fun half => half.casesOn (hmem htop) (hmem hbottom))
    have hcard := (Finset.card_le_card hboth).trans (List.toFinset_card_le d.sharedNets)
    simp only
    omega

/-- Both halves get their pins from an assignment with which each of them misses `short half` nets
more than it has private pins free, if the shared pins that are free make up for that. -/
theorem exists_splitHalves (short : Half → Nat)
    (hshort : ∀ half, (nets.missing half (d.wanted half)).card ≤
      nets.freeCount half.privatePins + short half)
    (hsum : short .top + short .bottom ≤ nets.freeCount sharedPins) :
    ∃ top mid bottom later, splitHalf? .top d.luts.top nets = some (top, mid) ∧
      splitHalf? .bottom d.luts.bottom mid = some (bottom, later) := by
  -- The top half takes what it is short of from the shared pins.
  have htopFits := hshort .top
  obtain ⟨top, mid, htop, hkeep, hcount⟩ :=
    exists_splitHalf? .top d.luts.top nets (d.wanted .top) rfl (by omega)
  -- It leaves the bottom half its private pins and as many shared ones as that is short of.
  have hown :
      mid.freeCount (Half.privatePins .bottom) = nets.freeCount (Half.privatePins .bottom) := by
    refine PinNets.freeCount_congr fun p hp => hkeep p ?_
    cases p <;> simp_all [Half.privatePins, Half.lutPins]
  have hless := Finset.card_le_card
    ((splitHalf?_sound htop).1.missing_subset .bottom (d.wanted .bottom))
  have hbottomFits := hshort .bottom
  obtain ⟨bottom, later, hbottom, -, -⟩ :=
    exists_splitHalf? .bottom d.luts.bottom mid (d.wanted .bottom) rfl (by omega)
  exact ⟨top, mid, bottom, later, htop, hbottom⟩

/-- In split mode the LUT inputs get their pins if each half gets its own after the sharing. -/
theorem lutPins?_isSome_iff (hsplit : d.isFused = false) (ha : nets .a = none)
    (hb : nets .b = none) : (lutPins? d nets).isSome ↔ ∃ top mid bottom later,
      splitHalf? .top d.luts.top (onShared nets d.sharedNets) = some (top, mid) ∧
      splitHalf? .bottom d.luts.bottom mid = some (bottom, later) := by
  rw [lutPins?, hsplit, foldl_share_eq ha hb]
  simp only [Bool.false_eq_true, if_false, Option.bind_eq_bind, Option.isSome_iff_exists,
    Option.bind_eq_some_iff]
  constructor
  · rintro ⟨_, ⟨top, mid⟩, htop, ⟨bottom, later⟩, hbottom, -⟩
    exact ⟨top, mid, bottom, later, htop, hbottom⟩
  · rintro ⟨top, mid, bottom, later, htop, hbottom⟩
    exact ⟨_, (top, mid), htop, (bottom, later), hbottom, rfl⟩

/-- The greedy part of the split mode finds pins where counting says that there are enough: each
half may want `shared half` of the shared pins, and a shared pin counts double for each net of both
LUTs that is on no pin yet. -/
theorem isSome_lutPins?_of_counts (hsplit : d.isFused = false) (ha : nets .a = none)
    (hb : nets .b = none) (shared : Half → Nat)
    (hdemand : ∀ half, (nets.missing half (d.wanted half)).card ≤
      nets.freeCount half.privatePins + shared half)
    (htwo : ∀ half, shared half ≤ 2)
    (hsum : shared .top + shared .bottom ≤ 2 + min 2 d.sharedNets.length)
    (hapart : ∀ net ∈ d.sharedNets.take 2, ∀ p, nets p ≠ some net) :
    (lutPins? d nets).isSome := by
  -- Sharing takes one net off what each half misses for each shared pin that it uses.
  have hleft (half : Half) : ((onShared nets d.sharedNets).missing half (d.wanted half)).card +
      min 2 d.sharedNets.length ≤ (nets.missing half (d.wanted half)).card := by
    refine card_missing_onShared_le ha hb d.nodup_take_sharedNets fun net hnet => ?_
    have hmem := AlmDemand.mem_sharedNets.mp (List.mem_of_mem_take hnet) half
    exact PinNets.mem_missing.mpr ⟨AlmDemand.mem_wanted.mpr hmem, fun p _ => hapart net hnet p⟩
  refine (lutPins?_isSome_iff hsplit ha hb).mpr ?_
  refine exists_splitHalves (fun half => shared half - min 2 d.sharedNets.length)
    (fun half => ?_) ?_
  · have := hdemand half
    have := hleft half
    rw [freeCount_onShared_private]
    omega
  · have := htwo .top
    have := htwo .bottom
    rw [freeCount_onShared]
    omega

/-- The greedy part of the split mode misses no assignment when the nets that it shares first
are on no pin yet. -/
theorem isSome_lutPins?_of_split (hsplit : d.isFused = false) (ha : nets .a = none)
    (hb : nets .b = none) (h : nets.Extends full)
    (hlive : ∀ half, ∀ net ∈ d.lutNets half, ∃ p ∈ half.lutPins, full p = some net)
    (hapart : ∀ net ∈ d.sharedNets.take 2, ∀ p, nets p ≠ some net) :
    (lutPins? d nets).isSome := by
  obtain ⟨shared, hdemand, htwo, hsum⟩ := exists_sharedDemand h hlive
  exact isSome_lutPins?_of_counts hsplit ha hb shared hdemand htwo hsum hapart

/-! ### Fused mode -/

/-- Where a full assignment has the inputs of the LUT on its own pins, the pins can be claimed. -/
theorem exists_fusedHalf? (lut : Option LutDemand) (h : nets.Extends full)
    (hlive : ∀ l : LutDemand, lut = some l → ∀ (k : Nat) net own, l.inputs[k]? = some (some net) →
      fusedPins[k]? = some own → ∀ p ∈ own, full p = some net) :
    ∃ pins later, fusedHalf? lut nets = some (pins, later) ∧ later.Extends full := by
  cases lut with
  | none => exact ⟨noPins, nets, rfl, h⟩
  | some l =>
      refine exists_placeFused? h fun net own hmem => ?_
      obtain ⟨k, hk⟩ := List.mem_iff_getElem?.mp hmem
      obtain ⟨hnet, hown⟩ := List.getElem?_zip_eq_some.mp hk
      exact hlive l rfl k net own hnet hown

/-- The fused mode misses no assignment. -/
theorem isSome_lutPins?_of_fused (hfused : d.isFused = true) (h : nets.Extends full)
    (hlive : ∀ half (l : LutDemand), d.luts.get half = some l → ∀ (k : Nat) net own,
      l.inputs[k]? = some (some net) → fusedPins[k]? = some own → ∀ p ∈ own, full p = some net) :
    (lutPins? d nets).isSome := by
  obtain ⟨top, mid, htop, hmid⟩ := exists_fusedHalf? d.luts.top h (hlive .top)
  obtain ⟨bottom, later, hbottom, -⟩ := exists_fusedHalf? d.luts.bottom hmid (hlive .bottom)
  rw [lutPins?, if_pos hfused, htop]
  simp only [Option.bind_eq_bind, Option.bind_some, hbottom]
  rfl

/-! ### The E/F pins -/

/-- Some nets that are all the same are found to be so. -/
theorem exists_onlyNet? {demanded : List NetId} (h : ∀ n ∈ demanded, ∀ m ∈ demanded, m = n) :
    ∃ net, onlyNet? demanded = some net := by
  cases demanded with
  | nil => exact ⟨none, rfl⟩
  | cons n rest =>
      refine ⟨some n, if_pos (List.all_eq_true.mpr fun m hm => ?_)⟩
      exact beq_iff_eq.mpr (h n List.mem_cons_self m (List.mem_cons_of_mem n hm))

/-- Among the pins that may feed the E/F selector of a half is the one that has its net in a
given assignment. -/
theorem exists_efChoice {half : Half} {demanded : List NetId} {net : Option NetId} {p : AlmPin}
    (honly : onlyNet? demanded = some net) (hp : p ∈ half.efPins)
    (hcarry : ∀ n ∈ demanded, full p = some n) :
    ∃ pin ∈ efChoices half net, ∀ n q, net = some n → pin = some q → full q = some n := by
  rcases onlyNet?_eq_some honly with ⟨rfl, -⟩ | ⟨n, rfl, hmem, -⟩
  · refine ⟨none, List.mem_singleton.mpr rfl, ?_⟩
    rintro n q ⟨⟩
  · refine ⟨some p, List.mem_map.mpr ⟨p, hp, rfl⟩, ?_⟩
    rintro m q ⟨rfl⟩ ⟨rfl⟩
    exact hcarry n hmem

/-- Claiming an E/F pin that agrees with a given assignment is granted. -/
theorem exists_claimEf? {net : Option NetId} {pin : Option AlmPin} (h : nets.Extends full)
    (hpin : ∀ n p, net = some n → pin = some p → full p = some n) :
    ∃ later, claimEf? net pin nets = some later ∧ later.Extends full := by
  match net, pin with
  | none, _ => exact ⟨nets, rfl, h⟩
  | some n, none => exact ⟨nets, rfl, h⟩
  | some n, some p =>
      have hp := hpin n p rfl rfl
      exact ⟨nets.put p n, PinNets.claim?_of_extends h hp, h.put hp⟩

/-- The E/F nets can be put on pins on which a given assignment has them, if it has
one for each half. -/
theorem exists_efPlaced
    (h : ∀ half, ∃ p ∈ half.efPins, ∀ n ∈ d.selectorNets half, full p = some n) :
    ∃ efNets pins nets, EfPlaced d efNets pins nets ∧ nets.Extends full := by
  have hchoice (half : Half) : ∃ net pin, onlyNet? (d.selectorNets half) = some net ∧
      pin ∈ efChoices half net ∧ ∀ n p, net = some n → pin = some p → full p = some n := by
    obtain ⟨p, hp, hcarry⟩ := h half
    obtain ⟨net, hnet⟩ : ∃ net, onlyNet? (d.selectorNets half) = some net :=
      exists_onlyNet? fun n hn m hm => Option.some.inj ((hcarry m hm).symm.trans (hcarry n hn))
    obtain ⟨pin, hmem, hpin⟩ := exists_efChoice hnet hp hcarry
    exact ⟨net, pin, hnet, hmem, hpin⟩
  choose efNet efPin honly hmem hpin using hchoice
  have hnothing : PinNets.Extends .free full := by rintro _ _ ⟨⟩
  obtain ⟨mid, htop, hmid⟩ := exists_claimEf? hnothing (hpin .top)
  obtain ⟨nets, hbottom, hext⟩ := exists_claimEf? hmid (hpin .bottom)
  refine ⟨.ofFn efNet, .ofFn efPin, nets,
    ⟨fun half => ?_, fun half => ?_, mid, htop, hbottom⟩, hext⟩
  · rw [Halves.get_ofFn, honly]
  · rw [Halves.get_ofFn, Halves.get_ofFn]
    exact hmem half

/-! ### Whole demands -/

/-- An assignment of nets to pins accommodates some demands. -/
structure Accommodates (d : AlmDemand) (nets : PinNets) : Prop where
  live : ∀ half (lut : LutDemand) (k : Nat) net,
    d.luts.get half = some lut → lut.inputs[k]? = some (some net) →
    ∃ pins, UsesPins d.isFused half k pins ∧ ∀ p ∈ pins, nets p = some net
  selector : ∀ half, ∃ pin ∈ half.efPins, ∀ net ∈ d.selectorNets half, nets pin = some net

/-- The live nets of a LUT are those of its inputs. -/
theorem mem_lutNets {half : Half} {net : NetId} :
    net ∈ d.lutNets half ↔
      ∃ (lut : LutDemand) (k : Nat),
        d.luts.get half = some lut ∧ lut.inputs[k]? = some (some net) := by
  rw [AlmDemand.lutNets]
  cases hlut : d.luts.get half with
  | none => simp
  | some lut =>
      rw [Option.map_some, Option.getD_some, List.reduceOption_mem_iff, List.mem_iff_getElem?]
      constructor
      · rintro ⟨k, hk⟩
        exact ⟨lut, k, rfl, hk⟩
      · rintro ⟨_, k, ⟨rfl⟩, hk⟩
        exact ⟨k, hk⟩

/-- The E/F nets leave the shared pins free. -/
theorem EfPlaced.eq_none_of_shared {efNets : Halves (Option NetId)} {pins : Halves (Option AlmPin)}
    (h : EfPlaced d efNets pins nets) {p : AlmPin} (hp : p ∈ sharedPins) : nets p = none := by
  have hapart : ∀ half : Half, p ∉ half.efPins := by
    rintro (_ | _) <;> revert p <;> decide
  cases hnet : nets p with
  | none => rfl
  | some n =>
      obtain ⟨half, -, hmem⟩ := h.exists_half hnet
      exact (hapart half hmem).elim

/-- The LUT inputs find their pins once the E/F nets are where the assignment has them. -/
theorem Accommodates.isSome_lutPins? (hacc : Accommodates d full) (h : nets.Extends full)
    {efNets : Halves (Option NetId)} {pins : Halves (Option AlmPin)}
    (hef : EfPlaced d efNets pins nets)
    (hapart : ∀ half, ∀ net ∈ d.selectorNets half, net ∉ d.sharedNets.take 2) :
    (lutPins? d nets).isSome := by
  cases hfused : d.isFused with
  | true =>
      refine isSome_lutPins?_of_fused hfused h fun half lut hlut k net own hnet hown p hp => ?_
      obtain ⟨pins, huses, hcarry⟩ := hacc.live half lut k net hlut hnet
      rw [hfused, UsesPins, if_pos rfl, hown] at huses
      obtain rfl := Option.some.inj huses
      exact hcarry p hp
  | false =>
      refine isSome_lutPins?_of_split hfused (hef.eq_none_of_shared (by decide))
        (hef.eq_none_of_shared (by decide)) h (fun half net hnet => ?_) fun net hmem p hp => ?_
      · obtain ⟨lut, k, hlut, hk⟩ := mem_lutNets.mp hnet
        obtain ⟨pins, huses, hcarry⟩ := hacc.live half lut k net hlut hk
        rw [hfused] at huses
        obtain ⟨p, hp, rfl⟩ := huses
        exact ⟨p, hp, hcarry p List.mem_cons_self⟩
      · obtain ⟨half, hselector, -⟩ := hef.exists_half hp
        exact hapart half net hselector hmem

/-- **Completeness of the planner**, E/F nets apart: demands that some assignment accommodates
have a plan if no E/F net is among the first two nets of both LUTs. -/
theorem ofDemand?_complete (halone : d.isFused → d.lutCount ≤ 1) (hacc : Accommodates d full)
    (hapart : ∀ half, ∀ net ∈ d.selectorNets half, net ∉ d.sharedNets.take 2) :
    ∃ plan, ofDemand? d = some plan := by
  obtain ⟨efNets, pins, nets, hef, hext⟩ := exists_efPlaced hacc.selector
  exact exists_ofDemand? halone hef (hacc.isSome_lutPins? hext hef hapart)

end InputPlan

/-! ### Placed ALMs -/

namespace Device

variable {d : Device} {a : Alm}

/-- A LUT of six inputs, which spans both halves, is placed in an ALM. -/
def SpansHalves (d : Device) (a : Alm) : Prop :=
  ∃ half id, (d.lutCells a).get half = some id ∧ (d.netlist.lutInfo id).inputCount = 6

/-- An assignment of nets to pins accommodates the occupants of an ALM: every live input of a LUT
finds its net on pins that it reads, and every half has an E/F pin for the nets that its flip-flops
take through the selector. -/
structure Accommodates (d : Device) (a : Alm) (nets : AlmPin → Option NetId) : Prop where
  fused : d.SpansHalves a → ∀ half id k net, (d.lutCells a).get half = some id →
    d.LiveInput id k net → ∃ own, fusedPins[k]? = some own ∧ ∀ p ∈ own, nets p = some net
  split : ¬ d.SpansHalves a → ∀ half id k net, (d.lutCells a).get half = some id →
    d.LiveInput id k net → ∃ p ∈ half.lutPins, nets p = some net
  selector : ∀ half, ∃ pin ∈ half.efPins, ∀ net, d.NeedsSelector a half net → nets pin = some net

/-- The occupants of an ALM cannot share it: a LUT of six inputs is not alone, the flip-flops of
a half need two nets through its selector, or no assignment of nets to pins accommodates all. -/
def CannotShare (d : Device) (a : Alm) : Prop :=
  (∃ half other id id', half ≠ other ∧ (d.lutCells a).get half = some id ∧
    (d.lutCells a).get other = some id' ∧ (d.netlist.lutInfo id).inputCount = 6) ∨
  (∃ half n m, d.NeedsSelector a half n ∧ d.NeedsSelector a half m ∧ n ≠ m) ∨
  ¬ ∃ nets, d.Accommodates a nets

/-- The nets that the planner shares first: the first two that are live on the LUTs of both
halves, in order of the inputs of the top one. -/
def firstShared (d : Device) (a : Alm) : List NetId := (d.almDemand a).sharedNets.take 2

/-- A LUT spans both halves exactly when the demand is for a fused ALM. -/
theorem spansHalves_iff : d.SpansHalves a ↔ (d.almDemand a).isFused = true :=
  (almDemand_isFused_iff d a).symm

/-- The demand of a half with a LUT is that of the cell. -/
theorem almDemand_luts_eq_some {half : Half} {lut : LutDemand}
    (h : (d.almDemand a).luts.get half = some lut) :
    ∃ id, (d.lutCells a).get half = some id ∧ lut = d.lutDemand id := by
  rw [almDemand_luts_get, Option.map_eq_some_iff] at h
  obtain ⟨id, hid, rfl⟩ := h
  exact ⟨id, hid, rfl⟩

/-- An assignment that accommodates the occupants accommodates what they demand. -/
theorem Accommodates.almDemand {nets : PinNets} (h : d.Accommodates a nets) :
    InputPlan.Accommodates (d.almDemand a) nets where
  live half lut k net hlut hnet := by
    obtain ⟨id, hid, rfl⟩ := almDemand_luts_eq_some hlut
    have hlive := (liveInput_iff d id k net).mpr hnet
    cases hfused : (d.almDemand a).isFused with
    | true => exact h.fused (spansHalves_iff.mpr hfused) half id k net hid hlive
    | false =>
        have hsplit : ¬ d.SpansHalves a := by rw [spansHalves_iff, hfused]; decide
        obtain ⟨p, hp, hcarry⟩ := h.split hsplit half id k net hid hlive
        exact ⟨[p], ⟨p, hp, rfl⟩, by simpa using hcarry⟩
  selector half := by
    obtain ⟨pin, hpin, hcarry⟩ := h.selector half
    exact ⟨pin, hpin,
      fun net hnet => hcarry net ((mem_almDemand_selectorNets d a half net).mp hnet)⟩

/-- The assignment behind a sound plan accommodates the occupants. -/
theorem accommodates_of_sound {plan : InputPlan} {nets : PinNets}
    (h : InputPlan.Sound (d.almDemand a) plan nets) : d.Accommodates a nets where
  fused hspans half id k net hid hlive := by
    obtain ⟨pins, -, huses, hcarry⟩ := exists_pins_of_live h hid hlive
    rw [h.fused, spansHalves_iff.mp hspans] at huses
    exact ⟨pins, huses, hcarry⟩
  split hsplit half id k net hid hlive := by
    obtain ⟨pins, -, huses, hcarry⟩ := exists_pins_of_live h hid hlive
    rw [spansHalves_iff, Bool.not_eq_true] at hsplit
    rw [h.fused, hsplit] at huses
    obtain ⟨p, hp, rfl⟩ := huses
    exact ⟨p, hp, hcarry p List.mem_cons_self⟩
  selector half := by
    by_cases hneeds : ∃ net, d.NeedsSelector a half net
    · obtain ⟨net, hnet⟩ := hneeds
      obtain ⟨hall, pin, hpin, -, hcarry⟩ :=
        h.selector half net ((mem_almDemand_selectorNets d a half net).mpr hnet)
      refine ⟨pin, hpin, fun other hother => ?_⟩
      rw [hall other ((mem_almDemand_selectorNets d a half other).mpr hother), hcarry]
    · obtain ⟨pin, hpin⟩ : ∃ pin, pin ∈ half.efPins := by cases half <;> simp [Half.efPins]
      exact ⟨pin, hpin, fun net hnet => (hneeds ⟨net, hnet⟩).elim⟩

/-- In split mode an assignment may be checked net by net. -/
theorem accommodates_of_split {nets : PinNets} (hsplit : (d.almDemand a).isFused = false)
    (hlive : ∀ half, ∀ net ∈ (d.almDemand a).lutNets half, ∃ p ∈ half.lutPins, nets p = some net)
    (hselector : ∀ half, ∃ pin ∈ half.efPins, ∀ net ∈ (d.almDemand a).selectorNets half,
      nets pin = some net) : d.Accommodates a nets where
  fused hspans := by
    rw [spansHalves_iff, hsplit] at hspans
    cases hspans
  split _ half id k net hid hnet := by
    refine hlive half net (InputPlan.mem_lutNets.mpr ⟨d.lutDemand id, k, ?_, ?_⟩)
    · rw [almDemand_luts_get, hid, Option.map_some]
    · exact (liveInput_iff d id k net).mp hnet
  selector half := by
    obtain ⟨pin, hpin, hcarry⟩ := hselector half
    exact ⟨pin, hpin,
      fun net hnet => hcarry net ((mem_almDemand_selectorNets d a half net).mpr hnet)⟩

/-- Occupants without a LUT of six inputs can share the ALM if they are accommodated. -/
theorem Accommodates.not_cannotShare {nets : PinNets} (h : d.Accommodates a nets)
    (hsplit : ¬ d.SpansHalves a) : ¬ d.CannotShare a := by
  rintro (⟨half, -, id, -, -, hid, -, hsix⟩ | ⟨half, n, m, hn, hm, hne⟩ | hnone)
  · exact hsplit ⟨half, id, hid, hsix⟩
  · obtain ⟨pin, -, hcarry⟩ := h.selector half
    exact hne (Option.some.inj ((hcarry n hn).symm.trans (hcarry m hm)))
  · exact hnone ⟨nets, h⟩

/-- With more than one LUT there is one in each half. -/
theorem exists_lutCells_of_lutCount (h : 1 < (d.almDemand a).lutCount) (half : Half) :
    ∃ id, (d.lutCells a).get half = some id := by
  have hlength : (d.almDemand a).lutCount = (d.almDemand a).luts.toList.length :=
    le_antisymm List.countP_le_length h
  have hsome := List.countP_eq_length.mp hlength _ (Halves.mem_toList.mpr ⟨half, rfl⟩)
  rw [almDemand_luts_get, Option.isSome_map] at hsome
  exact Option.isSome_iff_exists.mp hsome

/-- Occupants that some plan serves can share the ALM. -/
theorem not_cannotShare_of_sound {plan : InputPlan} {nets : PinNets}
    (h : InputPlan.Sound (d.almDemand a) plan nets) : ¬ d.CannotShare a := by
  rintro (⟨half, other, id, id', hne, hid, hid', hsix⟩ | ⟨half, n, m, hn, hm, hne⟩ | hnone)
  · have hfused := spansHalves_iff.mp ⟨half, id, hid, hsix⟩
    exact hne (half_eq_of_lutCount_le d a (h.alone hfused) hid hid')
  · rw [← mem_almDemand_selectorNets] at hn hm
    exact hne ((h.selector half m hm).1 n hn)
  · exact hnone ⟨nets, accommodates_of_sound h⟩

/-- **When an ALM has no plan**: always if its occupants cannot share it, and else only if an E/F
net is among the nets that the planner shares first. -/
theorem planAlm?_eq_none (d : Device) (lab alm : Nat) (a : Alm) (ha : d.alm? lab alm = some a) :
    (d.CannotShare a → d.planAlm? lab alm = none) ∧
    (d.planAlm? lab alm = none →
      d.CannotShare a ∨ ∃ half, ∃ net ∈ d.firstShared a, d.NeedsSelector a half net) := by
  have hplan : d.planAlm? lab alm = InputPlan.ofDemand? (d.almDemand a) := by
    rw [planAlm?, ha, Option.bind_some]
  rw [hplan]
  constructor
  · intro hcannot
    rw [Option.eq_none_iff_forall_ne_some]
    intro plan hsome
    obtain ⟨nets, hsound⟩ := InputPlan.ofDemand?_sound hsome
    exact not_cannotShare_of_sound hsound hcannot
  · intro hnone
    by_contra hshare
    rw [not_or, CannotShare, not_or, not_or, not_not] at hshare
    obtain ⟨⟨hcrowded, -, nets, hacc⟩, hapart⟩ := hshare
    have halone : (d.almDemand a).isFused → (d.almDemand a).lutCount ≤ 1 := by
      intro hfused
      by_contra hcount
      have hboth := exists_lutCells_of_lutCount (Nat.lt_of_not_le hcount)
      obtain ⟨half, id, hid, hsix⟩ := spansHalves_iff.mpr hfused
      obtain ⟨other, hne⟩ : ∃ other, half ≠ other := by
        cases half with
        | top => exact ⟨.bottom, by decide⟩
        | bottom => exact ⟨.top, by decide⟩
      obtain ⟨id', hid'⟩ := hboth other
      exact hcrowded ⟨half, other, id, id', hne, hid, hid', hsix⟩
    obtain ⟨plan, hsome⟩ := InputPlan.ofDemand?_complete halone hacc.almDemand
      fun half net hnet hfirst =>
        hapart ⟨half, net, hfirst, (mem_almDemand_selectorNets d a half net).mp hnet⟩
    rw [hnone] at hsome
    cases hsome

/-- The model of a single ALM with a LUT of five inputs in each half, on the same nets 0 to 4,
and a flip-flop of the bottom half that takes some net from outside. -/
def twinLutModel (data : Nat) : Device :=
  let lut (output : Nat) : Cell :=
    { name := .empty, type := Known.alut5
      lut := {
        inputCount := 5
        inputs := [some ⟨0⟩, some ⟨1⟩, some ⟨2⟩, some ⟨3⟩, some ⟨4⟩, none]
        output := some ⟨output⟩ } }
  let flop : Cell :=
    { name := .empty, type := Known.flipFlop, flipFlop := { dataIn := some ⟨data⟩ } }
  { sharedNetModel with netlist := { cells := #[lut 5, lut 6, flop] } }

/-- Two LUTs on the same five nets leave no pin for the data of a flip-flop on a sixth. -/
theorem cannotShare_twinLutModel : ∃ a, (twinLutModel 7).alm? 0 0 = some a ∧
    (twinLutModel 7).planAlm? 0 0 = none ∧ (twinLutModel 7).CannotShare a := by
  have hnone : (twinLutModel 7).planAlm? 0 0 = none := by decide +kernel
  refine ⟨_, rfl, hnone, ((planAlm?_eq_none (twinLutModel 7) 0 0 _ rfl).2 hnone).resolve_right ?_⟩
  rintro ⟨half, net, hfirst, hneeds⟩
  rw [← mem_almDemand_selectorNets] at hneeds
  revert net
  cases half <;> decide +kernel

/-- The nets that the pins of that ALM can carry when the flip-flop takes net 0: the top LUT reads
the net on `C` and the bottom one on `E1`, which leaves the shared pins for two other nets. -/
def twinLutNets : PinNets
  | .a => some ⟨1⟩
  | .b => some ⟨2⟩
  | .c | .e1 => some ⟨0⟩
  | .d | .e0 => some ⟨3⟩
  | .f0 | .f1 => some ⟨4⟩

/-- The data of the flip-flop may be the first net of both LUTs. Then there is no plan, although
the occupants can share the ALM. -/
theorem planAlm?_of_sharedSelectorNet : ∃ a, (twinLutModel 0).alm? 0 0 = some a ∧
    (twinLutModel 0).planAlm? 0 0 = none ∧ ¬ (twinLutModel 0).CannotShare a := by
  refine ⟨_, rfl, by decide +kernel, ?_⟩
  refine Accommodates.not_cannotShare (?_ : (twinLutModel 0).Accommodates _ twinLutNets) ?_
  · refine accommodates_of_split ?_ ?_ ?_
    · decide +kernel
    · rintro (_ | _) <;> decide +kernel
    · rintro (_ | _) <;> decide +kernel
  · rw [spansHalves_iff]
    decide +kernel

end Device

end Fabric
