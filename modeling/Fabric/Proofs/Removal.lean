import Fabric.Proofs.Commutation
import Fabric.Proofs.HalfControl
import Fabric.Proofs.PlanCompleteness

/-!
# Taking a flip-flop out of a legal packing

The planner is greedy: what it puts on a pin first decides where everything else can go. So it is
not plain that an ALM with a plan still has one when it has less to serve. It does, as long as what
goes away is nets of flip-flops. The pins of the E/F nets are tried in turn, and among the choices
is the old one without the nets that are gone. The LUTs then start from an assignment that the old
one extends, and both share the same nets first. Whatever a half puts on a shared pin beyond those
is a net of that half alone, since otherwise it would have been shared, so the shared pins that are
left suffice for both halves.

The rest of legality is about pairs of flip-flops and about sets of control signals, of which there
are fewer.

## Main results

* `InputPlan.isSome_lutPins?_of_extends`: the LUT inputs find their pins when less is taken;
* `InputPlan.exists_ofDemand?_of_fewer`: a plan is kept when the flip-flops of a half need fewer
  nets;
* `Device.Unloads`: one packing has no flip-flop that the other has not;
* `Device.legal_removeFlipFlop`: taking a flip-flop off its site keeps every legal ALM and LAB
  legal.
-/

namespace Fabric

namespace InputPlan

variable {d d' : AlmDemand} {nets less full : PinNets}

/-! ### Less on the pins -/

/-- A LUT that was placed in split mode has its nets on pins of its half. -/
theorem OnPins.carried {half : Half} {lut : Option LutDemand} {pins : List (Option AlmPin)}
    (h : OnPins false half nets lut pins) :
    ∀ net ∈ (lut.map fun l => l.inputs.reduceOption).getD [], ∃ p ∈ half.lutPins,
      nets p = some net := by
  cases lut with
  | none => exact fun net hnet => absurd hnet List.not_mem_nil
  | some lut =>
    intro net hnet
    obtain ⟨k, hk⟩ := List.mem_iff_getElem?.mp (List.reduceOption_mem_iff.mp hnet)
    obtain ⟨_, -, p, -, hp, hcarry⟩ := forall₂_getElem? h hk
    exact ⟨p, hp, hcarry⟩

/-- Placing both LUTs in split mode ends with an assignment that has all their nets, and the nets
shared first where they were put. -/
theorem exists_extends_onShared (hsplit : d.isFused = false) (ha : nets .a = none)
    (hb : nets .b = none) (h : (lutPins? d nets).isSome) :
    ∃ full, (onShared nets d.sharedNets).Extends full ∧
      ∀ half, ∀ net ∈ d.lutNets half, ∃ p ∈ half.lutPins, full p = some net := by
  obtain ⟨top, mid, bottom, later, htop, hbottom⟩ := (lutPins?_isSome_iff hsplit ha hb).mp h
  obtain ⟨hext, hon⟩ := splitHalf?_sound htop
  obtain ⟨hext', hon'⟩ := splitHalf?_sound hbottom
  refine ⟨later, hext.trans hext', ?_⟩
  rintro (_ | _)
  · exact (hon.mono hext').carried
  · exact hon'.carried

/-- What a half misses and an assignment has on a shared pin, it has on one that is free. -/
theorem exists_free_shared (h : nets.Extends full) {half : Half} {wanted : Finset NetId}
    {net : NetId} (hnet : net ∈ nets.missing half wanted ∩ netsOnShared full) :
    ∃ p ∈ sharedPins.filter fun p => (nets p).isNone, full p = some net := by
  obtain ⟨hmissing, hshared⟩ := Finset.mem_inter.mp hnet
  obtain ⟨p, hp, hfull⟩ := mem_netsOnShared.mp hshared
  have hfree := h.eq_none_of_missing hmissing (Half.mem_lutPins_iff.mpr (.inr hp)) hfull
  exact ⟨p, List.mem_filter.mpr ⟨hp, by rw [hfree]; rfl⟩, hfull⟩

/-- No net is missing in both halves once the shared nets are on the shared pins, or else no shared
pin is free. -/
theorem notMem_missing_of_free {pin : AlmPin} (hpin : pin ∈ sharedPins)
    (hfree : onShared nets d.sharedNets pin = none) {net : NetId}
    (htop : net ∈ (onShared nets d.sharedNets).missing .top (d.wanted .top)) :
    net ∉ (onShared nets d.sharedNets).missing .bottom (d.wanted .bottom) := by
  intro hbottom
  have hshared : net ∈ d.sharedNets := by
    have hmem {half : Half} (h : net ∈ (onShared nets d.sharedNets).missing half (d.wanted half)) :
        net ∈ d.lutNets half := AlmDemand.mem_wanted.mp (PinNets.mem_missing.mp h).1
    exact AlmDemand.mem_sharedNets.mpr fun half => half.casesOn (hmem htop) (hmem hbottom)
  have hcount : 0 < (onShared nets d.sharedNets).freeCount sharedPins :=
    List.countP_pos_iff.mpr ⟨pin, hpin, by rw [hfree]; rfl⟩
  rw [freeCount_onShared] at hcount
  have htake : net ∈ d.sharedNets.take 2 := by rwa [List.take_of_length_le (by omega)]
  obtain ⟨p, hp, hcarried⟩ := exists_pin_onShared nets htake
  exact (PinNets.mem_missing.mp htop).2 p (Half.mem_lutPins_iff.mpr (.inr hp)) hcarried

/-- Two LUTs that get their pins in split mode get them also when less is on the pins before. -/
theorem isSome_lutPins?_of_extends_split (hsplit : d.isFused = false) (ha : nets .a = none)
    (hb : nets .b = none) (hless : less.Extends nets) (h : (lutPins? d nets).isSome) :
    (lutPins? d less).isSome := by
  obtain ⟨full, hfull, hlive⟩ := exists_extends_onShared hsplit ha hb h
  have hext : (onShared less d.sharedNets).Extends full := by
    refine PinNets.Extends.trans (fun p n hn => ?_) hfull
    cases p <;> first | exact hn | exact hless hn
  have hnone {p : AlmPin} (hp : nets p = none) : less p = none := by
    rw [Option.eq_none_iff_forall_ne_some] at hp ⊢
    exact fun n hn => hp n (hless hn)
  have hdisjoint : Disjoint
      ((onShared less d.sharedNets).missing .top (d.wanted .top) ∩ netsOnShared full)
      ((onShared less d.sharedNets).missing .bottom (d.wanted .bottom) ∩ netsOnShared full) := by
    refine Finset.disjoint_left.mpr fun net htop hbottom => ?_
    obtain ⟨p, hp, -⟩ := exists_free_shared hext htop
    obtain ⟨hp, hfree⟩ := List.mem_filter.mp hp
    exact notMem_missing_of_free hp (Option.isNone_iff_eq_none.mp hfree)
      (Finset.mem_inter.mp htop).1
      (Finset.mem_inter.mp hbottom).1
  -- Each half is short of the nets that it finds on shared pins, which are free and different.
  refine (lutPins?_isSome_iff hsplit (hnone ha) (hnone hb)).mpr (exists_splitHalves (fun half =>
    ((onShared less d.sharedNets).missing half (d.wanted half) ∩ netsOnShared full).card)
    (fun half => ?_) ?_)
  · exact card_missing_le hext fun net hnet => hlive half net (AlmDemand.mem_wanted.mp hnet)
  · rw [← Finset.card_union_of_disjoint hdisjoint, PinNets.freeCount, List.countP_eq_length_filter]
    refine card_le_length full _ fun net hnet => ?_
    rcases Finset.mem_union.mp hnet with htop | hbottom
    · exact exists_free_shared hext htop
    · exact exists_free_shared hext hbottom

/-- LUTs that get their pins get them also when less is on the pins before. -/
theorem isSome_lutPins?_of_extends (ha : nets .a = none) (hb : nets .b = none)
    (hless : less.Extends nets) (h : (lutPins? d nets).isSome) : (lutPins? d less).isSome := by
  cases hfused : d.isFused with
  | false => exact isSome_lutPins?_of_extends_split hfused ha hb hless h
  | true =>
    obtain ⟨pins, hpins⟩ := Option.isSome_iff_exists.mp h
    obtain ⟨full, hfull, hon⟩ := lutPins?_sound hpins
    refine isSome_lutPins?_of_fused hfused (hless.trans hfull)
      fun half lut hlut k net own hnet hown p hp => ?_
    have hhalf := hon half
    rw [hlut, hfused] at hhalf
    obtain ⟨own', -, huses, hcarry⟩ := hhalf.live (List.getElem?_eq_some_iff.mp hown).1 hnet
    rw [UsesPins, if_pos rfl, hown] at huses
    obtain rfl := Option.some.inj huses
    exact hcarry p hp

/-! ### Fewer nets of flip-flops -/

/-- In each half some pin that can feed the selector carries all E/F nets. -/
theorem EfPlaced.exists_pin {efNets : Halves (Option NetId)} {pins : Halves (Option AlmPin)}
    (h : EfPlaced d efNets pins nets) (half : Half) :
    ∃ p ∈ half.efPins, ∀ n ∈ d.selectorNets half, nets p = some n := by
  have hsound := (efPin_sound (h.only half) (h.choice half)
    fun n p hn hp => h.carries_iff.mpr ⟨half, hn, hp⟩).1
  cases hdemanded : d.selectorNets half with
  | nil =>
    obtain ⟨p, hp⟩ : ∃ p, p ∈ half.efPins := by cases half <;> simp [Half.efPins]
    exact ⟨p, hp, fun n hn => absurd hn List.not_mem_nil⟩
  | cons n rest =>
    rw [hdemanded] at hsound
    obtain ⟨hall, p, hp, -, hcarry⟩ := hsound n List.mem_cons_self
    exact ⟨p, hp, fun m hm => by rw [hall m hm, hcarry]⟩

/-- **A plan is kept** when the flip-flops of each half take fewer nets through its selector, and
the LUTs stay. -/
theorem exists_ofDemand?_of_fewer {plan : InputPlan} (hluts : d'.luts = d.luts)
    (hselector : ∀ half, d'.selectorNets half ⊆ d.selectorNets half) (h : ofDemand? d = some plan) :
    ∃ plan', ofDemand? d' = some plan' := by
  obtain ⟨halone, -, -, efNets, nets, hef, hpins⟩ := ofDemand?_eq_some h
  have hcarried (half : Half) : ∃ p ∈ half.efPins, ∀ n ∈ d'.selectorNets half, nets p = some n := by
    obtain ⟨p, hp, hcarry⟩ := hef.exists_pin half
    exact ⟨p, hp, fun n hn => hcarry n (hselector half hn)⟩
  obtain ⟨efNets', pins', less, hef', hless⟩ := exists_efPlaced hcarried
  have hsome := isSome_lutPins?_of_extends (hef.eq_none_of_shared (by decide))
    (hef.eq_none_of_shared (by decide)) hless (by rw [hpins]; rfl)
  obtain ⟨luts, flops⟩ := d
  obtain ⟨luts', flops'⟩ := d'
  obtain rfl : luts' = luts := hluts
  exact exists_ofDemand? halone hef' hsome

end InputPlan

/-! ### Fewer flip-flops -/

namespace Device

variable {d d' : Device} {lab alm : Nat} {a : Alm}

/-- Two flip-flops of a half agree if they have the same control signals. -/
theorem agree_iff {pair : Option CellId × Option CellId} : d.agree pair = true ↔
    ∀ i j, pair = (some i, some j) →
      (d.netlist.flipFlopInfo i).control = (d.netlist.flipFlopInfo j).control := by
  obtain ⟨_ | i, _ | j⟩ := pair <;> simp [agree]

/-- The second packing has the LUTs of the first and no flip-flop that the first has not. -/
structure Unloads (d d' : Device) : Prop where
  labs : d'.labs = d.labs
  lutCells : ∀ {lab alm a}, d.alm? lab alm = some a → d'.lutCells a = d.lutCells a
  flop : ∀ a half second id, (d'.flopCells a).flop half second = some id →
    (d.flopCells a).flop half second = some id
  lutInfo : d'.netlist.lutInfo = d.netlist.lutInfo
  flipFlopInfo : d'.netlist.flipFlopInfo = d.netlist.flipFlopInfo
  pinState : d'.netlist.pinState = d.netlist.pinState

namespace Unloads

/-- A removal touches no ALM. -/
theorem alm?_eq (h : d.Unloads d') : d'.alm? = d.alm? := by
  funext lab alm
  rw [alm?, h.labs, alm?]

/-- Removing a flip-flop leaves the demand of the LUTs as it was. -/
theorem almDemand_luts (h : d.Unloads d') (ha : d.alm? lab alm = some a) :
    (d'.almDemand a).luts = (d.almDemand a).luts := by
  have hdemand : d'.lutDemand = d.lutDemand := by
    funext id
    rw [lutDemand, h.lutInfo, h.pinState, lutDemand]
  rw [almDemand, almDemand, h.lutCells ha, hdemand]

/-- The flip-flops that are left need no more nets. -/
theorem needsSelector (h : d.Unloads d') (ha : d.alm? lab alm = some a) {half : Half} {net : NetId}
    (hneeds : d'.NeedsSelector a half net) : d.NeedsSelector a half net := by
  have houtput : d'.lutOutput a half = d.lutOutput a half := by
    rw [lutOutput, lutOutput, h.lutCells ha, h.lutInfo]
  obtain ⟨second, id, hid, hdata⟩ := hneeds
  rw [h.flipFlopInfo, houtput] at hdata
  exact ⟨second, id, h.flop a half second id hid, hdata⟩

/-- The ALM keeps a plan. -/
theorem isSome_planAlm? (h : d.Unloads d') (hplan : (d.planAlm? lab alm).isSome) :
    (d'.planAlm? lab alm).isSome := by
  obtain ⟨plan, hplan⟩ := Option.isSome_iff_exists.mp hplan
  obtain ⟨a, ha, hplan⟩ := Option.bind_eq_some_iff.mp hplan
  have hselector (half : Half) :
      (d'.almDemand a).selectorNets half ⊆ (d.almDemand a).selectorNets half := by
    intro net hnet
    rw [mem_almDemand_selectorNets] at hnet ⊢
    exact h.needsSelector ha hnet
  obtain ⟨plan', hplan'⟩ :=
    InputPlan.exists_ofDemand?_of_fewer (h.almDemand_luts ha) hselector hplan
  rw [planAlm?, h.alm?_eq, ha, Option.bind_some, hplan', Option.isSome_some]

/-- The flip-flops that are left agree. -/
theorem agree (h : d.Unloads d') {half : Half}
    (hagree : d.agree ((d.flopCells a).get half) = true) :
    d'.agree ((d'.flopCells a).get half) = true := by
  rw [agree_iff] at hagree ⊢
  intro i j hpair
  rw [h.flipFlopInfo]
  exact hagree i j (Prod.ext (h.flop a half false i (congrArg Prod.fst hpair))
    (h.flop a half true j (congrArg Prod.snd hpair)))

/-- A legal ALM stays legal. -/
theorem isAlmLegal (h : d.Unloads d') (hlegal : d.isAlmLegal lab alm = true) :
    d'.isAlmLegal lab alm = true := by
  rw [Device.isAlmLegal] at hlegal ⊢
  rw [h.alm?_eq]
  cases ha : d.alm? lab alm with
  | none =>
    rw [ha] at hlegal
    cases hlegal
  | some a =>
    simp only [ha, Bool.and_eq_true, decide_eq_true_eq, List.all_eq_true, Halves.mem_toList,
      forall_exists_index, forall_apply_eq_imp_iff] at hlegal ⊢
    obtain ⟨⟨hbits, hagree⟩, hplan⟩ := hlegal
    refine ⟨⟨?_, fun half => h.agree (hagree half)⟩, h.isSome_planAlm? hplan⟩
    rwa [lutBits, h.lutCells ha, h.lutInfo, ← lutBits]

/-- The flip-flops that are left demand no more slot keys. -/
theorem demandedKeys_subset (h : d.Unloads d') (info : Lab) (kind : ControlKind) :
    d'.demandedKeys info kind ⊆ d.demandedKeys info kind := by
  refine List.map_subset _ fun signal hsignal => ?_
  obtain ⟨hsignal, hnet⟩ := List.mem_filter.mp hsignal
  refine List.mem_filter.mpr ⟨?_, hnet⟩
  obtain ⟨⟨b, half, ff⟩, hflop, rfl⟩ := List.mem_map.mp hsignal
  obtain ⟨hb, second, id, hid, rfl⟩ := mem_labFlipFlops.mp hflop
  refine List.mem_map.mpr ⟨(b, half, _), mem_labFlipFlops.mpr ⟨hb, second, id, ?_, rfl⟩, ?_⟩
  · exact h.flop b half second id hid
  · rw [h.flipFlopInfo]

/-- A legal LAB stays legal. -/
theorem isLabLegal (h : d.Unloads d') (hlegal : d.isLabLegal lab = true) :
    d'.isLabLegal lab = true := by
  cases hlab : d.labs[lab]? with
  | none =>
    rw [Device.isLabLegal, h.labs, hlab]
    rfl
  | some info =>
    refine (isLabLegal_iff (by rw [h.labs, hlab])).mpr fun kind => ?_
    have hsubset : (d'.demandedKeys info kind).toFinset ⊆ (d.demandedKeys info kind).toFinset :=
      fun key hkey => List.mem_toFinset.mpr
        (h.demandedKeys_subset info kind (List.mem_toFinset.mp hkey))
    exact (Finset.card_le_card hsubset).trans ((isLabLegal_iff hlab).mp hlegal kind)

end Unloads

/-! ### Taking a flip-flop off its site -/

/-- What is read of a cell apart from its site is the same wherever it is. -/
theorem map_cell?_placed {α : Type} (nl : Netlist) (id : CellId) (site : Option BelId)
    {f : Cell → α} (hf : ∀ c : Cell, f { c with site := site } = f c) (i : CellId) :
    ((nl.modifyCell id fun c => { c with site := site }).cell? i).map f = (nl.cell? i).map f := by
  rw [Netlist.cell?_modifyCell]
  split
  · rw [Option.map_map]
    exact congrArg (Option.map · _) (funext hf)
  · rfl

/-- A packing from which the cell of one flip-flop site was taken. -/
theorem unloads_removed (hd : d.IsPlaced) (ha : d.alm? lab alm = some a) (half : Half)
    (second : Bool) (id : CellId) :
    d.Unloads { d.modifySite (a.ffSites.flop half second) fun s => { s with cell := none } with
      netlist := d.netlist.modifyCell id fun c => { c with site := none } } := by
  have hcell (nl : Netlist) (d : Device) (b : BelId) :
      ({ d with netlist := nl } : Device).cellAt b = d.cellAt b := rfl
  obtain ⟨d₀, hstate⟩ := hd.exists_isState
  refine ⟨by simp, fun {lab' alm' b} hb => ?_, fun b half' second' i hi => ?_, ?_, ?_, ?_⟩
  · refine Halves.ext_get fun half' => ?_
    rw [lutCells, Halves.get_map, lutCells, Halves.get_map, hcell, cellAt_modifySite,
      if_neg (hstate.flopSite_ne_lutSite ha hb half half' second)]
  · rw [flopCells, Flops.flop_mapFlops, hcell, cellAt_modifySite] at hi
    rw [flopCells, Flops.flop_mapFlops]
    split at hi
    · rename_i heq
      cases hsite : d.site? (b.ffSites.flop half' second') with
      | none =>
        rw [hsite] at hi
        cases hi
      | some s =>
        rw [hsite] at hi
        cases hi
    · exact hi
  · funext i
    rw [Netlist.lutInfo, map_cell?_placed _ _ _ fun _ => rfl, Netlist.lutInfo]
  · funext i
    rw [Netlist.flipFlopInfo, map_cell?_placed _ _ _ fun _ => rfl, Netlist.flipFlopInfo]
  · funext i pin
    rw [Netlist.pinState, map_cell?_placed _ _ _ fun _ => rfl, Netlist.pinState]

/-- **Removal keeps legality**: whatever was placed on a device, a flip-flop can be taken
off its site. That frees the site and no other, and every ALM and every LAB that was legal
is legal after it. -/
theorem legal_removeFlipFlop {selection : Selection} {d₀ d : Device}
    (hbuilt : ofSelection selection = .ok d₀) (h : PlacementRun d₀ d) {lab alm : Nat} {a : Alm}
    (ha : d.alm? lab alm = some a) {half : Half} {second : Bool} {id : CellId}
    (hid : (d.flopCells a).flop half second = some id) :
    ∃ d', (Edit.removeCell (a.ffSites.flop half second)).run d = (.ok (some id), d') ∧
      d'.isFree (a.ffSites.flop half second) = true ∧
      (∀ bel ≠ a.ffSites.flop half second, d'.site? bel = d.site? bel) ∧ d'.labs = d.labs ∧
      (∀ lab' alm', d.isAlmLegal lab' alm' = true → d'.isAlmLegal lab' alm' = true) ∧
      ∀ lab', d.isLabLegal lab' = true → d'.isLabLegal lab' = true := by
  have hat : d.cellAt (a.ffSites.flop half second) = some id := by
    rwa [flopCells, Flops.flop_mapFlops] at hid
  have hunloads := unloads_removed (h.isPlaced hbuilt) ha half second id
  obtain ⟨site, hsite, -⟩ := Option.bind_eq_some_iff.mp hat
  refine ⟨_, Edit.run_removeCell hat, ?_, fun bel hne => ?_, hunloads.labs,
    fun _ _ => hunloads.isAlmLegal, fun _ => hunloads.isLabLegal⟩
  · have hfreed : (d.modifySite (a.ffSites.flop half second) fun s =>
        { s with cell := none }).site? (a.ffSites.flop half second) =
        some { site with cell := none } := by
      rw [site?_modifySite, if_pos rfl, hsite, Option.map_some]
    exact congrArg (Option.any _) hfreed
  · exact (site?_modifySite ..).trans (if_neg hne.symm)

/-- One of two flip-flops on one clock is taken off its site. -/
theorem legal_removeFlipFlop_oneClock : ∃ d₀ d a d', ofSelection (.ofGrid 3 2) = .ok d₀ ∧
    Reachable d₀ d ∧ d.alm? 0 0 = some a ∧ d.isAlmLegal 0 0 = true ∧
    (Edit.removeCell (a.ffSites.flop .top true)).run d = (.ok (some ⟨1⟩), d') ∧
    d'.isFree (a.ffSites.flop .top true) = true ∧
    d'.isAlmLegal 0 0 = true ∧ d'.isLabLegal 0 = true := by
  obtain ⟨d₀, d, a, n₀, n₁, hbuilt, hreach, ha, hcells⟩ := exists_clockedPair true .signal .signal
  have hd := hreach.isState hbuilt
  have halm := isAlmLegal_of_tied hd ha hcells nofun nofun
  have hlab : d.isLabLegal 0 = true := by
    refine hd.isLabLegal_of_pair ha hcells (fun kind hk c hc => ?_) 0
    rcases List.mem_pair.mp hc with rfl | rfl <;> cases kind <;>
      first | rfl | exact absurd (by decide) hk
  obtain ⟨-, hsecond, -⟩ := cells_clockedPair hd ha hcells
  obtain ⟨d', hrun, hfree, -, -, halms, hlabs⟩ :=
    legal_removeFlipFlop hbuilt hreach.placementRun ha hsecond
  exact ⟨d₀, d, a, d', hbuilt, hreach, ha, halm, hrun, hfree, halms 0 0 halm, hlabs 0 hlab⟩

end Device

end Fabric
