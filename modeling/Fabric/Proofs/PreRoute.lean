import Fabric.Proofs.Placing
import Fabric.Proofs.Preparation

/-!
# Legality and preparation for routing

Whether a packing is legal is decided by one path, and enforced by another when the device is
prepared for routing. Every packing that is legal can be prepared. The other way round the two
differ in one point: preparation does not compare the flip-flops of a half.

## Main results

* `preRoute_of_legal`: a legal design can be prepared and has its truth tables then;
* `preRoute_legality`: what a preparation that succeeds says about legality, and where the clock,
  enable and clear of a half lead then;
* `preRoute_of_twoClocksInHalf`: flip-flops of one half with different clocks are prepared too.
-/

namespace Fabric

namespace Device

/-! ### Legal designs -/

variable {selection : Selection} {d₀ d d' : Device}

/-- An ALM that holds no cell is legal. -/
theorem isAlmLegal_of_not_isOccupied {lab alm : Nat} {a : Alm} (ha : d.alm? lab alm = some a)
    (h : Edit.isOccupied d a = false) : d.isAlmLegal lab alm = true := by
  obtain ⟨hluts, hflops⟩ := Edit.isOccupied_eq_false_iff.mp h
  have hdemand : d.almDemand a = ⟨⟨none, none⟩, ⟨(none, none), (none, none)⟩⟩ := by
    rw [almDemand, hluts, hflops]
    rfl
  rw [isAlmLegal, ha]
  dsimp only
  rw [planAlm?, ha, Option.bind_some, hdemand, lutBits, hluts, hflops]
  rfl

/-- A legal ALM exists, and has a plan. -/
theorem exists_plan_of_isAlmLegal {lab alm : Nat} (h : d.isAlmLegal lab alm = true) :
    (d.planAlm? lab alm).isSome := by
  rw [isAlmLegal] at h
  split at h
  · cases h
  · rw [Bool.and_eq_true] at h
    exact h.2

/-- A LAB without flip-flops is legal. -/
theorem isLabLegal_of_labFlipFlops_eq_nil {lab : Nat} {info : Lab} (hlab : d.labs[lab]? = some info)
    (h : d.labFlipFlops info = []) : d.isLabLegal lab = true := by
  rw [isLabLegal, hlab, Option.all_some, controlSlots, h]
  rfl

/-- The first ALM of the smallest grid has its LUT at the first site. -/
theorem lutSite_top_of_bare {a : Alm} (hbare : a.bare = labAlm 1 1 0) :
    a.lutSites.get .top = siteNumber 1 1 0 := congrArg (fun b => b.lutSites.get .top) hbare

section PlacedInverter

variable {name : Ident} {a : Alm} (hd : d.IsState) (ha : d.alm? 0 0 = some a)
  (hbare : a.bare = labAlm 1 1 0)
  (hcells : d.netlist.cells = #[inverter name (some (siteNumber 1 1 0)) inverterLut])

include hd ha hbare hcells

/-- A design that is one inverter has no flip-flop. -/
theorem flopCells_inverter {lab alm : Nat} {b : Alm} (hb : d.alm? lab alm = some b) :
    d.flopCells b = ⟨(none, none), (none, none)⟩ := by
  refine Flops.ext_flop fun half second => ?_
  have hne := hd.flopSite_ne_lutSite hb ha half .top second
  rw [flopCells, Flops.flop_mapFlops, hd.consistent.cellAt_of_single hcells rfl, if_neg]
  · cases half <;> cases second <;> rfl
  · exact fun heq => hne (heq.symm.trans (lutSite_top_of_bare hbare).symm)

/-- A design that is one inverter is legal in every LAB. -/
theorem isLabLegal_inverter {lab : Nat} (hlab : lab < d.labs.size) : d.isLabLegal lab = true := by
  have hinfo : d.labs[lab]? = some d.labs[lab] := Array.getElem?_eq_getElem hlab
  refine isLabLegal_of_labFlipFlops_eq_nil hinfo (List.eq_nil_iff_forall_not_mem.mpr ?_)
  rintro ⟨b, half, ff⟩ hmem
  obtain ⟨hb, second, id, hid, -⟩ := mem_labFlipFlops.mp hmem
  obtain ⟨z, hz⟩ := Array.mem_iff_getElem?.mp hb
  have hb' : d.alm? lab z = some b := by rw [alm?, hinfo, Option.bind_some, hz]
  rw [flopCells_inverter hd ha hbare hcells hb'] at hid
  cases half <;> cases second <;> cases hid

/-- A design that is one inverter is legal in every ALM: in its own, and in those that are empty. -/
theorem isAlmLegal_inverter {lab alm : Nat} {b : Alm} (hb : d.alm? lab alm = some b) :
    d.isAlmLegal lab alm = true := by
  have hflops := flopCells_inverter hd ha hbare hcells hb
  by_cases hplace : lab = 0 ∧ alm = 0
  · obtain ⟨rfl, rfl⟩ := hplace
    obtain rfl := Option.some.inj (ha.symm.trans hb)
    obtain ⟨hluts, hdemand⟩ := almDemand_inverter hd.consistent hcells hbare
    have hplan : (d.planAlm? 0 0).isSome := by
      rw [planAlm?, ha, Option.bind_some, hdemand]
      rfl
    have hbits : d.lutBits a = 2 := by
      rw [lutBits, hluts]
      simp [Halves.toList, Netlist.lutInfo, Netlist.cell?, hcells, inverter, inverterLut]
    rw [isAlmLegal, ha]
    dsimp only
    rw [hplan, hbits, hflops]
    rfl
  · refine isAlmLegal_of_not_isOccupied hb (Edit.isOccupied_eq_false_iff.mpr ⟨?_, hflops⟩)
    refine Halves.ext_get fun half => ?_
    have hother : siteNumber 1 1 0 ≠ b.lutSites.get half := fun heq => hplace (by
      obtain ⟨hlab, halm, -⟩ := hd.lutSite_inj ha hb ((lutSite_top_of_bare hbare).trans heq)
      exact ⟨hlab.symm, halm.symm⟩)
    rw [lutCells, Halves.get_map, hd.consistent.cellAt_of_single hcells rfl, if_neg hother]
    cases half <;> rfl

end PlacedInverter

/-- **A legal design can be prepared for routing.** On a built device, whatever was done before, if
every LAB and every ALM is legal then the preparation succeeds, and every ALM has a truth table
afterwards. -/
theorem preRoute_of_legal (hbuilt : ofSelection selection = .ok d₀) (hreach : Reachable d₀ d)
    (hlabs : ∀ lab < d.labs.size, d.isLabLegal lab = true)
    (halms : ∀ lab < d.labs.size, ∀ alm < Chip.almsPerLab, d.isAlmLegal lab alm = true) :
    ∃ d', Edit.preRoute.run d = (.ok (), d') ∧
      ∀ lab < d'.labs.size, ∀ alm < Chip.almsPerLab, ∃ mask, d'.lutMask lab alm = .ok mask := by
  have hd := hreach.isState hbuilt
  obtain ⟨d', hrun⟩ := Edit.exists_run_preRoute hd hlabs fun lab hlab alm halm _ =>
    exists_plan_of_isAlmLegal (halms lab hlab alm halm)
  have hrep := Edit.repacks_preRoute d
  rw [hrun] at hrep
  refine ⟨d', hrun, fun lab hlab alm halm => ?_⟩
  rw [hrep.size_labs_eq] at hlab
  exact Edit.exists_lutMask_of_preRoute hd hrun hlab halm

/-- An inverter can be prepared for routing. -/
theorem preRoute_of_legal_inverter : ∃ d₀ d d' mask, ofSelection (.ofGrid 3 2) = .ok d₀ ∧
    Reachable d₀ d ∧ (∃ name, d.netlist.cells =
      #[inverter name (some (siteNumber 1 1 0)) inverterLut]) ∧
    (∀ lab < d.labs.size, d.isLabLegal lab = true) ∧
    (∀ lab < d.labs.size, ∀ alm < Chip.almsPerLab, d.isAlmLegal lab alm = true) ∧
    Edit.preRoute.run d = (.ok (), d') ∧ d'.lutMask 0 0 = .ok mask := by
  obtain ⟨d₀, hbuilt, -⟩ := exists_ofSelection chip_smallestGrid
  obtain ⟨name, d, hreach, hcells⟩ := exists_placedInverter hbuilt
  obtain ⟨info, a, hinfo, hlab, ha, halm⟩ := exists_alm_smallestGrid hbuilt hreach.hardware
  have hd := hreach.isState hbuilt
  have hbare := (hlab.getElem?_alms ha).2
  have hlabs : ∀ lab < d.labs.size, d.isLabLegal lab = true := fun _ hlt =>
    isLabLegal_inverter hd halm hbare hcells hlt
  have halms : ∀ lab < d.labs.size, ∀ alm < Chip.almsPerLab, d.isAlmLegal lab alm = true := by
    intro lab hlt alm hz
    obtain ⟨b, hb⟩ := hd.exists_alm hlt hz
    exact isAlmLegal_inverter hd halm hbare hcells hb
  obtain ⟨d', hrun, hmasks⟩ := preRoute_of_legal hbuilt hreach hlabs halms
  have hrep := Edit.repacks_preRoute d
  rw [hrun] at hrep
  have hsize : 0 < d'.labs.size := by
    rw [hrep.size_labs_eq]
    exact (Array.getElem?_eq_some_iff.mp hinfo).1
  obtain ⟨mask, hmask⟩ := hmasks 0 hsize 0 (by decide)
  exact ⟨d₀, d, d', mask, hbuilt, hreach, ⟨name, hcells⟩, hlabs, halms, hrun, hmask⟩

/-! ### What a preparation does not look at -/

/-- The cell in a half needs no more truth table bits than its inputs address. -/
theorem tableBits_le (hd : d.Consistent) (id : CellId) : (d.netlist.lutInfo id).inputCount ≤ 6 ∧
    (d.netlist.lutInfo id).tableBits ≤ capacity (d.netlist.lutInfo id).inputCount := by
  rw [Netlist.lutInfo]
  cases hc : d.netlist.cell? id with
  | none => exact ⟨Nat.zero_le 6, Nat.zero_le _⟩
  | some c => exact (hd.made id c hc).sized

/-- The truth table bits that the cell in a half needs. -/
def halfBits (d : Device) (a : Alm) (half : Half) : Nat :=
  (((d.lutCells a).get half).map fun id => (d.netlist.lutInfo id).tableBits).getD 0

/-- The bits of a half are those of the LUT in it. -/
theorem halfBits_of_some {a : Alm} {half : Half} {id : CellId}
    (hid : (d.lutCells a).get half = some id) :
    d.halfBits a half = (d.netlist.lutInfo id).tableBits := by
  rw [halfBits, hid, Option.map_some, Option.getD_some]

/-- A half without a LUT has no bits. -/
theorem halfBits_of_none {a : Alm} {half : Half} (hid : (d.lutCells a).get half = none) :
    d.halfBits a half = 0 := by
  rw [halfBits, hid, Option.map_none, Option.getD_none]

/-- The bits of an ALM are those of its halves together. -/
theorem lutBits_eq_halfBits (d : Device) (a : Alm) :
    d.lutBits a = d.halfBits a .top + d.halfBits a .bottom := rfl

/-- A cell of at most `n` inputs needs at most the bits that `n` inputs address. -/
theorem halfBits_le (hd : d.Consistent) {a : Alm} {half : Half} {n : Nat}
    (hn : ∀ id, (d.lutCells a).get half = some id → (d.netlist.lutInfo id).inputCount ≤ n) :
    d.halfBits a half ≤ 2 ^ n := by
  cases hid : (d.lutCells a).get half with
  | none => rw [halfBits_of_none hid]; exact Nat.zero_le _
  | some id =>
      have hsized := (tableBits_le hd id).2
      rw [capacity, Nat.shiftLeft_eq, one_mul] at hsized
      rw [halfBits_of_some hid]
      exact hsized.trans (Nat.pow_le_pow_right (by decide) (hn id hid))

/-- LUTs that have a plan fit the truth table of their ALM: two of five inputs, or one of six. -/
theorem lutBits_le_of_plan (hd : d.Consistent) {a : Alm} {plan : InputPlan}
    (hplan : InputPlan.ofDemand? (d.almDemand a) = some plan) : d.lutBits a ≤ 64 := by
  obtain ⟨nets, hsound⟩ := InputPlan.ofDemand?_sound hplan
  rw [lutBits_eq_halfBits]
  cases hfused : (d.almDemand a).isFused with
  | true =>
      obtain ⟨half, id, hid, -⟩ := (almDemand_isFused_iff d a).mp hfused
      have hsix : d.halfBits a half ≤ 2 ^ 6 := halfBits_le hd fun id _ => (tableBits_le hd id).1
      have hother (other : Half) (hne : other ≠ half) : d.halfBits a other = 0 := by
        refine halfBits_of_none (Option.eq_none_iff_forall_ne_some.mpr fun id' hid' => ?_)
        exact hne (half_eq_of_lutCount_le d a (hsound.alone hfused) hid' hid)
      cases half with
      | top => rw [hother .bottom (by decide)]; exact hsix
      | bottom => rw [hother .top (by decide), Nat.zero_add]; exact hsix
  | false =>
      have hfive (half : Half) : d.halfBits a half ≤ 2 ^ 5 := by
        refine halfBits_le hd fun id hid => Nat.lt_succ_iff.mp ?_
        refine Nat.lt_of_le_of_ne (tableBits_le hd id).1 fun heq => ?_
        exact absurd ((almDemand_isFused_iff d a).mpr ⟨half, id, hid, heq⟩) (by rw [hfused]; simp)
      have htop := hfive .top
      have hbottom := hfive .bottom
      omega

/-- An ALM that could be prepared is legal exactly when the flip-flops of each half agree. -/
theorem isAlmLegal_iff_agree (hd : d.IsState) {lab alm : Nat} {a : Alm}
    (ha : d.alm? lab alm = some a)
    (hplan : Edit.isOccupied d a = true → (d.planAlm? lab alm).isSome) :
    d.isAlmLegal lab alm = true ↔ ∀ half, d.agree ((d.flopCells a).get half) = true := by
  have hagree : (Halves.toList (d.flopCells a)).all d.agree = true ↔
      ∀ half, d.agree ((d.flopCells a).get half) = true := by
    rw [List.all_eq_true]
    simp only [Halves.mem_toList, forall_exists_index, forall_apply_eq_imp_iff]
  cases hoccupied : Edit.isOccupied d a with
  | false =>
      refine iff_of_true (isAlmLegal_of_not_isOccupied ha hoccupied) fun half => ?_
      rw [(Edit.isOccupied_eq_false_iff.mp hoccupied).2]
      cases half <;> rfl
  | true =>
      obtain ⟨plan, hsome⟩ := Option.isSome_iff_exists.mp (hplan hoccupied)
      have hdemand : InputPlan.ofDemand? (d.almDemand a) = some plan := by
        rwa [planAlm?, ha, Option.bind_some] at hsome
      rw [← hagree, isAlmLegal, ha]
      dsimp only
      rw [decide_eq_true (lutBits_le_of_plan hd.consistent hdemand), hsome, Option.isSome_some,
        Bool.true_and, Bool.and_true]

/-- The signals that a half demands are the same in both models. -/
theorem Repacked.demands_iff (h : d.Repacked d') {a a' : Alm} (hbare : a'.bare = a.bare)
    {half : Half} {kind : ControlKind} {signal : ControlSignal} :
    d'.Demands a' half kind signal ↔ d.Demands a half kind signal := by
  rw [Demands, Demands, h.flopCells_eq_of_bare hbare, h.flipFlopInfo]

/-- After a preparation that succeeded the selector of a half whose flip-flops agree is reserved for
the shared wire of the signal that they demand. -/
theorem selector_of_preRoute (hd : d.IsState) (hrun : Edit.preRoute.run d = (.ok (), d'))
    {lab z : Nat} {info : Lab} (hlab : d'.labs[lab]? = some info) {x y : Nat}
    (hlabAt : d'.HasLab info x y) {a : Alm}
    (ha : info.alms[z]? = some a) {kind : ControlKind} (hk : kind ∈ ControlKind.selected)
    {half : Half}
    (hagree : d'.agree ((d'.flopCells a).get half) = true) {signal : ControlSignal}
    (hdemand : d'.Demands a half kind signal) : ∃ (slot : Nat) (w : Wire),
      (info.control.slots kind)[slot]? = some (some (kind.slotKey signal)) ∧
      (info.shared.get kind)[slot]? = some w ∧
      d'.wires.reservedDriver? (almNode x y z (selectorNumber half kind)) = some w := by
  have hrep := Edit.repacks_preRoute d
  rw [hrun] at hrep
  have hlt : lab < d.labs.size := by
    rw [← hrep.size_labs_eq]
    exact (Array.getElem?_eq_some_iff.mp hlab).1
  obtain ⟨mid, mid', hbefore, hassign, hafter⟩ := Edit.run_preRoute_assignControlSets hlt hrun
  have hmid := hbefore.isState hd
  have hstep := Edit.repacks_assignControlSets lab mid
  rw [hassign] at hstep
  have hlast : mid.Repacked d' := hstep.trans hafter.toRepacked
  -- The LAB and the ALM as they were when the LAB was assigned.
  obtain ⟨before, hbeforeLab, hbare⟩ := hlast.exists_lab hlab
  have hx : mid.HasLab before x y := hlabAt.of_hardware hlast.hardware.symm hbare
  have hz := hlabAt.getElem?_alms ha
  obtain ⟨b, hb⟩ := hx.exists_alm hz.1
  have hbareAlm : a.bare = b.bare := hz.2.trans (hx.getElem?_alms hb).2.symm
  have hagree' : mid.agree ((mid.flopCells b).get half) = true := by
    rwa [← hlast.flopCells_eq_of_bare hbareAlm, ← hlast.agree_eq]
  cases hslots : mid.controlSlots before with
  | error kind =>
      rw [Edit.run_assignControlSets_of_error hbeforeLab hslots] at hassign
      cases hassign
  | ok slots =>
      obtain ⟨assigned, hrunAssign, hassigned⟩ := Edit.exists_assigned hbeforeLab hx hslots
      obtain ⟨-, rfl⟩ := Prod.mk.inj (hrunAssign.symm.trans hassign)
      obtain ⟨slot, w, hslot, hw, hres⟩ := hassigned.selector_of_demands hx hslots hb hk hagree'
        ((hlast.demands_iff hbareAlm).mp hdemand)
      have hstate := hstep.isState hmid
      have hcontrol := hafter.control hstate
      rw [hlab, hassigned.getElem?_labs hbeforeLab, Option.map_some, Option.map_some,
        Option.some.injEq] at hcontrol
      have hselector : almNode x y z (selectorNumber half kind) ∈ assigned.controlWiresOf lab := by
        rw [← hafter.controlWiresOf_eq, controlWiresOf, hlab]
        exact hlabAt.mem_controlWires.mpr (.inr ⟨z, hz.1, kind, hk, half, rfl⟩)
      refine ⟨slot, w, ?_, ?_, (hafter.driver hstate _ hselector).trans hres⟩
      · rw [hcontrol]
        exact hslot
      · rw [hlabAt.shared, ← hx.shared]
        exact hw

/-! ### Two flip-flops in one half -/

/-- Two flip-flops without synchronous signals and data can be prepared for routing
wherever they are. -/
theorem exists_run_preRoute_of_pair {lab z : Nat} {a : Alm} {half : Half} {c₀ c₁ : Cell}
    (hd : d.IsState) (ha : d.alm? lab z = some a)
    (hcells : d.netlist.cells = #[c₀.placedAt (a.ffSites.flop half false),
      c₁.placedAt (a.ffSites.flop half true)])
    (hsync : ∀ kind ∉ ControlKind.selected, ∀ c ∈ [c₀, c₁], (c.controlSet.get kind).net = none)
    (hdata : ∀ c ∈ [c₀, c₁], c.netOf Known.dataIn = none ∧ c.netOf Known.sdata = none) :
    ∃ d', Edit.preRoute.run d = (.ok (), d') :=
  Edit.exists_run_preRoute hd (fun lab' _ => hd.isLabLegal_of_pair ha hcells hsync lab')
    fun _ hlab' _ hz' _ => by
      obtain ⟨b, hb⟩ := hd.exists_alm hlab' hz'
      exact hd.isSome_planAlm?_of_pair ha hcells hdata hb

section ClockedPair

variable {a : Alm} {n₀ n₁ : Ident} {clock : NetId} (hd : d.IsState) (ha : d.alm? 0 0 = some a)
  (hcells : d.netlist.cells = #[(clocked n₀ ⟨0⟩ .signal).placedAt (a.ffSites.flop .top false),
    (clocked n₁ clock .signal).placedAt (a.ffSites.flop .top true)])

include hd ha hcells

/-- Such a design can be prepared for routing. -/
theorem exists_run_preRoute_clockedPair : ∃ d', Edit.preRoute.run d = (.ok (), d') := by
  refine exists_run_preRoute_of_pair hd ha hcells (fun kind hk c hc => ?_) fun c hc => ?_
  · rcases List.mem_pair.mp hc with rfl | rfl <;> cases kind
    all_goals first | rfl | exact absurd (by decide) hk
  · rcases List.mem_pair.mp hc with rfl | rfl <;> exact ⟨rfl, rfl⟩

/-- The clocks of the two flip-flops are what is demanded as a clock in the half. -/
theorem demands_clockedPair {signal : ControlSignal} : d.Demands a .top .clk signal ↔
    signal = ⟨some ⟨0⟩, false⟩ ∨ signal = ⟨some clock, false⟩ := by
  constructor
  · rintro ⟨second, id, hid, rfl, -⟩
    obtain ⟨rfl, -⟩ := (hd.flopCells_of_pair ha hcells ha .top second id).mp hid
    rw [flipFlopInfo_of_pair hcells]
    cases second
    · exact .inl rfl
    · exact .inr rfl
  · have hflop (second : Bool) : (d.flopCells a).flop .top second = some ⟨second.toNat⟩ :=
      (hd.flopCells_of_pair ha hcells ha .top second _).mpr ⟨rfl, rfl, rfl, rfl⟩
    rintro (rfl | rfl)
    · exact ⟨false, _, hflop false, by rw [flipFlopInfo_of_pair hcells]; rfl, rfl⟩
    · exact ⟨true, _, hflop true, by rw [flipFlopInfo_of_pair hcells]; rfl, rfl⟩

end ClockedPair

/-! ### What a preparation guarantees -/

/-- **What a preparation guarantees.** After a preparation that succeeded every LAB is legal, and
an ALM is legal exactly when the flip-flops of each half agree on their control signals: that is the
one thing that the preparation does not look at. Where they do agree, the clock, enable and clear
selectors of the half are reserved for the shared wires that hold the signals of its flip-flops. -/
theorem preRoute_legality (hbuilt : ofSelection selection = .ok d₀) (hreach : Reachable d₀ d)
    (hrun : Edit.preRoute.run d = (.ok (), d')) :
    (∀ lab, d'.isLabLegal lab = true) ∧
    ∀ lab info, d'.labs[lab]? = some info → ∀ (alm : Nat) (a : Alm), info.alms[alm]? = some a →
      (d'.isAlmLegal lab alm = true ↔ ∀ half, d'.agree ((d'.flopCells a).get half) = true) ∧
      ∀ kind ∈ ControlKind.selected, ∃ s, a.selectors? kind = some s ∧
        ∀ half, d'.agree ((d'.flopCells a).get half) = true →
          ∀ signal, d'.Demands a half kind signal → ∃ (slot : Nat) (w : Wire),
            (info.control.slots kind)[slot]? = some (some (kind.slotKey signal)) ∧
            (info.shared.get kind)[slot]? = some w ∧
            d'.wires.reservedDriver? (s.get half) = some w := by
  have hd := hreach.isState hbuilt
  have hrep := Edit.repacks_preRoute d
  rw [hrun] at hrep
  have hd' := hrep.isState hd
  refine ⟨fun lab => ?_, fun lab info hlab alm a ha => ⟨?_, fun kind hk => ?_⟩⟩
  · rw [hrep.isLabLegal_eq]
    exact Edit.isLabLegal_of_preRoute hrun lab
  · have halm : d'.alm? lab alm = some a := by rw [alm?, hlab, Option.bind_some, ha]
    refine isAlmLegal_iff_agree hd' halm fun hoccupied => ?_
    obtain ⟨x, y, h⟩ := hd'.exists_hasLab hlab
    have hlt : lab < d.labs.size := by
      rw [← hrep.size_labs_eq]
      exact (Array.getElem?_eq_some_iff.mp hlab).1
    rw [hrep.planAlm?_eq]
    refine Edit.exists_plan_of_preRoute hrun hlt (h.getElem?_alms ha).1 ?_
    rw [← hrep.any_isOccupied_eq, halm]
    exact hoccupied
  · obtain ⟨x, y, h⟩ := hd'.exists_hasLab hlab
    obtain ⟨s, hs, hget⟩ := h.selectors? hk ha
    refine ⟨s, hs, fun half hagree signal hdemand => ?_⟩
    rw [hget half]
    exact selector_of_preRoute hd hrun hlab h ha hk hagree hdemand

/-- Two flip-flops of one half that have one clock are legal once they are prepared, and the clock
selector of the half is reserved for the shared wire of that clock. -/
theorem preRoute_legality_oneClock : ∃ d₀ d d' info a s w, ofSelection (.ofGrid 3 2) = .ok d₀ ∧
    Reachable d₀ d ∧ Edit.preRoute.run d = (.ok (), d') ∧ d'.isAlmLegal 0 0 = true ∧
    d'.labs[0]? = some info ∧ info.alms[0]? = some a ∧ a.selectors? .clk = some s ∧
    w ∈ info.shared.clk ∧ d'.wires.reservedDriver? s.top = some w := by
  obtain ⟨d₀, d, a, n₀, n₁, hbuilt, hreach, ha, hcells⟩ := exists_clockedPair true .signal .signal
  have hd := hreach.isState hbuilt
  obtain ⟨d', hrun⟩ := exists_run_preRoute_clockedPair hd ha hcells
  have hrep := Edit.repacks_preRoute d
  rw [hrun] at hrep
  obtain ⟨a', ha', hbare⟩ := hrep.exists_alm ha
  obtain ⟨info, hlab, halm⟩ := Option.bind_eq_some_iff.mp ha'
  obtain ⟨hlegal, hselectors⟩ := (preRoute_legality hbuilt hreach hrun).2 0 info hlab 0 a' halm
  have hagree (half : Half) : d'.agree ((d'.flopCells a').get half) = true := by
    rw [hrep.agree_eq, hrep.flopCells_eq_of_bare hbare]
    exact hd.agree_of_pair ha hcells rfl half
  obtain ⟨s, hs, hreserved⟩ := hselectors .clk (by decide)
  obtain ⟨slot, w, -, hw, hdriver⟩ := hreserved .top (hagree .top) _
    ((hrep.demands_iff hbare).mpr ((demands_clockedPair hd ha hcells).mpr (.inl rfl)))
  exact ⟨d₀, d, d', info, a', s, w, hbuilt, hreach, hrun, hlegal.mpr hagree, hlab, halm, hs,
    List.mem_of_getElem? hw, hdriver⟩

/-- Two flip-flops of one half that have different clocks are prepared all the same. The ALM is not
legal then, and one of them does not get its clock. -/
theorem preRoute_of_twoClocksInHalf : ∃ d₀ d d' info a s signal,
    ofSelection (.ofGrid 3 2) = .ok d₀ ∧ Reachable d₀ d ∧ Edit.preRoute.run d = (.ok (), d') ∧
    d'.isAlmLegal 0 0 = false ∧
    d'.labs[0]? = some info ∧ info.alms[0]? = some a ∧ a.selectors? .clk = some s ∧
    d'.Demands a .top .clk signal ∧ ¬ ∃ (slot : Nat) (w : Wire),
      (info.control.slots .clk)[slot]? = some (some (ControlKind.clk.slotKey signal)) ∧
      (info.shared.get .clk)[slot]? = some w ∧ d'.wires.reservedDriver? s.top = some w := by
  obtain ⟨d₀, d, a, n₀, n₁, hbuilt, hreach, ha, hcells⟩ := exists_clockedPair false .signal .signal
  have hd := hreach.isState hbuilt
  obtain ⟨d', hrun⟩ := exists_run_preRoute_clockedPair hd ha hcells
  have hrep := Edit.repacks_preRoute d
  rw [hrun] at hrep
  obtain ⟨a', ha', hbare⟩ := hrep.exists_alm ha
  obtain ⟨info, hlab, halm⟩ := Option.bind_eq_some_iff.mp ha'
  obtain ⟨x, y, hhas⟩ := (hrep.isState hd).exists_hasLab hlab
  obtain ⟨s, hs, -⟩ := hhas.selectors? (show .clk ∈ ControlKind.selected by decide) halm
  have hfirst := (hrep.demands_iff hbare).mpr ((demands_clockedPair hd ha hcells).mpr (.inl rfl))
  have hsecond := (hrep.demands_iff hbare).mpr ((demands_clockedPair hd ha hcells).mpr (.inr rfl))
  have hillegal : d'.isAlmLegal 0 0 = false := by
    rw [Bool.eq_false_iff]
    intro hlegal
    exact absurd (hfirst.eq_of_agree hsecond (agree_of_isAlmLegal ha' hlegal .top)) (by decide)
  by_cases hget : ∃ (slot : Nat) (w : Wire),
      (info.control.slots .clk)[slot]? = some (some (ControlKind.clk.slotKey ⟨some ⟨0⟩, false⟩)) ∧
      (info.shared.get .clk)[slot]? = some w ∧ d'.wires.reservedDriver? s.top = some w
  · refine ⟨d₀, d, d', info, a', s, _, hbuilt, hreach, hrun, hillegal, hlab, halm, hs, hsecond, ?_⟩
    rintro ⟨slot', w', hkey', hw', hdriver'⟩
    obtain ⟨slot, w, hkey, hw, hdriver⟩ := hget
    obtain rfl := Option.some.inj (hdriver.symm.trans hdriver')
    obtain ⟨-, rfl⟩ := hhas.shared_inj hw hw'
    exact absurd (Option.some.inj (Option.some.inj (hkey.symm.trans hkey'))) (by decide)
  · exact ⟨d₀, d, d', info, a', s, _, hbuilt, hreach, hrun, hillegal, hlab, halm, hs, hfirst, hget⟩

end Device

end Fabric
