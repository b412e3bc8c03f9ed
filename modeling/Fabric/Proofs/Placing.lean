import Fabric.Proofs.ControlSets
import Fabric.Proofs.Derive
import Fabric.Proofs.Places

/-!
# Placing flip-flops

A site of a LAB exists on every model that a design leads to, and is free until a cell records it.
So two flip-flops of a design can be placed in any half of any ALM, and if the design has nothing
else then they are all that its LABs hold.

## Main results

* `Reachable.exists_placed`: a flip-flop can be placed on a flip-flop site that no cell records;
* `Reachable.exists_pair`: two flip-flops can be placed in one half;
* `IsState.flopCells_of_pair`, `IsState.lutCells_of_pair`: what the ALMs hold then;
* `exists_clockedPair`: such a design can be drawn, on one clock or on two.
-/

namespace Fabric

/-- A flip-flop that was placed on a site and derived there. -/
def Cell.placedAt (c : Cell) (bel : BelId) : Cell :=
  { c with site := some bel, flipFlop := c.flipFlopSummary none }

/-- A flip-flop that is on no site, and whose load needs no zero net. -/
structure Cell.Unplaced (c : Cell) : Prop where
  type : c.type = Known.flipFlop
  site : c.site = none
  load : c.needsZeroLoad = false

/-- Two changes of a cell are one change. -/
theorem Netlist.modifyCell_modifyCell (nl : Netlist) (id : CellId) (f g : Cell → Cell) :
    (nl.modifyCell id f).modifyCell id g = nl.modifyCell id (g ∘ f) := by
  have hcells :
      ((nl.modifyCell id f).modifyCell id g).cells = (nl.modifyCell id (g ∘ f)).cells := by
    apply Array.ext_getElem?
    intro i
    simp only [modifyCell, Array.getElem?_modify]
    split
    · rw [Option.map_map]
    · rfl
  exact congrArg (fun cells => { nl with cells := cells }) hcells

/-! ### Free sites -/

/-- The sites of a LAB exist, whatever was done since the device was built. -/
theorem Reachable.exists_site {selection : Selection} {d₀ d : Device}
    (hbuilt : Device.ofSelection selection = .ok d₀) (h : Reachable d₀ d) {info : Lab} {x y n : Nat}
    (hlab : d.HasLab info x y) (hn : n < 60) : ∃ site, d.site? (siteNumber x y n) = some site := by
  obtain ⟨c, hc, hd₀⟩ := Device.isBuilt_of_ofSelection hbuilt
  have hchip : d.chip = c := (congrArg Hardware.chip h.hardware).trans hd₀.chip
  have hblock : c.blockAt x y = some .lab := by rw [← hchip, hlab.blockAt]
  have htile : (x, y) ∈ c.tiles := Chip.contains_iff.mp (hchip ▸ hlab.contains)
  obtain ⟨site, hsite⟩ := hd₀.exists_site hc htile
    (show n < c.tileSites (x, y) by rw [Chip.tileSites, hblock]; exact hn)
  have hbare := h.evolves.sites (siteNumber x y n)
  rw [hsite, Option.map_some] at hbare
  obtain ⟨site', hsite', -⟩ := Option.map_eq_some_iff.mp hbare
  exact ⟨site', hsite'⟩

namespace Device

/-- A site that no cell records holds none. -/
theorem Consistent.free {d : Device} (hd : d.Consistent) {bel : BelId} {site : Site}
    (hsite : d.site? bel = some site) (hnone : ∀ id, d.netlist.siteOf id ≠ some bel) :
    site.cell = none := by
  have hat : d.cellAt bel = site.cell := by rw [cellAt, hsite, Option.bind_some]
  cases hcell : site.cell with
  | none => rfl
  | some id => exact absurd ((hd.placed bel id).mp (hat.trans hcell)) (hnone id)

end Device

namespace Reachable

variable {selection : Selection} {d₀ d : Device} {lab z : Nat} {a : Alm}

/-! ### Placing a flip-flop -/

/-- A flip-flop can be placed on a flip-flop site that no cell records. -/
theorem exists_placed (hbuilt : Device.ofSelection selection = .ok d₀) (h : Reachable d₀ d)
    (ha : d.alm? lab z = some a) (half : Half) (second : Bool)
    (hfree : ∀ id, d.netlist.siteOf id ≠ some (a.ffSites.flop half second)) (id : CellId) {c : Cell}
    (hc : d.netlist.cell? id = some c) (hflop : c.Unplaced) : ∃ d', Reachable d₀ d' ∧
      d'.labs = d.labs ∧
      d'.netlist = d.netlist.modifyCell id (·.placedAt (a.ffSites.flop half second)) := by
  have hd := h.isState hbuilt
  obtain ⟨info, x, y, hlab, hz, hhas, hnumber⟩ := hd.flopSite_number ha
  have hlt : z < 10 := (hhas.getElem?_alms hz).1
  obtain ⟨hbel, hk⟩ := hnumber half second
  obtain ⟨site, hexists⟩ := h.exists_site hbuilt hhas
    (show 6 * z + (2 + 2 * half.index + second.toNat) < 60 by omega)
  rw [← hbel] at hexists
  have hrun := Edit.run_placeCell_of_free hexists (hd.consistent.free hexists hfree) hc
  rw [hflop.site] at hrun
  have hmoved : (d.moved (a.ffSites.flop half second) id none).netlist.cell? id =
      some { c with site := some (a.ffSites.flop half second) } := by
    rw [Device.moved, Netlist.cell?_modifyCell, if_pos rfl, hc, Option.map_some]
  rw [Edit.run_deriveCell_of_flipFlop hmoved hflop.type, Device.withFlipFlop_of_not_needed _ id
    (c := { c with site := some (a.ffSites.flop half second) }) hflop.load] at hrun
  refine ⟨_, h.step (.placeCell (a.ffSites.flop half second) id), ?_, ?_⟩
  · show ((Edit.placeCell _ _).run d).2.labs = _
    rw [hrun]
    exact Device.modifySite_labs _ _ _
  · show ((Edit.placeCell _ _).run d).2.netlist = _
    rw [hrun]
    exact d.netlist.modifyCell_modifyCell id _ _

end Reachable

/-! ### Two flip-flops in one half -/

/-- The sites that the cells of a design of two record. -/
theorem Netlist.siteOf_pair {nl : Netlist} {c₀ c₁ : Cell} (hcells : nl.cells = #[c₀, c₁])
    (id : CellId) (bel : BelId) : nl.siteOf id = some bel ↔
      id = ⟨0⟩ ∧ c₀.site = some bel ∨ id = ⟨1⟩ ∧ c₁.site = some bel := by
  obtain ⟨_ | _ | n⟩ := id
  · simp [siteOf, cell?, hcells]
  · simp [siteOf, cell?, hcells]
  · simp [siteOf, cell?, hcells]

section Pair

variable {selection : Selection} {d₀ d : Device} {lab z : Nat} {a : Alm} {c₀ c₁ : Cell}

/-- Two flip-flops can be placed in one half. -/
theorem Reachable.exists_pair (hbuilt : Device.ofSelection selection = .ok d₀) (h : Reachable d₀ d)
    (ha : d.alm? lab z = some a) (half : Half) (hcells : d.netlist.cells = #[c₀, c₁])
    (hflop₀ : c₀.Unplaced) (hflop₁ : c₁.Unplaced) : ∃ d', Reachable d₀ d' ∧ d'.labs = d.labs ∧
      d'.netlist.nets = d.netlist.nets ∧
        d'.netlist.cells = #[c₀.placedAt (a.ffSites.flop half false),
        c₁.placedAt (a.ffSites.flop half true)] := by
  have hd := h.isState hbuilt
  obtain ⟨d₁, h₁, hlabs₁, hnetlist₁⟩ := h.exists_placed hbuilt ha half false
    (fun id hid => by
      rcases (d.netlist.siteOf_pair hcells id _).mp hid with ⟨-, hid⟩ | ⟨-, hid⟩
      · cases hflop₀.site.symm.trans hid
      · cases hflop₁.site.symm.trans hid)
    ⟨0⟩ (by rw [Netlist.cell?, hcells]; rfl) hflop₀
  have hcells₁ : d₁.netlist.cells = #[c₀.placedAt (a.ffSites.flop half false), c₁] := by
    rw [hnetlist₁, Netlist.modifyCell, hcells]
    rfl
  have ha₁ : d₁.alm? lab z = some a := by rw [Device.alm?, hlabs₁, ← Device.alm?, ha]
  obtain ⟨d₂, h₂, hlabs₂, hnetlist₂⟩ := h₁.exists_placed hbuilt ha₁ half true
    (fun id hid => by
      rcases (d₁.netlist.siteOf_pair hcells₁ id _).mp hid with ⟨-, hid⟩ | ⟨-, hid⟩
      · cases (hd.flopSite_inj ha ha (Option.some.inj hid)).2.2.2
      · cases hflop₁.site.symm.trans hid)
    ⟨1⟩ (by rw [Netlist.cell?, hcells₁]; rfl) hflop₁
  refine ⟨d₂, h₂, hlabs₂.trans hlabs₁, ?_, ?_⟩
  · rw [hnetlist₂, hnetlist₁]
    rfl
  · rw [hnetlist₂, Netlist.modifyCell, hcells₁]
    rfl

namespace Device

/-- Flip-flops without data can be planned wherever they are. -/
theorem isSome_ofDemand?_of_no_data {flops : Flops (Option FlipFlopInfo)}
    (h : ∀ half, AlmDemand.selectorNets ⟨⟨none, none⟩, flops⟩ half = []) :
    (InputPlan.ofDemand? ⟨⟨none, none⟩, flops⟩).isSome := by
  rw [InputPlan.ofDemand?, h, h]
  rfl

variable {half : Half}

/-- The sites of two placed flip-flops hold them, and no other site holds a cell. -/
theorem Consistent.cellAt_of_pair (hd : d.Consistent) {b₀ b₁ : BelId}
    (hcells : d.netlist.cells = #[c₀.placedAt b₀, c₁.placedAt b₁]) (bel : BelId) (id : CellId) :
    d.cellAt bel = some id ↔ id = ⟨0⟩ ∧ b₀ = bel ∨ id = ⟨1⟩ ∧ b₁ = bel := by
  rw [hd.placed, d.netlist.siteOf_pair hcells]
  simp [Cell.placedAt]

/-- A flip-flop that was placed is up to date. -/
theorem upToDate_of_placedAt {id : CellId} {c : Cell} {bel : BelId}
    (hc : d.netlist.cell? id = some (c.placedAt bel)) (hflop : c.Unplaced) : d.UpToDate id := by
  refine (upToDate_iff_of_flipFlop hc hflop.type).mpr ?_
  rw [withLoadNet, show (c.placedAt bel).needsZeroLoad = false from hflop.load]
  rfl

/-- The summaries of two placed flip-flops are those of the cells themselves. -/
theorem flipFlopInfo_of_pair {b₀ b₁ : BelId}
    (hcells : d.netlist.cells = #[c₀.placedAt b₀, c₁.placedAt b₁]) (second : Bool) :
    d.netlist.flipFlopInfo ⟨second.toNat⟩ = (if second then c₁ else c₀).flipFlopSummary none := by
  cases second <;> simp [Netlist.flipFlopInfo, Netlist.cell?, hcells, Cell.placedAt]

/-- The keys of the control signals that two flip-flops have of one kind. -/
def pairKeys (c₀ c₁ : Cell) (kind : ControlKind) : List ControlSignal :=
  (([c₀, c₁].map fun c => c.controlSet.get kind).filter (·.net.isSome)).map fun signal =>
    if kind = .clk then { signal with inverted := false } else signal

/-- Two flip-flops fit every budget if they use no synchronous signals. -/
theorem length_pairKeys_le {kind : ControlKind}
    (hsync : kind ∉ ControlKind.selected → ∀ c ∈ [c₀, c₁], (c.controlSet.get kind).net = none) :
    (pairKeys c₀ c₁ kind).length ≤ kind.limit := by
  rw [pairKeys, List.length_map]
  by_cases hk : kind ∈ ControlKind.selected
  · have htwo : 2 ≤ kind.limit := by
      simp only [ControlKind.selected, List.mem_cons, List.not_mem_nil, or_false] at hk
      rcases hk with rfl | rfl | rfl <;> decide
    exact (List.length_filter_le _ _).trans htwo
  · have hnone := hsync hk
    rw [List.filter_eq_nil_iff.mpr fun signal hsignal => by
      obtain ⟨c, hc, rfl⟩ := List.mem_map.mp hsignal
      simp [hnone c hc]]
    exact Nat.zero_le _

namespace IsState

variable (hd : d.IsState) (ha : d.alm? lab z = some a)
  (hcells : d.netlist.cells = #[c₀.placedAt (a.ffSites.flop half false),
    c₁.placedAt (a.ffSites.flop half true)])

include hd ha hcells

/-- No ALM holds a LUT if the design is two flip-flops. -/
theorem lutCells_of_pair {lab' z' : Nat} {b : Alm} (hb : d.alm? lab' z' = some b) :
    d.lutCells b = ⟨none, none⟩ := by
  have hnone (half' : Half) : (d.lutCells b).get half' = none := by
    rw [lutCells, Halves.get_map, Option.eq_none_iff_forall_ne_some]
    intro id hid
    rcases (hd.consistent.cellAt_of_pair hcells _ id).mp hid with ⟨-, heq⟩ | ⟨-, heq⟩
    · exact hd.flopSite_ne_lutSite ha hb half half' false heq
    · exact hd.flopSite_ne_lutSite ha hb half half' true heq
  exact Halves.ext_get fun half' => by rw [hnone half']; cases half' <;> rfl

/-- The flip-flops of an ALM are those two, each in its own place, if the design is two
flip-flops. -/
theorem flopCells_of_pair {lab' z' : Nat} {b : Alm} (hb : d.alm? lab' z' = some b) (half' : Half)
    (second : Bool) (id : CellId) : (d.flopCells b).flop half' second = some id ↔
      id = ⟨second.toNat⟩ ∧ lab' = lab ∧ z' = z ∧ half' = half := by
  rw [flopCells, Flops.flop_mapFlops, hd.consistent.cellAt_of_pair hcells]
  constructor
  · rintro (⟨rfl, heq⟩ | ⟨rfl, heq⟩)
    · obtain ⟨rfl, rfl, rfl, rfl⟩ := hd.flopSite_inj ha hb heq
      exact ⟨rfl, rfl, rfl, rfl⟩
    · obtain ⟨rfl, rfl, rfl, rfl⟩ := hd.flopSite_inj ha hb heq
      exact ⟨rfl, rfl, rfl, rfl⟩
  · rintro ⟨rfl, rfl, rfl, rfl⟩
    obtain rfl := Option.some.inj (ha.symm.trans hb)
    cases second
    · exact .inl ⟨rfl, rfl⟩
    · exact .inr ⟨rfl, rfl⟩

/-- The halves of the ALM with the two flip-flops: one has them, the other is empty. -/
theorem get_flopCells_of_pair (half' : Half) : (d.flopCells a).get half' =
    if half' = half then (some ⟨0⟩, some ⟨1⟩) else (none, none) := by
  have hflop (second : Bool) : (d.flopCells a).flop half' second =
      if half' = half then some ⟨second.toNat⟩ else none := by
    refine Option.ext fun id => ?_
    rw [hd.flopCells_of_pair ha hcells ha]
    by_cases h : half' = half
    · simp [h, eq_comm]
    · simp [h]
  have hfirst := hflop false
  have hsecond := hflop true
  rw [Flops.flop, cond_false] at hfirst
  rw [Flops.flop, cond_true] at hsecond
  by_cases h : half' = half
  · rw [if_pos h] at hfirst hsecond ⊢
    exact Prod.ext hfirst hsecond
  · rw [if_neg h] at hfirst hsecond ⊢
    exact Prod.ext hfirst hsecond

/-- A LAB demands no more than the keys of two flip-flops if the design is two flip-flops. -/
theorem demandedKeys_subset_of_pair {lab' : Nat} {info : Lab} (hlab : d.labs[lab']? = some info)
    (kind : ControlKind) : d.demandedKeys info kind ⊆ pairKeys c₀ c₁ kind := by
  refine List.map_subset _ fun signal hsignal => ?_
  obtain ⟨hsignal, hnet⟩ := List.mem_filter.mp hsignal
  refine List.mem_filter.mpr ⟨?_, hnet⟩
  obtain ⟨⟨b, half', ff⟩, hflop, rfl⟩ := List.mem_map.mp hsignal
  obtain ⟨hb, second, id, hid, rfl⟩ := mem_labFlipFlops.mp hflop
  obtain ⟨z', hz'⟩ := Array.mem_iff_getElem?.mp hb
  obtain ⟨rfl, -⟩ := (hd.flopCells_of_pair ha hcells
    (by rw [alm?, hlab, Option.bind_some, hz']) half' second id).mp hid
  rw [flipFlopInfo_of_pair hcells]
  exact List.mem_map.mpr ⟨if second then c₁ else c₀, by cases second <;> simp, rfl⟩

/-- Two flip-flops that use no synchronous signals are legal in every LAB. -/
theorem isLabLegal_of_pair (hsync : ∀ kind ∉ ControlKind.selected, ∀ c ∈ [c₀, c₁],
    (c.controlSet.get kind).net = none) (lab' : Nat) : d.isLabLegal lab' = true := by
  cases hlab : d.labs[lab']? with
  | none => rw [isLabLegal, hlab]; rfl
  | some info =>
      refine (isLabLegal_iff hlab).mpr fun kind => ?_
      have hsubset : (d.demandedKeys info kind).toFinset ⊆ (pairKeys c₀ c₁ kind).toFinset :=
        fun key hkey => List.mem_toFinset.mpr
          (hd.demandedKeys_subset_of_pair ha hcells hlab kind (List.mem_toFinset.mp hkey))
      calc (d.demandedKeys info kind).toFinset.card
          ≤ (pairKeys c₀ c₁ kind).toFinset.card := Finset.card_le_card hsubset
        _ ≤ (pairKeys c₀ c₁ kind).length := List.toFinset_card_le _
        _ ≤ kind.limit := length_pairKeys_le (hsync kind)

/-- Two flip-flops without data have a plan wherever they are. -/
theorem isSome_planAlm?_of_pair
    (hdata : ∀ c ∈ [c₀, c₁], c.netOf Known.dataIn = none ∧ c.netOf Known.sdata = none)
    {lab' z' : Nat} {b : Alm} (hb : d.alm? lab' z' = some b) : (d.planAlm? lab' z').isSome := by
  have hluts : d.lutCells b = ⟨none, none⟩ := hd.lutCells_of_pair ha hcells hb
  have hdemand : d.almDemand b = ⟨⟨none, none⟩, (d.almDemand b).flops⟩ := by
    rw [almDemand, hluts]
    rfl
  rw [planAlm?, hb, Option.bind_some, hdemand]
  refine isSome_ofDemand?_of_no_data fun half' => ?_
  rw [← hdemand, List.eq_nil_iff_forall_not_mem]
  intro net hnet
  obtain ⟨second, id, hid, hneeds⟩ := (mem_almDemand_selectorNets d b half' net).mp hnet
  obtain ⟨rfl, -⟩ := (hd.flopCells_of_pair ha hcells hb half' second id).mp hid
  obtain ⟨hdataIn, hsdata⟩ := hdata (if second then c₁ else c₀) (by cases second <;> simp)
  rw [flipFlopInfo_of_pair hcells] at hneeds
  rcases hneeds with hneeds | ⟨hneeds, -⟩
  · cases hsdata.symm.trans hneeds
  · cases hdataIn.symm.trans hneeds

/-- Two flip-flops agree in their half if their pins have the same control signals. -/
theorem agree_of_pair (hcontrol : c₀.controlSet = c₁.controlSet) (half' : Half) :
    d.agree ((d.flopCells a).get half') = true := by
  rw [hd.get_flopCells_of_pair ha hcells]
  split
  · have hfirst : d.netlist.flipFlopInfo ⟨0⟩ = _ := flipFlopInfo_of_pair hcells false
    have hsecond : d.netlist.flipFlopInfo ⟨1⟩ = _ := flipFlopInfo_of_pair hcells true
    refine decide_eq_true ?_
    rw [hfirst, hsecond]
    exact hcontrol
  · rfl

/-- Two flip-flops without data are legal in one half if their pins have the
same control signals. -/
theorem isAlmLegal_of_pair (hcontrol : c₀.controlSet = c₁.controlSet)
    (hdata : ∀ c ∈ [c₀, c₁], c.netOf Known.dataIn = none ∧ c.netOf Known.sdata = none) :
    d.isAlmLegal lab z = true := by
  have hbits : d.lutBits a = 0 := by
    rw [lutBits, hd.lutCells_of_pair ha hcells ha]
    rfl
  rw [isAlmLegal, ha]
  simp only [hbits, isSome_planAlm?_of_pair hd ha hcells hdata ha, Bool.and_true, Bool.and_eq_true,
    decide_eq_true_eq, Nat.zero_le, true_and, List.all_eq_true, Halves.mem_toList,
    forall_exists_index, forall_apply_eq_imp_iff]
  exact agree_of_pair hd ha hcells hcontrol

end IsState

end Device

end Pair

namespace Device

/-- A flip-flop with a clock and no other net. Its enable is open, in some state. -/
def clocked (name : Ident) (clock : NetId) (enable : PinState) : Cell where
  name := name
  type := Known.flipFlop
  ports := [(Known.clk, ⟨Known.clk, .input, some clock⟩)]
  pins := [(Known.ena, { state := enable })]

/-- Such a flip-flop before it gets its clock. -/
def unclocked (name : Ident) (enable : PinState) : Cell :=
  { clocked name ⟨0⟩ enable with ports := [(Known.clk, ⟨Known.clk, .input, none⟩)] }

/-- Two flip-flops with a clock port, and two nets for it, can be drawn. -/
theorem exists_unclockedPair {selection : Selection} {d₀ : Device}
    (hbuilt : ofSelection selection = .ok d₀) (enable₀ enable₁ : PinState) :
    ∃ d n₀ n₁ m₀ m₁ byCell byNet, Reachable d₀ d ∧ d.labs = d₀.labs ∧
      d.netlist = ⟨#[unclocked n₀ enable₀, unclocked n₁ enable₁],
        #[{ name := m₀ }, { name := m₁ }], byCell, byNet⟩ := by
  have hnetlist := (vacant_ofSelection hbuilt).netlist
  obtain ⟨n₀, d₁, h₁, hnl₁, hlabs₁, -⟩ := Reachable.built.exists_addCell "first" Known.flipFlop
  obtain ⟨n₁, d₂, h₂, hnl₂, hlabs₂, -⟩ := h₁.exists_addCell "second" Known.flipFlop
  obtain ⟨m₀, d₃, h₃, hnl₃, hlabs₃, -⟩ := h₂.exists_addNet "clock"
  obtain ⟨m₁, d₄, h₄, hnl₄, hlabs₄, -⟩ := h₃.exists_addNet "other"
  rw [hnl₃, hnl₂, hnl₁, hnetlist] at hnl₄
  obtain ⟨d₅, h₅, hnl₅, hlabs₅, -⟩ := h₄.exists_addPort ⟨0⟩ (by rw [hnl₄]; rfl) Known.clk .input
  obtain ⟨d₆, h₆, hnl₆, hlabs₆, -⟩ :=
    h₅.exists_addPort ⟨1⟩ (by rw [hnl₅, hnl₄]; rfl) Known.clk .input
  rw [hnl₅, hnl₄] at hnl₆
  obtain ⟨d₇, h₇, hnl₇, hlabs₇, -⟩ :=
    h₆.exists_setPinState ⟨0⟩ (by rw [hnl₆]; rfl) Known.ena enable₀
  obtain ⟨d₈, h₈, hnl₈, hlabs₈, -⟩ :=
    h₇.exists_setPinState ⟨1⟩ (by rw [hnl₇, hnl₆]; rfl) Known.ena enable₁
  refine ⟨d₈, n₀, n₁, m₀, m₁, d₈.netlist.cellByName, d₈.netlist.netByName, h₈, ?_, ?_⟩
  · rw [hlabs₈, hlabs₇, hlabs₆, hlabs₅, hlabs₄, hlabs₃, hlabs₂, hlabs₁]
  · rw [hnl₈, hnl₇, hnl₆]
    rfl

/-- Two such flip-flops, on one clock or on two, can be placed in one half. -/
theorem exists_clockedPair (shared : Bool) (enable₀ enable₁ : PinState) : ∃ d₀ d a n₀ n₁,
    ofSelection (.ofGrid 3 2) = .ok d₀ ∧ Reachable d₀ d ∧ d.alm? 0 0 = some a ∧ d.netlist.cells =
      #[(clocked n₀ ⟨0⟩ enable₀).placedAt (a.ffSites.flop .top false),
        (clocked n₁ ⟨(!shared).toNat⟩ enable₁).placedAt (a.ffSites.flop .top true)] := by
  obtain ⟨d₀, hbuilt, -⟩ := exists_ofSelection chip_smallestGrid
  obtain ⟨-, a, -, -, -, halm⟩ := exists_alm_smallestGrid hbuilt rfl
  obtain ⟨d₁, n₀, n₁, m₀, m₁, byCell, byNet, h₁, hlabs₁, hnetlist⟩ :=
    exists_unclockedPair hbuilt enable₀ enable₁
  obtain ⟨first, hfirst, second, hsecond, hcells⟩ : ∃ first,
      d₁.netlist.connect ⟨0⟩ Known.clk ⟨0⟩ = .ok first ∧ ∃ second,
      first.connect ⟨1⟩ Known.clk ⟨(!shared).toNat⟩ = .ok second ∧
      second.cells = #[clocked n₀ ⟨0⟩ enable₀, clocked n₁ ⟨(!shared).toNat⟩ enable₁] := by
    rw [hnetlist]
    cases shared <;> exact ⟨_, rfl, _, rfl, rfl⟩
  obtain ⟨d₂, h₂, hnl₂, hlabs₂, -⟩ := h₁.exists_connect ⟨0⟩ Known.clk _ hfirst
  obtain ⟨d₃, h₃, hnl₃, hlabs₃, -⟩ := h₂.exists_connect ⟨1⟩ Known.clk _ (by rw [hnl₂, hsecond])
  have halm₃ : d₃.alm? 0 0 = some a := by
    rw [alm?, hlabs₃, hlabs₂, hlabs₁]
    exact halm
  obtain ⟨d, hreach, hlabs, -, hplaced⟩ :=
    h₃.exists_pair hbuilt halm₃ .top (by rw [hnl₃, hcells]) ⟨rfl, rfl, rfl⟩ ⟨rfl, rfl, rfl⟩
  exact ⟨d₀, d, a, n₀, n₁, hbuilt, hreach, by rw [alm?, hlabs]; exact halm₃, hplaced⟩

end Device

end Fabric
