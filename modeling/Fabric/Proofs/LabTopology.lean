import Fabric.Proofs.BuildScript
import Fabric.Proofs.AlmRoutes
import Fabric.Proofs.DataLineRoutes
import Mathlib.Data.Finset.Prod
import Mathlib.Order.Interval.Finset.Nat

/-!
# The LABs of every grid

A device can be built for a grid exactly if the settings may ask for it, and it then has one LAB for
each LAB tile. `HasTopology` says how the wires and sites of one LAB hang together, in terms of the
LAB itself and of the ports of the chip: what is uphill of its shared wires, its selectors and its
flip-flop inputs, that its 190 wires are all different and its own, and that its sites know their
places.

## Main results

* `Chip.length_labTiles`: the number of LABs of a grid;
* `IsBuiltBy.hasTopology`: each LAB of a built device has this form;
* `Device.ofGrid_topology`: which grids there are, and what their devices are like.
-/

namespace Fabric

open Device (syntheticNode syntheticCount)

/-! ### The form of a LAB -/

/-- The eighteen wires of an ALM. -/
def Alm.wires (a : Alm) : List Wire :=
  a.combOut.toList ++ a.clkSelector.toList ++ a.enaSelector.toList ++ a.aclrSelector.toList
    ++ a.efSelector.toList ++ a.ffIn.toList ++ a.ffOut.toList

namespace Lab

/-- All wires of a LAB: the shared ones and those of its ALMs. -/
def wires (l : Lab) : List Wire := l.sharedWires ++ l.alms.toList.flatMap Alm.wires

/-- The port of the dedicated input of a shared wire, if its category has such inputs. -/
def dedicatedPort? (l : Lab) : ControlKind → Nat → Option BlockPort
  | .clk, slot => some ⟨.lab, l.pos, .clkIn, -1, slot⟩
  | .aclr, slot => some ⟨.lab, l.pos, .aclr, slot, -1⟩
  | _, _ => none

/-- The ports of the data lines. -/
def dataPorts (l : Lab) : List BlockPort :=
  (List.range Chip.labDataLineCount).map fun (i : Nat) => ⟨.lab, l.pos, .dataIn, -1, i⟩

end Lab

/-- LAB number `lab` of a model hangs together as a LAB does. -/
structure Device.HasTopology (d : Device) (lab : Nat) (l : Lab) : Prop where
  alms : l.alms.size = 10
  shared : ∀ kind, (l.shared.get kind).length = kind.limit
  /-- Ten shared wires and eighteen for each ALM, all different. -/
  wires : l.wires.length = 10 + 10 * 18 ∧ l.wires.Nodup
  own : ∀ lab' l', d.labs[lab']? = some l' → lab' ≠ lab → ∀ w ∈ l.wires, w ∉ l'.wires
  selectors : ∀ a ∈ l.alms, ∀ kind s, a.selectors? kind = some s → ∀ half,
    d.wires.uphill? (s.get half) = some (l.shared.get kind)
  efSelectors : ∀ (z : Nat) a, l.alms[z]? = some a →
    ∀ half e f, (half, e, f) ∈ [(Half.top, AlmPin.e0, AlmPin.f1), (.bottom, .e1, .f0)] →
      ∃ eWire fWire, d.chip.node? ⟨.lab, l.pos, .almInput e, z, -1⟩ = some eWire ∧
        d.chip.node? ⟨.lab, l.pos, .almInput f, z, -1⟩ = some fWire ∧
        d.wires.uphill? (a.efSelector.get half) = some [eWire, fWire]
  flopInputs : ∀ a ∈ l.alms, ∀ half second,
    d.wires.uphill? (a.ffIn.flop half second) = some [a.combOut.get half, a.efSelector.get half]
  /-- A shared wire has its dedicated input first, and then each data line once. -/
  sharedInputs : ∀ kind slot w, (l.shared.get kind)[slot]? = some w → ∃ dedicated lines : List Wire,
    d.wires.uphill? w = some (dedicated ++ lines) ∧
    dedicated.map some = (l.dedicatedPort? kind slot).toList.map d.chip.node? ∧
    (lines.map some).Perm (l.dataPorts.map d.chip.node?) ∧ lines.Nodup
  /-- A site of the LAB knows which entry of the LAB it is. -/
  sites : ∀ bel site, d.site? bel = some site → bel.pos = l.pos →
    ∃ place, site.place = some place ∧ place.lab = lab ∧ ∃ a, l.alms[place.alm]? = some a ∧
      (site.type = Known.combSite ∧ a.lutSites.toList[place.index]? = some bel ∨
        site.type = Known.flipFlop ∧ a.ffSites.toList[place.index]? = some bel)
  /-- The entries of the LAB are sites of it. -/
  entries : ∀ a ∈ l.alms, ∀ bel ∈ a.lutSites.toList ++ a.ffSites.toList,
    bel.pos = l.pos ∧ (d.site? bel).isSome

/-! ### Wires by number -/

/-- The numbers of the wires of a LAB. -/
def labWireNumbers : List Nat :=
  List.range 10 ++ (List.range 10).flatMap fun z =>
    [0, 1, 2, 6, 3, 7, 4, 8, 5, 9, 10, 12, 14, 16, 11, 13, 15, 17].map (10 + 18 * z + ·)

/-- The wires of a LAB are numbered synthetic ones of its tile. -/
theorem wires_labAt (x y : Nat) : (labAt x y).wires = labWireNumbers.map (syntheticNode x y) := by
  rw [labWireNumbers, List.map_append, List.map_flatMap, Lab.wires]
  refine congrArg₂ (· ++ ·) rfl ?_
  simp only [labAt, List.flatMap_map, List.map_map]
  rfl

/-- The numbers are the 190 first ones, each of them once. -/
theorem labWireNumbers_spec :
    labWireNumbers.length = 190 ∧ labWireNumbers.Nodup ∧ ∀ n ∈ labWireNumbers, n < 190 := by
  decide +kernel

/-- A wire of a LAB is a synthetic one with a number below 190. -/
theorem mem_wires_labAt {x y : Nat} {w : Wire} (hw : w ∈ (labAt x y).wires) :
    ∃ n < 190, w = syntheticNode x y n := by
  rw [wires_labAt, List.mem_map] at hw
  obtain ⟨n, hn, rfl⟩ := hw
  exact ⟨n, labWireNumbers_spec.2.2 n hn, rfl⟩

/-- The wires of a LAB are distinct. -/
theorem nodup_wires_labAt {x y : Nat} (hr : InRange x y) : (labAt x y).wires.Nodup := by
  rw [wires_labAt]
  refine labWireNumbers_spec.2.1.map_on fun n hn n' hn' heq => ?_
  have hle : 190 ≤ syntheticCount := by decide
  have hlt := labWireNumbers_spec.2.2 n hn
  have hlt' := labWireNumbers_spec.2.2 n' hn'
  exact (Device.syntheticNode_inj hr.x_lt hr.y_lt (by omega) hr.x_lt hr.y_lt (by omega) heq).2.2

/-! ### Ports -/

section Ports

variable {c : Chip} {x y : Nat}

/-- A port of a LAB is where its tile has it. -/
theorem node?_labPort (ht : IsTile c x y .lab) (port : ChipPort) (blockIndex portIndex : Int) :
    c.node? ⟨.lab, .pack x y, port, blockIndex, portIndex⟩ =
      Chip.nodeBehind? x y .lab port blockIndex portIndex := by
  simp only [Chip.node?, Pos.x_pack ht.x_lt ht.y_lt, Pos.y_pack ht.x_lt ht.y_lt, ht.blockAt,
    if_true]

/-- The inputs of an ALM are the wires recorded for them. -/
theorem node?_almInput (ht : IsTile c x y .lab) {z : Nat} (hz : z < Chip.almsPerLab)
    (pin : AlmPin) :
    c.node? ⟨.lab, .pack x y, .almInput pin, z, -1⟩ = some (almInput x y z pin) := by
  rw [node?_labPort ht]
  exact congrArg (Option.map _) (indexBelow?_natCast hz)

/-- The data ports are on the data lines. -/
theorem map_node?_dataPorts (ht : IsTile c x y .lab) :
    (labAt x y).dataPorts.map c.node? = (labDataLines x y 0).map some := by
  simp only [Lab.dataPorts, labDataLines, List.map_map]
  refine List.map_congr_left fun i hi => ?_
  have hi : i < Chip.labDataLineCount := List.mem_range.mp hi
  rw [Function.comp_apply, Function.comp_apply, Nat.zero_add, Nat.mod_eq_of_lt hi]
  refine (node?_labPort ht ..).trans ?_
  exact congrArg (Option.map _) (indexBelow?_natCast hi)

end Ports

section Plan

variable {c : Chip} {x y : Nat}

/-! ### Shared wires -/

/-- The plan of a shared wire: its dedicated input and the data lines from one of them on. -/
theorem exists_sharedInputs (ht : IsTile c x y .lab) {kind : ControlKind} {slot : Nat}
    (hslot : slot < kind.limit) : ∃ (dedicated : List Wire) (first : Nat),
      ((labPlan x y)[kind.firstShared + slot]?).map BlockWire.uphill =
        some (dedicated ++ labDataLines x y first) ∧
      dedicated.map some = ((labAt x y).dedicatedPort? kind slot).toList.map c.node? := by
  have hlt := kind.firstShared_add_limit_le
  have hdedicated (port : ChipPort) (blockIndex portIndex : Int) {w : Wire}
      (hw : Chip.nodeBehind? x y .lab port blockIndex portIndex = some w) :
      [w].map some = [(⟨.lab, (labAt x y).pos, port, blockIndex, portIndex⟩ : BlockPort)].map
        c.node? :=
    congrArg (fun node => [node]) ((node?_labPort ht port blockIndex portIndex).trans hw).symm
  rw [labPlan, List.getElem?_append_left (by rw [length_sharedPlan]; omega)]
  cases kind <;> simp only [ControlKind.limit] at hslot <;> interval_cases slot
  · exact ⟨[_], 0, rfl, hdedicated .clkIn (-1) 0 rfl⟩
  · exact ⟨[_], 0, rfl, hdedicated .clkIn (-1) 1 rfl⟩
  · exact ⟨[_], 0, rfl, hdedicated .clkIn (-1) 2 rfl⟩
  · exact ⟨[], 2, rfl, rfl⟩
  · exact ⟨[], 3, rfl, rfl⟩
  · exact ⟨[], 0, rfl, rfl⟩
  · exact ⟨[_], 3, rfl, hdedicated .aclr 0 (-1) rfl⟩
  · exact ⟨[_], 2, rfl, hdedicated .aclr 1 (-1) rfl⟩
  · exact ⟨[], 3, rfl, rfl⟩
  · exact ⟨[], 1, rfl, rfl⟩

/-- The data lines are the same ones wherever the count begins. -/
theorem labDataLines_perm (x y first : Nat) :
    (labDataLines x y first).Nodup ∧ (labDataLines x y first).Perm (labDataLines x y 0) := by
  have hnodup := Device.nodup_labDataLines x y
  have hsub : labDataLines x y 0 ⊆ labDataLines x y first := fun line hline =>
    (Device.mem_labDataLines x y first line).mpr hline
  have hperm : (labDataLines x y 0).Perm (labDataLines x y first) :=
    (List.subperm_of_subset hnodup hsub).perm_of_length_le (Nat.le_refl 4)
  exact ⟨hperm.nodup_iff.mp hnodup, hperm.symm⟩

/-! ### Sites -/

/-- A site of a LAB tile is the entry of an ALM. -/
theorem exists_labEntry {lab n : Nat} {plan : BlockSite}
    (hplan : (blockSitePlan x y lab .lab)[n]? = some plan) : ∃ z < Chip.almsPerLab, ∃ idx,
      plan.place = some ⟨lab, z, idx⟩ ∧
      (plan.type = Known.combSite ∧ (labAlm x y z).lutSites.toList[idx]? = some (siteNumber x y n) ∨
        plan.type = Known.flipFlop ∧
        (labAlm x y z).ffSites.toList[idx]? = some (siteNumber x y n)) := by
  have hn : n < 60 := by
    have hlt := (List.getElem?_eq_some_iff.mp hplan).1
    rwa [length_blockSitePlan] at hlt
  obtain ⟨z, k, hz, hk, rfl⟩ : ∃ z k, z < Chip.almsPerLab ∧ k < 6 ∧ n = 6 * z + k :=
    ⟨n / 6, n % 6, Nat.div_lt_of_lt_mul hn, Nat.mod_lt _ (by decide), (Nat.div_add_mod n 6).symm⟩
  have hz' : (List.range Chip.almsPerLab)[z]? = some z := List.getElem?_range hz
  rw [blockSitePlan, getElem?_flatMap_of_length (length_almSites x y lab) hz' hk] at hplan
  refine ⟨z, hz, ?_⟩
  interval_cases k <;> obtain rfl := Option.some.inj hplan
  · exact ⟨0, rfl, .inl ⟨rfl, rfl⟩⟩
  · exact ⟨1, rfl, .inl ⟨rfl, rfl⟩⟩
  · exact ⟨0, rfl, .inr ⟨rfl, rfl⟩⟩
  · exact ⟨1, rfl, .inr ⟨rfl, rfl⟩⟩
  · exact ⟨2, rfl, .inr ⟨rfl, rfl⟩⟩
  · exact ⟨3, rfl, .inr ⟨rfl, rfl⟩⟩

/-- The entries of an ALM are sites of its tile. -/
theorem mem_labEntries {z : Nat} (hz : z < Chip.almsPerLab) {bel : BelId}
    (hbel : bel ∈ (labAlm x y z).lutSites.toList ++ (labAlm x y z).ffSites.toList) :
    ∃ n < 60, bel = siteNumber x y n := by
  have hz : z < 10 := hz
  simp only [labAlm, Halves.toList, Flops.toList, List.cons_append, List.nil_append, List.mem_cons,
    List.not_mem_nil, or_false] at hbel
  rcases hbel with rfl | rfl | rfl | rfl | rfl | rfl
  all_goals exact ⟨_, by omega, rfl⟩

end Plan

/-! ### The wires of a new LAB -/

section NewLab

variable {x y : Nat}

/-- The ALMs of a LAB are found by their number. -/
theorem getElem?_alms_labAt {z : Nat} (hz : z < Chip.almsPerLab) :
    (labAt x y).alms[z]? = some (labAlm x y z) := by
  rw [labAt, List.getElem?_toArray, List.getElem?_map, List.getElem?_range hz, Option.map_some]

/-- The ALMs of a new LAB are those of the plan. -/
theorem exists_labAlm {a : Alm} (ha : a ∈ (labAt x y).alms) :
    ∃ z < Chip.almsPerLab, (labAt x y).alms[z]? = some a ∧ a = labAlm x y z := by
  simp only [labAt, List.mem_toArray, List.mem_map, List.mem_range] at ha
  obtain ⟨z, hz, rfl⟩ := ha
  exact ⟨z, hz, getElem?_alms_labAt hz, rfl⟩

end NewLab

namespace Device.HasLab

variable {d : Device} {x y : Nat}

/-- A selector is fed by the shared wires of its category. -/
theorem uphill_selectors? (h : d.HasLab (labAt x y) x y) {a : Alm} (ha : a ∈ (labAt x y).alms)
    {kind : ControlKind} {s : Halves Wire} (hs : a.selectors? kind = some s) (half : Half) :
    d.wires.uphill? (s.get half) = some ((labAt x y).shared.get kind) := by
  obtain ⟨z, hz, hget, rfl⟩ := exists_labAlm ha
  have hkind : kind ∈ ControlKind.selected := by
    cases kind <;> first | decide | cases hs
  obtain ⟨s', hs', hnumber⟩ := h.selectors? hkind hget
  obtain rfl := Option.some.inj (hs.symm.trans hs')
  rw [hnumber, h.uphill_selector hz hkind]

/-- An E/F selector is fed by the nodes behind the two pins of its half. -/
theorem exists_uphill_efSelector (h : d.HasLab (labAt x y) x y) {z : Nat} {a : Alm}
    (hget : (labAt x y).alms[z]? = some a) {half : Half} {e f : AlmPin}
    (hpins : (half, e, f) ∈ [(Half.top, AlmPin.e0, AlmPin.f1), (.bottom, .e1, .f0)]) :
    ∃ eWire fWire, d.chip.node? ⟨.lab, (labAt x y).pos, .almInput e, z, -1⟩ = some eWire ∧
      d.chip.node? ⟨.lab, (labAt x y).pos, .almInput f, z, -1⟩ = some fWire ∧
      d.wires.uphill? (a.efSelector.get half) = some [eWire, fWire] := by
  obtain ⟨hz, -⟩ := h.getElem?_alms hget
  obtain rfl := Option.some.inj ((getElem?_alms_labAt hz).symm.trans hget)
  have ht := h.toIsTile
  refine ⟨_, _, node?_almInput ht hz e, node?_almInput ht hz f, ?_⟩
  rw [h.uphill_efSelector hz]
  simp only [List.mem_cons, Prod.mk.injEq, List.not_mem_nil, or_false] at hpins
  rcases hpins with ⟨rfl, rfl, rfl⟩ | ⟨rfl, rfl, rfl⟩ <;> rfl

/-- The data input of a flip-flop is fed by the LUT output and the E/F selector of its half. -/
theorem uphill_flop (h : d.HasLab (labAt x y) x y) {a : Alm} (ha : a ∈ (labAt x y).alms)
    (half : Half) (second : Bool) : d.wires.uphill? (a.ffIn.flop half second) =
      some [a.combOut.get half, a.efSelector.get half] := by
  obtain ⟨z, hz, -, rfl⟩ := exists_labAlm ha
  refine h.uphill_ffIn hz half ?_
  cases second
  · exact .inl rfl
  · exact .inr rfl

/-- A shared wire is fed by its dedicated input and then by each data line once. -/
theorem exists_uphill_shared (h : d.HasLab (labAt x y) x y) {kind : ControlKind} {slot : Nat}
    {w : Wire} (hw : ((labAt x y).shared.get kind)[slot]? = some w) :
    ∃ dedicated lines : List Wire, d.wires.uphill? w = some (dedicated ++ lines) ∧
      dedicated.map some = ((labAt x y).dedicatedPort? kind slot).toList.map d.chip.node? ∧
      (lines.map some).Perm ((labAt x y).dataPorts.map d.chip.node?) ∧ lines.Nodup := by
  rw [h.getElem?_shared, Option.ite_none_right_eq_some, Option.some.injEq] at hw
  obtain ⟨hslot, rfl⟩ := hw
  have hlt := kind.firstShared_add_limit_le
  have hle : 10 ≤ syntheticCount := by decide
  obtain ⟨dedicated, first, hplan, hdedicated⟩ := exists_sharedInputs h.toIsTile hslot
  obtain ⟨hnodup, hperm⟩ := labDataLines_perm x y first
  refine ⟨dedicated, _, (h.uphill _ (by omega)).trans hplan, hdedicated, ?_, hnodup⟩
  rw [map_node?_dataPorts h.toIsTile]
  exact hperm.map some

end Device.HasLab

/-! ### The LABs of a built device -/

namespace IsBuiltBy

variable {c : Chip} {d : Device} {k x y : Nat}

/-- LABs with different numbers have no wire in common. -/
theorem notMem_wires_of_ne (hc : c.Fits) (h : IsBuiltBy c c.script d)
    (hk : c.tiles[k]? = some (x, y)) {lab' : Nat} {l' : Lab} (hlab' : d.labs[lab']? = some l')
    (hne : lab' ≠ c.labNumber k) {w : Wire} (hw : w ∈ (labAt x y).wires) : w ∉ l'.wires := by
  intro hw'
  obtain ⟨k', ⟨x', y'⟩, hk', -, rfl, rfl⟩ := h.exists_labTile hc hlab'
  have hr := hc.inRange (List.mem_of_getElem? hk)
  have hr' := hc.inRange (List.mem_of_getElem? hk')
  obtain ⟨n, hn, rfl⟩ := mem_wires_labAt hw
  obtain ⟨n', hn', heq⟩ := mem_wires_labAt hw'
  have hle : 190 ≤ syntheticCount := by decide
  obtain ⟨rfl, rfl, -⟩ := Device.syntheticNode_inj hr.x_lt hr.y_lt (by omega) hr'.x_lt hr'.y_lt
    (by omega) heq
  obtain rfl := Chip.eq_of_getElem?_tiles hk hk'
  exact hne rfl

/-- A site on a LAB tile knows which entry of its LAB it is. -/
theorem exists_place (hc : c.Fits) (h : IsBuiltBy c c.script d) (hk : c.tiles[k]? = some (x, y))
    (hblock : c.blockAt x y = some .lab) {bel : BelId} {site : Site}
    (hsite : d.site? bel = some site) (hpos : bel.pos = (labAt x y).pos) :
    ∃ place, site.place = some place ∧ place.lab = c.labNumber k ∧
      ∃ a, (labAt x y).alms[place.alm]? = some a ∧
        (site.type = Known.combSite ∧ a.lutSites.toList[place.index]? = some bel ∨
          site.type = Known.flipFlop ∧ a.ffSites.toList[place.index]? = some bel) := by
  obtain ⟨k', t, block, n, plan, hk', hblock', hplan, rfl⟩ := h.exists_sitePlan hc hsite
  obtain ⟨hx, hy⟩ := Pos.pack_inj (hc.inRange (List.mem_of_getElem? hk'))
    (hc.inRange (List.mem_of_getElem? hk)) hpos
  obtain rfl : t = (x, y) := Prod.ext hx hy
  obtain rfl := Chip.eq_of_getElem?_tiles hk hk'
  obtain rfl := Option.some.inj (hblock'.symm.trans hblock)
  obtain ⟨site', hsite', -, htype, -, hplace⟩ := h.exists_site hc hk hblock hplan
  obtain rfl := Option.some.inj (hsite.symm.trans hsite')
  obtain ⟨z, hz, idx, hplanned, hentry⟩ := exists_labEntry hplan
  refine ⟨_, hplace _ hplanned, rfl, labAlm x y z, getElem?_alms_labAt hz, ?_⟩
  rwa [htype]

/-- The entries of a LAB are sites of its tile. -/
theorem isSome_site_of_entry (hc : c.Fits) (h : IsBuiltBy c c.script d)
    (hk : c.tiles[k]? = some (x, y)) (hblock : c.blockAt x y = some .lab) {a : Alm}
    (ha : a ∈ (labAt x y).alms) {bel : BelId} (hbel : bel ∈ a.lutSites.toList ++ a.ffSites.toList) :
    bel.pos = (labAt x y).pos ∧ (d.site? bel).isSome := by
  obtain ⟨z, hz, -, rfl⟩ := exists_labAlm ha
  obtain ⟨n, hn, rfl⟩ := mem_labEntries hz hbel
  refine ⟨rfl, ?_⟩
  have hlt : n < (blockSitePlan x y (c.labNumber k) .lab).length := by
    rwa [length_blockSitePlan]
  obtain ⟨site, hsite, -⟩ := h.exists_site hc hk hblock (List.getElem?_eq_getElem hlt)
  rw [hsite, Option.isSome_some]

/-- Each LAB of a built device hangs together as a LAB does. -/
theorem hasTopology (hc : c.Fits) (h : IsBuiltBy c c.script d) {lab : Nat} {l : Lab}
    (hlab : d.labs[lab]? = some l) : d.HasTopology lab l := by
  obtain ⟨k, ⟨x, y⟩, hk, hblock, rfl, rfl⟩ := h.exists_labTile hc hlab
  obtain ⟨x', y', hsame, hhas⟩ := Device.IsBuilt.hasLab hc h.toIsBuilt hlab
  have hr := hc.inRange (List.mem_of_getElem? hk)
  obtain ⟨rfl, rfl⟩ := Pos.pack_inj hr hhas.toInRange (congrArg Lab.pos hsame)
  constructor
  case alms => rfl
  case shared => exact fun kind => by cases kind <;> rfl
  case wires =>
    refine ⟨?_, nodup_wires_labAt hr⟩
    rw [wires_labAt, List.length_map, labWireNumbers_spec.1]
  case own => exact fun _ _ hlab' hne _ hw => h.notMem_wires_of_ne hc hk hlab' hne hw
  case selectors => exact fun _ ha _ _ hs half => hhas.uphill_selectors? ha hs half
  case efSelectors => exact fun _ _ hget _ _ _ hpins => hhas.exists_uphill_efSelector hget hpins
  case flopInputs => exact fun _ ha half second => hhas.uphill_flop ha half second
  case sharedInputs => exact fun _ _ _ hw => hhas.exists_uphill_shared hw
  case sites => exact fun _ _ hsite hpos => h.exists_place hc hk hblock hsite hpos
  case entries => exact fun _ ha _ hbel => h.isSome_site_of_entry hc hk hblock ha hbel

end IsBuiltBy

/-! ### Grids -/

namespace Chip

/-- A LAB stands inside the border, except where the clock mux does. -/
theorem blockAt_eq_lab {c : Chip} {x y : Nat} : c.blockAt x y = some .lab ↔
    (0 < x ∧ x < c.width - 1 ∧ y < c.height) ∧ ¬ (x = c.width / 2 ∧ y = 0) := by
  simp only [blockAt, contains, Bool.and_eq_true, decide_eq_true_iff]
  split
  · simp only [reduceCtorEq, false_iff]
    omega
  · split
    · simp only [Option.some.injEq, reduceCtorEq, false_iff]
      omega
    · split
      · simp only [Option.some.injEq, reduceCtorEq, false_iff]
        omega
      · simp only [true_iff]
        omega

/-- All tiles between the first and the last column hold a LAB, but for the clock multiplexer. -/
theorem length_labTiles {c : Chip} (hc : isGrid c.width c.height = true) :
    c.labTiles.length = (c.width - 2) * c.height - 1 := by
  obtain ⟨hwidth, -, hheight, -⟩ := isGrid_iff.mp hc
  let inner := Finset.Ioo 0 (c.width - 1) ×ˢ Finset.range c.height
  have hclock : (c.width / 2, 0) ∈ inner := by
    simp only [inner, Finset.mem_product, Finset.mem_Ioo, Finset.mem_range]
    omega
  have htiles : c.labTiles.toFinset = inner.erase (c.width / 2, 0) := by
    ext ⟨x, y⟩
    simp only [labTiles, List.mem_toFinset, List.mem_filter, mem_tiles, decide_eq_true_iff,
      blockAt_eq_lab, inner, Finset.mem_erase, Finset.mem_product, Finset.mem_Ioo, Finset.mem_range,
      ne_eq, Prod.mk.injEq]
    omega
  rw [← List.toFinset_card_of_nodup c.nodup_labTiles, htiles, Finset.card_erase_of_mem hclock,
    Finset.card_product, Nat.card_Ioo, Finset.card_range]
  rfl

end Chip

/-- Settings are accepted with the grids that there are. -/
theorem Settings.exists_check_grid {width height : Nat} :
    (∃ s : Settings, s.grid = some (width, height) ∧ s.check = .ok s) ↔
      Chip.isGrid width height = true := by
  constructor
  · rintro ⟨s, hgrid, hcheck⟩
    have hnone : s.deviceError? = none := by
      rw [check] at hcheck
      split at hcheck
      · cases hcheck
      · rename_i h
        exact (Option.or_eq_none_iff.mp h).1
    rw [deviceError?, hgrid] at hnone
    cases hpart : s.part with
    | none =>
      simp only [hpart] at hnone
      by_contra hgrid
      rw [if_neg hgrid] at hnone
      cases hnone
    | some part => simp [hpart] at hnone
  · intro h
    refine ⟨{ grid := some (width, height) }, rfl, ?_⟩
    have hnone : ({ grid := some (width, height) } : Settings).error? = none := by
      simp [error?, deviceError?, h]
    rw [check, hnone]

namespace Device

/-- A device is built for exactly the grids that the limits allow. -/
theorem exists_ofSelection_grid {width height : Nat} :
    (∃ d, ofSelection (.ofGrid width height) = .ok d) ↔ Chip.isGrid width height = true := by
  constructor
  · rintro ⟨d, hd⟩
    obtain ⟨c, hchip, -⟩ := isBuiltBy_of_ofSelection hd
    by_contra hgrid
    simp [Selection.chip, Selection.ofGrid, Chip.ofGrid?, hgrid] at hchip
  · intro h
    have hchip : (Selection.ofGrid width height).chip =
        .ok ⟨s!"synthetic-{width}x{height}", width, height⟩ := by
      simp [Selection.chip, Selection.ofGrid, Chip.ofGrid?, h]
    obtain ⟨d, hd, -⟩ := exists_ofSelection hchip
    exact ⟨d, hd⟩

/-- A device can be built for the grids from 3 by 2 to 128 by 128, which are those that settings may
ask for. It has one LAB on each LAB tile, and each of them hangs together as a LAB does. -/
theorem ofGrid_topology (width height : Nat) :
    ((∃ d, ofSelection (.ofGrid width height) = .ok d) ↔
      3 ≤ width ∧ width ≤ 128 ∧ 2 ≤ height ∧ height ≤ 128) ∧
    ((∃ s : Settings, s.grid = some (width, height) ∧ s.check = .ok s) ↔
      3 ≤ width ∧ width ≤ 128 ∧ 2 ≤ height ∧ height ≤ 128) ∧
    ∀ d, ofSelection (.ofGrid width height) = .ok d →
      d.chip.width = width ∧ d.chip.height = height ∧
      d.labs.size = (width - 2) * height - 1 ∧
      d.labs.toList.map Lab.pos = d.chip.labTiles.map (fun t => .pack t.1 t.2) ∧
      ∀ lab l, d.labs[lab]? = some l → d.HasTopology lab l := by
  refine ⟨exists_ofSelection_grid.trans Chip.isGrid_iff,
    Settings.exists_check_grid.trans Chip.isGrid_iff, fun d hd => ?_⟩
  have hgrid := exists_ofSelection_grid.mp ⟨d, hd⟩
  obtain ⟨c, hchip, hbuilt⟩ := isBuiltBy_of_ofSelection hd
  have hc := Selection.fits_chip hchip
  have hsize : c.width = width ∧ c.height = height := by
    simp only [Selection.chip, Selection.ofGrid, Chip.ofGrid?, hgrid, if_true,
      Except.ok.injEq] at hchip
    rw [← hchip]
    exact ⟨rfl, rfl⟩
  obtain ⟨rfl, rfl⟩ := hsize
  have hlabs : d.labs.toList = c.labTiles.map fun t => labAt t.1 t.2 :=
    hbuilt.labs.trans (c.labsOf_eq c.tiles)
  rw [hbuilt.chip]
  refine ⟨rfl, rfl, ?_, ?_, fun lab l hlab => hbuilt.hasTopology hc hlab⟩
  · rw [← Array.length_toList, hlabs, List.length_map, Chip.length_labTiles hgrid]
  · rw [hlabs, List.map_map]
    rfl

/-- The smallest grid has one LAB. -/
theorem ofGrid_topology_smallest : ∃ d l, ofSelection (.ofGrid 3 2) = .ok d ∧ d.labs.size = 1 ∧
    d.labs[0]? = some l ∧ d.HasTopology 0 l := by
  obtain ⟨hbuilt, -, htopology⟩ := ofGrid_topology 3 2
  obtain ⟨d, hd⟩ := hbuilt.mpr (by decide)
  obtain ⟨-, -, hsize, -, hlabs⟩ := htopology d hd
  obtain ⟨l, hlab⟩ : ∃ l, d.labs[0]? = some l :=
    ⟨_, Array.getElem?_eq_getElem (by rw [hsize]; decide)⟩
  exact ⟨d, l, hd, hsize, hlab, hlabs 0 l hlab⟩

end Device

end Fabric
