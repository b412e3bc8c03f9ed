import Fabric.Proofs.SharedDrivers

/-!
# Assigning control sets

A LAB can be given its control sets exactly when each category has no more distinct slot keys
than shared wires. This is decided before anything is changed; from then on nothing can fail,
because every key that is looked up was bound, every wire that is reserved exists and every driver
is uphill of it. So an assignment that fails changes nothing, and after one that succeeds the
reservations are those of the routes: each selector leads to the shared wire whose slot holds the
signal of its half.

## Main results

* `HasLab.selectorRoutes_eq`: no selected signal loses its slot;
* `run_assignControlSets_of_error`: a failed assignment changes nothing;
* `exists_assigned`: an assignment whose signals fit succeeds, and `Assigned` says what it does;
* `assignControlSets_exact`: legality, slots and atomicity;
* `selectors_reserved`: each selector is reserved for the shared wire of its own signal.
-/

namespace Fabric

open Device (syntheticNode)

/-! ### Demanded signals -/

namespace Device

/-- A flip-flop placed in a half has a connected control signal. -/
def Demands (d : Device) (a : Alm) (half : Half) (kind : ControlKind) (signal : ControlSignal) :
    Prop :=
  ∃ second id, (d.flopCells a).flop half second = some id ∧
    (d.netlist.flipFlopInfo id).control.get kind = signal ∧ signal.net.isSome

/-- The selected signals of a LAB are those that the halves of its ALMs demand. -/
theorem mem_selectedSignals {d : Device} {info : Lab} {s : SelectedSignal} :
    s ∈ d.selectedSignals info ↔ s.alm ∈ info.alms ∧ s.kind ∈ ControlKind.selected ∧
      d.Demands s.alm s.half s.kind s.signal := by
  obtain ⟨a, half, kind, signal⟩ := s
  simp only [selectedSignals, List.mem_flatMap, List.mem_map, List.mem_filter, Prod.exists,
    SelectedSignal.mk.injEq]
  constructor
  · rintro ⟨a, half, ff, hflop, kind, ⟨hk, hnet⟩, rfl, rfl, rfl, rfl⟩
    obtain ⟨ha, second, id, hid, rfl⟩ := mem_labFlipFlops.mp hflop
    exact ⟨ha, hk, second, id, hid, rfl, hnet⟩
  · rintro ⟨ha, hk, second, id, hid, rfl, hnet⟩
    exact ⟨a, half, _, mem_labFlipFlops.mpr ⟨ha, second, id, hid, rfl⟩, kind, ⟨hk, hnet⟩, rfl,
      rfl, rfl, rfl⟩

end Device

/-! ### Routes of selectors

A route is looked up for each selected signal, and the first lookup that fails ends the
assignment. `Device.selectorPips` are the routes when none fails. -/

/-- A loop of which no step fails. -/
theorem mapM_eq_ok {α β : Type} {l : List α} {f : α → Except Error β} {g : α → β}
    (h : ∀ x ∈ l, f x = .ok (g x)) : l.mapM f = .ok (l.map g) := by
  induction l with
  | nil => rfl
  | cons x rest ih =>
      rw [List.mapM_cons, h x List.mem_cons_self, ih fun y hy => h y (List.mem_cons_of_mem x hy)]
      rfl

/-- What a loop collects, if each of its steps has one possible answer. -/
theorem eq_map_of_mapM_eq_ok {α β : Type} {l : List α} {f : α → Except Error β} {g : α → β}
    (hf : ∀ x b, f x = .ok b → b = g x) {bs : List β} (h : l.mapM f = .ok bs) : bs = l.map g := by
  induction l generalizing bs with
  | nil => exact (Except.ok.inj h).symm
  | cons x rest ih =>
      rw [List.mapM_cons] at h
      cases hx : f x with
      | error why =>
          rw [hx] at h
          cases h
      | ok b =>
          rw [hx] at h
          cases hrest : rest.mapM f with
          | error why =>
              rw [hrest] at h
              cases h
          | ok bs' =>
              rw [hrest] at h
              obtain rfl := Except.ok.inj h
              rw [List.map_cons, hf x b hx, ih hrest]

namespace Device

/-- The route of the selector of a half for a signal, if the signal has a slot. -/
def selectorPip? (info : Lab) (slots : ControlSlots) (s : SelectedSignal) : Option Pip := do
  let slot ← slots.find? s.kind (s.kind.slotKey s.signal)
  let shared ← (info.shared.get s.kind)[slot]?
  let selectors ← s.alm.selectors? s.kind
  return ⟨shared, selectors.get s.half⟩

/-- The routes of the selectors of a LAB with some slots. -/
def selectorPips (d : Device) (info : Lab) (slots : ControlSlots) : List Pip :=
  (d.selectedSignals info).filterMap (selectorPip? info slots)

variable {d : Device} {lab : Nat} {info : Lab} {slots : ControlSlots}

/-- A selected signal is routed from the shared wire of its slot to the selector of its ALM. -/
theorem selectorPip?_eq_some_iff {s : SelectedSignal} {p : Pip} :
    selectorPip? info slots s = some p ↔ ∃ slot shared selectors,
      slots.find? s.kind (s.kind.slotKey s.signal) = some slot ∧
      (info.shared.get s.kind)[slot]? = some shared ∧ s.alm.selectors? s.kind = some selectors ∧
      p = ⟨shared, selectors.get s.half⟩ := by
  simp only [selectorPip?, bind, Option.bind_eq_some_iff, pure, Option.some.injEq]
  constructor
  · rintro ⟨slot, hslot, shared, hshared, selectors, hselectors, rfl⟩
    exact ⟨slot, shared, selectors, hslot, hshared, hselectors, rfl⟩
  · rintro ⟨slot, shared, selectors, hslot, hshared, hselectors, rfl⟩
    exact ⟨slot, hslot, shared, hshared, selectors, hselectors, rfl⟩

/-- The routes of the selectors are those of the connected signals of the flip-flops. -/
theorem mem_selectorPips {p : Pip} : p ∈ d.selectorPips info slots ↔
    ∃ a ∈ info.alms, ∃ half, ∃ kind ∈ ControlKind.selected, ∃ signal,
      d.Demands a half kind signal ∧ ∃ slot shared selectors,
        slots.find? kind (kind.slotKey signal) = some slot ∧
        (info.shared.get kind)[slot]? = some shared ∧ a.selectors? kind = some selectors ∧
        p = ⟨shared, selectors.get half⟩ := by
  simp only [selectorPips, List.mem_filterMap, mem_selectedSignals, selectorPip?_eq_some_iff]
  constructor
  · rintro ⟨⟨a, half, kind, signal⟩, ⟨ha, hk, hdemand⟩, hroute⟩
    exact ⟨a, ha, half, kind, hk, signal, hdemand, hroute⟩
  · rintro ⟨a, ha, half, kind, hk, signal, hdemand, hroute⟩
    exact ⟨⟨a, half, kind, signal⟩, ⟨ha, hk, hdemand⟩, hroute⟩

/-- A route that is found is the one of the slot. -/
theorem selectorRoute_eq_ok {s : SelectedSignal} {route : Option Pip}
    (h : selectorRoute lab info slots s = .ok route) : route = selectorPip? info slots s := by
  rw [selectorRoute] at h
  cases hslot : slots.find? s.kind (s.kind.slotKey s.signal) with
  | none =>
      rw [hslot] at h
      cases h
  | some slot =>
      simp only [hslot] at h
      simp only [selectorPip?, hslot, bind, Option.bind_some]
      cases hselectors : s.alm.selectors? s.kind with
      | none =>
          rw [hselectors] at h
          exact (Except.ok.inj h).symm.trans (Option.bind_fun_none _).symm
      | some selectors =>
          rw [hselectors] at h
          cases hshared : (info.shared.get s.kind)[slot]? with
          | none =>
              rw [hshared] at h
              cases h
          | some shared =>
              rw [hshared] at h
              exact (Except.ok.inj h).symm

/-- A signal whose key has a slot, and that a shared wire, has a route. -/
theorem selectorRoute_of_slot {s : SelectedSignal} {slot : Nat} {shared : Wire}
    (hslot : slots.find? s.kind (s.kind.slotKey s.signal) = some slot)
    (hshared : (info.shared.get s.kind)[slot]? = some shared) :
    selectorRoute lab info slots s = .ok (selectorPip? info slots s) := by
  simp only [selectorRoute, selectorPip?, hslot, hshared, bind, Option.bind_some]
  cases s.alm.selectors? s.kind <;> rfl

/-- Dropping the signals without a pip leaves the pips of the others. -/
theorem reduceOption_map_selectorPip? (l : List SelectedSignal) :
    (l.map (selectorPip? info slots)).reduceOption = l.filterMap (selectorPip? info slots) :=
  List.filterMap_map

/-- Routes that are found for all signals are those of their slots. -/
theorem selectorRoutes_eq_ok {routes : List Pip}
    (h : d.selectorRoutes lab info slots = .ok routes) : routes = d.selectorPips info slots := by
  rw [selectorRoutes] at h
  cases hrun : (d.selectedSignals info).mapM (selectorRoute lab info slots) with
  | error why =>
      rw [hrun] at h
      cases h
  | ok found =>
      rw [hrun] at h
      obtain rfl := Except.ok.inj h
      rw [eq_map_of_mapM_eq_ok (fun _ _ => selectorRoute_eq_ok) hrun,
        reduceOption_map_selectorPip?, selectorPips]

/-- No lookup fails if every selected signal has a slot with a shared wire. -/
theorem selectorRoutes_of_slots (h : ∀ s ∈ d.selectedSignals info, ∃ slot shared,
    slots.find? s.kind (s.kind.slotKey s.signal) = some slot ∧
      (info.shared.get s.kind)[slot]? = some shared) :
    d.selectorRoutes lab info slots = .ok (d.selectorPips info slots) := by
  have hrun : (d.selectedSignals info).mapM (selectorRoute lab info slots) =
      .ok ((d.selectedSignals info).map (selectorPip? info slots)) := by
    refine mapM_eq_ok fun s hs => ?_
    obtain ⟨slot, shared, hslot, hshared⟩ := h s hs
    exact selectorRoute_of_slot hslot hshared
  rw [selectorRoutes, hrun, selectorPips, ← reduceOption_map_selectorPip?]
  rfl

/-- The route of a selector can be reserved. -/
theorem HasLab.routable_selectorPips {x y : Nat} (h : d.HasLab info x y) :
    ∀ p ∈ d.selectorPips info slots, d.Routable p := by
  intro p hp
  obtain ⟨a, ha, half, kind, hk, signal, -, slot, shared, s, -, hshared, hs, rfl⟩ :=
    mem_selectorPips.mp hp
  obtain ⟨z, hz⟩ := Array.mem_iff_getElem?.mp ha
  obtain ⟨s', hs', hget⟩ := h.selectors? hk hz
  obtain rfl := Option.some.inj (hs.symm.trans hs')
  refine ⟨info.shared.get kind, ?_, List.mem_of_getElem? hshared, ?_⟩
  · rw [hget, h.uphill_selector (h.getElem?_alms hz).1 hk]
  · have hle := kind.firstShared_add_limit_le
    rw [h.shared, get_labShared, List.length_map, List.length_range]
    omega

end Device

/-- The routes through the selectors depend on where the cells are placed. -/
theorem SamePlacement.selectorRoutes {d d' : Device} (h : SamePlacement d d') (lab : Nat)
    (l : Lab) (slots : ControlSlots) :
    d'.selectorRoutes lab l slots = d.selectorRoutes lab l slots := by
  simp only [Device.selectorRoutes, Device.selectedSignals, h.labFlipFlops]

/-! ### Slots -/

/-- Clocks count without their polarity, the other signals with it. -/
theorem ControlKind.slotKey_eq (kind : ControlKind) (signal : ControlSignal) :
    kind.slotKey signal = if kind = .clk then { signal with inverted := false } else signal := by
  cases kind <;> rfl

/-- A slot that holds a key is a bound slot. -/
theorem ControlSlots.getElem?_slots_of_find? {slots : ControlSlots} {kind : ControlKind}
    {key : ControlSignal} {slot : Nat} (h : slots.find? kind key = some slot) :
    (slots.slots kind)[slot]? = some (some key) ∧ slot < (slots.get kind).length := by
  obtain ⟨hlt, hget, -⟩ := List.idxOf?_eq_some_iff.mp h
  refine ⟨?_, hlt⟩
  rw [ControlSlots.slots, List.getElem?_append_left (by rwa [List.length_map]), List.getElem?_map,
    List.getElem?_eq_getElem hlt, hget, Option.map_some]

/-- An occupied slot has one of the numbers up to the count of slots. -/
theorem ControlSlots.lt_of_getElem?_slots {slots : ControlSlots} {kind : ControlKind}
    {key : ControlSignal} {slot : Nat} (h : (slots.slots kind)[slot]? = some (some key)) :
    slot < (slots.get kind).length := by
  by_contra hle
  rw [ControlSlots.slots, List.getElem?_append_right (by rw [List.length_map]; omega),
    List.getElem?_replicate] at h
  split at h
  · cases h
  · cases h

namespace Device

/-- The slot keys of the connected signals of the flip-flops placed in a LAB, in order. -/
def demandedKeys (d : Device) (l : Lab) (kind : ControlKind) : List ControlSignal :=
  (((d.labFlipFlops l).map fun (_, _, info) => info.control.get kind).filter (·.net.isSome)).map
    fun signal => if kind = .clk then { signal with inverted := false } else signal

/-- The demanded keys of a kind are those of the LAB's flip-flops. -/
theorem demandedKeys_eq_keys (d : Device) (l : Lab) (kind : ControlKind) : d.demandedKeys l kind =
    kind.keys ((d.labFlipFlops l).map fun (_, _, info) => info.control) := by
  rw [demandedKeys, ControlKind.keys, List.map_map]
  congr 1
  funext signal
  exact (kind.slotKey_eq signal).symm

variable {d : Device} {lab : Nat} {info : Lab}

/-- The slots of a LAB hold the different keys, which fit. -/
theorem controlSlots_eq_ok {slots : ControlSlots} (h : d.controlSlots info = .ok slots)
    (kind : ControlKind) : slots.get kind = (d.demandedKeys info kind).eraseDups ∧
      (d.demandedKeys info kind).toFinset.card ≤ kind.limit := by
  rw [demandedKeys_eq_keys]
  exact bindSets_eq_ok h kind

/-- The first category whose signals do not fit is reported. -/
theorem controlSlots_eq_error {kind : ControlKind} (h : d.controlSlots info = .error kind) :
    kind.limit < (d.demandedKeys info kind).toFinset.card := by
  rw [demandedKeys_eq_keys]
  exact bindSets_eq_error h

/-- There is a slot for every key when each kind demands no more keys than it has wires. -/
theorem exists_controlSlots
    (h : ∀ kind : ControlKind, (d.demandedKeys info kind).toFinset.card ≤ kind.limit) :
    ∃ slots, d.controlSlots info = .ok slots := by
  cases hslots : d.controlSlots info with
  | ok slots => exact ⟨slots, rfl⟩
  | error kind => exact absurd (h kind) (Nat.not_le.mpr (controlSlots_eq_error hslots))

/-- A bound slot of a LAB has a shared wire. -/
theorem HasLab.exists_shared {x y : Nat} (h : d.HasLab info x y) {slots : ControlSlots}
    (hslots : d.controlSlots info = .ok slots) {kind : ControlKind} {slot : Nat}
    (hlt : slot < (slots.get kind).length) : ∃ w, (info.shared.get kind)[slot]? = some w := by
  obtain ⟨hget, hcard⟩ := controlSlots_eq_ok hslots kind
  rw [hget, length_eraseDups] at hlt
  exact ⟨_, by rw [h.getElem?_shared, if_pos (by omega)]⟩

/-- A demanded signal has a slot, if the signals of the LAB fit. -/
theorem Demands.exists_slot {a : Alm} {half : Half} {kind : ControlKind} {signal : ControlSignal}
    (h : d.Demands a half kind signal) (ha : a ∈ info.alms) {slots : ControlSlots}
    (hslots : d.controlSlots info = .ok slots) :
    ∃ slot, slots.find? kind (kind.slotKey signal) = some slot := by
  obtain ⟨second, id, hid, rfl, hnet⟩ := h
  have hkey : kind.slotKey ((d.netlist.flipFlopInfo id).control.get kind) ∈
      d.demandedKeys info kind := by
    rw [demandedKeys_eq_keys, ControlKind.keys, List.map_map]
    refine List.mem_map_of_mem (List.mem_filter.mpr ⟨List.mem_map.mpr ?_, hnet⟩)
    exact ⟨(a, half, _), mem_labFlipFlops.mpr ⟨ha, second, id, hid, rfl⟩, rfl⟩
  refine Option.ne_none_iff_exists'.mp fun hnone => ?_
  have hnot := (ControlSlots.find?_eq_none_iff slots kind _).mp hnone
  rw [(controlSlots_eq_ok hslots kind).1, List.mem_eraseDups] at hnot
  exact hnot hkey

/-- In a LAB of a built device no signal loses its slot: the keys that are looked up are those
that were bound, and the slots of a category are no more than its shared wires. -/
theorem HasLab.selectorRoutes_eq {x y : Nat} (h : d.HasLab info x y) {slots : ControlSlots}
    (hslots : d.controlSlots info = .ok slots) (lab : Nat) :
    d.selectorRoutes lab info slots = .ok (d.selectorPips info slots) := by
  refine selectorRoutes_of_slots fun s hs => ?_
  obtain ⟨ha, -, hdemand⟩ := mem_selectedSignals.mp hs
  obtain ⟨slot, hslot⟩ := hdemand.exists_slot ha hslots
  obtain ⟨-, hlt⟩ := ControlSlots.getElem?_slots_of_find? hslot
  obtain ⟨shared, hshared⟩ := h.exists_shared hslots hlt
  exact ⟨slot, shared, hslot, hshared⟩

/-- The bound slots are those that hold a signal with a net. -/
theorem mem_boundSlots {slots : ControlSlots} {b : BoundSlot} : b ∈ boundSlots slots ↔
    (slots.get b.1)[b.2.1]? = some b.2.2.1 ∧ b.2.2.1.net = some b.2.2.2 := by
  obtain ⟨kind, slot, signal, net⟩ := b
  simp only [boundSlots, List.mem_flatMap, List.mem_filterMap, Prod.exists,
    List.mem_zipIdx_iff_getElem?, Option.map_eq_some_iff, Prod.mk.injEq]
  constructor
  · rintro ⟨_, -, _, _, hget, _, hnet, rfl, rfl, rfl, rfl⟩
    exact ⟨hget, hnet⟩
  · rintro ⟨hget, hnet⟩
    exact ⟨kind, kind.mem_all, signal, slot, hget, net, hnet, rfl, rfl, rfl, rfl⟩

/-- The slots that are gone through have shared wires. -/
theorem HasLab.exists_slotWire {x y : Nat} (h : d.HasLab info x y) {slots : ControlSlots}
    (hslots : d.controlSlots info = .ok slots) {b : BoundSlot} (hb : b ∈ boundSlots slots) :
    ∃ w, slotWire? info b = some w ∧ (d.wires.uphill? w).isSome := by
  have hlt := (List.getElem?_eq_some_iff.mp (mem_boundSlots.mp hb).1).1
  obtain ⟨w, hw⟩ := h.exists_shared hslots hlt
  obtain ⟨l, hl, -⟩ := h.uphill_shared (List.mem_of_getElem? hw)
  exact ⟨w, hw, by rw [hl, Option.isSome_some]⟩

/-! ### Assignments -/

/-- The routes to the shared wires of a LAB with some slots. -/
def sharedPips (d : Device) (info : Lab) (slots : ControlSlots) : List Pip :=
  (d.slotDrivers info (boundSlots slots) []).filterMap (slotRoute? info)

/-- The drivers of wires after the control wires of a LAB were freed. -/
def withoutControl (d : Device) (info : Lab) : Wire → Option Wire := fun w =>
  if w ∈ info.controlWires then none else d.wires.reservedDriver? w

/-- What the assignment of some slots to a LAB does: the slots are recorded, the control
wires have the drivers that the routes give them and no others, and each slot without a
driver has got a warning. -/
structure Assigned (d : Device) (lab : Nat) (info : Lab) (slots : ControlSlots) (d' : Device) :
    Prop where
  design : SameDesign { d with
    labs := d.labs.modify lab fun l => { l with control := slots } } d'
  driver : d'.wires.reservedDriver? =
    redriven (drives (d.selectorPips info slots ++ d.sharedPips info slots)) (d.withoutControl info)
  warnings : d'.diagnostics.warningRecords = d.diagnostics.warningRecords ++
    d.noLineWarnings lab (d.slotDrivers info (boundSlots slots) [])

/-- The route to a shared wire leads to that of its slot. -/
theorem mem_sharedPips {slots : ControlSlots} {p : Pip} : p ∈ d.sharedPips info slots ↔
    ∃ b, (b, some p.src) ∈ d.slotDrivers info (boundSlots slots) [] ∧
      slotWire? info b = some p.dst := by
  rw [sharedPips, List.mem_filterMap]
  constructor
  · rintro ⟨⟨b, driver⟩, hmem, hroute⟩
    obtain ⟨src, rfl, hroute⟩ := Option.bind_eq_some_iff.mp hroute
    obtain ⟨w, hw, rfl⟩ := Option.map_eq_some_iff.mp hroute
    exact ⟨b, hmem, hw⟩
  · rintro ⟨b, hmem, hw⟩
    refine ⟨(b, some p.src), hmem, ?_⟩
    rw [slotRoute?, Option.bind_some, hw, Option.map_some]

/-- After an assignment every wire is reserved for a driver that a route gives it, or it is on no
route, and then it has no reservation if it is a control wire of the LAB. -/
theorem Assigned.drivers {slots : ControlSlots} {d' : Device}
    (hassigned : d.Assigned lab info slots d') :
    ∃ shared, (∀ p ∈ shared, ∃ kind, p.dst ∈ info.shared.get kind) ∧
      ∀ w, (∃ p ∈ d.selectorPips info slots ++ shared,
          p.dst = w ∧ d'.wires.reservedDriver? w = some p.src) ∨
        ((∀ p ∈ d.selectorPips info slots ++ shared, p.dst ≠ w) ∧
          d'.wires.reservedDriver? w =
            if w ∈ info.controlWires then none else d.wires.reservedDriver? w) := by
  refine ⟨d.sharedPips info slots, fun p hp => ?_, fun w => ?_⟩
  · obtain ⟨b, -, hw⟩ := mem_sharedPips.mp hp
    exact ⟨b.1, List.mem_of_getElem? hw⟩
  · rw [hassigned.driver]
    exact redriven_drives _ _ w

end Device

namespace Edit

variable {d : Device} {lab : Nat} {info : Lab}

/-- An assignment whose signals do not fit changes nothing. -/
theorem run_assignControlSets_of_error (hlab : d.labs[lab]? = some info) {kind : ControlKind}
    (h : d.controlSlots info = .error kind) :
    (assignControlSets lab).run d = (.error (.controlSetOverflow lab kind), d) := by
  simp only [assignControlSets, run_get_bind, hlab, h, run_throw]

/-- The routes of an assignment can be reserved. -/
theorem routable_controlRoutes {x y : Nat} (h : d.HasLab info x y) (slots : ControlSlots) :
    ∀ p ∈ d.selectorPips info slots ++ d.sharedPips info slots, d.Routable p := by
  intro p hp
  rcases List.mem_append.mp hp with hp | hp
  · exact h.routable_selectorPips p hp
  · obtain ⟨b, hb, hw⟩ := Device.mem_sharedPips.mp hp
    obtain ⟨l, hl, hlen⟩ := h.uphill_shared (List.mem_of_getElem? hw)
    have hsrc := Device.mem_slotUphill hb
    rw [Device.slotUphill, hw, Option.bind_some, hl, Option.getD_some] at hsrc
    exact ⟨l, hl, hsrc, hlen⟩

/-- An assignment whose signals fit succeeds. -/
theorem exists_assigned {x y : Nat} (hlab : d.labs[lab]? = some info) (h : d.HasLab info x y)
    {slots : ControlSlots} (hslots : d.controlSlots info = .ok slots) :
    ∃ d', (assignControlSets lab).run d = (.ok (), d') ∧ d.Assigned lab info slots d' := by
  simp only [assignControlSets, run_get_bind, hlab, hslots]
  -- Clearing keeps the design, so the routes chosen afterwards are those of `d`.
  obtain ⟨clear, hclear, hsame, hdriver⟩ := exists_run_unreserveAll (d := d)
    fun w hw => h.isSome_uphill_of_mem_controlWires hw
  have hquiet : (info.controlWires.forM unreserve).Keeps Device.Quiet :=
    .forM fun w _ => quiet_unreserve w
  have hquiet := hquiet d
  rw [hclear] at hquiet
  rw [run_bind_of_ok hclear, run_get_bind, hsame.selectorRoutes, h.selectorRoutes_eq hslots,
    run_bind_of_ok (run_ofExcept _ clear)]
  have hnet : clear.netlist.net? = d.netlist.net? := by rw [hsame.netlist]
  have hchosen : clear.slotDrivers info (Device.boundSlots slots) [] =
      d.slotDrivers info (Device.boundSlots slots) [] :=
    Device.slotDrivers_congr hnet hsame.uphill rfl _ []
  obtain ⟨sink, hchoose, hwarnings⟩ :=
    run_sharedRoutes lab (d := clear) (Device.boundSlots slots) []
    fun b hb => by
      rw [hsame.uphill]
      exact h.exists_slotWire hslots hb
  rw [hchosen, ← Device.sharedPips] at hchoose
  rw [hchosen] at hwarnings
  rw [run_bind_of_ok hchoose]
  -- All routes are along pips of the LAB, so none of the reservations is refused.
  obtain ⟨d', hreserve, hsame', hdriver'⟩ :=
    exists_run_reserveAll (d := { clear with diagnostics := sink }) fun p hp =>
      (routable_controlRoutes h slots p hp).of_sameDesign hsame
  have hquiet' : ((d.selectorPips info slots ++ d.sharedPips info slots).forM
      fun p => reserve p.src p.dst).Keeps Device.Quiet :=
    .forM fun p _ => quiet_reserve p.src p.dst
  have hquiet' := hquiet' { clear with diagnostics := sink }
  rw [hreserve] at hquiet'
  rw [run_bind_of_ok hreserve, run_modify]
  have hall := hsame.trans ((SameDesign.diagnostics clear sink).trans hsame')
  refine ⟨_, rfl, ⟨⟨hall.chip, hall.netlist, hall.sites⟩, hall.interner, ?_, hall.uphill⟩, ?_, ?_⟩
  · rw [hall.labs]
  · have hfree : clear.wires.reservedDriver? = d.withoutControl info := funext hdriver
    rw [← hfree]
    exact hdriver'
  · have htext : clear.noLineWarnings lab = d.noLineWarnings lab := by
      funext entries
      unfold Device.noLineWarnings Device.noLineWarning Device.signalText Device.nameOf
      rw [hsame.netlist, hquiet.interner]
    rw [htext, hquiet.warnings] at hwarnings
    exact hquiet'.warnings.trans hwarnings

end Edit

/-! ### Legality -/

namespace Device

variable {d : Device} {lab : Nat} {info : Lab}

/-- A LAB is legal exactly when each kind demands no more keys than it has wires. -/
theorem isLabLegal_iff (hlab : d.labs[lab]? = some info) : d.isLabLegal lab = true ↔
    ∀ kind : ControlKind, (d.demandedKeys info kind).toFinset.card ≤ kind.limit := by
  simp only [isLabLegal, hlab, Option.all_some, demandedKeys_eq_keys]
  exact isOk_bindSets_iff _

/-- The LAB after an assignment holds the slots. -/
theorem Assigned.getElem?_labs {slots : ControlSlots} {d' : Device}
    (h : d.Assigned lab info slots d') (hlab : d.labs[lab]? = some info) :
    d'.labs[lab]? = some { info with control := slots } := by
  rw [h.design.labs, Array.getElem?_modify, if_pos rfl, hlab, Option.map_some]

/-- A LAB is legal exactly when no category has more distinct slot keys than shared wires. On a
built device its control sets can be assigned exactly then: the slots get the keys in order of
first occurrence, or the model stays as it was. -/
theorem assignControlSets_exact (hlab : d.labs[lab]? = some info) :
    (d.isLabLegal lab = true ↔
      ∀ kind : ControlKind, (d.demandedKeys info kind).toFinset.card ≤ kind.limit) ∧
    ∀ (selection : Selection) (d₀ : Device), ofSelection selection = .ok d₀ →
      d.hardware = d₀.hardware →
      (d.isLabLegal lab = true → ∃ d' slots, (Edit.assignControlSets lab).run d = (.ok (), d') ∧
        d'.labs[lab]? = some { info with control := slots } ∧
        ∀ kind, slots.slots kind = (d.demandedKeys info kind).eraseDups.map some ++
          List.replicate (kind.limit - (d.demandedKeys info kind).eraseDups.length) none) ∧
      (d.isLabLegal lab = false → ∃ kind : ControlKind,
        kind.limit < (d.demandedKeys info kind).toFinset.card ∧
        (Edit.assignControlSets lab).run d = (.error (.controlSetOverflow lab kind), d)) := by
  refine ⟨isLabLegal_iff hlab, fun selection d₀ hbuilt hd => ?_⟩
  obtain ⟨x, y, h⟩ := exists_hasLab hbuilt hd hlab
  simp only [isLabLegal, hlab, Option.all_some]
  cases hslots : d.controlSlots info with
  | ok slots =>
      refine ⟨fun _ => ?_, fun hillegal => absurd hillegal nofun⟩
      obtain ⟨d', hrun, hassigned⟩ := Edit.exists_assigned hlab h hslots
      refine ⟨d', slots, hrun, hassigned.getElem?_labs hlab, fun kind => ?_⟩
      rw [ControlSlots.slots, (controlSlots_eq_ok hslots kind).1]
  | error kind =>
      refine ⟨fun hlegal => absurd hlegal nofun, fun _ => ?_⟩
      exact ⟨kind, controlSlots_eq_error hslots, Edit.run_assignControlSets_of_error hlab hslots⟩

/-- Two flip-flops of one ALM of the smallest grid, in different halves and on
different clocks. -/
def twoClocks : Device :=
  let flop (clock : Nat) : Cell :=
    { name := .empty, type := Known.flipFlop
      flipFlop := {
        control := { ByKind.const ({} : ControlSignal) with clk := ⟨some ⟨clock⟩, false⟩ } } }
  let site (cell : Option Nat) : Site :=
    { name := .empty, type := .empty, cell := cell.map CellId.mk }
  { blank (.ofGrid 3 2) ⟨"synthetic-3x2", 3, 2⟩ with
    netlist := { cells := #[flop 0, flop 1] }
    sites := #[#[], #[], #[], #[], [none, none, some 0, none, some 1].toArray.map site, #[]] }

/-- Two flip-flops on two clocks, placed in the smallest device with a LAB. -/
theorem exists_twoClocks : ∃ d₀ d, ofSelection (.ofGrid 3 2) = .ok d₀ ∧ d.hardware = d₀.hardware ∧
    d.labs[0]? = some (labAt 1 1) ∧ SamePlacement twoClocks d := by
  obtain ⟨d₀, d, hbuilt, hd, hchip, hnetlist, hsites, hlab⟩ :=
    exists_onSmallestGrid twoClocks.netlist twoClocks.sites
  exact ⟨d₀, d, hbuilt, hd, hlab, hchip, hnetlist, hsites⟩

/-- The two clocks are the only keys demanded. -/
theorem demandedKeys_twoClocks : ∀ kind ∈ ControlKind.all,
    twoClocks.demandedKeys (labAt 1 1) kind =
      if kind = .clk then [⟨some ⟨0⟩, false⟩, ⟨some ⟨1⟩, false⟩] else [] := by
  decide +kernel

/-- The two clocks fit the wires of a LAB. -/
theorem twoClocks_fit {d : Device} (h : SamePlacement twoClocks d) (kind : ControlKind) :
    (d.demandedKeys (labAt 1 1) kind).toFinset.card ≤ kind.limit := by
  rw [demandedKeys, h.labFlipFlops, ← demandedKeys, demandedKeys_twoClocks kind kind.mem_all]
  cases kind <;> decide

/-- Two clocks fit the clock slots of a LAB. -/
theorem assignControlSets_exact_twoClocks : ∃ d₀ d d' slots,
    ofSelection (.ofGrid 3 2) = .ok d₀ ∧ d.hardware = d₀.hardware ∧ SamePlacement twoClocks d ∧
      (Edit.assignControlSets 0).run d = (.ok (), d') ∧
      d'.labs[0]? = some { labAt 1 1 with control := slots } ∧
      slots.slots .clk = [some ⟨some ⟨0⟩, false⟩, some ⟨some ⟨1⟩, false⟩, none] := by
  obtain ⟨d₀, d, hbuilt, hd, hlab, hsame⟩ := exists_twoClocks
  obtain ⟨hlegal, hassign⟩ := assignControlSets_exact hlab
  obtain ⟨d', slots, hrun, hlab', hslots⟩ :=
    (hassign _ d₀ hbuilt hd).1 (hlegal.mpr (twoClocks_fit hsame))
  refine ⟨d₀, d, d', slots, hbuilt, hd, hsame, hrun, hlab', ?_⟩
  rw [hslots, demandedKeys, hsame.labFlipFlops, ← demandedKeys,
    demandedKeys_twoClocks .clk (by decide)]
  decide

/-! ### Selectors -/

/-- The flip-flops of each half of a legal ALM agree. -/
theorem agree_of_isAlmLegal {lab alm : Nat} {a : Alm} (ha : d.alm? lab alm = some a)
    (h : d.isAlmLegal lab alm = true) (half : Half) :
    d.agree ((d.flopCells a).get half) = true := by
  rw [isAlmLegal, ha] at h
  simp only [Bool.and_eq_true, List.all_eq_true] at h
  exact h.1.2 _ (Halves.mem_toList.mpr ⟨half, rfl⟩)

/-- Flip-flops of one half that agree have the same control signals. -/
theorem control_eq_of_agree {v : Flops (Option CellId)} {half : Half}
    (h : d.agree (v.get half) = true) {second second' : Bool} {id id' : CellId}
    (hid : v.flop half second = some id) (hid' : v.flop half second' = some id') :
    (d.netlist.flipFlopInfo id).control = (d.netlist.flipFlopInfo id').control := by
  rw [Flops.flop] at hid hid'
  generalize v.get half = pair at h hid hid'
  obtain ⟨first, other⟩ := pair
  cases second <;> cases second' <;> simp only [cond_false, cond_true] at hid hid'
  · rw [Option.some.inj (hid.symm.trans hid')]
  · subst hid hid'
    exact of_decide_eq_true h
  · subst hid hid'
    exact (of_decide_eq_true h).symm
  · rw [Option.some.inj (hid.symm.trans hid')]

/-- The signals demanded in a half whose flip-flops agree are one signal. -/
theorem Demands.eq_of_agree {a : Alm} {half : Half} {kind : ControlKind}
    {signal signal' : ControlSignal} (h : d.Demands a half kind signal)
    (h' : d.Demands a half kind signal') (hagree : d.agree ((d.flopCells a).get half) = true) :
    signal = signal' := by
  obtain ⟨second, id, hid, rfl, -⟩ := h
  obtain ⟨second', id', hid', rfl, -⟩ := h'
  rw [control_eq_of_agree hagree hid hid']

/-- A route to the selector of a half leads from the shared wire of a signal of that half. -/
theorem HasLab.route_of_dst {x y : Nat} (h : d.HasLab info x y) {slots : ControlSlots} {z : Nat}
    {a : Alm} (ha : info.alms[z]? = some a) {kind : ControlKind} (hk : kind ∈ ControlKind.selected)
    {half : Half} {p : Pip} (hp : p ∈ d.selectorPips info slots)
    (hdst : p.dst = almNode x y z (selectorNumber half kind)) :
    ∃ signal slot, d.Demands a half kind signal ∧
      slots.find? kind (kind.slotKey signal) = some slot ∧
      (info.shared.get kind)[slot]? = some p.src := by
  obtain ⟨a', hmem, half', kind', hk', signal, hdemand, slot, shared, s, hslot, hshared, hs,
    rfl⟩ := mem_selectorPips.mp hp
  obtain ⟨z', ha'⟩ := Array.mem_iff_getElem?.mp hmem
  obtain ⟨s', hs', hget⟩ := h.selectors? hk' ha'
  obtain rfl := Option.some.inj (hs.symm.trans hs')
  rw [show (⟨shared, s.get half'⟩ : Pip).dst = s.get half' from rfl, hget] at hdst
  obtain ⟨rfl, rfl, rfl⟩ :=
    h.selector_inj (h.getElem?_alms ha').1 (h.getElem?_alms ha).1 hk' hk hdst
  obtain rfl := Option.some.inj (ha.symm.trans ha')
  exact ⟨signal, slot, hdemand, hslot, hshared⟩

/-- A selector is reserved as a route to it says, or it has no reservation. -/
theorem Assigned.selector {x y : Nat} (h : d.HasLab info x y) {slots : ControlSlots} {d' : Device}
    (hassigned : d.Assigned lab info slots d') {z : Nat} (hz : z < Chip.almsPerLab)
    {kind : ControlKind} (hk : kind ∈ ControlKind.selected) (half : Half) :
    (∃ p ∈ d.selectorPips info slots, p.dst = almNode x y z (selectorNumber half kind) ∧
      d'.wires.reservedDriver? (almNode x y z (selectorNumber half kind)) = some p.src) ∨
    ((∀ p ∈ d.selectorPips info slots, p.dst ≠ almNode x y z (selectorNumber half kind)) ∧
      d'.wires.reservedDriver? (almNode x y z (selectorNumber half kind)) = none) := by
  obtain ⟨shared, hshared, hdrivers⟩ := hassigned.drivers
  rcases hdrivers (almNode x y z (selectorNumber half kind)) with ⟨p, hp, hdst, hres⟩ |
    ⟨hnone, hres⟩
  · rcases List.mem_append.mp hp with hp | hp
    · exact .inl ⟨p, hp, hdst, hres⟩
    · obtain ⟨kind', hmem⟩ := hshared p hp
      rw [hdst] at hmem
      exact absurd hmem (h.selector_ne_shared hz hk half)
  · refine .inr ⟨fun p hp => hnone p (List.mem_append_left shared hp), ?_⟩
    rw [hres, if_pos (h.mem_controlWires.mpr (.inr ⟨z, hz, kind, hk, half, rfl⟩))]

/-- The selector of a half is reserved for the shared wire of a signal that the half demands, if
the flip-flops of the half agree. -/
theorem Assigned.selector_of_demands {x y : Nat} (h : d.HasLab info x y) {slots : ControlSlots}
    {d' : Device} (hassigned : d.Assigned lab info slots d')
    (hslots : d.controlSlots info = .ok slots)
    {z : Nat} {a : Alm} (hz : info.alms[z]? = some a) {kind : ControlKind}
    (hk : kind ∈ ControlKind.selected) {half : Half}
    (hagree : d.agree ((d.flopCells a).get half) = true) {signal : ControlSignal}
    (hdemand : d.Demands a half kind signal) : ∃ (slot : Nat) (w : Wire),
      (slots.slots kind)[slot]? = some (some (kind.slotKey signal)) ∧
      (info.shared.get kind)[slot]? = some w ∧
      d'.wires.reservedDriver? (almNode x y z (selectorNumber half kind)) = some w := by
  have ha := Array.mem_of_getElem? hz
  obtain ⟨s, hs, hget⟩ := h.selectors? hk hz
  obtain ⟨slot, hslot⟩ := hdemand.exists_slot ha hslots
  obtain ⟨hbound, hlt⟩ := ControlSlots.getElem?_slots_of_find? hslot
  obtain ⟨w, hw⟩ := h.exists_shared hslots hlt
  refine ⟨slot, w, hbound, hw, ?_⟩
  rcases hassigned.selector h (h.getElem?_alms hz).1 hk half with ⟨p, hp, hdst, hres⟩ | ⟨hnone, -⟩
  · obtain ⟨signal', slot', hdemand', hslot', hw'⟩ := h.route_of_dst hz hk hp hdst
    obtain rfl := hdemand.eq_of_agree hdemand' hagree
    obtain rfl := Option.some.inj (hslot.symm.trans hslot')
    rw [hres, ← hw', hw]
  · refine absurd (hget half) (hnone ⟨w, s.get half⟩ (mem_selectorPips.mpr ?_))
    exact ⟨a, ha, half, kind, hk, signal, hdemand, slot, w, s, hslot, hw, hs, rfl⟩

/-- The selector of a half that demands no signal of the category is not reserved. -/
theorem Assigned.selector_of_not_demands {x y : Nat} (h : d.HasLab info x y) {slots : ControlSlots}
    {d' : Device} (hassigned : d.Assigned lab info slots d') {z : Nat} {a : Alm}
    (hz : info.alms[z]? = some a) {kind : ControlKind} (hk : kind ∈ ControlKind.selected)
    {half : Half}
    (hnone : ∀ signal, ¬ d.Demands a half kind signal) :
    d'.wires.reservedDriver? (almNode x y z (selectorNumber half kind)) = none := by
  rcases hassigned.selector h (h.getElem?_alms hz).1 hk half with ⟨p, hp, hdst, -⟩ | ⟨-, hres⟩
  · obtain ⟨signal, slot, hdemand, -⟩ := h.route_of_dst hz hk hp hdst
    exact absurd hdemand (hnone signal)
  · exact hres

/-- After an assignment to a LAB of a built device in which the flip-flops of each half agree,
each selector is reserved for the shared wire of its own signal, or not at all if no flip-flop of
the half has one. Different keys of a category are on different shared wires. -/
theorem selectors_reserved {selection : Selection} {d₀ d' : Device}
    (hbuilt : ofSelection selection = .ok d₀) (hd : d.hardware = d₀.hardware)
    (hlab : d.labs[lab]? = some info)
    (hagree : ∀ a ∈ info.alms, ∀ half, d.agree ((d.flopCells a).get half) = true)
    (hrun : (Edit.assignControlSets lab).run d = (.ok (), d')) :
    ∃ slots, d'.labs[lab]? = some { info with control := slots } ∧
      (∀ a ∈ info.alms, ∀ kind ∈ ControlKind.selected, ∃ s, a.selectors? kind = some s ∧
        ∀ half,
          (∀ signal, d.Demands a half kind signal → ∃ (slot : Nat) (w : Wire),
            (slots.slots kind)[slot]? = some (some (kind.slotKey signal)) ∧
            (info.shared.get kind)[slot]? = some w ∧
            d'.wires.reservedDriver? (s.get half) = some w) ∧
          ((∀ signal, ¬ d.Demands a half kind signal) →
            d'.wires.reservedDriver? (s.get half) = none)) ∧
      ∀ (kind : ControlKind) (slot : Nat) (key : ControlSignal),
        (slots.slots kind)[slot]? = some (some key) →
        ∃ w, (info.shared.get kind)[slot]? = some w ∧
          ∀ (slot' : Nat) (key' : ControlSignal), (slots.slots kind)[slot']? = some (some key') →
            (info.shared.get kind)[slot']? = some w → key' = key := by
  obtain ⟨x, y, h⟩ := exists_hasLab hbuilt hd hlab
  cases hslots : d.controlSlots info with
  | error kind =>
      rw [Edit.run_assignControlSets_of_error hlab hslots] at hrun
      cases hrun
  | ok slots =>
      obtain ⟨d'', hrun', hassigned⟩ := Edit.exists_assigned hlab h hslots
      obtain ⟨-, rfl⟩ := Prod.mk.inj (hrun'.symm.trans hrun)
      refine ⟨slots, hassigned.getElem?_labs hlab, ?_, ?_⟩
      · intro a ha kind hk
        obtain ⟨z, hz⟩ := Array.mem_iff_getElem?.mp ha
        obtain ⟨s, hs, hget⟩ := h.selectors? hk hz
        refine ⟨s, hs, fun half => ?_⟩
        rw [hget half]
        constructor
        · intro signal hdemand
          exact hassigned.selector_of_demands h hslots hz hk (hagree a ha half) hdemand
        · intro hnone
          exact hassigned.selector_of_not_demands h hz hk hnone
      · intro kind slot key hkey
        have hlt : slot < (slots.get kind).length := ControlSlots.lt_of_getElem?_slots hkey
        obtain ⟨w, hw⟩ := h.exists_shared hslots hlt
        refine ⟨w, hw, fun slot' key' hkey' hw' => ?_⟩
        obtain ⟨-, rfl⟩ := h.shared_inj hw hw'
        exact Option.some.inj (Option.some.inj (hkey'.symm.trans hkey))

/-- Each half of the ALM has one of the flip-flops, so the halves agree within themselves. -/
theorem agree_twoClocks {d : Device} (h : SamePlacement twoClocks d) :
    ∀ a ∈ (labAt 1 1).alms, ∀ half, d.agree ((d.flopCells a).get half) = true := by
  have hagree : ∀ a ∈ (labAt 1 1).alms, ∀ half ∈ Half.all,
      twoClocks.agree ((twoClocks.flopCells a).get half) = true := by
    decide +kernel
  intro a ha half
  rw [h.agree, h.flopCells]
  exact hagree a ha half (by cases half <;> decide)

/-- The two halves demand one clock each. -/
theorem demands_twoClocks {d : Device} (h : SamePlacement twoClocks d) :
    d.Demands (labAlm 1 1 0) .top .clk ⟨some ⟨0⟩, false⟩ ∧
      d.Demands (labAlm 1 1 0) .bottom .clk ⟨some ⟨1⟩, false⟩ := by
  constructor
  · exact ⟨false, ⟨0⟩, by rw [h.flopCells]; decide +kernel, by rw [h.netlist]; rfl, rfl⟩
  · exact ⟨false, ⟨1⟩, by rw [h.flopCells]; decide +kernel, by rw [h.netlist]; rfl, rfl⟩

/-- Flip-flops on different clocks get different drivers. -/
theorem selectors_reserved_twoClocks : ∃ d₀ d d' w w', ofSelection (.ofGrid 3 2) = .ok d₀ ∧
    d.hardware = d₀.hardware ∧ SamePlacement twoClocks d ∧
    (Edit.assignControlSets 0).run d = (.ok (), d') ∧
    d'.wires.reservedDriver? (labAlm 1 1 0).clkSelector.top = some w ∧
    d'.wires.reservedDriver? (labAlm 1 1 0).clkSelector.bottom = some w' ∧ w ≠ w' := by
  obtain ⟨d₀, d, hbuilt, hd, hlab, hsame⟩ := exists_twoClocks
  obtain ⟨x, y, h⟩ := exists_hasLab hbuilt hd hlab
  obtain ⟨slots, hslots⟩ := exists_controlSlots (twoClocks_fit hsame)
  obtain ⟨d', hrun, -⟩ := Edit.exists_assigned hlab h hslots
  obtain ⟨slots', -, hselectors, hdistinct⟩ :=
    selectors_reserved hbuilt hd hlab (agree_twoClocks hsame) hrun
  have hmem : labAlm 1 1 0 ∈ (labAt 1 1).alms := Array.mem_of_getElem? (i := 0) rfl
  obtain ⟨s, hs, hreserved⟩ := hselectors _ hmem .clk (by decide)
  obtain rfl : (labAlm 1 1 0).clkSelector = s := Option.some.inj hs
  obtain ⟨slot, w, hkey, hw, htop⟩ := (hreserved .top).1 _ (demands_twoClocks hsame).1
  obtain ⟨slot', w', hkey', hw', hbottom⟩ := (hreserved .bottom).1 _ (demands_twoClocks hsame).2
  refine ⟨d₀, d, d', w, w', hbuilt, hd, hsame, hrun, htop, hbottom, ?_⟩
  rintro rfl
  obtain ⟨v, hv, huniq⟩ := hdistinct .clk slot _ hkey
  obtain rfl := Option.some.inj (hw.symm.trans hv)
  exact absurd (huniq slot' _ hkey' hw') (by decide)

end Device

end Fabric
