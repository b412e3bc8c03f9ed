import Fabric.Proofs.ControlSets
import Fabric.Proofs.DataLines

/-!
# Routes over data lines

The wires uphill of a shared wire are the data lines of its LAB, after a dedicated input for some
categories. A bound slot whose net is global takes the dedicated input if there is one. All the
others go through one table of data lines, slot after slot, so the invariant of that table says
what each of them is driven by.

## Main results

* `HasLab.uphill_eq`: the wires uphill of a shared wire;
* `HasLab.slotDrivers_spec`: the drivers of all bound slots;
* `Assigned.shared`: the reservation of a shared wire;
* `dataLines_assigned`: the reservations and the warnings of an assignment.
-/

namespace Fabric

/-- The data lines of a LAB. -/
def Lab.dataLines (info : Lab) : List Wire := labDataLines info.pos.x info.pos.y 0

namespace Device

/-! ### The wires uphill of a slot -/

/-- The order in which a shared wire goes through the data lines does not matter
for which they are. -/
theorem mem_labDataLines (x y first : Nat) (line : Wire) :
    line ∈ labDataLines x y first ↔ line ∈ labDataLines x y 0 := by
  simp only [labDataLines, List.mem_map, List.mem_range, Chip.labDataLineCount]
  constructor
  · rintro ⟨k, hk, rfl⟩
    exact ⟨(first + k) % 4, by omega, by rw [Nat.zero_add, Nat.mod_mod]⟩
  · rintro ⟨k, hk, rfl⟩
    refine ⟨(k + 4 - first % 4) % 4, by omega, ?_⟩
    congr 2
    omega

/-- The data lines of a LAB are different. -/
theorem nodup_labDataLines (x y : Nat) : (labDataLines x y 0).Nodup := by
  refine List.Nodup.map_on (fun k hk k' hk' heq => ?_) List.nodup_range
  simp only [List.mem_range, Chip.labDataLineCount, Nat.zero_add] at hk hk' heq
  have hz := congrArg Node.z heq
  rw [Chip.gin, Chip.gin, Node.z_pack, Node.z_pack] at hz
  rw [Nat.mod_eq_of_lt hk, Nat.mod_eq_of_lt hk'] at hz
  have hz : (83 + k) % 1024 = (83 + k') % 1024 := hz
  omega

/-- A LAB has four lines from a data line on. -/
theorem length_labDataLines (x y first : Nat) : (labDataLines x y first).length = 4 := rfl

/-- Uphill of a shared wire are the data lines, after the dedicated input if the
category has one. -/
theorem HasLab.uphill_eq {d : Device} {info : Lab} {x y : Nat} (h : d.HasLab info x y)
    {kind : ControlKind} {slot : Nat} {w : Wire} (hw : (info.shared.get kind)[slot]? = some w) :
    ∃ (dedicated : List Wire) (first : Nat),
      d.wires.uphill? w = some (dedicated ++ labDataLines x y first) ∧
      dedicated.length = if kind.hasDedicatedInput then 1 else 0 := by
  rw [h.getElem?_shared, Option.ite_none_right_eq_some, Option.some.injEq] at hw
  obtain ⟨hslot, rfl⟩ := hw
  have hle : 10 ≤ syntheticCount := by decide
  have hlt := kind.firstShared_add_limit_le
  rw [h.uphill _ (by omega), labPlan, List.getElem?_append_left (by rw [length_sharedPlan]; omega)]
  cases kind <;> simp only [ControlKind.limit] at hslot <;> interval_cases slot
  · exact ⟨[_], 0, rfl, rfl⟩
  · exact ⟨[_], 0, rfl, rfl⟩
  · exact ⟨[_], 0, rfl, rfl⟩
  · exact ⟨[], 2, rfl, rfl⟩
  · exact ⟨[], 3, rfl, rfl⟩
  · exact ⟨[], 0, rfl, rfl⟩
  · exact ⟨[_], 3, rfl, rfl⟩
  · exact ⟨[_], 2, rfl, rfl⟩
  · exact ⟨[], 3, rfl, rfl⟩
  · exact ⟨[], 1, rfl, rfl⟩

/-! ### All slots -/

/-- A slot takes the dedicated input of its shared wire: there is one, and its net is global. -/
def UsesDedicated (d : Device) (b : BoundSlot) : Prop :=
  b.1.hasDedicatedInput = true ∧ (d.netlist.net? b.2.2.2).any (·.isGlobal) = true

instance (d : Device) (b : BoundSlot) : Decidable (d.UsesDedicated b) :=
  inferInstanceAs (Decidable (_ ∧ _))

/-- The nets of the slots that take a data line, one for each slot. -/
def localNets (d : Device) (bound : List BoundSlot) : List NetId :=
  (bound.filter fun b => ¬ d.UsesDedicated b).map fun b => b.2.2.2

/-- The nets that get a data line: the first four different ones. -/
def lineNets (d : Device) (bound : List BoundSlot) : List NetId :=
  (d.localNets bound).eraseDups.take 4

/-- The driver of a slot is the one that it should have, when some nets have lines. -/
structure SlotDriven (d : Device) (info : Lab) (served : List NetId) (table : DataLines)
    (b : BoundSlot) (driver : Option Wire) : Prop where
  dedicated : d.UsesDedicated b → driver = (d.slotUphill info b).head?
  given : ¬ d.UsesDedicated b → b.2.2.2 ∈ served →
    ∃ line, driver = some line ∧ table.get? line = some b.2.2.2
  refused : ¬ d.UsesDedicated b → b.2.2.2 ∉ served → driver = none

/-- A slot with a dedicated input takes that one and chooses no line. -/
theorem sharedDriver_of_usesDedicated {d : Device} {b : BoundSlot} (h : d.UsesDedicated b)
    (lines : DataLines) (uphill : List Wire) :
    d.sharedDriver lines b.1 uphill b.2.2.2 = (uphill.head?, lines) := by
  simp only [sharedDriver]
  exact if_pos h

variable {d d' : Device} {lab : Nat} {info : Lab} {x y : Nat}

/-- A slot without a dedicated input to take chooses among the data lines. -/
theorem HasLab.sharedDriver_of_local (h : d.HasLab info x y) {b : BoundSlot} {w : Wire}
    (hw : slotWire? info b = some w) (hb : ¬ d.UsesDedicated b) (lines : DataLines) :
    ∃ candidates, (∀ line, line ∈ candidates ↔ line ∈ labDataLines x y 0) ∧
      d.sharedDriver lines b.1 (d.slotUphill info b) b.2.2.2 =
        (chooseLine lines candidates b.2.2.2,
          lines.withLine (chooseLine lines candidates b.2.2.2) b.2.2.2) := by
  obtain ⟨dedicated, first, huphill, hlen⟩ := h.uphill_eq hw
  refine ⟨labDataLines x y first, mem_labDataLines x y first, ?_⟩
  have hcand : (if b.1.hasDedicatedInput = true then (dedicated ++ labDataLines x y first).drop 1
      else dedicated ++ labDataLines x y first) = labDataLines x y first := by
    split at hlen
    · rw [if_pos ‹_›, ← hlen, List.drop_left]
    · rw [if_neg ‹_›, List.length_eq_zero_iff.mp hlen, List.nil_append]
  rw [slotUphill, hw, Option.bind_some, huphill, Option.getD_some]
  simp only [sharedDriver]
  rw [hcand]
  refine (if_neg hb).trans ?_
  cases chooseLine lines (labDataLines x y first) b.2.2.2 with
  | none => rfl
  | some line => rfl

/-- The drivers of some bound slots: whatever order their wires have for the data lines, the first
four different nets that need one get one each, in one table. -/
theorem HasLab.slotDrivers_spec (h : d.HasLab info x y) {bound : List BoundSlot}
    (hshared : ∀ b ∈ bound, ∃ w, slotWire? info b = some w) {lines : DataLines} {seen : List NetId}
    (hlines : lines.Serves (labDataLines x y 0) seen.eraseDups) :
    ∃ table, DataLines.Serves table (labDataLines x y 0) (seen ++ d.localNets bound).eraseDups ∧
      (∀ line net, lines.get? line = some net → table.get? line = some net) ∧
      ∀ entry ∈ d.slotDrivers info bound lines,
        d.SlotDriven info ((seen ++ d.localNets bound).eraseDups.take 4) table entry.1 entry.2 := by
  induction bound generalizing lines seen with
  | nil =>
      refine ⟨lines, ?_, fun _ _ hget => hget, fun _ hmem => by cases hmem⟩
      rw [localNets, List.filter_nil, List.map_nil, List.append_nil]
      exact hlines
  | cons b rest ih =>
      have hrest : ∀ b ∈ rest, ∃ w, slotWire? info b = some w :=
        fun b hb => hshared b (List.mem_cons_of_mem _ hb)
      by_cases hb : d.UsesDedicated b
      · have hnets : d.localNets (b :: rest) = d.localNets rest := by
          rw [localNets, List.filter_cons_of_neg (by simpa using hb), localNets]
        obtain ⟨table, hserves, hkept, hdriven⟩ := ih hrest hlines
        rw [slotDrivers, sharedDriver_of_usesDedicated hb, hnets]
        refine ⟨table, hserves, hkept, fun entry hentry => ?_⟩
        rcases List.mem_cons.mp hentry with rfl | hentry
        · exact ⟨fun _ => rfl, fun hlocal => absurd hb hlocal, fun hlocal => absurd hb hlocal⟩
        · exact hdriven entry hentry
      · have hnets : seen ++ d.localNets (b :: rest) = seen ++ [b.2.2.2] ++ d.localNets rest := by
          rw [localNets, List.filter_cons_of_pos (by simpa using hb), List.append_assoc, localNets]
          rfl
        obtain ⟨w, hw⟩ := hshared b List.mem_cons_self
        obtain ⟨candidates, hcand, hchosen⟩ := h.sharedDriver_of_local hw hb lines
        have hstep := hlines.step (nodup_labDataLines x y) hcand b.2.2.2
        obtain ⟨table, hserves, hkept, hdriven⟩ := ih hrest hstep.serves
        rw [slotDrivers, hchosen, hnets]
        refine ⟨table, hserves, fun line net hget => hkept line net (hstep.kept line net hget),
          fun entry hentry => ?_⟩
        rcases List.mem_cons.mp hentry with rfl | hentry
        · -- Later nets come after the one of this slot, so they do not push it out.
          have hprefix := eraseDups_prefix (seen ++ [b.2.2.2]) (d.localNets rest)
          refine ⟨fun hdedicated => absurd hdedicated hb, fun _ hearly => ?_, fun _ hlate => ?_⟩
          · have hmem : b.2.2.2 ∈ (seen ++ [b.2.2.2]).eraseDups :=
              List.mem_eraseDups.mpr (List.mem_append_right _ List.mem_cons_self)
            obtain ⟨line, hchoice, hline⟩ :=
              hstep.given (mem_take_shorter hprefix (nodup_eraseDups _) hmem hearly)
            exact ⟨line, hchoice, hkept line _ hline⟩
          · exact hstep.refused fun hearly => hlate (mem_take_longer hprefix hearly)
        · exact hdriven entry hentry

/-! ### Assignments -/

/-- The data lines of a LAB are its first ones. -/
theorem HasLab.dataLines (h : d.HasLab info x y) : info.dataLines = labDataLines x y 0 := by
  rw [Lab.dataLines, h.pos, Pos.x_pack h.x_lt h.y_lt, Pos.y_pack h.x_lt h.y_lt]

/-- The dedicated input is the first wire uphill. -/
theorem HasLab.exists_dedicated (h : d.HasLab info x y) {b : BoundSlot} (hb : d.UsesDedicated b)
    {w : Wire} (hw : slotWire? info b = some w) : ∃ src rest,
      d.wires.uphill? w = some (src :: rest) ∧ (d.slotUphill info b).head? = some src := by
  obtain ⟨dedicated, first, huphill, hlen⟩ := h.uphill_eq hw
  rw [if_pos hb.1] at hlen
  obtain ⟨src, rfl⟩ := List.length_eq_one_iff.mp hlen
  refine ⟨src, labDataLines x y first, huphill, ?_⟩
  rw [slotUphill, hw, Option.bind_some, huphill, Option.getD_some, List.singleton_append,
    List.head?_cons]

/-- The slots without a driver are those that take a data line and do not get one. -/
theorem SlotDriven.isNone_iff {served : List NetId} {table : DataLines} {b : BoundSlot}
    {driver : Option Wire} (hdriven : d.SlotDriven info served table b driver)
    (h : d.HasLab info x y) {w : Wire} (hw : slotWire? info b = some w) :
    driver.isNone = true ↔ ¬ d.UsesDedicated b ∧ b.2.2.2 ∉ served := by
  by_cases hb : d.UsesDedicated b
  · obtain ⟨src, rest, -, hhead⟩ := h.exists_dedicated hb hw
    rw [hdriven.dedicated hb, hhead]
    simp [hb]
  by_cases hmem : b.2.2.2 ∈ served
  · obtain ⟨line, rfl, -⟩ := hdriven.given hb hmem
    simp [hmem]
  · rw [hdriven.refused hb hmem]
    simp [hb, hmem]

/-- The warnings are about the slots that are refused, in order. -/
theorem HasLab.noLineWarnings_slotDrivers (h : d.HasLab info x y) {bound : List BoundSlot}
    (hshared : ∀ b ∈ bound, ∃ w, slotWire? info b = some w) {served : List NetId}
    {lines table : DataLines}
    (hdriven : ∀ entry ∈ d.slotDrivers info bound lines,
      d.SlotDriven info served table entry.1 entry.2) :
    d.noLineWarnings lab (d.slotDrivers info bound lines) =
      (bound.filter fun b => ¬ d.UsesDedicated b ∧ b.2.2.2 ∉ served).map (d.noLineWarning lab) := by
  have hfilter : (d.slotDrivers info bound lines).filter (·.2.isNone) =
      (d.slotDrivers info bound lines).filter
        ((fun b => decide (¬ d.UsesDedicated b ∧ b.2.2.2 ∉ served)) ∘ Prod.fst) := by
    refine List.filter_congr fun entry hentry => ?_
    have hmem : entry.1 ∈ bound := by
      rw [← map_fst_slotDrivers d info bound lines]
      exact List.mem_map_of_mem hentry
    obtain ⟨w, hw⟩ := hshared entry.1 hmem
    rw [Bool.eq_iff_iff, (hdriven entry hentry).isNone_iff h hw]
    exact (decide_eq_true_iff).symm
  have hbound := map_fst_slotDrivers d info bound lines
  rw [noLineWarnings, hfilter]
  conv_rhs => rw [← hbound, List.filter_map, List.map_map]
  rfl

/-- The route of a selector does not lead to a shared wire. -/
theorem HasLab.dst_ne_shared (h : d.HasLab info x y) {slots : ControlSlots} {p : Pip}
    (hp : p ∈ d.selectorPips info slots) {kind : ControlKind} : p.dst ∉ info.shared.get kind := by
  obtain ⟨a, ha, half, kind', hk, -, -, -, -, s, -, -, hs, rfl⟩ := mem_selectorPips.mp hp
  obtain ⟨z, hz⟩ := Array.mem_iff_getElem?.mp ha
  obtain ⟨s', hs', hget⟩ := h.selectors? hk hz
  obtain rfl := Option.some.inj (hs.symm.trans hs')
  rw [hget half]
  exact h.selector_ne_shared (h.getElem?_alms hz).1 hk half

/-- A slot that leads to the wire of a bound slot is that slot. -/
theorem HasLab.boundSlot_unique (h : d.HasLab info x y) {slots : ControlSlots} {b b' : BoundSlot}
    (hb : b ∈ boundSlots slots) (hb' : b' ∈ boundSlots slots) {w : Wire}
    (hw : slotWire? info b = some w) (hw' : slotWire? info b' = some w) : b' = b := by
  obtain ⟨hslot, hnet⟩ := mem_boundSlots.mp hb
  obtain ⟨hslot', hnet'⟩ := mem_boundSlots.mp hb'
  obtain ⟨kind, slot, signal, net⟩ := b
  obtain ⟨kind', slot', signal', net'⟩ := b'
  obtain ⟨rfl, rfl⟩ := h.shared_inj hw' hw
  obtain rfl := Option.some.inj (hslot'.symm.trans hslot)
  obtain rfl := Option.some.inj (hnet'.symm.trans hnet)
  rfl

/-- A shared wire is reserved for the driver of its slot if that is bound, and else for none. -/
theorem Assigned.shared (h : d.HasLab info x y) {slots : ControlSlots}
    (hassigned : d.Assigned lab info slots d') {kind : ControlKind} {w : Wire}
    (hw : w ∈ info.shared.get kind) :
    (∃ b ∈ boundSlots slots, slotWire? info b = some w ∧
      (b, d'.wires.reservedDriver? w) ∈ d.slotDrivers info (boundSlots slots) []) ∨
    ((∀ b ∈ boundSlots slots, slotWire? info b ≠ some w) ∧ d'.wires.reservedDriver? w = none) := by
  have hbound {b : BoundSlot} {driver : Option Wire}
      (hb : (b, driver) ∈ d.slotDrivers info (boundSlots slots) []) : b ∈ boundSlots slots := by
    rw [← map_fst_slotDrivers d info (boundSlots slots) []]
    exact List.mem_map_of_mem hb
  rw [hassigned.driver]
  rcases redriven_drives (d.selectorPips info slots ++ d.sharedPips info slots)
    (d.withoutControl info) w with ⟨p, hp, rfl, hres⟩ | ⟨hnone, hres⟩
  · rcases List.mem_append.mp hp with hp | hp
    · exact absurd hw (h.dst_ne_shared hp)
    · obtain ⟨b, hb, hdst⟩ := mem_sharedPips.mp hp
      exact .inl ⟨b, hbound hb, hdst, hres ▸ hb⟩
  · rw [hres, withoutControl, if_pos (h.mem_controlWires.mpr (.inl ⟨kind, hw⟩))]
    by_cases hslot : ∃ b ∈ boundSlots slots, slotWire? info b = some w
    · obtain ⟨b, hb, hdst⟩ := hslot
      refine .inl ⟨b, hb, hdst, ?_⟩
      rw [← map_fst_slotDrivers d info (boundSlots slots) []] at hb
      obtain ⟨⟨b', driver⟩, hentry, rfl⟩ := List.mem_map.mp hb
      cases driver with
      | none => exact hentry
      | some src =>
          -- The driver of the slot would have made a route to the wire.
          have hroute : (⟨src, w⟩ : Pip) ∈ d.sharedPips info slots :=
            mem_sharedPips.mpr ⟨b', hentry, hdst⟩
          exact absurd rfl (hnone _ (List.mem_append_right _ hroute))
    · push Not at hslot
      exact .inr ⟨hslot, rfl⟩

/-- The shared wire of a bound slot is reserved for the driver of that slot. -/
theorem Assigned.mem_slotDrivers (h : d.HasLab info x y) {slots : ControlSlots}
    (hassigned : d.Assigned lab info slots d') {b : BoundSlot} (hb : b ∈ boundSlots slots)
    {w : Wire}
    (hw : slotWire? info b = some w) :
    (b, d'.wires.reservedDriver? w) ∈ d.slotDrivers info (boundSlots slots) [] := by
  rcases hassigned.shared h (List.mem_of_getElem? hw) with ⟨b', hb', hw', hentry⟩ | ⟨hnone, -⟩
  · rwa [h.boundSlot_unique hb hb' hw hw'] at hentry
  · exact absurd hw (hnone b hb)

/-- A slot that is free in the list of slots is no bound slot. -/
theorem Assigned.reserved_of_unbound (h : d.HasLab info x y) {slots : ControlSlots}
    (hassigned : d.Assigned lab info slots d') {kind : ControlKind} {slot : Nat} {w : Wire}
    (hw : (info.shared.get kind)[slot]? = some w) (hfree : (slots.slots kind)[slot]? = some none) :
    d'.wires.reservedDriver? w = none := by
  rcases hassigned.shared h (List.mem_of_getElem? hw) with ⟨b, hb, hw', -⟩ | ⟨-, hres⟩
  · obtain ⟨hslot, -⟩ := mem_boundSlots.mp hb
    obtain ⟨kind', slot', signal, net⟩ := b
    obtain ⟨rfl, rfl⟩ := h.shared_inj hw' hw
    rw [ControlSlots.slots, List.getElem?_append_left, List.getElem?_map, hslot] at hfree
    · cases hfree
    · rw [List.length_map]
      exact (List.getElem?_eq_some_iff.mp hslot).1
  · exact hres

/-- Every shared wire has a slot. -/
theorem HasLab.lt_limit (h : d.HasLab info x y) {kind : ControlKind} {slot : Nat} {w : Wire}
    (hw : (info.shared.get kind)[slot]? = some w) : slot < kind.limit := by
  rw [h.getElem?_shared, Option.ite_none_right_eq_some] at hw
  exact hw.1

/-- Every slot number below the limit of its kind has a content. -/
theorem exists_getElem?_slots (slots : ControlSlots) {kind : ControlKind} {slot : Nat}
    (hslot : slot < kind.limit) : ∃ content, (slots.slots kind)[slot]? = some content := by
  refine ⟨_, List.getElem?_eq_getElem ?_⟩
  rw [ControlSlots.slots, List.length_append, List.length_map, List.length_replicate]
  omega

/-- A signal in a slot has a net, so the slot is a bound one. -/
theorem exists_mem_boundSlots {slots : ControlSlots} (hslots : d.controlSlots info = .ok slots)
    {kind : ControlKind} {slot : Nat} {signal : ControlSignal}
    (hsignal : (slots.slots kind)[slot]? = some (some signal)) :
    ∃ net, signal.net = some net ∧ (kind, slot, signal, net) ∈ boundSlots slots := by
  have hget : (slots.get kind)[slot]? = some signal := by
    rw [ControlSlots.slots, List.getElem?_append_left, List.getElem?_map] at hsignal
    · obtain ⟨_, hget, heq⟩ := Option.map_eq_some_iff.mp hsignal
      rw [hget, Option.some.inj heq]
    · rw [List.length_map]
      exact ControlSlots.lt_of_getElem?_slots hsignal
  have hmem := List.mem_of_getElem? hget
  rw [(controlSlots_eq_ok hslots kind).1, List.mem_eraseDups, demandedKeys, List.mem_map] at hmem
  obtain ⟨demanded, hdemanded, rfl⟩ := hmem
  obtain ⟨net, hnet⟩ := Option.isSome_iff_exists.mp (List.mem_filter.mp hdemanded).2
  refine ⟨net, ?_, mem_boundSlots.mpr ⟨hget, ?_⟩⟩
  all_goals
    split
    · exact hnet
    · exact hnet

/-- After an assignment to a LAB of a built device, the shared wire of a slot with a dedicated
input and a global net has that input as its driver. The first four different nets of the other
slots have one data line each, and no line has two of them. Every slot of such a net is driven by
the line of the net. The slots of other nets are left without a driver, and each of them has got
one warning. The wires of free slots have no driver. -/
theorem dataLines_assigned {selection : Selection} {d₀ : Device}
    (hbuilt : ofSelection selection = .ok d₀) (hd : d.hardware = d₀.hardware)
    (hlab : d.labs[lab]? = some info) (hrun : (Edit.assignControlSets lab).run d = (.ok (), d')) :
    ∃ slots, d'.labs[lab]? = some { info with control := slots } ∧ ∃ line : NetId → Wire,
      (∀ net ∈ d.lineNets (boundSlots slots), line net ∈ info.dataLines) ∧
      (∀ net ∈ d.lineNets (boundSlots slots), ∀ net' ∈ d.lineNets (boundSlots slots),
        line net = line net' → net = net') ∧
      (∀ (kind : ControlKind) (slot : Nat) (w : Wire), (info.shared.get kind)[slot]? = some w →
        ((slots.slots kind)[slot]? = some none ∧ d'.wires.reservedDriver? w = none) ∨
        ∃ signal net, (slots.slots kind)[slot]? = some (some signal) ∧ signal.net = some net ∧
          (d.UsesDedicated (kind, slot, signal, net) → ∃ src rest,
            d.wires.uphill? w = some (src :: rest) ∧ d'.wires.reservedDriver? w = some src) ∧
          (¬ d.UsesDedicated (kind, slot, signal, net) →
            d'.wires.reservedDriver? w =
              if net ∈ d.lineNets (boundSlots slots) then some (line net) else none)) ∧
      d'.diagnostics.warningRecords = d.diagnostics.warningRecords ++
        ((boundSlots slots).filter fun b =>
          ¬ d.UsesDedicated b ∧ b.2.2.2 ∉ d.lineNets (boundSlots slots)).map
          (d.noLineWarning lab) := by
  obtain ⟨x, y, h⟩ := exists_hasLab hbuilt hd hlab
  cases hslots : d.controlSlots info with
  | error kind =>
      rw [Edit.run_assignControlSets_of_error hlab hslots] at hrun
      cases hrun
  | ok slots =>
      obtain ⟨d'', hrun', hassigned⟩ := Edit.exists_assigned hlab h hslots
      obtain ⟨-, rfl⟩ := Prod.mk.inj (hrun'.symm.trans hrun)
      have hshared : ∀ b ∈ boundSlots slots, ∃ w, slotWire? info b = some w := fun b hb => by
        obtain ⟨w, hw, -⟩ := h.exists_slotWire hslots hb
        exact ⟨w, hw⟩
      have hnone : DataLines.Serves [] (labDataLines x y 0) [].eraseDups :=
        DataLines.serves_nil (length_labDataLines x y 0)
      obtain ⟨table, hserves, -, hdriven⟩ := h.slotDrivers_spec hshared hnone
      rw [List.nil_append] at hserves hdriven
      rw [← lineNets] at hdriven
      choose! line hline using hserves.served
      refine ⟨slots, hassigned.getElem?_labs hlab, line, ?_, ?_, ?_, ?_⟩
      · intro net hnet
        rw [h.dataLines]
        exact (hserves.carried _ net (hline net hnet)).1
      · intro net hnet net' hnet' heq
        have hget := hline net hnet
        rw [heq, hline net' hnet'] at hget
        exact (Option.some.inj hget).symm
      · intro kind slot w hw
        obtain ⟨content, hcontent⟩ := exists_getElem?_slots slots (h.lt_limit hw)
        cases content with
        | none => exact .inl ⟨hcontent, hassigned.reserved_of_unbound h hw hcontent⟩
        | some signal =>
            obtain ⟨net, hnet, hb⟩ := exists_mem_boundSlots hslots hcontent
            have hslot := hdriven _ (hassigned.mem_slotDrivers h hb hw)
            refine .inr ⟨signal, net, hcontent, hnet, fun hdedicated => ?_, fun hlocal => ?_⟩
            · obtain ⟨src, rest, huphill, hhead⟩ := h.exists_dedicated hdedicated hw
              exact ⟨src, rest, huphill, (hslot.dedicated hdedicated).trans hhead⟩
            · split
              · rename_i hmem
                obtain ⟨other, hother, hget⟩ := hslot.given hlocal hmem
                rw [hserves.once _ _ net (hline net hmem) hget]
                exact hother
              · rename_i hlate
                exact hslot.refused hlocal hlate
      · rw [hassigned.warnings, h.noLineWarnings_slotDrivers hshared hdriven]

section TwoClocks

variable (h : SamePlacement twoClocks d)

include h

/-- Neither of the two clocks is global. -/
theorem not_usesDedicated_twoClocks (b : BoundSlot) : ¬ d.UsesDedicated b := by
  rw [UsesDedicated, h.netlist]
  exact fun hdedicated => absurd hdedicated.2 Bool.false_ne_true

variable {slots : ControlSlots} (hslots : d.controlSlots (labAt 1 1) = .ok slots)

include hslots

/-- The two clocks take the first two slots of their kind. -/
theorem get_controlSlots_twoClocks (kind : ControlKind) : slots.get kind =
    if kind = .clk then [⟨some ⟨0⟩, false⟩, ⟨some ⟨1⟩, false⟩] else [] := by
  rw [(controlSlots_eq_ok hslots kind).1, demandedKeys, h.labFlipFlops, ← demandedKeys,
    demandedKeys_twoClocks kind kind.mem_all]
  cases kind <;> decide

/-- Two slots are bound, to one clock each. -/
theorem boundSlots_twoClocks : boundSlots slots =
    [(.clk, 0, ⟨some ⟨0⟩, false⟩, ⟨0⟩), (.clk, 1, ⟨some ⟨1⟩, false⟩, ⟨1⟩)] := by
  simp [boundSlots, ControlKind.all, get_controlSlots_twoClocks h hslots]

/-- The two clocks are the nets that ask for lines. -/
theorem lineNets_twoClocks : d.lineNets (boundSlots slots) = [⟨0⟩, ⟨1⟩] := by
  have hlocal (b : BoundSlot) : decide (¬ d.UsesDedicated b) = true :=
    decide_eq_true (not_usesDedicated_twoClocks h b)
  rw [boundSlots_twoClocks h hslots, lineNets, localNets, List.filter_eq_self.mpr fun b _ =>
    hlocal b]
  rfl

end TwoClocks

/-- The two clocks take a data line each. -/
theorem dataLines_assigned_twoClocks : ∃ d₀ d d' w w', ofSelection (.ofGrid 3 2) = .ok d₀ ∧
    d.hardware = d₀.hardware ∧ SamePlacement twoClocks d ∧
    (Edit.assignControlSets 0).run d = (.ok (), d') ∧
    d'.wires.reservedDriver? (syntheticNode 1 1 0) = some w ∧
    d'.wires.reservedDriver? (syntheticNode 1 1 1) = some w' ∧
    w ∈ (labAt 1 1).dataLines ∧ w' ∈ (labAt 1 1).dataLines ∧ w ≠ w' ∧
    d'.diagnostics.warningRecords = d.diagnostics.warningRecords := by
  obtain ⟨d₀, d, hbuilt, hd, hlab, hsame⟩ := exists_twoClocks
  obtain ⟨x, y, h⟩ := exists_hasLab hbuilt hd hlab
  obtain ⟨slots, hslots⟩ := exists_controlSlots (twoClocks_fit hsame)
  obtain ⟨d', hrun, hassigned⟩ := Edit.exists_assigned hlab h hslots
  obtain ⟨slots', hlab', line, hline, hinj, hdriver, hwarnings⟩ :=
    dataLines_assigned hbuilt hd hlab hrun
  obtain rfl : slots = slots' := by
    have heq := (hassigned.getElem?_labs hlab).symm.trans hlab'
    exact congrArg Lab.control (Option.some.inj heq)
  have hlocal := not_usesDedicated_twoClocks hsame
  have hkeys : slots.slots .clk = [some ⟨some ⟨0⟩, false⟩, some ⟨some ⟨1⟩, false⟩, none] := by
    rw [ControlSlots.slots, get_controlSlots_twoClocks hsame hslots]
    rfl
  rw [lineNets_twoClocks hsame hslots] at hline hinj hdriver hwarnings
  have hreserved (slot : Nat) {w : Wire} (hw : ((labAt 1 1).shared.get .clk)[slot]? = some w)
      (hkey : (slots.slots .clk)[slot]? = some (some ⟨some ⟨slot⟩, false⟩))
      (hmem : (⟨slot⟩ : NetId) ∈ [(⟨0⟩ : NetId), ⟨1⟩]) :
      d'.wires.reservedDriver? w = some (line ⟨slot⟩) := by
    rcases hdriver .clk slot w hw with ⟨hfree, -⟩ | ⟨signal, net, hsignal, hnet, -, hres⟩
    · cases hfree.symm.trans hkey
    · obtain rfl := Option.some.inj (Option.some.inj (hsignal.symm.trans hkey))
      obtain rfl := Option.some.inj hnet
      rw [hres (hlocal _), if_pos hmem]
  refine ⟨d₀, d, d', line ⟨0⟩, line ⟨1⟩, hbuilt, hd, hsame, hrun, ?_, ?_, ?_, ?_, fun heq => ?_, ?_⟩
  · exact hreserved 0 rfl (by rw [hkeys]; rfl) (by decide)
  · exact hreserved 1 rfl (by rw [hkeys]; rfl) (by decide)
  · exact hline ⟨0⟩ (by decide)
  · exact hline ⟨1⟩ (by decide)
  · exact absurd (hinj ⟨0⟩ (by decide) ⟨1⟩ (by decide) heq) (by decide)
  · rw [hwarnings, boundSlots_twoClocks hsame hslots, List.filter_eq_nil_iff.mpr, List.map_nil,
      List.append_nil]
    intro b hb hlate
    have hmem : b.2.2.2 ∈ [(⟨0⟩ : NetId), ⟨1⟩] := List.mem_map_of_mem (f := fun b => b.2.2.2) hb
    exact (of_decide_eq_true hlate).2 hmem

end Device

end Fabric
