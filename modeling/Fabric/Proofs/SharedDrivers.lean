import Fabric.Proofs.ControlWires
import Fabric.Proofs.Routes
import Fabric.Proofs.SlotKeys

/-!
# Drivers of shared wires

The drivers of the shared wires of a LAB are chosen slot by slot, with a table of the data lines
in use handed on. The choice reads the netlist and the wire graph and writes records only, so it
is a pure function of the bound slots: `Device.slotDrivers`. A slot without a driver gets a
warning, and no other record is a warning.

## Main results

* `sharedDriver_mem`: the driver that is chosen for a wire is uphill of it;
* `run_sharedRoutes`: the routes that a run collects, and the warnings that it makes;
* `quiet_reserve`, `quiet_unreserve`: reservations make no warning.
-/

namespace Fabric

/-! ### Warnings -/

/-- The warnings among the records, in order. -/
def Sink.warningRecords (s : Sink) : List Diagnostic :=
  s.records.toList.filter fun record => record.severity = .warning

/-- A record adds to the warnings exactly when it is one. -/
theorem Sink.warningRecords_emit (s : Sink) (record : Diagnostic) :
    (s.emit record).warningRecords =
      s.warningRecords ++ if record.severity = .warning then [record] else [] := by
  rw [emit]
  cases h : record.severity with
  | debug => cases s.verbose <;> simp [warningRecords, h]
  | info => simp [warningRecords, h]
  | warning => simp [warningRecords, h]
  | error => simp [warningRecords, h]

namespace Device

/-- The names of one model are those of another, and so are the warnings that were made. -/
structure Quiet (d d' : Device) : Prop where
  interner : d'.interner = d.interner
  warnings : d'.diagnostics.warningRecords = d.diagnostics.warningRecords

instance : IsPreorder Device Quiet where
  refl _ := ⟨rfl, rfl⟩
  trans _ _ _ h h' := ⟨h'.interner.trans h.interner, h'.warnings.trans h.warnings⟩

end Device

namespace Edit

open Device (Quiet)

/-- A record that is no warning leaves the warnings as they were. -/
theorem quiet_log {record : Diagnostic} (h : record.severity ≠ .warning) :
    (log record).Keeps Quiet := by
  refine .modify fun d => ⟨rfl, ?_⟩
  rw [Sink.warningRecords_emit, if_neg h, List.append_nil]

/-- Releasing a wire warns of nothing. -/
theorem quiet_unreserve (w : Wire) : (unreserve w).Keeps Quiet := by
  intro d
  rw [run_unreserve]
  split
  · exact ⟨rfl, rfl⟩
  · exact ⟨rfl, rfl⟩

/-- Reserving a wire warns of nothing. -/
theorem quiet_reserve (src dst : Wire) : (reserve src dst).Keeps Quiet := by
  refine .bind .get fun d => ?_
  split
  · exact .throw _
  · exact .throw _
  · refine .bind (.modify fun d => ⟨rfl, rfl⟩) fun _ => .bind .get fun d => ?_
    split
    · split
      · exact quiet_log Severity.noConfusion
      · exact .pure _
    · exact .pure _

end Edit

namespace Device

/-! ### Drivers as a function -/

/-- A bound slot: its category, its number, the signal that it holds and the net of that. -/
abbrev BoundSlot := ControlKind × Nat × ControlSignal × NetId

/-- The shared wire of a slot. -/
def slotWire? (info : Lab) (b : BoundSlot) : Option Wire := (info.shared.get b.1)[b.2.1]?

/-- The wires uphill of the shared wire of a slot. -/
def slotUphill (d : Device) (info : Lab) (b : BoundSlot) : List Wire :=
  ((slotWire? info b).bind d.wires.uphill?).getD []

/-- The drivers of some bound slots, chosen one after the other. -/
def slotDrivers (d : Device) (info : Lab) :
    List BoundSlot → DataLines → List (BoundSlot × Option Wire)
  | [], _ => []
  | b :: rest, lines =>
    let chosen := d.sharedDriver lines b.1 (d.slotUphill info b) b.2.2.2
    (b, chosen.1) :: slotDrivers d info rest chosen.2

/-- The route to the shared wire of a slot that has a driver. -/
def slotRoute? (info : Lab) (entry : BoundSlot × Option Wire) : Option Pip :=
  entry.2.bind fun src => (slotWire? info entry.1).map fun w => ⟨src, w⟩

/-- A record about a slot of a LAB. -/
def slotRecord (severity : Severity) (lab : Nat) (message : String) : Diagnostic where
  severity := severity
  code := .controlSlot
  message := message
  subject := s!"LAB {lab}"

/-- The warning that there is no data line for a slot. -/
def noLineWarning (d : Device) (lab : Nat) (b : BoundSlot) : Diagnostic :=
  slotRecord .warning lab
    s!"no free data line for {b.1.name}{b.2.1} <- {d.signalText b.2.2.1}"

/-- The warnings about the slots that have no driver. -/
def noLineWarnings (d : Device) (lab : Nat) (entries : List (BoundSlot × Option Wire)) :
    List Diagnostic :=
  (entries.filter (·.2.isNone)).map fun entry => d.noLineWarning lab entry.1

/-- The warnings of two lists of slots come one list after the other. -/
theorem noLineWarnings_append (d : Device) (lab : Nat) (xs ys : List (BoundSlot × Option Wire)) :
    d.noLineWarnings lab (xs ++ ys) = d.noLineWarnings lab xs ++ d.noLineWarnings lab ys := by
  rw [noLineWarnings, List.filter_append, List.map_append, noLineWarnings, noLineWarnings]

/-- The chosen line is one of the candidates. -/
theorem chooseLine_mem {lines : DataLines} {candidates : List Wire} {net : NetId} {line : Wire}
    (h : chooseLine lines candidates net = some line) : line ∈ candidates := by
  rw [chooseLine, Option.or_eq_some_iff] at h
  rcases h with h | ⟨-, h⟩
  · exact List.mem_of_find?_eq_some h
  · exact List.mem_of_find?_eq_some h

/-- The driver chosen for a shared wire is uphill of it. -/
theorem sharedDriver_mem {d : Device} {lines : DataLines} {kind : ControlKind} {uphill : List Wire}
    {net : NetId} {src : Wire} (h : (d.sharedDriver lines kind uphill net).1 = some src) :
    src ∈ uphill := by
  simp only [sharedDriver] at h
  split at h
  · exact List.mem_of_head? h
  split at h
  · rename_i line hline
    obtain rfl := Option.some.inj h
    have hmem := chooseLine_mem hline
    split at hmem
    · exact List.mem_of_mem_drop hmem
    · exact hmem
  · cases h

/-- Drivers are chosen by the nets, the wire graph and the shared wires alone. -/
theorem slotDrivers_congr {d d' : Device} (hnet : d'.netlist.net? = d.netlist.net?)
    (huphill : d'.wires.uphill? = d.wires.uphill?) {info info' : Lab}
    (hshared : info'.shared = info.shared) (bound : List BoundSlot) (lines : DataLines) :
    d'.slotDrivers info' bound lines = d.slotDrivers info bound lines := by
  have hstep (lines : DataLines) (b : BoundSlot) :
      d'.sharedDriver lines b.1 (d'.slotUphill info' b) b.2.2.2 =
        d.sharedDriver lines b.1 (d.slotUphill info b) b.2.2.2 := by
    rw [sharedDriver, slotUphill, slotWire?, hshared, hnet, huphill, sharedDriver, slotUphill,
      slotWire?]
  induction bound generalizing lines with
  | nil => rfl
  | cons b rest ih => rw [slotDrivers, slotDrivers, hstep, ih]

/-- The slots keep their order. -/
theorem map_fst_slotDrivers (d : Device) (info : Lab) (bound : List BoundSlot) (lines : DataLines) :
    (d.slotDrivers info bound lines).map Prod.fst = bound := by
  induction bound generalizing lines with
  | nil => rfl
  | cons b rest ih => rw [slotDrivers, List.map_cons, ih]

/-- A slot's driver is one of the sources of its wire. -/
theorem mem_slotUphill {d : Device} {info : Lab} {bound : List BoundSlot} {lines : DataLines}
    {b : BoundSlot} {src : Wire} (h : (b, some src) ∈ d.slotDrivers info bound lines) :
    src ∈ d.slotUphill info b := by
  induction bound generalizing lines with
  | nil => cases h
  | cons b' rest ih =>
      rw [slotDrivers] at h
      rcases List.mem_cons.mp h with heq | h
      · obtain ⟨rfl, heq⟩ := Prod.mk.inj heq
        exact sharedDriver_mem heq.symm
      · exact ih h

end Device

namespace Edit

open Device (BoundSlot slotWire?)

/-! ### Runs -/

/-- The reports on the driver of one slot change the records only. The warning is there if there is
no driver, whether or not debug records are kept. -/
theorem run_reports_bind {α : Type} (lab : Nat) (b : BoundSlot) (driver : Option Wire)
    (verbose : Bool) (f : Edit α) (d : Device) : ∃ sink,
      (do
        let text := s!"{b.1.name}{b.2.1} <- {d.signalText b.2.2.1}"
        if driver.isNone then logSlot .warning lab s!"no free data line for {text}"
        if verbose then logSlot .debug lab text
        f : Edit α).run d = f.run { d with diagnostics := sink } ∧
      sink.warningRecords = d.diagnostics.warningRecords ++ d.noLineWarnings lab [(b, driver)] := by
  have hdebug (sink : Sink) (message : String) :
      (sink.emit (Device.slotRecord .debug lab message)).warningRecords = sink.warningRecords := by
    rw [Sink.warningRecords_emit, if_neg Severity.noConfusion, List.append_nil]
  cases driver with
  | none =>
      have hwarning : (d.diagnostics.emit (d.noLineWarning lab b)).warningRecords =
          d.diagnostics.warningRecords ++ d.noLineWarnings lab [(b, none)] :=
        Sink.warningRecords_emit _ _
      cases verbose with
      | false => exact ⟨_, rfl, hwarning⟩
      | true => exact ⟨_, rfl, (hdebug _ _).trans hwarning⟩
  | some src =>
      have hquiet : d.diagnostics.warningRecords =
          d.diagnostics.warningRecords ++ d.noLineWarnings lab [(b, some src)] :=
        (List.append_nil _).symm
      cases verbose with
      | false => exact ⟨d.diagnostics, rfl, hquiet⟩
      | true => exact ⟨_, rfl, (hdebug _ _).trans hquiet⟩

/-- Choosing the drivers of the shared wires of bound slots never fails. It collects the routes of
the slots that get a driver, and changes nothing but the records: there is a warning for each of
the others. -/
theorem run_sharedRoutes (lab : Nat) {info : Lab} {d : Device} (bound : List BoundSlot)
    (lines : Device.DataLines)
    (h : ∀ b ∈ bound, ∃ w, slotWire? info b = some w ∧ (d.wires.uphill? w).isSome) :
    ∃ sink, (sharedRoutes lab info bound lines).run d =
        (.ok ((d.slotDrivers info bound lines).filterMap (Device.slotRoute? info)),
          { d with diagnostics := sink }) ∧
      sink.warningRecords = d.diagnostics.warningRecords ++
        d.noLineWarnings lab (d.slotDrivers info bound lines) := by
  induction bound generalizing lines d with
  | nil => exact ⟨d.diagnostics, rfl, (List.append_nil _).symm⟩
  | cons b rest ih =>
      obtain ⟨w, hw, hup⟩ := h b List.mem_cons_self
      obtain ⟨l, hl⟩ := Option.isSome_iff_exists.mp hup
      obtain ⟨wire, hwire, rfl⟩ := Option.map_eq_some_iff.mp hl
      have huphill : d.slotUphill info b = wire.uphill.toList := by
        rw [Device.slotUphill, hw, Option.bind_some, hl, Option.getD_some]
      rw [Device.slotDrivers, huphill]
      obtain ⟨kind, slot, signal, net⟩ := b
      have hshared : (info.shared.get kind)[slot]? = some w := hw
      rw [sharedRoutes, hshared]
      simp only [run_get_bind, hwire]
      generalize d.sharedDriver lines kind wire.uphill.toList net = chosen
      obtain ⟨sink, hreports, hsink⟩ := run_reports_bind lab (kind, slot, signal, net) chosen.1
        d.diagnostics.verbose (do
          let routes ← sharedRoutes lab info rest chosen.2
          return (chosen.1.map fun src => (⟨src, w⟩ : Pip)).toList ++ routes) d
      -- Whatever was recorded so far, the rest runs in the same way.
      have hsame : ({ d with diagnostics := sink } : Device).slotDrivers info rest chosen.2 =
          d.slotDrivers info rest chosen.2 := by
        refine Device.slotDrivers_congr ?_ ?_ rfl rest chosen.2 <;> rfl
      obtain ⟨sink', hrun, hwarnings⟩ := ih (d := { d with diagnostics := sink }) chosen.2
        fun b hb => h b (List.mem_cons_of_mem _ hb)
      rw [hsame] at hrun hwarnings
      refine ⟨sink', ?_, ?_⟩
      · refine hreports.trans ?_
        rw [run_bind_of_ok hrun, run_pure, List.filterMap_cons, Device.slotRoute?, hw]
        cases chosen.1 <;> rfl
      · refine hwarnings.trans ?_
        rw [hsink, List.append_assoc]
        exact congrArg _ (d.noLineWarnings_append lab [_] _).symm

end Edit

end Fabric
