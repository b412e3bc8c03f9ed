import Fabric.Proofs.ControlSets
import Fabric.Proofs.Placing

/-!
# What drives the control pins of a half

The flip-flops of a half share one selector for each of clock, enable and asynchronous clear, so
they should all read the same there. A pin reads its net, or the inverse of it; an open pin reads
the constant that it is tied to, or else the one that its style gives an unused pin.

A legal ALM is one whose flip-flops agree, half by half, on their control sets. A control set names
the net and the polarity of each pin, and no constant: it says all about pins that are connected,
but it does not tell open pins apart that are tied to different constants.

## Main results

* `drive_of_isAlmLegal`: in a legal ALM the flip-flops of a half read the same at a control pin,
  unless the pin is open and tied;
* `drive_ne_of_tied`: flip-flops of one half can be legal with their enables tied to opposite
  constants.
-/

namespace Fabric

/-- What a cell reads at an input: a net, inverted or not, or a constant, if there is one. -/
inductive Drive where
  | net (net : NetId) (inverted : Bool)
  | constant (value : Option Bool)
  deriving DecidableEq, Repr

namespace Cell

/-- The constant at an open pin: what it is tied to, else what drives an unused pin of its style. -/
def openValue? (c : Cell) (pin : Ident) : Option Bool :=
  match c.pinState pin with
  | .tied0 => some false
  | .tied1 => some true
  | .signal | .inverted => (PinStyle.ofCellPin c.type pin).unused

/-- What a cell reads at a pin. -/
def drive (c : Cell) (pin : Ident) : Drive :=
  match c.netOf pin with
  | some net => .net net (c.pinState pin = .inverted)
  | none => .constant (c.openValue? pin)

/-- An open pin that is not tied has the value of its style. -/
theorem openValue?_of_not_isTied {c : Cell} {pin : Ident} (h : ¬ (c.pinState pin).isTied) :
    c.openValue? pin = (PinStyle.ofCellPin c.type pin).unused := by
  rw [openValue?]
  rcases (PinState.not_isTied_iff _).mp h with h | h <;> rw [h]

/-- The control set of a summary has the signals at the clock, enable and clear pins. -/
theorem get_control_flipFlopSummary (c : Cell) (zeroNet : Option NetId) {kind : ControlKind}
    (hk : kind ∈ ControlKind.selected) :
    (c.flipFlopSummary zeroNet).control.get kind = c.controlSignal kind.pin := by
  simp only [ControlKind.selected, List.mem_cons, List.not_mem_nil, or_false] at hk
  rcases hk with rfl | rfl | rfl <;> cases zeroNet <;> rfl

/-- Pins with one control signal are on one net. They read the same, or are open with
different constants. -/
theorem drive_of_controlSignal_eq {c c' : Cell} {pin : Ident}
    (h : c.controlSignal pin = c'.controlSignal pin) : c.netOf pin = c'.netOf pin ∧
      (c.drive pin = c'.drive pin ∨ c.netOf pin = none ∧ c.openValue? pin ≠ c'.openValue? pin) := by
  obtain ⟨hnet, hinverted⟩ := ControlSignal.mk.inj h
  refine ⟨hnet, ?_⟩
  rw [drive, drive, ← hnet, hinverted]
  cases c.netOf pin with
  | some net => exact .inl rfl
  | none =>
      by_cases hvalue : c.openValue? pin = c'.openValue? pin
      · exact .inl (congrArg Drive.constant hvalue)
      · exact .inr ⟨rfl, hvalue⟩

end Cell

namespace Device

variable {d : Device}

section ClockedPair

variable {a : Alm} {n₀ n₁ : Ident} {enable₀ enable₁ : PinState} (hd : d.IsState)
  (ha : d.alm? 0 0 = some a)
  (hcells : d.netlist.cells = #[(clocked n₀ ⟨0⟩ enable₀).placedAt (a.ffSites.flop .top false),
    (clocked n₁ ⟨0⟩ enable₁).placedAt (a.ffSites.flop .top true)])

include hd ha hcells

/-- Flip-flops on one clock are legal in one half, whatever their open enables are tied to. -/
theorem isAlmLegal_of_tied (h : enable₀ ≠ .inverted) (h' : enable₁ ≠ .inverted) :
    d.isAlmLegal 0 0 = true := by
  have hsignal (n : Ident) {enable : PinState} (h : enable ≠ .inverted) :
      (clocked n ⟨0⟩ enable).controlSet = (clocked n₀ ⟨0⟩ .signal).controlSet := by
    cases enable with
    | inverted => exact absurd rfl h
    | _ => rfl
  refine hd.isAlmLegal_of_pair ha hcells ((hsignal n₀ h).trans (hsignal n₁ h').symm) fun c hc => ?_
  rcases List.mem_pair.mp hc with rfl | rfl <;> exact ⟨rfl, rfl⟩

/-- The two flip-flops stand in one half, and are the cells placed there. -/
theorem cells_clockedPair : (d.flopCells a).flop .top false = some ⟨0⟩ ∧
    (d.flopCells a).flop .top true = some ⟨1⟩ ∧
    d.netlist.cell? ⟨0⟩ = some ((clocked n₀ ⟨0⟩ enable₀).placedAt (a.ffSites.flop .top false)) ∧
    d.netlist.cell? ⟨1⟩ = some ((clocked n₁ ⟨0⟩ enable₁).placedAt (a.ffSites.flop .top true)) ∧
    d.UpToDate ⟨0⟩ ∧ d.UpToDate ⟨1⟩ := by
  have hc :
      d.netlist.cell? ⟨0⟩ =
        some ((clocked n₀ ⟨0⟩ enable₀).placedAt (a.ffSites.flop .top false)) := by
    rw [Netlist.cell?, hcells]
    rfl
  have hc' :
      d.netlist.cell? ⟨1⟩ =
        some ((clocked n₁ ⟨0⟩ enable₁).placedAt (a.ffSites.flop .top true)) := by
    rw [Netlist.cell?, hcells]
    rfl
  exact ⟨(hd.flopCells_of_pair ha hcells ha .top false _).mpr ⟨rfl, rfl, rfl, rfl⟩,
    (hd.flopCells_of_pair ha hcells ha .top true _).mpr ⟨rfl, rfl, rfl, rfl⟩, hc, hc',
    upToDate_of_placedAt hc ⟨rfl, rfl, rfl⟩, upToDate_of_placedAt hc' ⟨rfl, rfl, rfl⟩⟩

end ClockedPair

/-- **Control pins of a half.** In a legal ALM, two up-to-date flip-flops of one half have their
clock, enable and clear on the same nets, and read the same there, with one exception: a pin that is
open in both and tied in one of them may read different constants. -/
theorem drive_of_isAlmLegal {lab alm : Nat} {a : Alm} (ha : d.alm? lab alm = some a)
    (hlegal : d.isAlmLegal lab alm = true) {half : Half} {second second' : Bool} {id id' : CellId}
    (hid : (d.flopCells a).flop half second = some id)
    (hid' : (d.flopCells a).flop half second' = some id') {c c' : Cell}
    (hc : d.netlist.cell? id = some c) (hc' : d.netlist.cell? id' = some c')
    (htype : c.type = Known.flipFlop) (htype' : c'.type = Known.flipFlop) (hcurrent : d.UpToDate id)
    (hcurrent' : d.UpToDate id') {kind : ControlKind} (hk : kind ∈ ControlKind.selected) :
    c.netOf kind.pin = c'.netOf kind.pin ∧
    (c.drive kind.pin = c'.drive kind.pin ∨
      c.netOf kind.pin = none ∧ c.openValue? kind.pin ≠ c'.openValue? kind.pin ∧
        ((c.pinState kind.pin).isTied ∨ (c'.pinState kind.pin).isTied)) := by
  have hinfo : d.netlist.flipFlopInfo id = c.flipFlop := by rw [Netlist.flipFlopInfo, hc]; rfl
  have hinfo' : d.netlist.flipFlopInfo id' = c'.flipFlop := by rw [Netlist.flipFlopInfo, hc']; rfl
  have hcontrol := control_eq_of_agree (agree_of_isAlmLegal ha hlegal half) hid hid'
  rw [hinfo, hinfo', (upToDate_iff_of_flipFlop hc htype).mp hcurrent,
    (upToDate_iff_of_flipFlop hc' htype').mp hcurrent'] at hcontrol
  have hsignal : c.controlSignal kind.pin = c'.controlSignal kind.pin := by
    rw [← c.get_control_flipFlopSummary _ hk, hcontrol, c'.get_control_flipFlopSummary _ hk]
  obtain ⟨hnet, hdrive⟩ := Cell.drive_of_controlSignal_eq hsignal
  refine ⟨hnet, hdrive.imp_right fun hdiffer => ⟨hdiffer.1, hdiffer.2, ?_⟩⟩
  -- Two pins of one style that are not tied read what the style gives.
  by_contra htied
  rw [not_or] at htied
  refine hdiffer.2 ?_
  rw [Cell.openValue?_of_not_isTied htied.1, Cell.openValue?_of_not_isTied htied.2, htype, htype']

/-- Two flip-flops of one half on one clock, and otherwise open, read the same. -/
theorem drive_of_isAlmLegal_oneClock : ∃ d₀ d a c c', ofSelection (.ofGrid 3 2) = .ok d₀ ∧
    Reachable d₀ d ∧ d.alm? 0 0 = some a ∧ d.isAlmLegal 0 0 = true ∧
    (d.flopCells a).get .top = (some ⟨0⟩, some ⟨1⟩) ∧
    d.netlist.cell? ⟨0⟩ = some c ∧ d.netlist.cell? ⟨1⟩ = some c' ∧
    c.drive Known.clk = .net ⟨0⟩ false ∧
    ∀ kind ∈ ControlKind.selected, c.drive kind.pin = c'.drive kind.pin := by
  obtain ⟨d₀, d, a, n₀, n₁, hbuilt, hreach, ha, hcells⟩ := exists_clockedPair true .signal .signal
  have hd := hreach.isState hbuilt
  have hlegal := isAlmLegal_of_tied hd ha hcells nofun nofun
  obtain ⟨hid, hid', hc, hc', hcurrent, hcurrent'⟩ := cells_clockedPair hd ha hcells
  refine ⟨d₀, d, a, _, _, hbuilt, hreach, ha, hlegal, Prod.ext hid hid', hc, hc', rfl,
    fun kind hk => ?_⟩
  obtain ⟨-, hdrive | ⟨-, -, htied⟩⟩ :=
    drive_of_isAlmLegal ha hlegal hid hid' hc hc' rfl rfl hcurrent hcurrent' hk
  · exact hdrive
  · simp only [ControlKind.selected, List.mem_cons, List.not_mem_nil, or_false] at hk
    rcases hk with rfl | rfl | rfl <;> rcases htied with htied | htied <;> cases htied

/-- Two flip-flops of one half are legal, up to date, and read opposite constants at the enable
that they share a selector for. -/
theorem drive_ne_of_tied : ∃ d₀ d a c c', ofSelection (.ofGrid 3 2) = .ok d₀ ∧ Reachable d₀ d ∧
    d.alm? 0 0 = some a ∧ d.isAlmLegal 0 0 = true ∧
    (d.flopCells a).get .top = (some ⟨0⟩, some ⟨1⟩) ∧
    d.netlist.cell? ⟨0⟩ = some c ∧ d.netlist.cell? ⟨1⟩ = some c' ∧
    c.type = Known.flipFlop ∧ c'.type = Known.flipFlop ∧ d.UpToDate ⟨0⟩ ∧ d.UpToDate ⟨1⟩ ∧
    c.drive Known.ena = .constant (some false) ∧ c'.drive Known.ena = .constant (some true) := by
  obtain ⟨d₀, d, a, n₀, n₁, hbuilt, hreach, ha, hcells⟩ := exists_clockedPair true .tied0 .tied1
  have hd := hreach.isState hbuilt
  obtain ⟨hid, hid', hc, hc', hcurrent, hcurrent'⟩ := cells_clockedPair hd ha hcells
  exact ⟨d₀, d, a, _, _, hbuilt, hreach, ha, isAlmLegal_of_tied hd ha hcells nofun nofun,
    Prod.ext hid hid', hc, hc', rfl, rfl, hcurrent, hcurrent', rfl, rfl⟩

end Device

end Fabric
