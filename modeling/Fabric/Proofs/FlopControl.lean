import Fabric.Proofs.HalfControl
import Fabric.Proofs.LutFunction
import Mathlib.Tactic.Tauto

/-!
# What a flip-flop reads at its control pins

Packing reads the control signals of a flip-flop off its control set: a signal names a net, which
may be that of a constant, or no net, and then the pin reads what it is tied to, or else what its
style gives an unused pin. An up-to-date control set says what is at the pins, with one exception: a
flip-flop that is cleared synchronously and has no net at its load is loaded from the zero net.

Tying the inputs takes the control pins off the constant nets, and ties them to the constants. That
changes nothing at the pins. But it can change whether there is a net at the load or at the
synchronous clear, and so whether the exception applies. All that a flip-flop reads stays as it was,
unless the load reads one at its pin and the exception comes or goes.

## Main results

* `controlDrive_of_upToDate`: what an up-to-date flip-flop reads;
* `Tied.pinDrive_eq`: tying the inputs changes nothing at the control pins;
* `Tied.zeroLoad_comes_iff`, `Tied.zeroLoad_goes_iff`: when the exception comes or goes;
* `controlDrive_applyPinDefaults`: what a flip-flop reads before and after its inputs were tied;
* `load_changed`: a load of one becomes a load of zero.
-/

namespace Fabric

namespace Cell

/-- A flip-flop with a net at its clear and none at its load is loaded from the zero net. -/
theorem needsZeroLoad_iff (c : Cell) :
    c.needsZeroLoad ↔ (c.netOf Known.sclr).isSome ∧ ¬ (c.netOf Known.sload).isSome := by
  rw [needsZeroLoad, Bool.and_eq_true, Option.isNone_iff_eq_none, Option.not_isSome_iff_eq_none]
  exact Iff.rfl

/-- An open pin that is tied has the value it is tied to. -/
theorem openValue?_of_tied {c : Cell} {pin : Ident} {value : Bool}
    (h : c.pinState pin = .tied value) :
    c.openValue? pin = some value := by
  rw [openValue?, h]
  cases value <;> rfl

/-- An open load reads zero, unless it is tied to one. -/
theorem openValue?_load {c : Cell} (htype : c.type = Known.flipFlop) :
    c.openValue? Known.sload = some (decide (c.pinState Known.sload = .tied1)) := by
  rw [openValue?, htype]
  cases c.pinState Known.sload <;> rfl

end Cell

namespace Device

variable {d : Device} {id : CellId} {c : Cell}

/-! ### Reading a pin -/

/-- What is read on a net, inverted or not. -/
def netDrive (d : Device) (net : NetId) (inverted : Bool) : Drive :=
  match d.constValue? net with
  | some value => .constant (some (value != inverted))
  | none => .net net inverted

/-- What a cell reads at a pin: what is on its net, or the constant at an open pin. -/
def pinDrive (d : Device) (c : Cell) (pin : Ident) : Drive :=
  match c.netOf pin with
  | some net => d.netDrive net (c.pinState pin = .inverted)
  | none => .constant (c.openValue? pin)

/-- What a flip-flop reads at a control pin by its control set: what is on the net that is named
there, or the constant at an open pin. -/
def controlDrive (d : Device) (c : Cell) (kind : ControlKind) : Drive :=
  match (c.flipFlop.control.get kind).net with
  | some net => d.netDrive net (c.flipFlop.control.get kind).inverted
  | none => .constant (c.openValue? kind.pin)

/-- Where the summary is up to date, the drive of a control is that of its pin. -/
theorem controlDrive_of_signal {kind : ControlKind}
    (h : c.flipFlop.control.get kind = c.controlSignal kind.pin) :
    d.controlDrive c kind = d.pinDrive c kind.pin := by
  rw [controlDrive, h]
  rfl

/-- **Up-to-date control sets.** An up-to-date flip-flop reads what is at its control pins, but for
a load without a net beside a clear with one, which reads zero. -/
theorem controlDrive_of_upToDate (h : d.netlist.Closed d.interner)
    (hc : d.netlist.cell? id = some c) (htype : c.type = Known.flipFlop) (hcurrent : d.UpToDate id)
    (kind : ControlKind) :
    d.controlDrive c kind = if kind = .sload ∧ c.needsZeroLoad then .constant (some false)
      else d.pinDrive c kind.pin := by
  have hcontrol := congrArg (fun info => info.control.get kind)
    ((upToDate_iff_of_flipFlop hc htype).mp hcurrent)
  rw [Cell.signal_flipFlopSummary, withLoadNet] at hcontrol
  by_cases hload : c.needsZeroLoad = true
  · rw [if_pos hload] at hcontrol
    cases kind with
    | sload =>
        -- The zero net is in the control set, so it has been made, and carries zero.
        have hnet : (d.netlist.net? (d.withConstNet false).1).isSome :=
          h.referred id c _ hc (.inr ⟨.sload, by rw [hcontrol]⟩)
        rw [if_pos ⟨rfl, hload⟩, controlDrive, hcontrol]
        dsimp only
        rw [netDrive, ← constValue?_withConstNet h false hnet, constValue?_withConstNet_self h]
        rfl
    | _ => exact controlDrive_of_signal hcontrol
  · rw [if_neg hload] at hcontrol
    rw [if_neg fun hneeds => hload hneeds.2]
    cases kind <;> exact controlDrive_of_signal hcontrol

/-! ### Inputs on constant nets -/

/-- The constant of the net that an input is on. -/
def inputConstant? (d : Device) (c : Cell) (pin : Ident) : Option Bool :=
  (c.ports.get? pin).bind fun p => if p.dir = .input then p.net.bind d.constValue? else none

/-- An input is constant when it is connected to a constant net. -/
theorem inputConstant?_eq_some {pin : Ident} {value : Bool} : d.inputConstant? c pin = some value ↔
    ∃ p net, c.ports.get? pin = some p ∧ p.dir = .input ∧ p.net = some net ∧
      d.constValue? net = some value := by
  simp only [inputConstant?, Option.bind_eq_some_iff, Option.ite_none_right_eq_some]
  constructor
  · rintro ⟨p, hget, hdir, net, hnet, hvalue⟩
    exact ⟨p, net, hget, hdir, hnet, hvalue⟩
  · rintro ⟨p, net, hget, hdir, hnet, hvalue⟩
    exact ⟨p, hget, hdir, net, hnet, hvalue⟩

/-- An input with a constant is on a net. -/
theorem isSome_netOf_of_inputConstant? {pin : Ident} (h : (d.inputConstant? c pin).isSome) :
    (c.netOf pin).isSome := by
  obtain ⟨value, hvalue⟩ := Option.isSome_iff_exists.mp h
  obtain ⟨p, net, hget, -, hnet, -⟩ := inputConstant?_eq_some.mp hvalue
  rw [Cell.netOf, hget, Option.bind_some, hnet, Option.isSome_some]

/-- An open control pin is tied to what its style gives an unused one, unless it is tied. One on a
constant net is tied to the constant. -/
theorem foldedPin?_of_control (htype : c.type = Known.flipFlop) {kind : ControlKind} {p : Port}
    (hp : p.name = kind.pin) : d.foldedPin? c p =
      match p.net with
      | none =>
        if (c.pinState p.name).isTied then none else (PinStyle.ofCellPin c.type p.name).unused
      | some net => d.constValue? net := by
  have hstyle : (PinStyle.ofCellPin c.type p.name).tieLow = true ∧
      (PinStyle.ofCellPin c.type p.name).tieHigh = true := by
    rw [hp, htype]
    cases kind <;> decide
  rw [foldedPin?]
  cases p.net with
  | none => rfl
  | some net =>
      simp only [hstyle]
      rcases d.constValue? net with _ | _ | _ <;> rfl

section ControlPin

variable (hnamed : c.Named) (htype : c.type = Known.flipFlop) {kind : ControlKind}

include hnamed htype

/-- A control pin that is on a net is tied if it is an input on a constant net. -/
theorem mem_pinsToTie_of_net (hnet : (c.netOf kind.pin).isSome) {value : Bool} :
    (kind.pin, value) ∈ d.pinsToTie c c.inputPorts ↔ d.inputConstant? c kind.pin = some value := by
  obtain ⟨net, hnet⟩ := Option.isSome_iff_exists.mp hnet
  rw [mem_pinsToTie_inputPorts hnamed, inputConstant?_eq_some]
  have hon {p : Port} (hget : c.ports.get? kind.pin = some p) : p.net = some net := by
    rwa [Cell.netOf, hget, Option.bind_some] at hnet
  have hfold {p : Port} (hget : c.ports.get? kind.pin = some p) :
      d.foldedPin? c p = d.constValue? net := by
    rw [foldedPin?_of_control htype (hnamed.name_of_get? hget), hon hget]
  constructor
  · rintro ⟨p, hget, hdir, hvalue⟩
    exact ⟨p, net, hget, hdir, hon hget, hfold hget ▸ hvalue⟩
  · rintro ⟨p, net', hget, hdir, hnet', hvalue⟩
    rw [hon hget] at hnet'
    obtain rfl := Option.some.inj hnet'
    exact ⟨p, hget, hdir, (hfold hget).trans hvalue⟩

/-- The constant that a control pin is tied to is what it read. -/
theorem pinDrive_of_mem_pinsToTie
    (hsignal : (c.netOf kind.pin).isSome → c.pinState kind.pin = .signal) {value : Bool}
    (hmem : (kind.pin, value) ∈ d.pinsToTie c c.inputPorts) :
    d.pinDrive c kind.pin = .constant (some value) := by
  obtain ⟨p, hget, -, hfold⟩ := (mem_pinsToTie_inputPorts hnamed).mp hmem
  have hname := hnamed.name_of_get? hget
  have hnet : c.netOf kind.pin = p.net := by rw [Cell.netOf, hget, Option.bind_some]
  rw [foldedPin?_of_control htype hname, hname] at hfold
  rw [pinDrive, hnet]
  cases hpnet : p.net with
  | none =>
      rw [hpnet] at hfold
      obtain ⟨htied, hunused⟩ := Option.ite_none_left_eq_some.mp hfold
      exact congrArg Drive.constant ((Cell.openValue?_of_not_isTied htied).trans hunused)
  | some net =>
      rw [hpnet] at hfold
      dsimp only at hfold ⊢
      rw [netDrive, hfold, hsignal (by rw [hnet, hpnet, Option.isSome_some])]
      cases value <;> rfl

/-- A control pin on a constant net reads the constant. -/
theorem pinDrive_of_inputConstant? (kind : ControlKind)
    (hsignal : (c.netOf kind.pin).isSome → c.pinState kind.pin = .signal) {value : Bool}
    (h : d.inputConstant? c kind.pin = some value) :
    d.pinDrive c kind.pin = .constant (some value) := by
  have hnet : (c.netOf kind.pin).isSome :=
    isSome_netOf_of_inputConstant? (by rw [h, Option.isSome_some])
  exact pinDrive_of_mem_pinsToTie hnamed htype hsignal
    ((mem_pinsToTie_of_net hnamed htype hnet).mpr h)

end ControlPin

/-! ### A flip-flop whose inputs were tied -/

namespace Tied

variable {d' : Device} {c' : Cell} (h : d.Tied c d' c') (hd : d.Consistent)
  (hc : d.netlist.cell? id = some c) (htype : c.type = Known.flipFlop)

include h hd hc htype

/-- **Control pins.** A control pin that is on its net or tied reads the same after the inputs of
its flip-flop were tied. -/
theorem pinDrive_eq (kind : ControlKind)
    (hsignal : (c.netOf kind.pin).isSome → c.pinState kind.pin = .signal) :
    d'.pinDrive c' kind.pin = d.pinDrive c kind.pin := by
  have hnamed := (hd.made id c hc).named
  by_cases hmem : kind.pin ∈ (d.pinsToTie c c.inputPorts).map Prod.fst
  · obtain ⟨⟨pin, value⟩, hpin, rfl : pin = kind.pin⟩ := List.mem_map.mp hmem
    have hstate := h.pinState kind.pin
    rw [c.pinState_tieAll_of_mem (d.nodup_pinsToTie c hnamed.nodup_inputPorts) hpin] at hstate
    rw [pinDrive_of_mem_pinsToTie hnamed htype hsignal hpin, pinDrive, h.netOf, Cell.netOf_tieAll,
      if_pos hmem]
    exact congrArg Drive.constant (Cell.openValue?_of_tied hstate)
  · have hstate := (h.pinState kind.pin).trans (c.pinState_tieAll_of_notMem hmem)
    rw [pinDrive, pinDrive, h.netOf, Cell.netOf_tieAll, if_neg hmem, hstate]
    cases hnet : c.netOf kind.pin with
    | none =>
        dsimp only
        rw [Cell.openValue?, Cell.openValue?, hstate, h.type]
    | some net =>
        have hexists := hd.closed.referred id c net hc (.inl ⟨_, hnet⟩)
        dsimp only
        rw [netDrive, netDrive, h.constValue? hd.closed net hexists]

/-- A control pin stays on its net if that is not constant. -/
theorem isSome_netOf_iff (kind : ControlKind) : (c'.netOf kind.pin).isSome ↔
    (c.netOf kind.pin).isSome ∧ ¬ (d.inputConstant? c kind.pin).isSome := by
  have hnamed := (hd.made id c hc).named
  rw [h.netOf, Cell.netOf_tieAll]
  by_cases hnet : (c.netOf kind.pin).isSome
  · have hmem (value : Bool) : (kind.pin, value) ∈ d.pinsToTie c c.inputPorts ↔ _ :=
      mem_pinsToTie_of_net hnamed htype hnet
    cases hconst : d.inputConstant? c kind.pin with
    | none =>
        have hnot : kind.pin ∉ (d.pinsToTie c c.inputPorts).map Prod.fst := fun hpin => by
          obtain ⟨⟨pin, value⟩, hpin, rfl : pin = kind.pin⟩ := List.mem_map.mp hpin
          rw [hmem, hconst] at hpin
          cases hpin
        simp [hnot, hnet]
    | some value =>
        rw [if_pos (List.mem_map_of_mem ((hmem value).mpr hconst))]
        simp
  · rw [Option.not_isSome_iff_eq_none] at hnet
    simp [hnet]

/-- The zero load is needed afterwards if the clear stays on its net, and the load does not. -/
theorem needsZeroLoad_iff : c'.needsZeroLoad ↔
    ((c.netOf Known.sclr).isSome ∧ ¬ (d.inputConstant? c Known.sclr).isSome) ∧
      ¬ ((c.netOf Known.sload).isSome ∧ ¬ (d.inputConstant? c Known.sload).isSome) := by
  rw [c'.needsZeroLoad_iff]
  exact and_congr (h.isSome_netOf_iff hd hc htype .sclr)
    (not_congr (h.isSome_netOf_iff hd hc htype .sload))

/-- The zero load comes if the load is tied, and the clear stays on its net. -/
theorem zeroLoad_comes_iff : (¬ c.needsZeroLoad ∧ c'.needsZeroLoad) ↔
    (d.inputConstant? c Known.sload).isSome ∧ (c.netOf Known.sclr).isSome ∧
      ¬ (d.inputConstant? c Known.sclr).isSome := by
  have hon := @isSome_netOf_of_inputConstant? d c Known.sload
  rw [c.needsZeroLoad_iff, h.needsZeroLoad_iff hd hc htype]
  tauto

/-- The zero load goes if the clear is tied, and there is no net at the load. -/
theorem zeroLoad_goes_iff : (c.needsZeroLoad ∧ ¬ c'.needsZeroLoad) ↔
    (d.inputConstant? c Known.sclr).isSome ∧ ¬ (c.netOf Known.sload).isSome := by
  have hon := @isSome_netOf_of_inputConstant? d c Known.sclr
  rw [c.needsZeroLoad_iff, h.needsZeroLoad_iff hd hc htype]
  tauto

end Tied

/-! ### What is read before and after -/

/-- The load of a flip-flop is on the net of one, and its clear is on a net that is not constant. -/
def LosesLoad (d : Device) (c : Cell) : Prop :=
  d.inputConstant? c Known.sload = some true ∧ (c.netOf Known.sclr).isSome ∧
    ¬ (d.inputConstant? c Known.sclr).isSome

/-- The clear of a flip-flop is on a constant net, and its load is open and tied to one. -/
def LosesClear (d : Device) (c : Cell) : Prop :=
  (d.inputConstant? c Known.sclr).isSome ∧ ¬ (c.netOf Known.sload).isSome ∧
    c.pinState Known.sload = .tied1

/-- An open load reads one if it is tied to that, and zero otherwise. -/
theorem pinDrive_load_of_open (htype : c.type = Known.flipFlop)
    (h : ¬ (c.netOf Known.sload).isSome) :
    d.pinDrive c Known.sload = .constant (some (decide (c.pinState Known.sload = .tied1))) := by
  rw [Option.not_isSome_iff_eq_none] at h
  rw [pinDrive, h, ← Cell.openValue?_load htype]

namespace Tied

variable {d' : Device} {c' : Cell} (h : d.Tied c d' c') (hd : d.Consistent)
  (hc : d.netlist.cell? id = some c) (hc' : d'.netlist.cell? id = some c')
  (htype : c.type = Known.flipFlop) (hcurrent : d.UpToDate id) (hcurrent' : d'.UpToDate id)
  (hsignal : ∀ kind : ControlKind, (c.netOf kind.pin).isSome → c.pinState kind.pin = .signal)

include h hd hc hc' htype hcurrent' hsignal

/-- After its inputs were tied a flip-flop reads what was at its control pins before, or zero at a
load that is zero now. -/
theorem controlDrive_after (kind : ControlKind) : d'.controlDrive c' kind =
    if kind = .sload ∧ c'.needsZeroLoad then .constant (some false) else d.pinDrive c kind.pin := by
  rw [← h.pinDrive_eq hd hc htype kind (hsignal kind)]
  exact controlDrive_of_upToDate (h.consistent hd).closed hc' (h.type.trans htype) hcurrent' kind

include hcurrent

/-- A flip-flop that loses neither a load nor a clear reads what it did. -/
theorem controlDrive_eq {kind : ControlKind}
    (hkept : kind = .sload → ¬ d.LosesLoad c ∧ ¬ d.LosesClear c) :
    d'.controlDrive c' kind = d.controlDrive c kind := by
  rw [h.controlDrive_after hd hc hc' htype hcurrent' hsignal,
    controlDrive_of_upToDate hd.closed hc htype hcurrent]
  by_cases hload : kind = .sload
  · obtain ⟨hkeepsLoad, hkeepsClear⟩ := hkept hload
    subst hload
    by_cases hneeds : c.needsZeroLoad <;> by_cases hneeds' : c'.needsZeroLoad
    · simp [hneeds, hneeds']
    · -- The zero load goes. The open load is not tied to one, and so reads zero.
      obtain ⟨hconst, hopen⟩ := (h.zeroLoad_goes_iff hd hc htype).mp ⟨hneeds, hneeds'⟩
      have hstate : c.pinState Known.sload ≠ .tied1 := fun hstate =>
        hkeepsClear ⟨hconst, hopen, hstate⟩
      rw [if_neg fun hif => hneeds' hif.2, if_pos ⟨rfl, hneeds⟩]
      refine (pinDrive_load_of_open htype hopen).trans ?_
      rw [decide_eq_false hstate]
    · -- The zero load comes. The load is on a constant net, but not on that of one.
      obtain ⟨hconst, hon, hnot⟩ := (h.zeroLoad_comes_iff hd hc htype).mp ⟨hneeds, hneeds'⟩
      obtain ⟨value, hvalue⟩ := Option.isSome_iff_exists.mp hconst
      have hzero : value = false := by
        rw [← Bool.not_eq_true]
        rintro rfl
        exact hkeepsLoad ⟨hvalue, hon, hnot⟩
      rw [if_pos ⟨rfl, hneeds'⟩, if_neg fun hif => hneeds hif.2, ← hzero]
      exact (pinDrive_of_inputConstant? (hd.made id c hc).named htype .sload
        (hsignal _) hvalue).symm
    · simp [hneeds, hneeds']
  · rw [if_neg fun hif => hload hif.1, if_neg fun hif => hload hif.1]

/-- A load that is on the net of one and beside a clear becomes a load of zero. -/
theorem load_of_losesLoad (hloses : d.LosesLoad c) :
    d.controlDrive c .sload = .constant (some true) ∧
      d'.controlDrive c' .sload = .constant (some false) := by
  obtain ⟨hvalue, hon, hnot⟩ := hloses
  obtain ⟨hneeds, hneeds'⟩ := (h.zeroLoad_comes_iff hd hc htype).mpr
    ⟨by rw [hvalue, Option.isSome_some], hon, hnot⟩
  rw [h.controlDrive_after hd hc hc' htype hcurrent' hsignal, if_pos ⟨rfl, hneeds'⟩,
    controlDrive_of_upToDate hd.closed hc htype hcurrent, if_neg fun hif => hneeds hif.2]
  exact ⟨pinDrive_of_inputConstant? (hd.made id c hc).named htype .sload (hsignal _) hvalue, rfl⟩

/-- A load of zero that is there for a clear on a constant net becomes the one
that it is tied to. -/
theorem load_of_losesClear (hloses : d.LosesClear c) :
    d.controlDrive c .sload = .constant (some false) ∧
      d'.controlDrive c' .sload = .constant (some true) := by
  obtain ⟨hconst, hopen, hstate⟩ := hloses
  obtain ⟨hneeds, hneeds'⟩ := (h.zeroLoad_goes_iff hd hc htype).mpr ⟨hconst, hopen⟩
  rw [h.controlDrive_after hd hc hc' htype hcurrent' hsignal, if_neg fun hif => hneeds' hif.2,
    controlDrive_of_upToDate hd.closed hc htype hcurrent, if_pos ⟨rfl, hneeds⟩]
  refine ⟨rfl, (pinDrive_load_of_open htype hopen).trans ?_⟩
  rw [decide_eq_true hstate]

end Tied

/-! ### A flip-flop on a constant load -/

/-- A flip-flop with its load on the first net and its clear on the second one. -/
def loaded (name : Ident) : Cell where
  name := name
  type := Known.flipFlop
  ports :=
    [(Known.sclr, ⟨Known.sclr, .input, some ⟨1⟩⟩), (Known.sload, ⟨Known.sload, .input, some ⟨0⟩⟩)]

/-- A flip-flop can be drawn with its load on a constant net and its clear on another net. -/
theorem exists_drawnLoad {selection : Selection} {d₀ : Device}
    (hbuilt : ofSelection selection = .ok d₀) (value : Bool) : ∃ d name, Reachable d₀ d ∧
      d.netlist.cell? ⟨0⟩ = some (loaded name) ∧ d.constValue? ⟨0⟩ = some value ∧
      d.constValue? ⟨1⟩ = none := by
  have hnetlist := (vacant_ofSelection hbuilt).netlist
  obtain ⟨name, d₁, h₁, hnl₁, -⟩ := Reachable.built.exists_addCell "flop" Known.flipFlop
  rw [hnetlist] at hnl₁
  obtain ⟨constant, d₂, h₂, hnl₂, hconstant⟩ := h₁.exists_constNet value fun name => by
    rw [hnl₁]
    exact Std.HashMap.getElem?_empty
  rw [hnl₁] at hnl₂
  have h₃ := h₂.step (.createNet "reset")
  rw [Operation.apply_createNet, hnl₂] at h₃
  obtain ⟨d₄, h₄, hnl₄, -, hi₄⟩ := h₃.exists_addPort ⟨0⟩ rfl Known.sclr .input
  obtain ⟨d₅, h₅, hnl₅, -, hi₅⟩ := h₄.exists_addPort ⟨0⟩ (by rw [hnl₄]; rfl) Known.sload .input
  rw [hnl₄] at hnl₅
  obtain ⟨d₆, h₆, hnl₆, -, hi₆⟩ := h₅.exists_connect ⟨0⟩ Known.sclr ⟨1⟩ (by rw [hnl₅]; rfl)
  obtain ⟨d₇, h₇, hnl₇, -, hi₇⟩ := h₆.exists_connect ⟨0⟩ Known.sload ⟨0⟩ (by rw [hnl₆]; rfl)
  have hi : d₇.interner = (d₂.interner.intern "reset").2 := by rw [hi₇, hi₆, hi₅, hi₄]
  have hreset := d₂.interner.name?_intern_self "reset"
  refine ⟨d₇, name, h₇, ?_, ?_, ?_⟩
  · rw [hnl₇]
    rfl
  · rw [constValue?, hnl₇]
    show Netlist.constOfName? (d₇.nameOf constant) = some value
    rw [nameOf, hi, Interner.name, Interner.name?_intern hconstant, Option.getD_some,
      Netlist.constOfName?_constNetName]
  · rw [constValue?, hnl₇]
    show Netlist.constOfName? (d₇.nameOf (d₂.interner.intern "reset").1) = none
    rw [nameOf, hi, Interner.name, hreset]
    rfl

/-- The flip-flop can be derived. -/
theorem exists_derivedLoad (value : Bool) : ∃ d₀ d c, ofSelection (.ofGrid 3 2) = .ok d₀ ∧
    Reachable d₀ d ∧ d.netlist.cell? ⟨0⟩ = some c ∧ c.type = Known.flipFlop ∧
    (∀ pin, c.pinState pin = .signal) ∧ d.UpToDate ⟨0⟩ ∧ (c.netOf Known.sclr).isSome ∧
    d.inputConstant? c Known.sload = some value ∧ d.inputConstant? c Known.sclr = none := by
  obtain ⟨d₀, hbuilt, -⟩ := exists_ofSelection chip_smallestGrid
  obtain ⟨d, name, hreach, hcell, hload, hclear⟩ := exists_drawnLoad hbuilt value
  have hclosed := (hreach.consistent hbuilt).closed
  have hderive := Edit.run_deriveCell_of_flipFlop hcell rfl
  have hconst (pin : Ident) {net : NetId} (hnet : (loaded name).netOf pin = some net) :
      (d.withFlipFlop ⟨0⟩ (loaded name)).constValue? net = d.constValue? net :=
    constValue?_withFlipFlop hclosed _ _ (hclosed.referred _ _ net hcell (.inl ⟨pin, hnet⟩))
  have happly : (Operation.deriveCell ⟨0⟩).apply d = d.withFlipFlop ⟨0⟩ (loaded name) :=
    congrArg Prod.snd hderive
  have hcurrent := upToDate_deriveCell hcell
  rw [hderive] at hcurrent
  exact ⟨d₀, _, _, hbuilt, happly ▸ hreach.step (.deriveCell ⟨0⟩), cell?_withFlipFlop d hcell, rfl,
    fun _ => rfl, hcurrent, rfl, (hconst Known.sload rfl).trans hload,
    (hconst Known.sclr rfl).trans hclear⟩

/-! ### Tying the inputs -/

/-- **Tying the inputs of a flip-flop.** On a built device, whatever was done before, the inputs of
an up-to-date flip-flop can be tied. If its control pins on nets are neither inverted nor tied then
it reads the same at all control pins before and after, with two exceptions at the load: a load on
the net of one, beside a clear on a net that is not constant, becomes zero; and an open load that is
tied to one, beside a clear on a constant net, is zero before and one after. -/
theorem controlDrive_applyPinDefaults {selection : Selection} {d₀ : Device}
    (hbuilt : ofSelection selection = .ok d₀) (hreach : Reachable d₀ d)
    (hc : d.netlist.cell? id = some c) (htype : c.type = Known.flipFlop) (hcurrent : d.UpToDate id)
    (hsignal : ∀ kind : ControlKind, (c.netOf kind.pin).isSome → c.pinState kind.pin = .signal) :
    ∃ count d' c', (Edit.applyPinDefaults id).run d = (.ok count, d') ∧
      d'.netlist.cell? id = some c' ∧
      (∀ kind : ControlKind, (kind = .sload → ¬ d.LosesLoad c ∧ ¬ d.LosesClear c) →
        d'.controlDrive c' kind = d.controlDrive c kind) ∧
      (d.LosesLoad c → d.controlDrive c .sload = .constant (some true) ∧
        d'.controlDrive c' .sload = .constant (some false)) ∧
      (d.LosesClear c → d.controlDrive c .sload = .constant (some false) ∧
        d'.controlDrive c' .sload = .constant (some true)) := by
  have hd := hreach.consistent hbuilt
  obtain ⟨count, d', c', hrun, hc', h, hcurrent'⟩ := exists_tied hc (hd.made _ c hc).named hcurrent
  exact ⟨count, d', c', hrun, hc',
    fun _ => h.controlDrive_eq hd hc hc' htype hcurrent hcurrent' hsignal,
    h.load_of_losesLoad hd hc hc' htype hcurrent hcurrent' hsignal,
    h.load_of_losesClear hd hc hc' htype hcurrent hcurrent' hsignal⟩

/-- A flip-flop that is cleared beside a load of constant zero reads the same after its
inputs were tied. -/
theorem controlDrive_applyPinDefaults_zeroLoad : ∃ d₀ d c count d' c',
    ofSelection (.ofGrid 3 2) = .ok d₀ ∧ Reachable d₀ d ∧ d.netlist.cell? ⟨0⟩ = some c ∧
    c.type = Known.flipFlop ∧ d.UpToDate ⟨0⟩ ∧ (∀ pin, c.pinState pin = .signal) ∧
    d.inputConstant? c Known.sload = some false ∧
    (Edit.applyPinDefaults ⟨0⟩).run d = (.ok count, d') ∧ d'.netlist.cell? ⟨0⟩ = some c' ∧
    ∀ kind, d'.controlDrive c' kind = d.controlDrive c kind := by
  obtain ⟨d₀, d, c, hbuilt, hreach, hc, htype, hstates, hcurrent, -, hload, hclear⟩ :=
    exists_derivedLoad false
  obtain ⟨count, d', c', hrun, hc', hsame, -⟩ :=
    controlDrive_applyPinDefaults hbuilt hreach hc htype
    hcurrent fun kind _ => hstates kind.pin
  refine ⟨d₀, d, c, count, d', c', hbuilt, hreach, hc, htype, hcurrent, hstates, hload, hrun, hc',
    fun kind => hsame kind fun _ => ⟨fun hloses => ?_, fun hloses => ?_⟩⟩
  · cases hload.symm.trans hloses.1
  · have hconst := hloses.1
    rw [hclear] at hconst
    cases hconst

/-- **A load of one beside a clear.** A flip-flop whose load is on the net of one, and whose clear
is on a net, reads one at its load, and zero after its inputs were tied. -/
theorem load_changed : ∃ d₀ d c count d' c', ofSelection (.ofGrid 3 2) = .ok d₀ ∧
    Reachable d₀ d ∧ d.netlist.cell? ⟨0⟩ = some c ∧ c.type = Known.flipFlop ∧ d.UpToDate ⟨0⟩ ∧
    (∀ pin, c.pinState pin = .signal) ∧
    (Edit.applyPinDefaults ⟨0⟩).run d = (.ok count, d') ∧ d'.netlist.cell? ⟨0⟩ = some c' ∧
    d.controlDrive c .sload = .constant (some true) ∧
    d'.controlDrive c' .sload = .constant (some false) := by
  obtain ⟨d₀, d, c, hbuilt, hreach, hc, htype, hstates, hcurrent, hon, hload, hclear⟩ :=
    exists_derivedLoad true
  have hd := hreach.consistent hbuilt
  obtain ⟨count, d', c', hrun, hc', h, hcurrent'⟩ := exists_tied hc (hd.made _ c hc).named hcurrent
  exact ⟨d₀, d, c, count, d', c', hbuilt, hreach, hc, htype, hcurrent, hstates, hrun, hc',
    h.load_of_losesLoad hd hc hc' htype hcurrent hcurrent' (fun kind _ => hstates kind.pin)
      ⟨hload, hon, by rw [hclear]; exact Bool.false_ne_true⟩⟩

end Device

end Fabric
