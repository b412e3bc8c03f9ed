import Fabric.Proofs.PinDefaults
import Fabric.Proofs.TruthTable

/-!
# The function of a logic cell

A logic cell computes a function of the nets on its inputs: a tied input reads its constant, an open
one zero, and any other its net, inverted if the cell inverts the pin. What the inputs read spells
the bit of the table that is the output.

Tying the inputs that carry no real signal should keep that function. It does for pins that are not
inverted. An inverted input on a constant net is tied to the constant of the net and not to the
inverse of it, so from then on the cell reads it the wrong way round.

## Main results

* `tableBit_eq_output`: the truth table of an ALM is built from this function;
* `output_applyPinDefaults`: the function of a cell after its inputs were tied;
* `output_changed`: a buffer behind an inverted pin changes its output.
-/

namespace Fabric

theorem PinState.constant?_tied (value : Bool) : (PinState.tied value).constant? = some value := by
  cases value <;> rfl

namespace Cell

/-- What a logical input reads for some values of the nets. -/
def inputBit (c : Cell) (v : NetId → Bool) (k : Nat) (port : Ident) : Bool :=
  match (c.pinState port).constant? with
  | some value => value
  | none =>
    match (c.lut.inputs[k]?).join with
    | none => false
    | some net => v net != decide (c.pinState port = .inverted)

/-- The names and numbers of the logical inputs that a cell has. -/
def logicalInputs (c : Cell) : List (Ident × Nat) := lutInputNames.zipIdx.take c.lut.inputCount

/-- The output of a logic cell for some values of the nets. -/
def output (c : Cell) (v : NetId → Bool) : Bool :=
  c.lut.table.testBit (ofBits (c.logicalInputs.map fun (port, k) => c.inputBit v k port))

/-! ### The truth table -/

/-- A source of the truth table reads what the input reads, if its address bit has the
value of the net. -/
theorem read_eq_inputBit {c : Cell} {fused : Bool} {half : Half} {k : Nat} {port : Ident}
    {source : LutSource} (hsource : c.lutSource? fused half k port = some source)
    {v : NetId → Bool} {addr : Nat}
    (haddr : ∀ net bit inverted, (c.lut.inputs[k]?).join = some net →
      source = .address bit inverted → addr.testBit bit = v net) :
    source.read addr = c.inputBit v k port := by
  rw [lutSource?] at hsource
  rw [inputBit]
  cases hconst : (c.pinState port).constant? with
  | some value =>
      rw [hconst] at hsource
      obtain rfl := Option.some.inj hsource
      rfl
  | none =>
      rw [hconst] at hsource
      dsimp only at hsource ⊢
      cases hnet : (c.lut.inputs[k]?).join with
      | none =>
          rw [hnet] at hsource
          obtain rfl := Option.some.inj hsource
          rfl
      | some net =>
          rw [hnet, if_neg (by simp)] at hsource
          obtain ⟨bit, -, rfl⟩ := Option.map_eq_some_iff.mp hsource
          rw [LutSource.read, haddr net bit _ hnet rfl]

/-- The truth table of an ALM is built from the function of its cells: at an address that gives each
connected input the value of its net, it has the output of the cell. -/
theorem tableBit_eq_output {c : Cell} {fused : Bool} {half : Half} {sources : List LutSource}
    (hsources : c.lutSources? fused half = some sources) {v : NetId → Bool} {addr : Nat}
    (haddr : ∀ port k net bit inverted, (port, k) ∈ c.logicalInputs →
      (c.lut.inputs[k]?).join = some net →
      c.lutSource? fused half k port = some (.address bit inverted) → addr.testBit bit = v net) :
    tableBit c.lut.table sources addr = c.output v := by
  rw [tableBit, output]
  congr 2
  refine map_read_of_mapM hsources fun ⟨port, k⟩ hmem source hsource => ?_
  refine read_eq_inputBit hsource fun net bit inverted hnet heq => ?_
  exact haddr port k net bit inverted hmem hnet (heq ▸ hsource)

end Cell

namespace Device

/-- Values of the nets that give each constant net its constant. -/
def Respects (d : Device) (v : NetId → Bool) : Prop :=
  ∀ net value, d.constValue? net = some value → v net = value

/-- Whether an input is inverted and on a constant net. -/
def invertsConstant (d : Device) (c : Cell) (port : Ident) : Bool :=
  decide (c.pinState port = .inverted) &&
    (c.ports.get? port).any fun p => decide (p.dir = .input) && (p.net.bind d.constValue?).isSome

variable {d : Device} {id : CellId} {c : Cell} {n : Nat}

/-! ### What is decided about a logical input -/

/-- The pins of a logic cell that has inputs are LUT inputs. -/
theorem ofCellPin_of_logic (hn : CellType.logicInputs? c.type = some n) (hpos : 0 < n)
    (pin : Ident) : PinStyle.ofCellPin c.type pin = .lutInput := by
  have hflop : c.type ≠ Known.flipFlop := by
    intro heq
    rw [heq] at hn
    cases hn
  rw [PinStyle.ofCellPin, if_neg hflop, hn]
  cases n with
  | zero => cases hpos
  | succ n => rfl

/-- An open input is tied to zero, unless it is tied. An input on a constant net is
tied to the constant. -/
theorem foldedPin?_of_logic (hn : CellType.logicInputs? c.type = some n) (hpos : 0 < n) (p : Port) :
    d.foldedPin? c p =
      match p.net with
      | none => if (c.pinState p.name).isTied then none else some false
      | some net => d.constValue? net := by
  rw [foldedPin?]
  simp only [ofCellPin_of_logic hn hpos]
  cases p.net with
  | none => rfl
  | some net =>
      dsimp only
      rcases d.constValue? net with _ | _ | _ <;> rfl

/-- A logical input in an up-to-date summary is the net at its port. -/
theorem join_inputs_lutSummary (c : Cell) {k : Nat} {port : Ident}
    (hport : lutInputNames[k]? = some port) (hk : k < n) :
    (((c.lutSummary n).inputs)[k]?).join = c.netOf port := by
  show ((c.lutInputs n)[k]?).join = _
  rw [Cell.lutInputs, List.getElem?_map, List.getElem?_zipIdx, hport]
  simp [hk]

/-- A pin is tied exactly when its port is an input for which that is decided. -/
theorem mem_pinsToTie_inputPorts (hnamed : c.Named) {pin : Ident} {value : Bool} :
    (pin, value) ∈ d.pinsToTie c c.inputPorts ↔ ∃ p, c.ports.get? pin = some p ∧ p.dir = .input ∧
      d.foldedPin? c p = some value := by
  rw [mem_pinsToTie]
  constructor
  · rintro ⟨p, hp, rfl, hvalue⟩
    obtain ⟨hget, hdir⟩ := hnamed.mem_inputPorts.mp hp
    exact ⟨p, hget, hdir, hvalue⟩
  · rintro ⟨p, hget, hdir, hvalue⟩
    have hname := hnamed.name_of_get? hget
    exact ⟨p, hnamed.mem_inputPorts.mpr ⟨hname.symm ▸ hget, hdir⟩, hname, hvalue⟩

section TiedInputs

variable (hn : CellType.logicInputs? c.type = some n) (hnamed : c.Named)
  (hlut : c.lut = c.lutSummary n)
  (hstates : ∀ p ∈ c.inputPorts, p.net.isSome → ¬ (c.pinState p.name).isTied)
  {k : Nat} {port : Ident} (hport : lutInputNames[k]? = some port) (hk : k < n)
  {v : NetId → Bool} (hv : d.Respects v)

include hn hnamed hk

/-- An input that is not tied is not both inverted and on a constant net. -/
theorem invertsConstant_of_notMem (hmem : port ∉ (d.pinsToTie c c.inputPorts).map Prod.fst) :
    d.invertsConstant c port = false := by
  rw [Bool.eq_false_iff]
  intro hinverts
  rw [invertsConstant, Bool.and_eq_true, Option.any_eq_true] at hinverts
  obtain ⟨-, p, hget, hconst⟩ := hinverts
  rw [Bool.and_eq_true, decide_eq_true_eq] at hconst
  obtain ⟨value, hvalue⟩ := Option.isSome_iff_exists.mp hconst.2
  obtain ⟨net, hpnet, hvalue⟩ := Option.bind_eq_some_iff.mp hvalue
  refine hmem (List.mem_map_of_mem (f := Prod.fst) (a := (port, value))
    ((mem_pinsToTie_inputPorts hnamed).mpr ⟨p, hget, hconst.1, ?_⟩))
  rw [foldedPin?_of_logic hn (Nat.zero_lt_of_lt hk), hpnet]
  exact hvalue

include hlut hstates hport hv

/-- The constant that an input is tied to is what it read, but for an inverted one on a constant
net: it read the opposite. -/
theorem inputBit_of_mem_pinsToTie {value : Bool}
    (hmem : (port, value) ∈ d.pinsToTie c c.inputPorts) :
    value = (c.inputBit v k port != d.invertsConstant c port) := by
  obtain ⟨p, hget, hdir, hfold⟩ := (mem_pinsToTie_inputPorts hnamed).mp hmem
  have hname := hnamed.name_of_get? hget
  rw [foldedPin?_of_logic hn (Nat.zero_lt_of_lt hk), hname] at hfold
  rw [Cell.inputBit, hlut, join_inputs_lutSummary c hport hk]
  cases hpnet : p.net with
  | none =>
      -- An open input reads zero, and is tied to it.
      rw [hpnet] at hfold
      obtain ⟨htied, rfl⟩ := Option.ite_none_left_eq_some.mp hfold |>.imp_right Option.some.inj
      have hopen : c.netOf port = none := by rw [Cell.netOf, hget, Option.bind_some, hpnet]
      have hnone : (c.pinState port).constant? = none := by
        rwa [PinState.isTied, Option.not_isSome_iff_eq_none] at htied
      simp [hnone, hopen, invertsConstant, hget, hpnet]
  | some net =>
      -- An input on a constant net is tied to the constant, inverted or not.
      rw [hpnet] at hfold
      have hon : c.netOf port = some net := by rw [Cell.netOf, hget, Option.bind_some, hpnet]
      have hsignal := hstates p (hnamed.mem_inputPorts.mpr ⟨hname.symm ▸ hget, hdir⟩)
        (by rw [hpnet, Option.isSome_some])
      rw [hname, PinState.isTied, Option.not_isSome_iff_eq_none] at hsignal
      simp [hsignal, hon, invertsConstant, hget, hpnet, hdir, hfold, hv net value hfold]

/-- **One input.** A logical input reads the same after the pins of its cell were tied, but for an
inverted one on a constant net, which reads the opposite. -/
theorem inputBit_tieAll {c' : Cell}
    (hnet : ∀ pin, c'.netOf pin = (c.tieAll (d.pinsToTie c c.inputPorts)).netOf pin)
    (hstate : ∀ pin, c'.pinState pin = (c.tieAll (d.pinsToTie c c.inputPorts)).pinState pin)
    (hlut' : c'.lut = c'.lutSummary n) :
    c'.inputBit v k port = (c.inputBit v k port != d.invertsConstant c port) := by
  by_cases hmem : port ∈ (d.pinsToTie c c.inputPorts).map Prod.fst
  · obtain ⟨⟨pin, value⟩, hpin, rfl⟩ := List.mem_map.mp hmem
    rw [← inputBit_of_mem_pinsToTie hn hnamed hlut hstates hport hk hv hpin, Cell.inputBit, hstate,
      c.pinState_tieAll_of_mem (d.nodup_pinsToTie c hnamed.nodup_inputPorts) hpin,
      PinState.constant?_tied]
  · rw [invertsConstant_of_notMem hn hnamed hk hmem, Bool.bne_false, Cell.inputBit,
      Cell.inputBit, hlut, hlut', join_inputs_lutSummary c hport hk,
      join_inputs_lutSummary c' hport hk, hnet, hstate, c.pinState_tieAll_of_notMem hmem,
      Cell.netOf_tieAll, if_neg hmem]

end TiedInputs

/-! ### The function of the cell -/

/-- The inputs of a logic cell can be tied. The cell is the tied one then, with an up-to-date
summary of the same truth table. -/
theorem exists_run_applyPinDefaults_of_logic (hc : d.netlist.cell? id = some c)
    (hn : CellType.logicInputs? c.type = some n) (hnamed : c.Named)
    (hlut : c.lut = c.lutSummary n) :
    ∃ count d' c', (Edit.applyPinDefaults id).run d = (.ok count, d') ∧
      d'.netlist.cell? id = some c' ∧
      (∀ pin, c'.netOf pin = (c.tieAll (d.pinsToTie c c.inputPorts)).netOf pin) ∧
      (∀ pin, c'.pinState pin = (c.tieAll (d.pinsToTie c c.inputPorts)).pinState pin) ∧
      c'.lut = c'.lutSummary n ∧ c'.lut.table = c.lut.table := by
  obtain ⟨count, d', c', hrun, hc', h, hcurrent⟩ :=
    exists_tied hc hnamed ((upToDate_iff_of_logic hc hn).mpr hlut)
  have hlut' := (upToDate_iff_of_logic hc' (by rw [h.type, hn])).mp hcurrent
  refine ⟨count, d', c', hrun, hc', h.netOf, h.pinState, hlut', ?_⟩
  rw [hlut', hlut]
  show c'.truthTable n = c.truthTable n
  rw [Cell.truthTable, Cell.truthTable, h.type, h.params]

/-- Tying the inputs of an up-to-date logic cell gives it the function in which the inverted inputs
on constant nets are read the other way round. -/
theorem exists_output_tied (hc : d.netlist.cell? id = some c)
    (hn : CellType.logicInputs? c.type = some n) (hnamed : c.Named) (hcurrent : d.UpToDate id)
    (hstates : ∀ p ∈ c.inputPorts, p.net.isSome → ¬ (c.pinState p.name).isTied) :
    ∃ count d' c', (Edit.applyPinDefaults id).run d = (.ok count, d') ∧
      d'.netlist.cell? id = some c' ∧ ∀ v, d.Respects v →
        c'.output v = c.lut.table.testBit (ofBits (c.logicalInputs.map fun (port, k) =>
          c.inputBit v k port != d.invertsConstant c port)) := by
  have hlut := (upToDate_iff_of_logic hc hn).mp hcurrent
  obtain ⟨count, d', c', hrun, hc', hnet, hstate, hlut', htable⟩ :=
    exists_run_applyPinDefaults_of_logic hc hn hnamed hlut
  refine ⟨count, d', c', hrun, hc', fun v hv => ?_⟩
  have hcount : c'.lut.inputCount = c.lut.inputCount := by
    rw [hlut, hlut']
    rfl
  rw [Cell.output, htable, Cell.logicalInputs, hcount, ← Cell.logicalInputs]
  congr 2
  refine List.map_congr_left fun ⟨port, k⟩ hmem => ?_
  obtain ⟨hport, hk⟩ := getElem?_of_mem_logicalInputs hmem
  rw [hlut] at hk
  exact inputBit_tieAll hn hnamed hlut hstates hport hk hv hnet hstate hlut'

/-! ### A buffer of a constant -/

/-- A buffer of the first net, in some state of its input. -/
def buffer (name : Ident) (state : PinState) : Cell where
  name := name
  type := Known.bufGate
  ports := [(Known.a, ⟨Known.a, .input, some ⟨0⟩⟩)]
  pins := [(Known.a, { state := state })]

/-- A buffer of the zero net can be drawn, and there need be no other net. -/
theorem exists_drawnBuffer {selection : Selection} {d₀ : Device}
    (hbuilt : ofSelection selection = .ok d₀) (state : PinState) : ∃ d name zero, Reachable d₀ d ∧
      d.netlist.cell? ⟨0⟩ = some (buffer name state) ∧
      d.netlist.nets = #[{ name := zero, users := [⟨⟨0⟩, Known.a⟩] }] ∧
      d.interner.name? zero = some (Netlist.constNetName false) := by
  have hnetlist := (vacant_ofSelection hbuilt).netlist
  obtain ⟨name, d₁, h₁, hnl₁, -⟩ := Reachable.built.exists_addCell "buffer" Known.bufGate
  rw [hnetlist] at hnl₁
  obtain ⟨zero, d₂, h₂, hnl₂, hzero⟩ := h₁.exists_constNet false fun name => by
    rw [hnl₁]
    exact Std.HashMap.getElem?_empty
  rw [hnl₁] at hnl₂
  obtain ⟨d₃, h₃, hnl₃, -, hi₃⟩ := h₂.exists_addPort ⟨0⟩ (by rw [hnl₂]; rfl) Known.a .input
  rw [hnl₂] at hnl₃
  obtain ⟨d₄, h₄, hnl₄, -, hi₄⟩ := h₃.exists_connect ⟨0⟩ Known.a ⟨0⟩
    (by rw [hnl₃]; rfl)
  obtain ⟨d₅, h₅, hnl₅, -, hi₅⟩ := h₄.exists_setPinState ⟨0⟩ (by rw [hnl₄]; rfl) Known.a state
  rw [hnl₄] at hnl₅
  refine ⟨d₅, name, zero, h₅, ?_, ?_, ?_⟩
  · rw [hnl₅]
    rfl
  · rw [hnl₅]
    rfl
  · rw [hi₅, hi₄, hi₃, hzero]

/-- The constants in a design with one net. -/
theorem constValue?_of_nets {n : Net} (hnets : d.netlist.nets = #[n]) (net : NetId) :
    d.constValue? net =
      if net = ⟨0⟩ then Netlist.constOfName? (d.nameOf n.name) else none := by
  obtain ⟨_ | index⟩ := net
  · simp [constValue?, Netlist.net?, hnets]
  · simp [constValue?, Netlist.net?, hnets]

/-- A buffer of the zero net can be drawn and derived. -/
theorem exists_zeroBuffer (state : PinState) : ∃ d₀ d name, ofSelection (.ofGrid 3 2) = .ok d₀ ∧
    Reachable d₀ d ∧ d.netlist.cell? ⟨0⟩ =
      some { buffer name state with lut := (buffer name state).lutSummary 1 } ∧
    d.UpToDate ⟨0⟩ ∧ d.Respects (fun _ => false) ∧ d.constValue? ⟨0⟩ = some false := by
  obtain ⟨d₀, hbuilt, -⟩ := exists_ofSelection chip_smallestGrid
  obtain ⟨d, name, zero, hreach, hcell, hnets, hzero⟩ := exists_drawnBuffer hbuilt state
  have hderive := Edit.run_deriveCell_of_logic hcell (n := 1) rfl
  have hconst (net : NetId) : ((Edit.deriveCell ⟨0⟩).run d).2.constValue? net =
      if net = ⟨0⟩ then some false else none := by
    rw [hderive]
    refine (constValue?_of_nets hnets net).trans ?_
    rw [nameOf, Interner.name, hzero]
    rfl
  refine ⟨d₀, _, name, hbuilt, hreach.step (.deriveCell ⟨0⟩), ?_, upToDate_deriveCell hcell, ?_,
    hconst ⟨0⟩⟩
  · show ((Edit.deriveCell ⟨0⟩).run d).2.netlist.cell? ⟨0⟩ = _
    rw [hderive, Netlist.cell?_modifyCell, if_pos rfl, hcell, Option.map_some]
  · intro net value hvalue
    exact Option.some.inj (Option.ite_none_right_eq_some.mp ((hconst net).symm.trans hvalue)).2

/-- The states of the buffer's pins are those of its input and no others. -/
theorem pinState_buffer (name : Ident) (state : PinState) (port : Ident) :
    (buffer name state).pinState port = if Known.a = port then state else .signal := by
  show (((if Known.a = port then some _ else none : Option PinMap)).getD {}).state = _
  split <;> rfl

/-- The one input of a buffer is not tied if the state that it was given is not a tied one. -/
theorem not_isTied_buffer {name : Ident} {state : PinState} (hstate : ¬ state.isTied) (n : Nat) :
    ∀ p ∈ ({ buffer name state with lut := (buffer name state).lutSummary n } : Cell).inputPorts,
      p.net.isSome → ¬ ((buffer name state).pinState p.name).isTied := by
  intro p hp _
  obtain rfl : p = ⟨Known.a, .input, some ⟨0⟩⟩ := List.mem_singleton.mp hp
  rwa [pinState_buffer, if_pos rfl]

/-- The truth table of a buffer has the value of its input. -/
theorem testBit_bufferTable (name : Ident) (state : PinState) (b : Bool) :
    (((buffer name state).lutSummary 1).table).testBit (ofBits [b]) = b := by
  have htable : ((buffer name state).lutSummary 1).table = 0b10 := by
    show (buffer name state).truthTable 1 = 0b10
    rw [Cell.truthTable, show (buffer name state).type = Known.bufGate from rfl,
      if_neg (by decide), if_pos rfl]
  rw [htable]
  cases b <;> rfl

/-! ### Tying the inputs -/

/-- **Tying the inputs of a logic cell.** On a built device, whatever was done before, the inputs of
an up-to-date logic cell can be tied if those on nets are not tied. For all values of the nets the
output is then what it was for inputs of which the inverted ones on constant nets are read the other
way round. So the function is kept if there are none. -/
theorem output_applyPinDefaults {selection : Selection} {d₀ : Device}
    (hbuilt : ofSelection selection = .ok d₀) (hreach : Reachable d₀ d)
    (hc : d.netlist.cell? id = some c) (hn : CellType.logicInputs? c.type = some n)
    (hcurrent : d.UpToDate id)
    (hstates : ∀ p ∈ c.inputPorts, p.net.isSome → ¬ (c.pinState p.name).isTied) :
    ∃ count d' c', (Edit.applyPinDefaults id).run d = (.ok count, d') ∧
      d'.netlist.cell? id = some c' ∧ ∀ v, d.Respects v →
        c'.output v = c.lut.table.testBit (ofBits (c.logicalInputs.map fun (port, k) =>
          c.inputBit v k port != d.invertsConstant c port)) ∧
        ((∀ port, d.invertsConstant c port = false) → c'.output v = c.output v) := by
  have hnamed := ((hreach.consistent hbuilt).made id c hc).named
  obtain ⟨count, d', c', hrun, hc', houtput⟩ :=
    exists_output_tied hc hn hnamed hcurrent hstates
  refine ⟨count, d', c', hrun, hc', fun v hv => ⟨houtput v hv, fun hnone => ?_⟩⟩
  rw [houtput v hv, Cell.output]
  congr 2
  refine List.map_congr_left fun ⟨port, k⟩ _ => ?_
  show (c.inputBit v k port != d.invertsConstant c port) = c.inputBit v k port
  rw [hnone, Bool.bne_false]

/-- Tying the input of a buffer of the zero net keeps its output. -/
theorem output_applyPinDefaults_buffer : ∃ d₀ d c count d' c', ofSelection (.ofGrid 3 2) = .ok d₀ ∧
    Reachable d₀ d ∧ d.netlist.cell? ⟨0⟩ = some c ∧ c.pinState Known.a = .signal ∧
    d.UpToDate ⟨0⟩ ∧ d.Respects (fun _ => false) ∧
    (Edit.applyPinDefaults ⟨0⟩).run d = (.ok count, d') ∧ d'.netlist.cell? ⟨0⟩ = some c' ∧
    c'.output (fun _ => false) = c.output (fun _ => false) := by
  obtain ⟨d₀, d, name, hbuilt, hreach, hc, hcurrent, hv, -⟩ := exists_zeroBuffer .signal
  obtain ⟨count, d', c', hrun, hc', houtput⟩ := output_applyPinDefaults hbuilt hreach hc
    (n := 1) rfl hcurrent (not_isTied_buffer (by decide) 1)
  refine ⟨d₀, d, _, count, d', c', hbuilt, hreach, hc, rfl, hcurrent, hv, hrun, hc', ?_⟩
  refine (houtput _ hv).2 fun port => ?_
  have hsignal : (buffer name .signal).pinState port = .signal := by
    rw [pinState_buffer, ite_self]
  show (decide ((buffer name .signal).pinState port = .inverted) && _) = false
  rw [hsignal]
  rfl

/-- **An inverted input on a constant net.** A buffer whose input is inverted and on the zero net
has the output one, and the output zero after its input was tied. -/
theorem output_changed : ∃ d₀ d c count d' c', ofSelection (.ofGrid 3 2) = .ok d₀ ∧
    Reachable d₀ d ∧ d.netlist.cell? ⟨0⟩ = some c ∧ c.pinState Known.a = .inverted ∧
    (∀ p ∈ c.inputPorts, p.net.isSome → ¬ (c.pinState p.name).isTied) ∧
    d.UpToDate ⟨0⟩ ∧ d.Respects (fun _ => false) ∧
    (Edit.applyPinDefaults ⟨0⟩).run d = (.ok count, d') ∧ d'.netlist.cell? ⟨0⟩ = some c' ∧
    c.output (fun _ => false) = true ∧ c'.output (fun _ => false) = false := by
  obtain ⟨d₀, d, name, hbuilt, hreach, hc, hcurrent, hv, hzero⟩ := exists_zeroBuffer .inverted
  have hnamed := ((hreach.consistent hbuilt).made ⟨0⟩ _ hc).named
  have hstates := @not_isTied_buffer name .inverted (by decide) 1
  obtain ⟨count, d', c', hrun, hc', houtput⟩ :=
    exists_output_tied hc (n := 1) rfl hnamed hcurrent hstates
  refine ⟨d₀, d, _, count, d', c', hbuilt, hreach, hc, rfl, hstates, hcurrent, hv, hrun, hc',
    testBit_bufferTable name .inverted true, ?_⟩
  -- The input reads the inverse of zero, and the opposite of that once it is tied.
  have hinverts : d.invertsConstant (buffer name .inverted) Known.a = true := by
    show (d.constValue? ⟨0⟩).isSome = true
    rw [hzero, Option.isSome_some]
  rw [houtput _ hv]
  show (((buffer name .inverted).lutSummary 1).table).testBit
    (ofBits [true != d.invertsConstant (buffer name .inverted) Known.a]) = false
  rw [hinverts]
  exact testBit_bufferTable name .inverted false

end Device

end Fabric
