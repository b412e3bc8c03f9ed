import Fabric.Proofs.DesignRun

/-!
# Pins that are settled

An input of a cell *takes a constant* if it carries no real signal and its style gives it one; it is
*settled* if it takes none: it is on a net that its style does not fold, or open and tied, or open
with a style that leaves it so. Tying the inputs of a cell gives each of them the constant that it
takes. All are settled then, as what an input takes depends on its own net and state, so tying them
again finds nothing to do.

What is done on the way is seen in two ways. `SparesOthers` is what every step of the call leaves
alone, whatever the netlist. That the drivers of the nets and the ports of other cells stay where
they are follows from the two records of each connection, which agree before and after: only inputs
were taken off their nets, and no input drives one.

## Main results

* `foldedPin?_eq_some_iff`, `foldedPin?_eq_none_iff`: an input takes a constant or is settled;
* `Edit.spares_applyPinDefaults`: what the call leaves alone;
* `exists_run_applyPinDefaults`: what it does to its cell;
* `DesignRun.applyPinDefaults_settles`: in every run of a design it settles the inputs of a cell.
-/

namespace Fabric

/-- Whether a pin may be tied to a constant. -/
def PinStyle.mayTie (s : PinStyle) : Bool → Bool
  | false => s.tieLow
  | true => s.tieHigh

/-! ### Inputs that take a constant -/

namespace Device

/-- An input takes a constant: nothing is connected and it is not tied yet, and the constant is that
of an unused pin; or it is on the net of the constant and may be tied to it. -/
inductive Takes (d : Device) (c : Cell) (p : Port) (value : Bool) : Prop where
  | unused (hnet : p.net = none) (hfree : (c.pinState p.name).isTied = false)
      (hunused : (PinStyle.ofCellPin c.type p.name).unused = some value)
  | const {net : NetId} (hnet : p.net = some net) (hconst : d.constValue? net = some value)
      (hmay : (PinStyle.ofCellPin c.type p.name).mayTie value = true)

/-- An input is settled: it is on a net that its style does not fold, or it is open, and tied or
left open by its style. -/
inductive Settled (d : Device) (c : Cell) (p : Port) : Prop where
  | signal {net : NetId} (hnet : p.net = some net)
      (hkeep : ∀ value, d.constValue? net = some value →
      (PinStyle.ofCellPin c.type p.name).mayTie value = false)
  | tied (hnet : p.net = none) (htied : (c.pinState p.name).isTied = true)
  | leftOpen (hnet : p.net = none) (hunused : (PinStyle.ofCellPin c.type p.name).unused = none)

variable {d d' : Device} {c c' : Cell} {p : Port}

/-- An open pin takes the value of its style, unless it is tied already. -/
theorem foldedPin?_of_open (hnet : p.net = none) : d.foldedPin? c p =
    if (c.pinState p.name).isTied then none else (PinStyle.ofCellPin c.type p.name).unused := by
  rw [foldedPin?, hnet]

/-- A connected pin is tied to the value of its net if that is constant and the style allows it. -/
theorem foldedPin?_of_net {net : NetId} (hnet : p.net = some net) : d.foldedPin? c p =
    (d.constValue? net).filter (PinStyle.ofCellPin c.type p.name).mayTie := by
  rw [foldedPin?, hnet]
  dsimp only
  rcases d.constValue? net with _ | _ | _ <;> rfl

/-- The pin is folded to the value that the rule for it names. -/
theorem foldedPin?_eq_some_iff {value : Bool} :
    d.foldedPin? c p = some value ↔ d.Takes c p value := by
  constructor
  · intro h
    cases hnet : p.net with
    | none =>
      rw [foldedPin?_of_open hnet, Option.ite_none_left_eq_some, Bool.not_eq_true] at h
      exact .unused hnet h.1 h.2
    | some net =>
      rw [foldedPin?_of_net hnet, Option.filter_eq_some_iff] at h
      exact .const hnet h.1 h.2
  · intro h
    cases h with
    | unused hnet hfree hunused =>
      rw [foldedPin?_of_open hnet, hfree, if_neg Bool.false_ne_true, hunused]
    | const hnet hconst hmay => rw [foldedPin?_of_net hnet, hconst, Option.filter_some, if_pos hmay]

/-- A pin is left alone exactly when it is settled. -/
theorem foldedPin?_eq_none_iff : d.foldedPin? c p = none ↔ d.Settled c p := by
  constructor
  · intro h
    cases hnet : p.net with
    | none =>
      rw [foldedPin?_of_open hnet] at h
      split at h
      · exact .tied hnet ‹_›
      · exact .leftOpen hnet h
    | some net =>
      rw [foldedPin?_of_net hnet, Option.filter_eq_none_iff] at h
      exact .signal hnet fun value hconst => Bool.eq_false_iff.mpr (h value hconst)
  · intro h
    cases h with
    | signal hnet hkeep =>
      rw [foldedPin?_of_net hnet, Option.filter_eq_none_iff]
      exact fun value hconst => Bool.eq_false_iff.mp (hkeep value hconst)
    | tied hnet htied => rw [foldedPin?_of_open hnet, if_pos htied]
    | leftOpen hnet hunused => rw [foldedPin?_of_open hnet, hunused, ite_self]

/-- An input that is settled stays so, as far as it depends on the cell and the nets. -/
theorem Settled.congr (h : d.Settled c p) (htype : c'.type = c.type)
    (hstate : c'.pinState p.name = c.pinState p.name)
    (hconst : ∀ net, p.net = some net → d'.constValue? net = d.constValue? net) :
    d'.Settled c' p := by
  cases h with
  | signal hnet hkeep =>
    refine .signal hnet fun value hvalue => ?_
    rw [htype]
    exact hkeep value ((hconst _ hnet).symm.trans hvalue)
  | tied hnet htied => exact .tied hnet (hstate ▸ htied)
  | leftOpen hnet hunused => exact .leftOpen hnet (htype ▸ hunused)

end Device

/-! ### What tying pins does to a cell -/

namespace Cell

/-- Tying a pin takes the net off its port and touches no other port. -/
theorem get?_ports_tie (c : Cell) (pin other : Ident) (value : Bool) :
    (c.tie pin value).ports.get? other =
      if pin = other then (c.ports.get? other).map fun p => { p with net := none }
      else c.ports.get? other := by
  show (c.setNet pin none).ports.get? other = _
  cases hp : c.ports.get? pin with
  | some p =>
    rw [Netlist.get?_ports_setNet hp]
    split
    · rename_i heq
      rw [← heq, hp, Option.map_some]
    · rfl
  | none =>
    rw [setNet_none_of_netOf (by rw [netOf, hp, Option.bind_none])]
    split
    · rename_i heq
      rw [← heq, hp, Option.map_none]
    · rfl

/-- Tying a pin neither adds nor removes a port. -/
theorem keys_ports_tie (c : Cell) (pin : Ident) (value : Bool) :
    (c.tie pin value).ports.keys = c.ports.keys := by
  show (c.setNet pin none).ports.keys = _
  rw [setNet]
  split
  · rfl
  · rename_i p hp
    rw [Table.keys_insert, if_pos ((Table.get?_isSome_iff _ _).mp (by rw [hp, Option.isSome_some]))]

/-- Tying a pin does not move any pin of the site. -/
theorem sitePins_tie (c : Cell) (pin other : Ident) (value : Bool) :
    (c.tie pin value).sitePins other = c.sitePins other := by
  have hpins : (c.setNet pin none).pins = c.pins := by
    rw [setNet]
    split <;> rfl
  rw [sitePins, tie, setPinState, Table.get?_update, hpins]
  split
  · rename_i heq
    rw [← heq]
    rfl
  · rfl

/-- Tying a pin changes the ports and the pins of a cell. -/
theorem tie_eq (c : Cell) (pin : Ident) (value : Bool) :
    ∃ ports pins, c.tie pin value = { c with ports := ports, pins := pins } := by
  rw [tie, setPinState, setNet]
  split
  · exact ⟨_, _, rfl⟩
  · exact ⟨_, _, rfl⟩

/-- Two cells differ in the nets of their ports and in the states of their pins at most. -/
structure SameButNets (c c' : Cell) : Prop where
  record : ∃ ports pins, c' = { c with ports := ports, pins := pins }
  keys : c'.ports.keys = c.ports.keys
  sitePins : ∀ pin, c'.sitePins pin = c.sitePins pin

/-- Tied pins change a cell in its nets and pin states only. -/
theorem sameButNets_tieAll (c : Cell) (pins : List (Ident × Bool)) :
    c.SameButNets (c.tieAll pins) := by
  induction pins generalizing c with
  | nil => exact ⟨⟨_, _, rfl⟩, rfl, fun _ => rfl⟩
  | cons first rest ih =>
    obtain ⟨ports, pins, htie⟩ := c.tie_eq first.1 first.2
    obtain ⟨⟨ports', pins', hrecord⟩, hkeys, hsitePins⟩ := ih (c.tie first.1 first.2)
    refine ⟨⟨ports', pins', ?_⟩, hkeys.trans (c.keys_ports_tie ..), fun pin => ?_⟩
    · show (c.tie first.1 first.2).tieAll rest = _
      rw [htie] at hrecord ⊢
      exact hrecord
    · exact (hsitePins pin).trans (c.sitePins_tie ..)

/-- The tied ports lose their nets, the others stay as they were. -/
theorem get?_ports_tieAll (c : Cell) (pins : List (Ident × Bool)) (port : Ident) :
    (c.tieAll pins).ports.get? port =
      if port ∈ pins.map Prod.fst then (c.ports.get? port).map fun p => { p with net := none }
      else c.ports.get? port := by
  induction pins generalizing c with
  | nil => rfl
  | cons first rest ih =>
    refine (ih (c.tie first.1 first.2)).trans ?_
    simp only [get?_ports_tie, List.map_cons, List.mem_cons]
    by_cases hfirst : first.1 = port
    · simp [hfirst, Function.comp_def]
    · simp [hfirst, Ne.symm hfirst]

/-- A pin of a cell is taken off: it is on no net, and tied to a constant. -/
def tiedOff (c : Cell) (pin : Ident) : Bool := (c.netOf pin).isNone && (c.pinState pin).isTied

end Cell

/-! ### What the call leaves alone -/

namespace Device

/-- A model has changed in the ports and pins of one cell, in the lists of ports of its nets, and by
names and the zero net, which are added if they are not there. -/
structure SparesOthers (id : CellId) (d d' : Device) : Prop where
  rest : d' = { d with netlist := d'.netlist, interner := d'.interner }
  name : ∀ i s, d.interner.name? i = some s → d'.interner.name? i = some s
  cell : ∀ other, other ≠ id → d'.netlist.cell? other = d.netlist.cell? other
  net : ∀ net n, d.netlist.net? net = some n →
    ∃ n', d'.netlist.net? net = some n' ∧ n'.name = n.name ∧ n'.isGlobal = n.isGlobal
  fresh : ∀ net n, d.netlist.net? net = none → d'.netlist.net? net = some n →
    d'.interner.name? n.name = some Netlist.zeroNetName

namespace SparesOthers

variable {id : CellId} {d d' d'' : Device}

protected theorem trans (h : d.SparesOthers id d') (h' : d'.SparesOthers id d'') :
    d.SparesOthers id d'' where
  rest := by
    rw [h'.rest, h.rest]
  name i s hs := h'.name i s (h.name i s hs)
  cell other hne := (h'.cell other hne).trans (h.cell other hne)
  net net n hn := by
    obtain ⟨mid, hmid, hname, hglobal⟩ := h.net net n hn
    obtain ⟨n', hn', hname', hglobal'⟩ := h'.net net mid hmid
    exact ⟨n', hn', hname'.trans hname, hglobal'.trans hglobal⟩
  fresh net n hnone hn := by
    cases hmid : d'.netlist.net? net with
    | none => exact h'.fresh net n hmid hn
    | some mid =>
      obtain ⟨n', hn', hname, -⟩ := h'.net net mid hmid
      obtain rfl := Option.some.inj (hn.symm.trans hn')
      rw [hname]
      exact h'.name _ _ (h.fresh net mid hnone hmid)

/-- A change of the netlist that leaves the nets as they are, but for their lists of ports. -/
theorem of_netlist {nl : Netlist}
    (hcell : ∀ other, other ≠ id → nl.cell? other = d.netlist.cell? other)
    (hnet : ∀ net, (nl.net? net).map (fun n => (n.name, n.isGlobal)) =
      (d.netlist.net? net).map fun n => (n.name, n.isGlobal)) :
    d.SparesOthers id { d with netlist := nl } := by
  refine ⟨rfl, fun _ _ h => h, hcell, fun net n hn => ?_, fun net n hnone hn => ?_⟩
  · have hsame := hnet net
    rw [hn, Option.map_some, Option.map_eq_some_iff] at hsame
    obtain ⟨n', hn', heq⟩ := hsame
    exact ⟨n', hn', congrArg Prod.fst heq, congrArg Prod.snd heq⟩
  · have hsame := hnet net
    rw [hnone, Option.map_none, Option.map_eq_none_iff] at hsame
    rw [show nl.net? net = some n from hn] at hsame
    cases hsame

instance (id : CellId) : IsPreorder Device (Device.SparesOthers id) where
  refl _ := of_netlist (fun _ _ => rfl) fun _ => rfl
  trans _ _ _ := SparesOthers.trans

end SparesOthers

end Device

namespace Edit

open Device (SparesOthers)

variable {id : CellId}

/-- Asking for a cell spares every cell. -/
theorem spares_requireCell (other : CellId) : (requireCell other).Keeps (SparesOthers id) :=
  .bind .get fun _ => .require _ _

/-- A change to one cell spares the others. -/
theorem spares_modifyCell (f : Cell → Cell) : (modifyCell id f).Keeps (SparesOthers id) := by
  refine .bind (spares_requireCell id) fun _ => .modify fun d =>
    .of_netlist (fun other hne => ?_) fun _ => rfl
  rw [Netlist.cell?_modifyCell, if_neg (Ne.symm hne)]

/-- The zero net is found or added. -/
theorem spares_constNet : (constNet false).Keeps (SparesOthers id) := by
  intro d
  refine ⟨rfl, fun i s hs => Interner.name?_intern hs _, fun other _ => ?_, fun net n hn => ?_,
    fun net n hnone hn => ?_⟩
  · exact congrFun (d.cell?_withConstNet false) other
  · exact ⟨n, Netlist.net?_constNet_of_net? hn _, rfl, rfl⟩
  · have hzero : (d.interner.intern Netlist.zeroNetName).2.name?
        (d.interner.intern Netlist.zeroNetName).1 = some Netlist.zeroNetName :=
          Interner.name?_intern_self _ _
    have hn : (d.netlist.constNet (d.interner.intern Netlist.zeroNetName).1).2.net? net = some n :=
      hn
    rw [Netlist.constNet] at hn
    split at hn
    · rw [hnone] at hn
      cases hn
    · rw [Netlist.net?_addNet, hnone, Option.ite_none_right_eq_some] at hn
      rw [← Option.some.inj hn.2]
      exact hzero

/-- Deriving a cell stores a summary for it and connects none of the others. -/
theorem spares_deriveCell : (deriveCell id).Keeps (SparesOthers id) := by
  refine .bind (spares_requireCell id) fun cell => ?_
  split
  · refine .bind (spares_requireCell id) fun cell => ?_
    cases CellType.logicInputs? cell.type with
    | none => exact .bind .get fun _ => .throw _
    | some n => exact spares_modifyCell _
  split
  · refine .bind (spares_requireCell id) fun cell => ?_
    dsimp only
    split
    · exact .bind (.map some spares_constNet) fun _ => spares_modifyCell _
    · exact .bind (.pure none) fun _ => spares_modifyCell _
  · exact .pure _

/-- Folding a pin concerns its own cell. -/
theorem spares_foldPin (p : Port) : (foldPin id p).Keeps (SparesOthers id) := by
  refine .bind (spares_requireCell id) fun cell => .bind .get fun d => ?_
  cases d.foldedPin? cell p with
  | none => exact .pure false
  | some value =>
    refine .bind (.modify fun d => .of_netlist (fun other hne => ?_) fun net => ?_) fun _ => ?_
    · rw [Netlist.cell?_disconnect, if_neg (Ne.symm hne)]
    · rw [Netlist.disconnect]
      split
      · rfl
      · exact Netlist.map_net?_modifyNet _ _ net fun _ => rfl
    · exact .bind (spares_modifyCell _) fun _ => .pure true

/-- Tying the inputs of a cell spares the other cells, and all of a net but its list of ports. -/
theorem spares_applyPinDefaults (id : CellId) : (applyPinDefaults id).Keeps (SparesOthers id) := by
  refine .bind (spares_requireCell id) fun cell =>
    .bind (.mapM fun p _ => spares_foldPin p) fun tied => ?_
  dsimp only
  split
  · exact .bind spares_deriveCell fun _ => .pure _
  · exact .pure _

end Edit

/-! ### What the call does to its cell -/

namespace Device

variable {d : Device} {id : CellId} {c : Cell}

/-- Deriving a cell gives it a summary. -/
theorem cell?_deriveCell (hc : d.netlist.cell? id = some c) : ∃ lut flipFlop,
    ((Edit.deriveCell id).run d).2.netlist.cell? id =
      some { c with lut := lut, flipFlop := flipFlop } := by
  cases hn : CellType.logicInputs? c.type with
  | some n =>
    refine ⟨c.lutSummary n, c.flipFlop, ?_⟩
    rw [Edit.run_deriveCell_of_logic hc hn, Netlist.cell?_modifyCell, if_pos rfl, hc,
      Option.map_some]
  | none =>
    by_cases htype : c.type = Known.flipFlop
    · refine ⟨c.lut, c.flipFlopSummary (d.withLoadNet c).1, ?_⟩
      rw [Edit.run_deriveCell_of_flipFlop hc htype, cell?_withFlipFlop d hc]
    · refine ⟨c.lut, c.flipFlop, ?_⟩
      rw [Edit.run_deriveCell_of_other hc hn htype, hc]

/-- The call ties the pins that are to be tied, and derives the summary of the cell if there are
any. Nets that exist carry what they did. -/
theorem exists_run_applyPinDefaults (hc : d.netlist.cell? id = some c) (hnamed : c.Named)
    (hclosed : d.netlist.Closed d.interner) : ∃ d' lut flipFlop,
      (Edit.applyPinDefaults id).run d = (.ok (d.pinsToTie c c.inputPorts).length, d') ∧
      d'.netlist.cell? id = some { c.tieAll (d.pinsToTie c c.inputPorts) with
        lut := lut, flipFlop := flipFlop } ∧
      (∀ net, (d.netlist.net? net).isSome → d'.constValue? net = d.constValue? net) ∧
      if d.pinsToTie c c.inputPorts = [] then d' = d else d'.UpToDate id := by
  have hrun := Edit.run_applyPinDefaults hc hnamed
  by_cases hpins : d.pinsToTie c c.inputPorts = []
  · rw [if_pos hpins] at hrun
    refine ⟨d, c.lut, c.flipFlop, hrun, ?_, fun _ _ => rfl, by rw [if_pos hpins]⟩
    rw [hpins]
    exact hc
  · rw [if_neg hpins] at hrun
    have htied : (d.tieAll id (d.pinsToTie c c.inputPorts)).netlist.cell? id =
        some (c.tieAll (d.pinsToTie c c.inputPorts)) := by
      rw [cell?_tieAll, if_pos rfl, hc, Option.map_some]
    obtain ⟨d', c', hderive, -, -, hconst⟩ := deriveCell_spec htied
    obtain ⟨lut, flipFlop, hc'⟩ := cell?_deriveCell htied
    refine ⟨_, lut, flipFlop, hrun, hc', fun net hnet => ?_, ?_⟩
    · rw [← isSome_net?_tieAll d id (d.pinsToTie c c.inputPorts)] at hnet
      rw [hderive, hconst (closed_tieAll hclosed id _) net hnet, constValue?_tieAll]
    · rw [if_neg hpins]
      exact upToDate_deriveCell htied

end Device

/-! ### Inputs and other ports after the call -/

section Ports

variable {d : Device} {c : Cell} {p : Port} {pin : Ident}

/-- The input under a name is one of the inputs of the cell. -/
theorem Cell.Named.eq_of_mem_inputPorts (h : c.Named) {q : Port} (hq : q ∈ c.inputPorts)
    (hp : c.ports.get? q.name = some p) : q = p :=
  Option.some.inj ((h.mem_inputPorts.mp hq).1.symm.trans hp)

/-- The net of a pin is that of the port of its name. -/
theorem Cell.netOf_of_get? (hp : c.ports.get? pin = some p) : c.netOf pin = p.net := by
  rw [netOf, hp, Option.bind_some]

namespace Device

/-- A pin is tied exactly when an input of its name folds to a constant. -/
theorem mem_map_pinsToTie {inputs : List Port} : pin ∈ (d.pinsToTie c inputs).map Prod.fst ↔
    ∃ p ∈ inputs, p.name = pin ∧ (d.foldedPin? c p).isSome := by
  simp only [List.mem_map, Prod.exists, mem_pinsToTie, Option.isSome_iff_exists]
  constructor
  · rintro ⟨_, value, ⟨p, hp, rfl, hvalue⟩, rfl⟩
    exact ⟨p, hp, rfl, value, hvalue⟩
  · rintro ⟨p, hp, rfl, value, hvalue⟩
    exact ⟨_, value, ⟨p, hp, rfl, hvalue⟩, rfl⟩

/-- An input is tied if and only if it takes a constant. -/
theorem name_mem_pinsToTie_iff (h : c.Named) (hp : p ∈ c.inputPorts) :
    p.name ∈ (d.pinsToTie c c.inputPorts).map Prod.fst ↔ (d.foldedPin? c p).isSome := by
  rw [mem_map_pinsToTie]
  constructor
  · rintro ⟨q, hq, hname, hsome⟩
    have hget := (h.mem_inputPorts.mp hp).1
    rw [← hname] at hget
    rwa [h.eq_of_mem_inputPorts hq hget] at hsome
  · exact fun hsome => ⟨p, hp, rfl, hsome⟩

/-- A pin that is no input of the cell is not tied. -/
theorem notMem_map_pinsToTie (h : c.Named)
    (hpin : ∀ p, c.ports.get? pin = some p → p.dir ≠ .input) :
    pin ∉ (d.pinsToTie c c.inputPorts).map Prod.fst := by
  rw [mem_map_pinsToTie]
  rintro ⟨q, hq, rfl, -⟩
  obtain ⟨hget, hdir⟩ := h.mem_inputPorts.mp hq
  exact hpin q hget hdir

/-- An input takes its constant and is tied to it, or is settled and stays as it is. -/
theorem tieAll_input (h : c.Named) (hp : p ∈ c.inputPorts) :
    (∃ value, d.Takes c p value ∧
      (c.tieAll (d.pinsToTie c c.inputPorts)).ports.get? p.name = some { p with net := none } ∧
      (c.tieAll (d.pinsToTie c c.inputPorts)).pinState p.name = .tied value) ∨
    (d.Settled c p ∧ (c.tieAll (d.pinsToTie c c.inputPorts)).ports.get? p.name = some p ∧
      (c.tieAll (d.pinsToTie c c.inputPorts)).pinState p.name = c.pinState p.name) := by
  have hget := (h.mem_inputPorts.mp hp).1
  have hmem := name_mem_pinsToTie_iff (d := d) h hp
  rw [Cell.get?_ports_tieAll, hget]
  cases hfold : d.foldedPin? c p with
  | some value =>
    rw [hfold] at hmem
    refine .inl ⟨value, foldedPin?_eq_some_iff.mp hfold, if_pos (hmem.mpr rfl), ?_⟩
    exact c.pinState_tieAll_of_mem (nodup_pinsToTie d c h.nodup_inputPorts)
      (mem_pinsToTie.mpr ⟨p, hp, rfl, hfold⟩)
  | none =>
    rw [hfold] at hmem
    have hnot := mt hmem.mp Bool.false_ne_true
    exact .inr ⟨foldedPin?_eq_none_iff.mp hfold, if_neg hnot, c.pinState_tieAll_of_notMem hnot⟩

/-- A pin that is no input stays as it is. -/
theorem tieAll_other (h : c.Named) (hpin : ∀ p, c.ports.get? pin = some p → p.dir ≠ .input) :
    (c.tieAll (d.pinsToTie c c.inputPorts)).ports.get? pin = c.ports.get? pin ∧
      (c.tieAll (d.pinsToTie c c.inputPorts)).pinState pin = c.pinState pin := by
  have hnot := notMem_map_pinsToTie (d := d) h hpin
  exact ⟨(c.get?_ports_tieAll _ pin).trans (if_neg hnot), c.pinState_tieAll_of_notMem hnot⟩

/-- No port but an input is taken off its net, and no other port comes in its place. -/
theorem get?_ports_tieAll_iff (h : c.Named) (hdir : p.dir ≠ .input) :
    (c.tieAll (d.pinsToTie c c.inputPorts)).ports.get? pin = some p ↔
    c.ports.get? pin = some p := by
  rw [Cell.get?_ports_tieAll]
  split
  · rename_i hmem
    obtain ⟨q, hq, rfl, -⟩ := mem_map_pinsToTie.mp hmem
    obtain ⟨hget, hinput⟩ := h.mem_inputPorts.mp hq
    rw [hget, Option.map_some]
    refine iff_of_false ?_ ?_
    all_goals
      rintro ⟨⟩
      exact hdir hinput
  · exact Iff.rfl

/-- An input that took a constant is open and tied, and was not before. No other
input is of that kind. -/
theorem isSome_foldedPin?_iff (h : c.Named) (hp : p ∈ c.inputPorts) : (d.foldedPin? c p).isSome ↔
    ((c.tieAll (d.pinsToTie c c.inputPorts)).tiedOff p.name && !c.tiedOff p.name) = true := by
  have hnet := Cell.netOf_of_get? (h.mem_inputPorts.mp hp).1
  rcases tieAll_input (d := d) h hp with ⟨value, htakes, hget, hstate⟩ | ⟨hsettled, hget, hstate⟩
  · have hafter : (c.tieAll (d.pinsToTie c c.inputPorts)).tiedOff p.name = true := by
      rw [Cell.tiedOff, Cell.netOf_of_get? hget, hstate]
      cases value <;> rfl
    have hbefore : c.tiedOff p.name = false := by
      rw [Cell.tiedOff, hnet]
      cases htakes with
      | unused hopen hfree => rw [hfree, Bool.and_false]
      | const hon => rw [hon, Option.isNone_some, Bool.false_and]
    rw [foldedPin?_eq_some_iff.mpr htakes, hafter, hbefore]
    exact Iff.rfl
  · have hsame : (c.tieAll (d.pinsToTie c c.inputPorts)).tiedOff p.name = c.tiedOff p.name := by
      rw [Cell.tiedOff, Cell.tiedOff, Cell.netOf_of_get? hget, hnet, hstate]
    rw [foldedPin?_eq_none_iff.mpr hsettled, hsame, Bool.and_not_self]
    exact Iff.rfl

/-- As many pins are tied as inputs are open and tied that were not before. -/
theorem length_pinsToTie (h : c.Named) : (d.pinsToTie c c.inputPorts).length =
    c.inputPorts.countP fun p =>
      (c.tieAll (d.pinsToTie c c.inputPorts)).tiedOff p.name && !c.tiedOff p.name := by
  rw [pinsToTie, List.length_filterMap_eq_countP]
  refine List.countP_congr fun p hp => ?_
  rw [Option.isSome_map]
  exact isSome_foldedPin?_iff h hp

/-- All inputs are settled on a cell on which those that take a constant were tied. -/
theorem settled_tieAll {d' : Device} {c' : Cell} (h : c.Named) (h' : c'.Named)
    (htype : c'.type = c.type) (hports : c'.ports = (c.tieAll (d.pinsToTie c c.inputPorts)).ports)
    (hpins : c'.pins = (c.tieAll (d.pinsToTie c c.inputPorts)).pins)
    (hconst : ∀ p ∈ c.inputPorts, ∀ net,
      p.net = some net → d'.constValue? net = d.constValue? net) :
    ∀ p ∈ c'.inputPorts, d'.Settled c' p := by
  intro p' hp'
  obtain ⟨hget', hdir'⟩ := h'.mem_inputPorts.mp hp'
  have hstate (pin : Ident) : c'.pinState pin =
      (c.tieAll (d.pinsToTie c c.inputPorts)).pinState pin := by
    rw [Cell.pinState, hpins, Cell.pinState]
  have hget := hget'
  rw [hports, Cell.get?_ports_tieAll] at hget
  obtain ⟨p, hp, hname⟩ : ∃ p ∈ c.inputPorts, p.name = p'.name := by
    split at hget
    · obtain ⟨p, hp, rfl⟩ := Option.map_eq_some_iff.mp hget
      exact ⟨p, h.mem_inputPorts.mpr ⟨hp, hdir'⟩, rfl⟩
    · exact ⟨p', h.mem_inputPorts.mpr ⟨hget, hdir'⟩, rfl⟩
  rw [hports, ← hname] at hget'
  rcases tieAll_input (d := d) h hp with ⟨value, -, hopen, htied⟩ | ⟨hsettled, hsame, hkept⟩
  · obtain rfl := Option.some.inj (hget'.symm.trans hopen)
    refine .tied rfl ?_
    rw [hstate, htied]
    cases value <;> rfl
  · obtain rfl := Option.some.inj (hget'.symm.trans hsame)
    exact hsettled.congr htype ((hstate _).trans hkept) (hconst _ hp)

end Device

end Ports

/-! ### Drivers and users -/

namespace Netlist.Linked

variable {nl nl' : Netlist} {ref : PortRef} {drives : Bool}

/-- Two linked netlists list a port alike if it is the same in both, as far as it is of the kind
that is listed. -/
theorem mem_listed_congr (h : nl.Linked) (h' : nl'.Linked)
    (hport : ∀ p, p.drives = drives → (nl'.port? ref = some p ↔ nl.port? ref = some p))
    (id : NetId) :
    ref ∈ nl'.listed id drives ↔ ref ∈ nl.listed id drives := by
  rw [h.mem_listed, h'.mem_listed]
  refine exists_congr fun p => ?_
  constructor
  · exact fun ⟨hp, hnet, hdrives⟩ => ⟨(hport p hdrives).mp hp, hnet, hdrives⟩
  · exact fun ⟨hp, hnet, hdrives⟩ => ⟨(hport p hdrives).mpr hp, hnet, hdrives⟩

/-- Nets of linked netlists with the same outputs have the same drivers. -/
theorem driver_congr (h : nl.Linked) (h' : nl'.Linked)
    (hport : ∀ ref p, p.drives = true → (nl'.port? ref = some p ↔ nl.port? ref = some p))
    (id : NetId) :
    (nl'.net? id).bind Net.driver = (nl.net? id).bind Net.driver := by
  have hlisted (nl : Netlist) (ref : PortRef) :
      (nl.net? id).bind Net.driver = some ref ↔ ref ∈ nl.listed id true := by
    rw [listed]
    cases nl.net? id <;> simp [Net.listed]
  exact Option.ext fun ref => by rw [hlisted, hlisted, h.mem_listed_congr h' (hport ref)]

end Netlist.Linked

/-! ### Settling a cell -/

/-- The inputs of a cell were settled, and `n` of them tied for that. Each input has taken its
constant or is as it was, and nothing is left to be taken. No other port and no pin of another port
has changed, nor has another cell, the driver of a net, or what else there is to a net than the list
of its users; and the users from other cells are the same. -/
structure Device.Settles (d : Device) (id : CellId) (c : Cell) (n : Nat) (d' : Device)
    (c' : Cell) : Prop
    extends d.SparesOthers id d' where
  /-- The inputs that are open and tied now, and were not before. -/
  count : n = c.inputPorts.countP fun p => c'.tiedOff p.name && !c.tiedOff p.name
  inputs : ∀ p ∈ c.inputPorts,
    (∃ value, d.Takes c p value ∧ c'.ports.get? p.name = some { p with net := none } ∧
      c'.pinState p.name = .tied value) ∨
    (d.Settled c p ∧ c'.ports.get? p.name = some p ∧ c'.pinState p.name = c.pinState p.name)
  settled : ∀ p ∈ c'.inputPorts, d'.Settled c' p
  others : ∀ pin, (∀ p, c.ports.get? pin = some p → p.dir ≠ .input) →
    c'.ports.get? pin = c.ports.get? pin ∧ c'.pinState pin = c.pinState pin
  sameButNets : ∃ lut flipFlop, c.SameButNets { c' with lut := lut, flipFlop := flipFlop }
  /-- The summary of the cell is derived again, if there was anything to do. -/
  summary : if n = 0 then d' = d else d'.UpToDate id
  drivers : ∀ net, (d'.netlist.net? net).bind Net.driver = (d.netlist.net? net).bind Net.driver
  users :
    ∀ net ref,
      ref.cell ≠ id → (ref ∈ d'.netlist.listed net false ↔ ref ∈ d.netlist.listed net false)

namespace DesignRun

variable {d : Device}

/-- In every run of a design, tying the inputs of a cell succeeds and tells how many were
tied. All inputs are settled then, nothing else has changed, and doing it again ties none and
changes nothing at all. -/
theorem applyPinDefaults_settles (h : DesignRun d) {id : CellId} {c : Cell}
    (hc : d.netlist.cell? id = some c) : ∃ n d' c', (Edit.applyPinDefaults id).run d = (.ok n, d') ∧
      d'.netlist.cell? id = some c' ∧ d.Settles id c n d' c' ∧
      (Edit.applyPinDefaults id).run d' = (.ok 0, d') := by
  have hnamed := h.named hc
  obtain ⟨d', lut, flipFlop, hrun, hc', hconst, hsummary⟩ :=
    Device.exists_run_applyPinDefaults hc hnamed h.closed
  have hspares := Edit.spares_applyPinDefaults id d
  have hlinked' := (Edit.rewires_applyPinDefaults id d).keepsLinks h.linked
  have hmade' := (Edit.keeps_applyPinDefaults id d).cellsMade h.cellsMade
  rw [hrun] at hspares hlinked' hmade'
  have hnamed' := (hmade' id _ hc').named
  -- an input is on a net that exists, and that net carries what it did
  have hconst' (p : Port) (hp : p ∈ c.inputPorts) (net : NetId) (hnet : p.net = some net) :
      d'.constValue? net = d.constValue? net := by
    have hport : d.netlist.port? ⟨id, p.name⟩ = some p := by
      rw [Netlist.port?, hc, Option.bind_some, (hnamed.mem_inputPorts.mp hp).1]
    exact hconst net (h.linked.isSome_net? hport hnet)
  have hsettled := Device.settled_tieAll hnamed hnamed' (c.type_tieAll _) rfl rfl hconst'
  have hothers (ref : PortRef) (hne : ref.cell ≠ id) :
      d'.netlist.port? ref = d.netlist.port? ref := by
    rw [Netlist.port?, hspares.cell ref.cell hne, Netlist.port?]
  refine ⟨_, d', _, hrun, hc', ⟨hspares, Device.length_pinsToTie hnamed,
    fun p hp => Device.tieAll_input hnamed hp, hsettled,
    fun pin hpin => Device.tieAll_other hnamed hpin, ?_, ?_, ?_, ?_⟩, ?_⟩
  · obtain ⟨⟨ports, pins, hrecord⟩, hkeys, hsitePins⟩ :=
      c.sameButNets_tieAll (d.pinsToTie c c.inputPorts)
    exact ⟨c.lut, c.flipFlop, ⟨ports, pins, by rw [hrecord]⟩, hkeys, hsitePins⟩
  · simpa only [List.length_eq_zero_iff] using hsummary
  · refine h.linked.driver_congr hlinked' fun ref p hdrives => ?_
    have hdir : p.dir ≠ .input := by
      rw [of_decide_eq_true hdrives]
      decide
    by_cases href : ref.cell = id
    · rw [Netlist.port?, href, hc', Netlist.port?, href, hc]
      exact Device.get?_ports_tieAll_iff hnamed hdir
    · rw [hothers ref href]
  · intro net ref href
    exact h.linked.mem_listed_congr hlinked' (fun p _ => by rw [hothers ref href]) net
  · -- a cell whose inputs are settled has none to be tied
    have hnone : d'.pinsToTie _ _ = [] := List.filterMap_eq_nil_iff.mpr fun p hp => by
      rw [Device.foldedPin?_eq_none_iff.mpr (hsettled p hp), Option.map_none]
    rw [Edit.run_applyPinDefaults hc' hnamed', if_pos hnone, hnone, List.length_nil]

/-- A flip-flop with nothing on its enable: the enable is tied to one, and nothing
else is to be done. -/
theorem applyPinDefaults_settles_openEnable : ∃ d c d' c', DesignRun d ∧
    d.netlist.cell? ⟨0⟩ = some c ∧ (Edit.applyPinDefaults ⟨0⟩).run d = (.ok 1, d') ∧
    d.Settles ⟨0⟩ c 1 d' c' ∧ c'.pinState Known.ena = .tied1 ∧
    (Edit.applyPinDefaults ⟨0⟩).run d' = (.ok 0, d') := by
  have hempty : DesignRun { (default : Device) with netlist := {} } := .empty rfl
  have hcell := hempty.step (.createCell "ff" Known.flipFlop) nofun
  have hport := hcell.step (.addPort ⟨0⟩ Known.ena .input) fun cell port dir heq => by
    cases heq
    rfl
  obtain ⟨n, d', c', hrun, hc', hsettles, hagain⟩ := @applyPinDefaults_settles _ hport ⟨0⟩ _ rfl
  obtain rfl : n = 1 := Except.ok.inj (congrArg Prod.fst hrun).symm
  refine ⟨_, _, d', c', hport, rfl, hrun, hsettles, ?_, hagain⟩
  have hstate := congrArg (fun r => (r.2.netlist.cell? ⟨0⟩).map (·.pinState Known.ena)) hrun
  rw [hc'] at hstate
  exact (Option.some.inj hstate).symm

end DesignRun

end Fabric
