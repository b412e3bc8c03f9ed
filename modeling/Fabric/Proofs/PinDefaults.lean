import Fabric.Proofs.Derive

/-!
# Tying the inputs of a cell

The inputs of a cell are looked at one after the other, and those that carry no real signal are
tied. What is decided about an input depends on its own net and state only, which the inputs
before it do not touch. So the loop does what all decisions on the cell at the start say.

## Main results

* `cell?_disconnect`: what a disconnected port does to its cell;
* `run_foldPin`, `run_mapM_foldPin`: one step of the loop, and the loop;
* `netOf_tieAll`, `pinState_tieAll`: the nets and states of the pins after it;
* `run_applyPinDefaults`: the whole call;
* `exists_tied`: an up-to-date cell before and after it.
-/

namespace Fabric

/-- Setting a value that is there changes nothing. -/
theorem Table.insert_of_get? {κ υ : Type} [DecidableEq κ] {t : Table κ υ} {key : κ} {value : υ}
    (h : t.get? key = some value) : t.insert key value = t := by
  induction t with
  | nil => cases h
  | cons entry rest ih =>
      obtain ⟨k, v⟩ := entry
      rw [Table.get?] at h
      rw [Table.insert]
      split at h
      · rename_i hk
        rw [if_pos hk, Option.some.inj h, hk]
      · rename_i hk
        rw [if_neg hk, ih h]

/-! ### One pin of a cell -/

namespace Cell

/-- Disconnecting a port without a net changes nothing. -/
theorem setNet_none_of_netOf {c : Cell} {port : Ident} (h : c.netOf port = none) :
    c.setNet port none = c := by
  rw [setNet]
  split
  · rfl
  · rename_i p hp
    rw [netOf, hp, Option.bind_some] at h
    have hsame : ({ p with net := none } : Port) = p := by rw [← h]
    rw [hsame, Table.insert_of_get? hp]

/-- Disconnecting a port leaves the nets of the other ports. -/
theorem netOf_setNet_none (c : Cell) (port other : Ident) :
    (c.setNet port none).netOf other = if port = other then none else c.netOf other := by
  rw [setNet]
  split
  · rename_i hp
    split
    · rename_i heq
      rw [← heq, netOf, hp, Option.bind_none]
    · rfl
  · rw [netOf, Table.get?_insert]
    split <;> rfl

/-- Setting the state of one pin leaves the states of the others. -/
theorem pinState_setPinState (c : Cell) (pin other : Ident) (state : PinState) :
    (c.setPinState pin state).pinState other = if pin = other then state else c.pinState other := by
  rw [pinState, setPinState, Table.get?_update]
  split <;> rfl

/-- A cell after one of its pins was taken off its net and tied. -/
def tie (c : Cell) (pin : Ident) (value : Bool) : Cell :=
  (c.setNet pin none).setPinState pin (.tied value)

/-- A tied pin has no net; the other pins keep theirs. -/
theorem netOf_tie (c : Cell) (pin other : Ident) (value : Bool) :
    (c.tie pin value).netOf other = if pin = other then none else c.netOf other :=
  c.netOf_setNet_none pin other

/-- Where a port is connected says nothing about the states of the pins. -/
theorem pinState_setNet (c : Cell) (port other : Ident) (net : Option NetId) :
    (c.setNet port net).pinState other = c.pinState other := by
  rw [setNet]
  split <;> rfl

/-- A tied pin carries its value; the other pins keep their states. -/
theorem pinState_tie (c : Cell) (pin other : Ident) (value : Bool) :
    (c.tie pin value).pinState other = if pin = other then .tied value else c.pinState other := by
  rw [tie, pinState_setPinState, pinState_setNet]

/-- Tying a pin does not change the type of its cell. -/
theorem type_tie (c : Cell) (pin : Ident) (value : Bool) : (c.tie pin value).type = c.type := by
  rw [tie, setPinState, setNet]
  split <;> rfl

/-- Tying a pin does not change the parameters of its cell. -/
theorem params_tie (c : Cell) (pin : Ident) (value : Bool) :
    (c.tie pin value).params = c.params := by
  rw [tie, setPinState, setNet]
  split <;> rfl

end Cell

/-! ### One pin in a model -/

/-- A port that is taken off its net, if it is on one. -/
theorem Netlist.cell?_disconnect (nl : Netlist) (id : CellId) (port : Ident) (other : CellId) :
    (nl.disconnect id port).cell? other =
      if id = other then (nl.cell? other).map (·.setNet port none) else nl.cell? other := by
  rw [disconnect]
  split
  · rename_i hopen
    split
    · rename_i heq
      subst heq
      cases hc : nl.cell? id with
      | none => rfl
      | some c =>
          rw [hc, Option.bind_some] at hopen
          rw [Option.map_some, Cell.setNet_none_of_netOf hopen]
    · rfl
  · exact cell?_modifyCell nl id other _

/-- Nets keep their names when a port leaves them. -/
theorem Netlist.map_name_net?_disconnect (nl : Netlist) (id : CellId) (port : Ident) (net : NetId) :
    ((nl.disconnect id port).net? net).map Net.name = (nl.net? net).map Net.name := by
  rw [disconnect]
  split
  · rfl
  · exact map_name_net?_modifyNet _ _ net fun _ => rfl

namespace Device

/-- A model after a pin of a cell was taken off its net and tied. -/
def tie (d : Device) (id : CellId) (pin : Ident) (value : Bool) : Device :=
  { d with
    netlist := (d.netlist.disconnect id pin).modifyCell id (·.setPinState pin (.tied value)) }

/-- Tying a pin of one cell leaves the other cells alone. -/
theorem cell?_tie (d : Device) (id : CellId) (pin : Ident) (value : Bool) (other : CellId) :
    (d.tie id pin value).netlist.cell? other =
      if id = other then (d.netlist.cell? other).map (·.tie pin value)
      else d.netlist.cell? other := by
  rw [tie, Netlist.cell?_modifyCell, Netlist.cell?_disconnect]
  split
  · rw [Option.map_map]
    rfl
  · rfl

/-- Constant nets stay what they are. -/
theorem constValue?_tie (d : Device) (id : CellId) (pin : Ident) (value : Bool) :
    (d.tie id pin value).constValue? = d.constValue? := by
  funext net
  rw [constValue?_eq, constValue?_eq]
  exact congrArg (fun name => (name.map d.nameOf).bind Netlist.constOfName?)
    (d.netlist.map_name_net?_disconnect id pin net)

/-- What is decided about an input depends on the constant nets, the type of the cell and the state
of the pin. -/
theorem foldedPin?_congr {d d' : Device} {c c' : Cell} {p : Port}
    (hconst : d'.constValue? = d.constValue?) (htype : c'.type = c.type)
    (hstate : c'.pinState p.name = c.pinState p.name) :
    d'.foldedPin? c' p = d.foldedPin? c p := by
  rw [foldedPin?, foldedPin?, hconst, htype, hstate]

end Device

/-! ### Several pins -/

/-- A cell after some of its pins were tied. -/
def Cell.tieAll (c : Cell) (pins : List (Ident × Bool)) : Cell :=
  pins.foldl (fun c pin => c.tie pin.1 pin.2) c

namespace Cell

/-- The tied pins have no nets, the others keep theirs. -/
theorem netOf_tieAll (c : Cell) (pins : List (Ident × Bool)) (pin : Ident) :
    (c.tieAll pins).netOf pin = if pin ∈ pins.map Prod.fst then none else c.netOf pin := by
  induction pins generalizing c with
  | nil => rfl
  | cons first rest ih =>
      refine (ih (c.tie first.1 first.2)).trans ?_
      simp only [netOf_tie, List.map_cons, List.mem_cons]
      by_cases hrest : pin ∈ rest.map Prod.fst
      · rw [if_pos hrest, if_pos (.inr hrest)]
      · simp [hrest, eq_comm]

/-- A pin outside the list keeps its state. -/
theorem pinState_tieAll_of_notMem (c : Cell) {pins : List (Ident × Bool)} {pin : Ident}
    (h : pin ∉ pins.map Prod.fst) : (c.tieAll pins).pinState pin = c.pinState pin := by
  induction pins generalizing c with
  | nil => rfl
  | cons first rest ih =>
      rw [List.map_cons, List.mem_cons, not_or] at h
      refine (ih (c.tie first.1 first.2) h.2).trans ?_
      rw [pinState_tie, if_neg (Ne.symm h.1)]

/-- With no pin listed twice, every listed pin carries the value listed with it. -/
theorem pinState_tieAll_of_mem (c : Cell) {pins : List (Ident × Bool)} {pin : Ident} {value : Bool}
    (hpins : (pins.map Prod.fst).Nodup) (h : (pin, value) ∈ pins) :
    (c.tieAll pins).pinState pin = .tied value := by
  induction pins generalizing c with
  | nil => cases h
  | cons first rest ih =>
      rw [List.map_cons, List.nodup_cons] at hpins
      rcases List.mem_cons.mp h with rfl | hrest
      · refine ((c.tie pin value).pinState_tieAll_of_notMem hpins.1).trans ?_
        rw [pinState_tie, if_pos rfl]
      · exact ih (c.tie first.1 first.2) hpins.2 hrest

/-- Tying pins does not change the type of their cell. -/
theorem type_tieAll (c : Cell) (pins : List (Ident × Bool)) : (c.tieAll pins).type = c.type := by
  induction pins generalizing c with
  | nil => rfl
  | cons first rest ih => exact (ih (c.tie first.1 first.2)).trans (c.type_tie first.1 first.2)

/-- Tying pins does not change the parameters of their cell. -/
theorem params_tieAll (c : Cell) (pins : List (Ident × Bool)) :
    (c.tieAll pins).params = c.params := by
  induction pins generalizing c with
  | nil => rfl
  | cons first rest ih => exact (ih (c.tie first.1 first.2)).trans (c.params_tie first.1 first.2)

end Cell

namespace Device

/-- A model after some pins of a cell were tied. -/
def tieAll (d : Device) (id : CellId) (pins : List (Ident × Bool)) : Device :=
  pins.foldl (fun d pin => d.tie id pin.1 pin.2) d

/-- Tying pins of one cell leaves the other cells alone. -/
theorem cell?_tieAll (d : Device) (id : CellId) (pins : List (Ident × Bool)) (other : CellId) :
    (d.tieAll id pins).netlist.cell? other =
      if id = other then (d.netlist.cell? other).map (·.tieAll pins)
      else d.netlist.cell? other := by
  induction pins generalizing d with
  | nil => simp [tieAll, Cell.tieAll]
  | cons first rest ih =>
      refine (ih (d.tie id first.1 first.2)).trans ?_
      rw [cell?_tie]
      split
      · rw [Option.map_map]
        rfl
      · rfl

/-- Tying removes no net, so the two constant nets stay where they are. -/
theorem constValue?_tieAll (d : Device) (id : CellId) (pins : List (Ident × Bool)) :
    (d.tieAll id pins).constValue? = d.constValue? := by
  induction pins generalizing d with
  | nil => rfl
  | cons first rest ih => exact (ih (d.tie id first.1 first.2)).trans (d.constValue?_tie id _ _)

/-- Tying a pin takes no net away. -/
theorem isSome_net?_tieAll (d : Device) (id : CellId) (pins : List (Ident × Bool)) (net : NetId) :
    ((d.tieAll id pins).netlist.net? net).isSome = (d.netlist.net? net).isSome := by
  induction pins generalizing d with
  | nil => rfl
  | cons first rest ih =>
      refine (ih (d.tie id first.1 first.2)).trans ?_
      have hname := congrArg Option.isSome (d.netlist.map_name_net?_disconnect id first.1 net)
      rwa [Option.isSome_map, Option.isSome_map] at hname

/-- Tying brings no name into the netlist that the interner does not know. -/
theorem closed_tieAll {d : Device} (h : d.netlist.Closed d.interner) (id : CellId)
    (pins : List (Ident × Bool)) :
    (d.tieAll id pins).netlist.Closed (d.tieAll id pins).interner := by
  induction pins generalizing d with
  | nil => exact h
  | cons first rest ih =>
      refine ih (d := d.tie id first.1 first.2) ?_
      exact ((d.netlist.evolves_disconnect id first.1).closed _ h).modifyCell id fun _ _ => .inl

/-! ### The decisions -/

/-- The pins to be tied among some inputs of a cell, with their constants. -/
def pinsToTie (d : Device) (c : Cell) (inputs : List Port) : List (Ident × Bool) :=
  inputs.filterMap fun p => (d.foldedPin? c p).map (p.name, ·)

/-- A pin is tied exactly when it is among the inputs and folds to a constant. -/
theorem mem_pinsToTie {d : Device} {c : Cell} {inputs : List Port} {pin : Ident} {value : Bool} :
    (pin, value) ∈ d.pinsToTie c inputs ↔
      ∃ p ∈ inputs, p.name = pin ∧ d.foldedPin? c p = some value := by
  rw [pinsToTie, List.mem_filterMap]
  refine exists_congr fun p => and_congr_right fun _ => ?_
  cases d.foldedPin? c p <;> simp

/-- Inputs of different names tie no pin twice. -/
theorem nodup_pinsToTie (d : Device) (c : Cell) {inputs : List Port}
    (h : (inputs.map Port.name).Nodup) : ((d.pinsToTie c inputs).map Prod.fst).Nodup := by
  refine h.sublist ?_
  have hmap : (d.pinsToTie c inputs).map Prod.fst =
      (inputs.filter fun p => (d.foldedPin? c p).isSome).map Port.name := by
    rw [pinsToTie]
    induction inputs with
    | nil => rfl
    | cons p rest ih =>
        rw [List.map_cons, List.nodup_cons] at h
        rw [List.filterMap_cons, List.filter_cons]
        cases d.foldedPin? c p with
        | none => exact ih h.2
        | some value => exact congrArg (p.name :: ·) (ih h.2)
  rw [hmap]
  exact List.filter_sublist.map _

/-- The pins to tie of a longer list are those of its head, then those of its tail. -/
theorem pinsToTie_cons (d : Device) (c : Cell) (p : Port) (rest : List Port) :
    d.pinsToTie c (p :: rest) =
      ((d.foldedPin? c p).map (p.name, ·)).toList ++ d.pinsToTie c rest := by
  rw [pinsToTie, List.filterMap_cons]
  cases d.foldedPin? c p <;> rfl

/-- Tying one pin does not change what is decided about the others. -/
theorem pinsToTie_tie (d : Device) (id : CellId) (c : Cell) {pin : Ident} (value : Bool)
    {rest : List Port} (hpin : pin ∉ rest.map Port.name) :
    (d.tie id pin value).pinsToTie (c.tie pin value) rest = d.pinsToTie c rest := by
  refine List.filterMap_congr fun p hp => ?_
  have hne : pin ≠ p.name := fun heq => hpin (heq ▸ List.mem_map_of_mem hp)
  rw [foldedPin?_congr (d.constValue?_tie id pin value) (c.type_tie pin value)
    (by rw [Cell.pinState_tie, if_neg hne])]

end Device

namespace Cell

/-- The input ports of a cell, in order. -/
def inputPorts (c : Cell) : List Port := c.ports.values.filter (·.dir = .input)

/-- The ports of a cell are keyed by name, so no two inputs share one. -/
theorem Named.nodup_inputPorts {c : Cell} (h : c.Named) : (c.inputPorts.map Port.name).Nodup :=
  h.nodup_names.sublist (List.filter_sublist.map _)

/-- The input ports are those that are found under their names. -/
theorem Named.mem_inputPorts {c : Cell} (h : c.Named) {p : Port} :
    p ∈ c.inputPorts ↔ c.ports.get? p.name = some p ∧ p.dir = .input := by
  rw [inputPorts, List.mem_filter, decide_eq_true_eq]
  exact and_congr_left fun _ => ⟨h.get?_name, Table.mem_values_of_get?⟩

end Cell

/-! ### Runs -/

namespace Edit

variable {d : Device} {id : CellId} {c : Cell}

/-- Tying one input. -/
theorem run_foldPin (hc : d.netlist.cell? id = some c) (p : Port) : (foldPin id p).run d =
    match d.foldedPin? c p with
    | none => (.ok false, d)
    | some value => (.ok true, d.tie id p.name value) := by
  rw [foldPin, run_bind_of_ok (run_requireCell hc), run_get_bind]
  cases d.foldedPin? c p with
  | none => rfl
  | some value =>
      have hcell : (d.netlist.disconnect id p.name).cell? id = some (c.setNet p.name none) := by
        rw [Netlist.cell?_disconnect, if_pos rfl, hc, Option.map_some]
      dsimp only
      rw [run_modify_bind, run_bind_of_ok (run_modifyCell (c := c.setNet p.name none) hcell _)]
      rfl

/-- Tying inputs one after the other does what was decided on the cell at the start. -/
theorem run_mapM_foldPin {inputs : List Port} (hc : d.netlist.cell? id = some c)
    (hnames : (inputs.map Port.name).Nodup) : ∃ tied,
      (inputs.mapM (foldPin id)).run d = (.ok tied, d.tieAll id (d.pinsToTie c inputs)) ∧
      tied.count true = (d.pinsToTie c inputs).length := by
  induction inputs generalizing d c with
  | nil => exact ⟨[], rfl, rfl⟩
  | cons p rest ih =>
      rw [List.map_cons, List.nodup_cons] at hnames
      have hstep := run_foldPin hc p
      rw [Device.pinsToTie_cons]
      cases hfold : d.foldedPin? c p with
      | none =>
          rw [hfold] at hstep
          obtain ⟨tied, hrun, hcount⟩ := ih hc hnames.2
          refine ⟨false :: tied, ?_, ?_⟩
          · rw [List.mapM_cons, run_bind_of_ok hstep, run_bind_of_ok hrun, run_pure]
            rfl
          · simpa using hcount
      | some value =>
          rw [hfold] at hstep
          have hc' : (d.tie id p.name value).netlist.cell? id = some (c.tie p.name value) := by
            rw [Device.cell?_tie, if_pos rfl, hc, Option.map_some]
          obtain ⟨tied, hrun, hcount⟩ := ih hc' hnames.2
          rw [d.pinsToTie_tie id c value hnames.1] at hrun hcount
          refine ⟨true :: tied, ?_, ?_⟩
          · rw [List.mapM_cons, run_bind_of_ok hstep, run_bind_of_ok hrun, run_pure]
            rfl
          · simpa using hcount

/-- The whole call ties the pins that are to be tied, and derives the cell again
if there are any. -/
theorem run_applyPinDefaults (hc : d.netlist.cell? id = some c) (hnamed : c.Named) :
    (applyPinDefaults id).run d = (.ok (d.pinsToTie c c.inputPorts).length,
      if d.pinsToTie c c.inputPorts = [] then d
      else ((deriveCell id).run (d.tieAll id (d.pinsToTie c c.inputPorts))).2) := by
  obtain ⟨tied, hrun, hcount⟩ := run_mapM_foldPin hc hnamed.nodup_inputPorts
  rw [applyPinDefaults, run_bind_of_ok (run_requireCell hc)]
  rw [Cell.inputPorts] at hrun hcount ⊢
  rw [run_bind_of_ok hrun]
  dsimp only
  rw [hcount]
  generalize hpins : d.pinsToTie c (c.ports.values.filter (·.dir = .input)) = pins
  cases pins with
  | nil => rfl
  | cons first rest =>
      have hc' :
          (d.tieAll id (first :: rest)).netlist.cell? id = some (c.tieAll (first :: rest)) := by
        rw [Device.cell?_tieAll, if_pos rfl, hc, Option.map_some]
      obtain ⟨d', -, hderive, -⟩ := Device.deriveCell_spec hc'
      rw [if_pos (by simp), if_neg (by simp), run_bind_of_ok hderive, hderive, run_pure]

end Edit

namespace Device

/-- A cell in a model, before and after its inputs were tied. -/
structure Tied (d : Device) (c : Cell) (d' : Device) (c' : Cell) : Prop extends d.Evolves d' where
  type : c'.type = c.type
  params : c'.params = c.params
  netOf : ∀ pin, c'.netOf pin = (c.tieAll (d.pinsToTie c c.inputPorts)).netOf pin
  pinState : ∀ pin, c'.pinState pin = (c.tieAll (d.pinsToTie c c.inputPorts)).pinState pin
  constValue? : d.netlist.Closed d.interner → ∀ net, (d.netlist.net? net).isSome →
    d'.constValue? net = d.constValue? net

variable {d : Device} {id : CellId} {c : Cell}

/-- The inputs of an up-to-date cell can be tied, and it is up to date then. -/
theorem exists_tied (hc : d.netlist.cell? id = some c) (hnamed : c.Named)
    (hcurrent : d.UpToDate id) :
    ∃ count d' c', (Edit.applyPinDefaults id).run d = (.ok count, d') ∧
      d'.netlist.cell? id = some c' ∧ d.Tied c d' c' ∧ d'.UpToDate id := by
  have hrun := Edit.run_applyPinDefaults hc hnamed
  have hevolves := Edit.keeps_applyPinDefaults id d
  rw [hrun] at hevolves
  by_cases hpins : d.pinsToTie c c.inputPorts = []
  · rw [if_pos hpins] at hrun hevolves
    refine ⟨_, d, c, hrun, hc, ⟨hevolves, rfl, rfl, fun pin => ?_, fun pin => ?_, fun _ _ _ => rfl⟩,
      hcurrent⟩
    · rw [hpins]
      rfl
    · rw [hpins]
      rfl
  · have htied : (d.tieAll id (d.pinsToTie c c.inputPorts)).netlist.cell? id =
        some (c.tieAll (d.pinsToTie c c.inputPorts)) := by
      rw [cell?_tieAll, if_pos rfl, hc, Option.map_some]
    obtain ⟨d', c', hderive, hc', hsame, hconst⟩ := deriveCell_spec htied
    have hcurrent' := upToDate_deriveCell htied
    rw [if_neg hpins, hderive] at hrun hevolves
    rw [hderive] at hcurrent'
    refine ⟨_, d', c', hrun, hc', ⟨hevolves, hsame.type.trans (c.type_tieAll _),
      hsame.params.trans (c.params_tieAll _), fun pin => ?_, fun pin => ?_, fun h net hnet => ?_⟩,
      hcurrent'⟩
    · rw [Cell.netOf, hsame.ports, Cell.netOf]
    · rw [Cell.pinState, hsame.pins, Cell.pinState]
    · rw [← isSome_net?_tieAll d id (d.pinsToTie c c.inputPorts)] at hnet
      rw [hconst (closed_tieAll h id _) net hnet, constValue?_tieAll]

end Device

end Fabric
