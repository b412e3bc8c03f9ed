import Fabric.Proofs.Connections

/-!
# Ports that replace others

A cell that is given a port under a name that it has already loses the port of that name. The new
port is open, but nothing is done to the nets: if the port that is lost was on a net, then the net
goes on listing it, and the next port that is put on that net finds it taken, or is listed twice.

A `NetlistHistory` is a run of the netlist operations in which ports may be replaced; its parameter
says which. In each of them a port that is on a net is listed by the net. If no port is replaced
while it is on a net, then nothing else is listed, and a new port is listed by a net exactly if it
replaced a port of that net.

## Main results

* `NetlistHistory.listsPorts`: whatever was replaced, a port on a net is listed by it;
* `NetlistHistory.linked`: the netlist is linked if only open ports were replaced;
* `NetlistHistory.names_addPort`: which nets name a port that was just given to a cell;
* `NetlistHistory.names_of_replaced`: a net names a port that is on no net.
-/

namespace Fabric

namespace Netlist

variable {nl nl' : Netlist} {cell : CellId} {port : Ident} {ref : PortRef} {id : NetId}

/-! ### Ports that nets name -/

/-- The driver or a user of a net is the port under this reference. -/
def Names (nl : Netlist) (id : NetId) (ref : PortRef) : Prop :=
  ∃ n, nl.net? id = some n ∧ (n.driver = some ref ∨ ref ∈ n.users)

/-- A net names a port when the port is its driver or one of its users. -/
theorem names_iff : nl.Names id ref ↔ ∃ drives, ref ∈ nl.listed id drives := by
  cases hn : nl.net? id with
  | none => simp [Names, listed, hn]
  | some n => simp [Names, listed, hn, Net.listed, or_comm]

/-- A port of a linked netlist that is open, or does not exist, is named by no net. -/
theorem Linked.not_names (h : nl.Linked) (hopen : nl.Open ref) : ¬ nl.Names id ref := by
  rw [names_iff]
  rintro ⟨drives, hmem⟩
  obtain ⟨p, hp, hnet, -⟩ := (h.mem_listed id drives ref).mp hmem
  rw [hopen p hp] at hnet
  cases hnet

/-! ### Every port on a net is listed -/

/-- Every port that is on a net is listed by the net. -/
def ListsPorts (nl : Netlist) : Prop :=
  ∀ ref p id, nl.port? ref = some p → p.net = some id → ref ∈ nl.listed id p.drives

namespace ListsPorts

/-- Where the links are the same, the same ports are listed. -/
theorem of_sameLinks (h : nl.ListsPorts) (hsame : nl.SameLinks nl') : nl'.ListsPorts := by
  intro ref p id hp hnet
  rw [hsame.port?] at hp
  rw [hsame.listed]
  exact h ref p id hp hnet

/-- A connection lists a port that the cell has. -/
protected theorem connect (h : nl.ListsPorts) {net : NetId}
    (hc : nl.connect cell port net = .ok nl') : nl'.ListsPorts := by
  obtain ⟨p, -, -, hport, hlisted⟩ := connect_spec hc
  intro ref p' id hp' hnet
  rw [hport] at hp'
  rw [hlisted]
  by_cases href : ref = ⟨cell, port⟩
  · rw [if_pos href] at hp'
    obtain rfl := Option.some.inj hp'
    rw [if_pos ⟨(Option.some.inj hnet).symm, rfl⟩, href]
    exact List.mem_append_right _ List.mem_cons_self
  · rw [if_neg href] at hp'
    have hmem := h ref p' id hp' hnet
    split
    · exact List.mem_append_left _ hmem
    · exact hmem

/-- A disconnection lists no port. -/
protected theorem disconnect (h : nl.ListsPorts) (cell : CellId) (port : Ident) :
    (nl.disconnect cell port).ListsPorts := by
  cases hon : (nl.cell? cell).bind (·.netOf port) with
  | none =>
    rw [disconnect_of_open hon]
    exact h
  | some net =>
    obtain ⟨c, hc, hnet⟩ := Option.bind_eq_some_iff.mp hon
    obtain ⟨p, hp, hnet⟩ := Option.bind_eq_some_iff.mp hnet
    have hp : nl.port? ⟨cell, port⟩ = some p := by rw [port?, hc, Option.bind_some, hp]
    obtain ⟨hport, hlisted⟩ := disconnect_spec hp hnet
    intro ref p' id hp' hnet'
    rw [hport] at hp'
    rw [hlisted]
    by_cases href : ref = ⟨cell, port⟩
    · rw [if_pos href] at hp'
      obtain rfl := Option.some.inj hp'
      cases hnet'
    · rw [if_neg href] at hp'
      have hmem := h ref p' id hp' hnet'
      split
      · exact List.mem_filter.mpr ⟨hmem, bne_iff_ne.mpr href⟩
      · exact hmem

/-- A rewiring lists only ports that there are. -/
theorem of_rewired (h : nl.ListsPorts) (hrewired : nl.Rewired nl') : nl'.ListsPorts := by
  induction hrewired with
  | sameLinks hsame => exact h.of_sameLinks hsame
  | connect hconnect => exact h.connect hconnect
  | disconnect nl cell port => exact h.disconnect cell port
  | trans _ _ ih ih' => exact ih' (ih h)

/-- The port that is replaced takes its connection with it, and no other port is touched. -/
protected theorem addPort (h : nl.ListsPorts) {c : Cell} (hc : nl.cell? cell = some c)
    (port : Ident) (dir : PortDir) : (nl.addPort cell port dir).ListsPorts := by
  intro ref p id hp hnet
  rw [port?_addPort hc] at hp
  split at hp
  · obtain rfl := Option.some.inj hp
    cases hnet
  · exact h ref p id hp hnet

end ListsPorts

end Netlist

/-! ### Histories -/

/-- No port is given to a cell that does not exist. -/
theorem Edit.run_addPort_of_vacant {d : Device} {cell : CellId}
    (hc : d.netlist.cell? cell = none) (port : Ident) (dir : PortDir) :
    (addPort cell port dir).run d = (.error (.misuse .noCell), d) := by
  rw [addPort, requireCell, bind_assoc, run_get_bind, hc]
  rfl

/-- A cell that exists can always be given a port. -/
theorem Edit.run_addPort {d : Device} {cell : CellId} {c : Cell}
    (hc : d.netlist.cell? cell = some c) (port : Ident) (dir : PortDir) :
    (addPort cell port dir).run d =
      (.ok (), { d with netlist := d.netlist.addPort cell port dir }) := by
  rw [addPort, run_bind_of_ok (run_requireCell hc), run_modify]

/-- The models whose netlist came from the empty one by giving ports to cells wherever
`mayReplace` allows it, by joining ports to nets and taking them off, by tying inputs and deriving
summaries, and by changes that leave the connections alone, such as adding a cell or a net. A step
may fail, halfway also. -/
inductive NetlistHistory (mayReplace : Netlist → PortRef → Prop) : Device → Prop where
  | empty {d : Device} (h : d.netlist = {}) : NetlistHistory mayReplace d
  /-- Whatever happens to the rest of a model, and to what is no port or no list of a net. -/
  | elsewhere {d d' : Device} (h : NetlistHistory mayReplace d)
      (hsame : d.netlist.SameLinks d'.netlist) : NetlistHistory mayReplace d'
  | addPort {d : Device} (h : NetlistHistory mayReplace d) (cell : CellId) (port : Ident)
      (dir : PortDir) (hmay : mayReplace d.netlist ⟨cell, port⟩) :
      NetlistHistory mayReplace ((Edit.addPort cell port dir).run d).2
  | connect {d : Device} (h : NetlistHistory mayReplace d) (cell : CellId) (port : Ident)
      (net : NetId) : NetlistHistory mayReplace ((Edit.connect cell port net).run d).2
  | disconnect {d : Device} (h : NetlistHistory mayReplace d) (cell : CellId) (port : Ident) :
      NetlistHistory mayReplace ((Edit.disconnect cell port).run d).2
  | applyPinDefaults {d : Device} (h : NetlistHistory mayReplace d) (cell : CellId) :
      NetlistHistory mayReplace ((Edit.applyPinDefaults cell).run d).2
  | deriveAll {d : Device} (h : NetlistHistory mayReplace d) :
      NetlistHistory mayReplace (Edit.deriveAll.run d).2

namespace NetlistHistory

variable {mayReplace : Netlist → PortRef → Prop} {d : Device}

/-- What an empty netlist has, what rewiring keeps, and what a new port keeps where it is allowed,
every netlist of a history has. -/
theorem netlist_induction {P : Netlist → Prop} (hempty : P {})
    (hrewired : ∀ {nl nl'}, P nl → nl.Rewired nl' → P nl')
    (haddPort : ∀ {nl cell c} (port dir), P nl → nl.cell? cell = some c →
      mayReplace nl ⟨cell, port⟩ → P (nl.addPort cell port dir))
    (h : NetlistHistory mayReplace d) : P d.netlist := by
  induction h with
  | empty h =>
    rw [h]
    exact hempty
  | elsewhere _ hsame ih => exact hrewired ih (.sameLinks hsame)
  | addPort _ cell port dir hmay ih =>
    rename_i d _
    cases hc : d.netlist.cell? cell with
    | none =>
      rw [Edit.run_addPort_of_vacant hc]
      exact ih
    | some c =>
      rw [Edit.run_addPort hc]
      exact haddPort port dir ih hc hmay
  | connect _ cell port net ih => exact hrewired ih (Edit.rewires_connect cell port net _)
  | disconnect _ cell port ih => exact hrewired ih (Edit.rewires_disconnect cell port _)
  | applyPinDefaults _ cell ih => exact hrewired ih (Edit.rewires_applyPinDefaults cell _)
  | deriveAll _ ih => exact hrewired ih (Edit.rewires_deriveAll _)

/-- Whatever was replaced, a port on a net is listed by it. -/
theorem listsPorts (h : NetlistHistory mayReplace d) : d.netlist.ListsPorts := by
  refine h.netlist_induction ?_ .of_rewired fun port dir h hc _ => h.addPort hc port dir
  intro ref p id hp hnet
  exact (Netlist.linked_empty.mem_listed id p.drives ref).mpr ⟨p, hp, hnet, rfl⟩

/-- The netlist is linked if only open ports were replaced. -/
theorem linked (h : NetlistHistory mayReplace d)
    (hmay : ∀ nl ref, mayReplace nl ref → nl.Open ref) : d.netlist.Linked :=
  h.netlist_induction Netlist.linked_empty .of_rewired
    fun _ dir h _ hallowed => h.addPort (hmay _ _ hallowed) dir

/-- A cell that exists is given a port under any name, also under one that it has. The port is
open, and the nets name what they named before: the port that it replaced is named on by the net
that it was on. If no earlier port of the history was replaced while it was on a net, then no net
names the new port exactly if it did not replace a port on a net either. -/
theorem names_addPort (h : NetlistHistory mayReplace d) {cell : CellId} {c : Cell}
    (hc : d.netlist.cell? cell = some c) (port : Ident) (dir : PortDir) :
    ∃ d', (Edit.addPort cell port dir).run d = (.ok (), d') ∧
      d'.netlist.port? ⟨cell, port⟩ = some { name := port, dir := dir } ∧
      (∀ id ref, d'.netlist.Names id ref ↔ d.netlist.Names id ref) ∧
      (∀ p id, d.netlist.port? ⟨cell, port⟩ = some p → p.net = some id →
        d'.netlist.Names id ⟨cell, port⟩) ∧
      ((∀ nl ref, mayReplace nl ref → nl.Open ref) →
        ((∀ id, ¬ d'.netlist.Names id ⟨cell, port⟩) ↔ d.netlist.Open ⟨cell, port⟩)) := by
  have hdangling (p : Port) (id : NetId) (hp : d.netlist.port? ⟨cell, port⟩ = some p)
      (hnet : p.net = some id) : d.netlist.Names id ⟨cell, port⟩ :=
    Netlist.names_iff.mpr ⟨p.drives, h.listsPorts _ p id hp hnet⟩
  refine ⟨_, Edit.run_addPort hc port dir, ?_, fun id ref => Iff.rfl, hdangling, fun hmay => ?_⟩
  · exact (Netlist.port?_addPort hc port dir _).trans (if_pos rfl)
  constructor
  · intro hnot p hp
    by_contra hnet
    obtain ⟨id, hid⟩ := Option.ne_none_iff_exists'.mp hnet
    exact hnot id (hdangling p id hp hid)
  · exact fun hopen id => (h.linked hmay).not_names hopen

/-- A logic cell with an input on a net. -/
theorem exists_joinedInput : ∃ d, NetlistHistory Netlist.Open d ∧
    (∃ c, d.netlist.cell? ⟨0⟩ = some c) ∧ d.netlist.Names ⟨0⟩ ⟨⟨0⟩, Known.a⟩ ∧
    d.netlist.port? ⟨⟨0⟩, Known.b⟩ = none := by
  have hempty : NetlistHistory Netlist.Open { (default : Device) with netlist := {} } := .empty rfl
  have hcell : NetlistHistory Netlist.Open { (default : Device) with
      netlist := (Netlist.addCell {} Known.bufGate Known.bufGate).2 } :=
    hempty.elsewhere (Netlist.sameLinks_addCell ..)
  have hnet : NetlistHistory Netlist.Open { (default : Device) with
      netlist := ((Netlist.addCell {} Known.bufGate Known.bufGate).2.addNet Known.q).2 } :=
    hcell.elsewhere (Netlist.sameLinks_addNet ..)
  have hport := hnet.addPort ⟨0⟩ Known.a .input (Netlist.open_of_port?_eq_none rfl)
  have hjoined := hport.connect ⟨0⟩ Known.a ⟨0⟩
  exact ⟨_, hjoined, ⟨_, rfl⟩, ⟨_, rfl, .inr List.mem_cons_self⟩, rfl⟩

/-- A new input beside one that is on a net is named by no net. -/
theorem names_addPort_joinedInput : ∃ d d', NetlistHistory Netlist.Open d ∧
    (Edit.addPort ⟨0⟩ Known.b .input).run d = (.ok (), d') ∧
    d'.netlist.Names ⟨0⟩ ⟨⟨0⟩, Known.a⟩ ∧ ∀ id, ¬ d'.netlist.Names id ⟨⟨0⟩, Known.b⟩ := by
  obtain ⟨d, h, ⟨c, hc⟩, hnames, hnew⟩ := exists_joinedInput
  obtain ⟨d', hrun, -, hsame, -, hiff⟩ := h.names_addPort hc Known.b .input
  refine ⟨d, d', h, hrun, (hsame _ _).mpr hnames, ?_⟩
  exact (hiff fun _ _ hopen => hopen).mpr (Netlist.open_of_port?_eq_none hnew)

/-- An input that is on a net, and is replaced by a port of the same name, is
named on by the net. -/
theorem names_of_replaced : ∃ d d', NetlistHistory Netlist.Open d ∧
    (Edit.addPort ⟨0⟩ Known.a .input).run d = (.ok (), d') ∧
    d'.netlist.port? ⟨⟨0⟩, Known.a⟩ = some { name := Known.a, dir := .input, net := none } ∧
    d'.netlist.Names ⟨0⟩ ⟨⟨0⟩, Known.a⟩ := by
  obtain ⟨d, h, ⟨c, hc⟩, hnames, -⟩ := exists_joinedInput
  refine ⟨d, _, h, Edit.run_addPort hc Known.a .input, ?_, hnames⟩
  exact (Netlist.port?_addPort hc Known.a .input _).trans (if_pos rfl)

end NetlistHistory

end Fabric
