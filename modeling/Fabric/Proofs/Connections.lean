import Fabric.Proofs.PinDefaults

/-!
# Connections between ports and nets

A connection is recorded twice: a port names its net, and the net lists the port, as its driver if
the port is an output and among its users otherwise. A netlist is *linked* if the two records of
every connection agree and no net lists a user twice. Both records are read through two views: the
port behind a reference, and the ports that a net lists. Adding cells and nets changes neither view,
a new port is in neither record, and joining and taking apart change both in step.

The one operation that can break the links is giving a cell a port under a name that a port of it
has. `NetlistRun` are the states that no such step has led to.

## Main results

* `Linked.connect`, `Linked.disconnect`: joining a port to a net, and taking it off;
* `Linked.disconnect_connect`: a port that was joined to a net just now can be taken off without a
  trace;
* `Edit.rewires_applyPinDefaults`: tying the inputs of a cell only takes ports off their nets;
* `NetlistRun.linked`: the netlist of a run is linked;
* `NetlistRun.crossReferences`: what that says of ports, drivers and users.
-/

namespace Fabric

/-- A change of one place of an array that is undone. -/
theorem modify_modify_of_undo {α : Type} {xs : Array α} {i : Nat} {f g : α → α}
    (h : ∀ a, xs[i]? = some a → g (f a) = a) : (xs.modify i f).modify i g = xs := by
  apply Array.ext_getElem?
  intro k
  rw [Array.getElem?_modify, Array.getElem?_modify]
  split
  · rename_i hk
    subst hk
    cases ha : xs[i]? with
    | none => rfl
    | some a => exact congrArg some (h a ha)
  · rfl

/-- Whether a port drives its net. -/
def Port.drives (p : Port) : Bool := p.dir = .output

/-- The ports that a net lists: the one that drives it, or the others. -/
def Net.listed (n : Net) (drives : Bool) : List PortRef :=
  if drives then n.driver.toList else n.users

/-- A net that a port was put on. -/
def Net.join (n : Net) (drives : Bool) (ref : PortRef) : Net :=
  if drives then { n with driver := some ref } else { n with users := n.users ++ [ref] }

/-- A net that a port was taken off. -/
def Net.leave (n : Net) (ref : PortRef) : Net :=
  { n with
    driver := if n.driver = some ref then none else n.driver
    users := n.users.filter (· != ref) }

/-- A net lists a port that was put on it last among its kind. -/
theorem Net.listed_join {n : Net} {drives : Bool} (hfree : drives = true → n.driver = none)
    (ref : PortRef) (drives' : Bool) : (n.join drives ref).listed drives' =
      if drives' = drives then n.listed drives' ++ [ref] else n.listed drives' := by
  cases drives with
  | true => cases drives' <;> simp [join, listed, hfree]
  | false => cases drives' <;> simp [join, listed]

/-- A net does not list a port that was taken off it. -/
theorem Net.listed_leave (n : Net) (ref : PortRef) (drives : Bool) :
    (n.leave ref).listed drives = (n.listed drives).filter (· != ref) := by
  cases drives with
  | false => rfl
  | true =>
    simp only [listed, leave, if_true]
    cases n.driver with
    | none => rfl
    | some driver => by_cases h : driver = ref <;> simp [h]

/-- A port that is put on a net and taken off it leaves no trace. -/
theorem Net.leave_join {n : Net} {drives : Bool} {ref : PortRef}
    (hfree : drives = true → n.driver = none) (hnot : ∀ drives', ref ∉ n.listed drives') :
    (n.join drives ref).leave ref = n := by
  have husers : n.users.filter (· != ref) = n.users := by
    refine List.filter_eq_self.mpr fun user huser => ?_
    rw [bne_iff_ne]
    rintro rfl
    exact hnot false huser
  have hdriver : n.driver ≠ some ref := fun h => hnot true (by simp [Net.listed, h])
  cases drives with
  | true => simp [join, leave, husers, ← hfree rfl]
  | false => simp [join, leave, husers, hdriver]

namespace Netlist

variable {nl nl' : Netlist} {cell : CellId} {port : Ident} {net : NetId}

/-! ### Two views of a connection -/

/-- The port behind a reference, if the cell exists and has it. -/
def port? (nl : Netlist) (ref : PortRef) : Option Port :=
  (nl.cell? ref.cell).bind (·.ports.get? ref.port)

/-- The ports that a net lists, if it exists. -/
def listed (nl : Netlist) (id : NetId) (drives : Bool) : List PortRef :=
  ((nl.net? id).map (·.listed drives)).getD []

/-- What an existing net lists is read off its record. -/
theorem listed_of_net? {n : Net} (h : nl.net? net = some n) (drives : Bool) :
    nl.listed net drives = n.listed drives := by
  rw [listed, h, Option.map_some, Option.getD_some]

/-- The two records of every connection agree, and no net lists a user twice. -/
structure Linked (nl : Netlist) : Prop where
  mem_listed : ∀ id drives ref, ref ∈ nl.listed id drives ↔
    ∃ p, nl.port? ref = some p ∧ p.net = some id ∧ p.drives = drives
  nodup : ∀ id, (nl.listed id false).Nodup

/-- Nothing is connected in the empty netlist. -/
theorem linked_empty : ({} : Netlist).Linked := by
  have hlisted (id : NetId) (drives : Bool) : ({} : Netlist).listed id drives = [] := by
    rw [listed, net?, Array.getElem?_empty]
    rfl
  refine ⟨fun id drives ref => ?_, fun id => ?_⟩
  · rw [hlisted, port?, cell?, Array.getElem?_empty]
    simp
  · rw [hlisted]
    exact List.nodup_nil

/-- Two netlists have the same connections. -/
structure SameLinks (nl nl' : Netlist) : Prop where
  port? : ∀ ref, nl'.port? ref = nl.port? ref
  listed : ∀ id drives, nl'.listed id drives = nl.listed id drives

/-- Linking only asks what the ports and the nets say of one another. -/
theorem Linked.of_sameLinks (h : nl.Linked) (hsame : nl.SameLinks nl') : nl'.Linked := by
  refine ⟨fun id drives ref => ?_, fun id => ?_⟩
  · rw [hsame.listed, hsame.port?]
    exact h.mem_listed id drives ref
  · rw [hsame.listed]
    exact h.nodup id

/-! ### Changes that leave the connections alone -/

/-- A new cell has no ports. -/
theorem sameLinks_addCell (nl : Netlist) (name type : Ident) :
    nl.SameLinks (nl.addCell name type).2 := by
  refine ⟨fun ref => ?_, fun _ _ => rfl⟩
  rw [port?, cell?_addCell, port?]
  split
  · rename_i h
    rw [cell?, Array.getElem?_eq_none (Nat.le_of_eq h.symm)]
    rfl
  · rfl

/-- A new net lists no ports. -/
theorem sameLinks_addNet (nl : Netlist) (name : Ident) : nl.SameLinks (nl.addNet name).2 := by
  refine ⟨fun _ => rfl, fun id drives => ?_⟩
  rw [listed, net?_addNet, listed]
  split
  · rename_i h
    rw [net?, Array.getElem?_eq_none (Nat.le_of_eq h.symm)]
    cases drives <;> rfl
  · rfl

/-- A constant net starts without ports, so it links nothing. -/
theorem sameLinks_constNet (nl : Netlist) (name : Ident) : nl.SameLinks (nl.constNet name).2 := by
  rw [constNet]
  split
  · exact ⟨fun _ => rfl, fun _ _ => rfl⟩
  · exact nl.sameLinks_addNet name

/-- A change of a cell that leaves its ports as they are. -/
theorem sameLinks_modifyCell (nl : Netlist) (id : CellId) {f : Cell → Cell}
    (hf : ∀ c, (f c).ports = c.ports) : nl.SameLinks (nl.modifyCell id f) := by
  refine ⟨fun ref => ?_, fun _ _ => rfl⟩
  rw [port?, cell?_modifyCell, port?]
  split
  · rw [Option.bind_map]
    exact congrArg _ (funext fun c => congrArg (Table.get? · ref.port) (hf c))
  · rfl

/-! ### Changes of one port -/

/-- A change of the ports of one cell, of which only one port is changed. -/
theorem port?_modifyCell {c : Cell} (hc : nl.cell? cell = some c) {f : Cell → Cell}
    {p : Option Port} (hf : ∀ other, (f c).ports.get? other = if port = other then p else
      c.ports.get? other) (ref : PortRef) :
    (nl.modifyCell cell f).port? ref = if ref = ⟨cell, port⟩ then p else nl.port? ref := by
  obtain ⟨id, name⟩ := ref
  rw [port?, cell?_modifyCell, port?]
  by_cases hid : cell = id
  · subst hid
    simp only [if_true, hc, Option.map_some, Option.bind_some, hf, PortRef.mk.injEq, true_and,
      eq_comm]
  · rw [if_neg hid, if_neg fun h => hid (congrArg PortRef.cell h).symm]

/-- Pointing one port at a net leaves every other port of the cell as it was. -/
theorem get?_ports_setNet {c : Cell} {p : Port} (hp : c.ports.get? port = some p)
    (net : Option NetId) (other : Ident) : (c.setNet port net).ports.get? other =
      if port = other then some { p with net := net } else c.ports.get? other := by
  simp only [Cell.setNet, hp]
  exact Table.get?_insert ..

/-- A change to one net changes the list of that net only. -/
theorem listed_modifyNet (nl : Netlist) (net id : NetId) (f : Net → Net) (drives : Bool) :
    (nl.modifyNet net f).listed id drives =
      if id = net then ((nl.net? id).map fun n => (f n).listed drives).getD [] else
        nl.listed id drives := by
  rw [listed, net?, modifyNet, Array.getElem?_modify, listed, net?]
  by_cases h : id = net
  · subst h
    rw [if_pos rfl, if_pos rfl, Option.map_map]
    rfl
  · have hindex : net.index ≠ id.index := fun heq => h (by
      obtain ⟨i⟩ := id
      obtain ⟨j⟩ := net
      exact congrArg NetId.mk heq.symm)
    rw [if_neg hindex, if_neg h]

/-- No port is on a net under this reference: there is none, or it is open. -/
def Open (nl : Netlist) (ref : PortRef) : Prop := ∀ p, nl.port? ref = some p → p.net = none

/-- A port the netlist does not have is open. -/
theorem open_of_port?_eq_none {ref : PortRef} (h : nl.port? ref = none) : nl.Open ref := by
  intro p hp
  rw [h] at hp
  cases hp

/-- A cell that gets a port has it open, and its other ports are as before. -/
theorem port?_addPort {c : Cell} (hc : nl.cell? cell = some c) (port : Ident) (dir : PortDir)
    (ref : PortRef) : (nl.addPort cell port dir).port? ref =
      if ref = ⟨cell, port⟩ then some { name := port, dir := dir } else nl.port? ref :=
  port?_modifyCell hc (fun _ => Table.get?_insert ..) ref

/-- A port that is given to a cell in the place of none, or of an open one, is on no net. -/
theorem Linked.addPort (h : nl.Linked) (hopen : nl.Open ⟨cell, port⟩) (dir : PortDir) :
    (nl.addPort cell port dir).Linked := by
  cases hc : nl.cell? cell with
  | none =>
    refine h.of_sameLinks ⟨fun ref => ?_, fun _ _ => rfl⟩
    rw [port?, Netlist.addPort, cell?_modifyCell, port?]
    split
    · rename_i heq
      rw [← heq, hc, Option.map_none]
    · rfl
  | some c =>
    refine ⟨fun id drives ref => (h.mem_listed id drives ref).trans ?_, h.nodup⟩
    rw [port?_addPort hc]
    split
    · rename_i heq
      subst heq
      refine iff_of_false ?_ (by rintro ⟨_, ⟨rfl⟩, hnet, -⟩; cases hnet)
      rintro ⟨p, hp, hnet, -⟩
      rw [hopen p hp] at hnet
      cases hnet
    · exact Iff.rfl

/-! ### Joining a port to a net -/

/-- What joining a port to a net needs and does: the port exists and is on no net, the net exists
and has no driver yet if the port is to drive it, and both get the connection. -/
theorem connect_eq_ok (h : nl.connect cell port net = .ok nl') :
    ∃ c p n, nl.cell? cell = some c ∧ c.ports.get? port = some p ∧ p.net = none ∧
      nl.net? net = some n ∧ (p.drives = true → n.driver = none) ∧
      nl' = (nl.modifyCell cell (·.setNet port (some net))).modifyNet net
        (·.join p.drives ⟨cell, port⟩) := by
  rw [Netlist.connect] at h
  cases hc : nl.cell? cell with
  | none =>
    simp only [hc] at h
    cases h
  | some c =>
    cases hp : c.ports.get? port with
    | none =>
      simp only [hc, hp] at h
      cases h
    | some p =>
      simp only [hc, hp] at h
      by_cases hopen : p.net.isSome = true
      · rw [if_pos hopen] at h
        cases h
      rw [if_neg hopen] at h
      cases hn : nl.net? net with
      | none =>
        simp only [hn] at h
        cases h
      | some n =>
        refine ⟨c, p, n, rfl, hp, by simpa using hopen, rfl, ?_⟩
        simp only [hn] at h
        by_cases hdir : p.dir = .output
        · rw [if_pos hdir] at h
          rw [show p.drives = true from decide_eq_true hdir]
          by_cases hfree : n.driver.isSome = true
          · rw [if_pos hfree] at h
            cases h
          · rw [if_neg hfree] at h
            exact ⟨fun _ => by simpa using hfree, (Except.ok.inj h).symm⟩
        · rw [if_neg hdir] at h
          rw [show p.drives = false from decide_eq_false hdir]
          exact ⟨fun hfalse => absurd hfalse Bool.false_ne_true, (Except.ok.inj h).symm⟩

/-- Both views of a netlist in which a port was put on a net. -/
theorem connect_spec (h : nl.connect cell port net = .ok nl') :
    ∃ p, nl.port? ⟨cell, port⟩ = some p ∧ p.net = none ∧
      (∀ ref, nl'.port? ref =
        if ref = ⟨cell, port⟩ then some { p with net := some net } else nl.port? ref) ∧
      (∀ id drives, nl'.listed id drives =
        if id = net ∧ drives = p.drives then nl.listed id drives ++ [⟨cell, port⟩] else
          nl.listed id drives) := by
  obtain ⟨c, p, n, hc, hp, hopen, hn, hfree, rfl⟩ := connect_eq_ok h
  refine ⟨p, by rw [port?, hc, Option.bind_some, hp], hopen, fun ref => ?_, fun id drives => ?_⟩
  · exact port?_modifyCell hc (get?_ports_setNet hp (some net)) ref
  · refine (listed_modifyNet _ net id _ drives).trans ?_
    by_cases hid : id = net
    · subst hid
      rw [if_pos rfl]
      change ((nl.net? id).map _).getD [] = _
      rw [hn, Option.map_some, Option.getD_some, Net.listed_join hfree, listed_of_net? hn]
      simp only [true_and]
    · rw [if_neg hid, if_neg fun h => hid h.1]
      rfl

/-- A port that is on no net is listed by none. -/
theorem Linked.notMem_listed (h : nl.Linked) {ref : PortRef} {p : Port} (hp : nl.port? ref = some p)
    (hopen : p.net = none) (id : NetId) (drives : Bool) : ref ∉ nl.listed id drives := by
  rw [h.mem_listed, hp]
  rintro ⟨_, ⟨rfl⟩, hnet, -⟩
  rw [hopen] at hnet
  cases hnet

/-- Joining a port to a net puts the connection into both records. -/
theorem Linked.connect (h : nl.Linked) (hc : nl.connect cell port net = .ok nl') : nl'.Linked := by
  obtain ⟨p, hp, hopen, hport, hlisted⟩ := connect_spec hc
  have hnot := h.notMem_listed hp hopen
  refine ⟨fun id drives ref => ?_, fun id => ?_⟩
  · rw [hlisted, hport]
    by_cases href : ref = ⟨cell, port⟩
    · subst href
      rw [if_pos rfl]
      split
      · rename_i heq
        obtain ⟨rfl, rfl⟩ := heq
        exact iff_of_true (List.mem_append_right _ List.mem_cons_self) ⟨_, rfl, rfl, rfl⟩
      · rename_i hne
        refine iff_of_false (hnot id drives) ?_
        rintro ⟨_, ⟨rfl⟩, hnet, hdrives⟩
        exact hne ⟨(Option.some.inj hnet).symm, hdrives.symm⟩
    · rw [if_neg href, ← h.mem_listed]
      split
      · simp [href]
      · exact Iff.rfl
  · rw [hlisted]
    split
    · refine List.nodup_append.mpr ⟨h.nodup id, List.nodup_singleton _,
        fun ref href other hother => ?_⟩
      obtain rfl := List.mem_singleton.mp hother
      rintro rfl
      exact hnot id false href
    · exact h.nodup id

/-! ### Taking a port off its net -/

/-- A port that is on no net is left alone. -/
theorem disconnect_of_open (h : (nl.cell? cell).bind (·.netOf port) = none) :
    nl.disconnect cell port = nl := by
  simp only [disconnect, h]

/-- A port that is on a net is taken off it, on both sides. -/
theorem disconnect_of_port? {p : Port} (hp : nl.port? ⟨cell, port⟩ = some p)
    (hnet : p.net = some net) : nl.disconnect cell port =
      (nl.modifyCell cell (·.setNet port none)).modifyNet net (·.leave ⟨cell, port⟩) := by
  obtain ⟨c, hc, hport⟩ := Option.bind_eq_some_iff.mp hp
  have hon : (nl.cell? cell).bind (·.netOf port) = some net := by
    rw [hc, Option.bind_some, Cell.netOf, hport, Option.bind_some, hnet]
  simp only [Netlist.disconnect, hon]
  rfl

/-- Both views of a netlist in which a port was taken off its net. -/
theorem disconnect_spec {p : Port} (hp : nl.port? ⟨cell, port⟩ = some p) (hnet : p.net = some net) :
    (∀ ref, (nl.disconnect cell port).port? ref =
      if ref = ⟨cell, port⟩ then some { p with net := none } else nl.port? ref) ∧
    (∀ id drives, (nl.disconnect cell port).listed id drives =
      if id = net then (nl.listed id drives).filter (· != ⟨cell, port⟩)
      else nl.listed id drives) := by
  rw [disconnect_of_port? hp hnet]
  obtain ⟨c, hc, hport⟩ := Option.bind_eq_some_iff.mp hp
  refine ⟨fun ref => port?_modifyCell hc (get?_ports_setNet hport none) ref, fun id drives => ?_⟩
  refine (listed_modifyNet _ net id _ drives).trans ?_
  by_cases hid : id = net
  · rw [if_pos hid, if_pos hid, listed]
    change ((nl.net? id).map _).getD [] = _
    cases nl.net? id with
    | none => rfl
    | some n => exact n.listed_leave _ drives
  · rw [if_neg hid, if_neg hid]
    rfl

/-- Taking the reference out on both sides keeps the two sides in agreement. -/
theorem Linked.disconnect (h : nl.Linked) (cell : CellId) (port : Ident) :
    (nl.disconnect cell port).Linked := by
  cases hon : (nl.cell? cell).bind (·.netOf port) with
  | none =>
    rw [disconnect_of_open hon]
    exact h
  | some net =>
    obtain ⟨c, hc, hnet⟩ := Option.bind_eq_some_iff.mp hon
    obtain ⟨p, hp, hnet⟩ := Option.bind_eq_some_iff.mp hnet
    have hp : nl.port? ⟨cell, port⟩ = some p := by rw [port?, hc, Option.bind_some, hp]
    obtain ⟨hport, hlisted⟩ := disconnect_spec hp hnet
    have honly (id : NetId) (drives : Bool)
        (hmem : (⟨cell, port⟩ : PortRef) ∈ nl.listed id drives) : id = net := by
      rw [h.mem_listed, hp] at hmem
      obtain ⟨_, ⟨rfl⟩, hid, -⟩ := hmem
      exact Option.some.inj (hid.symm.trans hnet)
    refine ⟨fun id drives ref => ?_, fun id => ?_⟩
    · rw [hlisted, hport]
      by_cases href : ref = ⟨cell, port⟩
      · subst href
        rw [if_pos rfl]
        refine iff_of_false ?_ (by rintro ⟨_, ⟨rfl⟩, hid, -⟩; cases hid)
        split
        · simp
        · exact mt (honly id drives) ‹_›
      · rw [if_neg href, ← h.mem_listed]
        split
        · simp [href]
        · exact Iff.rfl
    · rw [hlisted]
      split
      · exact (h.nodup id).filter _
      · exact h.nodup id

/-! ### Taking off what was joined -/

/-- Setting the net of an open port and taking it off again. -/
theorem setNet_setNet {c : Cell} {p : Port} (hp : c.ports.get? port = some p) (hopen : p.net = none)
    (net : Option NetId) : (c.setNet port net).setNet port none = c := by
  have hset :
      c.setNet port net = { c with ports := c.ports.insert port { p with net := net } } := by
    rw [Cell.setNet, hp]
  have hback : ({ p with net := none } : Port) = p := by rw [← hopen]
  rw [hset, Cell.setNet, Table.get?_insert_self]
  dsimp only
  rw [Table.insert_insert, hback, Table.insert_of_get? hp]

/-- A port that was put on a net just now can be taken off it without a trace. -/
theorem Linked.disconnect_connect (h : nl.Linked) (hc : nl.connect cell port net = .ok nl') :
    nl'.disconnect cell port = nl := by
  obtain ⟨p, hp, hopen, hport, -⟩ := connect_spec hc
  have hnot := h.notMem_listed hp hopen
  rw [disconnect_of_port? ((hport _).trans (if_pos rfl)) rfl]
  obtain ⟨c, p', n, hcell, hp', -, hn, hfree, rfl⟩ := connect_eq_ok hc
  obtain rfl : p' = p := by
    rw [port?, hcell, Option.bind_some, hp'] at hp
    exact Option.some.inj hp
  have hcells : (nl.cells.modify cell.index (·.setNet port (some net))).modify cell.index
      (·.setNet port none) = nl.cells := by
    refine modify_modify_of_undo fun c' hc' => ?_
    obtain rfl := Option.some.inj (hcell.symm.trans hc')
    exact setNet_setNet hp' hopen (some net)
  have hnets : (nl.nets.modify net.index (·.join p'.drives ⟨cell, port⟩)).modify net.index
      (·.leave ⟨cell, port⟩) = nl.nets := by
    refine modify_modify_of_undo fun n' hn' => ?_
    obtain rfl := Option.some.inj (hn.symm.trans hn')
    refine Net.leave_join hfree fun drives => ?_
    rw [← listed_of_net? hn]
    exact hnot net drives
  exact congrArg₂ (fun cells nets => { nl with cells := cells, nets := nets }) hcells hnets

/-! ### Rewiring -/

/-- The second netlist comes from the first by joining ports to nets, by taking ports off their
nets, and by changes that leave the connections alone. -/
inductive Rewired : Netlist → Netlist → Prop where
  | sameLinks {nl nl' : Netlist} (h : nl.SameLinks nl') : Rewired nl nl'
  | connect {nl nl' : Netlist} {cell : CellId} {port : Ident} {net : NetId}
      (h : nl.connect cell port net = .ok nl') : Rewired nl nl'
  | disconnect (nl : Netlist) (cell : CellId) (port : Ident) : Rewired nl (nl.disconnect cell port)
  | trans {nl mid nl' : Netlist} (h : Rewired nl mid) (h' : Rewired mid nl') : Rewired nl nl'

/-- Every rewiring is a chain of steps that each keep the links. -/
theorem Linked.of_rewired (h : nl.Linked) (hrewired : nl.Rewired nl') : nl'.Linked := by
  induction hrewired with
  | sameLinks hsame => exact h.of_sameLinks hsame
  | connect hconnect => exact h.connect hconnect
  | disconnect nl cell port => exact h.disconnect cell port
  | trans _ _ ih ih' => exact ih' (ih h)

end Netlist

/-! ### Edits -/

/-- The netlist of the second model is linked if that of the first is. -/
def Device.KeepsLinks (d d' : Device) : Prop := d.netlist.Linked → d'.netlist.Linked

/-- The netlist of the second model is that of the first, rewired. -/
def Device.Rewires (d d' : Device) : Prop := d.netlist.Rewired d'.netlist

instance : IsPreorder Device Device.Rewires where
  refl _ := .sameLinks ⟨fun _ => rfl, fun _ _ => rfl⟩
  trans _ _ _ := .trans

/-- A rewiring of the model's netlist keeps its links. -/
theorem Device.Rewires.keepsLinks {d d' : Device} (h : d.Rewires d') : d.KeepsLinks d' :=
  fun hd => hd.of_rewired h

namespace Edit

open Device (KeepsLinks Rewires)

/-- Asking for a cell changes nothing. -/
theorem rewires_requireCell (id : CellId) : (requireCell id).Keeps Rewires :=
  .bind .get fun _ => .require _ _

/-- A change to a cell other than in its ports rewires nothing. -/
theorem rewires_modifyCell (id : CellId) {f : Cell → Cell} (hf : ∀ c, (f c).ports = c.ports) :
    (modifyCell id f).Keeps Rewires :=
  .bind (rewires_requireCell id) fun _ => .modify fun d =>
    Netlist.Rewired.sameLinks (d.netlist.sameLinks_modifyCell id hf)

/-- A constant net is made as a net of its own. -/
theorem rewires_constNet (value : Bool) : (constNet value).Keeps Rewires := fun d =>
  Netlist.Rewired.sameLinks (d.netlist.sameLinks_constNet _)

/-- A new port links nothing as long as the port was open before. -/
theorem links_addPort {d : Device} {id : CellId} {port : Ident}
    (hopen : d.netlist.Open ⟨id, port⟩) (dir : PortDir) :
    d.KeepsLinks ((addPort id port dir).run d).2 := by
  cases hc : d.netlist.cell? id with
  | none =>
    rw [addPort, requireCell, bind_assoc, run_get_bind, hc]
    exact fun h => h
  | some c =>
    rw [addPort, run_bind_of_ok (run_requireCell hc)]
    exact fun h => h.addPort hopen dir

/-- Joining a port to a net changes nothing if it fails. -/
theorem run_connect_of_error {d d' : Device} {id : CellId} {port : Ident} {net : NetId} {e : Error}
    (h : (connect id port net).run d = (.error e, d')) : d' = d := by
  rw [connect, onNetlist, run_get_bind] at h
  split at h
  · cases h
  · exact (Prod.mk.inj h).2.symm

/-- Joining a port to a net changes the netlist, and nothing else, if it succeeds. -/
theorem run_connect_eq_ok {d d' : Device} {id : CellId} {port : Ident} {net : NetId}
    (h : (connect id port net).run d = (.ok (), d')) :
    ∃ nl, d.netlist.connect id port net = .ok nl ∧ d' = { d with netlist := nl } := by
  rw [connect, onNetlist, run_get_bind] at h
  split at h
  · rename_i nl hnl
    exact ⟨nl, hnl, (Prod.mk.inj h).2.symm⟩
  · cases h

/-- A connection is a rewiring, whether it is made or refused. -/
theorem rewires_connect (id : CellId) (port : Ident) (net : NetId) :
    (connect id port net).Keeps Rewires := by
  intro d
  obtain ⟨a, d', hrun⟩ : ∃ a d', (connect id port net).run d = (a, d') := ⟨_, _, rfl⟩
  rw [hrun]
  cases a with
  | error e =>
    rw [run_connect_of_error hrun]
    exact refl_of Rewires d
  | ok a =>
    obtain ⟨nl, hconnect, rfl⟩ := run_connect_eq_ok hrun
    exact .connect hconnect

/-- A disconnection is a rewiring, also of a port that was open. -/
theorem rewires_disconnect (id : CellId) (port : Ident) : (disconnect id port).Keeps Rewires :=
  .bind (rewires_requireCell id) fun _ => .modify fun d => .disconnect d.netlist id port

/-- Deriving a LUT reads its netlist and stores the summary beside it. -/
theorem rewires_deriveLut (id : CellId) : (deriveLut id).Keeps Rewires := by
  refine .bind (rewires_requireCell id) fun cell => ?_
  cases CellType.logicInputs? cell.type with
  | none => exact .bind .get fun _ => .throw _
  | some n => exact rewires_modifyCell id fun _ => rfl

/-- Deriving a flip-flop connects SLOAD where it has to, which is a rewiring. -/
theorem rewires_deriveFlipFlop (id : CellId) : (deriveFlipFlop id).Keeps Rewires := by
  have hset (zeroNet : Option NetId) : (modifyCell id fun c =>
      { c with flipFlop := c.flipFlopSummary zeroNet }).Keeps Rewires :=
    rewires_modifyCell id fun _ => rfl
  refine .bind (rewires_requireCell id) fun cell => ?_
  dsimp only
  split
  · exact .bind (.map some (rewires_constNet false)) hset
  · exact .bind (.pure none) hset

/-- Deriving a cell of any type is a rewiring or no change. -/
theorem rewires_deriveCell (id : CellId) : (deriveCell id).Keeps Rewires := by
  refine .bind (rewires_requireCell id) fun cell => ?_
  split
  · exact rewires_deriveLut id
  split
  · exact rewires_deriveFlipFlop id
  · exact .pure _

/-- Deriving every cell is a rewiring, cell after cell. -/
theorem rewires_deriveAll : deriveAll.Keeps Rewires :=
  .bind .get fun _ => .forM fun id _ => rewires_deriveCell id

/-- Folding a pin disconnects at most that pin. -/
theorem rewires_foldPin (id : CellId) (p : Port) : (foldPin id p).Keeps Rewires := by
  refine .bind (rewires_requireCell id) fun cell => .bind .get fun d => ?_
  cases d.foldedPin? cell p with
  | none => exact .pure false
  | some value =>
    refine .bind (.modify fun d => .disconnect d.netlist id p.name) fun _ => ?_
    exact .bind (rewires_modifyCell id fun _ => rfl) fun _ => .pure true

/-- The ports that are looked at are those from before the loop, and each is taken off the net that
it is on by then. -/
theorem rewires_applyPinDefaults (id : CellId) : (applyPinDefaults id).Keeps Rewires := by
  refine .bind (rewires_requireCell id) fun cell =>
    .bind (.mapM fun p _ => rewires_foldPin id p) fun tied => ?_
  dsimp only
  split
  · exact .bind (rewires_deriveCell id) fun _ => .pure _
  · exact .pure _

/-- A port that was joined to a net just now can be taken off it without a trace. -/
theorem run_disconnect_of_connect {d d' : Device} (hd : d.netlist.Linked) {id : CellId}
    {port : Ident} {net : NetId} (h : (connect id port net).run d = (.ok (), d')) :
    (disconnect id port).run d' = (.ok (), d) := by
  obtain ⟨nl, hconnect, rfl⟩ := run_connect_eq_ok h
  obtain ⟨p, -, -, hport, -⟩ := Netlist.connect_spec hconnect
  obtain ⟨c, hc, -⟩ := Option.bind_eq_some_iff.mp ((hport _).trans (if_pos rfl))
  rw [disconnect, run_bind_of_ok (run_requireCell (d := { d with netlist := nl }) hc), run_modify,
    hd.disconnect_connect hconnect]

end Edit

/-! ### Runs -/

/-- The models that have a netlist which came from the empty one by adding cells, nets and ports
under new names, by joining ports to nets and taking them apart, and by tying inputs and deriving
summaries. A step may fail, halfway also. -/
inductive NetlistRun : Device → Prop where
  | empty {d : Device} (h : d.netlist = {}) : NetlistRun d
  /-- Whatever happens to the rest of a model. -/
  | elsewhere {d d' : Device} (h : NetlistRun d) (hsame : d'.netlist = d.netlist) : NetlistRun d'
  | addCell {d : Device} (h : NetlistRun d) (name type : Ident) :
      NetlistRun { d with netlist := (d.netlist.addCell name type).2 }
  | addNet {d : Device} (h : NetlistRun d) (name : Ident) :
      NetlistRun { d with netlist := (d.netlist.addNet name).2 }
  | addPort {d : Device} (h : NetlistRun d) (cell : CellId) (port : Ident) (dir : PortDir)
      (hnew : d.netlist.port? ⟨cell, port⟩ = none) :
      NetlistRun ((Edit.addPort cell port dir).run d).2
  | connect {d : Device} (h : NetlistRun d) (cell : CellId) (port : Ident) (net : NetId) :
      NetlistRun ((Edit.connect cell port net).run d).2
  | disconnect {d : Device} (h : NetlistRun d) (cell : CellId) (port : Ident) :
      NetlistRun ((Edit.disconnect cell port).run d).2
  | constNet {d : Device} (h : NetlistRun d) (value : Bool) :
      NetlistRun ((Edit.constNet value).run d).2
  | applyPinDefaults {d : Device} (h : NetlistRun d) (cell : CellId) :
      NetlistRun ((Edit.applyPinDefaults cell).run d).2
  | deriveAll {d : Device} (h : NetlistRun d) : NetlistRun (Edit.deriveAll.run d).2

namespace NetlistRun

variable {d : Device}

/-- The netlist of a run is linked. -/
theorem linked (h : NetlistRun d) : d.netlist.Linked := by
  induction h with
  | empty h =>
    rw [h]
    exact Netlist.linked_empty
  | elsewhere _ hsame ih =>
    rw [hsame]
    exact ih
  | addCell _ name type ih => exact ih.of_sameLinks (Netlist.sameLinks_addCell _ name type)
  | addNet _ name ih => exact ih.of_sameLinks (Netlist.sameLinks_addNet _ name)
  | addPort _ cell port dir hnew ih =>
    exact Edit.links_addPort (Netlist.open_of_port?_eq_none hnew) dir ih
  | connect _ cell port net ih => exact (Edit.rewires_connect cell port net _).keepsLinks ih
  | disconnect _ cell port ih => exact (Edit.rewires_disconnect cell port _).keepsLinks ih
  | constNet _ value ih => exact (Edit.rewires_constNet value _).keepsLinks ih
  | applyPinDefaults _ cell ih => exact (Edit.rewires_applyPinDefaults cell _).keepsLinks ih
  | deriveAll _ ih => exact (Edit.rewires_deriveAll _).keepsLinks ih

end NetlistRun

namespace Netlist.Linked

variable {nl : Netlist} {ref : PortRef} {p : Port} {id : NetId} {n : Net}

/-- The net that a port is on lists it once: as its driver if the port is an
output, else as a user. -/
theorem net_eq_some_iff (h : nl.Linked) (hp : nl.port? ref = some p) (hn : nl.net? id = some n) :
    p.net = some id ↔ if p.dir = .output then n.driver = some ref else n.users.count ref = 1 := by
  have hlisted : ref ∈ n.listed p.drives ↔ p.net = some id := by
    rw [← listed_of_net? hn, h.mem_listed]
    constructor
    · rintro ⟨p', hp', hnet, -⟩
      obtain rfl := Option.some.inj (hp.symm.trans hp')
      exact hnet
    · exact fun hnet => ⟨p, hp, hnet, rfl⟩
  rw [← hlisted]
  split
  · rename_i hdir
    rw [Port.drives, decide_eq_true hdir, Net.listed, if_pos rfl, Option.mem_toList]
  · rename_i hdir
    have hnodup : n.users.Nodup := by
      have := h.nodup id
      rwa [listed_of_net? hn] at this
    rw [Port.drives, decide_eq_false hdir]
    exact ⟨List.count_eq_one_of_mem hnodup,
      fun hcount => List.count_pos_iff.mp (hcount ▸ Nat.one_pos)⟩

/-- The driver of a net is an output on that net. -/
theorem exists_driver (h : nl.Linked) (hn : nl.net? id = some n) (hdriver : n.driver = some ref) :
    ∃ p, nl.port? ref = some p ∧ p.dir = .output ∧ p.net = some id := by
  obtain ⟨p, hp, hnet, hdrives⟩ := (h.mem_listed id true ref).mp (by
    rw [listed_of_net? hn, Net.listed, if_pos rfl, Option.mem_toList, hdriver])
  exact ⟨p, hp, of_decide_eq_true hdrives, hnet⟩

/-- The users of a net are ports on that net that are no outputs. -/
theorem exists_user (h : nl.Linked) (hn : nl.net? id = some n) (huser : ref ∈ n.users) :
    ∃ p, nl.port? ref = some p ∧ p.dir ≠ .output ∧ p.net = some id := by
  obtain ⟨p, hp, hnet, hdrives⟩ := (h.mem_listed id false ref).mp (by
    rw [listed_of_net? hn]
    exact huser)
  exact ⟨p, hp, of_decide_eq_false hdrives, hnet⟩

/-- A port is on no net that does not exist. -/
theorem isSome_net? (h : nl.Linked) (hp : nl.port? ref = some p) (hnet : p.net = some id) :
    (nl.net? id).isSome := by
  have hmem := (h.mem_listed id p.drives ref).mpr ⟨p, hp, hnet, rfl⟩
  cases hn : nl.net? id with
  | none =>
    rw [listed, hn] at hmem
    cases hmem
  | some n => rfl

end Netlist.Linked

namespace NetlistRun

variable {d : Device}

/-- In every run, ports and nets refer to each other: a port is on a net exactly if the net has it
as its driver, for an output, or once among its users, for any other port, and the entries of a net
are such ports. A port that cannot be joined to a net leaves the model as it is, and one that was
joined can be taken off again without a trace. -/
theorem crossReferences (h : NetlistRun d) :
    (∀ ref p, d.netlist.port? ref = some p →
      (∀ id, p.net = some id → (d.netlist.net? id).isSome) ∧
      ∀ id n, d.netlist.net? id = some n → (p.net = some id ↔
        if p.dir = .output then n.driver = some ref else n.users.count ref = 1)) ∧
    (∀ id n, d.netlist.net? id = some n →
      (∀ ref, n.driver = some ref →
        ∃ p, d.netlist.port? ref = some p ∧ p.dir = .output ∧ p.net = some id) ∧
      ∀ ref ∈ n.users, ∃ p, d.netlist.port? ref = some p ∧ p.dir ≠ .output ∧ p.net = some id) ∧
    ∀ cell port net,
      (∀ e d', (Edit.connect cell port net).run d = (.error e, d') → d' = d) ∧
      ∀ d', (Edit.connect cell port net).run d = (.ok (), d') →
        (Edit.disconnect cell port).run d' = (.ok (), d) := by
  have hd := h.linked
  refine ⟨fun ref p hp => ?_, fun id n hn => ?_, fun cell port net => ?_⟩
  · exact ⟨fun id => hd.isSome_net? hp, fun id n => hd.net_eq_some_iff hp⟩
  · exact ⟨fun ref => hd.exists_driver hn, fun ref => hd.exists_user hn⟩
  · exact ⟨fun e d' => Edit.run_connect_of_error, fun d' => Edit.run_disconnect_of_connect hd⟩

/-- A logic cell, a net, and an input of the cell that was joined to the net. -/
theorem crossReferences_input : ∃ d p n, NetlistRun d ∧
    d.netlist.port? ⟨⟨0⟩, Known.a⟩ = some p ∧ d.netlist.net? ⟨0⟩ = some n ∧
    p.net = some ⟨0⟩ ∧ n.users.count ⟨⟨0⟩, Known.a⟩ = 1 := by
  have hempty : NetlistRun { (default : Device) with netlist := {} } := .empty rfl
  have hdrawn := (hempty.addCell Known.bufGate Known.bufGate).addNet Known.q
  have hport := hdrawn.addPort ⟨0⟩ Known.a .input rfl
  have hrun := hport.connect ⟨0⟩ Known.a ⟨0⟩
  have hjoined := ((hrun.crossReferences.1 ⟨⟨0⟩, Known.a⟩ _ rfl).2 ⟨0⟩ _ rfl).mp rfl
  exact ⟨_, _, _, hrun, rfl, rfl, rfl, hjoined⟩

end NetlistRun

end Fabric
