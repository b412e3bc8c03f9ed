import Fabric.Device.Derived

/-!
# Closed netlists

A cell refers to nets in its ports and in its summary, and the index by name refers to nets too. A
net in turn refers to a name, which is a number that an interner knows. A netlist is *closed* if all
of these exist: the nets that cells refer to are there, a net that is found by a name has that name,
and the names of nets are in use.

Cells and ports can be added, joined and taken apart, and a closed netlist stays one. Nets can be
added under names that are in use, and names can be put into use. So what an interner says of a net
that exists is said once and for all.

## Main results

* `Closed.modifyCell`, `Closed.modifyNet`, `Closed.addCell`, `Closed.addNet`: changes of a closed
  netlist;
* `Closed.intern`, `Closed.name?_intern`: more names in use.
-/

namespace Fabric

/-- The name of an interned string is in use. -/
theorem Interner.isSome_name?_intern (t : Interner) (s : String) :
    ((t.intern s).2.name? (t.intern s).1).isSome := by
  rw [name?_intern_self, Option.isSome_some]

/-! ### The nets that a cell refers to -/

namespace Cell

variable {c : Cell} {n : NetId}

/-- A cell refers to the nets that its ports are on, and to those in its control set. -/
def RefersTo (c : Cell) (net : NetId) : Prop :=
  (∃ pin, c.netOf pin = some net) ∨ ∃ kind, (c.flipFlop.control.get kind).net = some net

/-- A cell with the same ports and flip-flop refers to the same nets. -/
theorem RefersTo.of_same {c' : Cell} (hports : c'.ports = c.ports)
    (hflop : c'.flipFlop = c.flipFlop) (h : c'.RefersTo n) : c.RefersTo n := by
  rw [RefersTo, hflop] at h
  refine h.imp_left fun ⟨pin, hpin⟩ => ⟨pin, ?_⟩
  rwa [netOf, hports] at hpin

/-- A port that is put on a net, or taken off one, leaves the others on theirs. -/
theorem refersTo_setNet {port : Ident} {net : Option NetId} (h : (c.setNet port net).RefersTo n) :
    c.RefersTo n ∨ net = some n := by
  rw [setNet] at h
  split at h
  · exact .inl h
  rcases h with ⟨pin, hpin⟩ | hcontrol
  · rw [netOf, Table.get?_insert] at hpin
    split at hpin
    · exact .inr hpin
    · exact .inl (.inl ⟨pin, hpin⟩)
  · exact .inl (.inr hcontrol)

/-- A new port is on no net. -/
theorem refersTo_addPort {port : Ident} {dir : PortDir}
    (h : ({ c with ports := c.ports.insert port { name := port, dir := dir } } : Cell).RefersTo n) :
    c.RefersTo n := by
  refine h.imp_left fun ⟨pin, hpin⟩ => ⟨pin, ?_⟩
  rw [netOf, Table.get?_insert] at hpin
  split at hpin
  · cases hpin
  · exact hpin

/-- The control signals of a flip-flop are at its pins, but for the load, which
can be the zero net. -/
theorem signal_flipFlopSummary (c : Cell) (zeroNet : Option NetId) (kind : ControlKind) :
    (c.flipFlopSummary zeroNet).control.get kind =
      match kind, zeroNet with
      | .sload, some net => ⟨net, false⟩
      | kind, _ => c.controlSignal kind.pin := by
  cases kind <;> cases zeroNet <;> rfl

/-- The summary of a flip-flop speaks of the nets at its pins and of the zero net. -/
theorem refersTo_flipFlopSummary {zeroNet : Option NetId}
    (h : ({ c with flipFlop := c.flipFlopSummary zeroNet } : Cell).RefersTo n) :
    c.RefersTo n ∨ zeroNet = some n := by
  rcases h with hpin | ⟨kind, hkind⟩
  · exact .inl (.inl hpin)
  · replace hkind : ((c.flipFlopSummary zeroNet).control.get kind).net = some n := hkind
    rw [signal_flipFlopSummary] at hkind
    split at hkind
    · exact .inr hkind
    · exact .inl (.inl ⟨_, hkind⟩)

end Cell

namespace Netlist

variable {nl : Netlist} {t : Interner}

/-! ### Lookups after a change -/

/-- A change to one cell leaves the others as they were. -/
theorem cell?_modifyCell (nl : Netlist) (id id' : CellId) (f : Cell → Cell) :
    (nl.modifyCell id f).cell? id' = if id = id' then (nl.cell? id').map f else nl.cell? id' := by
  rw [cell?, modifyCell, Array.getElem?_modify]
  by_cases h : id = id'
  · rw [if_pos h, if_pos (congrArg CellId.index h), cell?]
  · have hindex : id.index ≠ id'.index := fun heq => h (by
      obtain ⟨i⟩ := id
      obtain ⟨j⟩ := id'
      rw [CellId.mk.injEq]
      exact heq)
    rw [if_neg h, if_neg hindex, cell?]

/-- A new cell comes last, and the others stay. -/
theorem cell?_addCell (nl : Netlist) (name type : Ident) (id : CellId) :
    (nl.addCell name type).2.cell? id =
      if id.index = nl.cells.size then some { name := name, type := type } else nl.cell? id := by
  rw [cell?, addCell, Array.getElem?_push, cell?]

/-- A new net comes last, and the others stay. -/
theorem net?_addNet (nl : Netlist) (name : Ident) (id : NetId) :
    (nl.addNet name).2.net? id =
      if id.index = nl.nets.size then some { name := name } else nl.net? id := by
  rw [net?, addNet, Array.getElem?_push, net?]

/-- A net that exists is not the next one to be added. -/
theorem index_ne_of_net? {id : NetId} {n : Net} (h : nl.net? id = some n) :
    id.index ≠ nl.nets.size :=
  Nat.ne_of_lt (Array.getElem?_eq_some_iff.mp h).1

/-- Nets that exist stay when one is added. -/
theorem net?_addNet_of_net? {id : NetId} {n : Net} (h : nl.net? id = some n) (name : Ident) :
    (nl.addNet name).2.net? id = some n := by
  rw [net?_addNet, if_neg (index_ne_of_net? h), h]

/-- A constant net touches no cell. -/
theorem cells_constNet (nl : Netlist) (name : Ident) : (nl.constNet name).2.cells = nl.cells := by
  rw [constNet]
  split <;> rfl

/-- A constant net that was made is found by its name. -/
theorem findNet?_constNet (nl : Netlist) (name : Ident) :
    (nl.constNet name).2.findNet? name = some (nl.constNet name).1 := by
  rw [constNet]
  split
  · assumption
  · exact Std.HashMap.getElem?_insert_self

/-- Nets that exist stay when a constant net is made. -/
theorem net?_constNet_of_net? {id : NetId} {n : Net} (h : nl.net? id = some n) (name : Ident) :
    (nl.constNet name).2.net? id = some n := by
  rw [constNet]
  split
  · exact h
  · exact net?_addNet_of_net? h name

/-- What a change of a net leaves alone, no net loses. -/
theorem map_net?_modifyNet {α : Type} {g : Net → α} (nl : Netlist) (id net : NetId) {f : Net → Net}
    (h : ∀ n, g (f n) = g n) : ((nl.modifyNet id f).net? net).map g = (nl.net? net).map g := by
  rw [net?, modifyNet, Array.getElem?_modify]
  split
  · rw [Option.map_map, show g ∘ f = g from funext h]
    rfl
  · rfl

/-- Nets keep their names when one of them is changed otherwise. -/
theorem map_name_net?_modifyNet (nl : Netlist) (id net : NetId) {f : Net → Net}
    (h : ∀ n, (f n).name = n.name) :
    ((nl.modifyNet id f).net? net).map Net.name = (nl.net? net).map Net.name :=
  nl.map_net?_modifyNet id net h

/-! ### Closed netlists -/

/-- Whatever a netlist refers to exists: the names of its nets are in use, a net that is found by a
name has that name, and its cells refer to nets of it. -/
structure Closed (nl : Netlist) (t : Interner) : Prop where
  named : ∀ id n, nl.net? id = some n → (t.name? n.name).isSome
  found : ∀ name id, nl.findNet? name = some id → (nl.net? id).map Net.name = some name
  referred : ∀ id c net, nl.cell? id = some c → c.RefersTo net → (nl.net? net).isSome

/-- The empty netlist refers to nothing. -/
theorem closed_empty (t : Interner) : ({} : Netlist).Closed t := by
  refine ⟨fun id n h => ?_, fun name id h => ?_, fun id c net h => ?_⟩
  · rw [net?, Array.getElem?_empty] at h
    cases h
  · rw [findNet?, Std.HashMap.getElem?_empty] at h
    cases h
  · rw [cell?, Array.getElem?_empty] at h
    cases h

namespace Closed

/-- A net that is found by a name exists. -/
theorem isSome_of_findNet? (h : nl.Closed t) {name : Ident} {id : NetId}
    (hid : nl.findNet? name = some id) : (nl.net? id).isSome := by
  rw [← Option.isSome_map, h.found name id hid, Option.isSome_some]

/-- Putting a name into use renames no net that exists. -/
theorem name?_intern (h : nl.Closed t) {id : NetId} {n : Net} (hn : nl.net? id = some n)
    (s : String) :
    (t.intern s).2.name? n.name = t.name? n.name := by
  obtain ⟨name, hname⟩ := Option.isSome_iff_exists.mp (h.named id n hn)
  rw [Interner.name?_intern hname, hname]

/-- More names may be in use. -/
theorem intern (h : nl.Closed t) (s : String) : nl.Closed (t.intern s).2 :=
  ⟨fun id n hn => by rw [h.name?_intern hn]; exact h.named id n hn, h.found, h.referred⟩

/-- A cell is changed, and refers to nets that it referred to before or to other nets that exist. -/
theorem modifyCell (h : nl.Closed t) (id : CellId) {f : Cell → Cell}
    (hf : ∀ c net, (f c).RefersTo net → c.RefersTo net ∨ (nl.net? net).isSome) :
    (nl.modifyCell id f).Closed t := by
  refine ⟨h.named, h.found, fun id' c net hc hnet => ?_⟩
  rw [cell?_modifyCell] at hc
  split at hc
  · obtain ⟨before, hbefore, rfl⟩ := Option.map_eq_some_iff.mp hc
    exact (hf before net hnet).elim (h.referred id' before net hbefore) fun hexists => hexists
  · exact h.referred id' c net hc hnet

/-- A net is changed, but not its name. -/
theorem modifyNet (h : nl.Closed t) (id : NetId) {f : Net → Net} (hf : ∀ n, (f n).name = n.name) :
    (nl.modifyNet id f).Closed t := by
  have hname := fun net => nl.map_name_net?_modifyNet id net hf
  refine ⟨fun net n hn => ?_, fun name net hnet => ?_, fun id' c net hc hnet => ?_⟩
  · have hbefore := hname net
    rw [hn, Option.map_some] at hbefore
    obtain ⟨before, hbefore, heq⟩ := Option.map_eq_some_iff.mp hbefore.symm
    rw [← heq]
    exact h.named net before hbefore
  · rw [hname]
    exact h.found name net hnet
  · rw [← Option.isSome_map (f := Net.name), hname, Option.isSome_map]
    exact h.referred id' c net hc hnet

/-- A new cell has no ports. -/
theorem addCell (h : nl.Closed t) (name type : Ident) : (nl.addCell name type).2.Closed t := by
  refine ⟨h.named, h.found, fun id c net hc hnet => ?_⟩
  rw [cell?_addCell] at hc
  split at hc
  · obtain rfl := Option.some.inj hc
    rcases hnet with ⟨pin, hpin⟩ | ⟨kind, hkind⟩
    · cases hpin
    · cases kind <;> cases hkind
  · exact h.referred id c net hc hnet

/-- A net is added under a name that is in use. -/
theorem addNet (h : nl.Closed t) {name : Ident} (hname : (t.name? name).isSome) :
    (nl.addNet name).2.Closed t := by
  refine ⟨fun id n hn => ?_, fun name' id hid => ?_, fun id c net hc hnet => ?_⟩
  · rw [net?_addNet] at hn
    split at hn
    · obtain rfl := Option.some.inj hn
      exact hname
    · exact h.named id n hn
  · rw [findNet?, Netlist.addNet, Std.HashMap.getElem?_insert] at hid
    split at hid
    · rename_i heq
      obtain rfl := Option.some.inj hid
      rw [net?_addNet, if_pos rfl, Option.map_some, eq_of_beq heq]
    · obtain ⟨n, hn, heq⟩ := Option.map_eq_some_iff.mp (h.found name' id hid)
      rw [net?_addNet_of_net? hn, Option.map_some, heq]
  · obtain ⟨n, hn⟩ := Option.isSome_iff_exists.mp (h.referred id c net hc hnet)
    rw [net?_addNet_of_net? hn, Option.isSome_some]

/-- A constant net is there or is added. -/
theorem constNet (h : nl.Closed t) {name : Ident} (hname : (t.name? name).isSome) :
    (nl.constNet name).2.Closed t := by
  rw [Netlist.constNet]
  split
  · exact h
  · exact h.addNet hname

end Closed

end Netlist

end Fabric
