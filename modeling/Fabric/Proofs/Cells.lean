import Fabric.Device.Derived

/-!
# What a cell can be

A design changes a cell in a few ways only: it gets a port, a port gets a net or loses it, its
parameters, pins or site are recorded, or a summary of it is derived. A cell is *made* when such
changes lead to it from a new cell. What holds of a new cell and is kept by each change holds of
every cell that is made.

## Main results

* `SameButSitePins`: what does not change when a cell is given other site pins;
* `sitePins_putSitePins`, `putSitePins_putSitePins`: a cell has the site pins that were set last;
* `Made.derived`: the connected inputs in the summary of a logic cell are ports of it;
* `Made.sized`: the truth table of a summary is no larger than its inputs need;
* `Made.named`, `Named.get?_name`: the ports are known by their names.
-/

namespace Fabric.Cell

/-- The cells that a design can have. -/
inductive Made : Cell → Prop
  | new (name type : Ident) : Made { name := name, type := type }
  | addPort {c : Cell} (h : c.Made) (port : Ident) (dir : PortDir) :
      Made { c with ports := c.ports.insert port { name := port, dir := dir } }
  | setNet {c : Cell} (h : c.Made) (port : Ident) (net : Option NetId) : (c.setNet port net).Made
  | params {c : Cell} (h : c.Made) (params : Table Ident Property) :
      Made { c with params := params }
  | pins {c : Cell} (h : c.Made) (pins : Table Ident PinMap) : Made { c with pins := pins }
  | site {c : Cell} (h : c.Made) (site : Option BelId) : Made { c with site := site }
  | lut {c : Cell} (h : c.Made) {n : Nat} (hn : CellType.logicInputs? c.type = some n) :
      Made { c with lut := c.lutSummary n }
  | flipFlop {c : Cell} (h : c.Made) (info : FlipFlopInfo) : Made { c with flipFlop := info }

/-! ### Changes of site pins -/

/-- Site pins do not change the state of a pin. -/
theorem pinState_setSitePins (c : Cell) (port other : Ident) (sitePins : List Ident) :
    (c.setSitePins port sitePins).pinState other = c.pinState other := by
  rw [pinState, pinState, setSitePins, Table.get?_update]
  split
  · rename_i h
    rw [h]
    rfl
  · rfl

/-- Site pins are set for one port only. -/
theorem sitePins_setSitePins (c : Cell) (port other : Ident) (sitePins : List Ident) :
    (c.setSitePins port sitePins).sitePins other =
      if port = other then sitePins else c.sitePins other := by
  rw [Cell.sitePins, Cell.sitePins, setSitePins, Table.get?_update]
  split <;> rfl

/-- Two cells differ in the site pins that they use at most. -/
structure SameButSitePins (c c' : Cell) : Prop where
  record : ∃ pins, c' = { c with pins := pins }
  pinState : ∀ port, c'.pinState port = c.pinState port

namespace SameButSitePins

variable {c c' c'' : Cell}

protected theorem refl (c : Cell) : c.SameButSitePins c := ⟨⟨c.pins, rfl⟩, fun _ => rfl⟩

protected theorem trans (h : c.SameButSitePins c') (h' : c'.SameButSitePins c'') :
    c.SameButSitePins c'' := by
  refine ⟨?_, fun port => (h'.pinState port).trans (h.pinState port)⟩
  obtain ⟨pins, rfl⟩ := h.record
  obtain ⟨pins', rfl⟩ := h'.record
  exact ⟨pins', rfl⟩

/-- Site pins can be set for one port. -/
theorem setSitePins (c : Cell) (port : Ident) (sitePins : List Ident) :
    c.SameButSitePins (c.setSitePins port sitePins) :=
  ⟨⟨_, rfl⟩, fun other => c.pinState_setSitePins port other sitePins⟩

/-- A loop that sets site pins sets nothing else. -/
protected theorem foldl {β : Type} {f : Cell → β → Cell}
    (h : ∀ (c : Cell) b, c.SameButSitePins (f c b)) (l : List β) (c : Cell) :
    c.SameButSitePins (l.foldl f c) := by
  induction l generalizing c with
  | nil => exact .refl c
  | cons b rest ih => exact (h c b).trans (ih (f c b))

/-- A cell stays a made one when site pins are set. -/
theorem made (h : c.SameButSitePins c') (hc : c.Made) : c'.Made := by
  obtain ⟨pins, rfl⟩ := h.record
  exact hc.pins pins

/-- Cells that are the same but for site pins have the same ports. -/
theorem ports (h : c.SameButSitePins c') : c'.ports = c.ports := by
  obtain ⟨pins, rfl⟩ := h.record
  rfl

/-- Cells that are the same but for site pins are on the same site. -/
theorem site (h : c.SameButSitePins c') : c'.site = c.site := by
  obtain ⟨pins, rfl⟩ := h.record
  rfl

/-- Cells that are the same but for site pins have the same summary of a logic cell. -/
theorem lut (h : c.SameButSitePins c') : c'.lut = c.lut := by
  obtain ⟨pins, rfl⟩ := h.record
  rfl

/-- Cells that are the same but for site pins have the same summary of a flip-flop. -/
theorem flipFlop (h : c.SameButSitePins c') : c'.flipFlop = c.flipFlop := by
  obtain ⟨pins, rfl⟩ := h.record
  rfl

end SameButSitePins

/-! ### Site pins set one after another -/

/-- Site pins that are set again are those of the second time. -/
theorem setSitePins_setSitePins (c : Cell) (port : Ident) (hidden sitePins : List Ident) :
    (c.setSitePins port hidden).setSitePins port sitePins = c.setSitePins port sitePins := by
  simp [setSitePins, Table.update, Table.insert_insert]

/-- The site pins of a pin that has some can be set before those of another pin. -/
theorem setSitePins_comm {c : Cell} {port other : Ident} (hne : port ≠ other)
    (hport : c.pins.contains port = true) (sitePins sitePins' : List Ident) :
    (c.setSitePins other sitePins').setSitePins port sitePins =
      (c.setSitePins port sitePins).setSitePins other sitePins' := by
  simp only [setSitePins, Table.update, Table.get?_insert, if_neg hne, if_neg hne.symm,
    Table.insert_comm hne hport]

/-- A pin that is there stays when site pins are set. -/
theorem contains_setSitePins_of_contains {c : Cell} {port : Ident}
    (hport : c.pins.contains port = true) (other : Ident) (sitePins : List Ident) :
    (c.setSitePins other sitePins).pins.contains port = true := by
  rw [setSitePins, Table.contains, Table.get?_update]
  split
  · rfl
  · exact hport

/-- Sets the site pins of those of some ports that the cell has. -/
def putSitePins (c : Cell) (entries : List (Ident × List Ident)) : Cell :=
  entries.foldl (fun c entry =>
    if c.ports.contains entry.1 then c.setSitePins entry.1 entry.2 else c) c

variable {entries entries' : List (Ident × List Ident)} {port : Ident} {sitePins : List Ident}

/-- The first entry of a list of site pins is used if the cell has the port. -/
theorem putSitePins_cons_of_contains {c : Cell} (h : c.ports.contains port = true) :
    c.putSitePins ((port, sitePins) :: entries) = (c.setSitePins port sitePins).putSitePins
      entries := by
  rw [putSitePins, List.foldl_cons, if_pos h, putSitePins]

/-- The first entry of a list of site pins is passed over if the cell has no such port. -/
theorem putSitePins_cons_of_not_contains {c : Cell} (h : ¬ c.ports.contains port = true) :
    c.putSitePins ((port, sitePins) :: entries) = c.putSitePins entries := by
  rw [putSitePins, List.foldl_cons, if_neg h, putSitePins]

/-- A list of site pins sets nothing but these. -/
theorem sameButSitePins_putSitePins (entries : List (Ident × List Ident)) (c : Cell) :
    c.SameButSitePins (c.putSitePins entries) :=
  .foldl (fun c entry => by
    split
    · exact .setSitePins c _ _
    · exact .refl c) entries c

/-- A port that is not listed keeps its site pins. -/
theorem sitePins_putSitePins_of_notMem {c : Cell} (hnot : port ∉ entries.map Prod.fst) :
    (c.putSitePins entries).sitePins port = c.sitePins port := by
  induction entries generalizing c with
  | nil => rfl
  | cons entry rest ih =>
      obtain ⟨other, sitePins'⟩ := entry
      obtain ⟨hne, hnot⟩ := List.ne_and_not_mem_of_not_mem_cons hnot
      by_cases hother : c.ports.contains other = true
      · rw [putSitePins_cons_of_contains hother, ih hnot, sitePins_setSitePins, if_neg hne.symm]
      · rw [putSitePins_cons_of_not_contains hother, ih hnot]

/-- A port of the cell has the site pins that are listed for it. -/
theorem sitePins_putSitePins {c : Cell} (hnodup : (entries.map Prod.fst).Nodup)
    (hmem : (port, sitePins) ∈ entries) (hport : c.ports.contains port = true) :
    (c.putSitePins entries).sitePins port = sitePins := by
  induction entries generalizing c with
  | nil => cases hmem
  | cons entry rest ih =>
      obtain ⟨other, sitePins'⟩ := entry
      obtain ⟨hnot, hnodup⟩ := List.nodup_cons.mp hnodup
      rcases List.mem_cons.mp hmem with heq | hmem
      · obtain ⟨rfl, rfl⟩ := Prod.mk.inj heq
        rw [putSitePins_cons_of_contains hport, sitePins_putSitePins_of_notMem hnot,
          sitePins_setSitePins, if_pos rfl]
      · by_cases hother : c.ports.contains other = true
        · rw [putSitePins_cons_of_contains hother]
          exact ih hnodup hmem hport
        · rw [putSitePins_cons_of_not_contains hother]
          exact ih hnodup hmem hport

/-- The site pins of a pin that has some can be set before those of other ports. -/
theorem setSitePins_putSitePins {c : Cell} (hnot : port ∉ entries.map Prod.fst)
    (hport : c.pins.contains port = true) :
    (c.putSitePins entries).setSitePins port sitePins =
      (c.setSitePins port sitePins).putSitePins entries := by
  induction entries generalizing c with
  | nil => rfl
  | cons entry rest ih =>
      obtain ⟨other, sitePins'⟩ := entry
      obtain ⟨hne, hnot⟩ := List.ne_and_not_mem_of_not_mem_cons hnot
      have hports : (c.setSitePins port sitePins).ports = c.ports := rfl
      by_cases hother : c.ports.contains other = true
      · rw [putSitePins_cons_of_contains hother, putSitePins_cons_of_contains (hports ▸ hother),
          ih hnot (contains_setSitePins_of_contains hport other sitePins'),
          setSitePins_comm hne hport]
      · rw [putSitePins_cons_of_not_contains hother,
          putSitePins_cons_of_not_contains (hports ▸ hother), ih hnot hport]

/-- Site pins that are set hide those that were set for the same ports before. -/
theorem putSitePins_putSitePins (hports : entries'.map Prod.fst = entries.map Prod.fst)
    (hnodup : (entries.map Prod.fst).Nodup) (c : Cell) :
    (c.putSitePins entries).putSitePins entries' = c.putSitePins entries' := by
  induction entries generalizing entries' c with
  | nil => rfl
  | cons entry rest ih =>
      obtain ⟨port, hidden⟩ := entry
      obtain _ | ⟨⟨port', sitePins⟩, rest'⟩ := entries'
      · cases hports
      obtain ⟨rfl, hrest⟩ : port' = port ∧ rest'.map Prod.fst = rest.map Prod.fst :=
        List.cons.inj hports
      obtain ⟨hnot, hnodup⟩ := List.nodup_cons.mp hnodup
      have hsame (c : Cell) := (sameButSitePins_putSitePins rest c).ports
      by_cases hport : c.ports.contains port' = true
      · have hset : (c.setSitePins port' hidden).pins.contains port' = true := by
          rw [setSitePins, Table.contains, Table.get?_update, if_pos rfl]
          rfl
        rw [putSitePins_cons_of_contains hport, putSitePins_cons_of_contains hport,
          putSitePins_cons_of_contains (hsame (c.setSitePins port' hidden) ▸ hport),
          setSitePins_putSitePins hnot hset, setSitePins_setSitePins, ih hrest hnodup]
      · rw [putSitePins_cons_of_not_contains hport, putSitePins_cons_of_not_contains hport,
          putSitePins_cons_of_not_contains (hsame c ▸ hport), ih hrest hnodup]

/-! ### Summaries speak of ports -/

/-- The connected inputs in the summary of a logic cell are ports of the cell. -/
def Derived (c : Cell) : Prop :=
  ∀ (k : Nat) (net : NetId) (port : Ident), c.lut.inputs[k]? = some (some net) →
    lutInputNames[k]? = some port → c.ports.contains port = true

/-- A cell without a summary has no inputs in it. -/
theorem derived_of_lut {c : Cell} (h : c.lut = {}) : c.Derived := by
  intro k net port hnet
  rw [h, List.getElem?_replicate] at hnet
  split at hnet <;> cases hnet

/-- More ports do no harm. -/
theorem Derived.of_contains {c c' : Cell} (h : c.Derived) (hlut : c'.lut = c.lut)
    (hports : ∀ port, c.ports.contains port = true → c'.ports.contains port = true) :
    c'.Derived := by
  intro k net port hnet hport
  rw [hlut] at hnet
  exact hports port (h k net port hnet hport)

/-- A port that is there stays when another one is inserted. -/
theorem contains_insert_of_contains {c : Cell} {other : Ident} (h : c.ports.contains other = true)
    (port : Ident) (p : Port) : (c.ports.insert port p).contains other = true := by
  rw [Table.contains, Table.get?_insert]
  split
  · rfl
  · exact h

/-- A summary stays derived when a port changes its net. -/
theorem Derived.setNet {c : Cell} (h : c.Derived) (port : Ident) (net : Option NetId) :
    (c.setNet port net).Derived := by
  rw [Cell.setNet]
  split
  · exact h
  · exact h.of_contains rfl fun other hother => contains_insert_of_contains hother port _

/-- A port on a net exists. -/
theorem contains_of_netOf {c : Cell} {port : Ident} {net : NetId} (h : c.netOf port = some net) :
    c.ports.contains port = true := by
  obtain ⟨p, hp, -⟩ := Option.bind_eq_some_iff.mp h
  rw [Table.contains, hp, Option.isSome_some]

/-- The inputs of a derived summary are connected ports. -/
theorem derived_lutSummary (c : Cell) (n : Nat) :
    ({ c with lut := c.lutSummary n } : Cell).Derived := by
  intro k net port hnet hport
  have hget : (c.lutInputs n)[k]? = some (some net) := hnet
  rw [lutInputs, List.getElem?_map, List.getElem?_zipIdx, hport] at hget
  simp only [Option.map_some, Nat.zero_add, Option.some.injEq,
    Option.ite_none_right_eq_some] at hget
  exact contains_of_netOf hget.2

/-- The inputs of the summary of a made cell are ports of the cell. -/
theorem Made.derived {c : Cell} (h : c.Made) : c.Derived := by
  induction h with
  | new name type => exact derived_of_lut rfl
  | addPort _ port dir ih =>
      exact ih.of_contains rfl fun other hother => contains_insert_of_contains hother port _
  | setNet _ port net ih => exact ih.setNet port net
  | params _ params ih => exact ih.of_contains rfl fun _ hport => hport
  | pins _ pins ih => exact ih.of_contains rfl fun _ hport => hport
  | site _ site ih => exact ih.of_contains rfl fun _ hport => hport
  | lut _ hn ih => exact derived_lutSummary _ _
  | flipFlop _ info ih => exact ih.of_contains rfl fun _ hport => hport

/-! ### The sizes of a summary -/

/-- The truth table of a summary is no larger than its inputs need, of which
there are six at most. -/
def Sized (c : Cell) : Prop := c.lut.inputCount ≤ 6 ∧ c.lut.tableBits ≤ capacity c.lut.inputCount

/-- The summary of a made cell has six inputs at most, and no larger a table than these need. -/
theorem Made.sized {c : Cell} (h : c.Made) : c.Sized := by
  induction h with
  | new name type => exact ⟨Nat.zero_le 6, Nat.zero_le _⟩
  | addPort _ port dir ih => exact ih
  | @setNet c _ port net ih =>
      have hlut : (c.setNet port net).lut = c.lut := by
        rw [Cell.setNet]
        split <;> rfl
      rwa [Sized, hlut]
  | params _ params ih => exact ih
  | pins _ pins ih => exact ih
  | site _ site ih => exact ih
  | lut _ hn ih => exact ⟨CellType.logicInputs?_le hn, Nat.le_refl _⟩
  | flipFlop _ info ih => exact ih

/-! ### Ports are known by their names -/

/-- Each port is kept under its own name, and no name occurs twice. -/
structure Named (c : Cell) : Prop where
  nodup : c.ports.keys.Nodup
  name : ∀ entry ∈ c.ports, entry.2.name = entry.1

/-- A port that is inserted under its own name keeps the names. -/
theorem Named.insert {c : Cell} (h : c.Named) {port : Ident} {p : Port} (hp : p.name = port) :
    Named { c with ports := c.ports.insert port p } := by
  refine ⟨Table.keys_insert_nodup h.nodup port p, ?_⟩
  have hname := h.name
  show ∀ entry ∈ c.ports.insert port p, entry.2.name = entry.1
  generalize c.ports = t at hname
  induction t with
  | nil => exact List.forall_mem_cons.mpr ⟨hp, hname⟩
  | cons entry rest ih =>
      obtain ⟨k, v⟩ := entry
      obtain ⟨hfirst, hrest⟩ := List.forall_mem_cons.mp hname
      rw [Table.insert]
      split
      · exact List.forall_mem_cons.mpr ⟨hp, hrest⟩
      · exact List.forall_mem_cons.mpr ⟨hfirst, ih hrest⟩

/-- The port found under a name has that name. -/
theorem Named.name_of_get? {c : Cell} (h : c.Named) {port : Ident} {p : Port}
    (hp : c.ports.get? port = some p) : p.name = port := by
  have hname := h.name
  generalize c.ports = t at hp hname
  induction t with
  | nil => cases hp
  | cons entry rest ih =>
      obtain ⟨k, v⟩ := entry
      obtain ⟨hfirst, hrest⟩ := List.forall_mem_cons.mp hname
      rw [Table.get?] at hp
      split at hp
      · rename_i hk
        obtain rfl := Option.some.inj hp
        exact hfirst.trans hk
      · exact ih hp hrest

/-- A port keeps its name when it changes its net. -/
theorem Named.setNet {c : Cell} (h : c.Named) (port : Ident) (net : Option NetId) :
    (c.setNet port net).Named := by
  rw [Cell.setNet]
  split
  · exact h
  · rename_i p hp
    have hname := h.name_of_get? hp
    exact h.insert hname

/-- The ports of a made cell are under their names. -/
theorem Made.named {c : Cell} (h : c.Made) : c.Named := by
  induction h with
  | new name type => exact ⟨List.nodup_nil, fun entry h => nomatch h⟩
  | addPort _ port dir ih => exact ih.insert rfl
  | setNet _ port net ih => exact ih.setNet port net
  | params _ params ih => exact ⟨ih.nodup, ih.name⟩
  | pins _ pins ih => exact ⟨ih.nodup, ih.name⟩
  | site _ site ih => exact ⟨ih.nodup, ih.name⟩
  | lut _ hn ih => exact ⟨ih.nodup, ih.name⟩
  | flipFlop _ info ih => exact ⟨ih.nodup, ih.name⟩

/-- A port is found under its name. -/
theorem Named.get?_name {c : Cell} (h : c.Named) {p : Port} (hp : p ∈ c.ports.values) :
    c.ports.get? p.name = some p := by
  obtain ⟨⟨port, p⟩, hmem, rfl⟩ := List.mem_map.mp hp
  rw [h.name _ hmem]
  exact Table.get?_of_mem h.nodup hmem

/-- The names of the ports are all different. -/
theorem Named.nodup_names {c : Cell} (h : c.Named) : (c.ports.values.map Port.name).Nodup := by
  have hkeys : c.ports.values.map Port.name = c.ports.keys := by
    rw [Table.values, List.map_map, Table.keys]
    exact List.map_congr_left h.name
  rw [hkeys]
  exact h.nodup

end Fabric.Cell
