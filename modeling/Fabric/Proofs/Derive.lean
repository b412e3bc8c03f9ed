import Fabric.Proofs.Operations
import Fabric.Proofs.Vocabulary

/-!
# Summaries that are up to date

Packing reads the summaries of cells, and a summary can be out of date: it is if deriving it again
would change it. Deriving a cell brings it up to date, also when a flip-flop needs the zero net for
its load: the net is made once and found the next time.

## Main results

* `constValue?_withConstNet_self`, `constValue?_withConstNet`: constant nets carry their constants,
  and making one makes no other net constant;
* `deriveCell_spec`: what deriving a cell changes;
* `upToDate_iff_of_logic`, `upToDate_iff_of_flipFlop`: what an up-to-date cell has for a summary;
* `upToDate_deriveCell`: a cell that was derived is up to date.
-/

namespace Fabric

/-! ### Constant nets -/

namespace Netlist

/-- A constant net that is found is not made again. -/
theorem constNet_of_findNet? {nl : Netlist} {name : Ident} {net : NetId}
    (h : nl.findNet? name = some net) : nl.constNet name = (net, nl) := by
  rw [constNet, h]

/-- The names of the constant nets tell their values. -/
theorem constOfName?_constNetName (value : Bool) :
    constOfName? (constNetName value) = some value := by
  cases value <;> decide

end Netlist

namespace Device

/-- The net of a constant, and the model that has it. -/
def withConstNet (d : Device) (value : Bool) : NetId × Device :=
  let name := d.interner.intern (Netlist.constNetName value)
  let net := d.netlist.constNet name.1
  (net.1, { d with interner := name.2, netlist := net.2 })

/-- Making a constant net touches no cell. -/
theorem cell?_withConstNet (d : Device) (value : Bool) :
    (d.withConstNet value).2.netlist.cell? = d.netlist.cell? := by
  funext id
  rw [Netlist.cell?, Netlist.cell?]
  exact congrArg (·[id.index]?) (d.netlist.cells_constNet _)

/-- The net is made once: a model with the names and nets of one that has it has it too. -/
theorem withConstNet_of_same (d : Device) (value : Bool) {d' : Device}
    (hinterner : d'.interner = (d.withConstNet value).2.interner)
    (hnets : d'.netlist.netByName = (d.withConstNet value).2.netlist.netByName) :
    d'.withConstNet value = ((d.withConstNet value).1, d') := by
  have hname : d'.interner.intern (Netlist.constNetName value) =
      ((d.interner.intern (Netlist.constNetName value)).1, d'.interner) := by
    refine Interner.intern_of_get? ?_
    rw [hinterner]
    exact Interner.get?_intern_self _ _
  have hnet : d'.netlist.findNet? (d.interner.intern (Netlist.constNetName value)).1 =
      some (d.withConstNet value).1 := by
    rw [Netlist.findNet?, hnets]
    exact d.netlist.findNet?_constNet _
  rw [withConstNet, hname]
  dsimp only
  rw [Netlist.constNet_of_findNet? hnet]

/-- What a net carries is decided by its name. -/
theorem constValue?_eq (d : Device) (net : NetId) : d.constValue? net =
    (((d.netlist.net? net).map Net.name).map d.nameOf).bind Netlist.constOfName? := by
  rw [constValue?, Option.map_map]
  rfl

/-- The net that is made for a constant carries it. -/
theorem constValue?_withConstNet_self {d : Device} (h : d.netlist.Closed d.interner)
    (value : Bool) :
    (d.withConstNet value).2.constValue? (d.withConstNet value).1 = some value := by
  have hclosed :=
    (h.intern (Netlist.constNetName value)).constNet (d.interner.isSome_name?_intern _)
  have hnet : ((d.withConstNet value).2.netlist.net? (d.withConstNet value).1).map Net.name =
      some (d.interner.intern (Netlist.constNetName value)).1 :=
    hclosed.found _ _ (d.netlist.findNet?_constNet _)
  have hname : (d.withConstNet value).2.nameOf (d.interner.intern (Netlist.constNetName value)).1 =
      Netlist.constNetName value :=
    congrArg (Option.getD · "") (d.interner.name?_intern_self _)
  rw [constValue?_eq, hnet, Option.map_some, hname, Option.bind_some,
    Netlist.constOfName?_constNetName]

/-- Nets that exist carry what they did when the net of a constant is made. -/
theorem constValue?_withConstNet {d : Device} (h : d.netlist.Closed d.interner) (value : Bool)
    {net : NetId} (hnet : (d.netlist.net? net).isSome) :
    (d.withConstNet value).2.constValue? net = d.constValue? net := by
  obtain ⟨n, hn⟩ := Option.isSome_iff_exists.mp hnet
  have hn' : (d.withConstNet value).2.netlist.net? net = some n :=
    Netlist.net?_constNet_of_net? hn _
  have hname := h.name?_intern hn (Netlist.constNetName value)
  rw [constValue?, constValue?, hn, hn', Option.map_some, Option.map_some, Option.bind_some,
    Option.bind_some, nameOf, nameOf, Interner.name, Interner.name]
  exact congrArg (fun name => Netlist.constOfName? (Option.getD name "")) hname

/-- The zero net, if the load of a flip-flop needs it, and the model that has it then. -/
def withLoadNet (d : Device) (c : Cell) : Option NetId × Device :=
  if c.needsZeroLoad then (some (d.withConstNet false).1, (d.withConstNet false).2) else (none, d)

/-- Finding the net of an open load touches no cell. -/
theorem cell?_withLoadNet (d : Device) (c : Cell) :
    (d.withLoadNet c).2.netlist.cell? = d.netlist.cell? := by
  rw [withLoadNet]
  split
  · exact d.cell?_withConstNet false
  · rfl

/-- The model after a flip-flop was derived. -/
def withFlipFlop (d : Device) (id : CellId) (c : Cell) : Device :=
  { (d.withLoadNet c).2 with netlist := (d.withLoadNet c).2.netlist.modifyCell id fun c' =>
    { c' with flipFlop := c'.flipFlopSummary (d.withLoadNet c).1 } }

/-- A flip-flop that needs no load net keeps the net list as it is. -/
theorem withFlipFlop_of_not_needed (d : Device) (id : CellId) {c : Cell}
    (h : c.needsZeroLoad = false) : d.withFlipFlop id c =
      { d with
        netlist :=
          d.netlist.modifyCell id fun c' => { c' with flipFlop := c'.flipFlopSummary none } } := by
  rw [withFlipFlop, withLoadNet, h]
  rfl

/-- Deriving a flip-flop stores its summary. -/
theorem cell?_withFlipFlop (d : Device) {id : CellId} {c : Cell}
    (hc : d.netlist.cell? id = some c) :
    (d.withFlipFlop id c).netlist.cell? id =
      some { c with flipFlop := c.flipFlopSummary (d.withLoadNet c).1 } := by
  rw [withFlipFlop, Netlist.cell?_modifyCell, if_pos rfl, cell?_withLoadNet, hc, Option.map_some]

/-- Nets that exist carry what they did when a flip-flop is derived. -/
theorem constValue?_withFlipFlop {d : Device} (h : d.netlist.Closed d.interner) (id : CellId)
    (c : Cell) {net : NetId} (hnet : (d.netlist.net? net).isSome) :
    (d.withFlipFlop id c).constValue? net = d.constValue? net := by
  show (d.withLoadNet c).2.constValue? net = d.constValue? net
  rw [withLoadNet]
  split
  · exact constValue?_withConstNet h false hnet
  · rfl

/-- The zero net for a load that was made once is found the next time. -/
theorem withLoadNet_withFlipFlop (d : Device) (id : CellId) {c c' : Cell}
    (h : c'.needsZeroLoad = c.needsZeroLoad) :
    ((d.withFlipFlop id c).withLoadNet c').1 = (d.withLoadNet c).1 := by
  rw [withLoadNet, h, withLoadNet]
  split
  · rename_i hload
    rw [withConstNet_of_same d false]
    · rw [withFlipFlop, withLoadNet, if_pos hload]
    · rw [withFlipFlop, withLoadNet, if_pos hload]
      rfl
  · rfl

end Device

/-! ### Runs -/

namespace Edit

variable {d : Device} {id : CellId} {c : Cell}

/-- Deriving a flip-flop gives it the summary of its pins. -/
theorem run_deriveCell_of_flipFlop (hc : d.netlist.cell? id = some c)
    (htype : c.type = Known.flipFlop) : (deriveCell id).run d = (.ok (), d.withFlipFlop id c) := by
  have hlogic : CellType.isLogic c.type = false := by rw [htype]; rfl
  have hc' : (d.withLoadNet c).2.netlist.cell? id = some c := by rw [Device.cell?_withLoadNet, hc]
  have hset :=
    run_modifyCell hc' fun c' => { c' with flipFlop := c'.flipFlopSummary (d.withLoadNet c).1 }
  rw [deriveCell, run_bind_of_ok (run_requireCell hc), if_neg (by rw [hlogic]; simp), if_pos htype,
    deriveFlipFlop, run_bind_of_ok (run_requireCell hc)]
  cases hload : c.needsZeroLoad with
  | true =>
      simp only [Device.withFlipFlop, Device.withLoadNet, hload, if_true] at hset ⊢
      exact hset
  | false =>
      simp only [Device.withFlipFlop, Device.withLoadNet, hload] at hset ⊢
      exact hset

/-- Only logic cells and flip-flops have a summary. -/
theorem run_deriveCell_of_other (hc : d.netlist.cell? id = some c)
    (hlogic : CellType.logicInputs? c.type = none) (htype : c.type ≠ Known.flipFlop) :
    (deriveCell id).run d = (.ok (), d) := by
  rw [deriveCell, run_bind_of_ok (run_requireCell hc),
    if_neg (by rw [CellType.isLogic, hlogic]; simp), if_neg htype, run_pure]

end Edit

/-! ### Up-to-date cells -/

/-- Two cells differ in their summaries at most. -/
structure Cell.SameButSummary (c c' : Cell) : Prop where
  type : c'.type = c.type
  params : c'.params = c.params
  ports : c'.ports = c.ports
  pins : c'.pins = c.pins

namespace Device

/-- The summary of a cell is up to date: deriving it again would not change the cell. -/
def UpToDate (d : Device) (id : CellId) : Prop :=
  ((Edit.deriveCell id).run d).2.netlist.cell? id = d.netlist.cell? id

variable {d : Device} {id : CellId} {c : Cell}

/-- A LUT is up to date when the stored summary is that of its ports. -/
theorem upToDate_iff_of_logic (hc : d.netlist.cell? id = some c) {n : Nat}
    (hn : CellType.logicInputs? c.type = some n) : d.UpToDate id ↔ c.lut = c.lutSummary n := by
  rw [UpToDate, Edit.run_deriveCell_of_logic hc hn, Netlist.cell?_modifyCell, if_pos rfl, hc,
    Option.map_some, Option.some.injEq]
  exact ⟨fun h => (congrArg Cell.lut h).symm, fun h => by rw [← h]⟩

/-- A flip-flop is up to date when the stored summary is that of its ports. -/
theorem upToDate_iff_of_flipFlop (hc : d.netlist.cell? id = some c)
    (htype : c.type = Known.flipFlop) :
    d.UpToDate id ↔ c.flipFlop = c.flipFlopSummary (d.withLoadNet c).1 := by
  rw [UpToDate, Edit.run_deriveCell_of_flipFlop hc htype, cell?_withFlipFlop d hc, hc,
    Option.some.injEq]
  exact ⟨fun h => (congrArg Cell.flipFlop h).symm, fun h => by rw [← h]⟩

/-- Deriving a cell changes its summary only, and no net that exists becomes or
ceases to be constant. -/
theorem deriveCell_spec (hc : d.netlist.cell? id = some c) :
    ∃ d' c', (Edit.deriveCell id).run d = (.ok (), d') ∧ d'.netlist.cell? id = some c' ∧
      c.SameButSummary c' ∧ (d.netlist.Closed d.interner →
        ∀ net, (d.netlist.net? net).isSome → d'.constValue? net = d.constValue? net) := by
  cases hn : CellType.logicInputs? c.type with
  | some n =>
      refine ⟨_, { c with lut := c.lutSummary n }, Edit.run_deriveCell_of_logic hc hn, ?_,
        ⟨rfl, rfl, rfl, rfl⟩, fun _ _ _ => rfl⟩
      rw [Netlist.cell?_modifyCell, if_pos rfl, hc, Option.map_some]
  | none =>
      by_cases htype : c.type = Known.flipFlop
      · exact ⟨_, _, Edit.run_deriveCell_of_flipFlop hc htype, cell?_withFlipFlop d hc,
          ⟨rfl, rfl, rfl, rfl⟩, fun h net hnet => constValue?_withFlipFlop h id c hnet⟩
      · exact ⟨d, c, Edit.run_deriveCell_of_other hc hn htype, hc, ⟨rfl, rfl, rfl, rfl⟩,
          fun _ _ _ => rfl⟩

/-- A cell that was derived is up to date. -/
theorem upToDate_deriveCell (hc : d.netlist.cell? id = some c) :
    ((Edit.deriveCell id).run d).2.UpToDate id := by
  cases hn : CellType.logicInputs? c.type with
  | some n =>
      rw [Edit.run_deriveCell_of_logic hc hn]
      have hc' : (d.netlist.modifyCell id fun c => { c with lut := c.lutSummary n }).cell? id =
          some { c with lut := c.lutSummary n } := by
        rw [Netlist.cell?_modifyCell, if_pos rfl, hc, Option.map_some]
      exact (upToDate_iff_of_logic (c := { c with lut := c.lutSummary n }) hc' hn).mpr rfl
  | none =>
      by_cases htype : c.type = Known.flipFlop
      · rw [Edit.run_deriveCell_of_flipFlop hc htype]
        refine (upToDate_iff_of_flipFlop (cell?_withFlipFlop d hc) htype).mpr ?_
        exact congrArg c.flipFlopSummary (withLoadNet_withFlipFlop d id rfl).symm
      · have hrun := Edit.run_deriveCell_of_other hc hn htype
        rw [hrun, UpToDate, hrun]

end Device

/-- A constant net can be drawn in a design that has no net of its name. -/
theorem Reachable.exists_constNet {d₀ d : Device} (h : Reachable d₀ d) (value : Bool)
    (hnew : ∀ name, d.netlist.findNet? name = none) : ∃ n d', Reachable d₀ d' ∧
      d'.netlist = (d.netlist.addNet n).2 ∧
        d'.interner.name? n = some (Netlist.constNetName value) := by
  refine ⟨_, (d.withConstNet value).2, h.step (.constNet value), ?_, d.interner.name?_intern_self _⟩
  show (d.netlist.constNet _).2 = _
  rw [Netlist.constNet, hnew]

end Fabric
