import Fabric.Proofs.Connections
import Fabric.Proofs.PackingTouches

/-!
# Runs of a design

A `DesignRun` is a model to which any operations on a design have led, from an empty netlist and
whatever the hardware: building a device and editing its hardware leave the netlist alone, and names
once in use stay in use. The one thing that a run leaves out is giving a cell a port under a name
that a port of it has.

Every other operation only rewires the netlist: it joins ports to nets and takes them apart, and
what else it does changes no connection. So the netlist of a run is linked; it is closed and its
cells are made ones, as operations keep both.

## Main results

* `Operation.rewires`: an operation that gives no cell a port rewires the netlist;
* `DesignRun.linked`: the two records of every connection agree;
* `DesignRun.closed`, `DesignRun.named`: names are in use, and ports are known by theirs.
-/

namespace Fabric

open Device (Rewires KeepsLinks)

/-- Nothing is rewired where the netlist is the same. -/
theorem Device.Rewires.of_netlist_eq {d d' : Device} (h : d'.netlist = d.netlist) : d.Rewires d' :=
  .sameLinks ⟨fun ref => by rw [h], fun id drives => by rw [h]⟩

/-- A change of a net that leaves its list of ports as it is. -/
theorem Netlist.sameLinks_modifyNet (nl : Netlist) (net : NetId) {f : Net → Net}
    (hf : ∀ n drives, (f n).listed drives = n.listed drives) :
    nl.SameLinks (nl.modifyNet net f) := by
  refine ⟨fun _ => rfl, fun id drives => ?_⟩
  rw [listed_modifyNet]
  split
  · simp only [hf]
    rfl
  · rfl

/-- Touches change reservations, site pins, slots, modes and records, and so no connection. -/
theorem Device.rewires_after (d : Device) (ts : List Touch) : d.Rewires (d.after ts) := by
  induction ts generalizing d with
  | nil => exact refl_of Rewires d
  | cons t rest ih =>
    refine trans_of Rewires ?_ (ih (t.apply d))
    cases t with
    | cell id plan half =>
      exact .sameLinks (d.netlist.sameLinks_modifyCell id fun c =>
        (Edit.sameButSitePins_applyLutPlan plan half c).ports)
    | wire | slots | mode | record => exact .of_netlist_eq rfl

namespace Edit

/-! ### Drawing a design -/

/-- What keeps the design rewires nothing. -/
theorem rewires_of_sameDesign {α : Type} {e : Edit α} (h : e.Keeps SameDesign) : e.Keeps Rewires :=
  fun d => .of_netlist_eq (h d).netlist

/-- Interning a name rewires nothing. -/
theorem rewires_intern (s : String) : (intern s).Keeps Rewires :=
  .modifyGet fun _ => .of_netlist_eq rfl

/-- A new cell has no ports, so nothing is rewired. -/
theorem rewires_createCell (name : String) (type : Ident) : (createCell name type).Keeps Rewires :=
  .bind (rewires_intern name) fun i => .modifyGet fun d =>
    Netlist.Rewired.sameLinks (d.netlist.sameLinks_addCell i type)

/-- A new net has no driver and no users. -/
theorem rewires_createNet (name : String) : (createNet name).Keeps Rewires :=
  .bind (rewires_intern name) fun i => .modifyGet fun d =>
    Netlist.Rewired.sameLinks (d.netlist.sameLinks_addNet i)

/-- Being global is no connection. -/
theorem rewires_setGlobal (id : NetId) (isGlobal : Bool) :
    (setGlobal id isGlobal).Keeps Rewires := by
  refine .bind (.bind .get fun _ => .require _ _) fun _ => .modify fun d => ?_
  exact Netlist.Rewired.sameLinks (d.netlist.sameLinks_modifyNet id fun n drives => rfl)

/-- The default pins of a cell are recorded beside its ports. -/
theorem rewires_assignDefaultPinMap (id : CellId) : (assignDefaultPinMap id).Keeps Rewires := by
  refine rewires_modifyCell id fun c => ?_
  refine (Cell.SameButSitePins.foldl (fun c port => ?_) c.ports.keys c).ports
  split
  · exact .setSitePins c port _
  · exact .refl c

/-! ### Placing and packing -/

/-- Placing a cell sets its site, whether it is refused or not. -/
theorem rewires_placeCell (bel : BelId) (id : CellId) : (placeCell bel id).Keeps Rewires := by
  intro d
  rcases run_placeCell bel id d with ⟨e, hrun⟩ | ⟨site, cell, -, -, -, hrun⟩
  · rw [hrun]
    exact refl_of Rewires d
  · rw [hrun]
    refine trans_of Rewires ?_ (rewires_deriveCell id _)
    exact Netlist.Rewired.sameLinks (d.netlist.sameLinks_modifyCell id fun _ => rfl)

/-- Removing a cell takes its site away and keeps its connections. -/
theorem rewires_removeCell (bel : BelId) : (removeCell bel).Keeps Rewires := by
  intro d
  cases hat : d.cellAt bel with
  | some id =>
    rw [run_removeCell hat]
    exact Netlist.Rewired.sameLinks (d.netlist.sameLinks_modifyCell id fun _ => rfl)
  | none =>
    rw [run_removeCell_of_vacant hat]
    exact refl_of Rewires d

/-- All that a packing call touches in the netlist is rewired at most. -/
theorem rewires_packing (call : PackingCall) : call.edit.Keeps Rewires := by
  intro d
  obtain ⟨answer, ts, -, -, hrun⟩ := call.traced d
  rw [hrun d (.refl d)]
  exact d.rewires_after ts

/-- The preparation for routing is a packing call for every LAB. -/
theorem rewires_preRoute : preRoute.Keeps Rewires := by
  refine .bind .get fun _ => .bind (.mapM fun lab _ => ?_) fun _ =>
    rewires_of_sameDesign (keeps_log _)
  exact keeps_preRouteLab (rewires_packing (.control lab)) fun alm =>
    rewires_packing (.inputs lab alm)

end Edit

namespace Operation

open Edit

/-- An operation that gives no cell a port rewires the netlist, whether or not it succeeds. -/
theorem rewires (op : Operation) (hport : ∀ cell port dir, op ≠ addPort cell port dir) :
    op.edit.Keeps Rewires := by
  cases op with
  | createCell name type => exact .map _ (rewires_createCell name type)
  | createNet name => exact .map _ (rewires_createNet name)
  | addPort cell port dir => exact absurd rfl (hport cell port dir)
  | connect cell port net => exact rewires_connect cell port net
  | disconnect cell port => exact rewires_disconnect cell port
  | setParam cell key value => exact rewires_modifyCell cell fun _ => rfl
  | setPinState cell pin state => exact rewires_modifyCell cell fun _ => rfl
  | setSitePins cell pin sitePins => exact rewires_modifyCell cell fun _ => rfl
  | setGlobal net isGlobal => exact rewires_setGlobal net isGlobal
  | constNet value => exact .map _ (rewires_constNet value)
  | placeCell bel cell => exact rewires_placeCell bel cell
  | removeCell bel => exact .map _ (rewires_removeCell bel)
  | deriveLut cell => exact rewires_deriveLut cell
  | deriveFlipFlop cell => exact rewires_deriveFlipFlop cell
  | deriveCell cell => exact rewires_deriveCell cell
  | deriveAll => exact rewires_deriveAll
  | applyPinDefaults cell => exact .map _ (rewires_applyPinDefaults cell)
  | assignDefaultPinMap cell => exact rewires_assignDefaultPinMap cell
  | reserve src dst => exact rewires_of_sameDesign (keeps_reserve src dst)
  | unreserve w => exact rewires_of_sameDesign (keeps_unreserve w)
  | assignControlSets lab => exact rewires_packing (.control lab)
  | reassignInputs lab alm => exact rewires_packing (.inputs lab alm)
  | preRoute => exact rewires_preRoute
  | setVerbose verbose => exact .modify fun _ => .of_netlist_eq rfl
  | takeRecords => exact .map _ (.modifyGet fun _ => .of_netlist_eq rfl)

/-- A port is given to a cell under a new name, if at all. -/
def AddsNewPort (op : Operation) (d : Device) : Prop :=
  ∀ cell port dir, op = addPort cell port dir → d.netlist.port? ⟨cell, port⟩ = none

/-- An operation keeps the netlist linked if it replaces no port. -/
theorem keepsLinks {op : Operation} {d : Device} (hnew : op.AddsNewPort d) :
    d.KeepsLinks (op.apply d) := by
  by_cases hport : ∀ cell port dir, op ≠ addPort cell port dir
  · exact (op.rewires hport d).keepsLinks
  · simp only [not_forall, not_not] at hport
    obtain ⟨cell, port, dir, rfl⟩ := hport
    exact links_addPort (Netlist.open_of_port?_eq_none (hnew cell port dir rfl)) dir

end Operation

/-! ### Runs -/

/-- The models that operations lead to from an empty netlist, as long as none of them gives a cell a
port that it has. An operation may fail, halfway also. -/
inductive DesignRun : Device → Prop where
  | empty {d : Device} (h : d.netlist = {}) : DesignRun d
  /-- Whatever happens to the hardware and the rest of a model, and new names. -/
  | elsewhere {d d' : Device} (h : DesignRun d) (hnetlist : d'.netlist = d.netlist)
      (hnames : ∀ i s, d.interner.name? i = some s → d'.interner.name? i = some s) : DesignRun d'
  | step {d : Device} (h : DesignRun d) (op : Operation) (hnew : op.AddsNewPort d) :
      DesignRun (op.apply d)

namespace DesignRun

variable {d : Device}

/-- The two records of every connection agree. -/
theorem linked (h : DesignRun d) : d.netlist.Linked := by
  induction h with
  | empty h =>
    rw [h]
    exact Netlist.linked_empty
  | elsewhere _ hnetlist _ ih =>
    rw [hnetlist]
    exact ih
  | step _ op hnew ih => exact Operation.keepsLinks hnew ih

/-- Every name used in a design is known to the interner. -/
theorem closed (h : DesignRun d) : d.netlist.Closed d.interner := by
  induction h with
  | empty h =>
    rw [h]
    exact Netlist.closed_empty _
  | elsewhere _ hnetlist hnames ih =>
    rw [hnetlist]
    refine ⟨fun id n hn => ?_, ih.found, ih.referred⟩
    obtain ⟨s, hs⟩ := Option.isSome_iff_exists.mp (ih.named id n hn)
    rw [hnames _ s hs, Option.isSome_some]
  | step _ op _ ih => exact (op.keeps _).closed ih

/-- Every cell of a design is well made. -/
theorem cellsMade (h : DesignRun d) : d.CellsMade := by
  induction h with
  | empty h =>
    intro id c hc
    rw [h, Netlist.cell?, Array.getElem?_empty] at hc
    cases hc
  | elsewhere _ hnetlist _ ih =>
    rw [Device.CellsMade, hnetlist]
    exact ih
  | step _ op _ ih => exact (op.keeps _).cellsMade ih

/-- The ports of every cell are known by their names. -/
theorem named (h : DesignRun d) {id : CellId} {c : Cell} (hc : d.netlist.cell? id = some c) :
    c.Named :=
  (h.cellsMade id c hc).named

end DesignRun

end Fabric
