import Fabric.Proofs.Repacking
import Fabric.Proofs.Vacant

/-!
# Operations on a model

Once a device is built, a design enters it and is packed by a fixed set of operations. None of
them changes the hardware, and all of them keep the model consistent, also one that fails halfway.
So every model that they can lead to is a consistent one on the hardware that was built.

## Main results

* `repacks_assignControlSets`, `repacks_reassignInputs`, `repacks_preRoute`: packing leaves alone
  what it reads;
* `Operation.keeps`: an operation evolves the model, whether or not it succeeds;
* `Reachable.hardware`, `Reachable.consistent`: so does every run of operations.
-/

namespace Fabric

namespace Edit

open Device (Evolves Repacked)

/-! ### The netlist -/

/-- A cell that exists is found, and looking for it changes nothing. -/
theorem run_requireCell {id : CellId} {d : Device} {c : Cell} (h : d.netlist.cell? id = some c) :
    (requireCell id).run d = (.ok c, d) := by
  rw [requireCell, run_get_bind, h]
  rfl

/-- A cell that exists is changed in place, and nothing else is. -/
theorem run_modifyCell {id : CellId} {d : Device} {c : Cell} (h : d.netlist.cell? id = some c)
    (f : Cell → Cell) : (modifyCell id f).run d =
      (.ok (), { d with netlist := d.netlist.modifyCell id f }) := by
  rw [modifyCell, requireCell, bind_assoc, run_get_bind, h]
  rfl

/-- What leaves the design alone evolves a model. -/
theorem keeps_of_sameDesign {α : Type} {e : Edit α} (h : e.Keeps SameDesign) : e.Keeps Evolves :=
  fun d => .of_sameDesign (h d)

/-- Putting a string into use only extends the interner. -/
theorem keeps_intern (s : String) : (intern s).Keeps Evolves :=
  .modifyGet fun d => .of_intern (d := d) s rfl fun hclosed => hclosed

/-- Looking for a cell changes nothing. -/
theorem keeps_requireCell (id : CellId) : (requireCell id).Keeps Evolves :=
  .bind .get fun _ => .require _ _

/-- Looking for a net changes nothing. -/
theorem keeps_requireNet (id : NetId) : (requireNet id).Keeps Evolves :=
  .bind .get fun _ => .require _ _

/-- A call on the netlist evolves the model if its result evolves the netlist; a failed
one changes nothing. -/
theorem keeps_onNetlist {f : Netlist → Except Error Netlist}
    (h : ∀ nl nl', f nl = .ok nl' → nl.Evolves nl') : (onNetlist f).Keeps Evolves := by
  intro d
  rw [onNetlist, run_get_bind]
  cases hf : f d.netlist with
  | ok nl => exact .of_netlist (h _ _ hf)
  | error e => exact .refl d

/-- A change of a cell that leaves its site alone. -/
theorem evolves_run_modifyCell (d : Device) (id : CellId) {f : Cell → Cell}
    (hsite : ∀ c, (f c).site = c.site) (hmade : ∀ c : Cell, c.Made → (f c).Made)
    (hclosed : ∀ t, d.netlist.Closed t → (d.netlist.modifyCell id f).Closed t) :
    d.Evolves ((modifyCell id f).run d).2 := by
  cases hc : d.netlist.cell? id with
  | none =>
      rw [modifyCell, requireCell, bind_assoc, run_get_bind, hc]
      exact .refl d
  | some c =>
      rw [run_modifyCell hc]
      exact .of_netlist (d.netlist.evolves_modifyCell id hsite (fun c _ hc => hmade c hc) hclosed)

/-- A change of a cell that leaves its site alone and refers to no other nets. -/
theorem keeps_modifyCell (id : CellId) {f : Cell → Cell} (hsite : ∀ c, (f c).site = c.site)
    (hmade : ∀ c : Cell, c.Made → (f c).Made)
    (hnets : ∀ c net, (f c).RefersTo net → c.RefersTo net) :
    (modifyCell id f).Keeps Evolves := fun d =>
  evolves_run_modifyCell d id hsite hmade fun _ ht =>
    ht.modifyCell id fun c net hnet => .inl (hnets c net hnet)

/-- A new cell is put behind the others. -/
theorem keeps_createCell (name : String) (type : Ident) : (createCell name type).Keeps Evolves :=
  .bind (keeps_intern name) fun i => .modifyGet fun d =>
    .of_netlist (d.netlist.evolves_addCell i type)

/-- A new net is put behind the others. -/
theorem keeps_createNet (name : String) : (createNet name).Keeps Evolves := fun d =>
  Evolves.of_intern (d := d) name rfl fun hclosed =>
    hclosed.addNet (d.interner.isSome_name?_intern name)

/-- A cell keeps its place when it is given a port. -/
theorem keeps_addPort (id : CellId) (port : Ident) (dir : PortDir) :
    (addPort id port dir).Keeps Evolves :=
  .bind (keeps_requireCell id) fun _ => .modify fun d =>
    .of_netlist (d.netlist.evolves_addPort id port dir)

/-- Putting a port on a net keeps all cells and nets in their places. -/
theorem keeps_connect (id : CellId) (port : Ident) (net : NetId) :
    (connect id port net).Keeps Evolves :=
  keeps_onNetlist fun _ _ => Netlist.evolves_connect

/-- Taking a port off its net keeps all cells and nets in their places. -/
theorem keeps_disconnect (id : CellId) (port : Ident) : (disconnect id port).Keeps Evolves :=
  .bind (keeps_requireCell id) fun _ => .modify fun d =>
    .of_netlist (d.netlist.evolves_disconnect id port)

/-- Only a flag of the net is changed. -/
theorem keeps_setGlobal (id : NetId) (isGlobal : Bool) : (setGlobal id isGlobal).Keeps Evolves :=
  .bind (keeps_requireNet id) fun _ => .modify fun d =>
    .of_netlist (d.netlist.evolves_modifyNet id fun _ => rfl)

/-- The net of a constant is found, or put behind the others. -/
theorem keeps_constNet (value : Bool) : (constNet value).Keeps Evolves := fun d =>
  Evolves.of_intern (d := d) (Netlist.constNetName value) (d.netlist.cells_constNet _)
    fun hclosed => hclosed.constNet (d.interner.isSome_name?_intern _)

/-! ### Derived data -/

/-- Deriving the summary of a logic cell writes only that summary. -/
theorem keeps_deriveLut (id : CellId) : (deriveLut id).Keeps Evolves := by
  intro d
  cases hc : d.netlist.cell? id with
  | none =>
      rw [deriveLut, requireCell, bind_assoc, run_get_bind, hc]
      exact .refl d
  | some c =>
      rw [deriveLut, run_bind_of_ok (run_requireCell hc)]
      cases hn : CellType.logicInputs? c.type with
      | none => exact .refl d
      | some n =>
          dsimp only
          rw [run_modifyCell hc]
          refine .of_netlist (d.netlist.evolves_modifyCell id (fun _ => rfl)
            (fun c' hc' hmade => ?_) fun _ ht => ht.modifyCell id fun _ _ => .inl)
          obtain rfl := Option.some.inj (hc.symm.trans hc')
          exact hmade.lut hn

/-- Deriving a logic cell gives it the summary of its type. -/
theorem run_deriveCell_of_logic {id : CellId} {d : Device} {c : Cell} {n : Nat}
    (hc : d.netlist.cell? id = some c) (hn : CellType.logicInputs? c.type = some n) :
    (deriveCell id).run d = (.ok (),
      { d with netlist := d.netlist.modifyCell id fun c => { c with lut := c.lutSummary n } }) := by
  have hlogic : CellType.isLogic c.type = true := by rw [CellType.isLogic, hn, Option.isSome_some]
  rw [deriveCell, run_bind_of_ok (run_requireCell hc), if_pos hlogic, deriveLut,
    run_bind_of_ok (run_requireCell hc)]
  simp only [hn]
  exact run_modifyCell hc _

/-- A summary that speaks of the zero net, if of any, is set. -/
theorem evolves_setFlipFlop (d : Device) (id : CellId) {zeroNet : Option NetId}
    (hzero : ∀ net, zeroNet = some net → ∃ name, d.netlist.findNet? name = some net) :
    d.Evolves
      ((modifyCell id fun c => { c with flipFlop := c.flipFlopSummary zeroNet }).run d).2 := by
  refine evolves_run_modifyCell d id (fun _ => rfl) (fun c hc => hc.flipFlop _) fun t ht =>
    ht.modifyCell id fun c net hnet => (Cell.refersTo_flipFlopSummary hnet).imp_right fun heq => ?_
  obtain ⟨name, hname⟩ := hzero net heq
  exact ht.isSome_of_findNet? hname

/-- Deriving the summary of a flip-flop writes only that summary, and may add the zero net. -/
theorem keeps_deriveFlipFlop (id : CellId) : (deriveFlipFlop id).Keeps Evolves := by
  refine .bind (keeps_requireCell id) fun cell => ?_
  dsimp only
  split
  · intro d
    rw [run_bind_of_ok (show (some <$> constNet false).run d = (.ok (some _), _) from rfl)]
    exact (keeps_constNet false d).trans (evolves_setFlipFlop _ id fun net heq =>
      ⟨_, (d.netlist.findNet?_constNet _).trans heq⟩)
  · intro d
    rw [run_bind_of_ok (run_pure none d)]
    exact evolves_setFlipFlop d id nofun

/-- Deriving a cell is deriving one of the two summaries, or nothing. -/
theorem keeps_deriveCell (id : CellId) : (deriveCell id).Keeps Evolves := by
  refine .bind (keeps_requireCell id) fun cell => ?_
  split
  · exact keeps_deriveLut id
  split
  · exact keeps_deriveFlipFlop id
  · exact .pure _

/-- Deriving all cells is deriving one after the other. -/
theorem keeps_deriveAll : deriveAll.Keeps Evolves :=
  .bind .get fun _ => .forM fun id _ => keeps_deriveCell id

/-- Folding a pin takes a port off its net and sets the state of its pin. -/
theorem keeps_foldPin (id : CellId) (p : Port) : (foldPin id p).Keeps Evolves := by
  refine .bind (keeps_requireCell id) fun cell => .bind .get fun d => ?_
  cases d.foldedPin? cell p with
  | none => exact .pure false
  | some value =>
      refine .bind (.modify fun d => .of_netlist (d.netlist.evolves_disconnect id p.name)) fun _ =>
        ?_
      refine .bind (keeps_modifyCell id (fun _ => rfl) (fun c hc => hc.pins _) fun _ _ h => h)
        fun _ => ?_
      exact .pure true

/-- Tying the inputs of a cell folds pins, one after the other, and derives the cell. -/
theorem keeps_applyPinDefaults (id : CellId) : (applyPinDefaults id).Keeps Evolves := by
  refine .bind (keeps_requireCell id) fun cell =>
    .bind (.mapM fun p _ => keeps_foldPin id p) fun tied => ?_
  dsimp only
  split
  · exact .bind (keeps_deriveCell id) fun _ => .pure _
  · exact .pure _

/-- The default pin map writes only the site pins of the cell. -/
theorem keeps_assignDefaultPinMap (id : CellId) : (assignDefaultPinMap id).Keeps Evolves := by
  refine .bind (keeps_requireCell id) fun _ => .modify fun d => .of_netlist ?_
  refine d.netlist.evolves_modifyCell_of_sameButSitePins id fun c => .foldl (fun c port => ?_) _ c
  split
  · exact .setSitePins c port _
  · exact .refl c

/-! ### Placement -/

/-- An existing cell is moved to a free site, and derived there. -/
theorem run_placeCell_of_free {bel : BelId} {id : CellId} {d : Device} {site : Site} {cell : Cell}
    (hsite : d.site? bel = some site) (hfree : site.cell = none)
    (hcell : d.netlist.cell? id = some cell) :
    (placeCell bel id).run d = (deriveCell id).run (d.moved bel id cell.site) := by
  simp only [placeCell, requireSite, requireCell, bind_assoc, run_get_bind, hsite]
  rw [run_bind_of_ok (run_require_some site _ d)]
  simp only [hfree]
  rw [run_get_bind, hcell, run_bind_of_ok (run_require_some cell _ d)]
  cases cell.site with
  | none =>
      dsimp only
      rw [run_modify_bind, run_bind_of_ok (run_modifyCell (c := cell) (by simpa) _),
        Device.modifySite_netlist]
      rfl
  | some old =>
      dsimp only
      rw [run_modify_bind, run_modify_bind,
        run_bind_of_ok (run_modifyCell (c := cell) (by simpa) _),
        Device.modifySite_netlist, Device.modifySite_netlist]
      rfl

/-- Placing a cell fails without a trace, or moves the cell and derives its summary. -/
theorem run_placeCell (bel : BelId) (id : CellId) (d : Device) :
    (∃ e, (placeCell bel id).run d = (.error e, d)) ∨
    ∃ site cell, d.site? bel = some site ∧ site.cell = none ∧ d.netlist.cell? id = some cell ∧
      (placeCell bel id).run d = (deriveCell id).run (d.moved bel id cell.site) := by
  cases hsite : d.site? bel with
  | none =>
      refine .inl ⟨.belNotFound bel, ?_⟩
      simp only [placeCell, requireSite, bind_assoc, run_get_bind, hsite]
      exact run_bind_of_error (run_require_none _ d)
  | some site =>
      cases hfree : site.cell with
      | some other =>
          refine .inl ⟨.fault (.siteOccupied bel other), ?_⟩
          simp only [placeCell, requireSite, bind_assoc, run_get_bind, hsite]
          rw [run_bind_of_ok (run_require_some site _ d)]
          simp only [hfree]
          rfl
      | none =>
          cases hcell : d.netlist.cell? id with
          | none =>
              refine .inl ⟨.misuse .noCell, ?_⟩
              simp only [placeCell, requireSite, requireCell, bind_assoc, run_get_bind, hsite]
              rw [run_bind_of_ok (run_require_some site _ d)]
              simp only [hfree]
              rw [run_get_bind, hcell]
              exact run_bind_of_error (run_require_none _ d)
          | some cell =>
              exact .inr ⟨site, cell, rfl, hfree, rfl, run_placeCell_of_free hsite hfree hcell⟩

/-- Placing a cell keeps the two records of every placement in agreement, also when it is moved. -/
theorem keeps_placeCell (bel : BelId) (id : CellId) : (placeCell bel id).Keeps Evolves := by
  intro d
  rcases run_placeCell bel id d with ⟨e, hrun⟩ | ⟨site, cell, hsite, hfree, hcell, hrun⟩
  · rw [hrun]
    exact .refl d
  · rw [hrun]
    exact (Device.evolves_moved hsite hfree hcell).trans (keeps_deriveCell id _)

/-- The cell on a site is taken off it in both records. -/
theorem run_removeCell {bel : BelId} {id : CellId} {d : Device} (hat : d.cellAt bel = some id) :
    (removeCell bel).run d = (.ok (some id),
      { d.modifySite bel fun s => { s with cell := none } with
        netlist := d.netlist.modifyCell id fun c => { c with site := none } }) := by
  obtain ⟨site, hsite, hcell⟩ := Option.bind_eq_some_iff.mp hat
  rw [removeCell, requireSite, bind_assoc, run_get_bind, hsite,
    run_bind_of_ok (run_require_some site _ d)]
  simp only [hcell]
  rw [run_modify_bind, run_modify_bind, run_pure, Device.modifySite_netlist]

/-- Nothing is taken off a site that holds no cell, or does not exist. -/
theorem run_removeCell_of_vacant {bel : BelId} {d : Device} (hat : d.cellAt bel = none) :
    (removeCell bel).run d =
      (if (d.site? bel).isSome then .ok none else .error (.belNotFound bel), d) := by
  rw [removeCell, requireSite, bind_assoc, run_get_bind]
  cases hsite : d.site? bel with
  | none => rfl
  | some site =>
      rw [Device.cellAt, hsite, Option.bind_some] at hat
      rw [run_bind_of_ok (run_require_some site _ d)]
      simp only [hat]
      rfl

/-- Removing a cell clears both records of its placement. -/
theorem keeps_removeCell (bel : BelId) : (removeCell bel).Keeps Evolves := by
  intro d
  cases hat : d.cellAt bel with
  | some id =>
      rw [run_removeCell hat]
      exact Device.evolves_removed hat
  | none =>
      rw [run_removeCell_of_vacant hat]
      exact .refl d

/-! ### Packing -/

/-- A record leaves the design alone. -/
theorem keeps_log (record : Diagnostic) : (log record).Keeps SameDesign :=
  .modify fun d => SameDesign.diagnostics d _

/-- What leaves the design alone packs nothing. -/
theorem repacks_of_sameDesign {α : Type} {e : Edit α} (h : e.Keeps SameDesign) : e.Keeps Repacked :=
  fun d => .of_sameDesign (h d)

/-- Packing evolves a model. -/
theorem keeps_of_repacks {α : Type} {e : Edit α} (h : e.Keeps Repacked) : e.Keeps Evolves :=
  fun d => (h d).toEvolves

/-- The drivers of shared wires are chosen and reported without a change of the design. -/
theorem keeps_sharedRoutes (lab : Nat) (info : Lab)
    (bound : List (ControlKind × Nat × ControlSignal × NetId)) (lines : Device.DataLines) :
    (sharedRoutes lab info bound lines).Keeps SameDesign := by
  induction bound generalizing lines with
  | nil => exact .pure []
  | cons entry rest ih =>
      obtain ⟨kind, slot, signal, net⟩ := entry
      rw [sharedRoutes]
      cases (info.shared.get kind)[slot]? with
      | none => exact .misuse _
      | some shared =>
          refine .bind .get fun d => ?_
          dsimp only
          cases d.wires.get? shared with
          | none => exact .throw _
          | some wire =>
              dsimp only
              have hrest (chosen : Option Wire × Device.DataLines) :
                  (do
                    let routes ← sharedRoutes lab info rest chosen.2
                    return (chosen.1.map fun src => (⟨src, shared⟩ : Pip)).toList ++ routes
                    : Edit (List Pip)).Keeps SameDesign :=
                .bind (ih _) fun _ => .pure _
              split
              · refine .bind (keeps_log _) fun _ => ?_
                split
                · exact .bind (keeps_log _) fun _ => hrest _
                · exact hrest _
              · split
                · exact .bind (keeps_log _) fun _ => hrest _
                · exact hrest _

/-- Assigning control sets writes slots and reservations, and nothing that packing reads. -/
theorem repacks_assignControlSets (lab : Nat) : (assignControlSets lab).Keeps Repacked := by
  refine .bind .get fun d => ?_
  cases d.labs[lab]? with
  | none => exact .misuse _
  | some info =>
      refine .bind .get fun d => ?_
      cases d.controlSlots info with
      | error kind => exact .throw _
      | ok slots =>
          refine .bind (.forM fun w _ => repacks_of_sameDesign (keeps_unreserve w)) fun _ => ?_
          refine .bind .get fun d => ?_
          refine .bind (.ofExcept _) fun selectorRoutes => ?_
          refine .bind (repacks_of_sameDesign (keeps_sharedRoutes _ _ _ _)) fun routes => ?_
          refine .bind (.forM fun p _ => repacks_of_sameDesign (keeps_reserve p.src p.dst)) fun _ =>
            ?_
          exact .modify fun d => .of_modifyLab lab fun _ => rfl

/-- The site pins that a plan gives to the ports of a LUT cell. -/
def plannedPins (plan : InputPlan) (half : Half) : List (Ident × List Ident) :=
  (lutInputNames.zipIdx.map fun (port, k) => (port, plan.sitePins half k)) ++
    [(Known.q, [Known.combOut])]

/-- A plan writes the site pins that it has for the cell of a half. -/
theorem applyLutPlan_eq (plan : InputPlan) (half : Half) (c : Cell) :
    applyLutPlan plan half c = c.putSitePins (plannedPins plan half) := by
  rw [Cell.putSitePins, plannedPins, List.foldl_append, List.foldl_map]
  rfl

/-- A plan gives site pins to the logical inputs and to the output. -/
theorem map_fst_plannedPins (plan : InputPlan) (half : Half) :
    (plannedPins plan half).map Prod.fst = lutInputNames ++ [Known.q] :=
  rfl

/-- A plan gives a cell other site pins, and that is all. -/
theorem sameButSitePins_applyLutPlan (plan : InputPlan) (half : Half) (c : Cell) :
    c.SameButSitePins (applyLutPlan plan half c) := by
  rw [applyLutPlan_eq]
  exact Cell.sameButSitePins_putSitePins _ c

/-- A plan hides another one that was applied before. -/
theorem applyLutPlan_applyLutPlan (hidden plan : InputPlan) (half half' : Half) (c : Cell) :
    applyLutPlan plan half' (applyLutPlan hidden half c) = applyLutPlan plan half' c := by
  have hnodup : (lutInputNames ++ [Known.q]).Nodup := by decide
  simp only [applyLutPlan_eq]
  refine Cell.putSitePins_putSitePins ?_ ?_ c
  · rw [map_fst_plannedPins, map_fst_plannedPins]
  · rwa [map_fst_plannedPins]

/-- Reserving the input of an E/F selector leaves the design alone. -/
theorem keeps_reserveSelector (pos : Pos) (alm : Nat) (selector : Wire) (pin : Option AlmPin) :
    (reserveSelector pos alm selector pin).Keeps SameDesign := by
  refine .bind (keeps_unreserve selector) fun _ => ?_
  cases pin with
  | none => exact .pure _
  | some pin => exact .bind (keeps_requirePort _ _ _ _ _ _) fun src => keeps_reserve src selector

/-- Reserving the data input of a flip-flop leaves the design alone. -/
theorem keeps_reserveData (lutOutput selector data : Wire) (source : FlopSource) :
    (reserveData lutOutput selector data source).Keeps SameDesign := by
  refine .bind (keeps_unreserve data) fun _ => ?_
  cases source with
  | «open» => exact .pure _
  | lut => exact keeps_reserve lutOutput data
  | selector => exact keeps_reserve selector data

/-- Planning inputs writes a mode, site pins and reservations, and nothing that packing reads. -/
theorem repacks_reassignInputs (lab alm : Nat) : (reassignInputs lab alm).Keeps Repacked := by
  refine .bind .get fun d => ?_
  dsimp only
  split
  · rename_i plan info a _ _ _
    refine .bind (.modify fun d => .of_modifyAlm lab alm plan.fused) fun _ => ?_
    refine .bind (.forM fun half _ => ?_) fun _ => ?_
    · cases (d.lutCells a).get half with
      | none => exact .pure _
      | some id =>
          exact .modify fun d => .of_sitePins id (sameButSitePins_applyLutPlan plan half)
    refine .bind (.forM fun half _ => repacks_of_sameDesign (keeps_reserveSelector _ _ _ _))
      fun _ => ?_
    refine .forM fun half _ => .bind (repacks_of_sameDesign (keeps_reserveData _ _ _ _)) fun _ => ?_
    exact repacks_of_sameDesign (keeps_reserveData _ _ _ _)
  · exact .throw _

/-- The step of an ALM in the preparation of its LAB. -/
def preRouteAlm (lab alm : Nat) : Edit Bool := do
  let d ← get
  if (d.alm? lab alm).any (isOccupied d) then
    reassignInputs lab alm
    return true
  else return false

/-- A LAB is prepared by its control sets first and then ALM by ALM. -/
theorem preRouteLab_eq (lab : Nat) : preRouteLab lab = (do
    assignControlSets lab
    let used ← (List.range Chip.almsPerLab).mapM (preRouteAlm lab)
    return used.any id) :=
  rfl

/-- An ALM keeps in preparation what planning its inputs keeps: an empty one is passed over. -/
theorem keeps_preRouteAlm {R : Device → Device → Prop} [IsPreorder Device R] {lab alm : Nat}
    (h : (reassignInputs lab alm).Keeps R) : (preRouteAlm lab alm).Keeps R := by
  refine .bind .get fun d => ?_
  split
  · exact .bind h fun _ => .pure true
  · exact .pure false

/-- A LAB keeps in preparation what its control sets and the plans of its ALMs keep. -/
theorem keeps_preRouteLab {R : Device → Device → Prop} [IsPreorder Device R] {lab : Nat}
    (hassign : (assignControlSets lab).Keeps R) (hplan : ∀ alm, (reassignInputs lab alm).Keeps R) :
    (preRouteLab lab).Keeps R :=
  .bind hassign fun _ => .bind (.mapM fun alm _ => keeps_preRouteAlm (hplan alm)) fun _ => .pure _

/-- Preparing a LAB changes nothing that packing reads. -/
theorem repacks_preRouteLab (lab : Nat) : (preRouteLab lab).Keeps Repacked :=
  keeps_preRouteLab (repacks_assignControlSets lab) fun alm => repacks_reassignInputs lab alm

/-- Preparing a design for routing changes nothing that packing reads. -/
theorem repacks_preRoute : preRoute.Keeps Repacked :=
  .bind .get fun _ => .bind (.mapM fun lab _ => repacks_preRouteLab lab) fun _ =>
    repacks_of_sameDesign (keeps_log _)

end Edit

/-! ### Runs of operations -/

/-- What can be done with a device once it is built. -/
inductive Operation where
  | createCell (name : String) (type : Ident)
  | createNet (name : String)
  | addPort (cell : CellId) (port : Ident) (dir : PortDir)
  | connect (cell : CellId) (port : Ident) (net : NetId)
  | disconnect (cell : CellId) (port : Ident)
  | setParam (cell : CellId) (key : Ident) (value : Property)
  | setPinState (cell : CellId) (pin : Ident) (state : PinState)
  | setSitePins (cell : CellId) (pin : Ident) (sitePins : List Ident)
  | setGlobal (net : NetId) (isGlobal : Bool)
  | constNet (value : Bool)
  | placeCell (bel : BelId) (cell : CellId)
  | removeCell (bel : BelId)
  | deriveLut (cell : CellId)
  | deriveFlipFlop (cell : CellId)
  | deriveCell (cell : CellId)
  | deriveAll
  | applyPinDefaults (cell : CellId)
  | assignDefaultPinMap (cell : CellId)
  | reserve (src dst : Wire)
  | unreserve (w : Wire)
  | assignControlSets (lab : Nat)
  | reassignInputs (lab alm : Nat)
  | preRoute
  | setVerbose (verbose : Bool)
  | takeRecords

namespace Operation

/-- An operation as an edit. Its answer is dropped. -/
def edit : Operation → Edit Unit
  | createCell name type => discard (Edit.createCell name type)
  | createNet name => discard (Edit.createNet name)
  | addPort cell port dir => Edit.addPort cell port dir
  | connect cell port net => Edit.connect cell port net
  | disconnect cell port => Edit.disconnect cell port
  | setParam cell key value => Edit.setParam cell key value
  | setPinState cell pin state => Edit.modifyCell cell (·.setPinState pin state)
  | setSitePins cell pin sitePins => Edit.modifyCell cell (·.setSitePins pin sitePins)
  | setGlobal net isGlobal => Edit.setGlobal net isGlobal
  | constNet value => discard (Edit.constNet value)
  | placeCell bel cell => Edit.placeCell bel cell
  | removeCell bel => discard (Edit.removeCell bel)
  | deriveLut cell => Edit.deriveLut cell
  | deriveFlipFlop cell => Edit.deriveFlipFlop cell
  | deriveCell cell => Edit.deriveCell cell
  | deriveAll => Edit.deriveAll
  | applyPinDefaults cell => discard (Edit.applyPinDefaults cell)
  | assignDefaultPinMap cell => Edit.assignDefaultPinMap cell
  | reserve src dst => Edit.reserve src dst
  | unreserve w => Edit.unreserve w
  | assignControlSets lab => Edit.assignControlSets lab
  | reassignInputs lab alm => Edit.reassignInputs lab alm
  | preRoute => Edit.preRoute
  | setVerbose verbose => Edit.setVerbose verbose
  | takeRecords => discard Edit.takeRecords

/-- The model that an operation leaves, whether or not it succeeds. -/
def apply (op : Operation) (d : Device) : Device := (op.edit.run d).2

open Device (Evolves)
open Edit

/-- An operation evolves the model, whether or not it succeeds. -/
theorem keeps (op : Operation) : op.edit.Keeps Evolves := by
  cases op with
  | createCell name type => exact .map _ (keeps_createCell name type)
  | createNet name => exact .map _ (keeps_createNet name)
  | addPort cell port dir => exact keeps_addPort cell port dir
  | connect cell port net => exact keeps_connect cell port net
  | disconnect cell port => exact keeps_disconnect cell port
  | setParam cell key value =>
      exact keeps_modifyCell cell (fun _ => rfl) (fun c hc => hc.params _) fun _ _ h => h
  | setPinState cell pin state =>
      exact keeps_modifyCell cell (fun _ => rfl) (fun c hc => hc.pins _) fun _ _ h => h
  | setSitePins cell pin sitePins =>
      exact keeps_modifyCell cell (fun _ => rfl) (fun c hc => hc.pins _) fun _ _ h => h
  | setGlobal net isGlobal => exact keeps_setGlobal net isGlobal
  | constNet value => exact .map _ (keeps_constNet value)
  | placeCell bel cell => exact keeps_placeCell bel cell
  | removeCell bel => exact .map _ (keeps_removeCell bel)
  | deriveLut cell => exact keeps_deriveLut cell
  | deriveFlipFlop cell => exact keeps_deriveFlipFlop cell
  | deriveCell cell => exact keeps_deriveCell cell
  | deriveAll => exact keeps_deriveAll
  | applyPinDefaults cell => exact .map _ (keeps_applyPinDefaults cell)
  | assignDefaultPinMap cell => exact keeps_assignDefaultPinMap cell
  | reserve src dst => exact keeps_of_sameDesign (keeps_reserve src dst)
  | unreserve w => exact keeps_of_sameDesign (keeps_unreserve w)
  | assignControlSets lab => exact keeps_of_repacks (repacks_assignControlSets lab)
  | reassignInputs lab alm => exact keeps_of_repacks (repacks_reassignInputs lab alm)
  | preRoute => exact keeps_of_repacks repacks_preRoute
  | setVerbose verbose => exact .modify fun d => .of_sameDesign (SameDesign.diagnostics d _)
  | takeRecords =>
      exact .map _ (.modifyGet fun d => .of_sameDesign (SameDesign.diagnostics d _))

/-! ### Runs of single operations -/

/-- A call that creates a cell interns its name and adds the cell. -/
theorem apply_createCell (d : Device) (name : String) (type : Ident) :
    (createCell name type).apply d =
      { d with
        interner := (d.interner.intern name).2
        netlist := (d.netlist.addCell (d.interner.intern name).1 type).2 } :=
  rfl

/-- A call that creates a net interns its name and adds the net. -/
theorem apply_createNet (d : Device) (name : String) : (createNet name).apply d =
    { d with
      interner := (d.interner.intern name).2
      netlist := (d.netlist.addNet (d.interner.intern name).1).2 } :=
  rfl

/-- A call that gives an existing cell a port adds the port and does nothing else. -/
theorem apply_addPort {d : Device} {id : CellId} {c : Cell} (hc : d.netlist.cell? id = some c)
    (port : Ident) (dir : PortDir) :
    (addPort id port dir).apply d = { d with netlist := d.netlist.addPort id port dir } := by
  rw [apply, edit, Edit.addPort, Edit.run_bind_of_ok (Edit.run_requireCell hc)]
  rfl

/-- A call that connects a port, where it can be connected, does nothing else. -/
theorem apply_connect {d : Device} {id : CellId} {port : Ident} {net : NetId} {nl : Netlist}
    (h : d.netlist.connect id port net = .ok nl) :
    (connect id port net).apply d = { d with netlist := nl } := by
  rw [apply, edit, Edit.connect, Edit.onNetlist, Edit.run_get_bind]
  simp only [h]
  rfl

end Operation

/-- The models that operations lead to. -/
inductive Reachable (d₀ : Device) : Device → Prop where
  | built : Reachable d₀ d₀
  | step {d : Device} (h : Reachable d₀ d) (op : Operation) : Reachable d₀ (op.apply d)

/-- A run of operations evolves the model. -/
theorem Reachable.evolves {d₀ d : Device} (h : Reachable d₀ d) : d₀.Evolves d := by
  induction h with
  | built => exact .refl d₀
  | step _ op ih => exact ih.trans (op.keeps _)

namespace Device

/-- A model without cells is consistent. -/
theorem Vacant.consistent {d : Device} (h : d.Vacant) : d.Consistent := by
  have hcell (id : CellId) : d.netlist.cell? id = none := by
    rw [Netlist.cell?, h.netlist]
    exact Array.getElem?_empty
  refine ⟨fun bel id => ?_, fun id c hc => ?_, ?_⟩
  · rw [h.cellAt, Netlist.siteOf, hcell]
    simp
  · rw [hcell] at hc
    cases hc
  · rw [h.netlist]
    exact Netlist.closed_empty _

end Device

namespace Reachable

variable {selection : Selection} {d₀ d : Device}

/-- No operation on a design changes the hardware. -/
theorem hardware (h : Reachable d₀ d) : d.hardware = d₀.hardware := h.evolves.hardware

/-- Every model that operations lead to from a built device is consistent. -/
theorem consistent (hbuilt : Device.ofSelection selection = .ok d₀) (h : Reachable d₀ d) :
    d.Consistent :=
  h.evolves.consistent (Device.vacant_ofSelection hbuilt).consistent

/-! ### Drawing a design -/

/-- A design can be given one more cell, under any name and of any type. -/
theorem exists_addCell (h : Reachable d₀ d) (name : String) (type : Ident) :
    ∃ n d', Reachable d₀ d' ∧
    d'.netlist = (d.netlist.addCell n type).2 ∧ d'.labs = d.labs ∧
      d'.interner.name? n = some name :=
  ⟨_, _, h.step (.createCell name type), rfl, rfl, d.interner.name?_intern_self name⟩

/-- A design can be given one more net, under any name. -/
theorem exists_addNet (h : Reachable d₀ d) (name : String) : ∃ n d', Reachable d₀ d' ∧
    d'.netlist = (d.netlist.addNet n).2 ∧ d'.labs = d.labs ∧ d'.interner.name? n = some name :=
  ⟨_, _, h.step (.createNet name), rfl, rfl, d.interner.name?_intern_self name⟩

/-- A cell of a design can be given one more port. -/
theorem exists_addPort (h : Reachable d₀ d) (id : CellId) {c : Cell}
    (hc : d.netlist.cell? id = some c) (port : Ident) (dir : PortDir) : ∃ d', Reachable d₀ d' ∧
      d'.netlist = d.netlist.addPort id port dir ∧ d'.labs = d.labs ∧ d'.interner = d.interner := by
  refine ⟨_, h.step (.addPort id port dir), ?_⟩
  rw [Operation.apply_addPort hc]
  exact ⟨rfl, rfl, rfl⟩

/-- A port of a design can be put on a net wherever the netlist lets it be. -/
theorem exists_connect (h : Reachable d₀ d) (id : CellId) (port : Ident) (net : NetId)
    {nl : Netlist} (hconnect : d.netlist.connect id port net = .ok nl) : ∃ d', Reachable d₀ d' ∧
      d'.netlist = nl ∧ d'.labs = d.labs ∧ d'.interner = d.interner := by
  refine ⟨_, h.step (.connect id port net), ?_⟩
  rw [Operation.apply_connect hconnect]
  exact ⟨rfl, rfl, rfl⟩

/-- The pins of a cell of a design can be set to any state. -/
theorem exists_setPinState (h : Reachable d₀ d) (id : CellId) {c : Cell}
    (hc : d.netlist.cell? id = some c) (pin : Ident) (state : PinState) : ∃ d', Reachable d₀ d' ∧
      d'.netlist = d.netlist.modifyCell id (·.setPinState pin state) ∧ d'.labs = d.labs ∧
      d'.interner = d.interner := by
  refine ⟨_, h.step (.setPinState id pin state), ?_⟩
  rw [Operation.apply, Operation.edit, Edit.run_modifyCell hc]
  exact ⟨rfl, rfl, rfl⟩

/-- A cell can be taken off its site. -/
theorem exists_removed (h : Reachable d₀ d) {bel : BelId} {id : CellId}
    (hat : d.cellAt bel = some id) :
    ∃ d', Reachable d₀ d' ∧ d'.labs = d.labs ∧ d'.wires = d.wires ∧
      ∀ b, d'.cellAt b = if bel = b then none else d.cellAt b := by
  have happly : (Operation.removeCell bel).apply d =
      { d.modifySite bel fun s => { s with cell := none } with
        netlist := d.netlist.modifyCell id fun c => { c with site := none } } := by
    have hdiscard : discard (Edit.removeCell bel) = (Edit.removeCell bel >>= fun _ => pure ()) := by
      rw [← map_eq_pure_bind]
      rfl
    rw [Operation.apply, Operation.edit, hdiscard, Edit.run_bind_of_ok (Edit.run_removeCell hat)]
    rfl
  refine ⟨_, h.step (.removeCell bel), ?_⟩
  rw [happly]
  refine ⟨Device.modifySite_labs _ _ _, Device.modifySite_wires _ _ _, fun b => ?_⟩
  refine (Device.cellAt_modifySite d bel b _).trans ?_
  split
  · cases d.site? b <;> rfl
  · rfl

end Reachable

end Fabric
