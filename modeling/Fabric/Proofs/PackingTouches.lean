import Fabric.Proofs.AlmRoutes
import Fabric.Proofs.ControlSets
import Fabric.Proofs.Touches

/-!
# Packing calls as touches

A packing call decides what to do from what packing reads, and no touch changes that. So the call
gives the same answer on every model that differs by touches at most, and makes the same touches:
it is `Traced`. This holds of calls that fail as well, however far they got.

The touches of a call are of its own parts. An assignment of control sets touches the control wires
and the slots of its LAB. Planning inputs touches the E/F selectors, the data inputs and the mode of
its ALM, and the LUT cells on it.

## Main results

* `Traced.bind`, `Traced.forM`, `Traced.get_bind`: a sequence is traced if its parts are;
* `traced_reserve`, `traced_sharedRoutes`, `traced_routeInputs`: the parts of a packing call;
* `PackingCall.traced`: a packing call is traced, with touches of its own parts;
* `PackingCall.keepsTo`: so it changes nothing else, also when it fails.
-/

namespace Fabric

namespace Edit

variable {α β : Type} {d₀ : Device} {S : Touch → Prop}

/-- An edit gives the same answer on every model in which packing reads the same as in `d₀`, one
with `Q` if it succeeds, and makes the same touches, each with `S`. -/
def Traced (d₀ : Device) (S : Touch → Prop) (e : Edit α) (Q : α → Prop) : Prop :=
  ∃ answer ts, (∀ t ∈ ts, S t) ∧ (∀ a, answer = .ok a → Q a) ∧
    ∀ d, d₀.Touched d → e.run d = (answer, d.after ts)

namespace Traced

variable {e k : Edit α} {Q : α → Prop} {R : β → Prop}

/-- An edit that only answers makes no touch. -/
protected theorem pure {a : α} (h : Q a) : Traced d₀ S (pure a) Q :=
  ⟨.ok a, [], List.forall_mem_nil S, fun _ heq => Except.ok.inj heq ▸ h, fun _ _ => rfl⟩

/-- An edit that fails makes no touch. -/
protected theorem throw (why : Error) : Traced d₀ S (throw why) Q :=
  ⟨.error why, [], List.forall_mem_nil S, nofun, fun _ _ => rfl⟩

/-- An answer that was computed before is given without a touch. -/
protected theorem ofExcept {answer : Except Error α} (h : ∀ a, answer = .ok a → Q a) :
    Traced d₀ S (MonadExcept.ofExcept answer) Q :=
  ⟨answer, [], List.forall_mem_nil S, h, fun d _ => run_ofExcept answer d⟩

/-- A touch, made at once. -/
protected theorem touch {t : Touch} (h : S t) :
    Traced d₀ S (modify t.apply : Edit PUnit) fun _ => True :=
  ⟨.ok ⟨⟩, [t], List.forall_mem_singleton.mpr h, fun _ _ => trivial, fun _ _ => rfl⟩

/-- Some touches are made first. -/
theorem of_run (ts : List Touch) (hts : ∀ t ∈ ts, S t) (h : Traced d₀ S k Q)
    (hrun : ∀ d, d₀.Touched d → e.run d = k.run (d.after ts)) : Traced d₀ S e Q := by
  obtain ⟨answer, us, hus, hQ, hrun'⟩ := h
  refine ⟨answer, ts ++ us, fun t ht => (List.mem_append.mp ht).elim (hts t) (hus t), hQ,
    fun d hd => ?_⟩
  rw [hrun d hd, hrun' _ (hd.trans (.of_after ts d)), Device.after_append]

/-- What follows is decided by what packing reads. -/
theorem get_bind {f : Device → Edit β} (h : Traced d₀ S (f d₀) R)
    (hf : ∀ d, d₀.Touched d → f d = f d₀) : Traced d₀ S (get >>= f) R :=
  .of_run [] (List.forall_mem_nil S) h fun d hd => by rw [run_get_bind, hf d hd, Device.after_nil]

/-- A sequence makes the touches of its parts, one after the other. -/
protected theorem bind {f : α → Edit β} (he : Traced d₀ S e Q)
    (hf : ∀ a, Q a → Traced d₀ S (f a) R) :
    Traced d₀ S (e >>= f) R := by
  obtain ⟨answer, ts, hts, hQ, hrun⟩ := he
  cases answer with
  | ok a =>
    exact .of_run ts hts (hf a (hQ a rfl)) fun d hd => run_bind_of_ok (hrun d hd)
  | error why =>
    exact ⟨.error why, ts, hts, nofun, fun d hd => run_bind_of_error (hrun d hd)⟩

/-- A loop makes the touches of its steps, one after the other. -/
protected theorem forM {l : List β} {f : β → Edit PUnit}
    (hf : ∀ x ∈ l, Traced d₀ S (f x) fun _ => True) : Traced d₀ S (forM l f) fun _ => True := by
  induction l with
  | nil => exact .pure trivial
  | cons x rest ih =>
    rw [List.forM_cons]
    exact .bind (hf x List.mem_cons_self) fun _ _ => ih fun y hy => hf y (List.mem_cons_of_mem x hy)

end Traced

end Edit

/-! ### Names -/

namespace Device.Touched

variable {d d' : Device}

/-- Touches do not change the name of a wire. -/
theorem wireName_eq (h : d.Touched d') (w : Wire) : d'.wireName w = d.wireName w := by
  rw [wireName, wireName]
  cases hw : d.wires.get? w with
  | none => rw [h.get?_eq_none hw]
  | some info =>
    obtain ⟨flags, hw'⟩ := h.exists_wire hw
    rw [hw']

/-- Touches do not change the text of a name. -/
theorem textOf_eq (h : d.Touched d') : d'.textOf = d.textOf := by
  funext p
  rw [textOf, h.interner, textOf]

/-- Touches do not change the text of a control signal. -/
theorem signalText_eq (h : d.Touched d') : d'.signalText = d.signalText := by
  funext signal
  have hname : d'.nameOf = d.nameOf := by
    funext i
    rw [nameOf, h.interner, nameOf]
  rw [signalText, h.net?, hname, signalText]

/-- Touches do not change which driver is chosen for a shared wire. -/
theorem sharedDriver_eq (h : d.Touched d') : d'.sharedDriver = d.sharedDriver := by
  funext lines kind uphill net
  rw [sharedDriver, h.net?, sharedDriver]

end Device.Touched

namespace Edit

variable {d₀ : Device} {S : Touch → Prop}

/-! ### Reservations -/

/-- To record something is one touch. -/
theorem traced_log {entry : Diagnostic} (h : S (.record entry)) :
    Traced d₀ S (log entry) fun _ => True :=
  .touch h

/-- To free a wire is one touch of that wire. -/
theorem traced_unreserve {w : Wire} (h : S (.wire w none)) :
    Traced d₀ S (unreserve w) fun _ => True := by
  have hcontains (g : WireGraph) : g.contains w = ((g.get? w).map WireInfo.bare).isSome := by
    rw [WireGraph.contains_eq_isSome, Option.isSome_map]
  refine .get_bind (f := fun d => if d.wires.contains w then
    (modify fun d => { d with wires := d.wires.unreserve w }) else throw (.wireNotFound w)) ?_
    fun d hd => ?_
  · split
    · exact .touch h
    · exact .throw _
  · rw [hcontains, hd.wire, ← hcontains]

/-- Reports a reservation if debug records are kept. -/
def reportReservation (src dst : Wire) : Edit Unit := do
  let d ← get
  if d.diagnostics.verbose then
    match d.wireName dst, d.wireName src with
    | .ok dstName, .ok srcName =>
      let dstText := d.textOf dstName
      log {
        severity := .debug
        code := .reservation
        message := s!"reserved {d.textOf srcName} -> {dstText}"
        subject := some dstText }
    | _, _ => pure ()

/-- To report a reservation is one touch, or none, of the records. -/
theorem traced_reportReservation (src dst : Wire) (h : ∀ entry, S (.record entry)) :
    Traced d₀ S (reportReservation src dst) fun _ => True := by
  refine .get_bind ?_ fun d hd => ?_
  · split
    · split
      · exact traced_log (h _)
      · exact .pure trivial
    · exact .pure trivial
  · rw [hd.verbose, hd.wireName_eq, hd.wireName_eq, hd.textOf_eq]

/-- To reserve a pip touches the wire behind it, and the records. -/
theorem traced_reserve (src dst : Wire) (hwire : ∀ place, S (.wire dst place))
    (hrecord : ∀ entry, S (.record entry)) : Traced d₀ S (reserve src dst) fun _ => True := by
  cases hdst : d₀.wires.get? dst with
  | none =>
    refine .of_run [] (List.forall_mem_nil S) (.throw (.wireNotFound dst)) fun d hd => ?_
    rw [reserve, run_get_bind, WireGraph.reserve, hd.get?_eq_none hdst]
    rfl
  | some info₀ =>
    -- The uphill wires do not depend on reservations, and neither does the place of the driver.
    have hplaces (flags : UInt64) :
        ({ info₀ with flags := flags } : WireInfo).reservableIndex? src =
        info₀.reservableIndex? src :=
      rfl
    cases hplace : info₀.reservableIndex? src with
    | none =>
      refine .of_run [] (List.forall_mem_nil S) (.throw (.pipNotFound src dst)) fun d hd => ?_
      obtain ⟨flags, hinfo⟩ := hd.exists_wire hdst
      rw [reserve, run_get_bind, WireGraph.reserve, hinfo]
      simp only [hplaces, hplace]
      rfl
    | some i =>
      have hi := (WireInfo.reservableIndex?_eq_some hplace).1
      refine .of_run [.wire dst (some ⟨i, hi⟩)] (List.forall_mem_singleton.mpr (hwire _))
        (traced_reportReservation src dst hrecord) fun d hd => ?_
      obtain ⟨flags, hinfo⟩ := hd.exists_wire hdst
      rw [reserve, run_get_bind, WireGraph.reserve, hinfo]
      simp only [hplaces, hplace]
      rfl

/-! ### Control sets -/

/-- The drivers of the shared wires are chosen and reported, and nothing else is touched. -/
theorem traced_sharedRoutes (lab : Nat) (info : Lab) (hrecord : ∀ entry, S (.record entry))
    (slots : List Device.BoundSlot) (lines : Device.DataLines) :
    Traced d₀ S (sharedRoutes lab info slots lines) fun routes =>
      ∀ p ∈ routes, p.dst ∈ info.controlWires := by
  induction slots generalizing lines with
  | nil => exact .pure nofun
  | cons b rest ih =>
    obtain ⟨kind, slot, signal, net⟩ := b
    rw [sharedRoutes]
    cases hshared : (info.shared.get kind)[slot]? with
    | none => exact .throw _
    | some shared =>
      have hcontrol : shared ∈ info.controlWires := by
        refine List.mem_append_left _ (List.mem_flatMap.mpr ⟨kind, kind.mem_all, ?_⟩)
        exact List.mem_of_getElem? hshared
      refine .get_bind ?_ fun d hd => ?_
      · cases hwire : d₀.wires.get? shared with
        | none => exact .throw _
        | some wire =>
          dsimp only
          generalize d₀.sharedDriver lines kind wire.uphill.toList net = chosen
          have hroutes : Traced d₀ S (do
              let routes ← sharedRoutes lab info rest chosen.2
              return (chosen.1.map fun src => (⟨src, shared⟩ : Pip)).toList ++ routes) fun routes =>
              ∀ p ∈ routes, p.dst ∈ info.controlWires := by
            refine .bind (ih chosen.2) fun routes hroutes => .pure fun p hp => ?_
            rcases List.mem_append.mp hp with hp | hp
            · obtain ⟨src, -, rfl⟩ := Option.map_eq_some_iff.mp (Option.mem_toList.mp hp)
              exact hcontrol
            · exact hroutes p hp
          have hlog (severity : Severity) (message : String) :
              Traced d₀ S (logSlot severity lab message) fun _ => True :=
            traced_log (hrecord _)
          split
          · refine .bind (hlog _ _) fun _ _ => ?_
            split
            · exact .bind (hlog _ _) fun _ _ => hroutes
            · exact hroutes
          · split
            · exact .bind (hlog _ _) fun _ _ => hroutes
            · exact hroutes
      · cases hwire : d₀.wires.get? shared with
        | none => rw [hd.get?_eq_none hwire]
        | some wire =>
          obtain ⟨flags, hwire'⟩ := hd.exists_wire hwire
          rw [hwire']
          simp only [hd.sharedDriver_eq, hd.signalText_eq, hd.verbose]

/-- Gives a LAB its slots and reserves its control wires. -/
def assignSlots (lab : Nat) (info : Lab) (slots : ControlSlots) : Edit Unit := do
  info.controlWires.forM unreserve
  let selectorRoutes ← MonadExcept.ofExcept ((← get).selectorRoutes lab info slots)
  let sharedRoutes ← sharedRoutes lab info (Device.boundSlots slots) []
  (selectorRoutes ++ sharedRoutes).forM fun p => reserve p.src p.dst
  modify fun d => { d with labs := d.labs.modify lab fun l => { l with control := slots } }

/-- Control sets are assigned once their slots are known; too many signals are refused before. -/
theorem run_assignControlSets {d : Device} {lab : Nat} {info : Lab}
    (hlab : d.labs[lab]? = some info) :
    (assignControlSets lab).run d = (match d.controlSlots info with
      | .error kind => throw (.controlSetOverflow lab kind)
      | .ok slots => assignSlots lab info slots : Edit Unit).run d := by
  simp only [assignControlSets, run_get_bind, hlab]
  rfl

/-- The drivers of shared wires do not depend on the modes and slots of the LAB. -/
theorem sharedRoutes_bare (lab : Nat) (info : Lab) (slots : List Device.BoundSlot)
    (lines : Device.DataLines) :
    sharedRoutes lab info.bare slots lines = sharedRoutes lab info slots lines := by
  induction slots generalizing lines with
  | nil => rfl
  | cons b rest ih =>
    rw [sharedRoutes, sharedRoutes]
    simp only [ih]
    rfl

/-- What was packed into a LAB before does not count. -/
theorem assignSlots_bare (lab : Nat) (info : Lab) (slots : ControlSlots) :
    assignSlots lab info.bare slots = assignSlots lab info slots := by
  simp only [assignSlots, Device.controlWires_bare, Device.Repacked.selectorRoutes_bare,
    sharedRoutes_bare]

/-- The route of a selector ends on a control wire. -/
theorem dst_mem_controlWires {d : Device} {info : Lab} {slots : ControlSlots} {p : Pip}
    (hp : p ∈ d.selectorPips info slots) : p.dst ∈ info.controlWires := by
  obtain ⟨a, ha, half, kind, hk, -, -, -, -, s, -, -, hs, rfl⟩ := Device.mem_selectorPips.mp hp
  exact List.mem_append_right _ (mem_selectorWires.mpr ⟨a, ha, kind, hk, s, hs, half, rfl⟩)

/-- To assign slots touches the control wires of the LAB, its slots and the records. -/
theorem traced_assignSlots (lab : Nat) (info : Lab) (slots : ControlSlots)
    (hwire : ∀ w ∈ info.controlWires, ∀ place, S (.wire w place)) (hslots : S (.slots lab slots))
    (hrecord : ∀ entry, S (.record entry)) :
    Traced d₀ S (assignSlots lab info slots) fun _ => True := by
  refine .bind (.forM fun w hw => traced_unreserve (hwire w hw none)) fun _ _ => ?_
  refine .get_bind ?_ fun d hd => ?_
  · refine .bind (Q := fun routes => ∀ p ∈ routes, p.dst ∈ info.controlWires)
      (.ofExcept fun routes hfound p hp => ?_) fun selectorRoutes hselector => ?_
    · rw [Device.selectorRoutes_eq_ok hfound] at hp
      exact dst_mem_controlWires hp
    refine .bind (traced_sharedRoutes lab info hrecord _ []) fun routes hroutes => ?_
    refine .bind (.forM fun p hp => ?_) fun _ _ => .touch hslots
    refine traced_reserve p.src p.dst (hwire p.dst ?_) hrecord
    exact (List.mem_append.mp hp).elim (hselector p) (hroutes p)
  · rw [hd.selectorRoutes_eq rfl]

/-- To assign control sets touches the control wires of the LAB, its slots and the records. -/
theorem traced_assignControlSets (lab : Nat)
    (hwire : ∀ w ∈ d₀.controlWiresOf lab, ∀ place, S (.wire w place))
    (hslots : ∀ bound, S (.slots lab bound)) (hrecord : ∀ entry, S (.record entry)) :
    Traced d₀ S (assignControlSets lab) fun _ => True := by
  cases hlab : d₀.labs[lab]? with
  | none =>
    refine .of_run [] (List.forall_mem_nil S) (.throw (.misuse .noLab)) fun d hd => ?_
    have hlab' : d.labs[lab]? = none := by
      rw [Array.getElem?_eq_none_iff] at hlab ⊢
      rwa [hd.size_labs_eq]
    rw [assignControlSets, run_get_bind, hlab']
    rfl
  | some info₀ =>
    have hcontrol : d₀.controlWiresOf lab = info₀.controlWires := by
      rw [Device.controlWiresOf, hlab]
      rfl
    refine .of_run (k := match d₀.controlSlots info₀ with
      | .error kind => throw (.controlSetOverflow lab kind)
      | .ok slots => assignSlots lab info₀ slots) [] (List.forall_mem_nil S) ?_ fun d hd => ?_
    · split
      · exact .throw _
      · exact traced_assignSlots lab info₀ _ (hcontrol ▸ hwire) (hslots _) hrecord
    · obtain ⟨info, hinfo, hbare⟩ := hd.exists_lab_after hlab
      rw [run_assignControlSets hinfo, hd.controlSlots_eq hbare, Device.after_nil]
      cases d₀.controlSlots info₀ with
      | error kind => rfl
      | ok slots =>
        dsimp only
        rw [← assignSlots_bare, hbare, assignSlots_bare]

/-! ### Input plans -/

/-- To reserve the input of an E/F selector touches the selector and the records. -/
theorem traced_reserveSelector (pos : Pos) (alm : Nat) (selector : Wire) (pin : Option AlmPin)
    (hwire : ∀ place, S (.wire selector place)) (hrecord : ∀ entry, S (.record entry)) :
    Traced d₀ S (reserveSelector pos alm selector pin) fun _ => True := by
  refine .bind (traced_unreserve (hwire none)) fun _ _ => ?_
  cases pin with
  | none => exact .pure trivial
  | some pin =>
    refine .bind (Q := fun _ => True) (.get_bind ?_ fun d hd => ?_) fun src _ =>
      traced_reserve src selector hwire hrecord
    · generalize d₀.chip.node? _ = found
      cases found with
      | none => exact .throw _
      | some src => exact .pure trivial
    · have hchip : d.chip = d₀.chip := congrArg Hardware.chip hd.hardware
      rw [hchip]

/-- To reserve the data input of a flip-flop touches that wire and the records. -/
theorem traced_reserveData (lutOutput selector data : Wire) (source : FlopSource)
    (hwire : ∀ place, S (.wire data place)) (hrecord : ∀ entry, S (.record entry)) :
    Traced d₀ S (reserveData lutOutput selector data source) fun _ => True := by
  refine .bind (traced_unreserve (hwire none)) fun _ _ => ?_
  cases source with
  | «open» => exact .pure trivial
  | lut => exact traced_reserve lutOutput data hwire hrecord
  | selector => exact traced_reserve selector data hwire hrecord

/-- To route the inputs of an ALM touches its input wires and the records. -/
theorem traced_routeInputs (pos : Pos) (alm : Nat) (a : Alm) (plan : InputPlan)
    (hwire : ∀ w ∈ a.inputWires, ∀ place, S (.wire w place))
    (hrecord : ∀ entry, S (.record entry)) :
    Traced d₀ S (routeInputs pos alm a plan) fun _ => True := by
  have hselector (half : Half) : a.efSelector.get half ∈ a.inputWires :=
    List.mem_append_left _ (Halves.mem_toList.mpr ⟨half, rfl⟩)
  have hdata (half : Half) :
      (a.ffIn.get half).1 ∈ a.inputWires ∧ (a.ffIn.get half).2 ∈ a.inputWires := by
    cases half <;> simp [Alm.inputWires, Flops.toList, Halves.get, Halves.toList]
  refine .bind (.forM fun half _ => ?_) fun _ _ => .forM fun half _ => ?_
  · exact traced_reserveSelector pos alm _ _ (hwire _ (hselector half)) hrecord
  · exact .bind (traced_reserveData _ _ _ _ (hwire _ (hdata half).1) hrecord) fun _ _ =>
      traced_reserveData _ _ _ _ (hwire _ (hdata half).2) hrecord

/-- The touches by which the plan of an ALM is applied to the design. -/
def planTouches (lab alm : Nat) (plan : InputPlan) (luts : Halves (Option CellId)) : List Touch :=
  .mode lab alm plan.fused ::
    Half.all.filterMap fun half => (luts.get half).map fun id => .cell id plan half

/-- To write a plan is to touch the mode of the ALM and the cells of its halves. -/
theorem planned_eq_after (d : Device) (lab alm : Nat) (plan : InputPlan)
    (luts : Halves (Option CellId)) :
    d.planned lab alm plan luts = d.after (planTouches lab alm plan luts) := by
  obtain ⟨top, bottom⟩ := luts
  cases top <;> cases bottom <;> rfl

/-- To plan the inputs of an ALM touches its input wires, its mode, its cells and the records. -/
theorem traced_reassignInputs (lab alm : Nat)
    (hwire : ∀ a, d₀.alm? lab alm = some a → ∀ w ∈ a.inputWires, ∀ place, S (.wire w place))
    (hcell : ∀ a half id, d₀.alm? lab alm = some a → (d₀.lutCells a).get half = some id →
      ∀ plan, S (.cell id plan half))
    (hmode : ∀ fused, S (.mode lab alm fused)) (hrecord : ∀ entry, S (.record entry)) :
    Traced d₀ S (reassignInputs lab alm) fun _ => True := by
  cases hplan : d₀.planAlm? lab alm with
  | none =>
    refine .of_run [] (List.forall_mem_nil S) (.throw (.illegalAlm lab alm)) fun d hd => ?_
    rw [reassignInputs, run_get_bind, hd.planAlm?_eq, hplan]
    rfl
  | some plan =>
    obtain ⟨info₀, a₀, hinfo₀, -, ha₀, -⟩ := Device.exists_alm_of_planAlm? hplan
    refine .of_run (planTouches lab alm plan (d₀.lutCells a₀)) (fun t ht => ?_)
      (traced_routeInputs info₀.pos alm a₀ plan (hwire a₀ ha₀) hrecord) fun d hd => ?_
    · rcases List.mem_cons.mp ht with rfl | ht
      · exact hmode plan.fused
      · obtain ⟨half, -, ht⟩ := List.mem_filterMap.mp ht
        obtain ⟨id, hid, rfl⟩ := Option.map_eq_some_iff.mp ht
        exact hcell a₀ half id ha₀ hid plan
    · obtain ⟨info, hinfo, hinfoBare⟩ := hd.exists_lab_after hinfo₀
      obtain ⟨a, ha, hbare⟩ := hd.exists_alm ha₀
      have hbares : (routeInputs info.bare.pos alm a.bare plan).run
            (d.after (planTouches lab alm plan (d₀.lutCells a.bare))) =
          (routeInputs info₀.bare.pos alm a₀.bare plan).run
            (d.after (planTouches lab alm plan (d₀.lutCells a₀.bare))) := by
        rw [hinfoBare, hbare]
      rw [run_reassignInputs (by rw [hd.planAlm?_eq, hplan]) hinfo ha, hd.lutCells_eq,
        planned_eq_after]
      exact hbares

end Edit

/-! ### Packing calls -/

namespace Device

/-- The wires of an ALM that a plan drives, if the ALM exists. -/
def inputWiresOf (d : Device) (lab alm : Nat) : List Wire :=
  ((d.alm? lab alm).map Alm.inputWires).getD []

/-- The LUT cells of an ALM, if it exists. -/
def lutCellsOf (d : Device) (lab alm : Nat) : List CellId :=
  ((d.alm? lab alm).map fun a => (d.lutCells a).toList.filterMap id).getD []

variable {d : Device} {lab alm : Nat}

/-- The control wires of a LAB, if it exists. -/
theorem mem_controlWiresOf {w : Wire} :
    w ∈ d.controlWiresOf lab ↔ ∃ info, d.labs[lab]? = some info ∧ w ∈ info.controlWires := by
  rw [controlWiresOf]
  cases d.labs[lab]? <;> simp

/-- The input wires of an ALM, if it exists. -/
theorem mem_inputWiresOf {w : Wire} :
    w ∈ d.inputWiresOf lab alm ↔ ∃ a, d.alm? lab alm = some a ∧ w ∈ a.inputWires := by
  rw [inputWiresOf]
  cases d.alm? lab alm <;> simp

/-- The LUT cells of an ALM, if it exists. -/
theorem mem_lutCellsOf {id : CellId} : id ∈ d.lutCellsOf lab alm ↔
    ∃ a half, d.alm? lab alm = some a ∧ (d.lutCells a).get half = some id := by
  have hhalves (cells : Halves (Option CellId)) :
      id ∈ cells.toList.filterMap (·) ↔ ∃ half, cells.get half = some id := by
    rw [List.mem_filterMap]
    constructor
    · rintro ⟨cell, hcell, rfl⟩
      exact Halves.mem_toList.mp hcell
    · rintro ⟨half, hcell⟩
      exact ⟨_, Halves.mem_toList.mpr ⟨half, hcell⟩, rfl⟩
  rw [lutCellsOf]
  cases d.alm? lab alm with
  | none => simp
  | some a => simpa using hhalves _

end Device

/-- A call that packs a LAB or an ALM, by its target. -/
inductive PackingCall where
  /-- The control sets of a LAB are assigned. -/
  | control (lab : Nat)
  /-- The inputs of an ALM are planned anew. -/
  | inputs (lab alm : Nat)
  deriving DecidableEq, Repr

namespace PackingCall

/-- What a call runs. -/
def edit : PackingCall → Edit Unit
  | .control lab => Edit.assignControlSets lab
  | .inputs lab alm => Edit.reassignInputs lab alm

/-- The LAB of a call. -/
def lab : PackingCall → Nat
  | .control lab => lab
  | .inputs lab _ => lab

/-- The wires that belong to a call: the shared wires and the clock, enable and clear selectors of
the LAB, or the E/F selectors and the data inputs of the ALM. -/
def wires (d : Device) : PackingCall → List Wire
  | .control lab => d.controlWiresOf lab
  | .inputs lab alm => d.inputWiresOf lab alm

/-- The cells that belong to a call: the LUT cells of the ALM. -/
def cells (d : Device) : PackingCall → List CellId
  | .control _ => []
  | .inputs lab alm => d.lutCellsOf lab alm

/-- A touch is of a part that belongs to a call. Records belong to every call. -/
def Owns (call : PackingCall) (d : Device) : Touch → Prop
  | .wire w _ => w ∈ call.wires d
  | .cell id _ _ => id ∈ call.cells d
  | .slots lab _ => call = .control lab
  | .mode lab alm _ => call = .inputs lab alm
  | .record _ => True

/-- A packing call is traced, and touches nothing but its own parts. -/
theorem traced (call : PackingCall) (d : Device) :
    Edit.Traced d (call.Owns d) call.edit fun _ => True := by
  cases call with
  | control lab =>
    exact Edit.traced_assignControlSets lab (fun _ hw _ => hw) (fun _ => rfl) fun _ => trivial
  | inputs lab alm =>
    exact Edit.traced_reassignInputs lab alm
      (fun a ha w hw _ => Device.mem_inputWiresOf.mpr ⟨a, ha, hw⟩)
      (fun a half id ha hid _ => Device.mem_lutCellsOf.mpr ⟨a, half, ha, hid⟩) (fun _ => rfl)
      fun _ => trivial

/-! ### What a call changes -/

/-- A call changes its own parts only. Of a wire it changes the reservation, so no neighbours, and
it moves no cell. -/
structure KeepsTo (call : PackingCall) (d d' : Device) : Prop where
  order : d'.wires.order = d.wires.order
  neighbours : ∀ w, (d'.wires.get? w).map WireInfo.bare = (d.wires.get? w).map WireInfo.bare
  wire : ∀ w ∉ call.wires d, d'.wires.get? w = d.wires.get? w
  sites : d'.sites = d.sites
  siteOf : d'.netlist.siteOf = d.netlist.siteOf
  nets : d'.netlist.nets = d.netlist.nets
  cell : ∀ id ∉ call.cells d, d'.netlist.cell? id = d.netlist.cell? id
  lab : ∀ lab ≠ call.lab, d'.labs[lab]? = d.labs[lab]?
  slots : ∀ lab, call ≠ .control lab →
    (d'.labs[lab]?).map Lab.control = (d.labs[lab]?).map Lab.control
  mode : ∀ lab alm, call ≠ .inputs lab alm → d'.alm? lab alm = d.alm? lab alm

/-- Touches that belong to a call change its own parts only. -/
theorem keepsTo_after {call : PackingCall} {d : Device} {ts : List Touch}
    (hts : ∀ t ∈ ts, call.Owns d t) : call.KeepsTo d (d.after ts) := by
  have htouched := Device.Touched.of_after ts d
  have hslots {lab : Nat} (hne : call ≠ .control lab) (bound : ControlSlots) :
      .slots lab bound ∉ ts := fun hmem => hne (hts _ hmem)
  have hmode {lab alm : Nat} (hne : call ≠ .inputs lab alm) (fused : Bool) :
      .mode lab alm fused ∉ ts := fun hmem => hne (hts _ hmem)
  refine ⟨htouched.order, htouched.wire, fun w hw => ?_, htouched.allSites, htouched.siteOf,
    htouched.nets, fun id hid => ?_, fun lab hlab => ?_, fun lab hne => ?_, fun lab alm hne => ?_⟩
  · exact Device.get?_after (fun place hmem => hw (hts _ hmem)) d
  · exact Device.cell?_after (fun plan half hmem => hid (hts _ hmem)) d
  · have hother {call' : PackingCall} (heq : call'.lab = lab) : call ≠ call' := by
      rintro rfl
      exact hlab heq.symm
    exact Device.getElem?_labs_after (hslots (hother rfl)) (fun alm => hmode (hother rfl)) d
  · exact Device.slots_after (hslots hne) d
  · exact Device.alm?_after (hmode hne) d

/-- A call of packing touches the model. -/
theorem touched (call : PackingCall) (d : Device) : d.Touched (call.edit.run d).2 := by
  obtain ⟨answer, ts, -, -, hrun⟩ := call.traced d
  rw [hrun d (.refl d)]
  exact .of_after ts d

/-- A packing call changes its own parts only, also when it fails. -/
theorem keepsTo (call : PackingCall) (d : Device) : call.KeepsTo d (call.edit.run d).2 := by
  obtain ⟨answer, ts, hts, -, hrun⟩ := call.traced d
  rw [hrun d (.refl d)]
  exact keepsTo_after hts

end PackingCall

end Fabric
