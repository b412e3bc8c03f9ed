import Fabric.Proofs.Reassign

/-!
# Touches

What packing does to a model is a list of *touches*: a wire is reserved or freed, a LUT cell gets
the site pins of a plan, a LAB gets its slots, an ALM its mode, a record is made. A touch says what
is written to one part of the model. It leaves alone what packing reads (`Touched`), and touches of
different parts can be made in either order. The models are then *alike*: the same data, up to the
order of the records.

## Main results

* `Touched.of_after`: packing reads the same before and after some touches;
* `get?_after`, `cell?_after`, `slots_after`, `alm?_after`: what is not touched stays as it is;
* `Touch.apply_comm`: touches of different parts can be swapped;
* `alike_after_comm`: and so can lists of them.
-/

namespace Fabric

/-- Changes of an array at different places can be swapped, and so can changes that commute. -/
theorem modify_modify_comm {α : Type} (xs : Array α) {f g : α → α} {i j : Nat}
    (h : i = j → ∀ a, f (g a) = g (f a)) :
    (xs.modify j g).modify i f = (xs.modify i f).modify j g := by
  apply Array.ext_getElem?
  intro k
  simp only [Array.getElem?_modify]
  by_cases hi : i = k
  · by_cases hj : j = k
    · simp only [if_pos hi, if_pos hj, Option.map_map]
      exact congrArg (Option.map · _) (funext (h (hi.trans hj.symm)))
    · simp only [if_pos hi, if_neg hj]
  · simp only [if_neg hi]

/-- A record does not change which records are kept. -/
theorem Sink.verbose_emit (s : Sink) (entry : Diagnostic) : (s.emit entry).verbose = s.verbose := by
  rw [emit]
  split
  · split <;> rfl
  · rfl
  · rfl
  · rfl

namespace WireInfo

/-- A wire before it is reserved. -/
def bare (info : WireInfo) : WireInfo := { info with flags := unreservedFlags info.flags }

/-- A wire once it is reserved for the driver at a place, or for none. -/
def withPlace (info : WireInfo) : Option (Fin 256) → WireInfo
  | none => info.bare
  | some i => { info with flags := reservedFlags info.flags i }

/-- The flags without a reservation do not depend on the reservation that was there. -/
theorem unreservedFlags_reservedFlags (flags : UInt64) (i : Fin 256) :
    unreservedFlags (reservedFlags flags i) = unreservedFlags flags := by
  have hflag : reservedFlag &&& ~~~(reservedFlag ||| reservedIndexMask) = 0 := by decide
  have hplace :
      ∀ i : Fin 256, (i : Nat).toUInt64 &&& ~~~(reservedFlag ||| reservedIndexMask) = 0 := by
    decide +kernel
  rw [unreservedFlags, reservedFlags, or_and_right, or_and_right, hflag, hplace, unreservedFlags,
    UInt64.and_assoc, UInt64.and_self, UInt64.or_zero, UInt64.or_zero]

/-- The data of a wire but for its place in use do not depend on that place. -/
@[simp] theorem bare_withPlace (info : WireInfo) (place : Option (Fin 256)) :
    (info.withPlace place).bare = info.bare := by
  cases place with
  | none =>
    have htwice : unreservedFlags (unreservedFlags info.flags) = unreservedFlags info.flags := by
      rw [unreservedFlags, unreservedFlags, UInt64.and_assoc, UInt64.and_self]
    exact congrArg (fun flags => { info with flags := flags }) htwice
  | some i => rw [withPlace, bare, bare, unreservedFlags_reservedFlags]

end WireInfo

namespace Lab

/-- A LAB with other slots. -/
def withSlots (l : Lab) (bound : ControlSlots) : Lab := { l with control := bound }

/-- A LAB with another mode of one of its ALMs. -/
def withMode (l : Lab) (alm : Nat) (fused : Bool) : Lab :=
  { l with alms := l.alms.modify alm fun a => { a with fused := fused } }

/-- Modes of different ALMs can be set in either order. -/
theorem withMode_comm {alm alm' : Nat} (h : alm ≠ alm') (l : Lab) (fused fused' : Bool) :
    (l.withMode alm fused).withMode alm' fused' = (l.withMode alm' fused').withMode alm fused := by
  have halms := modify_modify_comm l.alms (f := fun a => { a with fused := fused' })
    (g := fun a => { a with fused := fused }) fun heq => absurd heq.symm h
  simp only [withMode, halms]

end Lab

/-- A change that packing makes to one part of a model. -/
inductive Touch where
  /-- A wire is reserved for its uphill neighbour at a place, or freed. -/
  | wire (w : Wire) (place : Option (Fin 256))
  /-- A LUT cell gets the site pins of a plan. -/
  | cell (id : CellId) (plan : InputPlan) (half : Half)
  /-- A LAB gets its slots. -/
  | slots (lab : Nat) (bound : ControlSlots)
  /-- An ALM gets its mode. -/
  | mode (lab alm : Nat) (fused : Bool)
  /-- A record is made. -/
  | record (entry : Diagnostic)

namespace Touch

/-! ### What a touch writes -/

/-- What a touch does to the wires. -/
def onWires : Touch → WireGraph → WireGraph
  | .wire w place, g => g.modify w (·.withPlace place)
  | _, g => g

/-- What a touch does to the netlist. -/
def onNetlist : Touch → Netlist → Netlist
  | .cell id plan half, nl => nl.modifyCell id (Edit.applyLutPlan plan half)
  | _, nl => nl

/-- What a touch does to the LABs. -/
def onLabs : Touch → Array Lab → Array Lab
  | .slots lab bound, labs => labs.modify lab (·.withSlots bound)
  | .mode lab alm fused, labs => labs.modify lab (·.withMode alm fused)
  | _, labs => labs

/-- What a touch does to the records. -/
def onSink : Touch → Sink → Sink
  | .record entry, s => s.emit entry
  | _, s => s

/-- What a touch does to a model. -/
def apply (t : Touch) (d : Device) : Device := { d with
  wires := t.onWires d.wires
  netlist := t.onNetlist d.netlist
  labs := t.onLabs d.labs
  diagnostics := t.onSink d.diagnostics }

end Touch

namespace Device

variable {d d' d'' : Device}

/-- A model after some touches. -/
def after (d : Device) (ts : List Touch) : Device := ts.foldl (fun d t => t.apply d) d

/-- No touches change nothing. -/
@[simp] theorem after_nil (d : Device) : d.after [] = d := rfl

/-- The first of some touches is made first. -/
@[simp] theorem after_cons (d : Device) (t : Touch) (ts : List Touch) :
    d.after (t :: ts) = (t.apply d).after ts := rfl

/-- Some touches after others are made one after the other. -/
theorem after_append (d : Device) (ts us : List Touch) :
    d.after (ts ++ us) = (d.after ts).after us :=
  List.foldl_append

/-! ### What touches leave alone -/

/-- Packing reads the same in both models, and finds the same wires and names. No cell was moved. -/
structure Touched (d d' : Device) : Prop extends d.Repacked d' where
  interner : d'.interner = d.interner
  verbose : d'.diagnostics.verbose = d.diagnostics.verbose
  order : d'.wires.order = d.wires.order
  wire : ∀ w, (d'.wires.get? w).map WireInfo.bare = (d.wires.get? w).map WireInfo.bare
  allSites : d'.sites = d.sites
  siteOf : d'.netlist.siteOf = d.netlist.siteOf
  nets : d'.netlist.nets = d.netlist.nets

namespace Touched

protected theorem refl (d : Device) : d.Touched d :=
  ⟨.refl d, rfl, rfl, rfl, fun _ => rfl, rfl, rfl, rfl⟩

protected theorem trans (h : d.Touched d') (h' : d'.Touched d'') : d.Touched d'' where
  toRepacked := h.toRepacked.trans h'.toRepacked
  interner := h'.interner.trans h.interner
  verbose := h'.verbose.trans h.verbose
  order := h'.order.trans h.order
  wire w := (h'.wire w).trans (h.wire w)
  allSites := h'.allSites.trans h.allSites
  siteOf := h'.siteOf.trans h.siteOf
  nets := h'.nets.trans h.nets

/-- A wire that is there before is there after, but for its reservation. -/
theorem exists_wire (h : d.Touched d') {w : Wire} {info : WireInfo}
    (hw : d.wires.get? w = some info) :
    ∃ flags, d'.wires.get? w = some { info with flags := flags } := by
  have hmap := h.wire w
  rw [hw, Option.map_some] at hmap
  obtain ⟨info', hw', hbare⟩ := Option.map_eq_some_iff.mp hmap
  obtain ⟨hname, hdownhill, huphill, hpins, -⟩ := WireInfo.mk.inj hbare
  refine ⟨info'.flags, hw'.trans ?_⟩
  rw [← hname, ← hdownhill, ← huphill, ← hpins]

/-- A wire that is not there before is not there after. -/
theorem get?_eq_none (h : d.Touched d') {w : Wire} (hw : d.wires.get? w = none) :
    d'.wires.get? w = none := by
  have hmap := h.wire w
  rw [hw, Option.map_none] at hmap
  exact Option.map_eq_none_iff.mp hmap

/-- One touch touches a model. -/
theorem of_apply (t : Touch) (d : Device) : d.Touched (t.apply d) := by
  cases t with
  | wire w place =>
    have hget (u : Wire) : ((d.wires.modify w (·.withPlace place)).get? u).map WireInfo.bare =
        (d.wires.get? u).map WireInfo.bare := by
      rw [WireGraph.get?_modify]
      split
      · rename_i heq
        subst heq
        rw [Option.map_map]
        exact congrArg (Option.map · _) (funext fun info => info.bare_withPlace place)
      · rfl
    refine ⟨.of_sameDesign ⟨⟨rfl, rfl, rfl⟩, rfl, rfl, funext fun u => ?_⟩, rfl, rfl, rfl, hget,
      rfl, rfl, rfl⟩
    have huphill (g : WireGraph) : g.uphill? u =
        ((g.get? u).map WireInfo.bare).map fun info => info.uphill.toList := by
      rw [Option.map_map]
      rfl
    rw [huphill, huphill]
    exact congrArg _ (hget u)
  | cell id plan half =>
    have hpins := Edit.sameButSitePins_applyLutPlan plan half
    exact ⟨.of_sitePins id hpins, rfl, rfl, rfl, fun _ => rfl, rfl,
      funext (d.netlist.evolves_modifyCell_of_sameButSitePins id hpins).siteOf, rfl⟩
  | slots lab bound =>
    exact ⟨.of_modifyLab lab fun _ => rfl, rfl, rfl, rfl, fun _ => rfl, rfl, rfl, rfl⟩
  | mode lab alm fused =>
    exact ⟨.of_modifyAlm lab alm fused, rfl, rfl, rfl, fun _ => rfl, rfl, rfl, rfl⟩
  | record entry =>
    refine ⟨.of_sameDesign (.diagnostics d _), rfl, ?_, rfl, fun _ => rfl, rfl, rfl, rfl⟩
    exact d.diagnostics.verbose_emit entry

/-- Packing reads the same before and after some touches. -/
theorem of_after (ts : List Touch) (d : Device) : d.Touched (d.after ts) := by
  induction ts generalizing d with
  | nil => exact .refl d
  | cons t rest ih => exact (of_apply t d).trans (ih _)

end Touched

/-! ### What is not touched -/

/-- What each of some touches leaves alone is the same after all of them. -/
theorem eq_after {α : Type} {f : Device → α} {ts : List Touch}
    (h : ∀ t ∈ ts, ∀ d : Device, f (t.apply d) = f d) (d : Device) : f (d.after ts) = f d := by
  induction ts generalizing d with
  | nil => rfl
  | cons t rest ih =>
    exact (ih (fun u hu => h u (List.mem_cons_of_mem t hu)) _).trans (h t List.mem_cons_self d)

variable {ts : List Touch} {lab alm : Nat}

/-- A wire that is not touched keeps its reservation. -/
theorem get?_after {w : Wire} (h : ∀ place, .wire w place ∉ ts) (d : Device) :
    (d.after ts).wires.get? w = d.wires.get? w := by
  refine eq_after (f := fun d => d.wires.get? w) (fun t ht d => ?_) d
  cases t with
  | wire u place =>
    refine (WireGraph.get?_modify d.wires u w _).trans (if_neg ?_)
    rintro rfl
    exact h place ht
  | _ => rfl

/-- A cell that is not touched keeps its site pins. -/
theorem cell?_after {id : CellId} (h : ∀ plan half, .cell id plan half ∉ ts) (d : Device) :
    (d.after ts).netlist.cell? id = d.netlist.cell? id := by
  refine eq_after (f := fun d => d.netlist.cell? id) (fun t ht d => ?_) d
  cases t with
  | cell id' plan half =>
    refine (d.netlist.cell?_modifyCell id' id _).trans (if_neg ?_)
    rintro rfl
    exact h plan half ht
  | _ => rfl

/-- A LAB that is not touched keeps its slots and modes. -/
theorem getElem?_labs_after (hslots : ∀ bound, .slots lab bound ∉ ts)
    (hmode : ∀ alm fused, .mode lab alm fused ∉ ts) (d : Device) :
    (d.after ts).labs[lab]? = d.labs[lab]? := by
  refine eq_after (f := fun d => d.labs[lab]?) (fun t ht d => ?_) d
  cases t with
  | slots lab' bound =>
    refine (Array.getElem?_modify ..).trans (if_neg ?_)
    rintro rfl
    exact hslots bound ht
  | mode lab' alm fused =>
    refine (Array.getElem?_modify ..).trans (if_neg ?_)
    rintro rfl
    exact hmode alm fused ht
  | _ => rfl

/-- A LAB whose slots are not touched keeps them. -/
theorem slots_after (h : ∀ bound, .slots lab bound ∉ ts) (d : Device) :
    ((d.after ts).labs[lab]?).map Lab.control = (d.labs[lab]?).map Lab.control := by
  refine eq_after (f := fun d => (d.labs[lab]?).map Lab.control) (fun t ht d => ?_) d
  cases t with
  | slots lab' bound =>
    refine congrArg (Option.map Lab.control) ((Array.getElem?_modify ..).trans (if_neg ?_))
    rintro rfl
    exact h bound ht
  | mode lab' alm fused =>
    refine (congrArg (Option.map Lab.control) (Array.getElem?_modify ..)).trans ?_
    split
    · rw [Option.map_map]
      rfl
    · rfl
  | _ => rfl

/-- An ALM whose mode is not touched keeps it. -/
theorem alm?_after (h : ∀ fused, .mode lab alm fused ∉ ts) (d : Device) :
    (d.after ts).alm? lab alm = d.alm? lab alm := by
  refine eq_after (f := fun d => d.alm? lab alm) (fun t ht d => ?_) d
  cases t with
  | slots lab' bound =>
    refine (congrArg (Option.bind · _) (Array.getElem?_modify ..)).trans ?_
    split
    · rw [Option.bind_map]
      rfl
    · rfl
  | mode lab' alm' fused =>
    refine (congrArg (Option.bind · _) (Array.getElem?_modify ..)).trans ?_
    split
    · rename_i hlab
      subst hlab
      have halm : alm' ≠ alm := fun heq => h fused (heq ▸ ht)
      rw [Option.bind_map]
      refine congrArg (Option.bind _) (funext fun l => ?_)
      exact (Array.getElem?_modify ..).trans (if_neg halm)
    · rfl
  | _ => rfl

end Device

/-! ### Models that are alike -/

/-- Two sinks hold the same records, in an order of their own. -/
structure Sink.Alike (s s' : Sink) : Prop where
  verbose : s'.verbose = s.verbose
  records : s'.records.toList.Perm s.records.toList
  count : s'.count = s.count

namespace Sink

variable {s s' s'' : Sink}

protected theorem Alike.refl (s : Sink) : s.Alike s := ⟨rfl, .refl _, rfl⟩

protected theorem Alike.trans (h : s.Alike s') (h' : s'.Alike s'') : s.Alike s'' :=
  ⟨h'.verbose.trans h.verbose, h'.records.trans h.records, h'.count.trans h.count⟩

/-- A record that is kept comes last. -/
theorem records_emit (s : Sink) (entry : Diagnostic) : (s.emit entry).records.toList =
    s.records.toList ++ if s.keeps entry.severity then [entry] else [] := by
  cases h : entry.severity <;> cases hv : s.verbose <;> simp [emit, keeps, h, hv]

/-- Whether a record is kept depends on nothing but the choice of debug records. -/
theorem keeps_congr (h : s'.verbose = s.verbose) : s'.keeps = s.keeps := by
  funext severity
  rw [keeps, h, keeps]

/-- Sinks that are alike stay so when both get one record. -/
theorem Alike.emit (h : s.Alike s') (entry : Diagnostic) :
    (s.emit entry).Alike (s'.emit entry) := by
  have hkeeps := keeps_congr h.verbose
  refine ⟨?_, ?_, funext fun severity => ?_⟩
  · rw [verbose_emit, verbose_emit, h.verbose]
  · rw [records_emit, records_emit, hkeeps]
    exact h.records.append_right _
  · rw [count_emit, count_emit, hkeeps, h.count]

/-- Two records can be made in either order. -/
theorem alike_emit_comm (s : Sink) (a b : Diagnostic) :
    ((s.emit a).emit b).Alike ((s.emit b).emit a) := by
  have hkeeps (entry : Diagnostic) := keeps_congr (s.verbose_emit entry)
  refine ⟨by simp only [verbose_emit], ?_, funext fun severity => ?_⟩
  · simp only [records_emit, hkeeps, List.append_assoc]
    exact List.perm_append_comm.append_left _
  · simp only [count_emit, hkeeps]
    omega

end Sink

namespace Device

variable {d d' d'' : Device}

/-- A model without its wires and records. -/
def design (d : Device) : Device := { d with wires := .empty, diagnostics := {} }

/-- Two models are the same but for their records. Wires are the same if they are listed in the same
order and have the same data. -/
structure SameButRecords (d d' : Device) : Prop where
  design : d'.design = d.design
  order : d'.wires.order = d.wires.order
  get? : d'.wires.get? = d.wires.get?

namespace SameButRecords

protected theorem refl (d : Device) : d.SameButRecords d := ⟨rfl, rfl, rfl⟩

protected theorem trans (h : d.SameButRecords d') (h' : d'.SameButRecords d'') :
    d.SameButRecords d'' :=
  ⟨h'.design.trans h.design, h'.order.trans h.order, h'.get?.trans h.get?⟩

/-- Models that are the same but for records have the same LABs. -/
theorem labs (h : d.SameButRecords d') : d'.labs = d.labs := by
  show d'.design.labs = d.design.labs
  rw [h.design]

/-- Models that are the same but for records have the same netlist. -/
theorem netlist (h : d.SameButRecords d') : d'.netlist = d.netlist := by
  show d'.design.netlist = d.design.netlist
  rw [h.design]

/-- A touch does the same to models that are the same. -/
theorem apply (h : d.SameButRecords d') (t : Touch) :
    (t.apply d).SameButRecords (t.apply d') := by
  have hdesign (d : Device) : (t.apply d).design =
      { d.design with netlist := t.onNetlist d.netlist, labs := t.onLabs d.labs } := rfl
  refine ⟨?_, ?_, ?_⟩
  · rw [hdesign, hdesign, h.design, h.netlist, h.labs]
  · cases t <;> exact h.order
  · cases t with
    | wire w place =>
      funext u
      refine (WireGraph.get?_modify ..).trans (Eq.trans ?_ (WireGraph.get?_modify ..).symm)
      rw [h.get?]
    | _ => exact h.get?

/-- Models that are the same but for records stay so under the same touches. -/
theorem after (h : d.SameButRecords d') (ts : List Touch) :
    (d.after ts).SameButRecords (d'.after ts) := by
  induction ts generalizing d d' with
  | nil => exact h
  | cons t rest ih => exact ih (h.apply t)

end SameButRecords

/-- Two models are the same up to the order of their records. Wires are the same if they are listed
in the same order and have the same data. -/
structure Alike (d d' : Device) : Prop where
  design : d'.design = d.design
  order : d'.wires.order = d.wires.order
  get? : d'.wires.get? = d.wires.get?
  diagnostics : d.diagnostics.Alike d'.diagnostics

namespace Alike

protected theorem refl (d : Device) : d.Alike d := ⟨rfl, rfl, rfl, .refl _⟩

/-- Models that are alike are the same but for records. -/
theorem sameButRecords (h : d.Alike d') : d.SameButRecords d' := ⟨h.design, h.order, h.get?⟩

protected theorem trans (h : d.Alike d') (h' : d'.Alike d'') : d.Alike d'' :=
  have hsame := h.sameButRecords.trans h'.sameButRecords
  ⟨hsame.design, hsame.order, hsame.get?, h.diagnostics.trans h'.diagnostics⟩

/-- A touch does the same to models that are alike. -/
theorem apply (h : d.Alike d') (t : Touch) : (t.apply d).Alike (t.apply d') := by
  have hsame := h.sameButRecords.apply t
  refine ⟨hsame.design, hsame.order, hsame.get?, ?_⟩
  cases t with
  | record entry => exact h.diagnostics.emit entry
  | _ => exact h.diagnostics

/-- Models that are alike stay so under the same touches. -/
theorem after (h : d.Alike d') (ts : List Touch) : (d.after ts).Alike (d'.after ts) := by
  induction ts generalizing d d' with
  | nil => exact h
  | cons t rest ih => exact ih (h.apply t)

end Alike

end Device

/-! ### Swapping touches -/

namespace Touch

/-- Two touches are of different parts. Records are kept apart by their order only. -/
def Apart : Touch → Touch → Prop
  | .wire w _, .wire w' _ => w ≠ w'
  | .cell id _ _, .cell id' _ _ => id ≠ id'
  | .slots lab _, .slots lab' _ => lab ≠ lab'
  | .mode lab alm _, .mode lab' alm' _ => ¬ (lab = lab' ∧ alm = alm')
  | _, _ => True

variable {t u : Touch}

/-- Touches of different wires leave the same data of every wire in either order. -/
theorem get?_onWires_comm (h : t.Apart u) (g : WireGraph) :
    (u.onWires (t.onWires g)).get? = (t.onWires (u.onWires g)).get? := by
  cases t with
  | wire w place =>
    cases u with
    | wire w' place' =>
      funext v
      simp only [onWires, WireGraph.get?_modify]
      by_cases hv : w' = v
      · have hne : w ≠ v := fun hw => h (hw.trans hv.symm)
        have hne' : w ≠ w' := fun hw => h hw
        simp only [if_pos hv, if_neg hne, if_neg hne']
      · have hne : w' ≠ w := fun hw => h hw.symm
        simp only [if_neg hv, if_neg hne]
    | _ => rfl
  | _ => rfl

/-- No touch makes a wire. -/
theorem order_onWires (t : Touch) (g : WireGraph) : (t.onWires g).order = g.order := by
  cases t <;> rfl

/-- Touches of different cells leave the same netlist in either order. -/
theorem onNetlist_comm (h : t.Apart u) (nl : Netlist) :
    u.onNetlist (t.onNetlist nl) = t.onNetlist (u.onNetlist nl) := by
  cases t with
  | cell id plan half =>
    cases u with
    | cell id' plan' half' =>
      have hne : id'.index ≠ id.index := fun heq => h (congrArg CellId.mk heq.symm)
      exact congrArg (fun cells => { nl with cells := cells })
        (modify_modify_comm nl.cells fun heq => absurd heq hne)
    | _ => rfl
  | _ => rfl

/-- Touches of different LABs, or of different ALMs of one, leave the same LABs in either order. -/
theorem onLabs_comm (h : t.Apart u) (labs : Array Lab) :
    u.onLabs (t.onLabs labs) = t.onLabs (u.onLabs labs) := by
  cases t with
  | slots lab bound =>
    cases u with
    | slots lab' bound' => exact modify_modify_comm labs fun heq => absurd heq.symm h
    | mode lab' alm fused =>
      exact modify_modify_comm labs (f := (·.withMode alm fused)) fun _ _ => rfl
    | _ => rfl
  | mode lab alm fused =>
    cases u with
    | slots lab' bound => exact modify_modify_comm labs (f := (·.withSlots bound)) fun _ _ => rfl
    | mode lab' alm' fused' =>
      exact modify_modify_comm labs fun heq l =>
        l.withMode_comm (fun halm => h ⟨heq.symm, halm⟩) fused fused'
    | _ => rfl
  | _ => rfl

/-- Two records leave sinks that are alike in either order. -/
theorem onSink_comm (t u : Touch) (s : Sink) :
    (t.onSink (u.onSink s)).Alike (u.onSink (t.onSink s)) := by
  cases t with
  | record entry =>
    cases u with
    | record entry' => exact s.alike_emit_comm entry' entry
    | _ => exact .refl _
  | _ => exact .refl _

/-- Touches of different parts can be swapped. -/
theorem apply_comm (h : t.Apart u) (d : Device) :
    (t.apply (u.apply d)).Alike (u.apply (t.apply d)) where
  design := by
    have hdesign (t u : Touch) : (u.apply (t.apply d)).design = { d.design with
        netlist := u.onNetlist (t.onNetlist d.netlist), labs := u.onLabs (t.onLabs d.labs) } := rfl
    rw [hdesign, hdesign, onNetlist_comm h, onLabs_comm h]
  order := by
    show (u.onWires (t.onWires d.wires)).order = (t.onWires (u.onWires d.wires)).order
    simp only [order_onWires]
  get? := get?_onWires_comm h d.wires
  diagnostics := t.onSink_comm u d.diagnostics

end Touch

namespace Device

/-- A touch can be made before or after touches of other parts. -/
theorem alike_apply_after {t : Touch} {us : List Touch} (h : ∀ u ∈ us, t.Apart u) (d : Device) :
    (t.apply (d.after us)).Alike ((t.apply d).after us) := by
  induction us generalizing d with
  | nil => exact .refl _
  | cons u rest ih =>
    have hrest := ih (fun v hv => h v (List.mem_cons_of_mem u hv)) (u.apply d)
    exact hrest.trans ((Touch.apply_comm (h u List.mem_cons_self) d).after rest)

/-- Touches of some parts can be made before or after touches of others. -/
theorem alike_after_comm {ts us : List Touch} (h : ∀ t ∈ ts, ∀ u ∈ us, t.Apart u) (d : Device) :
    ((d.after us).after ts).Alike ((d.after ts).after us) := by
  induction ts generalizing d with
  | nil => exact .refl _
  | cons t rest ih =>
    have hfirst := (alike_apply_after (h t List.mem_cons_self) d).after rest
    exact hfirst.trans (ih (fun v hv => h v (List.mem_cons_of_mem t hv)) (t.apply d))

end Device

end Fabric
