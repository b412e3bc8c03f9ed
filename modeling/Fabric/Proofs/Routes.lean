import Fabric.Device.Pack
import Fabric.Proofs.Graph
import Fabric.Proofs.Run
import Mathlib.Logic.Function.Basic

/-!
# Runs of reservations

Reserving wires for their drivers, and taking reservations back, changes nothing of the design
and nothing of the hardware: `SameDesign` relates the models before and after. A list of routes
can be reserved when each of them is `Routable`, and then the wires are `redriven`: each has the
driver that the last route to it gives, or is on no route and left as it was.

## Main results

* `exists_run_unreserve`, `exists_run_unreserveAll`: reservations are taken back;
* `exists_run_reserve`, `exists_run_reserveAll`: routes are reserved;
* `keeps_reserve`, `keeps_unreserve`: whether or not they succeed, the design stays;
* `redriven_drives`, `redriven_of_mem`, `redriven_congr`: what the drivers are after routes were
  reserved.
-/

namespace Fabric

/-- Two models of one chip have the same netlist and placement. -/
structure SamePlacement (d d' : Device) : Prop where
  chip : d'.chip = d.chip
  netlist : d'.netlist = d.netlist
  sites : d'.sites = d.sites

/-- Two models of one chip have the same design on the same hardware. They may differ in
reservations and in records. -/
structure SameDesign (d d' : Device) : Prop extends SamePlacement d d' where
  interner : d'.interner = d.interner
  labs : d'.labs = d.labs
  uphill : d'.wires.uphill? = d.wires.uphill?

/-- Sites are found by their tile on the chip. -/
theorem Device.site?_eq_of_sites {d d' : Device} (hchip : d'.chip = d.chip)
    (hsites : d'.sites = d.sites) (bel : BelId) : d'.site? bel = d.site? bel := by
  simp only [site?, tile?, tileIndex?, hchip, hsites]

namespace SamePlacement

variable {d d' : Device}

/-- The same cells stand at the sites. -/
theorem cellAt (h : SamePlacement d d') : d'.cellAt = d.cellAt := by
  funext bel
  rw [Device.cellAt, Device.cellAt, Device.site?_eq_of_sites h.chip h.sites]

/-- The same flip-flops stand in an ALM. -/
theorem flopCells (h : SamePlacement d d') : d'.flopCells = d.flopCells := by
  funext a
  rw [Device.flopCells, h.cellAt, Device.flopCells]

/-- The same control sets agree. -/
theorem agree (h : SamePlacement d d') : d'.agree = d.agree := by
  unfold Device.agree
  rw [h.netlist]

/-- The same flip-flops stand in a LAB. -/
theorem labFlipFlops (h : SamePlacement d d') (l : Lab) :
    d'.labFlipFlops l = d.labFlipFlops l := by
  simp only [Device.labFlipFlops, h.cellAt, h.netlist]

end SamePlacement

namespace SameDesign

variable {d d' d'' : Device}

protected theorem refl (d : Device) : SameDesign d d := ⟨⟨rfl, rfl, rfl⟩, rfl, rfl, rfl⟩

protected theorem trans (h : SameDesign d d') (h' : SameDesign d' d'') : SameDesign d d'' where
  chip := h'.chip.trans h.chip
  netlist := h'.netlist.trans h.netlist
  sites := h'.sites.trans h.sites
  interner := h'.interner.trans h.interner
  labs := h'.labs.trans h.labs
  uphill := h'.uphill.trans h.uphill

instance : IsPreorder Device SameDesign where
  refl := SameDesign.refl
  trans _ _ _ := SameDesign.trans

/-- Records are no part of a design. -/
theorem diagnostics (d : Device) (sink : Sink) : SameDesign d { d with diagnostics := sink } :=
  ⟨⟨rfl, rfl, rfl⟩, rfl, rfl, rfl⟩

end SameDesign

namespace Device

/-- A route that can be reserved: its source is one of the first wires uphill of its end. -/
def Routable (d : Device) (p : Pip) : Prop :=
  ∃ l, d.wires.uphill? p.dst = some l ∧ p.src ∈ l ∧ l.length ≤ 256

/-- What a reservation needs of a pip does not depend on the reservations made. -/
theorem Routable.of_sameDesign {d d' : Device} (h : SameDesign d d') {p : Pip}
    (hp : d.Routable p) : d'.Routable p := by
  obtain ⟨l, hl, hsrc, hlen⟩ := hp
  exact ⟨l, by rw [h.uphill, hl], hsrc, hlen⟩

end Device

namespace Device

/-! ### New drivers -/

/-- The drivers of wires after some of them got new ones. The last one of a wire counts. -/
def redriven (drives : List (Wire × Option Wire)) (driver : Wire → Option Wire) :
    Wire → Option Wire :=
  drives.foldl (fun driver drive => Function.update driver drive.1 drive.2) driver

/-- The drivers that some routes give. -/
def drives (routes : List Pip) : List (Wire × Option Wire) :=
  routes.map fun p => (p.dst, some p.src)

/-- Wires that get no new driver keep the one they have. -/
theorem redriven_of_notMem {drives : List (Wire × Option Wire)} {w : Wire}
    (hw : w ∉ drives.map Prod.fst) (driver : Wire → Option Wire) :
    redriven drives driver w = driver w := by
  induction drives generalizing driver with
  | nil => rfl
  | cons drive rest ih =>
      rw [List.map_cons, List.mem_cons, not_or] at hw
      exact (ih hw.2 _).trans (Function.update_of_ne hw.1 _ _)

/-- A wire that gets one new driver has it. -/
theorem redriven_of_mem {drives : List (Wire × Option Wire)} (hnodup : (drives.map Prod.fst).Nodup)
    {w : Wire} {new : Option Wire} (h : (w, new) ∈ drives) (driver : Wire → Option Wire) :
    redriven drives driver w = new := by
  induction drives generalizing driver with
  | nil => cases h
  | cons drive rest ih =>
      obtain ⟨hnot, hnodup⟩ := List.nodup_cons.mp hnodup
      rcases List.mem_cons.mp h with rfl | h
      · exact (redriven_of_notMem hnot _).trans (Function.update_self ..)
      · exact ih hnodup h _

/-- New drivers that reach a wire hide the one it had. -/
theorem redriven_congr {drives : List (Wire × Option Wire)} {driver driver' : Wire → Option Wire}
    {w : Wire} (h : w ∉ drives.map Prod.fst → driver w = driver' w) :
    redriven drives driver w = redriven drives driver' w := by
  induction drives generalizing driver driver' with
  | nil => exact h List.not_mem_nil
  | cons drive rest ih =>
      refine ih fun hrest => ?_
      dsimp only
      by_cases hw : w = drive.1
      · rw [hw, Function.update_self, Function.update_self]
      · rw [Function.update_of_ne hw, Function.update_of_ne hw]
        refine h fun hmem => ?_
        rw [List.map_cons, List.mem_cons] at hmem
        exact hmem.elim hw hrest

/-- A wire has a driver that some route gives it, or it is on no route and has its old one. -/
theorem redriven_drives (routes : List Pip) (driver : Wire → Option Wire) (w : Wire) :
    (∃ p ∈ routes, p.dst = w ∧ redriven (drives routes) driver w = some p.src) ∨
    ((∀ p ∈ routes, p.dst ≠ w) ∧ redriven (drives routes) driver w = driver w) := by
  induction routes generalizing driver with
  | nil => exact .inr ⟨by simp, rfl⟩
  | cons p rest ih =>
      rcases ih (Function.update driver p.dst (some p.src)) with ⟨q, hq, hw, hdriver⟩ |
        ⟨hnone, hdriver⟩
      · exact .inl ⟨q, List.mem_cons_of_mem p hq, hw, hdriver⟩
      by_cases hw : p.dst = w
      · subst hw
        exact .inl ⟨p, List.mem_cons_self, rfl, hdriver.trans (Function.update_self ..)⟩
      · refine .inr ⟨?_, hdriver.trans (Function.update_of_ne (Ne.symm hw) _ _)⟩
        rintro q (_ | ⟨_, hq⟩)
        · exact hw
        · exact hnone q hq

end Device

namespace Edit

variable {d : Device} {src dst w : Wire} {g : WireGraph}

/-! ### Single reservations -/

/-- Releasing a wire clears its reservation if the wire exists, and is an error otherwise. -/
theorem run_unreserve (d : Device) (w : Wire) : (unreserve w).run d =
    if d.wires.contains w then (.ok (), { d with wires := d.wires.unreserve w })
    else (.error (.wireNotFound w), d) := by
  rw [unreserve, run_get_bind]
  split <;> rfl

/-- The record of a reservation changes nothing but the records. -/
theorem run_reserve_of_ok (h : d.wires.reserve src dst = .ok g) :
    ∃ sink, (reserve src dst).run d = (.ok (), { d with wires := g, diagnostics := sink }) := by
  simp only [reserve, run_get_bind, h, run_modify_bind]
  split
  · split
    · exact ⟨_, rfl⟩
    · exact ⟨d.diagnostics, rfl⟩
  · exact ⟨d.diagnostics, rfl⟩

/-- A reservation that the graph refuses leaves the model as it was. -/
theorem run_reserve_of_error {why : WireGraph.ReserveError}
    (h : d.wires.reserve src dst = .error why) :
    ∃ e, (reserve src dst).run d = (.error e, d) := by
  simp only [reserve, run_get_bind, h]
  cases why with
  | noWire => exact ⟨_, rfl⟩
  | noPip => exact ⟨_, rfl⟩

/-- The design does not include the reservations. -/
theorem sameDesign_unreserve (d : Device) (w : Wire) :
    SameDesign d { d with wires := d.wires.unreserve w } :=
  ⟨⟨rfl, rfl, rfl⟩, rfl, rfl, funext (WireGraph.uphill?_unreserve d.wires w)⟩

/-- Releasing keeps the design. -/
theorem keeps_unreserve (w : Wire) : (unreserve w).Keeps SameDesign := by
  intro d
  rw [run_unreserve]
  split
  · exact sameDesign_unreserve d w
  · exact SameDesign.refl d

/-- Reserving keeps the design. -/
theorem keeps_reserve (src dst : Wire) : (reserve src dst).Keeps SameDesign := by
  intro d
  cases h : d.wires.reserve src dst with
  | ok g =>
      obtain ⟨sink, hrun⟩ := run_reserve_of_ok h
      rw [hrun]
      exact ⟨⟨rfl, rfl, rfl⟩, rfl, rfl, funext (WireGraph.reserve_spec h).1⟩
  | error why =>
      obtain ⟨e, hrun⟩ := run_reserve_of_error h
      rw [hrun]
      exact SameDesign.refl d

/-- The reservation of a wire that exists can be taken back. -/
theorem exists_run_unreserve (h : (d.wires.uphill? w).isSome) :
    ∃ d', (unreserve w).run d = (.ok (), d') ∧ SameDesign d d' ∧ ∀ u, d'.wires.reservedDriver? u =
      if w = u then none else d.wires.reservedDriver? u := by
  refine ⟨{ d with wires := d.wires.unreserve w }, ?_, sameDesign_unreserve d w,
    WireGraph.reservedDriver?_unreserve d.wires w⟩
  rw [run_unreserve, WireGraph.contains_eq_isSome_uphill?, if_pos h]

/-- A routable route can be reserved. -/
theorem exists_run_reserve {p : Pip} (h : d.Routable p) : ∃ d', (reserve p.src p.dst).run d =
    (.ok (), d') ∧ SameDesign d d' ∧ ∀ u, d'.wires.reservedDriver? u =
      if p.dst = u then some p.src else d.wires.reservedDriver? u := by
  obtain ⟨l, hl, hsrc, hlen⟩ := h
  obtain ⟨g, hg⟩ := WireGraph.exists_reserve hl hsrc hlen
  obtain ⟨sink, hrun⟩ := run_reserve_of_ok hg
  have hspec := WireGraph.reserve_spec hg
  exact ⟨_, hrun, ⟨⟨rfl, rfl, rfl⟩, rfl, rfl, funext hspec.1⟩, hspec.2⟩

/-! ### Lists of reservations -/

/-- The reservations of wires that exist can be taken back. -/
theorem exists_run_unreserveAll {ws : List Wire} (h : ∀ w ∈ ws, (d.wires.uphill? w).isSome) :
    ∃ d', (ws.forM unreserve).run d = (.ok (), d') ∧ SameDesign d d' ∧
      ∀ u, d'.wires.reservedDriver? u = if u ∈ ws then none else d.wires.reservedDriver? u := by
  induction ws generalizing d with
  | nil => exact ⟨d, rfl, SameDesign.refl d, fun u => by simp⟩
  | cons w rest ih =>
      obtain ⟨mid, hrun, hsame, hdriver⟩ := exists_run_unreserve (h w List.mem_cons_self)
      have hrest : ∀ u ∈ rest, (mid.wires.uphill? u).isSome := fun u hu => by
        rw [hsame.uphill]
        exact h u (List.mem_cons_of_mem w hu)
      obtain ⟨d', hrun', hsame', hdriver'⟩ := ih hrest
      refine ⟨d', ?_, hsame.trans hsame', fun u => ?_⟩
      · exact (run_bind_of_ok hrun).trans hrun'
      · rw [hdriver', hdriver]
        by_cases hu : u ∈ rest
        · simp [hu]
        · by_cases hwu : w = u <;> simp [hu, hwu, eq_comm]

/-- Routable routes can all be reserved. -/
theorem exists_run_reserveAll {routes : List Pip} (h : ∀ p ∈ routes, d.Routable p) :
    ∃ d', (routes.forM fun p => reserve p.src p.dst).run d = (.ok (), d') ∧ SameDesign d d' ∧
      d'.wires.reservedDriver? =
        Device.redriven (Device.drives routes) d.wires.reservedDriver? := by
  induction routes generalizing d with
  | nil => exact ⟨d, rfl, SameDesign.refl d, rfl⟩
  | cons p rest ih =>
      obtain ⟨mid, hrun, hsame, hdriver⟩ := exists_run_reserve (h p List.mem_cons_self)
      obtain ⟨d', hrun', hsame', hdriver'⟩ :=
        ih fun q hq => (h q (List.mem_cons_of_mem p hq)).of_sameDesign hsame
      refine ⟨d', (run_bind_of_ok hrun).trans hrun', hsame.trans hsame', ?_⟩
      have hmid : mid.wires.reservedDriver? =
          Function.update d.wires.reservedDriver? p.dst (some p.src) := by
        funext w
        rw [hdriver, Function.update_apply]
        simp only [eq_comm]
      rw [hdriver', hmid]
      rfl

end Edit

end Fabric
