import Fabric.Proofs.GraphRun
import Fabric.Proofs.Routes

/-!
# Reservations over runs

A reservation is kept as a flag and a place among the drivers of a wire, and the drivers of a
wire become more. Seen from outside it is a map from wires to drivers all the same: a wire is
reserved for the driver of the last reservation that was granted for it, unless that was taken
back since. What carries this is that drivers are only ever added at the end, so that a place in
use stays in use and keeps its driver (`PlaceInUse`).

## Main results

* `placeInUse_run`: the place of a reserved wire is that of a driver after every run;
* `reservedDriver?_apply`: what an operation does to the reservation of each wire;
* `flags_run`: the flags beside those of a reservation are never changed;
* `GraphStep.reservations_run`: which wires are reserved after a run, and which reservations
  and pips it leaves possible.
-/

namespace Fabric

/-! ### Places in use -/

namespace WireInfo

/-- The place in the flags of a reserved wire is that of a driver. -/
def PlaceInUse (info : WireInfo) : Prop :=
  info.flags &&& reservedFlag ≠ 0 → (info.flags &&& reservedIndexMask).toNat < info.uphill.size

/-- Drivers that are added later do not change the reserved one. -/
theorem PlaceInUse.append {info info' : WireInfo} (h : info.PlaceInUse)
    (hflags : info'.flags = info.flags) {l : List Wire}
    (huphill : info'.uphill.toList = info.uphill.toList ++ l) :
    info'.PlaceInUse ∧ info'.reservedDriver = info.reservedDriver := by
  have hsize : info.uphill.size ≤ info'.uphill.size := by
    rw [← Array.length_toList, ← Array.length_toList, huphill, List.length_append]
    exact Nat.le_add_right _ _
  rw [PlaceInUse, reservedDriver, reservedDriver, hflags]
  refine ⟨fun hflag => Nat.lt_of_lt_of_le (h hflag) hsize, ?_⟩
  split
  · rfl
  · rename_i hflag
    rw [← Array.getElem?_toList, huphill, List.getElem?_append_left, Array.getElem?_toList]
    exact h hflag

end WireInfo

namespace WireGraph

variable {g : WireGraph}

/-- The reserved driver is read off the record of the wire. -/
theorem reservedDriver?_eq (g : WireGraph) (w : Wire) :
    g.reservedDriver? w = (g.infoOf w).reservedDriver := by
  rw [reservedDriver?, infoOf]
  cases g.get? w <;> rfl

/-- The sources of a wire in the graph are known. -/
theorem uphill?_of_mem {w : Wire} (h : w ∈ g.wires) : g.uphill? w = some (g.sourcesOf w) := by
  obtain ⟨info, hinfo⟩ := Option.isSome_iff_exists.1 (mem_wires.1 h)
  rw [uphill?, sourcesOf, infoOf_of_get? hinfo, hinfo, Option.map_some]

/-- The sources of a wire are known exactly when it is in the graph. -/
theorem isSome_uphill? (g : WireGraph) (w : Wire) : (g.uphill? w).isSome ↔ w ∈ g.wires := by
  rw [uphill?, Option.isSome_map, mem_wires]

/-- A pip is available if its end exists and is not reserved for another driver. -/
theorem available_iff {p : Pip} : g.available p ↔
    p.dst ∈ g.wires ∧ (g.reservedDriver? p.dst = none ∨ g.reservedDriver? p.dst = some p.src) := by
  rw [available, mem_wires, reservedDriver?]
  cases g.get? p.dst with
  | none => simp
  | some info => cases h : info.reservedDriver <;> simp [h]

end WireGraph

namespace GraphStep

open WireInfo

/-! ### Flags -/

/-- Making sure of a wire sets no flag. -/
theorem flags_ensure (g : WireGraph) (v w : Wire) :
    ((apply g (ensure v)).infoOf w).flags = (g.infoOf w).flags := by
  rw [apply, WireGraph.infoOf_ensure]

/-- A pip sets no flag. -/
theorem flags_addPip (g : WireGraph) (u v w : Wire) :
    ((apply g (addPip u v)).infoOf w).flags = (g.infoOf w).flags := by
  rw [apply, WireGraph.infoOf_addPip]

/-- Describing a wire sets no flag. -/
theorem flags_describe (g : WireGraph) (v w : Wire) (name : Ident) (belPins : Array BelPin) :
    ((apply g (describe v name belPins)).infoOf w).flags = (g.infoOf w).flags := by
  rw [apply, WireGraph.infoOf_update]
  split <;> rfl

/-- An operation changes the nine flags of a reservation at most. -/
theorem flags_apply (g : WireGraph) (step : GraphStep) (w : Wire) :
    ((apply g step).infoOf w).flags >>> 9 = (g.infoOf w).flags >>> 9 := by
  cases step with
  | ensure v => rw [flags_ensure]
  | addPip u v => rw [flags_addPip]
  | reserve src dst =>
    obtain h | ⟨i, hi, -, h⟩ := infoOf_apply_reserve g src dst w
    · rw [h]
    · rw [h, reservedFlags_shiftRight _ hi]
  | unreserve v =>
    rw [apply, WireGraph.infoOf_unreserve]
    dsimp only
    split
    · rw [unreservedFlags_shiftRight]
    · rfl
  | describe v name belPins => rw [flags_describe]

/-- The bits above the reservation stay as they were over a whole run. -/
theorem flags_run (g : WireGraph) (steps : List GraphStep) (w : Wire) :
    ((run g steps).infoOf w).flags >>> 9 = (g.infoOf w).flags >>> 9 := by
  induction steps using List.reverseRecOn with
  | nil => rfl
  | append_singleton steps step ih => rw [run_concat, flags_apply, ih]

/-- Operations that are no reservations leave the places in use and the reserved drivers. -/
theorem placeInUse_apply_of_flags {g : WireGraph} {w : Wire} (h : (g.infoOf w).PlaceInUse)
    {step : GraphStep} (hflags : ((apply g step).infoOf w).flags = (g.infoOf w).flags) :
    ((apply g step).infoOf w).PlaceInUse ∧
      (apply g step).reservedDriver? w = g.reservedDriver? w := by
  rw [WireGraph.reservedDriver?_eq, WireGraph.reservedDriver?_eq]
  exact h.append hflags (sourcesOf_apply g step w)

/-- No operation takes a place out of use. -/
theorem placeInUse_apply {g : WireGraph} {w : Wire} (h : (g.infoOf w).PlaceInUse)
    (step : GraphStep) : ((apply g step).infoOf w).PlaceInUse := by
  cases step with
  | ensure v => exact (placeInUse_apply_of_flags h (flags_ensure g v w)).1
  | addPip u v => exact (placeInUse_apply_of_flags h (flags_addPip g u v w)).1
  | reserve src dst =>
    obtain heq | ⟨i, hi, hsize, heq⟩ := infoOf_apply_reserve g src dst w
    · rwa [heq]
    · rw [heq]
      intro _
      rw [reservedFlags_and_mask _ hi]
      exact hsize
  | unreserve v =>
    rw [apply, WireGraph.infoOf_unreserve]
    intro hflag
    dsimp only at hflag ⊢
    split at hflag
    · exact absurd (unreservedFlags_and_flag _) hflag
    · rename_i hne
      rw [if_neg hne]
      exact h hflag
  | describe v name belPins =>
    exact (placeInUse_apply_of_flags h (flags_describe g v w name belPins)).1

/-- In every run the place a reservation records is one of the wire's sources. -/
theorem placeInUse_run (steps : List GraphStep) (w : Wire) :
    ((run .empty steps).infoOf w).PlaceInUse := by
  induction steps using List.reverseRecOn with
  | nil =>
    rw [run_nil, WireGraph.infoOf_empty]
    exact fun hflag => absurd rfl hflag
  | append_singleton steps step ih =>
    rw [run_concat]
    exact placeInUse_apply ih step

/-! ### The reserved driver -/

/-- Whether a graph grants a reservation. -/
def Granted (g : WireGraph) (src dst : Wire) : Prop := ∃ g', g.reserve src dst = .ok g'

/-- A wire is reserved for a driver after an operation if the operation has just reserved it so,
or if it was so before and the operation neither takes the reservation back nor replaces it. -/
theorem reservedDriver?_apply {g : WireGraph} (h : ∀ w, (g.infoOf w).PlaceInUse)
    (step : GraphStep) (src dst : Wire) :
    (apply g step).reservedDriver? dst = some src ↔
      step = reserve src dst ∧ Granted g src dst ∨
        g.reservedDriver? dst = some src ∧ step ≠ unreserve dst ∧
          ∀ other, step = reserve other dst → ¬ Granted g other dst := by
  cases step with
  | ensure v => simp [(placeInUse_apply_of_flags (h dst) (flags_ensure g v dst)).2]
  | addPip u v => simp [(placeInUse_apply_of_flags (h dst) (flags_addPip g u v dst)).2]
  | reserve u v =>
    cases hres : g.reserve u v with
    | error why =>
      have hnot : ¬ Granted g u v := by
        rintro ⟨g', hok⟩
        rw [hres] at hok
        cases hok
      rw [apply, hres]
      grind
    | ok g' =>
      have hgrant : Granted g u v := ⟨g', hres⟩
      rw [apply, hres]
      dsimp only
      rw [(WireGraph.reserve_spec hres).2]
      grind
  | unreserve v =>
    rw [apply, WireGraph.reservedDriver?_unreserve]
    grind
  | describe v name belPins =>
    simp [(placeInUse_apply_of_flags (h dst) (flags_describe g v dst name belPins)).2]

/-- A reservation is granted for the first 256 drivers of a wire that exists. -/
theorem granted_iff {g : WireGraph} {src dst : Wire} :
    Granted g src dst ↔ dst ∈ g.wires ∧ src ∈ (g.sourcesOf dst).take 256 := by
  rw [Granted, WireGraph.exists_reserve_iff]
  constructor
  · rintro ⟨l, hl, hsrc⟩
    have hmem : dst ∈ g.wires := (g.isSome_uphill? dst).1 (by rw [hl]; rfl)
    rw [WireGraph.uphill?_of_mem hmem] at hl
    exact ⟨hmem, Option.some.inj hl ▸ hsrc⟩
  · rintro ⟨hmem, hsrc⟩
    exact ⟨_, WireGraph.uphill?_of_mem hmem, hsrc⟩

/-- In a run, a reservation of a wire was granted for a driver, and after it none was granted for
the wire and it was not taken back. -/
def ReservedFor (steps : List GraphStep) (src dst : Wire) : Prop :=
  ∃ i, steps[i]? = some (reserve src dst) ∧ Granted (run .empty (steps.take i)) src dst ∧
    ∀ j > i, steps[j]? ≠ some (unreserve dst) ∧
      ∀ other, steps[j]? = some (reserve other dst) →
        ¬ Granted (run .empty (steps.take j)) other dst

/-- A reservation stands after a step that grants it, or that leaves it alone. -/
theorem reservedFor_concat (steps : List GraphStep) (step : GraphStep) (src dst : Wire) :
    ReservedFor (steps ++ [step]) src dst ↔
      step = reserve src dst ∧ Granted (run .empty steps) src dst ∨
        ReservedFor steps src dst ∧ step ≠ unreserve dst ∧
          ∀ other, step = reserve other dst → ¬ Granted (run .empty steps) other dst := by
  have hold {i : Nat} (hi : i < steps.length) : (steps ++ [step])[i]? = steps[i]? ∧
      (steps ++ [step]).take i = steps.take i :=
    ⟨List.getElem?_append_left hi, List.take_append_of_le_length (Nat.le_of_lt hi)⟩
  have hnew : (steps ++ [step])[steps.length]? = some step ∧
      (steps ++ [step]).take steps.length = steps :=
    ⟨List.getElem?_concat_length, List.take_left⟩
  have hnone {i : Nat} (hi : steps.length < i) : (steps ++ [step])[i]? = none := by
    simp only [List.getElem?_eq_none_iff, List.length_append, List.length_singleton]
    omega
  -- Both directions go by where the step that counts stands: before the last one, or at its place.
  constructor
  · rintro ⟨i, hstep, hgrant, hlast⟩
    rcases Nat.lt_trichotomy i steps.length with hi | rfl | hi
    · rw [(hold hi).1] at hstep
      rw [(hold hi).2] at hgrant
      refine .inr ⟨⟨i, hstep, hgrant, fun j hj => ?_⟩, ?_⟩
      · by_cases hlen : j < steps.length
        · have := hlast j hj
          rwa [(hold hlen).1, (hold hlen).2] at this
        · rw [List.getElem?_eq_none (Nat.not_lt.1 hlen)]
          exact ⟨nofun, nofun⟩
      · have := hlast _ hi
        rw [hnew.1, hnew.2] at this
        exact ⟨fun h => this.1 (congrArg some h), fun other h => this.2 other (congrArg some h)⟩
    · rw [hnew.1] at hstep
      rw [hnew.2] at hgrant
      exact .inl ⟨Option.some.inj hstep, hgrant⟩
    · rw [hnone hi] at hstep
      cases hstep
  · rintro (⟨rfl, hgrant⟩ | ⟨⟨i, hstep, hgrant, hlast⟩, hclear, hreplace⟩)
    · refine ⟨steps.length, hnew.1, by rwa [hnew.2], fun j hj => ?_⟩
      rw [hnone hj]
      exact ⟨nofun, nofun⟩
    · have hi : i < steps.length := (List.getElem?_eq_some_iff.1 hstep).1
      refine ⟨i, by rwa [(hold hi).1], by rwa [(hold hi).2], fun j hj => ?_⟩
      rcases Nat.lt_trichotomy j steps.length with hlen | rfl | hlen
      · rw [(hold hlen).1, (hold hlen).2]
        exact hlast j hj
      · rw [hnew.1, hnew.2]
        exact ⟨fun h => hclear (Option.some.inj h), fun other h =>
          hreplace other (Option.some.inj h)⟩
      · rw [hnone hlen]
        exact ⟨nofun, nofun⟩

/-- A wire is reserved for the driver of the last reservation that was granted for it and not
taken back since. -/
theorem reservedDriver?_run (steps : List GraphStep) (src dst : Wire) :
    (run .empty steps).reservedDriver? dst = some src ↔ ReservedFor steps src dst := by
  induction steps using List.reverseRecOn generalizing src with
  | nil => simp [ReservedFor, WireGraph.reservedDriver?_eq, reservedDriver]
  | append_singleton steps step ih =>
    rw [run_concat, reservedDriver?_apply (placeInUse_run steps), reservedFor_concat, ih]

/-! ### Reservations of a device -/

/-- The wires of a device get a reservation that is granted. Otherwise nothing changes, and the
error says whether the wire is missing. -/
theorem run_reserve (d : Device) (src dst : Wire) :
    (Granted d.wires src dst ∧ ∃ sink, (Edit.reserve src dst).run d = (.ok (),
      { d with wires := apply d.wires (reserve src dst), diagnostics := sink })) ∨
    (dst ∉ d.wires.wires ∧ (Edit.reserve src dst).run d = (.error (.wireNotFound dst), d)) ∨
    (dst ∈ d.wires.wires ∧ ¬ Granted d.wires src dst ∧
      (Edit.reserve src dst).run d = (.error (.pipNotFound src dst), d)) := by
  cases h : d.wires.reserve src dst with
  | ok g =>
    obtain ⟨sink, hrun⟩ := Edit.run_reserve_of_ok h
    refine .inl ⟨⟨g, h⟩, sink, ?_⟩
    rw [hrun, apply, h]
  | error why =>
    have hnot : ¬ Granted d.wires src dst := by
      rintro ⟨g', hok⟩
      rw [h] at hok
      cases hok
    have hmissing : d.wires.reserve src dst = .error .noWire ↔ ¬ (d.wires.uphill? dst).isSome :=
      WireGraph.reserve_eq_noWire
    rw [h, WireGraph.isSome_uphill?] at hmissing
    simp only [Edit.reserve, Edit.run_get_bind, h]
    cases why with
    | noWire => exact .inr (.inl ⟨hmissing.1 rfl, rfl⟩)
    | noPip =>
      refine .inr (.inr ⟨not_not.1 fun hmem => ?_, hnot, rfl⟩)
      cases hmissing.2 hmem

/-- Releasing a wire clears its reservation if the wire exists, and is an error otherwise. -/
theorem run_unreserve (d : Device) (w : Wire) :
    (Edit.unreserve w).run d =
      if w ∈ d.wires.wires then (.ok (), { d with wires := apply d.wires (unreserve w) })
      else (.error (.wireNotFound w), d) := by
  rw [Edit.run_unreserve, WireGraph.contains_eq_isSome]
  simp only [WireGraph.mem_wires]
  rfl

/-! ### Reservations after a run -/

/-- Reservations are a map from wires to drivers. After a run, a wire is reserved for the
driver of the last reservation that was granted for it and not taken back since, and a pip is
available if its end exists and is not reserved for another driver. A reservation is granted
for the first 256 drivers of a wire, and one that fails changes nothing. The other flags of a
wire never change. -/
theorem reservations_run (steps : List GraphStep) :
    let g := run .empty steps
    (∀ src dst, g.reservedDriver? dst = some src ↔ ReservedFor steps src dst) ∧
    (∀ dst, g.reservedDriver? dst = none ↔ ∀ src, ¬ ReservedFor steps src dst) ∧
    (∀ src dst, (∃ g', g.reserve src dst = .ok g') ↔
      dst ∈ g.wires ∧ src ∈ (g.sourcesOf dst).take 256) ∧
    (∀ src dst, g.reserve src dst = .error .noWire ↔ dst ∉ g.wires) ∧
    (∀ src dst, g.available ⟨src, dst⟩ ↔ dst ∈ g.wires ∧
      ((∀ driver, ¬ ReservedFor steps driver dst) ∨ ReservedFor steps src dst)) ∧
    (∀ d : Device, ∀ src dst,
      (Granted d.wires src dst ∧ ∃ sink, (Edit.reserve src dst).run d = (.ok (),
        { d with wires := apply d.wires (reserve src dst), diagnostics := sink })) ∨
      (dst ∉ d.wires.wires ∧ (Edit.reserve src dst).run d = (.error (.wireNotFound dst), d)) ∨
      (dst ∈ d.wires.wires ∧ ¬ Granted d.wires src dst ∧
        (Edit.reserve src dst).run d = (.error (.pipNotFound src dst), d))) ∧
    (∀ d : Device, ∀ w, (Edit.unreserve w).run d =
      if w ∈ d.wires.wires then (.ok (), { d with wires := apply d.wires (unreserve w) })
      else (.error (.wireNotFound w), d)) ∧
    ∀ g₀ w, ((run g₀ steps).infoOf w).flags >>> 9 = (g₀.infoOf w).flags >>> 9 := by
  intro g
  have hdriver := reservedDriver?_run steps
  have hnone : ∀ dst, g.reservedDriver? dst = none ↔ ∀ src, ¬ ReservedFor steps src dst :=
    fun dst => by simp only [← hdriver, Option.eq_none_iff_forall_ne_some, ne_eq, g]
  refine ⟨hdriver, hnone, fun src dst => granted_iff, fun src dst => ?_, fun src dst => ?_,
    run_reserve, run_unreserve, fun g₀ w => flags_run g₀ steps w⟩
  · rw [WireGraph.reserve_eq_noWire, WireGraph.isSome_uphill?]
  · rw [WireGraph.available_iff, hnone, hdriver]

end GraphStep

end Fabric
