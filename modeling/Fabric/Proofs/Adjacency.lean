import Fabric.Proofs.GraphRun
import Mathlib.Algebra.BigOperators.Group.List.Basic
import Mathlib.Data.List.Count
import Mathlib.Data.List.Nodup

/-!
# Adjacency and enumeration of pips

A pip is held twice: among the drivers of its destination and among the wires that its source
drives. Whatever is done to a graph, both lists hold it as often as it was added, and so does the
enumeration of all pips, which takes the wires in order of creation and the drivers of each wire
in the order of its pips. Pips from a wire to itself, parallel pips, and wires that are created by
either end of a pip are no exceptions.

## Main results

* `PipWalk.next_after`: what the steps of a walk yield, to its end and beyond;
* `count_pips`: the enumeration holds a pip as often as the drivers of its destination do;
* `GraphStep.adjacency_run`: the lists and the enumeration after a run, in terms of the pips that
  were added.
-/

namespace Fabric

/-! ### Walks -/

namespace PipWalk

/-- A walk after some steps. -/
def after (walk : PipWalk) : Nat → PipWalk
  | 0 => walk
  | n + 1 => (walk.after n).next.2

/-- After some steps the walk has the rest of its pips left. -/
theorem left_after (walk : PipWalk) (n : Nat) : (walk.after n).left = walk.left.drop n := by
  induction n with
  | zero => rfl
  | succ n ih => rw [after, (next_eq _).2, ih, List.tail_drop]

/-- A walk yields the pips that are left, one by one, and then nothing any more. -/
theorem next_after (walk : PipWalk) (n : Nat) : (walk.after n).next.1 = walk.left[n]? := by
  rw [(next_eq _).1, left_after, List.head?_drop]

end PipWalk

namespace WireGraph

variable {g : WireGraph}

/-! ### Pips -/

/-- The uphill pips of a wire come from its sources, in their order. -/
theorem uphillPips_infoOf (g : WireGraph) (w : Wire) :
    (g.infoOf w).uphillPips w = (g.sourcesOf w).map fun src => ⟨src, w⟩ := rfl

/-- The downhill pips of a wire lead to its targets, in their order. -/
theorem downhillPips_infoOf (g : WireGraph) (w : Wire) :
    (g.infoOf w).downhillPips w = (g.targetsOf w).map fun dst => ⟨w, dst⟩ := rfl

/-- The pips of the graph are the uphill pips of its wires. -/
theorem pips_eq_flatMap (g : WireGraph) :
    g.pips = g.wires.flatMap fun w => (g.infoOf w).uphillPips w := by
  rw [pips_eq]
  refine congrArg (List.flatMap · _) (funext fun w => ?_)
  rw [infoOf]
  cases g.get? w <;> rfl

/-- Two wires are joined when one is a source of the other. -/
theorem connected_iff {src dst : Wire} : g.connected src dst ↔ src ∈ g.sourcesOf dst := by
  rw [connected, sourcesOf, infoOf]
  cases g.get? dst <;> simp

/-- A wire among the uphill ones of another drives it. -/
theorem connected_of_uphill? {src dst : Wire} {l : List Wire} (h : g.uphill? dst = some l)
    (hsrc : src ∈ l) : g.connected src dst = true := by
  obtain ⟨info, hinfo, rfl⟩ := Option.map_eq_some_iff.mp h
  rw [connected_iff, sourcesOf, infoOf_of_get? hinfo]
  exact hsrc

/-- In the lists of different wires, an element that only one of the lists can hold occurs as
often as in that list. -/
theorem count_flatMap_wires {f : Wire → List Pip} {w : Wire} {p : Pip}
    (hf : ∀ v, v ≠ w → p ∉ f v) (hw : w ∉ g.wires → f w = []) :
    (g.wires.flatMap f).count p = (f w).count p := by
  rw [List.count_flatMap, List.sum_map_eq_nsmul_single w]
  · by_cases h : w ∈ g.wires
    · rw [List.count_eq_one_of_mem g.nodup_wires h, one_nsmul, Function.comp]
    · rw [List.count_eq_zero_of_not_mem h, hw h, zero_nsmul, List.count_nil]
  · intro v hv _
    exact List.count_eq_zero_of_not_mem (hf v hv)

/-- The enumeration holds a pip as often as the drivers of its destination do. -/
theorem count_pips (g : WireGraph) (u w : Wire) :
    g.pips.count ⟨u, w⟩ = (g.sourcesOf w).count u := by
  rw [pips_eq_flatMap, count_flatMap_wires (w := w), uphillPips_infoOf]
  · exact List.count_map_of_injective _ (Pip.mk · w) (fun a b h => (Pip.mk.inj h).1) u
  · intro v hv h
    obtain ⟨_, -, h⟩ := List.mem_map.1 h
    exact hv (Pip.mk.inj h).2
  · intro h
    rw [infoOf_of_notMem h]
    rfl

/-- The enumeration holds the pips between connected wires. -/
theorem mem_pips {p : Pip} : p ∈ g.pips ↔ g.connected p.src p.dst = true := by
  rw [connected_iff, ← List.count_pos_iff, ← List.count_pos_iff]
  exact iff_of_eq (congrArg (0 < ·) (g.count_pips p.src p.dst))

/-- In the downhill view a pip occurs as often as its target is listed at its source. -/
theorem count_downhillPips (g : WireGraph) (u w : Wire) :
    (g.wires.flatMap fun v => (g.infoOf v).downhillPips v).count ⟨u, w⟩ =
      (g.targetsOf u).count w := by
  rw [count_flatMap_wires (w := u), downhillPips_infoOf]
  · exact List.count_map_of_injective _ (Pip.mk u) (fun a b h => (Pip.mk.inj h).2) w
  · intro v hv h
    obtain ⟨_, -, h⟩ := List.mem_map.1 h
    exact hv (Pip.mk.inj h).1
  · intro h
    rw [infoOf_of_notMem h]
    rfl

/-- The number of pips is the length of their list. -/
theorem length_pips (g : WireGraph) : g.pips.length = g.pipCount := by
  rw [pips_eq_flatMap, List.length_flatMap, pipCount, List.sum]
  refine congrArg (List.foldr _ _) (List.map_congr_left fun w _ => ?_)
  rw [uphillPips_infoOf, List.length_map, sourcesOf, infoOf]
  cases g.get? w <;> simp

end WireGraph

/-! ### Runs -/

namespace GraphStep

/-- Only a pip onto the wire gives it a source. -/
theorem sourceFor_eq_some {step : GraphStep} {u w : Wire} :
    step.sourceFor w = some u ↔ step = addPip u w := by
  cases step <;> simp [sourceFor, and_comm]

/-- Only a pip from the wire gives it a target. -/
theorem targetFor_eq_some {step : GraphStep} {u w : Wire} :
    step.targetFor u = some w ↔ step = addPip u w := by
  cases step <;> simp [targetFor]

/-- A source is listed once for every pip added from it. -/
theorem count_sourcesOf_run (steps : List GraphStep) (u w : Wire) :
    ((run .empty steps).sourcesOf w).count u = steps.count (addPip u w) := by
  rw [sourcesOf_run, List.count_filterMap, List.count]
  exact List.countP_congr fun step _ => by simp [sourceFor_eq_some]

/-- A target is listed once for every pip added to it. -/
theorem count_targetsOf_run (steps : List GraphStep) (u w : Wire) :
    ((run .empty steps).targetsOf u).count w = steps.count (addPip u w) := by
  rw [targetsOf_run, List.count_filterMap, List.count]
  exact List.countP_congr fun step _ => by simp [targetFor_eq_some]

/-- After a run, a pip is among the drivers of its destination, among the wires that its source
drives, and in the enumeration of all pips as often as it was added. A walk yields the pips in
the order of the wires and then of their drivers, and then nothing any more. -/
theorem adjacency_run (steps : List GraphStep) :
    let g := run .empty steps
    (∀ u w,
      (g.targetsOf u).count w = (g.sourcesOf w).count u ∧
      (g.sourcesOf w).count u = steps.count (addPip u w) ∧
      (g.connected u w ↔ 0 < steps.count (addPip u w)) ∧
      g.pips.count ⟨u, w⟩ = steps.count (addPip u w)) ∧
    g.wires = (steps.flatMap mentioned).eraseDups ∧
    (∀ w, g.sourcesOf w = steps.filterMap (sourceFor w)) ∧
    g.pips = (g.wires.flatMap fun w => (g.sourcesOf w).map fun src => ⟨src, w⟩) ∧
    (∀ n, (g.walk.after n).next.1 = g.pips[n]?) ∧
    g.pips.length = g.pipCount ∧
    (g.wires.flatMap fun w => (g.infoOf w).uphillPips w).Perm
      (g.wires.flatMap fun w => (g.infoOf w).downhillPips w) := by
  intro g
  have hsources := count_sourcesOf_run steps
  have htargets := count_targetsOf_run steps
  refine ⟨fun u w => ⟨?_, hsources u w, ?_, ?_⟩, wires_run steps, sourcesOf_run steps,
    g.pips_eq_flatMap, fun n => ?_, g.length_pips, ?_⟩
  · rw [htargets, hsources]
  · rw [WireGraph.connected_iff, ← List.count_pos_iff, hsources]
  · rw [WireGraph.count_pips, hsources]
  · rw [PipWalk.next_after, WireGraph.left_walk]
  · refine List.perm_iff_count.2 fun p => ?_
    rw [← WireGraph.pips_eq_flatMap, WireGraph.count_pips, WireGraph.count_downhillPips, hsources,
      htargets]

end GraphStep

end Fabric
