import Fabric.Proofs.Graph
import Mathlib.Data.List.Induction

/-!
# Runs on a wire graph

A wire graph grows by operations: wires are created, pips are added, reservations are made and
taken back, and the name and the pins of a wire are set. A *run* is a list of such operations.
What a run has made of a wire is read off the list: the drivers of a wire are the sources of the
pips that were added to it, in order, and the wires are in the order in which they were first
mentioned.

## Main results

* `infoOf_addPip`, `infoOf_unreserve`, `infoOf_apply_reserve`: what an operation does to the data
  of each wire;
* `sourcesOf_run`, `targetsOf_run`: the neighbours of a wire after a run;
* `wires_run`: the wires after a run, in order.
-/

namespace Fabric

namespace WireGraph

variable {g : WireGraph}

/-- The data of a wire; that of a new wire if it does not exist. -/
def infoOf (g : WireGraph) (w : Wire) : WireInfo := (g.get? w).getD {}

/-- The drivers of a wire, in the order of its pips. -/
def sourcesOf (g : WireGraph) (w : Wire) : List Wire := (g.infoOf w).uphill.toList

/-- The wires that a wire drives, in the order of its pips. -/
def targetsOf (g : WireGraph) (w : Wire) : List Wire := (g.infoOf w).downhill.toList

/-- The empty graph records nothing of any wire. -/
@[simp] theorem infoOf_empty (w : Wire) : empty.infoOf w = {} := by simp [infoOf, get?, empty]

/-- What is recorded of a wire in the graph is its record. -/
theorem infoOf_of_get? {w : Wire} {info : WireInfo} (h : g.get? w = some info) :
    g.infoOf w = info := by
  rw [infoOf, h, Option.getD_some]

/-- The wires of the graph are those with a record. -/
theorem mem_wires {w : Wire} : w ∈ g.wires ↔ (g.get? w).isSome := by
  rw [wires, Array.mem_toList_iff, g.mem_order, ← contains_eq_isSome, contains,
    Std.HashMap.mem_iff_contains]

/-- A graph contains the wires it lists. -/
theorem contains_iff {w : Wire} : g.contains w = true ↔ w ∈ g.wires := by
  rw [contains_eq_isSome, mem_wires]

/-- A wire that does not exist has no data. -/
theorem infoOf_of_notMem {w : Wire} (h : w ∉ g.wires) : g.infoOf w = {} := by
  rw [mem_wires, Option.not_isSome_iff_eq_none] at h
  rw [infoOf, h, Option.getD_none]

/-- The iterator meets no wire twice. -/
theorem nodup_wires (g : WireGraph) : g.wires.Nodup := g.order_nodup

/-! ### The data of a wire after an operation -/

/-- Making sure of a wire changes no record, that of the wire included. -/
@[simp] theorem infoOf_ensure (g : WireGraph) (w u : Wire) :
    (g.ensure w).infoOf u = g.infoOf u := by
  rw [infoOf, get?_ensure]
  split
  · rename_i h
    obtain ⟨rfl, h⟩ := h
    rw [contains_eq_isSome, Option.not_isSome_iff_eq_none] at h
    rw [infoOf, h]
    rfl
  · rfl

/-- An update changes the record of its wire only. -/
theorem infoOf_update (g : WireGraph) (w u : Wire) (f : WireInfo → WireInfo) :
    (g.update w f).infoOf u = if w = u then f (g.infoOf u) else g.infoOf u := by
  rw [infoOf, get?_update]
  split
  · rename_i h
    rw [← h, Option.getD_some, infoOf]
  · rfl

/-- A pip is recorded at its source and at its target, and at no other wire. -/
theorem infoOf_addPip (g : WireGraph) (src dst w : Wire) : (g.addPip src dst).infoOf w =
    { g.infoOf w with
      downhill := if src = w then (g.infoOf w).downhill.push dst else (g.infoOf w).downhill
      uphill := if dst = w then (g.infoOf w).uphill.push src else (g.infoOf w).uphill } := by
  rw [addPip, infoOf_update, infoOf_update]
  split <;> split <;> rfl

/-- Releasing a wire clears the reservation of that wire only. -/
theorem infoOf_unreserve (g : WireGraph) (w u : Wire) : (g.unreserve w).infoOf u =
    { g.infoOf u with
      flags := if w = u then WireInfo.unreservedFlags (g.infoOf u).flags
        else (g.infoOf u).flags } := by
  rw [infoOf, unreserve, get?_modify]
  split
  · rename_i h
    rw [← h, infoOf]
    cases g.get? w <;> rfl
  · rfl

/-- A reservation that is granted sets the flags of one wire, to those for the
place of the driver. -/
theorem infoOf_reserve {g' : WireGraph} {src dst : Wire} (h : g.reserve src dst = .ok g') :
    ∃ i < 256, (g.infoOf dst).uphill[i]? = some src ∧ ∀ w, g'.infoOf w =
      { g.infoOf w with
        flags := if dst = w then WireInfo.reservedFlags (g.infoOf w).flags i
          else (g.infoOf w).flags } := by
  rw [reserve] at h
  split at h
  · cases h
  rename_i info hinfo
  split at h
  · cases h
  rename_i i hi
  obtain rfl := Except.ok.inj h
  obtain ⟨hlt, hsrc⟩ := WireInfo.reservableIndex?_eq_some hi
  refine ⟨i, hlt, infoOf_of_get? hinfo ▸ hsrc, fun w => ?_⟩
  rw [infoOf, get?_modify]
  split
  · rename_i heq
    rw [← heq, infoOf_of_get? hinfo, hinfo]
    rfl
  · rfl

/-! ### The wires after an operation -/

/-- A list with an element added at its end, unless it is there. -/
def insertLast (l : List Wire) (w : Wire) : List Wire := if w ∈ l then l else l ++ [w]

/-- Adding a wire at the end of a list without repetitions is adding it and
dropping the repetition. -/
theorem insertLast_eraseDups (l : List Wire) (w : Wire) :
    insertLast l.eraseDups w = (l ++ [w]).eraseDups := by
  rw [insertLast, List.eraseDups_append, List.removeAll]
  by_cases h : w ∈ l
  · rw [if_pos (List.mem_eraseDups.2 h)]
    simp [h]
  · rw [if_neg (mt List.mem_eraseDups.1 h)]
    simp [h, List.eraseDups_cons]

/-- The same for a list of wires that come after one another. -/
theorem foldl_insertLast_eraseDups (l ws : List Wire) :
    ws.foldl insertLast l.eraseDups = (l ++ ws).eraseDups := by
  induction ws generalizing l with
  | nil => rw [List.foldl_nil, List.append_nil]
  | cons w ws ih => rw [List.foldl_cons, insertLast_eraseDups, ih, List.append_assoc,
      List.singleton_append]

/-- A wire made sure of comes last, unless it was there. -/
theorem wires_ensure (g : WireGraph) (w : Wire) : (g.ensure w).wires = insertLast g.wires w := by
  rw [insertLast, ensure]
  have hmem : w ∈ g.wires ↔ w ∈ g.info := Array.mem_toList_iff.trans (g.mem_order w)
  split
  · rename_i h
    rw [if_pos (hmem.2 h)]
  · rename_i h
    rw [if_neg (mt hmem.1 h), wires, Array.toList_push, wires]

/-- An updated wire comes last, unless it was there. -/
theorem wires_update (g : WireGraph) (w : Wire) (f : WireInfo → WireInfo) :
    (g.update w f).wires = insertLast g.wires w :=
  g.wires_ensure w

/-- A pip makes sure of its source before its target. -/
theorem wires_addPip (g : WireGraph) (src dst : Wire) :
    (g.addPip src dst).wires = insertLast (insertLast g.wires src) dst := by
  rw [addPip, wires_update, wires_update]

/-- A reservation creates no wire. -/
theorem wires_reserve {g' : WireGraph} {src dst : Wire} (h : g.reserve src dst = .ok g') :
    g'.wires = g.wires := by
  rw [reserve] at h
  split at h
  · cases h
  split at h
  · cases h
  obtain rfl := Except.ok.inj h
  rfl

end WireGraph

/-! ### Operations and runs -/

/-- An operation on a wire graph. -/
inductive GraphStep where
  /-- Creates a wire, unless it exists. -/
  | ensure (w : Wire)
  | addPip (src dst : Wire)
  | reserve (src dst : Wire)
  | unreserve (w : Wire)
  /-- Sets the name and the pins of a wire, creating it if it does not exist. -/
  | describe (w : Wire) (name : Ident) (belPins : Array BelPin)
  deriving DecidableEq

namespace GraphStep

/-- The graph after an operation. A reservation that is refused changes nothing. -/
def apply (g : WireGraph) : GraphStep → WireGraph
  | ensure w => g.ensure w
  | addPip src dst => g.addPip src dst
  | reserve src dst =>
    match g.reserve src dst with
    | .ok g' => g'
    | .error _ => g
  | unreserve w => g.unreserve w
  | describe w name belPins => g.update w fun info => { info with name, belPins }

/-- The graph after a run. -/
def run (g : WireGraph) (steps : List GraphStep) : WireGraph := steps.foldl apply g

/-- No steps leave the graph. -/
@[simp] theorem run_nil (g : WireGraph) : run g [] = g := rfl

/-- A run goes on from where the run before it ended. -/
@[simp] theorem run_concat (g : WireGraph) (steps : List GraphStep) (step : GraphStep) :
    run g (steps ++ [step]) = apply (run g steps) step := by
  rw [run, List.foldl_append]
  rfl

/-- The wires that an operation creates if they do not exist. -/
def mentioned : GraphStep → List Wire
  | ensure w => [w]
  | addPip src dst => [src, dst]
  | describe w _ _ => [w]
  | reserve _ _ => []
  | unreserve _ => []

/-- The driver that an operation adds to a wire. -/
def sourceFor (w : Wire) : GraphStep → Option Wire
  | addPip src dst => if dst = w then some src else none
  | _ => none

/-- The wire that an operation makes a wire drive. -/
def targetFor (w : Wire) : GraphStep → Option Wire
  | addPip src dst => if src = w then some dst else none
  | _ => none

/-! ### Single operations -/

/-- A reservation sets the flags of a wire at most, to those for the place of a driver. -/
theorem infoOf_apply_reserve (g : WireGraph) (src dst w : Wire) :
    (apply g (reserve src dst)).infoOf w = g.infoOf w ∨
      ∃ i < 256, i < (g.infoOf w).uphill.size ∧ (apply g (reserve src dst)).infoOf w =
        { g.infoOf w with flags := WireInfo.reservedFlags (g.infoOf w).flags i } := by
  cases h : g.reserve src dst with
  | error why =>
    left
    rw [apply, h]
  | ok g' =>
    obtain ⟨i, hi, hsrc, hinfo⟩ := WireGraph.infoOf_reserve h
    rw [apply, h, hinfo w]
    split
    · rename_i heq
      obtain ⟨hsize, -⟩ := Array.getElem?_eq_some_iff.1 hsrc
      exact .inr ⟨i, hi, heq ▸ hsize, rfl⟩
    · exact .inl rfl

/-- An operation adds its driver to the drivers of a wire. -/
theorem sourcesOf_apply (g : WireGraph) (step : GraphStep) (w : Wire) :
    (apply g step).sourcesOf w = g.sourcesOf w ++ (step.sourceFor w).toList := by
  simp only [WireGraph.sourcesOf]
  cases step with
  | ensure v => simp [apply, sourceFor]
  | addPip src dst =>
    simp only [apply, WireGraph.infoOf_addPip, sourceFor]
    split <;> simp
  | reserve src dst =>
    obtain h | ⟨i, -, -, h⟩ := infoOf_apply_reserve g src dst w <;> simp [h, sourceFor]
  | unreserve v => simp [apply, WireGraph.infoOf_unreserve, sourceFor]
  | describe v name belPins =>
    simp only [apply, WireGraph.infoOf_update, sourceFor]
    split <;> simp

/-- A step adds at most one target to a wire, at the end. -/
theorem targetsOf_apply (g : WireGraph) (step : GraphStep) (w : Wire) :
    (apply g step).targetsOf w = g.targetsOf w ++ (step.targetFor w).toList := by
  simp only [WireGraph.targetsOf]
  cases step with
  | ensure v => simp [apply, targetFor]
  | addPip src dst =>
    simp only [apply, WireGraph.infoOf_addPip, targetFor]
    split <;> simp
  | reserve src dst =>
    obtain h | ⟨i, -, -, h⟩ := infoOf_apply_reserve g src dst w <;> simp [h, targetFor]
  | unreserve v => simp [apply, WireGraph.infoOf_unreserve, targetFor]
  | describe v name belPins =>
    simp only [apply, WireGraph.infoOf_update, targetFor]
    split <;> simp

/-- An operation puts the wires that it mentions after those that exist. -/
theorem wires_apply (g : WireGraph) (step : GraphStep) :
    (apply g step).wires = step.mentioned.foldl WireGraph.insertLast g.wires := by
  cases step with
  | ensure v => exact g.wires_ensure v
  | addPip src dst => exact g.wires_addPip src dst
  | reserve src dst =>
    cases h : g.reserve src dst with
    | error why => rw [apply, h, mentioned, List.foldl_nil]
    | ok g' =>
      rw [apply, h, mentioned, List.foldl_nil]
      exact WireGraph.wires_reserve h
  | unreserve v => rfl
  | describe v name belPins => exact g.wires_update v _

/-! ### Runs -/

/-- The drivers of a wire after a run are the sources of the pips added to it. -/
theorem sourcesOf_run (steps : List GraphStep) (w : Wire) :
    (run .empty steps).sourcesOf w = steps.filterMap (sourceFor w) := by
  induction steps using List.reverseRecOn with
  | nil => simp [WireGraph.sourcesOf]
  | append_singleton steps step ih =>
    rw [run_concat, sourcesOf_apply, ih, List.filterMap_append]
    cases h : step.sourceFor w <;> simp [h]

/-- The targets of a wire are those its steps gave it, in their order. -/
theorem targetsOf_run (steps : List GraphStep) (w : Wire) :
    (run .empty steps).targetsOf w = steps.filterMap (targetFor w) := by
  induction steps using List.reverseRecOn with
  | nil => simp [WireGraph.targetsOf]
  | append_singleton steps step ih =>
    rw [run_concat, targetsOf_apply, ih, List.filterMap_append]
    cases h : step.targetFor w <;> simp [h]

/-- The wires after a run are in the order in which they were first mentioned. -/
theorem wires_run (steps : List GraphStep) :
    (run .empty steps).wires = (steps.flatMap mentioned).eraseDups := by
  induction steps using List.reverseRecOn with
  | nil => rfl
  | append_singleton steps step ih =>
    rw [run_concat, wires_apply, ih, WireGraph.foldl_insertLast_eraseDups,
      List.flatMap_append, List.flatMap_singleton]

end GraphStep

end Fabric
