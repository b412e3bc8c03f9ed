import Fabric.Proofs.DeviceNames

/-!
# Runs of wiring calls

Wires and pips can be added to a device at any time. A `WiringRun` is a device to which such calls
have led, with the wires that answered those of them that asked for one. A call for a wire is
answered by the wire that was made under the name before, or else by a new one, on the first
synthetic node of its tile that is no wire yet; a pip puts its two ends among the wires and names
neither.

What was made under a name is said of the run alone: the name led to a wire before it, or a call of
the run was answered by one. The device knows the same.

## Main results

* `Device.freeNode?_eq_some_iff`: the node that a new wire gets;
* `Edit.run_addWire_eq_ok_iff`: the two ways in which a call for a wire is answered;
* `WiringRun.wireNamed?_eq_some_iff`: what a name leads to after a run.
-/

namespace Fabric

open Device (syntheticNode syntheticCount)

/-- The path of a wire tells its column, its row and its name. -/
theorem wirePath_inj {x y x' y' : Nat} {name name' : Ident} :
    wirePath x y name = wirePath x' y' name' ↔ x = x' ∧ y = y' ∧ name = name' := by
  simp [wirePath, Known.numeral]

/-! ### New wires -/

namespace Device

variable {d : Device} {x y : Nat} {name : Ident} {w : Wire}

/-- The free node found is the first one that no wire has. -/
theorem freeNodeFrom?_eq_some {g : WireGraph} {fuel k : Nat}
    (h : freeNodeFrom? g x y fuel k = some w) :
    ∃ n, k ≤ n ∧ n < k + fuel ∧ w = syntheticNode x y n ∧ g.contains w = false ∧
      ∀ m, k ≤ m → m < n → g.contains (syntheticNode x y m) = true := by
  induction fuel generalizing k with
  | zero => cases h
  | succ fuel ih =>
    rw [freeNodeFrom?] at h
    split at h
    · rename_i hk
      obtain ⟨n, hkn, hlt, hw, hfree, hmade⟩ := ih h
      refine ⟨n, by omega, by omega, hw, hfree, fun m hkm hm => ?_⟩
      rcases Nat.lt_or_eq_of_le hkm with hkm | rfl
      · exact hmade m hkm hm
      · exact hk
    · rename_i hk
      obtain rfl := Option.some.inj h
      exact ⟨k, Nat.le_refl k, by omega, rfl, Bool.eq_false_iff.mpr hk, fun m hkm hm => by omega⟩

/-- A new wire gets the first synthetic node of its tile that is no wire. -/
theorem freeNode?_eq_some_iff {g : WireGraph} : freeNode? g x y = some w ↔
    ∃ n < syntheticCount, w = syntheticNode x y n ∧ w ∉ g.wires ∧
      ∀ m < n, syntheticNode x y m ∈ g.wires := by
  simp only [← WireGraph.contains_iff, Bool.not_eq_true]
  constructor
  · intro h
    obtain ⟨n, -, hn, hw, hfree, hmade⟩ := freeNodeFrom?_eq_some h
    exact ⟨n, by omega, hw, hfree, fun m hm => hmade m (Nat.zero_le m) hm⟩
  · rintro ⟨n, hn, rfl, hfree, hmade⟩
    exact freeNode?_eq hn hmade hfree

/-- There is a node for another wire as long as one of the nodes is no wire. -/
theorem exists_freeNode?_of_notMem {g : WireGraph} {n : Nat} (hn : n < syntheticCount)
    (hfree : syntheticNode x y n ∉ g.wires) : ∃ w, freeNode? g x y = some w := by
  classical
  have hex : ∃ n, n < syntheticCount ∧ syntheticNode x y n ∉ g.wires := ⟨n, hn, hfree⟩
  obtain ⟨hlt, hnew⟩ := Nat.find_spec hex
  refine ⟨_, freeNode?_eq_some_iff.mpr ⟨Nat.find hex, hlt, rfl, hnew, fun m hm => ?_⟩⟩
  by_contra hmem
  exact Nat.find_min hex hm ⟨Nat.lt_trans hm hlt, hmem⟩

/-- A wire made is found under its place and name, and the others where they were. -/
theorem getElem?_created_insertWire {flags : UInt64} {x' y' : Nat} {name' : Ident} :
    (d.insertWire x y name flags w).created[(x', y', name')]? =
      if (x, y, name) = (x', y', name') then some w else d.created[(x', y', name')]? := by
  rw [insertWire, Std.HashMap.getElem?_insert]
  simp only [beq_iff_eq]

end Device

namespace Edit

/-- A call for a wire is answered by the wire made under the name, and changes nothing then, or by a
new one, if there is a node for it. -/
theorem run_addWire_eq_ok_iff {x y : Nat} {name : Ident} {flags : UInt64} {d d' : Device}
    {w : Wire} :
    (addWire x y name flags).run d = (.ok w, d') ↔
    (x < Known.numeralCount ∧ y < Known.numeralCount) ∧
      (d.created[(x, y, name)]? = some w ∧ d' = d ∨
        d.created[(x, y, name)]? = none ∧ Device.freeNode? d.wires x y = some w ∧
          d' = d.insertWire x y name flags w) := by
  by_cases hxy : x < Known.numeralCount ∧ y < Known.numeralCount
  · rw [run_addWire hxy.1 hxy.2]
    cases d.created[(x, y, name)]? with
    | some w' => simp [hxy, eq_comm]
    | none =>
      cases Device.freeNode? d.wires x y with
      | some w' =>
        simp only [Prod.mk.injEq, Except.ok.injEq, hxy, reduceCtorEq, false_and, true_and, false_or,
          Option.some.injEq]
        constructor
        · rintro ⟨rfl, rfl⟩
          exact ⟨rfl, rfl⟩
        · rintro ⟨rfl, rfl⟩
          exact ⟨rfl, rfl⟩
      | none => simp
  · have hout : Known.numeralCount ≤ x ∨ Known.numeralCount ≤ y := by
      simpa only [not_and_or, Nat.not_lt] using hxy
    rw [addWire]
    simp only [hout, if_true, hxy, false_and, iff_false]
    rintro ⟨⟩

end Edit

/-! ### Runs -/

/-- A call for a wire that was answered: the tile, the name and the wire. -/
structure WireAnswer where
  x : Nat
  y : Nat
  name : Ident
  wire : Wire

/-- The name that the call was about. -/
def WireAnswer.path (a : WireAnswer) : Path := wirePath a.x a.y a.name

/-- Calls that make wires and pips lead from one device to another; the answers to those that asked
for a wire are listed, the latest one first. -/
inductive WiringRun (d₀ : Device) : List WireAnswer → Device → Prop where
  | start : WiringRun d₀ [] d₀
  | wire {answers : List WireAnswer} {d d' : Device} {x y : Nat} {name : Ident} {flags : UInt64}
      {w : Wire} (h : WiringRun d₀ answers d)
      (hrun : (Edit.addWire x y name flags).run d = (.ok w, d')) :
      WiringRun d₀ (⟨x, y, name, w⟩ :: answers) d'
  | pip {answers : List WireAnswer} {d d' : Device} {src dst : Wire} (h : WiringRun d₀ answers d)
      (hrun : (Edit.addPip src dst).run d = (.ok (), d')) : WiringRun d₀ answers d'

/-- A wire was made under a name: before the run, or by a call of it. -/
def MadeUnder (d₀ : Device) (answers : List WireAnswer) (x y : Nat) (name : Ident)
    (w : Wire) : Prop :=
  d₀.wireNamed? (wirePath x y name) = some w ∨ ⟨x, y, name, w⟩ ∈ answers

/-- Adding a pip always succeeds, and changes the graph only. -/
theorem Edit.run_addPip_eq_ok_iff {src dst : Wire} {d d' : Device} :
    (Edit.addPip src dst).run d = (.ok (), d') ↔
    d' = { d with wires := d.wires.addPip src dst } := by
  rw [Edit.addPip, Edit.run_modify, Prod.mk.injEq, eq_comm (a := d')]
  exact and_iff_right rfl

namespace WiringRun

variable {d₀ d : Device} {answers : List WireAnswer} {x y : Nat} {name : Ident} {w : Wire}

/-- No wire operation changes the chip. -/
theorem chip (h : WiringRun d₀ answers d) : d.chip = d₀.chip := by
  induction h with
  | start => rfl
  | wire _ hrun ih =>
    obtain ⟨-, ⟨-, rfl⟩ | ⟨-, -, rfl⟩⟩ := Edit.run_addWire_eq_ok_iff.mp hrun
    · exact ih
    · exact ih
  | pip _ hrun ih =>
    obtain rfl := Edit.run_addPip_eq_ok_iff.mp hrun
    exact ih

/-- After a run a name leads to the wire that was made under it. -/
theorem wireNamed?_eq_some_iff (h : WiringRun d₀ answers d) (hx : x < Known.numeralCount)
    (hy : y < Known.numeralCount) :
    d.wireNamed? (wirePath x y name) = some w ↔ MadeUnder d₀ answers x y name w := by
  rw [Device.wireNamed?_wirePath hx hy]
  induction h with
  | start => rw [MadeUnder, Device.wireNamed?_wirePath hx hy, or_iff_left List.not_mem_nil]
  | @wire answers d d' x' y' name' flags w' h hrun ih =>
    have hnew : MadeUnder d₀ (⟨x', y', name', w'⟩ :: answers) x y name w ↔
        MadeUnder d₀ answers x y name w ∨ (x, y, name) = (x', y', name') ∧ w = w' := by
      simp only [MadeUnder, List.mem_cons, WireAnswer.mk.injEq, Prod.mk.injEq]
      tauto
    rw [hnew, ← ih]
    obtain ⟨-, ⟨hfound, rfl⟩ | ⟨hnone, -, rfl⟩⟩ := Edit.run_addWire_eq_ok_iff.mp hrun
    · -- what is found now was made before
      refine (or_iff_left_of_imp ?_).symm
      rintro ⟨heq, rfl⟩
      rw [heq, hfound]
    · rw [Device.getElem?_created_insertWire]
      by_cases heq : (x', y', name') = (x, y, name)
      · rw [if_pos heq, ← heq, hnone]
        simp [eq_comm]
      · rw [if_neg heq, or_iff_left fun hsame => heq hsame.1.symm]
  | pip _ hrun ih =>
    obtain rfl := Edit.run_addPip_eq_ok_iff.mp hrun
    exact ih

end WiringRun

end Fabric
