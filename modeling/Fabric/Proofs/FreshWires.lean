import Fabric.Proofs.WiringRun
import Mathlib.Data.List.Perm.Subperm

/-!
# Fresh wires

A call for a wire under a new name searches the synthetic nodes of its tile for one that is no wire.
There are 131072 of them, numbered by their types and, within a type, by their indices; each is the
node of one number, so a tile with fewer wires among them has one to spare, and the search finds the
first. Whatever else has put wires into the tile, the answer is new there, and the call makes this
wire and nothing more: all other wires, their neighbours and their names are as they were.

## Main results

* `WireGraph.exists_freeNode?`: a tile with room has a free node;
* `Device.addsWire_insertWire`: what a device is once a free node is made a wire;
* `WiringRun.addWire_fresh`: a call in a run of wiring calls finds a wire or makes a fresh one.
-/

namespace Fabric

open Device (syntheticNode syntheticCount)

/-! ### Numbers of synthetic nodes -/

namespace Node

/-- The number of a synthetic node in its tile. -/
def syntheticNumber (w : Node) : Nat := (w.kind - syntheticBase) * indexCount + w.z

variable {w : Node}

/-- The number of a synthetic wire is below the count of them. -/
theorem syntheticNumber_lt (w : Node) : w.syntheticNumber < syntheticCount := by
  have hk : w.kind < 256 := w.kind_lt
  have hz : w.z < 1024 := w.z_lt
  show (w.kind - 128) * 1024 + w.z < (256 - 128) * 1024
  omega

/-- A synthetic node is the node of its number. -/
theorem syntheticNode_syntheticNumber (hw : syntheticBase ≤ w.kind) :
    syntheticNode w.x w.y w.syntheticNumber = w := by
  have hw' : 128 ≤ w.kind := hw
  have hz : w.z < 1024 := w.z_lt
  have hdiv : syntheticBase + w.syntheticNumber / indexCount = w.kind := by
    show 128 + ((w.kind - 128) * 1024 + w.z) / 1024 = w.kind
    omega
  have hmod : w.syntheticNumber % indexCount = w.z := by
    show ((w.kind - 128) * 1024 + w.z) % 1024 = w.z
    omega
  refine eq_of_parts ?_ ?_ ?_ ?_
  · rw [Device.kind_syntheticNode w.x_lt w.y_lt w.syntheticNumber_lt, hdiv]
  · rw [syntheticNode, x_pack _ w.x_lt w.y_lt]
  · rw [syntheticNode, y_pack _ w.y_lt]
  · rw [syntheticNode, z_pack, hmod]

end Node

namespace WireGraph

variable {g : WireGraph} {x y : Nat} {w : Wire}

/-- The wires of a tile that are on synthetic nodes. -/
def syntheticAt (g : WireGraph) (x y : Nat) : List Wire :=
  g.wires.filter fun w => w.x = x ∧ w.y = y ∧ Node.syntheticBase ≤ w.kind

/-- A wire is on the first synthetic node of a tile that is no wire of a graph: first by its type,
then by its index. -/
structure IsFirstFree (g : WireGraph) (x y : Nat) (w : Wire) : Prop where
  notMem : w ∉ g.wires
  x_eq : w.x = x
  y_eq : w.y = y
  kind_ge : Node.syntheticBase ≤ w.kind
  least : ∀ v ∉ g.wires, v.x = x → v.y = y → Node.syntheticBase ≤ v.kind →
    w.kind < v.kind ∨ w.kind = v.kind ∧ w.z ≤ v.z

/-- The free node found is the first one that no wire has. -/
theorem isFirstFree_of_freeNode? (hr : InRange x y) (h : Device.freeNode? g x y = some w) :
    g.IsFirstFree x y w := by
  obtain ⟨n, hn, rfl, hfree, hmade⟩ := Device.freeNode?_eq_some_iff.mp h
  have hkind := Device.kind_syntheticNode hr.x_lt hr.y_lt hn
  refine ⟨hfree, Node.x_pack n hr.x_lt hr.y_lt, Node.y_pack n hr.y_lt, ?_, ?_⟩
  · rw [hkind]
    exact Nat.le_add_right _ _
  · rintro v hv rfl rfl hk
    have hle : n ≤ v.syntheticNumber := by
      by_contra hlt
      refine hv ?_
      rw [← Node.syntheticNode_syntheticNumber hk]
      exact hmade _ (Nat.not_le.mp hlt)
    have hz : v.z < 1024 := v.z_lt
    have hk : 128 ≤ v.kind := hk
    have hle : n ≤ (v.kind - 128) * 1024 + v.z := hle
    rw [hkind, syntheticNode, Node.z_pack]
    show 128 + n / 1024 < v.kind ∨ 128 + n / 1024 = v.kind ∧ n % 1024 ≤ v.z
    omega

/-- A tile on which every synthetic node is a wire has as many of them as there are numbers. -/
theorem syntheticCount_le (hr : InRange x y)
    (h : ∀ n < syntheticCount, syntheticNode x y n ∈ g.wires) :
    syntheticCount ≤ (g.syntheticAt x y).length := by
  have hnodup : ((List.range syntheticCount).map (syntheticNode x y)).Nodup := by
    refine List.Nodup.map_on (fun n hn n' hn' heq => ?_) List.nodup_range
    rw [List.mem_range] at hn hn'
    exact (Device.syntheticNode_inj hr.x_lt hr.y_lt hn hr.x_lt hr.y_lt hn' heq).2.2
  have hsub : (List.range syntheticCount).map (syntheticNode x y) ⊆ g.syntheticAt x y := by
    intro w hw
    obtain ⟨n, hn, rfl⟩ := List.mem_map.mp hw
    rw [List.mem_range] at hn
    refine List.mem_filter.mpr ⟨h n hn, decide_eq_true ⟨?_, ?_, ?_⟩⟩
    · exact Node.x_pack n hr.x_lt hr.y_lt
    · exact Node.y_pack n hr.y_lt
    · rw [Device.kind_syntheticNode hr.x_lt hr.y_lt hn]
      exact Nat.le_add_right _ _
  have hlength := (List.subperm_of_subset hnodup hsub).length_le
  rwa [List.length_map, List.length_range] at hlength

/-- A tile with fewer wires on synthetic nodes has a node for another one. -/
theorem exists_freeNode? (hr : InRange x y) (h : (g.syntheticAt x y).length < syntheticCount) :
    ∃ w, Device.freeNode? g x y = some w := by
  by_contra hnone
  refine Nat.not_lt.mpr (syntheticCount_le hr fun n hn => ?_) h
  by_contra hfree
  exact hnone (Device.exists_freeNode?_of_notMem hn hfree)

/-- Making a wire records its name and its flags, and touches no other wire. -/
theorem get?_create (g : WireGraph) (w u : Wire) (name : Ident) (flags : UInt64) :
    (g.create w name flags).get? u =
      if w = u then some { g.infoOf w with name := name, flags := flags } else g.get? u :=
  g.get?_update w u _

end WireGraph

/-! ### Making a fresh wire -/

/-- A wire was made under a name on the first free synthetic node of a tile, with these flags and
with nothing that drives it, that it drives or that is on it. All other wires and all other names
are as they were, and so is everything else. -/
structure Device.AddsWire (d : Device) (x y : Nat) (name : Ident) (flags : UInt64) (w : Wire)
    (d' : Device) :
    Prop extends d.wires.IsFirstFree x y w where
  wires : d'.wires.wires = d.wires.wires ++ [w]
  info : d'.wires.get? w = some { name := name, flags := flags }
  others : ∀ v ≠ w, d'.wires.get? v = d.wires.get? v
  otherNames : ∀ v ≠ w, d'.wireName v = d.wireName v
  found : d'.wireNamed? (wirePath x y name) = some w
  foundElse : ∀ l ≠ wirePath x y name, d'.wireNamed? l = d.wireNamed? l
  rest : d' = { d with wires := d'.wires, created := d'.created }

namespace Device

variable {d d' : Device} {x y : Nat} {name : Ident} {flags : UInt64} {v w : Wire}

/-- The name of a wire depends on its record. -/
theorem wireName_congr (h : d'.wires.get? v = d.wires.get? v) : d'.wireName v = d.wireName v := by
  rw [wireName, h, wireName]

/-- A new synthetic wire is found under the name that it is made under, and under no other. -/
theorem wireNamed?_insertWire (hc : d.chip.Fits) (hw : Node.syntheticBase ≤ w.kind) {l : Path}
    (hl : l ≠ wirePath x y name) :
    (d.insertWire x y name flags w).wireNamed? l = d.wireNamed? l := by
  unfold wireNamed?
  split
  · rename_i type a b last
    refine congrArg₂ Option.or ?_ ?_
    · split
      · rename_i htype
        refine Option.bind_congr fun x' hx => Option.bind_congr fun y' hy => ?_
        obtain ⟨-, rfl⟩ := (Known.numeral?_eq_some_iff _ _).mp hx
        obtain ⟨-, rfl⟩ := (Known.numeral?_eq_some_iff _ _).mp hy
        rw [getElem?_created_insertWire, if_neg]
        rintro ⟨⟩
        exact hl (htype ▸ rfl)
      · rfl
    · -- a wire of the chip is another one
      refine Option.bind_congr fun kind hkind => Option.bind_congr fun x' _ =>
        Option.bind_congr fun y' _ =>
        Option.bind_congr fun z _ => ?_
      obtain ⟨hk, -⟩ := (Known.nodeType?_eq_some_iff _ _).mp hkind
      refine ite_congr rfl (fun ht => ?_) fun _ => rfl
      have hr := hc.inRange (Chip.contains_iff.mp ht)
      have hkind : (Node.pack kind x' y' z).kind < Node.syntheticBase :=
        kind_pack_lt z hr (Nat.lt_trans hk (by decide))
      have hne : w ≠ .pack kind x' y' z := by
        rintro rfl
        exact Nat.not_le.mpr hkind hw
      have hsame : (d.insertWire x y name flags w).wires.contains (.pack kind x' y' z) =
          d.wires.contains (.pack kind x' y' z) := by
        rw [WireGraph.contains_eq_isSome, WireGraph.contains_eq_isSome]
        exact congrArg Option.isSome ((d.wires.get?_create w _ name flags).trans (if_neg hne))
      simp only [hsame]
  · rfl

/-- The first free node of a tile becomes a wire, and nothing else happens. -/
theorem addsWire_insertWire (hc : d.chip.Fits) (hr : InRange x y)
    (hfree : freeNode? d.wires x y = some w) :
    d.AddsWire x y name flags w (d.insertWire x y name flags w) := by
  have hfirst := WireGraph.isFirstFree_of_freeNode? hr hfree
  have hget (v : Wire) (hv : v ≠ w) :
      (d.insertWire x y name flags w).wires.get? v = d.wires.get? v :=
    (d.wires.get?_create w v name flags).trans (if_neg hv.symm)
  refine ⟨hfirst, ?_, ?_, hget, fun v hv => wireName_congr (hget v hv), ?_, ?_, rfl⟩
  · refine (d.wires.wires_update w _).trans ?_
    rw [WireGraph.insertLast, if_neg hfirst.notMem]
  · refine (d.wires.get?_create w w name flags).trans ?_
    rw [if_pos rfl, WireGraph.infoOf_of_notMem hfirst.notMem]
  · obtain ⟨hx, hy⟩ := hr.lt_numeralCount
    rw [wireNamed?_wirePath hx hy, getElem?_created_insertWire, if_pos rfl]
  · exact fun l hl => wireNamed?_insertWire hc hfirst.kind_ge hl

end Device

/-! ### Room on a built device -/

namespace WireGraph

variable {g : WireGraph} {x y : Nat}

/-- A pip puts at most its two ends into a tile. -/
theorem length_syntheticAt_addPip (src dst : Wire) :
    ((g.addPip src dst).syntheticAt x y).length ≤ (g.syntheticAt x y).length + 2 := by
  have hlast (p : Wire → Bool) (l : List Wire) (w : Wire) :
      ((insertLast l w).filter p).length ≤ (l.filter p).length + 1 := by
    rw [insertLast]
    split
    · exact Nat.le_succ _
    · rw [List.filter_append, List.length_append]
      exact Nat.add_le_add_left (List.length_filter_le _ _) _
  rw [syntheticAt, wires_addPip]
  exact Nat.le_trans (hlast _ _ dst) (Nat.succ_le_succ (hlast _ _ src))

end WireGraph

namespace IsBuiltBy

variable {c : Chip} {d : Device} {x y : Nat}

/-- A build makes wires of the first synthetic type only. -/
theorem length_syntheticAt_le (hc : c.Fits) (h : IsBuiltBy c c.script d) :
    (d.wires.syntheticAt x y).length ≤ Node.indexCount := by
  have hsub : d.wires.syntheticAt x y ⊆ (List.range Node.indexCount).map (syntheticNode x y) := by
    intro w hw
    obtain ⟨hmem, hat⟩ := List.mem_filter.mp hw
    obtain ⟨rfl, rfl, hk⟩ := of_decide_eq_true hat
    rcases h.hasWire hmem with hmakes | hnode
    · obtain ⟨x, y, n, name, hmade, rfl⟩ := hmakes.exists_hasMade
      obtain ⟨hr, hn, -⟩ := hmade.spec hc
      rw [syntheticNode, Node.x_pack n hr.x_lt hr.y_lt, Node.y_pack n hr.y_lt]
      exact List.mem_map.mpr ⟨n, List.mem_range.mpr hn, rfl⟩
    · exact absurd (hnode.kind_lt hc) (Nat.not_lt.mpr hk)
  have hlength := (List.subperm_of_subset (d.wires.nodup_wires.filter _) hsub).length_le
  rwa [List.length_map, List.length_range] at hlength

/-- A name that no block gives to a wire leads to none. -/
theorem wireNamed?_eq_none (h : IsBuiltBy c c.script d) {name : Ident} {s : String}
    (hname : d.interner.name? name = some s) (hs : ∀ block, s ∉ wireNames block)
    (hx : x < Known.numeralCount) (hy : y < Known.numeralCount) :
    d.wireNamed? (wirePath x y name) = none := by
  rw [Device.wireNamed?_wirePath hx hy, Option.eq_none_iff_forall_ne_some]
  intro w hw
  obtain ⟨selection, hbuilds⟩ := h.builds
  obtain ⟨n, s', hstep, -, hname'⟩ := hbuilds.of_created rfl hw
  obtain rfl := Option.some.inj (hname.symm.trans hname')
  obtain ⟨block, -, hget⟩ := Chip.hasMade_iff.mpr hstep
  exact hs block (List.mem_of_getElem? hget)

end IsBuiltBy

namespace WiringRun

variable {selection : Selection} {d₀ d : Device} {answers : List WireAnswer} {x y : Nat}

/-- In every run of wiring calls on a built device, a call for a wire is answered by the wire made
under that name before, and changes nothing; if there is none it makes one, on the first free
synthetic node of the tile, as long as fewer than 131072 wires are on such nodes. -/
theorem addWire_fresh (hbuilt : Device.ofSelection selection = .ok d₀) (h : WiringRun d₀ answers d)
    (hr : InRange x y) (name : Ident) (flags : UInt64) :
    (∀ w, MadeUnder d₀ answers x y name w → (Edit.addWire x y name flags).run d = (.ok w, d)) ∧
    ((∀ w, ¬ MadeUnder d₀ answers x y name w) → (d.wires.syntheticAt x y).length < 131072 →
      ∃ w d', (Edit.addWire x y name flags).run d = (.ok w, d') ∧
      d.AddsWire x y name flags w d') := by
  have hxy := hr.lt_numeralCount
  obtain ⟨c, hc, hd₀⟩ := Device.isBuilt_of_ofSelection hbuilt
  have hchip : d.chip.Fits := by
    rw [h.chip, hd₀.chip]
    exact hc
  have hfound (w : Wire) : d.created[(x, y, name)]? = some w ↔ MadeUnder d₀ answers x y name w := by
    rw [← h.wireNamed?_eq_some_iff hxy.1 hxy.2, Device.wireNamed?_wirePath hxy.1 hxy.2]
  refine ⟨fun w hw => ?_, fun hnew hroom => ?_⟩
  · exact Edit.run_addWire_eq_ok_iff.mpr ⟨hxy, .inl ⟨(hfound w).mpr hw, rfl⟩⟩
  · have hnone : d.created[(x, y, name)]? = none :=
      Option.eq_none_iff_forall_ne_some.mpr fun w hw => hnew w ((hfound w).mp hw)
    obtain ⟨w, hfree⟩ := WireGraph.exists_freeNode? hr hroom
    exact ⟨w, _, Edit.run_addWire_eq_ok_iff.mpr ⟨hxy, .inr ⟨hnone, hfree, rfl⟩⟩,
      Device.addsWire_insertWire hchip hr hfree⟩

/-- Where a pip has put two wires into the synthetic space of a tile, a wire is made beside them;
and it is the answer to the next call, whatever the flags. -/
theorem addWire_fresh_besidePip : ∃ d₀ d w d', Device.ofSelection (.ofGrid 3 2) = .ok d₀ ∧
    WiringRun d₀ [] d ∧ (∀ w, ¬ MadeUnder d₀ [] 1 1 Known.a w) ∧
    (d.wires.syntheticAt 1 1).length < 131072 ∧ (Edit.addWire 1 1 Known.a 7).run d = (.ok w, d') ∧
    d.AddsWire 1 1 Known.a 7 w d' ∧ WiringRun d₀ [⟨1, 1, Known.a, w⟩] d' ∧
    (Edit.addWire 1 1 Known.a 0).run d' = (.ok w, d') := by
  have hc := Selection.fits_chip Device.chip_smallestGrid
  have hr : InRange 1 1 := ⟨by decide, by decide⟩
  obtain ⟨d₀, hd₀, hbuilt⟩ := Device.exists_isBuiltBy Device.chip_smallestGrid
  have hrun : WiringRun d₀ [] _ :=
    .pip .start
      ((@Edit.run_addPip_eq_ok_iff (syntheticNode 1 1 1023) (syntheticNode 1 1 1024) d₀ _).mpr rfl)
  have hnew (w : Wire) : ¬ MadeUnder d₀ [] 1 1 Known.a w := by
    rintro (hbefore | hcall)
    · have hname : d₀.interner.name? Known.a = some "A" :=
        hbuilt.name?_known (Known.name?_interner 1)
      have hs (block : BlockKind) : "A" ∉ wireNames block := by cases block <;> decide +kernel
      rw [hbuilt.wireNamed?_eq_none hname hs (by decide) (by decide)] at hbefore
      cases hbefore
    · cases hcall
  have hroom :
      ((d₀.wires.addPip (syntheticNode 1 1 1023) (syntheticNode 1 1 1024)).syntheticAt 1 1).length
      < 131072 :=
    Nat.lt_of_le_of_lt (WireGraph.length_syntheticAt_addPip _ _)
      (Nat.lt_of_le_of_lt (Nat.add_le_add_right (hbuilt.length_syntheticAt_le hc) 2) (by decide))
  obtain ⟨w, d', hcall, hadds⟩ := (addWire_fresh hd₀ hrun hr Known.a 7).2 hnew hroom
  have hrun' := hrun.wire hcall
  exact ⟨d₀, _, w, d', hd₀, hrun, hnew, hroom, hcall, hadds, hrun',
    (addWire_fresh hd₀ hrun' hr Known.a 0).1 w (.inr List.mem_cons_self)⟩

end WiringRun

end Fabric
