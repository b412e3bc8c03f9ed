import Fabric.Proofs.WiringRun

/-!
# Names of wires made later

A wire is found under the name that it was made under, whatever the tile. What it reports as its
name is put together again from its node and its data: a node has seven bits for a column and as
many for a row, and bits that do not fit run into the fields above; and an empty name marks the
wires of the chip. So a wire reports its own name if and only if the tile fits a node and the name
is not empty. A row keeps its low seven bits otherwise, and a column has those of the row above them
mixed in.

## Main results

* `WiringRun.namesMade`: in a run, what is found under a name is a wire whose data tell that name;
* `WiringRun.createdName`: what the wires that answered the calls of a run report;
* `WiringRun.createdName_folded`: a wire that reports the name of another tile.
-/

namespace Fabric

open Device (syntheticNode syntheticCount)

/-- A wire was made under a name in a tile: it is a wire on a synthetic node made for the tile, and
its data tell the name. -/
structure Device.MadeAs (d : Device) (x y : Nat) (name : Ident) (w : Wire) : Prop where
  mem : w ∈ d.wires.wires
  name_eq : (d.wires.infoOf w).name = name
  exists_number : ∃ n < syntheticCount, w = syntheticNode x y n

/-- What is found under a name was made under it. -/
def Device.NamesMade (d : Device) : Prop :=
  ∀ ⦃x y : Nat⦄ ⦃name : Ident⦄ ⦃w : Wire⦄, d.created[(x, y, name)]? = some w → d.MadeAs x y name w

namespace Device

variable {d : Device} {x y : Nat} {name : Ident} {w : Wire}

/-- The name that a made wire reports. -/
theorem MadeAs.wireName (h : d.MadeAs x y name w) : d.wireName w =
    if name = .empty then .error (.wireNotFound w)
    else .ok (wirePath ((x ||| y >>> 7) % 128) (y % 128) name) := by
  obtain ⟨hmem, rfl, n, hn, rfl⟩ := h
  split
  · rename_i hempty
    have hbase : Known.nodeTypeNames.length ≤ Node.syntheticBase := by decide
    have hkind : ¬ (syntheticNode x y n).kind < Known.nodeTypeNames.length :=
      Nat.not_lt.mpr (Nat.le_trans (Nat.le_add_right_of_le hbase) (le_kind_syntheticNode x y hn))
    obtain ⟨info, hget, hinfo⟩ := exists_info hmem
    rw [hinfo] at hempty
    simp only [Device.wireName, hget, hempty, if_neg hkind]
    rfl
  · rename_i hne
    rw [wireName_of_name hmem hne, syntheticNode, Node.x_pack_eq, Node.y_pack_eq]
    rfl

/-- A built device has the wires of its blocks under their names. -/
theorem namesMade_of_ofSelection {selection : Selection} (h : ofSelection selection = .ok d) :
    d.NamesMade := by
  intro x y name w hw
  obtain ⟨c, hc, hbuilt⟩ := isBuiltBy_of_ofSelection h
  obtain ⟨selection', hbuilds⟩ := hbuilt.builds
  obtain ⟨n, s, hstep, rfl, hname⟩ := hbuilds.of_created rfl hw
  have hmade := Chip.hasMade_iff.mpr hstep
  have hn : n < Node.indexCount := (hmade.spec (Selection.fits_chip hc)).2.1
  obtain ⟨name', hname', hinfo, -⟩ := hbuilds.named hstep
  obtain rfl := Interner.eq_of_name? hname hname'
  exact ⟨(hbuilt.made_spec (Selection.fits_chip hc) hmade hname).1, hinfo, n,
    Nat.lt_trans hn (by decide), rfl⟩

/-- A new wire is made under its name, and leaves the others theirs. -/
theorem NamesMade.insertWire (h : d.NamesMade) {flags : UInt64}
    (hfree : freeNode? d.wires x y = some w) :
    (d.insertWire x y name flags w).NamesMade := by
  obtain ⟨n, hn, hnode, hnew, -⟩ := freeNode?_eq_some_iff.mp hfree
  intro x' y' name' w' hw'
  rw [getElem?_created_insertWire] at hw'
  split at hw'
  · rename_i heq
    obtain ⟨rfl, rfl, rfl⟩ := heq
    obtain rfl := Option.some.inj hw'
    refine ⟨WireGraph.mem_wires_update.mpr (.inr rfl), ?_, n, hn, hnode⟩
    exact congrArg WireInfo.name ((WireGraph.infoOf_update ..).trans (if_pos rfl))
  · obtain ⟨hmem, hname, hnumber⟩ := h hw'
    have hne : w ≠ w' := by
      rintro rfl
      exact hnew hmem
    refine ⟨WireGraph.mem_wires_update.mpr (.inl hmem), ?_, hnumber⟩
    exact (congrArg WireInfo.name ((WireGraph.infoOf_update ..).trans (if_neg hne))).trans hname

/-- A pip names no wire. -/
theorem NamesMade.addPip (h : d.NamesMade) (src dst : Wire) :
    ({ d with wires := d.wires.addPip src dst } : Device).NamesMade := by
  intro x y name w hw
  obtain ⟨hmem, hname, hnumber⟩ := h hw
  refine ⟨WireGraph.mem_wires_update.mpr (.inl (WireGraph.mem_wires_update.mpr (.inl hmem))), ?_,
    hnumber⟩
  rw [WireGraph.infoOf_addPip]
  exact hname

end Device

/-! ### Names in a run -/

/-- The tile of a call fits a node, and its name is not the one that marks the wires of the chip. -/
structure WireAnswer.Fits (a : WireAnswer) : Prop extends InRange a.x a.y where
  name_ne : a.name ≠ .empty

/-- A tile reads back from a node if and only if it fits. -/
theorem folded_eq_iff {x y : Nat} : ((x ||| y >>> 7) % 128 = x ∧ y % 128 = y) ↔ InRange x y := by
  constructor
  · rintro ⟨hx, hy⟩
    exact ⟨hx ▸ Nat.mod_lt _ (by decide), hy ▸ Nat.mod_lt _ (by decide)⟩
  · rintro ⟨hx, hy⟩
    rw [Nat.shiftRight_eq_zero y 7 hy, Nat.or_zero]
    exact ⟨Nat.mod_eq_of_lt hx, Nat.mod_eq_of_lt hy⟩

namespace WiringRun

variable {selection : Selection} {d₀ d : Device} {answers : List WireAnswer} {a : WireAnswer}

/-- In a run of wiring calls on a built device, what is found under a name was made under it. -/
theorem namesMade (hbuilt : Device.ofSelection selection = .ok d₀) (h : WiringRun d₀ answers d) :
    d.NamesMade := by
  induction h with
  | start => exact Device.namesMade_of_ofSelection hbuilt
  | wire _ hrun ih =>
    obtain ⟨-, ⟨-, rfl⟩ | ⟨-, hfree, rfl⟩⟩ := Edit.run_addWire_eq_ok_iff.mp hrun
    · exact ih
    · exact ih.insertWire hfree
  | pip _ hrun ih =>
    obtain rfl := Edit.run_addPip_eq_ok_iff.mp hrun
    exact ih.addPip _ _

/-- The calls that were answered were about tiles that have numerals. -/
theorem lt_numeralCount (h : WiringRun d₀ answers d) (ha : a ∈ answers) :
    a.x < Known.numeralCount ∧ a.y < Known.numeralCount := by
  induction h with
  | start => cases ha
  | wire _ hrun ih =>
    rcases List.mem_cons.mp ha with rfl | ha
    · exact (Edit.run_addWire_eq_ok_iff.mp hrun).1
    · exact ih ha
  | pip _ _ ih => exact ih ha

/-- The wires that answered the calls of a run were made under the names that the calls gave. -/
theorem madeAs (hbuilt : Device.ofSelection selection = .ok d₀) (h : WiringRun d₀ answers d)
    (ha : a ∈ answers) : d.wireNamed? a.path = some a.wire ∧ d.MadeAs a.x a.y a.name a.wire := by
  obtain ⟨hx, hy⟩ := h.lt_numeralCount ha
  have hnamed : d.wireNamed? a.path = some a.wire := (h.wireNamed?_eq_some_iff hx hy).mpr (.inr ha)
  exact ⟨hnamed, h.namesMade hbuilt ((Device.wireNamed?_wirePath hx hy).symm.trans hnamed)⟩

/-- A wire that answers a call is found under the name of the call from then on. It reports
that name if and only if the call fits. Otherwise it reports none, if the name is empty, or
that name with another tile. So wires made by calls that fit never report the same name, unless
the calls were about one. -/
theorem createdName (hbuilt : Device.ofSelection selection = .ok d₀) (h : WiringRun d₀ answers d)
    (ha : a ∈ answers) : d.wireNamed? a.path = some a.wire ∧
      d.wireName a.wire = (if a.name = .empty then .error (.wireNotFound a.wire)
        else .ok (wirePath ((a.x ||| a.y >>> 7) % 128) (a.y % 128) a.name)) ∧
      (d.wireName a.wire = .ok a.path ↔ a.Fits) ∧
      ∀ b ∈ answers, a.Fits → b.Fits → b.path ≠ a.path → d.wireName b.wire ≠ d.wireName a.wire := by
  have hreports {b : WireAnswer} (hb : b ∈ answers) : d.wireName b.wire = .ok b.path ↔ b.Fits := by
    rw [(h.madeAs hbuilt hb).2.wireName]
    split
    · rename_i hempty
      exact iff_of_false nofun fun hfits => hfits.name_ne hempty
    · rename_i hne
      rw [Except.ok.injEq, WireAnswer.path, wirePath_inj, ← and_assoc, and_iff_left rfl,
        folded_eq_iff]
      exact ⟨fun hr => ⟨hr, hne⟩, fun hfits => hfits.toInRange⟩
  obtain ⟨hnamed, hmade⟩ := h.madeAs hbuilt ha
  refine ⟨hnamed, hmade.wireName, hreports ha, fun b hb hfits hfits' hne => ?_⟩
  rw [(hreports ha).mpr hfits, (hreports hb).mpr hfits']
  exact fun heq => hne (Except.ok.inj heq)

end WiringRun

/-! ### Calls on a built device -/

/-- The last synthetic type is free on a built device, so every call for a wire is answered. -/
theorem IsBuiltBy.exists_run_addWire {c : Chip} {d : Device} (hc : c.Fits)
    (h : IsBuiltBy c c.script d) {x y : Nat} (hx : x < Known.numeralCount)
    (hy : y < Known.numeralCount) (name : Ident)
    (flags : UInt64) : ∃ w d', (Edit.addWire x y name flags).run d = (.ok w, d') := by
  have hlast : 127 * Node.indexCount < syntheticCount := by decide
  have hfree : syntheticNode x y (127 * Node.indexCount) ∉ d.wires.wires := by
    intro hmem
    have hkind : 255 ≤ (syntheticNode x y (127 * Node.indexCount)).kind :=
      Device.le_kind_syntheticNode x y hlast
    refine Nat.not_lt.mpr hkind (Nat.lt_of_le_of_lt (m := 128) ?_ (by decide))
    rcases h.hasWire hmem with hmakes | hnode
    · obtain ⟨x', y', n, name', hmade, hnode⟩ := hmakes.exists_hasMade
      obtain ⟨hr, hn, -⟩ := hmade.spec hc
      rw [hnode]
      exact Nat.le_of_eq (congrArg Prod.fst (Chip.key_syntheticNode hr hn))
    · exact Nat.le_of_lt (hnode.kind_lt hc)
  cases hcreated : d.created[(x, y, name)]? with
  | some w => exact ⟨w, d, Edit.run_addWire_eq_ok_iff.mpr ⟨⟨hx, hy⟩, .inl ⟨hcreated, rfl⟩⟩⟩
  | none =>
    obtain ⟨w, hw⟩ := Device.exists_freeNode?_of_notMem hlast hfree
    exact ⟨w, _, Edit.run_addWire_eq_ok_iff.mpr ⟨⟨hx, hy⟩, .inr ⟨hcreated, hw, rfl⟩⟩⟩

/-- On the smallest grid, a wire made in a tile beyond the grid whose coordinates a
node has room for. -/
theorem WiringRun.createdName_lastTile : ∃ d₀ d w, Device.ofSelection (.ofGrid 3 2) = .ok d₀ ∧
    WiringRun d₀ [⟨127, 127, Known.a, w⟩] d ∧ d.wireNamed? (wirePath 127 127 Known.a) = some w ∧
    d.wireName w = .ok (wirePath 127 127 Known.a) := by
  obtain ⟨d₀, hd₀, hbuilt⟩ := Device.exists_isBuiltBy Device.chip_smallestGrid
  obtain ⟨w, d, hcall⟩ :=
    @IsBuiltBy.exists_run_addWire _ _ (Selection.fits_chip Device.chip_smallestGrid) hbuilt 127 127
      (by decide) (by decide) Known.a 0
  have hrun := WiringRun.start.wire hcall
  have hr : InRange 127 127 := ⟨by decide, by decide⟩
  have hne : Known.a ≠ .empty := by decide
  obtain ⟨hnamed, -, hreports, -⟩ := hrun.createdName hd₀ List.mem_cons_self
  exact ⟨d₀, d, w, hd₀, hrun, hnamed, hreports.mpr ⟨hr, hne⟩⟩

/-- A wire made under the name of column 128 reports the name of column 0. -/
theorem WiringRun.createdName_folded : ∃ d₀ d w, Device.ofSelection (.ofGrid 3 2) = .ok d₀ ∧
    (Edit.addWire 128 1 Known.a 0).run d₀ = (.ok w, d) ∧ d.wireName w = .ok (wirePath 0 1 Known.a) ∧
    d.wireName w ≠ .ok (wirePath 128 1 Known.a) := by
  obtain ⟨d₀, hd₀, hbuilt⟩ := Device.exists_isBuiltBy Device.chip_smallestGrid
  obtain ⟨w, d, hcall⟩ :=
    @IsBuiltBy.exists_run_addWire _ _ (Selection.fits_chip Device.chip_smallestGrid) hbuilt 128 1
      (by decide) (by decide) Known.a 0
  have hne : Known.a ≠ .empty := by decide
  have hmade : d.MadeAs 128 1 Known.a w :=
    ((WiringRun.start.wire hcall).madeAs hd₀ List.mem_cons_self).2
  have hname : d.wireName w = .ok (wirePath 0 1 Known.a) := hmade.wireName.trans (if_neg hne)
  refine ⟨d₀, d, w, hd₀, hcall, hname, ?_⟩
  rw [hname, Ne, Except.ok.injEq, wirePath_inj]
  decide

end Fabric
