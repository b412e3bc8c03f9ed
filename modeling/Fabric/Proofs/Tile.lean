import Fabric.Proofs.BuildRun
import Fabric.Proofs.Run
import Mathlib.Data.List.Nodup

/-!
# Tiles under construction

The blocks of a tile are instantiated step by step: a wire, its pips, a site, its pins. What a
tile holds in between is said by `TileState`: the wires made so far, each with its name and the
wires uphill of it, the number of sites, and the pins of the site made last. New wires take the
synthetic nodes of the tile in order, so the wire made after `n` others is node number `n`, and
no step touches another tile. `TileState` says besides by which script the tile came to hold this.

## Main results

* `answers_blockWire`, `answers_fedWire`: a new wire is the next node, and gets its uphill wires;
* `answers_addBel`, `answers_addBelPin`, `answers_modifySite`: a new site is the next one, and
  gets its pins;
* `answers_addPips_chip`: pips that end on a wire of the chip touch no tile.
-/

namespace Fabric

open Device (syntheticNode syntheticCount)

/-- A wire of a block: its name, and the wires uphill of it in the order of the pips. -/
structure BlockWire where
  name : String
  uphill : List Wire

/-- The steps that make node number `n` of a tile a wire of a block, with the pips to it. -/
def wireScript (x y n : Nat) (wire : BlockWire) : List BuildStep :=
  .wire x y n wire.name :: wire.uphill.map (.pip · (syntheticNode x y n))

/-- The steps that make wires of a block, from node number `n` on. -/
def wiresScript (x y n : Nat) (wires : List BlockWire) : List BuildStep :=
  (wires.zipIdx n).flatMap fun (wire, k) => wireScript x y k wire

/-- No wires need no script. -/
@[simp] theorem wiresScript_nil (x y n : Nat) : wiresScript x y n [] = [] := rfl

/-- The script of a list of wires starts with that of its head. -/
@[simp] theorem wiresScript_cons (x y n : Nat) (wire : BlockWire) (wires : List BlockWire) :
    wiresScript x y n (wire :: wires) = wireScript x y n wire ++ wiresScript x y (n + 1) wires := by
  rw [wiresScript, List.zipIdx_cons, List.flatMap_cons, wiresScript]

/-- The steps for one more wire of a plan. -/
theorem wiresScript_take_succ {plan : List BlockWire} {n : Nat} {wire : BlockWire} (x y : Nat)
    (h : plan[n]? = some wire) : wiresScript x y 0 (plan.take (n + 1)) =
      wiresScript x y 0 (plan.take n) ++ wireScript x y n wire := by
  have hlt := (List.getElem?_eq_some_iff.mp h).1
  rw [List.take_add_one, h, wiresScript, List.zipIdx_append, List.flatMap_append, ← wiresScript,
    List.length_take, Nat.min_eq_left (Nat.le_of_lt hlt), Nat.zero_add]
  simp

/-- A site of a block: its name and type, its pins in order, the part of the block that it stands
for, and its place among the LABs. -/
structure BlockSite where
  name : String
  type : Ident
  pins : List (Ident × SitePin)
  part : Nat
  place : Option LabPlace := none

/-- The steps that make site number `n` of a tile a site of a block. -/
def siteScript (x y n : Nat) (site : BlockSite) : List BuildStep :=
  .site x y n site.name site.type
    :: site.pins.map (fun (name, pin) => .pin (siteNumber x y n) name pin)
    ++ [.place (siteNumber x y n) site.part site.place]

/-- The steps that make the pips of multiplexers. -/
def muxesScript (muxes : List Mux) : List BuildStep :=
  muxes.flatMap fun mux => mux.sources.map (.pip · mux.dst)

/-- A tile with coordinates that handles have room for. -/
structure InRange (x y : Nat) : Prop where
  x_lt : x < coordinateCount
  y_lt : y < coordinateCount

/-- A tile that holds a block. -/
structure IsTile (c : Chip) (x y : Nat) (block : BlockKind) : Prop extends InRange x y where
  blockAt : c.blockAt x y = some block

/-- A tile with a block is on the chip. -/
theorem Chip.contains_of_blockAt {c : Chip} {x y : Nat} {block : BlockKind}
    (hblock : c.blockAt x y = some block) : c.contains x y = true := by
  rw [blockAt] at hblock
  split at hblock
  · cases hblock
  · rename_i hc
    simpa using hc

/-- A tile stands on the chip. -/
theorem IsTile.contains {c : Chip} {x y : Nat} {block : BlockKind} (h : IsTile c x y block) :
    c.contains x y = true :=
  Chip.contains_of_blockAt h.blockAt

/-! ### Lists read in order -/

/-- The names in front of a place of a list without repetitions are other names. -/
theorem not_mem_take_of_nodup {α : Type} {l : List α} (hl : l.Nodup) {k : Nat} {a : α}
    (ha : l[k]? = some a) : a ∉ l.take k := by
  obtain ⟨hk, rfl⟩ := List.getElem?_eq_some_iff.mp ha
  intro hmem
  obtain ⟨m, hm, heq⟩ := List.mem_take_iff_getElem.mp hmem
  have := (List.Nodup.getElem_inj_iff hl).mp heq
  omega

/-- The number at a position of a range is the position. -/
theorem eq_of_getElem?_range {n k i : Nat} (h : (List.range n)[k]? = some i) : k < n ∧ i = k := by
  obtain ⟨hk, rfl⟩ := List.getElem?_eq_some_iff.mp h
  simpa using hk

/-! ### Wires of a tile -/

/-- A wire of the chip, or one of the first `n` synthetic nodes of a tile. -/
def IsTileWire (x y n : Nat) (w : Wire) : Prop :=
  w.kind < Node.syntheticBase ∨ ∃ m < n, w = syntheticNode x y m

/-- A tile's wires stay its wires as more of them are made. -/
theorem IsTileWire.mono {x y n n' : Nat} {w : Wire} (h : IsTileWire x y n w) (hn : n ≤ n') :
    IsTileWire x y n' w :=
  h.imp_right fun ⟨m, hm, hw⟩ => ⟨m, by omega, hw⟩

/-- The synthetic wires made so far belong to the tile. -/
theorem isTileWire_syntheticNode {x y m n : Nat} (h : m < n) :
    IsTileWire x y n (syntheticNode x y m) :=
  .inr ⟨m, h, rfl⟩

/-- A numbered wire of the chip has a kind below the synthetic ones. -/
theorem kind_pack_lt {x y kind : Nat} (z : Nat) (hr : InRange x y)
    (hk : kind < Node.syntheticBase) : (Node.pack kind x y z).kind < Node.syntheticBase := by
  rw [Node.kind_pack z (Nat.lt_trans hk (by decide)) hr.x_lt hr.y_lt]
  exact hk

/-- The numbered wires of a place are never synthetic, whatever their kind. -/
theorem isTileWire_pack {x y n kind z : Nat} (hr : InRange x y) (hk : kind < Node.syntheticBase) :
    IsTileWire x y n (.pack kind x y z) :=
  .inl (kind_pack_lt z hr hk)

/-- A natural number is taken as an index exactly when it is below the limit. -/
theorem indexBelow?_natCast {limit n : Nat} (h : n < limit) :
    Chip.indexBelow? limit (n : Int) = some n :=
  if_pos h

namespace WireGraph

/-- Two graphs have the same synthetic wires, with the same wires uphill of them. -/
def SameSynthetic (g g' : WireGraph) : Prop :=
  ∀ ⦃x y n⦄, x < coordinateCount → y < coordinateCount → n < syntheticCount →
    g'.uphill? (syntheticNode x y n) = g.uphill? (syntheticNode x y n)

/-- A wire of the chip, or one that exists. -/
def Holds (g : WireGraph) (w : Wire) : Prop :=
  w.kind < Node.syntheticBase ∨ (g.uphill? w).isSome

/-- A synthetic wire that the graph holds is in the graph. -/
theorem Holds.isSome {g : WireGraph} {w : Wire} (h : g.Holds w) {x y n : Nat}
    (hx : x < coordinateCount) (hy : y < coordinateCount) (hn : n < syntheticCount)
    (hw : w = syntheticNode x y n) : (g.uphill? w).isSome :=
  h.resolve_left fun hchip => Device.ne_syntheticNode hx hy hn hchip hw

/-- Attaching a pin makes no synthetic wire beyond the one it is attached to. -/
theorem sameSynthetic_attach {g : WireGraph} {w : Wire} (h : g.Holds w) (pin : BelPin) :
    g.SameSynthetic (g.attach w pin) := by
  intro x y n hx hy hn
  rw [uphill?_attach]
  split
  · rename_i hw
    obtain ⟨l, hl⟩ := Option.isSome_iff_exists.mp (h.isSome hx hy hn hw)
    rw [← hw, hl, Option.getD_some]
  · rfl

/-- Joining wires the graph holds to a wire of the chip makes no synthetic wire. -/
theorem sameSynthetic_addPips {g : WireGraph} {sources : List Wire} {dst : Wire}
    (hdst : dst.kind < Node.syntheticBase) (hsrc : ∀ src ∈ sources, g.Holds src) :
    g.SameSynthetic (g.addPips sources dst) := fun _ _ _ hx hy hn =>
  uphill?_addPips_of_ne (Device.ne_syntheticNode hx hy hn hdst) fun hmem =>
    (hsrc _ hmem).isSome hx hy hn rfl

end WireGraph

namespace Device

/-! ### The next node of a tile -/

/-- The search for a free node stops at the first number that no wire has yet. -/
theorem freeNodeFrom?_eq {g : WireGraph} {x y n : Nat}
    (hmade : ∀ m < n, g.contains (syntheticNode x y m) = true)
    (hfree : g.contains (syntheticNode x y n) = false) (fuel k : Nat) (hk : k ≤ n)
    (hfuel : n < k + fuel) : freeNodeFrom? g x y fuel k = some (syntheticNode x y n) := by
  induction fuel generalizing k with
  | zero => omega
  | succ fuel ih =>
      rw [freeNodeFrom?]
      rcases Nat.lt_or_eq_of_le hk with hlt | rfl
      · rw [if_pos (hmade k hlt)]
        exact ih (k + 1) hlt (by omega)
      · rw [if_neg (by rw [hfree]; exact Bool.false_ne_true)]

/-- The first free node of a tile comes right after the nodes that are in use. -/
theorem freeNode?_eq {g : WireGraph} {x y n : Nat} (hn : n < syntheticCount)
    (hmade : ∀ m < n, g.contains (syntheticNode x y m) = true)
    (hfree : g.contains (syntheticNode x y n) = false) :
    freeNode? g x y = some (syntheticNode x y n) :=
  freeNodeFrom?_eq hmade hfree syntheticCount 0 (Nat.zero_le n) (by omega)

end Device

/-- A call for a wire finds the wire made under the name, or makes the first free node a wire. -/
theorem Edit.run_addWire {x y : Nat} (hx : x < Known.numeralCount) (hy : y < Known.numeralCount)
    (name : Ident) (flags : UInt64) (d : Device) : (Edit.addWire x y name flags).run d =
      match d.created[(x, y, name)]?, Device.freeNode? d.wires x y with
      | some w, _ => (.ok w, d)
      | none, some w => (.ok w, d.insertWire x y name flags w)
      | none, none => (.error (.misuse .noNode), d) := by
  rw [Edit.addWire]
  simp only [Nat.not_le.mpr hx, Nat.not_le.mpr hy, or_self, if_false]
  rw [run_get_bind]
  cases d.created[(x, y, name)]? with
  | some w => rfl
  | none =>
    simp only
    rw [run_get_bind]
    cases Device.freeNode? d.wires x y <;> rfl

/-! ### Stages -/

/-- One pip is a list of one. -/
theorem Edit.addPip_eq_addPips (src dst : Wire) : Edit.addPip src dst = Edit.addPips [src] dst := by
  rw [Edit.addPip, Edit.addPips]
  rfl

/-- Nothing has happened to a tile. -/
structure SameTile (d d' : Device) (x y : Nat) : Prop where
  uphill : ∀ n < syntheticCount,
    d'.wires.uphill? (syntheticNode x y n) = d.wires.uphill? (syntheticNode x y n)
  created : ∀ name : Ident, d'.created[(x, y, name)]? = d.created[(x, y, name)]?
  size : (d'.tile? x y).map Array.size = (d.tile? x y).map Array.size

/-- What tile `x`, `y` holds once the wires `made` and a number of sites are made in it, starting
from `d₀`. The pins are those of the last site, if any more can come. -/
structure TileState (d₀ : Device) (x y : Nat) (made : List BlockWire) (sites : Nat)
    (pins : Option (List Ident)) (d : Device) : Prop where
  chip : d.chip = d₀.chip
  labs : d.labs = d₀.labs
  uphill : ∀ n < syntheticCount,
    d.wires.uphill? (syntheticNode x y n) = (made[n]?).map BlockWire.uphill
  named : ∀ (name : Ident) (w : Wire), d.created[(x, y, name)]? = some w →
    ∃ wire ∈ made, d.interner.name? name = some wire.name
  tile : ∃ tile, d.tile? x y = some tile ∧ tile.size = sites
  lastSite : ∀ ps, pins = some ps →
    ∃ site, d.site? (siteNumber x y (sites - 1)) = some site ∧ site.pins.keys = ps
  elsewhere : ∀ x' y', (x', y') ≠ (x, y) → x' < coordinateCount → y' < coordinateCount →
    SameTile d₀ d x' y'

/-- The same, once it was made by a script. -/
structure TileStage (d₀ : Device) (x y : Nat) (made : List BlockWire) (sites : Nat)
    (pins : Option (List Ident)) (script : List BuildStep) (d : Device) : Prop
    extends TileState d₀ x y made sites pins d where
  builds : d₀.Builds script d

namespace TileState

variable {d₀ d : Device} {x y sites : Nat} {made : List BlockWire} {pins : Option (List Ident)}

/-- No more pins come to the last site. -/
theorem close (h : TileState d₀ x y made sites pins d) : TileState d₀ x y made sites none d :=
  { h with lastSite := fun _ hps => by cases hps }

/-- The wires of the chip and of the tile so far can be sources of pips. -/
theorem holds (h : TileState d₀ x y made sites pins d) (hmade : made.length ≤ syntheticCount)
    {w : Wire} (hw : IsTileWire x y made.length w) : d.wires.Holds w := by
  refine hw.imp_right ?_
  rintro ⟨m, hm, rfl⟩
  rw [h.uphill m (by omega), Option.isSome_map, List.getElem?_eq_getElem hm]
  rfl

/-- A change of the wires that no synthetic wire notices. -/
theorem of_sameSynthetic (h : TileState d₀ x y made sites pins d) (hr : InRange x y)
    {g : WireGraph} (hg : d.wires.SameSynthetic g) :
    TileState d₀ x y made sites pins { d with wires := g } :=
  { h with
    uphill := fun n hn => (hg hr.x_lt hr.y_lt hn).trans (h.uphill n hn)
    elsewhere := fun x' y' hne hx' hy' =>
      { h.elsewhere x' y' hne hx' hy' with
        uphill := fun n hn =>
          (hg hx' hy' hn).trans ((h.elsewhere x' y' hne hx' hy').uphill n hn) } }

/-- Putting strings into use changes nothing. -/
theorem intern (h : TileState d₀ x y made sites pins d) (s : String) :
    TileState d₀ x y made sites pins { d with interner := (d.interner.intern s).2 } :=
  { h with
    named := fun name w hw => by
      obtain ⟨wire, hwire, hname⟩ := h.named name w hw
      exact ⟨wire, hwire, Interner.name?_intern hname s⟩
    elsewhere := fun x' y' hne hx' hy' => { h.elsewhere x' y' hne hx' hy' with } }

/-- A string that names no wire of the tile so far is not the name of a created wire. -/
theorem created_eq_none (h : TileState d₀ x y made sites pins d) {name : Ident} {s : String}
    (hs : d.interner.name? name = some s) (hfresh : ∀ wire ∈ made, wire.name ≠ s) :
    d.created[(x, y, name)]? = none := by
  rw [Option.eq_none_iff_forall_ne_some]
  intro w hw
  obtain ⟨wire, hwire, hname⟩ := h.named name w hw
  exact hfresh wire hwire (Option.some.inj (hname.symm.trans hs))

/-- The synthetic wires of the tile are numbered without a gap from zero. -/
theorem contains_iff (h : TileState d₀ x y made sites pins d) {n : Nat} (hn : n < syntheticCount) :
    d.wires.contains (syntheticNode x y n) = decide (n < made.length) := by
  rw [WireGraph.contains_eq_isSome_uphill?, h.uphill n hn, Option.isSome_map]
  by_cases hlt : n < made.length
  · simp [hlt]
  · simp [hlt]

/-- A new wire of the tile, under a new name. -/
theorem insertWire (h : TileState d₀ x y made sites pins d) (hr : InRange x y)
    (hn : made.length < syntheticCount) {name : Ident} {s : String}
    (hs : d.interner.name? name = some s) :
    TileState d₀ x y (made ++ [⟨s, []⟩]) sites pins
      (d.insertWire x y name 0 (syntheticNode x y made.length)) := by
  have hnone : d.wires.uphill? (syntheticNode x y made.length) = none := by
    rw [h.uphill _ hn, List.getElem?_eq_none (Nat.le_refl _), Option.map_none]
  have hkeep {x' y' n : Nat} (hx' : x' < coordinateCount) (hy' : y' < coordinateCount)
      (hn' : n < syntheticCount) (hne : (x', y', n) ≠ (x, y, made.length)) :
      (d.insertWire x y name 0 (syntheticNode x y made.length)).wires.uphill?
        (syntheticNode x' y' n) = d.wires.uphill? (syntheticNode x' y' n) := by
    refine (WireGraph.uphill?_create ..).trans (if_neg fun heq => hne ?_)
    obtain ⟨rfl, rfl, rfl⟩ := Device.syntheticNode_inj hr.x_lt hr.y_lt hn hx' hy' hn' heq
    rfl
  have hcreated {x' y' : Nat} {name' : Ident} :
      (d.insertWire x y name 0 (syntheticNode x y made.length)).created[(x', y', name')]? =
        if (x, y, name) = (x', y', name') then some (syntheticNode x y made.length)
        else d.created[(x', y', name')]? := by
    simp only [Device.insertWire, Std.HashMap.getElem?_insert, beq_iff_eq]
  constructor
  case chip => exact h.chip
  case labs => exact h.labs
  case tile => exact h.tile
  case lastSite => exact h.lastSite
  case uphill =>
    intro n hn'
    -- Number `made.length` is the new wire, smaller ones were made before, larger ones are free.
    by_cases heq : n = made.length
    · subst heq
      refine (WireGraph.uphill?_create ..).trans ?_
      rw [if_pos rfl, hnone, List.getElem?_concat_length]
      rfl
    · rw [hkeep hr.x_lt hr.y_lt hn' (by simp [heq]), h.uphill n hn']
      rcases Nat.lt_or_gt_of_ne heq with hlt | hgt
      · rw [List.getElem?_append_left hlt]
      · rw [List.getElem?_eq_none (by omega), List.getElem?_eq_none (by simp; omega)]
  case named =>
    intro name' w hw
    rw [hcreated] at hw
    split at hw
    · rename_i heq
      simp only [Prod.mk.injEq, true_and] at heq
      subst heq
      exact ⟨_, List.mem_append_right made List.mem_cons_self, hs⟩
    · obtain ⟨wire, hwire, hname⟩ := h.named name' w hw
      exact ⟨wire, List.mem_append_left _ hwire, hname⟩
  case elsewhere =>
    intro x' y' hne hx' hy'
    have hsame := h.elsewhere x' y' hne hx' hy'
    constructor
    case uphill =>
      intro n hn'
      rw [hkeep hx' hy' hn' (by grind), hsame.uphill n hn']
    case created =>
      intro name'
      rw [hcreated, if_neg (by grind), hsame.created name']
    case size => exact hsame.size

/-- Pips into the wire made last. -/
theorem addPips {s : String} {l sources : List Wire} (hr : InRange x y)
    (hn : made.length < syntheticCount) (hsrc : ∀ src ∈ sources, IsTileWire x y made.length src)
    (h : TileState d₀ x y (made ++ [⟨s, l⟩]) sites pins d) :
    TileState d₀ x y (made ++ [⟨s, l ++ sources⟩]) sites pins
      { d with wires := d.wires.addPips sources (syntheticNode x y made.length) } := by
  have hlast : d.wires.uphill? (syntheticNode x y made.length) = some l := by
    rw [h.uphill _ hn, List.getElem?_concat_length]
    rfl
  have hkeep {x' y' n : Nat} (hx' : x' < coordinateCount) (hy' : y' < coordinateCount)
      (hn' : n < syntheticCount) (hne : (x', y', n) ≠ (x, y, made.length)) :
      (d.wires.addPips sources (syntheticNode x y made.length)).uphill? (syntheticNode x' y' n) =
        d.wires.uphill? (syntheticNode x' y' n) := by
    refine WireGraph.uphill?_addPips_of_ne (fun heq => hne ?_) fun hmem => ?_
    · obtain ⟨rfl, rfl, rfl⟩ := Device.syntheticNode_inj hr.x_lt hr.y_lt hn hx' hy' hn' heq
      rfl
    · have hlen : (made ++ [(⟨s, l⟩ : BlockWire)]).length = made.length + 1 := by simp
      exact (h.holds (by omega) ((hsrc _ hmem).mono (by omega))).isSome hx' hy' hn' rfl
  refine { h with uphill := fun n hn' => ?_, named := fun name w hw => ?_, elsewhere := ?_ }
  · rcases Nat.lt_trichotomy n made.length with hlt | rfl | hgt
    · rw [hkeep hr.x_lt hr.y_lt hn' (by grind), h.uphill n hn', List.getElem?_append_left hlt,
        List.getElem?_append_left hlt]
    · rw [WireGraph.uphill?_addPips_self hlast, List.getElem?_concat_length]
      rfl
    · rw [hkeep hr.x_lt hr.y_lt hn' (by grind), h.uphill n hn',
        List.getElem?_eq_none (by simp; omega), List.getElem?_eq_none (by simp; omega)]
  · obtain ⟨wire, hwire, hname⟩ := h.named name w hw
    rcases List.mem_append.mp hwire with hwire | hwire
    · exact ⟨wire, List.mem_append_left _ hwire, hname⟩
    · obtain rfl := List.mem_singleton.mp hwire
      exact ⟨_, List.mem_append_right made List.mem_cons_self, hname⟩
  · intro x' y' hne hx' hy'
    have hsame := h.elsewhere x' y' hne hx' hy'
    exact { hsame with
      uphill := fun n hn' => (hkeep hx' hy' hn' (by grind)).trans (hsame.uphill n hn') }

/-- A new site of the tile, without pins. -/
theorem addBel (h : TileState d₀ x y made sites pins d) (hr : InRange x y) (hn : sites < siteCount)
    {t : Nat} (hindex : d.tileIndex? x y = some t) {site : Site} (hpins : site.pins = [])
    (bels : Array BelId) :
    TileState d₀ x y made (sites + 1) (some [])
      { d with sites := d.sites.modify t (·.push site), bels := bels } := by
  obtain ⟨tile, htile, rfl⟩ := h.tile
  have htile' (x' y' : Nat) := Device.tile?_modify hindex (·.push site) x' y'
  refine { h with tile := ?_, lastSite := ?_, elsewhere := ?_ }
  · exact ⟨tile.push site, (htile' x y).trans (by simp [htile]), Array.size_push ..⟩
  · rintro _ ⟨rfl⟩
    refine ⟨site, ?_, by rw [hpins]; rfl⟩
    refine (Device.site?_siteNumber _ hr.x_lt hr.y_lt hn).trans ?_
    refine (congrArg (Option.bind · _) (htile' x y)).trans ?_
    simp [htile]
  · intro x' y' hne hx' hy'
    have hsame := h.elsewhere x' y' hne hx' hy'
    refine { hsame with size := (congrArg (Option.map Array.size) (htile' x' y')).trans ?_ }
    rw [if_neg (by grind), hsame.size]

/-- A change of the last site. -/
theorem modifySite {ps ps' : List Ident} (h : TileState d₀ x y made sites (some ps) d)
    {f : Site → Site} (hf : ∀ site, site.pins.keys = ps → (f site).pins.keys = ps') :
    TileState d₀ x y made sites (some ps') (d.modifySite (siteNumber x y (sites - 1)) f) := by
  have hsize (x' y' : Nat) :=
    Device.size_tile?_modifySite d (siteNumber x y (sites - 1)) f x' y'
  constructor
  case chip => rw [Device.modifySite_chip, h.chip]
  case labs => rw [Device.modifySite_labs, h.labs]
  case uphill =>
    rw [Device.modifySite_wires]
    exact h.uphill
  case named =>
    rw [Device.modifySite_created, Device.modifySite_interner]
    exact h.named
  case tile =>
    obtain ⟨tile, htile, hcount⟩ := h.tile
    have hmap := hsize x y
    rw [htile, Option.map_some, Option.map_eq_some_iff] at hmap
    obtain ⟨tile', htile', hcount'⟩ := hmap
    exact ⟨tile', htile', hcount'.trans hcount⟩
  case lastSite =>
    rintro _ ⟨rfl⟩
    obtain ⟨site, hsite, hpins⟩ := h.lastSite ps rfl
    refine ⟨f site, ?_, hf site hpins⟩
    rw [Device.site?_modifySite, if_pos rfl, hsite, Option.map_some]
  case elsewhere =>
    intro x' y' hne hx' hy'
    have hsame := h.elsewhere x' y' hne hx' hy'
    constructor
    case uphill =>
      rw [Device.modifySite_wires]
      exact hsame.uphill
    case created =>
      rw [Device.modifySite_created]
      exact hsame.created
    case size => rw [hsize, hsame.size]

/-- The last site gets a new pin. -/
theorem addBelPin {ps : List Ident} (h : TileState d₀ x y made (sites + 1) (some ps) d)
    (hr : InRange x y) (hmade : made.length ≤ syntheticCount) {pin : Ident} (hpin : pin ∉ ps)
    (dir : PortDir) {w : Wire} (hw : IsTileWire x y made.length w) :
    TileState d₀ x y made (sites + 1) (some (ps ++ [pin]))
      { d.modifySite (siteNumber x y sites) fun s =>
        { s with pins := s.pins.insert pin ⟨w, dir⟩ } with
        wires := d.wires.attach w ⟨siteNumber x y sites, pin⟩ } := by
  have hstate : TileState d₀ x y made (sites + 1) (some (ps ++ [pin]))
      (d.modifySite (siteNumber x y sites) fun s =>
        { s with pins := s.pins.insert pin ⟨w, dir⟩ }) := by
    refine h.modifySite fun site hpins => ?_
    rw [Table.keys_insert, hpins, if_neg hpin]
  refine hstate.of_sameSynthetic hr ?_
  rw [Device.modifySite_wires]
  exact WireGraph.sameSynthetic_attach (h.holds hmade hw) _

end TileState

namespace TileStage

variable {d₀ d : Device} {x y sites : Nat} {made : List BlockWire} {pins : Option (List Ident)}
  {script script' : List BuildStep}

/-- Another way to write the script. -/
theorem congr (h : TileStage d₀ x y made sites pins script d) (hscript : script = script') :
    TileStage d₀ x y made sites pins script' d :=
  hscript ▸ h

/-- A stage whose script is finished takes up the next one. -/
theorem close (h : TileStage d₀ x y made sites pins script d) :
    TileStage d₀ x y made sites none script d :=
  ⟨h.toTileState.close, h.builds⟩

/-! ### Steps -/

/-- A new wire takes the next node of the tile. -/
theorem answers_blockWire (hr : InRange x y) {s : String} {n : Nat} (hcount : made.length = n)
    (hn : n < syntheticCount) (hfresh : ∀ wire ∈ made, wire.name ≠ s) :
    (Edit.blockWire x y s).Answers (TileStage d₀ x y made sites pins script) (syntheticNode x y n)
      (TileStage d₀ x y (made ++ [⟨s, []⟩]) sites pins (script ++ [.wire x y n s])) := by
  subst hcount
  intro d h
  have hs := Interner.name?_intern_self d.interner s
  have hstate := h.toTileState.intern s
  have hcreated := hstate.created_eq_none hs hfresh
  have hnew := hstate.contains_iff hn
  rw [decide_eq_false (Nat.lt_irrefl _)] at hnew
  have hfree : Device.freeNode? d.wires x y = some (syntheticNode x y made.length) :=
    Device.freeNode?_eq hn (fun m hm => by rw [h.contains_iff (by omega), decide_eq_true hm]) hnew
  refine ⟨_, ?_, hstate.insertWire hr hn hs,
    .step (h.builds.silent (.intern d s)) (.wire hs hcreated ?_)⟩
  · rw [Edit.blockWire, Edit.intern, Edit.run_bind_of_ok (Edit.run_modifyGet ..)]
    refine (Edit.run_addWire (Nat.lt_trans hr.x_lt (by decide)) (Nat.lt_trans hr.y_lt (by decide))
      _ _ _).trans ?_
    simp only [hcreated, hfree]
  · rw [WireGraph.mem_wires, ← WireGraph.contains_eq_isSome, hnew]
    exact Bool.false_ne_true

/-- Joining sources to the wire just made adds them to its entry in the plan. -/
theorem answers_addPips {s : String} {l sources : List Wire} (hr : InRange x y) {n : Nat}
    (hcount : made.length = n) (hn : n < syntheticCount)
    (hsrc : ∀ src ∈ sources, IsTileWire x y n src) :
    (Edit.addPips sources (syntheticNode x y n)).Answers
      (TileStage d₀ x y (made ++ [⟨s, l⟩]) sites pins script) ()
      (TileStage d₀ x y (made ++ [⟨s, l ++ sources⟩]) sites pins
        (script ++ sources.map (.pip · (syntheticNode x y n)))) := by
  subst hcount
  exact .modify fun _ h => ⟨h.addPips hr hn hsrc, h.builds.addPips ..⟩

/-- A single pip into the wire made last. -/
theorem answers_addPip {s : String} {l : List Wire} {src : Wire} (hr : InRange x y) {n : Nat}
    (hcount : made.length = n) (hn : n < syntheticCount) (hsrc : IsTileWire x y n src) :
    (Edit.addPip src (syntheticNode x y n)).Answers
      (TileStage d₀ x y (made ++ [⟨s, l⟩]) sites pins script) ()
      (TileStage d₀ x y (made ++ [⟨s, l ++ [src]⟩]) sites pins
        (script ++ [.pip src (syntheticNode x y n)])) := by
  rw [Edit.addPip_eq_addPips]
  refine answers_addPips hr hcount hn ?_
  intro src' hmem
  obtain rfl := List.mem_singleton.mp hmem
  exact hsrc

/-- Pips that end on a wire of the chip. -/
theorem answers_addPips_chip (hr : InRange x y) (hn : made.length ≤ syntheticCount)
    {sources : List Wire} {dst : Wire} (hdst : dst.kind < Node.syntheticBase)
    (hsrc : ∀ src ∈ sources, IsTileWire x y made.length src) :
    (Edit.addPips sources dst).Answers (TileStage d₀ x y made sites pins script) ()
      (TileStage d₀ x y made sites pins (script ++ sources.map (.pip · dst))) :=
  .modify fun _ h => ⟨h.of_sameSynthetic hr
    (WireGraph.sameSynthetic_addPips hdst fun src hmem => h.holds hn (hsrc src hmem)),
    h.builds.addPips ..⟩

/-- A loop of which each step adds its own steps to the script. -/
theorem answers_forM {α : Type} {l : List α} {f : α → Edit PUnit} {g : α → List BuildStep}
    (step : ∀ a ∈ l, ∀ script, (f a).Answers (TileStage d₀ x y made sites pins script) ⟨⟩
      (TileStage d₀ x y made sites pins (script ++ g a))) :
    (forM l f).Answers (TileStage d₀ x y made sites pins script) ⟨⟩
      (TileStage d₀ x y made sites pins (script ++ l.flatMap g)) := by
  induction l generalizing script with
  | nil => exact .pure fun _ h => h.congr (List.append_nil script).symm
  | cons a rest ih =>
    rw [List.forM_cons, List.flatMap_cons, ← List.append_assoc]
    exact .bind (step a List.mem_cons_self script)
      (ih fun b hb => step b (List.mem_cons_of_mem a hb))

/-! ### Steps by a plan

The wires of a block are known beforehand: `plan` lists them all, in order, and `plan.take n` are
the first `n` of them. -/

section Plan

variable {plan : List BlockWire} {n : Nat} {s : String} {sources : List Wire}

/-- The plan up to an entry, followed by it, is the plan one further. -/
theorem take_append_of_getElem? (h : plan[n]? = some ⟨s, sources⟩) :
    plan.take n ++ [⟨s, sources⟩] = plan.take (n + 1) := by
  rw [List.take_add_one, h]
  rfl

/-- An entry of the plan has exactly its index of entries before it. -/
theorem length_take_of_getElem? (h : plan[n]? = some ⟨s, sources⟩) : (plan.take n).length = n := by
  obtain ⟨hlt, -⟩ := List.getElem?_eq_some_iff.mp h
  rw [List.length_take]
  omega

/-- The next wire of the plan takes the next node, and is ready to be fed. -/
theorem answers_nextWire (hr : InRange x y) (hnames : (plan.map BlockWire.name).Nodup)
    (hlen : plan.length ≤ syntheticCount) (h : plan[n]? = some ⟨s, sources⟩) :
    (Edit.blockWire x y s).Answers (TileStage d₀ x y (plan.take n) sites pins script)
      (syntheticNode x y n)
      (TileStage d₀ x y (plan.take n ++ [⟨s, []⟩]) sites pins (script ++ [.wire x y n s])) := by
  have hlt := (List.getElem?_eq_some_iff.mp h).1
  have hcount := length_take_of_getElem? h
  have hname : (plan.map BlockWire.name)[n]? = some s := by
    rw [List.getElem?_map, h, Option.map_some]
  have hfresh : ∀ wire ∈ plan.take n, wire.name ≠ s := by
    rintro wire hwire rfl
    refine not_mem_take_of_nodup hnames hname ?_
    rw [← List.map_take]
    exact List.mem_map_of_mem hwire
  exact answers_blockWire hr hcount (by omega) hfresh

/-- The next wire of the plan, together with the pips that feed it. -/
theorem answers_fedWire {α : Type} {f : Wire → Edit α} {a : α} {Q : Device → Prop}
    (hr : InRange x y) (hnames : (plan.map BlockWire.name).Nodup)
    (hlen : plan.length ≤ syntheticCount) (h : plan[n]? = some ⟨s, sources⟩)
    (hsrc : ∀ src ∈ sources, IsTileWire x y n src)
    (hf : (f (syntheticNode x y n)).Answers (TileStage d₀ x y (plan.take (n + 1)) sites pins
      (script ++ wireScript x y n ⟨s, sources⟩)) a Q) :
    (Edit.blockWire x y s >>= fun wire => Edit.addPips sources wire >>= fun _ => f wire).Answers
      (TileStage d₀ x y (plan.take n) sites pins script) a Q := by
  have hlt := (List.getElem?_eq_some_iff.mp h).1
  have hcount := length_take_of_getElem? h
  refine .bind (answers_nextWire hr hnames hlen h) (.bind (a := ()) ?_ hf)
  have hscript : script ++ wireScript x y n ⟨s, sources⟩ =
      script ++ [.wire x y n s] ++ sources.map (.pip · (syntheticNode x y n)) := List.append_cons ..
  rw [← take_append_of_getElem? h, hscript]
  exact answers_addPips hr hcount (by omega) hsrc

/-- The next wire of the plan, if nothing feeds it. -/
theorem answers_openWire (hr : InRange x y) (hnames : (plan.map BlockWire.name).Nodup)
    (hlen : plan.length ≤ syntheticCount) (h : plan[n]? = some ⟨s, []⟩) :
    (Edit.blockWire x y s).Answers (TileStage d₀ x y (plan.take n) sites pins script)
      (syntheticNode x y n)
      (TileStage d₀ x y (plan.take (n + 1)) sites pins (script ++ wireScript x y n ⟨s, []⟩)) := by
  rw [← take_append_of_getElem? h]
  exact answers_nextWire hr hnames hlen h

end Plan

/-! ### Other steps -/

/-- A port that the chip provides. -/
theorem run_requirePort {d : Device} {block : BlockKind} (ht : IsTile d.chip x y block)
    {port : ChipPort} {blockIndex portIndex : Int} {w : Wire}
    (hw : Chip.nodeBehind? x y block port blockIndex portIndex = some w) :
    (Edit.requirePort x y block port blockIndex portIndex).run d = (.ok w, d) := by
  rw [Edit.requirePort, Edit.run_get_bind]
  simp only [Chip.node?, Pos.x_pack ht.x_lt ht.y_lt, Pos.y_pack ht.x_lt ht.y_lt, ht.blockAt,
    if_true, hw]
  rfl

/-- A port whose node the chip names is found, and asking for it changes nothing. -/
theorem answers_requirePort {block : BlockKind} (ht : IsTile d₀.chip x y block) {port : ChipPort}
    {blockIndex portIndex : Int} {w : Wire}
    (hw : Chip.nodeBehind? x y block port blockIndex portIndex = some w) :
    (Edit.requirePort x y block port blockIndex portIndex).Answers
      (TileStage d₀ x y made sites pins script) w (TileStage d₀ x y made sites pins script) := by
  intro d h
  rw [← h.chip] at ht
  exact ⟨d, run_requirePort ht hw, h⟩

/-- An edit that follows an interned string. -/
theorem answers_intern_bind {α : Type} {s : String} {f : Ident → Edit α} {a : α} {Q : Device → Prop}
    (hf : ∀ i, (f i).Answers (fun d => TileStage d₀ x y made sites pins script d ∧
      d.interner.name? i = some s) a Q) :
    (Edit.intern s >>= f).Answers (TileStage d₀ x y made sites pins script) a Q :=
  .intern_bind (fun d h => ⟨h.toTileState.intern s, h.builds.silent (.intern d s)⟩) fun i =>
    (hf i).mono (fun _ h => ⟨h.2, h.1⟩) fun _ h => h

/-! ### Sites -/

/-- A new site is the next one of the tile, and has no pins. -/
theorem answers_addBel (hr : InRange x y) (hc : d₀.chip.contains x y = true)
    (hn : sites < siteCount) (name : Ident) {s : String} (type : Ident) :
    (Edit.addBel x y name type).Answers
      (fun d => TileStage d₀ x y made sites pins script d ∧ d.interner.name? name = some s)
      (siteNumber x y sites)
      (TileStage d₀ x y made (sites + 1) (some []) (script ++ [.site x y sites s type])) := by
  rintro d ⟨h, hs⟩
  obtain ⟨tile, htile, rfl⟩ := h.tile
  have hindex := Device.tileIndex?_of_contains (d := d) (by rw [h.chip]; exact hc)
  refine ⟨_, ?_, h.addBel hr hn hindex rfl _, h.builds.step (.site type hs htile hindex)⟩
  rw [Edit.addBel, Edit.run_get_bind, Edit.run_get_bind]
  simp only [htile, hindex]
  rfl

/-- A change of the last site that leaves its pins as they are. -/
theorem answers_modifySite {ps : List Ident} {f : Site → Site}
    (hf : ∀ site, (f site).pins = site.pins)
    (hbuilds : ∀ d site, d.site? (siteNumber x y sites) = some site → d₀.Builds script d →
      d₀.Builds script' (d.modifySite (siteNumber x y sites) f)) :
    (Edit.modifySite (siteNumber x y sites) f).Answers
      (TileStage d₀ x y made (sites + 1) (some ps) script) ()
      (TileStage d₀ x y made (sites + 1) (some ps) script') := by
  intro d h
  obtain ⟨site, hsite, -⟩ := h.lastSite ps rfl
  rw [Nat.add_sub_cancel] at hsite
  refine ⟨_, ?_, h.toTileState.modifySite fun site hpins =>
    (congrArg Table.keys (hf site)).trans hpins, hbuilds d site hsite h.builds⟩
  rw [Edit.modifySite, Edit.run_get_bind]
  simp only [hsite]
  rfl

/-- The last site gets a new pin. -/
theorem answers_addBelPin (hr : InRange x y) (hmade : made.length ≤ syntheticCount)
    {ps : List Ident} {pin : Ident} (hpin : pin ∉ ps) {dir : PortDir} {w : Wire}
    (hw : IsTileWire x y made.length w) :
    (Edit.addBelPin (siteNumber x y sites) pin dir w).Answers
      (TileStage d₀ x y made (sites + 1) (some ps) script) ()
      (TileStage d₀ x y made (sites + 1) (some (ps ++ [pin]))
        (script ++ [.pin (siteNumber x y sites) pin ⟨w, dir⟩])) := by
  intro d h
  obtain ⟨site, hsite, hpins⟩ := h.lastSite ps rfl
  rw [Nat.add_sub_cancel] at hsite
  have hnew : site.pins.get? pin = none := by
    rw [← Option.not_isSome_iff_eq_none, Table.get?_isSome_iff, hpins]
    exact hpin
  refine ⟨_, ?_, h.addBelPin hr hmade hpin dir hw, h.builds.step (.pin ⟨w, dir⟩ hsite hnew)⟩
  rw [Edit.addBelPin, Edit.run_get_bind]
  simp only [hsite, Table.contains, hnew, Option.isSome_none, Bool.false_eq_true, if_false]
  rw [Edit.run_modify_bind, Edit.run_modify, Device.modifySite_wires]

end TileStage

end Fabric
