import Fabric.Proofs.Build

/-!
# What the building of blocks keeps

Few changes of a model make up the building of the blocks and the import of the routing: records,
strings, wires, pips, sites, pins and LABs. A `BuildRelation` is a relation between models that each
of these changes keeps. Building keeps it then, whatever it answers; that is shown once, block by
block, and used for each relation of interest.

The attributes of the I/O ports are recorded afterwards, and are none of these changes.

## Main results

* `BuildRelation.buildBlock`: building a block keeps the relation;
* `BuildRelation.buildBlocks`, `BuildRelation.importRouting`: so do building all of them and
  importing the routing.
-/

namespace Fabric.Edit

/-- A relation that holds between a model before and after each change that building consists of. -/
structure BuildRelation (R : Device → Device → Prop) [IsPreorder Device R] : Prop where
  diagnostics : ∀ d sink, R d { d with diagnostics := sink }
  interner : ∀ d t, R d { d with interner := t }
  labs : ∀ d labs, R d { d with labs := labs }
  insertWire : ∀ d x y name w, R d (d.insertWire x y name 0 w)
  pips : ∀ d sources dst, R d { d with wires := d.wires.addPips sources dst }
  attach : ∀ d w pin, R d { d with wires := d.wires.attach w pin }
  addSite : ∀ d t name type bels,
    R d { d with sites := d.sites.modify t (·.push { name := name, type := type }), bels := bels }
  /-- A change of a site that places nothing on it. -/
  changeSite : ∀ d bel f, (∀ site, (f site).cell = site.cell) → R d (d.modifySite bel f)

/-- Asking for a port changes nothing, whatever it answers. -/
theorem keeps_requirePort {R : Device → Device → Prop} [IsPreorder Device R] (x y : Nat)
    (block : BlockKind) (port : ChipPort) (blockIndex portIndex : Int) :
    (requirePort x y block port blockIndex portIndex).Keeps R :=
  .bind .get fun _ => .require _ _

namespace BuildRelation

variable {R : Device → Device → Prop} [IsPreorder Device R]

/-! ### Steps of a build -/

/-- Writing a record is a step of the build. -/
theorem log (h : BuildRelation R) (record : Diagnostic) : (log record).Keeps R :=
  .modify fun d => h.diagnostics d _

/-- Interning a name is a step of the build. -/
theorem intern (h : BuildRelation R) (s : String) : (intern s).Keeps R :=
  .modifyGet fun d => h.interner d _

/-- Adding pips onto one wire is a step of the build. -/
theorem addPips (h : BuildRelation R) (sources : List Wire) (dst : Wire) :
    (addPips sources dst).Keeps R :=
  .modify fun d => h.pips d sources dst

/-- Adding one pip is a step of the build. -/
theorem addPip (h : BuildRelation R) (src dst : Wire) : (addPip src dst).Keeps R := by
  rw [addPip_eq_addPips]
  exact h.addPips [src] dst

/-- Making a block wire interns its name and takes the next free node. -/
theorem blockWire (h : BuildRelation R) (x y : Nat) (name : String) :
    (blockWire x y name).Keeps R := by
  refine .bind (h.intern name) fun i => ?_
  have hnew (d : Device) : (do
      let wire ← require (Device.freeNode? d.wires x y) (.misuse .noNode)
      modify (·.insertWire x y i 0 wire)
      return wire : Edit Wire).Keeps R :=
    .bind (.require _ _) fun wire =>
      .bind (.modify fun d => h.insertWire d x y i wire) fun _ => .pure _
  rw [addWire]
  split
  · refine .bind (.misuse _) fun _ => .bind .get fun d => ?_
    split
    · exact .pure _
    · exact .bind .get hnew
  · refine .bind .get fun d => ?_
    split
    · exact .pure _
    · exact .bind .get hnew

/-- Making a site is a step of the build. -/
theorem addBel (h : BuildRelation R) (x y : Nat) (name type : Ident) :
    (addBel x y name type).Keeps R := by
  refine .bind .get fun d => .bind .get fun d' => ?_
  split
  · exact .bind (.modify fun d => h.addSite d _ _ _ _) fun _ => .pure _
  · exact .misuse _

/-- A change to a site that places no cell is a step of the build. -/
theorem modifySite (h : BuildRelation R) (bel : BelId) {f : Site → Site}
    (hf : ∀ site, (f site).cell = site.cell) : (modifySite bel f).Keeps R := by
  refine .bind .get fun d => ?_
  split
  · exact .modify fun d => h.changeSite d bel f hf
  · exact .misuse _

/-- Adding a pin interns nothing and records it at its site and its wire. -/
theorem addBelPin (h : BuildRelation R) (bel : BelId) (pin : Ident) (dir : PortDir) (wire : Wire) :
    (addBelPin bel pin dir wire).Keeps R := by
  have hattach : (do
      modify fun d => d.modifySite bel fun s => { s with pins := s.pins.insert pin ⟨wire, dir⟩ }
      modify fun d => { d with wires := d.wires.attach wire ⟨bel, pin⟩ } : Edit Unit).Keeps R :=
    .bind (.modify fun d => h.changeSite d bel _ fun _ => rfl) fun _ => .modify fun d =>
      h.attach d _ _
  refine .bind .get fun d => ?_
  split
  · exact .misuse _
  · split
    · exact .bind (.misuse _) fun _ => hattach
    · exact hattach

/-! ### Blocks -/

/-- A block site is a site whose pins are made from the ports of its block. -/
theorem blockSite (h : BuildRelation R) (x y : Nat) (name : String) (type : Ident)
    (blockIndex : Nat) :
    (blockSite x y name type blockIndex).Keeps R := by
  refine .bind (h.intern name) fun i => .bind (h.addBel x y i type) fun bel => ?_
  exact .bind (h.modifySite bel fun _ => rfl) fun _ => .pure bel

/-- A GPIO tile is one site after another. -/
theorem buildGpio (h : BuildRelation R) (x y : Nat) : (buildGpio x y).Keeps R := by
  refine .forM fun z _ => .bind (h.blockWire _ _ _) fun pad => ?_
  refine .bind (h.blockSite _ _ _ _ _) fun bel => .bind (h.addBelPin _ _ _ _) fun _ => ?_
  refine .bind (keeps_requirePort _ _ _ _ _ _) fun _ => .bind (h.addBelPin _ _ _ _) fun _ => ?_
  refine .bind (keeps_requirePort _ _ _ _ _ _) fun _ => .bind (h.addBelPin _ _ _ _) fun _ => ?_
  exact .bind (keeps_requirePort _ _ _ _ _ _) fun _ => h.addBelPin _ _ _ _

/-- A clock mux is one site with its pips. -/
theorem buildClockMux (h : BuildRelation R) (x y : Nat) : (buildClockMux x y).Keeps R := by
  refine .forM fun z _ => .bind (h.blockSite _ _ _ _ _) fun bel => ?_
  refine .bind (keeps_requirePort _ _ _ _ _ _) fun _ => .bind (h.addBelPin _ _ _ _) fun _ => ?_
  refine .bind (h.blockWire _ _ _) fun out => .bind (h.addBelPin _ _ _ _) fun _ => ?_
  exact .bind (keeps_requirePort _ _ _ _ _ _) fun _ => h.addPip _ _

/-- A shared control wire is a block wire, with its sources joined to it. -/
theorem buildShared (h : BuildRelation R) (x y : Nat) (name : String) (dedicated : Option Wire)
    (firstLine : Nat) : (buildShared x y name dedicated firstLine).Keeps R := by
  refine .bind (h.blockWire _ _ _) fun wire => .bind (h.addPips _ _) fun _ => ?_
  refine .bind (.forM fun k _ => ?_) fun _ => .pure _
  exact .bind (keeps_requirePort _ _ _ _ _ _) fun _ => h.addPip _ _

/-- The shared wires of a LAB are made one after another. -/
theorem buildSharedWires (h : BuildRelation R) (x y : Nat) : (buildSharedWires x y).Keeps R := by
  refine .bind (.mapM fun i _ => ?_) fun clk => .bind (.mapM fun p _ => ?_) fun ena => ?_
  · exact .bind (keeps_requirePort _ _ _ _ _ _) fun _ => h.buildShared _ _ _ _ _
  · exact h.buildShared _ _ _ _ _
  refine .bind (.mapM fun p _ => ?_) fun aclr => ?_
  · exact .bind (keeps_requirePort _ _ _ _ _ _) fun _ => h.buildShared _ _ _ _ _
  refine .bind (h.buildShared _ _ _ _ _) fun sclr => ?_
  exact .bind (h.buildShared _ _ _ _ _) fun sload => .pure _

/-- A LUT is its site, its pins and the pips of its output. -/
theorem buildLut (h : BuildRelation R) (x y lab z : Nat) (inputs : List (AlmPin × Wire))
    (half : Half) :
    (buildLut x y lab z inputs half).Keeps R := by
  refine .bind (h.blockWire _ _ _) fun out => .bind (h.intern _) fun i => ?_
  refine .bind (h.addBel _ _ _ _) fun bel => .bind (.forM fun p _ => ?_) fun _ => ?_
  · exact h.addBelPin _ _ _ _
  refine .bind (h.addBelPin _ _ _ _) fun _ => ?_
  exact .bind (h.modifySite bel fun _ => rfl) fun _ => .pure _

/-- The selectors of a half are block wires fed by the shared ones. -/
theorem buildSelectors (h : BuildRelation R) (x y z : Nat) (shared : ByKind (List Wire))
    (inputs : List (AlmPin × Wire)) (half : Half) :
    (buildSelectors x y z shared inputs half).Keeps R := by
  refine .bind (h.blockWire _ _ _) fun clk => .bind (h.addPips _ _) fun _ => ?_
  refine .bind (h.blockWire _ _ _) fun ena => .bind (h.addPips _ _) fun _ => ?_
  refine .bind (h.blockWire _ _ _) fun aclr => .bind (h.addPips _ _) fun _ => ?_
  exact .bind (h.blockWire _ _ _) fun ef => .bind (h.addPips _ _) fun _ => .pure _

/-- A flip-flop is its site, its pins and the wires around it. -/
theorem buildFlop (h : BuildRelation R) (x y lab z : Nat) (shared : ByKind (List Wire))
    (combOut : Wire) (selectors : HalfSelectors) (half : Half) (k : Nat) :
    (buildFlop x y lab z shared combOut selectors half k).Keeps R := by
  refine .bind (h.blockWire _ _ _) fun data => .bind (h.addPips _ _) fun _ => ?_
  refine .bind (h.blockWire _ _ _) fun q => .bind (h.intern _) fun i => ?_
  refine .bind (h.addBel _ _ _ _) fun bel => .bind (h.addBelPin _ _ _ _) fun _ => ?_
  refine .bind (h.addBelPin _ _ _ _) fun _ => .bind (h.addBelPin _ _ _ _) fun _ => ?_
  refine .bind (.forM fun _ _ => h.addBelPin _ _ _ _) fun _ => ?_
  refine .bind (.forM fun _ _ => h.addBelPin _ _ _ _) fun _ => ?_
  refine .bind (h.addBelPin _ _ _ _) fun _ => .bind (h.addBelPin _ _ _ _) fun _ => ?_
  refine .bind (h.addBelPin _ _ _ _) fun _ => ?_
  refine .bind (h.modifySite bel fun _ => rfl) fun _ => ?_
  refine .bind (.mapM fun _ _ => keeps_requirePort _ _ _ _ _ _) fun outputs => ?_
  exact .bind (.forM fun _ _ => h.addPips _ _) fun _ => .pure _

/-- An ALM is its halves, each with its selectors, its LUT and its flip-flops. -/
theorem buildAlm (h : BuildRelation R) (x y lab : Nat) (shared : ByKind (List Wire)) (z : Nat) :
    (buildAlm x y lab shared z).Keeps R := by
  refine .bind (.mapM fun pin _ => ?_) fun inputs => ?_
  · exact .bind (keeps_requirePort _ _ _ _ _ _) fun _ => .pure _
  refine .bind (h.buildLut _ _ _ _ _ _) fun _ => .bind (h.buildLut _ _ _ _ _ _) fun _ => ?_
  refine .bind (h.buildSelectors _ _ _ _ _ _) fun _ => ?_
  refine .bind (h.buildSelectors _ _ _ _ _ _) fun _ => ?_
  refine .bind (h.buildFlop _ _ _ _ _ _ _ _ _) fun _ => ?_
  refine .bind (h.buildFlop _ _ _ _ _ _ _ _ _) fun _ => ?_
  refine .bind (h.buildFlop _ _ _ _ _ _ _ _ _) fun _ => ?_
  exact .bind (h.buildFlop _ _ _ _ _ _ _ _ _) fun _ => .pure _

/-- A tile is built by the steps of its kind of block. -/
theorem buildBlock (h : BuildRelation R) (x y : Nat) (block : BlockKind) :
    (buildBlock x y block).Keeps R := by
  cases block with
  | lab =>
      refine .bind .get fun d => .bind (h.buildSharedWires x y) fun shared => ?_
      refine .bind (.mapM fun z _ => h.buildAlm _ _ _ _ z) fun alms => ?_
      exact .modify fun d => h.labs d _
  | gpio => exact h.buildGpio x y
  | clockMux => exact h.buildClockMux x y

/-! ### The whole device -/

/-- Building the blocks keeps the relation. -/
theorem buildBlocks (h : BuildRelation R) (layout : Nat → Nat → List BlockKind) :
    (buildBlocks layout).Keeps R := by
  refine .bind .get fun d => .bind (.forM fun t _ => .forM fun block _ => ?_) fun _ => ?_
  · exact h.buildBlock _ _ block
  · exact .bind .get fun d => h.log _

/-- Importing the routing keeps the relation. -/
theorem importRouting (h : BuildRelation R) : importRouting.Keeps R := by
  refine .bind .get fun d => .bind (.forM fun mux _ => h.addPips _ _) fun _ => ?_
  exact .bind .get fun d => h.log _

end BuildRelation

end Fabric.Edit
