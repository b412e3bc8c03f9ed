import Fabric.Proofs.Adjacency
import Fabric.Proofs.BlockWires
import Fabric.Proofs.Vocabulary

/-!
# Names of a device

What a site, a wire or a pip of a built device is called is said here once, as a relation between
names and resources: `IsSiteName`, `IsWireName` and `IsPipName`. Looking up a name and asking for a
name are both compared with that relation. So a name leads to the resource that has it and to no
other, although a wire is called after the block that made it or after its routing node, and is
found in two ways.

## Main results

* `IsBuiltBy.belNamed?_eq_some_iff`, `IsBuiltBy.belName_of_isSiteName`: the names of the sites;
* `IsBuiltBy.wireNamed?_eq_some_iff`, `IsBuiltBy.wireName_of_isWireName`: the names of the wires;
* `IsBuiltBy.pipNamed?_eq_some_iff`, `IsBuiltBy.pipName_of_isPipName`: the names of the pips;
* `Device.canonicalNames`: all of them have names, and are found under these, also through text.
-/

namespace Fabric

open Device (syntheticNode delimiter)

/-! ### Names in the plans -/

/-- The names of the wires that a block makes. -/
def wireNames (block : BlockKind) : List String := (blockPlan 0 0 block).map BlockWire.name

/-- The names of the sites of a block. -/
def siteNames (block : BlockKind) : List String := (blockSitePlan 0 0 0 block).map BlockSite.name

/-- The names of the wires of a block do not depend on its tile. -/
theorem map_name_blockPlan (x y : Nat) (block : BlockKind) :
    (blockPlan x y block).map BlockWire.name = wireNames block := by
  cases block with
  | lab => exact labPlan_names x y
  | gpio => rfl
  | clockMux => rfl

/-- The names of the sites of a block depend neither on its tile nor on the number of its LAB. -/
theorem map_name_blockSitePlan (x y lab : Nat) (block : BlockKind) :
    (blockSitePlan x y lab block).map BlockSite.name = siteNames block := by
  cases block with
  | lab =>
    simp only [siteNames, blockSitePlan, almSites, lutSite, flopSite, List.map_flatMap,
      List.map_cons, List.map_nil]
  | gpio => simp only [siteNames, blockSitePlan, ioSite, List.map_map, Function.comp_def]
  | clockMux =>
    simp only [siteNames, blockSitePlan, clockBufferSite, List.map_map, Function.comp_def]

/-- No wire of a block has the empty name or one with the delimiter in it. -/
theorem wireNames_spec (block : BlockKind) :
    ∀ s ∈ wireNames block, s ≠ "" ∧ delimiter ∉ s.toList := by
  cases block <;> decide +kernel

/-- The sites of a block have different names, and none with the delimiter in it. -/
theorem siteNames_spec (block : BlockKind) :
    (siteNames block).Nodup ∧ ∀ s ∈ siteNames block, delimiter ∉ s.toList := by
  cases block <;> decide +kernel

/-! ### Canonical names -/

namespace Device

/-- A component of a name that is in use and holds no delimiter. -/
def Spells (d : Device) (i : Ident) : Prop :=
  ∃ s, d.interner.name? i = some s ∧ delimiter ∉ s.toList

/-- A name made of such components is read back from its text, and reading it changes nothing. -/
theorem parseName_textOf {d : Device} {l : Path} (hlength : 2 ≤ l.length)
    (hl : ∀ i ∈ l, d.Spells i) :
    (Edit.parseName (d.textOf l)).run d = (.ok l, d) := by
  rw [Edit.parseName, Edit.run_modifyGet, textOf, Path.parse_display hlength hl]

/-- The text of a name, from the strings that its components stand for. -/
theorem textOf_eq {d : Device} {l : Path} (names : List String)
    (h : l.map d.interner.name? = names.map some) :
    d.textOf l = String.ofList (Path.join delimiter (names.map String.toList)) := by
  have hpieces := congrArg (List.map fun s : Option String => (s.getD "").toList) h
  rw [List.map_map, List.map_map] at hpieces
  exact congrArg (fun pieces => String.ofList (Path.join delimiter pieces)) hpieces

/-- The names of the resources of one sort are canonical: every resource has a name, it is found
under that name and under no other, and the text of the name reads back as the name. -/
structure Canonical {α : Type} (d : Device) (mem : α → Prop) (name : α → Except Error Path)
    (find? : Path → Option α) : Prop where
  exists_name : ∀ a, mem a → ∃ l, name a = .ok l
  find?_iff : ∀ l a, find? l = some a ↔ mem a ∧ name a = .ok l
  parse : ∀ l a, mem a → name a = .ok l → (Edit.parseName (d.textOf l)).run d = (.ok l, d)

/-- A canonical name is read from its text, and leads to what it names. -/
theorem Canonical.find?_of_text {α : Type} {d : Device} {mem : α → Prop}
    {name : α → Except Error Path} {find? : Path → Option α} (h : d.Canonical mem name find?)
    {l : Path} {a : α} (ha : mem a) (hl : name a = .ok l) (names : List String)
    (hnames : l.map d.interner.name? = names.map some) : ∃ l,
      (Edit.parseName (String.ofList (Path.join delimiter (names.map String.toList)))).run d =
        (.ok l, d) ∧ find? l = some a := by
  rw [← textOf_eq names hnames]
  exact ⟨l, h.parse l a ha hl, (h.find?_iff l a).mpr ⟨ha, hl⟩⟩

section Relation

variable {α : Type} {mem : α → Prop} {name : α → Except Error Path} {isName : Path → α → Prop}

/-- If every resource has a name by a relation, and is called so, then whatever it is called is its
name by the relation. -/
theorem isName_of_name_eq_ok (htotal : ∀ a, mem a → ∃ l, isName l a)
    (hname : ∀ l a, isName l a → mem a ∧ name a = .ok l) {l : Path} {a : α} (ha : mem a)
    (hl : name a = .ok l) : isName l a := by
  obtain ⟨l', hl'⟩ := htotal a ha
  obtain rfl := Except.ok.inj ((hname l' a hl').2.symm.trans hl)
  exact hl'

/-- Names are canonical if finding and naming agree with one relation between
names and resources. -/
theorem Canonical.of_relation {d : Device} {find? : Path → Option α}
    (htotal : ∀ a, mem a → ∃ l, isName l a) (hname : ∀ l a, isName l a → mem a ∧ name a = .ok l)
    (hfind : ∀ l a, find? l = some a ↔ isName l a)
    (hspells : ∀ l a, isName l a → 2 ≤ l.length ∧ ∀ i ∈ l, d.Spells i) :
    d.Canonical mem name find? where
  exists_name a ha := (htotal a ha).imp fun l hl => (hname l a hl).2
  find?_iff l a :=
    (hfind l a).trans ⟨hname l a, fun ⟨ha, hl⟩ => isName_of_name_eq_ok htotal hname ha hl⟩
  parse l a ha hl := by
    obtain ⟨hlength, hspells⟩ := hspells l a (isName_of_name_eq_ok htotal hname ha hl)
    exact parseName_textOf hlength hspells

end Relation

end Device

/-! ### Components in use -/

namespace IsBuiltBy

variable {c : Chip} {d : Device} {script : List BuildStep}

/-- What a name of the vocabulary stands for, it stands for in every built device. -/
theorem name?_known (h : IsBuiltBy c script d) {i : Ident} {s : String}
    (hi : Known.interner.name? i = some s) : d.interner.name? i = some s := by
  obtain ⟨selection, hbuilds⟩ := h.builds
  have hblank : (Device.blank selection c).interner = Known.interner := by rw [Device.blank]
  rw [← hblank] at hi
  exact hbuilds.name? hi

/-- Numerals are components of names. -/
theorem spells_numeral (h : IsBuiltBy c script d) {n : Nat} (hn : n < Known.numeralCount) :
    d.Spells (Known.numeral n) := by
  have hdigit : delimiter.isDigit = false := rfl
  refine ⟨toString n, h.name?_known (Known.name?_numeral hn), fun hmem => ?_⟩
  rw [isDigit_of_mem_toString hmem] at hdigit
  cases hdigit

/-- The word for a wire is a component of names. -/
theorem spells_wire (h : IsBuiltBy c script d) : d.Spells Known.wire :=
  ⟨_, h.name?_known Known.name?_wire, by decide⟩

/-- The types of nodes are components of names. -/
theorem spells_nodeType (h : IsBuiltBy c script d) {kind : Nat}
    (hk : kind < Known.nodeTypeNames.length) :
    d.Spells (Known.nodeType kind) := by
  have hplain : ∀ s ∈ Known.nodeTypeNames, delimiter ∉ s.toList := by decide
  have hname := Known.name?_nodeType kind
  rw [List.getElem?_eq_getElem hk] at hname
  exact ⟨_, h.name?_known hname, hplain _ (List.getElem_mem hk)⟩

end IsBuiltBy

/-- There is a numeral for every coordinate that a handle has room for. -/
theorem InRange.lt_numeralCount {x y : Nat} (hr : InRange x y) :
    x < Known.numeralCount ∧ y < Known.numeralCount :=
  ⟨Nat.lt_trans hr.x_lt (by decide), Nat.lt_trans hr.y_lt (by decide)⟩

/-! ### Sites -/

/-- Site number `n` of a tile of a chip is called so by the plan of the block. -/
def Chip.HasSite (c : Chip) (x y n : Nat) (name : String) : Prop :=
  ∃ block, c.blockAt x y = some block ∧ (siteNames block)[n]? = some name

namespace Chip.HasSite

variable {c : Chip} {x y n n' : Nat} {name : String}

/-- A site that a block makes is on a tile that handles have room for. -/
theorem inRange (hc : c.Fits) (h : c.HasSite x y n name) : InRange x y := by
  obtain ⟨block, hblock, -⟩ := h
  exact hc.inRange_of_blockAt hblock

/-- A site that a block makes has a number that handles have room for. -/
theorem lt_siteCount (h : c.HasSite x y n name) : n < siteCount := by
  obtain ⟨block, -, hname⟩ := h
  rw [siteNames, List.getElem?_map, Option.map_eq_some_iff] at hname
  obtain ⟨plan, hplan, -⟩ := hname
  exact blockSitePlan_lt hplan

/-- The sites of a tile are numbered without gaps. -/
theorem exists_earlier (h : c.HasSite x y n name) (hn : n' < n) :
    ∃ name', c.HasSite x y n' name' := by
  obtain ⟨block, hblock, hname⟩ := h
  have hlt := (List.getElem?_eq_some_iff.mp hname).1
  exact ⟨_, block, hblock, List.getElem?_eq_getElem (Nat.lt_trans hn hlt)⟩

/-- A tile has one site of a name. -/
theorem number_inj (h : c.HasSite x y n name) (h' : c.HasSite x y n' name) : n = n' := by
  obtain ⟨block, hblock, hname⟩ := h
  obtain ⟨block', hblock', hname'⟩ := h'
  obtain rfl := Option.some.inj (hblock.symm.trans hblock')
  exact (List.getElem?_inj (List.getElem?_eq_some_iff.mp hname).1 (siteNames_spec block).1).mp
    (hname.trans hname'.symm)

end Chip.HasSite

/-- A build makes these sites. -/
theorem Chip.hasSite_iff {c : Chip} {x y n : Nat} {name : String} :
    c.HasSite x y n name ↔ ∃ type, .site x y n name type ∈ c.script := by
  constructor
  · rintro ⟨block, hblock, hname⟩
    obtain ⟨k, hk⟩ := List.getElem?_of_mem (mem_tiles_of_blockAt hblock)
    rw [← map_name_blockSitePlan x y (c.labNumber k), List.getElem?_map,
      Option.map_eq_some_iff] at hname
    obtain ⟨plan, hplan, rfl⟩ := hname
    exact ⟨plan.type, site_mem_script.mpr ⟨k, block, plan, hk, hblock, hplan, rfl, rfl⟩⟩
  · rintro ⟨type, hstep⟩
    obtain ⟨k, block, plan, -, hblock, hplan, rfl, -⟩ := site_mem_script.mp hstep
    refine ⟨block, hblock, ?_⟩
    rw [← map_name_blockSitePlan x y (c.labNumber k), List.getElem?_map, hplan, Option.map_some]

/-- A site is named after its tile and its own name. -/
theorem Device.belName_siteNumber (d : Device) {x y n : Nat} {site : Site} (hr : InRange x y)
    (hsite : d.site? (siteNumber x y n) = some site) :
    d.belName (siteNumber x y n) = .ok [Known.numeral x, Known.numeral y, site.name] := by
  rw [belName, siteInfo, hsite, siteNumber, Pos.x_pack hr.x_lt hr.y_lt, Pos.y_pack hr.x_lt hr.y_lt]
  rfl

/-- What the sites of a model are called. -/
inductive Device.IsSiteName (c : Chip) (d : Device) : Path → BelId → Prop where
  | site {x y n : Nat} {name : String} {i : Ident} (hsite : c.HasSite x y n name)
      (hi : d.interner.name? i = some name) :
      IsSiteName c d [Known.numeral x, Known.numeral y, i] (siteNumber x y n)

namespace IsBuiltBy

variable {c : Chip} {d : Device}

/-- A site of the chip is a site of the model, under its name. -/
theorem exists_hasSite (hc : c.Fits) (h : IsBuiltBy c c.script d) {x y n : Nat} {name : String}
    (hs : c.HasSite x y n name) :
    ∃ site, d.site? (siteNumber x y n) = some site ∧ d.interner.name? site.name = some name := by
  obtain ⟨selection, hbuilds⟩ := h.builds
  obtain ⟨type, hstep⟩ := Chip.hasSite_iff.mp hs
  have hr := hs.inRange hc
  obtain ⟨site, hsite, hname, -⟩ := hbuilds.exists_site hr.x_lt hr.y_lt hs.lt_siteCount hstep
  exact ⟨site, hsite, hname⟩

/-- An entry of a tile is the site of its number. -/
theorem site?_of_tile? (hc : c.Fits) (h : IsBuiltBy c c.script d) {x y n : Nat} {tile : Array Site}
    {site : Site} (htile : d.tile? x y = some tile) (hn : tile[n]? = some site) :
    InRange x y ∧ d.site? (siteNumber x y n) = some site := by
  obtain ⟨t, hindex, -⟩ := Option.bind_eq_some_iff.mp htile
  rw [Device.tileIndex?, Option.ite_none_right_eq_some, h.chip, Chip.contains_iff] at hindex
  have ht := hindex.1
  have hr := hc.inRange ht
  have hsize := h.sized _ ht
  rw [htile, Option.map_some, Option.some.injEq] at hsize
  have hlt : n < siteCount :=
    Nat.lt_trans (hsize ▸ (Array.getElem?_eq_some_iff.mp hn).1) (c.tileSites_lt (x, y))
  rw [d.site?_siteNumber hr.x_lt hr.y_lt hlt, htile, Option.bind_some]
  exact ⟨hr, hn⟩

/-- The model has no other sites. -/
theorem hasSite_of_site? (hc : c.Fits) (h : IsBuiltBy c c.script d) {bel : BelId} {site : Site}
    (hsite : d.site? bel = some site) :
    ∃ x y n name, c.HasSite x y n name ∧ bel = siteNumber x y n := by
  obtain ⟨k, ⟨x, y⟩, block, n, plan, -, hblock, hplan, hbel⟩ := h.exists_sitePlan hc hsite
  refine ⟨x, y, n, plan.name, ⟨block, hblock, ?_⟩, hbel⟩
  rw [← map_name_blockSitePlan x y (c.labNumber k), List.getElem?_map, hplan, Option.map_some]

/-- The sites listed are those of the chip. -/
theorem mem_bels (h : IsBuiltBy c c.script d) {bel : BelId} :
    bel ∈ d.bels ↔ ∃ x y n name, c.HasSite x y n name ∧ bel = siteNumber x y n := by
  obtain ⟨selection, hbuilds⟩ := h.builds
  have hlist : d.bels.toList = c.script.filterMap BuildStep.bel? :=
    hbuilds.bels.trans (List.nil_append _)
  rw [← Array.mem_toList_iff, hlist, List.mem_filterMap]
  constructor
  · rintro ⟨step, hstep, hbel⟩
    cases step with
    | site x y n name type =>
      exact ⟨x, y, n, name, Chip.hasSite_iff.mpr ⟨type, hstep⟩, (Option.some.inj hbel).symm⟩
    | wire => cases hbel
    | pip => cases hbel
    | pin => cases hbel
    | place => cases hbel
  · rintro ⟨x, y, n, name, hs, rfl⟩
    obtain ⟨type, hstep⟩ := Chip.hasSite_iff.mp hs
    exact ⟨_, hstep, rfl⟩

/-- Every site has a name. -/
theorem exists_isSiteName (hc : c.Fits) (h : IsBuiltBy c c.script d) {bel : BelId}
    (hbel : bel ∈ d.bels) :
    ∃ l, d.IsSiteName c l bel := by
  obtain ⟨x, y, n, name, hs, rfl⟩ := h.mem_bels.mp hbel
  obtain ⟨site, -, hi⟩ := h.exists_hasSite hc hs
  exact ⟨_, .site hs hi⟩

/-- A name that a site has is the one that it is asked for by, and the site is listed. -/
theorem belName_of_isSiteName (hc : c.Fits) (h : IsBuiltBy c c.script d) {l : Path} {bel : BelId}
    (hl : d.IsSiteName c l bel) : bel ∈ d.bels ∧ d.belName bel = .ok l := by
  obtain ⟨hs, hi⟩ := hl
  obtain ⟨site, hsite, hi'⟩ := h.exists_hasSite hc hs
  obtain rfl := Interner.eq_of_name? hi hi'
  exact ⟨h.mem_bels.mpr ⟨_, _, _, _, hs, rfl⟩, d.belName_siteNumber (hs.inRange hc) hsite⟩

/-- The search of a tile for a name of a site finds that site: no two of its sites have one name. -/
theorem findInTile?_name (hc : c.Fits) (h : IsBuiltBy c c.script d) {x y n : Nat} {name : String}
    {i : Ident} (hs : c.HasSite x y n name) (hi : d.interner.name? i = some name) :
    d.findInTile? x y (·.name == i) = some (siteNumber x y n) := by
  have hr := hs.inRange hc
  obtain ⟨site, hsite, hi'⟩ := h.exists_hasSite hc hs
  obtain rfl := Interner.eq_of_name? hi hi'
  refine Device.findInTile?_eq_some hr.x_lt hr.y_lt hs.lt_siteCount hsite (beq_self_eq_true _)
    fun m hm site' hsite' => beq_eq_false_iff_ne.mpr fun heq => ?_
  -- An earlier site of that name would be the same site.
  obtain ⟨name', hs'⟩ := hs.exists_earlier hm
  obtain ⟨site'', hsite'', hi'⟩ := h.exists_hasSite hc hs'
  obtain rfl := Option.some.inj (hsite'.symm.trans hsite'')
  rw [heq] at hi'
  obtain rfl := Option.some.inj (hi.symm.trans hi')
  exact Nat.ne_of_lt hm (hs'.number_inj hs)

/-- The names that find a site are those that the sites have. -/
theorem belNamed?_eq_some_iff (hc : c.Fits) (h : IsBuiltBy c c.script d) {l : Path} {bel : BelId} :
    d.belNamed? l = some bel ↔ d.IsSiteName c l bel := by
  constructor
  · intro hl
    unfold Device.belNamed? at hl
    split at hl
    · rename_i _ _ i
      obtain ⟨x, hx, hrow⟩ := Option.bind_eq_some_iff.mp hl
      obtain ⟨y, hy, hfind⟩ := Option.bind_eq_some_iff.mp hrow
      obtain ⟨-, rfl⟩ := (Known.numeral?_eq_some_iff _ _).mp hx
      obtain ⟨-, rfl⟩ := (Known.numeral?_eq_some_iff _ _).mp hy
      obtain ⟨tile, htile, hindex⟩ := Option.bind_eq_some_iff.mp hfind
      obtain ⟨n, hn, hbel⟩ := Option.bind_eq_some_iff.mp hindex
      obtain rfl : siteNumber x y n = bel := Option.some.inj hbel
      obtain ⟨hlt, hi, -⟩ := Array.findIdx?_eq_some_iff_getElem.mp hn
      obtain rfl := beq_iff_eq.mp hi
      obtain ⟨hr, hsite⟩ := h.site?_of_tile? hc htile (Array.getElem?_eq_getElem hlt)
      exact Device.isName_of_name_eq_ok (fun bel => h.exists_isSiteName hc)
        (fun l bel => h.belName_of_isSiteName hc) (h.mem_bels.mpr (h.hasSite_of_site? hc hsite))
        (d.belName_siteNumber hr hsite)
    · cases hl
  · rintro ⟨hs, hi⟩
    have hlt := (hs.inRange hc).lt_numeralCount
    rw [Device.belNamed?, (Known.numeral?_eq_some_iff _ _).mpr ⟨hlt.1, rfl⟩,
      (Known.numeral?_eq_some_iff _ _).mpr ⟨hlt.2, rfl⟩]
    exact h.findInTile?_name hc hs hi

/-- A name of a site reads back from its text. -/
theorem spells_siteName (hc : c.Fits) (h : IsBuiltBy c c.script d) {l : Path} {bel : BelId}
    (hl : d.IsSiteName c l bel) : 2 ≤ l.length ∧ ∀ i ∈ l, d.Spells i := by
  obtain ⟨hs, hi⟩ := hl
  have hlt := (hs.inRange hc).lt_numeralCount
  refine ⟨Nat.le_add_left 2 1, ?_⟩
  simp only [List.forall_mem_cons]
  obtain ⟨block, -, hname⟩ := hs
  exact ⟨h.spells_numeral hlt.1, h.spells_numeral hlt.2,
    ⟨_, hi, (siteNames_spec block).2 _ (List.mem_of_getElem? hname)⟩, fun _ hnil => nomatch hnil⟩

/-- The names of the sites are canonical. -/
theorem canonical_bels (hc : c.Fits) (h : IsBuiltBy c c.script d) :
    d.Canonical (· ∈ d.bels) d.belName d.belNamed? :=
  .of_relation (fun _ => h.exists_isSiteName hc) (fun _ _ => h.belName_of_isSiteName hc)
    (fun _ _ => h.belNamed?_eq_some_iff hc) fun _ _ => h.spells_siteName hc

end IsBuiltBy

/-! ### Wires -/

namespace Chip

variable {c : Chip}

/-- Wire number `n` of a tile of a chip is made under a name by the plan of the block. -/
def HasMade (c : Chip) (x y n : Nat) (name : String) : Prop :=
  ∃ block, c.blockAt x y = some block ∧ (wireNames block)[n]? = some name

/-- A wire that a block makes is on one of the first nodes of its tile, under a name that can be
told from no name and be read back. -/
theorem HasMade.spec (hc : c.Fits) {x y n : Nat} {name : String} (h : c.HasMade x y n name) :
    InRange x y ∧ n < Node.indexCount ∧ name ≠ "" ∧ delimiter ∉ name.toList := by
  obtain ⟨block, hblock, hname⟩ := h
  have hlt := (List.getElem?_eq_some_iff.mp hname).1
  rw [wireNames, List.length_map] at hlt
  exact ⟨hc.inRange_of_blockAt hblock, Nat.lt_trans hlt (length_blockPlan_lt 0 0 block),
    wireNames_spec block name (List.mem_of_getElem? hname)⟩

/-- A build makes these wires. -/
theorem hasMade_iff {x y n : Nat} {name : String} :
    c.HasMade x y n name ↔ .wire x y n name ∈ c.script := by
  rw [wire_mem_script]
  constructor
  · rintro ⟨block, hblock, hname⟩
    rw [← map_name_blockPlan x y, List.getElem?_map, Option.map_eq_some_iff] at hname
    obtain ⟨wire, hwire, rfl⟩ := hname
    exact ⟨block, wire, hblock, hwire, rfl⟩
  · rintro ⟨block, wire, hblock, hwire, rfl⟩
    refine ⟨block, hblock, ?_⟩
    rw [← map_name_blockPlan x y, List.getElem?_map, hwire, Option.map_some]

/-- A wire that the blocks make is made under a name. -/
theorem MakesWire.exists_hasMade {w : Wire} (hw : c.MakesWire w) :
    ∃ x y n name, c.HasMade x y n name ∧ w = syntheticNode x y n := by
  obtain @⟨x, y, n, block, hblock, hn⟩ := hw
  refine ⟨x, y, n, ((blockPlan x y block)[n]).name, ⟨block, hblock, ?_⟩, rfl⟩
  rw [← map_name_blockPlan x y, List.getElem?_map, List.getElem?_eq_getElem hn, Option.map_some]

/-- The routing nodes of a chip have types, tiles and indices that names can tell. -/
theorem HasNode.exists_pack (hc : isGrid c.width c.height = true) {w : Wire} (hw : c.HasNode w) :
    ∃ kind x y z, kind < Known.nodeTypeNames.length ∧ (x, y) ∈ c.tiles ∧ z < Node.indexCount ∧
      w = .pack kind x y z := by
  have htrack (t : Nat) : t % trackCount < Node.indexCount :=
    Nat.lt_trans (mod_trackCount_lt t) (by decide)
  cases hw with
  | gin hblock hz => exact ⟨_, _, _, _, by decide, mem_tiles_of_blockAt hblock,
      Nat.lt_trans hz (BlockKind.inputCount_lt _), rfl⟩
  | gout hblock hz => exact ⟨_, _, _, _, by decide, mem_tiles_of_blockAt hblock,
      Nat.lt_trans hz (BlockKind.outputCount_lt _), rfl⟩
  | h4 ht t => exact ⟨_, _, _, _, by decide, ht, htrack t, rfl⟩
  | v4 ht t => exact ⟨_, _, _, _, by decide, ht, htrack t, rfl⟩
  | gclk hi =>
    -- The global clocks are nodes of the first tile.
    rw [isGrid_iff] at hc
    have ht : (0, 0) ∈ c.tiles := mem_tiles.mpr ⟨by omega, by omega⟩
    exact ⟨_, 0, 0, _, by decide, ht, Nat.lt_trans hi (by decide), rfl⟩

end Chip

/-- The name under which a wire is made in a tile. -/
def wirePath (x y : Nat) (name : Ident) : Path :=
  [Known.wire, Known.numeral x, Known.numeral y, name]

/-- The numeral of a number stands for that number. -/
theorem Known.numeral?_numeral {n : Nat} (hn : n < numeralCount) : numeral? (numeral n) = some n :=
  (numeral?_eq_some_iff _ _).mpr ⟨hn, rfl⟩

namespace Device

variable {d : Device} {w : Wire}

/-- A wire that is listed has data. -/
theorem exists_info (hw : w ∈ d.wires.wires) :
    ∃ info, d.wires.get? w = some info ∧ d.wires.infoOf w = info := by
  obtain ⟨info, hinfo⟩ := Option.isSome_iff_exists.mp (WireGraph.mem_wires.mp hw)
  exact ⟨info, hinfo, WireGraph.infoOf_of_get? hinfo⟩

/-- A wire with a name of its own is named after its tile and that name. -/
theorem wireName_of_name (hw : w ∈ d.wires.wires) (hname : (d.wires.infoOf w).name ≠ .empty) :
    d.wireName w =
      .ok [Known.wire, Known.numeral w.x, Known.numeral w.y, (d.wires.infoOf w).name] := by
  obtain ⟨info, hget, hinfo⟩ := exists_info hw
  have hempty : ¬ info.name.isEmpty := by rwa [Ident.isEmpty, beq_iff_eq, ← hinfo]
  simp only [wireName, hget, hinfo, if_pos hempty]

/-- A wire without a name of its own is named after its node. -/
theorem wireName_of_node (hw : w ∈ d.wires.wires) (hname : (d.wires.infoOf w).name = .empty)
    (hk : w.kind < Known.nodeTypeNames.length) : d.wireName w =
      .ok [Known.nodeType w.kind, Known.numeral w.x, Known.numeral w.y, Known.numeral w.z] := by
  obtain ⟨info, hget, hinfo⟩ := exists_info hw
  have hempty : ¬ ¬ info.name.isEmpty := by rwa [not_not, Ident.isEmpty, beq_iff_eq, ← hinfo]
  simp only [wireName, hget, if_neg hempty, if_pos hk]

/-- A name of this form is looked up among the wires that were made. -/
theorem wireNamed?_wirePath {x y : Nat} {name : Ident} (hx : x < Known.numeralCount)
    (hy : y < Known.numeralCount) :
    d.wireNamed? (wirePath x y name) = d.created[(x, y, name)]? := by
  have hnode : Known.nodeType? Known.wire = none := rfl
  rw [wirePath, wireNamed?, if_pos rfl, Known.numeral?_numeral hx, Known.numeral?_numeral hy, hnode]
  exact Option.or_none

/-- The name of a routing node is looked up among the wires of its tile. -/
theorem wireNamed?_nodePath {kind x y z : Nat} (hk : kind < Known.nodeTypeNames.length)
    (hx : x < Known.numeralCount) (hy : y < Known.numeralCount) (hz : z < Known.numeralCount)
    (ht : d.chip.contains x y = true) (hw : .pack kind x y z ∈ d.wires.wires) :
    d.wireNamed? [Known.nodeType kind, Known.numeral x, Known.numeral y, Known.numeral z] =
      some (.pack kind x y z) := by
  have hne : Known.nodeType kind ≠ Known.wire := by
    intro heq
    have hindex := congrArg Ident.index heq
    have hbase : Known.nodeTypeBase = 1065 := rfl
    simp only [Known.nodeType, Known.wire] at hindex
    omega
  rw [wireNamed?, if_neg hne, Option.none_or, (Known.nodeType?_eq_some_iff _ _).mpr ⟨hk, rfl⟩,
    Known.numeral?_numeral hx, Known.numeral?_numeral hy, Known.numeral?_numeral hz]
  simp only [bind, Option.bind_some, if_pos ht, if_pos (WireGraph.contains_iff.mpr hw)]

/-- A name that finds a wire is that of a wire made in a tile or that of a routing node. -/
theorem wireNamed?_eq_some {l : Path} (hl : d.wireNamed? l = some w) :
    (∃ x y name, l = wirePath x y name ∧ d.created[(x, y, name)]? = some w) ∨
    ∃ kind x y z, l = [Known.nodeType kind, Known.numeral x, Known.numeral y, Known.numeral z] ∧
      kind < Known.nodeTypeNames.length ∧ z < Known.numeralCount ∧
      d.chip.contains x y = true ∧ w = .pack kind x y z ∧ w ∈ d.wires.wires := by
  unfold wireNamed? at hl
  split at hl
  · rename_i type _ _ last
    rcases Option.or_eq_some_iff.mp hl with hmade | ⟨-, hnode⟩
    · obtain ⟨rfl, hmade⟩ := Option.ite_none_right_eq_some.mp hmade
      obtain ⟨x, hx, hrow⟩ := Option.bind_eq_some_iff.mp hmade
      obtain ⟨y, hy, hcreated⟩ := Option.bind_eq_some_iff.mp hrow
      obtain ⟨-, rfl⟩ := (Known.numeral?_eq_some_iff _ _).mp hx
      obtain ⟨-, rfl⟩ := (Known.numeral?_eq_some_iff _ _).mp hy
      exact .inl ⟨x, y, last, rfl, hcreated⟩
    · obtain ⟨kind, hkind, hcolumn⟩ := Option.bind_eq_some_iff.mp hnode
      obtain ⟨x, hx, hrow⟩ := Option.bind_eq_some_iff.mp hcolumn
      obtain ⟨y, hy, hindex⟩ := Option.bind_eq_some_iff.mp hrow
      obtain ⟨z, hz, hfound⟩ := Option.bind_eq_some_iff.mp hindex
      obtain ⟨hk, rfl⟩ := (Known.nodeType?_eq_some_iff _ _).mp hkind
      obtain ⟨-, rfl⟩ := (Known.numeral?_eq_some_iff _ _).mp hx
      obtain ⟨-, rfl⟩ := (Known.numeral?_eq_some_iff _ _).mp hy
      obtain ⟨hlt, rfl⟩ := (Known.numeral?_eq_some_iff _ _).mp hz
      obtain ⟨ht, hfound⟩ := Option.ite_none_right_eq_some.mp hfound
      obtain ⟨hw, hsame⟩ := Option.ite_none_right_eq_some.mp hfound
      obtain rfl := Option.some.inj hsame
      exact .inr ⟨kind, x, y, z, rfl, hk, hlt, ht, rfl, WireGraph.contains_iff.mp hw⟩
  · cases hl

/-- What the wires of a model are called. -/
inductive IsWireName (c : Chip) (d : Device) : Path → Wire → Prop where
  | made {x y n : Nat} {name : String} {i : Ident} (hmade : c.HasMade x y n name)
      (hi : d.interner.name? i = some name) :
      IsWireName c d [Known.wire, Known.numeral x, Known.numeral y, i] (syntheticNode x y n)
  | node {kind x y z : Nat} (hk : kind < Known.nodeTypeNames.length) (ht : (x, y) ∈ c.tiles)
      (hz : z < Node.indexCount) (hw : .pack kind x y z ∈ d.wires.wires) :
      IsWireName c d [Known.nodeType kind, Known.numeral x, Known.numeral y, Known.numeral z]
        (.pack kind x y z)

end Device

namespace IsBuiltBy

variable {c : Chip} {d : Device}

/-- A wire that a block makes is a wire of the model, and is found and asked for under its name. -/
theorem made_spec (hc : c.Fits) (h : IsBuiltBy c c.script d) {x y n : Nat} {name : String}
    {i : Ident} (hmade : c.HasMade x y n name) (hi : d.interner.name? i = some name) :
    syntheticNode x y n ∈ d.wires.wires ∧ d.created[(x, y, i)]? = some (syntheticNode x y n) ∧
      d.wireName (syntheticNode x y n) = .ok [Known.wire, Known.numeral x, Known.numeral y, i] := by
  obtain ⟨selection, hbuilds⟩ := h.builds
  obtain ⟨hr, hn, hne, -⟩ := hmade.spec hc
  have hstep := Chip.hasMade_iff.mp hmade
  have hw : syntheticNode x y n ∈ d.wires.wires :=
    (hbuilds.mem_wires _).mpr (.inr ⟨_, hstep, List.mem_cons_self⟩)
  obtain ⟨i', hi', hinfo, hcreated⟩ := hbuilds.named hstep
  obtain rfl := Interner.eq_of_name? hi hi'
  have hempty : i ≠ .empty := by
    rintro rfl
    rw [h.name?_known Known.name?_empty] at hi
    exact hne (Option.some.inj hi).symm
  obtain ⟨-, hx, hy, -⟩ : _ ∧ _ ∧ _ ∧ _ := by
    simpa only [Node.key, Prod.mk.injEq] using Chip.key_syntheticNode hr hn
  have hname := Device.wireName_of_name hw (hinfo ▸ hempty)
  rw [hinfo, hx, hy] at hname
  exact ⟨hw, hcreated, hname⟩

/-- A routing node that is a wire of the model is named after its type, tile and index. -/
theorem wireName_pack (hc : c.Fits) (h : IsBuiltBy c c.script d) {kind x y z : Nat}
    (hk : kind < Known.nodeTypeNames.length) (ht : (x, y) ∈ c.tiles) (hz : z < Node.indexCount)
    (hw : .pack kind x y z ∈ d.wires.wires) : d.wireName (.pack kind x y z) =
      .ok [Known.nodeType kind, Known.numeral x, Known.numeral y, Known.numeral z] := by
  have hr := hc.inRange ht
  have hkind : kind < 6 := hk
  obtain ⟨hpk, hpx, hpy, hpz⟩ : _ ∧ _ ∧ _ ∧ _ := by
    simpa only [Node.key, Prod.mk.injEq] using
      Node.key_pack (Nat.lt_trans hk (by decide)) hr hz
  obtain ⟨selection, hbuilds⟩ := h.builds
  have hname : (d.wires.infoOf (.pack kind x y z)).name = .empty := by
    refine (hbuilds.unnamed fun x' y' n name hmem => ?_).trans ?_
    · obtain ⟨hr', hn, -⟩ := (Chip.hasMade_iff.mpr hmem).spec hc
      refine Device.ne_syntheticNode hr'.x_lt hr'.y_lt (Nat.lt_trans hn (by decide)) ?_
      rw [hpk]
      exact Nat.lt_trans hkind (by decide)
    · rw [Device.blank, WireGraph.infoOf_empty]
  have h := Device.wireName_of_node hw hname (by rwa [hpk])
  rwa [hpk, hpx, hpy, hpz] at h

/-- Every wire has a name. -/
theorem exists_isWireName (hc : Chip.isGrid c.width c.height = true) (h : IsBuiltBy c c.script d)
    {w : Wire} (hw : w ∈ d.wires.wires) : ∃ l, d.IsWireName c l w := by
  rcases h.hasWire hw with hmakes | hnode
  · obtain ⟨x, y, n, name, hmade, rfl⟩ := hmakes.exists_hasMade
    obtain ⟨selection, hbuilds⟩ := h.builds
    obtain ⟨i, hi, -⟩ := hbuilds.named (Chip.hasMade_iff.mp hmade)
    exact ⟨_, .made hmade hi⟩
  · obtain ⟨kind, x, y, z, hk, ht, hz, rfl⟩ := hnode.exists_pack hc
    exact ⟨_, .node hk ht hz hw⟩

/-- A name that a wire has is the one that it is asked for by, and the wire is listed. -/
theorem wireName_of_isWireName (hc : c.Fits) (h : IsBuiltBy c c.script d) {l : Path} {w : Wire}
    (hl : d.IsWireName c l w) : w ∈ d.wires.wires ∧ d.wireName w = .ok l := by
  cases hl with
  | made hmade hi =>
    obtain ⟨hw, -, hname⟩ := h.made_spec hc hmade hi
    exact ⟨hw, hname⟩
  | node hk ht hz hw => exact ⟨hw, h.wireName_pack hc hk ht hz hw⟩

/-- The names that find a wire are those that the wires have. -/
theorem wireNamed?_eq_some_iff (hc : c.Fits) (h : IsBuiltBy c c.script d) {l : Path} {w : Wire} :
    d.wireNamed? l = some w ↔ d.IsWireName c l w := by
  obtain ⟨selection, hbuilds⟩ := h.builds
  constructor
  · intro hl
    rcases Device.wireNamed?_eq_some hl with
      ⟨x, y, name, rfl, hcreated⟩ | ⟨kind, x, y, z, rfl, hk, hz, ht, rfl, hw⟩
    · obtain ⟨n, name, hmem, rfl, hi⟩ := hbuilds.of_created rfl hcreated
      exact .made (Chip.hasMade_iff.mpr hmem) hi
    · rw [h.chip, Chip.contains_iff] at ht
      exact .node hk ht hz hw
  · intro hl
    cases hl with
    | made hmade hi =>
      obtain ⟨hr, -⟩ := hmade.spec hc
      obtain ⟨-, hcreated, -⟩ := h.made_spec hc hmade hi
      exact (Device.wireNamed?_wirePath hr.lt_numeralCount.1 hr.lt_numeralCount.2).trans hcreated
    | @node kind x y z hk ht hz hw =>
      obtain ⟨hx, hy⟩ := (hc.inRange ht).lt_numeralCount
      have hcontains : d.chip.contains x y = true := by
        rw [h.chip]
        exact Chip.contains_iff.mpr ht
      exact Device.wireNamed?_nodePath hk hx hy hz hcontains hw

/-- A name of a wire reads back from its text. -/
theorem spells_wireName (hc : c.Fits) (h : IsBuiltBy c c.script d) {l : Path} {w : Wire}
    (hl : d.IsWireName c l w) : l.length = 4 ∧ ∀ i ∈ l, d.Spells i := by
  cases hl with
  | made hmade hi =>
    obtain ⟨hr, -, -, hplain⟩ := hmade.spec hc
    refine ⟨rfl, ?_⟩
    simp only [List.forall_mem_cons]
    exact ⟨h.spells_wire, h.spells_numeral hr.lt_numeralCount.1,
      h.spells_numeral hr.lt_numeralCount.2, ⟨_, hi, hplain⟩, fun _ hnil => nomatch hnil⟩
  | node hk ht hz =>
    obtain ⟨hx, hy⟩ := (hc.inRange ht).lt_numeralCount
    refine ⟨rfl, ?_⟩
    simp only [List.forall_mem_cons]
    exact ⟨h.spells_nodeType hk, h.spells_numeral hx, h.spells_numeral hy, h.spells_numeral hz,
      fun _ hnil => nomatch hnil⟩

/-- The names of the wires are canonical. -/
theorem canonical_wires (hc : Chip.isGrid c.width c.height = true) (h : IsBuiltBy c c.script d) :
    d.Canonical (· ∈ d.wires.wires) d.wireName d.wireNamed? := by
  have hfits := Chip.fits_of_isGrid hc
  refine .of_relation (fun _ => h.exists_isWireName hc) (fun _ _ => h.wireName_of_isWireName hfits)
    (fun _ _ => h.wireNamed?_eq_some_iff hfits) fun l w hl => ?_
  obtain ⟨hlength, hspells⟩ := h.spells_wireName hfits hl
  exact ⟨hlength ▸ by decide, hspells⟩

end IsBuiltBy

/-! ### Pips -/

/-- What the pips of a model are called. -/
inductive Device.IsPipName (c : Chip) (d : Device) : Path → Pip → Prop where
  | pip {p : Pip} {src dst : Path} (hp : p ∈ d.wires.pips) (hsrc : d.IsWireName c src p.src)
      (hdst : d.IsWireName c dst p.dst) : IsPipName c d (src ++ dst) p

namespace IsBuiltBy

variable {c : Chip} {d : Device}

/-- Every pip has a name. -/
theorem exists_isPipName (hc : Chip.isGrid c.width c.height = true) (h : IsBuiltBy c c.script d)
    {p : Pip} (hp : p ∈ d.wires.pips) : ∃ l, d.IsPipName c l p := by
  obtain ⟨hsrc, hdst⟩ := h.mem_wires_of_mem_pips hp
  obtain ⟨src, hsrc⟩ := h.exists_isWireName hc hsrc
  obtain ⟨dst, hdst⟩ := h.exists_isWireName hc hdst
  exact ⟨src ++ dst, .pip hp hsrc hdst⟩

/-- A name that a pip has is the one that it is asked for by, and the pip is listed. -/
theorem pipName_of_isPipName (hc : c.Fits) (h : IsBuiltBy c c.script d) {l : Path} {p : Pip}
    (hl : d.IsPipName c l p) : p ∈ d.wires.pips ∧ d.pipName p = .ok l := by
  obtain ⟨hp, hsrc, hdst⟩ := hl
  refine ⟨hp, ?_⟩
  rw [Device.pipName, (h.wireName_of_isWireName hc hsrc).2, (h.wireName_of_isWireName hc hdst).2]
  rfl

/-- The names that find a pip are those that the pips have. -/
theorem pipNamed?_eq_some_iff (hc : c.Fits) (h : IsBuiltBy c c.script d) {l : Path} {p : Pip} :
    d.pipNamed? l = some p ↔ d.IsPipName c l p := by
  constructor
  · intro hl
    obtain ⟨-, hl⟩ := Option.ite_none_right_eq_some.mp hl
    obtain ⟨src, hsrc, hrest⟩ := Option.bind_eq_some_iff.mp hl
    obtain ⟨dst, hdst, hfound⟩ := Option.bind_eq_some_iff.mp hrest
    obtain ⟨hconnected, hsame⟩ := Option.ite_none_right_eq_some.mp hfound
    obtain rfl := Option.some.inj hsame
    rw [← List.take_append_drop 4 l]
    exact .pip (WireGraph.mem_pips.mpr hconnected) ((h.wireNamed?_eq_some_iff hc).mp hsrc)
      ((h.wireNamed?_eq_some_iff hc).mp hdst)
  · rintro ⟨hp, hsrc, hdst⟩
    have hsrcLength := (h.spells_wireName hc hsrc).1
    have hdstLength := (h.spells_wireName hc hdst).1
    rw [Device.pipNamed?, if_pos (by rw [List.length_append, hsrcLength, hdstLength]),
      List.take_left' hsrcLength, List.drop_left' hsrcLength,
      (h.wireNamed?_eq_some_iff hc).mpr hsrc, (h.wireNamed?_eq_some_iff hc).mpr hdst]
    exact if_pos (WireGraph.mem_pips.mp hp)

/-- A name of a pip reads back from its text. -/
theorem spells_pipName (hc : c.Fits) (h : IsBuiltBy c c.script d) {l : Path} {p : Pip}
    (hl : d.IsPipName c l p) : 2 ≤ l.length ∧ ∀ i ∈ l, d.Spells i := by
  obtain ⟨-, hsrc, hdst⟩ := hl
  obtain ⟨hsrcLength, hsrc⟩ := h.spells_wireName hc hsrc
  obtain ⟨-, hdst⟩ := h.spells_wireName hc hdst
  refine ⟨?_, fun i hi => (List.mem_append.mp hi).elim (hsrc i) (hdst i)⟩
  rw [List.length_append, hsrcLength]
  exact Nat.le_trans (by decide) (Nat.le_add_right 4 _)

/-- The names of the pips are canonical. -/
theorem canonical_pips (hc : Chip.isGrid c.width c.height = true) (h : IsBuiltBy c c.script d) :
    d.Canonical (· ∈ d.wires.pips) d.pipName d.pipNamed? :=
  have hfits := Chip.fits_of_isGrid hc
  .of_relation (fun _ => h.exists_isPipName hc) (fun _ _ => h.pipName_of_isPipName hfits)
    (fun _ _ => h.pipNamed?_eq_some_iff hfits) fun _ _ => h.spells_pipName hfits

end IsBuiltBy

/-! ### All names -/

namespace Device

/-- On the device of every chip that can be selected, the names of sites, wires and
pips are canonical. -/
theorem canonicalNames {selection : Selection} {c : Chip} (h : selection.chip = .ok c) :
    ∃ d, ofSelection selection = .ok d ∧ d.Canonical (· ∈ d.bels) d.belName d.belNamed? ∧
      d.Canonical (· ∈ d.wires.wires) d.wireName d.wireNamed? ∧
      d.Canonical (· ∈ d.wires.pips) d.pipName d.pipNamed? := by
  obtain ⟨d, hd, hbuilt⟩ := exists_isBuiltBy h
  have hc := Selection.isGrid_chip h
  exact ⟨d, hd, hbuilt.canonical_bels (Selection.fits_chip h), hbuilt.canonical_wires hc,
    hbuilt.canonical_pips hc⟩

/-- On the smallest grid the first site of the LAB, its first clock wire and the pip from the
dedicated input to that wire are found under their names, which are read from text. -/
theorem canonicalNames_smallest : ∃ d, ofSelection (.ofGrid 3 2) = .ok d ∧
    (∃ l, (Edit.parseName "1.1.ALM0_COMB0").run d = (.ok l, d) ∧
      d.belNamed? l = some (siteNumber 1 1 0)) ∧
    (∃ l, (Edit.parseName "WIRE.1.1.CLK0").run d = (.ok l, d) ∧
      d.wireNamed? l = some (syntheticNode 1 1 0)) ∧
    ∃ l, (Edit.parseName "GIN.1.1.80.WIRE.1.1.CLK0").run d = (.ok l, d) ∧
      d.pipNamed? l = some ⟨.pack 1 1 1 80, syntheticNode 1 1 0⟩ := by
  obtain ⟨d, hd, hbels, hwires, hpips⟩ := canonicalNames chip_smallestGrid
  obtain ⟨d', hd', hbuilt⟩ := exists_isBuiltBy chip_smallestGrid
  obtain rfl := Except.ok.inj (hd.symm.trans hd')
  have hfits := Selection.fits_chip chip_smallestGrid
  -- The three resources by their names, whose last components were put into use by the build.
  have hsite : Chip.HasSite ⟨"synthetic-3x2", 3, 2⟩ 1 1 0 "ALM0_COMB0" := ⟨.lab, rfl, rfl⟩
  have hmade : Chip.HasMade ⟨"synthetic-3x2", 3, 2⟩ 1 1 0 "CLK0" := ⟨.lab, rfl, rfl⟩
  obtain ⟨site, -, hi⟩ := hbuilt.exists_hasSite hfits hsite
  obtain ⟨selection, hbuilds⟩ := hbuilt.builds
  obtain ⟨j, hj, -⟩ := hbuilds.named (Chip.hasMade_iff.mp hmade)
  have hpip : (⟨.pack 1 1 1 80, syntheticNode 1 1 0⟩ : Pip) ∈ d.wires.pips :=
    hbuilt.mem_pips_of_plan (t := (1, 1)) (by decide) (by decide) rfl List.mem_cons_self
  have hgin : d.IsWireName ⟨"synthetic-3x2", 3, 2⟩
      [Known.nodeType 1, Known.numeral 1, Known.numeral 1, Known.numeral 80] (.pack 1 1 1 80) :=
    .node (by decide) (by decide) (by decide) (hbuilt.mem_wires_of_mem_pips hpip).1
  obtain ⟨hbel, hbelName⟩ := hbuilt.belName_of_isSiteName hfits (.site hsite hi)
  obtain ⟨hwire, hwireName⟩ := hbuilt.wireName_of_isWireName hfits (.made hmade hj)
  obtain ⟨-, hpipName⟩ := hbuilt.pipName_of_isPipName hfits (.pip hpip hgin (.made hmade hj))
  -- The texts of the other components are those of the vocabulary.
  have hone : d.interner.name? (Known.numeral 1) = some "1" :=
    hbuilt.name?_known (Known.name?_numeral (by decide))
  have heighty : d.interner.name? (Known.numeral 80) = some "80" :=
    hbuilt.name?_known (Known.name?_numeral (by decide))
  have hprefix := hbuilt.name?_known Known.name?_wire
  have htype := hbuilt.name?_known (Known.name?_nodeType 1)
  refine ⟨d, hd, ?_, ?_, ?_⟩
  · exact hbels.find?_of_text hbel hbelName ["1", "1", "ALM0_COMB0"] (by simp [hone, hi])
  · exact hwires.find?_of_text hwire hwireName ["WIRE", "1", "1", "CLK0"]
      (by simp [hone, hprefix, hj])
  · exact hpips.find?_of_text hpip hpipName ["GIN", "1", "1", "80", "WIRE", "1", "1", "CLK0"]
      (by simp [hone, heighty, hprefix, htype, hj])

end Device

end Fabric
