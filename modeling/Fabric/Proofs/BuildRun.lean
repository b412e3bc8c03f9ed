import Fabric.Device.Build
import Fabric.Proofs.GraphRun
import Fabric.Proofs.Sites

/-!
# Runs of a build

A build makes a device out of few kinds of things: wires under names, pips, sites, pins and places
of sites. What it makes one after the other is a list of `BuildStep`s, the *script* of the build,
and `Builds d₀ s d` says that the model `d` arises from `d₀` by the steps of `s`, each of which
could be made when its turn came. Steps that leave wires and sites alone are not listed: strings are
put into use, records are made, a LAB is entered.

Whatever holds of a built device can be read off its script: for each view of a model there is a
lemma about one step, and by induction one about a whole run.

## Main results

* `Builds.sourcesOf`, `Builds.targetsOf`, `Builds.mem_wires`: the wires and pips of a built device;
* `Builds.belPins`, `Builds.belPin?`: the pins on a wire, and the pins of a site;
* `Builds.named`, `Builds.of_created`, `Builds.unnamed`: wires and their names;
* `Builds.exists_site`, `Builds.bels`, `Builds.place`: sites, their names and their places.
-/

namespace Fabric

open Device (syntheticNode syntheticCount)

/-- What a step of a build makes. -/
inductive BuildStep where
  /-- Synthetic node number `n` of a tile becomes a wire under a name. -/
  | wire (x y n : Nat) (name : String)
  | pip (src dst : Wire)
  /-- Site number `n` of a tile. -/
  | site (x y n : Nat) (name : String) (type : Ident)
  /-- A pin of a site, attached to its wire. -/
  | pin (bel : BelId) (name : Ident) (pin : SitePin)
  /-- The part of its block that a site stands for, and its place among the
  LABs, if it is in one. -/
  | place (bel : BelId) (part : Nat) (place : Option LabPlace)
  deriving DecidableEq

namespace BuildStep

/-- The wires that a step speaks of, which exist then. -/
def wires : BuildStep → List Wire
  | wire x y n _ => [syntheticNode x y n]
  | pip src dst => [src, dst]
  | pin _ _ p => [p.wire]
  | site .. | place .. => []

/-- The driver that a step adds to a wire. -/
def sourceFor (w : Wire) : BuildStep → Option Wire
  | pip src dst => if dst = w then some src else none
  | _ => none

/-- The wire that a step makes a wire drive. -/
def targetFor (w : Wire) : BuildStep → Option Wire
  | pip src dst => if src = w then some dst else none
  | _ => none

/-- The pin that a step attaches to a wire. -/
def attached (w : Wire) : BuildStep → Option BelPin
  | pin bel name p => if p.wire = w then some ⟨bel, name⟩ else none
  | _ => none

/-- The site that a step makes. -/
def bel? : BuildStep → Option BelId
  | site x y n _ _ => some (siteNumber x y n)
  | _ => none

end BuildStep

/-! ### Steps -/

namespace Device

/-- A change that makes nothing: wires and sites stay, and strings stay in use. -/
structure Silent (d d' : Device) : Prop where
  chip : d'.chip = d.chip
  wires : d'.wires = d.wires
  created : d'.created = d.created
  bels : d'.bels = d.bels
  tile? : ∀ x y, d'.tile? x y = d.tile? x y
  name? : ∀ i str, d.interner.name? i = some str → d'.interner.name? i = some str

/-- A step can be made in a model, and leads to another one. -/
inductive Makes (d : Device) : BuildStep → Device → Prop
  | wire {x y n : Nat} {name : String} {i : Ident} (hname : d.interner.name? i = some name)
      (hnew : d.created[(x, y, i)]? = none) (hfree : syntheticNode x y n ∉ d.wires.wires) :
      d.Makes (.wire x y n name) (d.insertWire x y i 0 (syntheticNode x y n))
  | pip (src dst : Wire) : d.Makes (.pip src dst) { d with wires := d.wires.addPip src dst }
  | site {x y t : Nat} {tile : Array Site} {name : String} {i : Ident} (type : Ident)
      (hname : d.interner.name? i = some name) (htile : d.tile? x y = some tile)
      (hindex : d.tileIndex? x y = some t) :
      d.Makes (.site x y tile.size name type) { d with
        sites := d.sites.modify t (·.push { name := i, type := type })
        bels := d.bels.push (siteNumber x y tile.size) }
  | pin {bel : BelId} {site : Site} {name : Ident} (p : SitePin) (hsite : d.site? bel = some site)
      (hnew : site.pins.get? name = none) :
      d.Makes (.pin bel name p)
        { d.modifySite bel fun s => { s with pins := s.pins.insert name p } with
          wires := d.wires.attach p.wire ⟨bel, name⟩ }
  | place {bel : BelId} {site : Site} (part : Nat) (place : Option LabPlace)
      (hsite : d.site? bel = some site) :
      d.Makes (.place bel part place)
        (d.modifySite bel fun s => { s with blockIndex := part, place := place.or s.place })

/-- A model arises from another one by the steps of a script. -/
inductive Builds (d₀ : Device) : List BuildStep → Device → Prop
  | start : d₀.Builds [] d₀
  | silent {s : List BuildStep} {d d' : Device} (h : d₀.Builds s d) (hd : d.Silent d') :
      d₀.Builds s d'
  | step {s : List BuildStep} {d d' : Device} {step : BuildStep} (h : d₀.Builds s d)
      (hstep : d.Makes step d') : d₀.Builds (s ++ [step]) d'

/-- Several pips to one wire are made one after the other. -/
theorem Builds.addPips {d₀ d : Device} {s : List BuildStep} (h : d₀.Builds s d)
    (sources : List Wire) (dst : Wire) : d₀.Builds (s ++ sources.map (.pip · dst))
      { d with wires := d.wires.addPips sources dst } := by
  induction sources generalizing s d with
  | nil => rwa [List.map_nil, List.append_nil]
  | cons src rest ih =>
    have hrest := ih (h.step (.pip src dst))
    rwa [List.append_assoc] at hrest

theorem Builds.trans {d₀ d d' : Device} {s t : List BuildStep} (h : d₀.Builds s d)
    (h' : d.Builds t d') : d₀.Builds (s ++ t) d' := by
  induction h' with
  | start => rwa [List.append_nil]
  | silent _ hd ih => exact .silent ih hd
  | step _ hstep ih =>
    rw [← List.append_assoc]
    exact .step ih hstep

/-! ### Changes that make nothing -/

/-- A change of something else than wires, sites and names. -/
theorem Silent.of_fields {d d' : Device} (hchip : d'.chip = d.chip) (hwires : d'.wires = d.wires)
    (hcreated : d'.created = d.created) (hbels : d'.bels = d.bels) (hsites : d'.sites = d.sites)
    (hinterner : d'.interner = d.interner) : d.Silent d' where
  chip := hchip
  wires := hwires
  created := hcreated
  bels := hbels
  tile? x y := by rw [Device.tile?, tileIndex?, hchip, hsites]; rfl
  name? i str h := by rwa [hinterner]

/-- Interning a name makes nothing. -/
theorem Silent.intern (d : Device) (str : String) :
    d.Silent { d with interner := (d.interner.intern str).2 } where
  chip := rfl
  wires := rfl
  created := rfl
  bels := rfl
  tile? _ _ := rfl
  name? _ _ h := Interner.name?_intern h str

/-- What makes nothing leaves every site as it is. -/
theorem Silent.site? {d d' : Device} (h : d.Silent d') (bel : BelId) :
    d'.site? bel = d.site? bel := by
  rw [Device.site?, h.tile?, Device.site?]

theorem modifySite_bels (d : Device) (bel : BelId) (f : Site → Site) :
    (d.modifySite bel f).bels = d.bels := by
  rw [modifySite]
  split <;> rfl

end Device

/-! ### Wires and pips -/

namespace WireGraph

/-- An update adds its wire to the graph and no other. -/
theorem mem_wires_update {g : WireGraph} {w u : Wire} {f : WireInfo → WireInfo} :
    u ∈ (g.update w f).wires ↔ u ∈ g.wires ∨ u = w := by
  rw [wires_update, insertLast]
  split
  · rename_i h
    exact ⟨.inl, fun hu => hu.elim id fun heq => heq ▸ h⟩
  · simp

end WireGraph

namespace Device

variable {d d' : Device} {step : BuildStep}

/-- A step gives a wire the one source it names for it, as the last. -/
theorem Makes.sourcesOf (h : d.Makes step d') (w : Wire) :
    d'.wires.sourcesOf w = d.wires.sourcesOf w ++ (step.sourceFor w).toList := by
  simp only [WireGraph.sourcesOf]
  cases h with
  | wire =>
    simp only [insertWire, WireGraph.create, WireGraph.infoOf_update, BuildStep.sourceFor]
    split <;> simp
  | pip src dst =>
    simp only [WireGraph.infoOf_addPip, BuildStep.sourceFor]
    split <;> simp
  | site => simp [BuildStep.sourceFor]
  | pin p =>
    simp only [WireGraph.attach, WireGraph.infoOf_update, BuildStep.sourceFor]
    split <;> simp
  | place => simp [BuildStep.sourceFor]

/-- A step gives a wire the one target it names for it, as the last. -/
theorem Makes.targetsOf (h : d.Makes step d') (w : Wire) :
    d'.wires.targetsOf w = d.wires.targetsOf w ++ (step.targetFor w).toList := by
  simp only [WireGraph.targetsOf]
  cases h with
  | wire =>
    simp only [insertWire, WireGraph.create, WireGraph.infoOf_update, BuildStep.targetFor]
    split <;> simp
  | pip src dst =>
    simp only [WireGraph.infoOf_addPip, BuildStep.targetFor]
    split <;> simp
  | site => simp [BuildStep.targetFor]
  | pin p =>
    simp only [WireGraph.attach, WireGraph.infoOf_update, BuildStep.targetFor]
    split <;> simp
  | place => simp [BuildStep.targetFor]

/-- A step adds the wires it names to the graph and no other. -/
theorem Makes.mem_wires (h : d.Makes step d') (w : Wire) :
    w ∈ d'.wires.wires ↔ w ∈ d.wires.wires ∨ w ∈ step.wires := by
  cases h with
  | wire =>
    rw [BuildStep.wires, List.mem_singleton]
    exact WireGraph.mem_wires_update
  | pip src dst =>
    rw [BuildStep.wires, List.mem_cons, List.mem_singleton, ← or_assoc]
    exact WireGraph.mem_wires_update.trans (or_congr_left WireGraph.mem_wires_update)
  | site => simp [BuildStep.wires]
  | pin p =>
    rw [BuildStep.wires, List.mem_singleton]
    exact WireGraph.mem_wires_update
  | place => simp [BuildStep.wires]

/-- The pins on a wire after a step. -/
theorem Makes.belPins (h : d.Makes step d') (w : Wire) : (d'.wires.infoOf w).belPins.toList =
    (d.wires.infoOf w).belPins.toList ++ (step.attached w).toList := by
  cases h with
  | wire =>
    simp only [insertWire, WireGraph.create, WireGraph.infoOf_update, BuildStep.attached]
    split <;> simp
  | pip => simp [WireGraph.infoOf_addPip, BuildStep.attached]
  | site => simp [BuildStep.attached]
  | pin p =>
    simp only [WireGraph.attach, WireGraph.infoOf_update, BuildStep.attached]
    split <;> simp
  | place => simp [BuildStep.attached]

end Device

/-! ### Sites and names -/

/-- A site keeps its name, its type and its pins. -/
structure Site.Extends (site site' : Site) : Prop where
  name : site'.name = site.name
  type : site'.type = site.type
  pins : ∀ name p, site.pins.get? name = some p → site'.pins.get? name = some p

theorem Site.Extends.refl (site : Site) : site.Extends site := ⟨rfl, rfl, fun _ _ hp => hp⟩

namespace Device

variable {d d' : Device} {step : BuildStep}

/-- A step interns nothing. -/
theorem Makes.interner (h : d.Makes step d') : d'.interner = d.interner := by
  cases h with
  | wire => rfl
  | pip => rfl
  | site => rfl
  | pin => simp
  | place => simp

/-- A step makes the site it names, as the last. -/
theorem Makes.bels (h : d.Makes step d') : d'.bels.toList = d.bels.toList ++ step.bel?.toList := by
  cases h with
  | wire => exact (List.append_nil _).symm
  | pip => exact (List.append_nil _).symm
  | site => exact Array.toList_push
  | pin => simp [modifySite_bels, BuildStep.bel?]
  | place => simp [modifySite_bels, BuildStep.bel?]

/-- A site read back after a change is the changed one exactly when it is the site changed. -/
theorem site?_modifySite_of_some {bel bel' : BelId} {site : Site} (hsite : d.site? bel = some site)
    (f : Site → Site) :
    (d.modifySite bel' f).site? bel = some (if bel' = bel then f site else site) := by
  rw [site?_modifySite]
  split
  · rw [hsite, Option.map_some]
  · exact hsite

/-- A new site comes after those of its tile. -/
theorem site?_push {x y t : Nat} (hindex : d.tileIndex? x y = some t) (new : Site) {bel : BelId}
    {site : Site} (hsite : d.site? bel = some site) :
    ({ d with sites := d.sites.modify t (·.push new) } : Device).site? bel = some site := by
  obtain ⟨tile', htile', hget⟩ := Option.bind_eq_some_iff.mp hsite
  refine (congrArg (Option.bind · _) (tile?_modify hindex _ _ _)).trans ?_
  rw [htile']
  split
  · rw [Option.map_some, Option.bind_some, Array.getElem?_push,
      if_neg (Nat.ne_of_lt (Array.getElem?_eq_some_iff.mp hget).1)]
    exact hget
  · exact hget

/-- A site after a step. -/
theorem Makes.exists_site (h : d.Makes step d') {bel : BelId} {site : Site}
    (hsite : d.site? bel = some site) : ∃ site', d'.site? bel = some site' ∧ site.Extends site' ∧
      (site'.blockIndex = site.blockIndex ∧ site'.place = site.place ∨
        ∃ part place, step = .place bel part place ∧ site'.blockIndex = part ∧
          site'.place = place.or site.place) := by
  cases h with
  | wire => exact ⟨site, hsite, .refl site, .inl ⟨rfl, rfl⟩⟩
  | pip => exact ⟨site, hsite, .refl site, .inl ⟨rfl, rfl⟩⟩
  | site type hname htile hindex =>
    exact ⟨site, site?_push hindex _ hsite, .refl site, .inl ⟨rfl, rfl⟩⟩
  | @pin bel' site' name p hsite' hnew =>
    refine ⟨_, site?_modifySite_of_some hsite _, ?_⟩
    split
    · rename_i heq
      subst heq
      obtain rfl := Option.some.inj (hsite'.symm.trans hsite)
      refine ⟨⟨rfl, rfl, fun other q hq => ?_⟩, .inl ⟨rfl, rfl⟩⟩
      -- A pin that the site has is not the new one.
      rw [Table.get?_insert, if_neg, hq]
      rintro rfl
      rw [hnew] at hq
      cases hq
    · exact ⟨.refl site, .inl ⟨rfl, rfl⟩⟩
  | @place bel' site' part place hsite' =>
    refine ⟨_, site?_modifySite_of_some hsite _, ?_⟩
    split
    · rename_i heq
      subst heq
      exact ⟨⟨rfl, rfl, fun _ _ hq => hq⟩, .inr ⟨part, place, rfl, rfl, rfl⟩⟩
    · exact ⟨.refl site, .inl ⟨rfl, rfl⟩⟩

end Device

/-! ### Runs -/

/-- Mapping over a longer list adds what the last element gives. -/
theorem filterMap_concat {α β : Type} (f : α → Option β) (l : List α) (a : α) :
    (l ++ [a]).filterMap f = l.filterMap f ++ (f a).toList := by
  rw [List.filterMap_append]
  cases h : f a <;> simp [h]

namespace Device.Builds

variable {d₀ d : Device} {s : List BuildStep} {bel : BelId}

/-- Strings that are in use stay in use. -/
theorem name? (h : d₀.Builds s d) {i : Ident} {str : String} (hi : d₀.interner.name? i = some str) :
    d.interner.name? i = some str := by
  induction h with
  | start => exact hi
  | silent _ hd ih => exact hd.name? i str ih
  | step _ hstep ih => rwa [hstep.interner]

/-- The sites of a finished build are those its steps made, in their order. -/
theorem bels (h : d₀.Builds s d) :
    d.bels.toList = d₀.bels.toList ++ s.filterMap BuildStep.bel? := by
  induction h with
  | start => exact (List.append_nil _).symm
  | silent _ hd ih => rw [hd.bels, ih]
  | step _ hstep ih => rw [hstep.bels, ih, filterMap_concat, List.append_assoc]

/-- The drivers of a wire are those that the steps add to it, in order. -/
theorem sourcesOf (h : d₀.Builds s d) (w : Wire) :
    d.wires.sourcesOf w = d₀.wires.sourcesOf w ++ s.filterMap (·.sourceFor w) := by
  induction h with
  | start => exact (List.append_nil _).symm
  | silent _ hd ih => rw [hd.wires, ih]
  | step _ hstep ih =>
    rw [hstep.sourcesOf, ih, filterMap_concat, List.append_assoc]

/-- The targets of a wire are those the steps gave it, in their order. -/
theorem targetsOf (h : d₀.Builds s d) (w : Wire) :
    d.wires.targetsOf w = d₀.wires.targetsOf w ++ s.filterMap (·.targetFor w) := by
  induction h with
  | start => exact (List.append_nil _).symm
  | silent _ hd ih => rw [hd.wires, ih]
  | step _ hstep ih =>
    rw [hstep.targetsOf, ih, filterMap_concat, List.append_assoc]

/-- The wires are those that the steps speak of. -/
theorem mem_wires (h : d₀.Builds s d) (w : Wire) :
    w ∈ d.wires.wires ↔ w ∈ d₀.wires.wires ∨ ∃ step ∈ s, w ∈ step.wires := by
  induction h with
  | start => simp
  | silent _ hd ih => rw [hd.wires, ih]
  | step _ hstep ih =>
    rw [hstep.mem_wires, ih, or_assoc]
    simp only [List.mem_append, List.mem_singleton, or_and_right, exists_or, exists_eq_left]

/-- The pins on a wire are those that the steps attach to it, in order. -/
theorem belPins (h : d₀.Builds s d) (w : Wire) : (d.wires.infoOf w).belPins.toList =
    (d₀.wires.infoOf w).belPins.toList ++ s.filterMap (·.attached w) := by
  induction h with
  | start => exact (List.append_nil _).symm
  | silent _ hd ih => rw [hd.wires, ih]
  | step _ hstep ih => rw [hstep.belPins, ih, filterMap_concat, List.append_assoc]

/-- A site that was made has its name and type. -/
theorem exists_site (h : d₀.Builds s d) {x y n : Nat} (hx : x < coordinateCount)
    (hy : y < coordinateCount) (hn : n < siteCount) {name : String} {type : Ident}
    (hmem : .site x y n name type ∈ s) : ∃ site, d.site? (siteNumber x y n) = some site ∧
      d.interner.name? site.name = some name ∧ site.type = type := by
  induction h with
  | start => cases hmem
  | silent _ hd ih =>
    obtain ⟨site, hsite, hname, htype⟩ := ih hmem
    exact ⟨site, (hd.site? _).trans hsite, hd.name? _ _ hname, htype⟩
  | step _ hstep ih =>
    rcases List.mem_append.mp hmem with hmem | hmem
    · obtain ⟨site, hsite, hname, htype⟩ := ih hmem
      obtain ⟨site', hsite', hext, -⟩ := hstep.exists_site hsite
      exact ⟨site', hsite', by rw [hstep.interner, hext.name, hname], hext.type.trans htype⟩
    · obtain rfl := List.mem_singleton.mp hmem
      cases hstep with
      | @site _ _ t tile _ i _ hname htile hindex =>
        refine ⟨{ name := i, type := type }, ?_, hname, rfl⟩
        refine (site?_siteNumber _ hx hy hn).trans ?_
        refine (congrArg (Option.bind · _) (tile?_modify hindex _ x y)).trans ?_
        simp [htile]

/-- A pin that was made is a pin of its site. -/
theorem belPin? (h : d₀.Builds s d) {name : Ident} {p : SitePin} (hmem : .pin bel name p ∈ s) :
    d.belPin? bel name = some p := by
  have hkeep {d d' : Device} (hgrow : ∀ site, d.site? bel = some site →
      ∃ site', d'.site? bel = some site' ∧ site.Extends site') (hp : d.belPin? bel name = some p) :
      d'.belPin? bel name = some p := by
    obtain ⟨site, hsite, hpin⟩ := Option.bind_eq_some_iff.mp hp
    obtain ⟨site', hsite', hext⟩ := hgrow site hsite
    rw [Device.belPin?, hsite', Option.bind_some, hext.pins name p hpin]
  induction h with
  | start => cases hmem
  | silent _ hd ih =>
    exact hkeep (fun site hsite => ⟨site, (hd.site? _).trans hsite, .refl site⟩) (ih hmem)
  | step _ hstep ih =>
    rcases List.mem_append.mp hmem with hmem | hmem
    · refine hkeep (fun site hsite => ?_) (ih hmem)
      obtain ⟨site', hsite', hext, -⟩ := hstep.exists_site hsite
      exact ⟨site', hsite', hext⟩
    · obtain rfl := List.mem_singleton.mp hmem
      cases hstep with
      | pin _ hsite hnew =>
        refine (congrArg (Option.bind · _) (site?_modifySite_of_some hsite _)).trans ?_
        rw [if_pos rfl, Option.bind_some, Table.get?_insert_self]

/-- A site that was given one place has that place. -/
theorem place (h : d₀.Builds s d) {part : Nat} {place : Option LabPlace}
    (hmem : .place bel part place ∈ s)
    (honly : ∀ part' place', .place bel part' place' ∈ s → part' = part ∧ place' = place) :
    ∃ site, d.site? bel = some site ∧ site.blockIndex = part ∧
      ∀ p, place = some p → site.place = some p := by
  induction h with
  | start => cases hmem
  | silent _ hd ih =>
    obtain ⟨site, hsite, hplace⟩ := ih hmem honly
    exact ⟨site, (hd.site? _).trans hsite, hplace⟩
  | step _ hstep ih =>
    rcases List.mem_append.mp hmem with hmem | hmem
    · obtain ⟨site, hsite, hpart, hplace⟩ := ih hmem fun part' place' hmem' =>
        honly part' place' (List.mem_append_left _ hmem')
      obtain ⟨site', hsite', -, ⟨hpart', hplace'⟩ | ⟨part', place', rfl, hpart', hplace'⟩⟩ :=
        hstep.exists_site hsite
      · exact ⟨site', hsite', hpart'.trans hpart, fun p hp => hplace'.trans (hplace p hp)⟩
      · obtain ⟨rfl, rfl⟩ := honly part' place' (List.mem_append_right _ List.mem_cons_self)
        exact ⟨site', hsite', hpart', fun p hp => by rw [hplace', hp, Option.some_or]⟩
    · obtain rfl := List.mem_singleton.mp hmem
      cases hstep with
      | place _ _ hsite =>
        refine ⟨_, site?_modifySite_of_some hsite _, ?_⟩
        rw [if_pos rfl]
        exact ⟨rfl, fun p hp => by rw [hp, Option.some_or]⟩

/-! ### Names of wires -/

/-- A wire that was made is found under its name, and has it. -/
def Named (d : Device) (x y n : Nat) (name : String) : Prop :=
  ∃ i, d.interner.name? i = some name ∧ (d.wires.infoOf (syntheticNode x y n)).name = i ∧
    d.created[(x, y, i)]? = some (syntheticNode x y n)

/-- Every wire a build makes ends up with the name it was made with. -/
theorem named (h : d₀.Builds s d) {x y n : Nat} {name : String} (hmem : .wire x y n name ∈ s) :
    Named d x y n name := by
  induction h with
  | start => cases hmem
  | silent _ hd ih =>
    obtain ⟨i, hi, hinfo, hcreated⟩ := ih hmem
    exact ⟨i, hd.name? i name hi, by rw [hd.wires, hinfo], by rw [hd.created, hcreated]⟩
  | step h hstep ih =>
    rcases List.mem_append.mp hmem with hbefore | hlast
    · obtain ⟨i, hi, hinfo, hcreated⟩ := ih hbefore
      refine ⟨i, by rw [hstep.interner, hi], ?_, ?_⟩
      · cases hstep with
        | wire _ _ hfree =>
          -- A free node is not the node of a wire that was made.
          refine (congrArg WireInfo.name (WireGraph.infoOf_update ..)).trans ?_
          rw [if_neg, hinfo]
          rintro heq
          refine hfree ((h.mem_wires _).mpr (.inr ⟨_, hbefore, ?_⟩))
          rw [heq, BuildStep.wires]
          exact List.mem_cons_self
        | pip => rw [WireGraph.infoOf_addPip, hinfo]
        | site => exact hinfo
        | pin =>
          refine (congrArg WireInfo.name (WireGraph.infoOf_update ..)).trans ?_
          split <;> exact hinfo
        | place => rwa [modifySite_wires]
      · cases hstep with
        | @wire x' y' n' name' i' _ hnew _ =>
          refine Std.HashMap.getElem?_insert.trans ?_
          rw [if_neg, hcreated]
          intro heq
          rw [beq_iff_eq] at heq
          rw [heq, hcreated] at hnew
          cases hnew
        | pip => exact hcreated
        | site => exact hcreated
        | pin => simpa using hcreated
        | place => simpa using hcreated
    · obtain rfl := List.mem_singleton.mp hlast
      cases hstep with
      | @wire _ _ _ _ i hname _ _ =>
        refine ⟨i, hname, ?_, ?_⟩
        · refine (congrArg WireInfo.name (WireGraph.infoOf_update ..)).trans ?_
          rw [if_pos rfl]
        · exact Std.HashMap.getElem?_insert_self

/-- A wire that is found under a name was made under it. -/
theorem of_created (h : d₀.Builds s d) (hnone : d₀.created = ∅) {x y : Nat} {i : Ident} {w : Wire}
    (hw : d.created[(x, y, i)]? = some w) :
    ∃ n name, .wire x y n name ∈ s ∧ w = syntheticNode x y n ∧ d.interner.name? i = some name := by
  induction h with
  | start =>
    rw [hnone] at hw
    simp at hw
  | silent _ hd ih =>
    rw [hd.created] at hw
    obtain ⟨n, name, hmem, hnode, hname⟩ := ih hw
    exact ⟨n, name, hmem, hnode, hd.name? i name hname⟩
  | @step s d d' step h hstep ih =>
    have hkeep (hsame : d.created[(x, y, i)]? = some w) : ∃ n name, .wire x y n name ∈ s ++ [step] ∧
        w = syntheticNode x y n ∧ d'.interner.name? i = some name := by
      obtain ⟨n, name, hmem, hnode, hname⟩ := ih hsame
      exact ⟨n, name, List.mem_append_left _ hmem, hnode, by rw [hstep.interner, hname]⟩
    cases hstep with
    | @wire x' y' n' name' i' hname _ _ =>
      rw [show (d.insertWire x' y' i' 0 (syntheticNode x' y' n')).created[(x, y, i)]? = _ from
        Std.HashMap.getElem?_insert] at hw
      split at hw
      · rename_i heq
        rw [beq_iff_eq, Prod.mk.injEq, Prod.mk.injEq] at heq
        obtain ⟨rfl, rfl, rfl⟩ := heq
        exact ⟨n', name', List.mem_append_right _ List.mem_cons_self,
          (Option.some.inj hw).symm, hname⟩
      · exact hkeep hw
    | pip => exact hkeep hw
    | site => exact hkeep hw
    | pin => exact hkeep (by simpa using hw)
    | place => exact hkeep (by simpa using hw)

/-- A wire that was not made has no name. -/
theorem unnamed (h : d₀.Builds s d) {w : Wire} (hw : ∀ x y n name, .wire x y n name ∈ s →
    w ≠ syntheticNode x y n) : (d.wires.infoOf w).name = (d₀.wires.infoOf w).name := by
  induction h with
  | start => rfl
  | silent _ hd ih => rw [hd.wires, ih hw]
  | step _ hstep ih =>
    have hsame := ih fun x y n name hmem => hw x y n name (List.mem_append_left _ hmem)
    rw [← hsame]
    cases hstep with
    | wire =>
      refine congrArg WireInfo.name ((WireGraph.infoOf_update ..).trans (if_neg fun heq => ?_))
      exact hw _ _ _ _ (List.mem_append_right _ List.mem_cons_self) heq.symm
    | pip => rw [WireGraph.infoOf_addPip]
    | site => rfl
    | pin =>
      refine (congrArg WireInfo.name (WireGraph.infoOf_update ..)).trans ?_
      split <;> rfl
    | place => rw [modifySite_wires]

end Device.Builds

end Fabric
