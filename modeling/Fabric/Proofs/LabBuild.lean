import Fabric.Proofs.Tile
import Mathlib.Tactic.IntervalCases

/-!
# LABs under construction

`labPlan` lists the wires of a LAB in the order in which they are made: ten shared control wires,
then eighteen for each ALM. The wires of the whole LAB are therefore known by number, and
`labShared` and `labAlm` say which numbers the shared wires and the parts of each ALM have.

## Main results

* `answers_buildSharedWires`: the shared wires of a LAB;
* `answers_buildAlm`: the wires and sites of one ALM;
* `answers_buildLab`: a LAB is built as planned.
-/

namespace Fabric

open Device (syntheticNode syntheticCount)

/-! ### The plan of a LAB -/

/-- The data lines of a LAB, from one of them on and counted round. -/
def labDataLines (x y firstLine : Nat) : List Wire :=
  (List.range Chip.labDataLineCount).map fun k =>
    Chip.gin x y (Chip.labDataLineBase + (firstLine + k) % Chip.labDataLineCount)

/-- The shared control wires of a LAB. -/
def sharedPlan (x y : Nat) : List BlockWire :=
  (List.range Chip.labClockCount).map (fun i =>
      ⟨s!"CLK{i}", Chip.gin x y (Chip.labClockBase + i) :: labDataLines x y 0⟩)
    ++ [(0, 2), (1, 3), (2, 0)].map (fun (i, line) => ⟨s!"ENA{i}", labDataLines x y line⟩)
    ++ [(0, 3), (1, 2)].map (fun (i, line) =>
      ⟨s!"ACLR{i}", Chip.gin x y (Chip.labClearBase + i) :: labDataLines x y line⟩)
    ++ [⟨"SCLR", labDataLines x y 3⟩, ⟨"SLOAD", labDataLines x y 1⟩]

/-- The shared control wires by category and slot. -/
def labShared (x y : Nat) : ByKind (List Wire) where
  clk := [0, 1, 2].map (syntheticNode x y)
  ena := [3, 4, 5].map (syntheticNode x y)
  aclr := [6, 7].map (syntheticNode x y)
  sclr := [syntheticNode x y 8]
  sload := [syntheticNode x y 9]

/-- The wire behind an input of ALM `z`. -/
def almInput (x y z : Nat) (pin : AlmPin) : Wire :=
  Chip.gin x y (z * Chip.almInputCount + pin.index)

/-- Wire number `k` of ALM `z`. -/
def almNode (x y z k : Nat) : Wire := syntheticNode x y (10 + 18 * z + k)

/-- The LUT output of a half of ALM `z`. -/
def lutPlan (z : Nat) (half : Half) : BlockWire := ⟨s!"COMBOUT[{z * 2 + half.index}]", []⟩

/-- The selectors of a half of ALM `z`. -/
def selectorPlan (x y z : Nat) (half : Half) : List BlockWire :=
  let letter := match half with
    | .top => "T"
    | .bottom => "B"
  [⟨s!"CLK{letter}[{z}]", (labShared x y).clk⟩,
    ⟨s!"ENA{letter}[{z}]", (labShared x y).ena⟩,
    ⟨s!"ACLR{letter}[{z}]", (labShared x y).aclr⟩,
    ⟨s!"{letter}EF[{z}]", half.efPins.map (almInput x y z)⟩]

/-- The data input and the output of flip-flop `k` of a half of ALM `z`. -/
def flopPlan (z : Nat) (half : Half) (k : Nat) (combOut selector : Wire) : List BlockWire :=
  let i := half.index * 2 + k
  [⟨s!"FFIN[{z * 4 + i}]", [combOut, selector]⟩, ⟨s!"FFOUT[{z * 4 + i}]", []⟩]

/-- The wires of ALM `z`. -/
def almPlan (x y z : Nat) : List BlockWire :=
  [lutPlan z .top, lutPlan z .bottom] ++ selectorPlan x y z .top ++ selectorPlan x y z .bottom
    ++ flopPlan z .top 0 (almNode x y z 0) (almNode x y z 5)
    ++ flopPlan z .top 1 (almNode x y z 0) (almNode x y z 5)
    ++ flopPlan z .bottom 0 (almNode x y z 1) (almNode x y z 9)
    ++ flopPlan z .bottom 1 (almNode x y z 1) (almNode x y z 9)

/-- The wires of a LAB. -/
def labPlan (x y : Nat) : List BlockWire :=
  sharedPlan x y ++ (List.range Chip.almsPerLab).flatMap (almPlan x y)

/-- ALM `z` of a LAB. -/
def labAlm (x y z : Nat) : Alm where
  combOut := ⟨almNode x y z 0, almNode x y z 1⟩
  clkSelector := ⟨almNode x y z 2, almNode x y z 6⟩
  enaSelector := ⟨almNode x y z 3, almNode x y z 7⟩
  aclrSelector := ⟨almNode x y z 4, almNode x y z 8⟩
  efSelector := ⟨almNode x y z 5, almNode x y z 9⟩
  ffIn := ⟨(almNode x y z 10, almNode x y z 12), (almNode x y z 14, almNode x y z 16)⟩
  ffOut := ⟨(almNode x y z 11, almNode x y z 13), (almNode x y z 15, almNode x y z 17)⟩
  lutSites := ⟨siteNumber x y (6 * z), siteNumber x y (6 * z + 1)⟩
  ffSites := ⟨(siteNumber x y (6 * z + 2), siteNumber x y (6 * z + 3)),
    (siteNumber x y (6 * z + 4), siteNumber x y (6 * z + 5))⟩

/-- The LAB of a tile. -/
def labAt (x y : Nat) : Lab where
  pos := .pack x y
  alms := ((List.range Chip.almsPerLab).map (labAlm x y)).toArray
  shared := labShared x y

/-! ### The script of a LAB -/

/-- The inputs of ALM `z`. -/
def almInputs (x y z : Nat) : List (AlmPin × Wire) :=
  AlmPin.all.map fun pin => (pin, almInput x y z pin)

/-- The LUT site of a half of ALM `z`, whose output has node number `n`. -/
def lutSite (x y lab z n : Nat) (half : Half) : BlockSite where
  name := s!"ALM{z}_COMB{half.index}"
  type := Known.combSite
  pins := (almInputs x y z).map (fun (pin, wire) => (pin.ident, ⟨wire, .input⟩))
    ++ [(Known.combOut, ⟨syntheticNode x y n, .output⟩)]
  part := z
  place := some ⟨lab, z, half.index⟩

/-- The steps that make the LUT of a half of ALM `z`: its wire has number `n`,
its site number `m`. -/
def lutScript (x y lab z n m : Nat) (half : Half) : List BuildStep :=
  wireScript x y n (lutPlan z half) ++ siteScript x y m (lutSite x y lab z n half)

/-- The wires at the pins of a flip-flop. -/
structure FlopWires where
  combOut : Wire
  clk : Wire
  ena : Wire
  aclr : Wire
  selector : Wire

/-- The inputs of a flip-flop with their wires. The data input has node number `n`. -/
def flopInputs (x y n : Nat) (w : FlopWires) : List (Ident × Wire) :=
  [(Known.clk, w.clk), (Known.ena, w.ena), (Known.aclr, w.aclr), (Known.sclr, syntheticNode x y 8),
    (Known.sload, syntheticNode x y 9), (Known.sdata, w.selector),
    (Known.dataIn, syntheticNode x y n)]

/-- The site of flip-flop `k` of a half of ALM `z`, whose wires have the node
numbers `n` and `n + 1`. -/
def flopSite (x y lab z n : Nat) (w : FlopWires) (half : Half) (k : Nat) : BlockSite where
  name := s!"ALM{z}_FF{half.index * 2 + k}"
  type := Known.flipFlop
  pins := (flopInputs x y n w).map (fun (pin, wire) => (pin, ⟨wire, .input⟩))
    ++ [(Known.q, ⟨syntheticNode x y (n + 1), .output⟩)]
  part := z
  place := some ⟨lab, z, half.index * 2 + k⟩

/-- The multiplexers of the block outputs that flip-flop `k` of a half of ALM `z` drives. -/
def flopMuxes (x y z n : Nat) (combOut : Wire) (half : Half) (k : Nat) : List Mux :=
  (Edit.flopOutputs half k).map fun o =>
    ⟨Chip.gout x y (z * Chip.almOutputCount + o.index), [syntheticNode x y (n + 1), combOut]⟩

/-- The steps that make flip-flop `k` of a half of ALM `z`: its wires have numbers `n` and `n + 1`,
its site number `m`. -/
def flopScript (x y lab z n m : Nat) (w : FlopWires) (half : Half) (k : Nat) : List BuildStep :=
  wiresScript x y n (flopPlan z half k w.combOut w.selector)
    ++ siteScript x y m (flopSite x y lab z n w half k)
    ++ muxesScript (flopMuxes x y z n w.combOut half k)

/-- The wires at the pins of the flip-flops of a half of ALM `z`, by number: the LUT output, and
then the first of the four selectors. -/
def halfWires (x y z combOut selectors : Nat) : FlopWires where
  combOut := almNode x y z combOut
  clk := almNode x y z selectors
  ena := almNode x y z (selectors + 1)
  aclr := almNode x y z (selectors + 2)
  selector := almNode x y z (selectors + 3)

/-- The steps that make ALM `z`. -/
def almScript (x y lab z : Nat) : List BuildStep :=
  let n := 10 + 18 * z
  let m := 6 * z
  lutScript x y lab z n m .top ++ lutScript x y lab z (n + 1) (m + 1) .bottom
    ++ wiresScript x y (n + 2) (selectorPlan x y z .top)
    ++ wiresScript x y (n + 6) (selectorPlan x y z .bottom)
    ++ flopScript x y lab z (n + 10) (m + 2) (halfWires x y z 0 2) .top 0
    ++ flopScript x y lab z (n + 12) (m + 3) (halfWires x y z 0 2) .top 1
    ++ flopScript x y lab z (n + 14) (m + 4) (halfWires x y z 1 6) .bottom 0
    ++ flopScript x y lab z (n + 16) (m + 5) (halfWires x y z 1 6) .bottom 1

/-- The steps that make a LAB. -/
def labScript (x y lab : Nat) : List BuildStep :=
  wiresScript x y 0 (sharedPlan x y)
    ++ (List.range Chip.almsPerLab).flatMap (almScript x y lab)

/-! ### Properties of the plan -/

theorem length_sharedPlan (x y : Nat) : (sharedPlan x y).length = 10 := rfl

theorem length_almPlan (x y z : Nat) : (almPlan x y z).length = 18 := rfl

theorem length_labPlan (x y : Nat) : (labPlan x y).length = 190 := by
  simp [labPlan, length_sharedPlan, length_almPlan, List.length_flatMap, Chip.almsPerLab]

/-- The names of the wires of a LAB do not depend on its place. -/
theorem labPlan_names (x y : Nat) :
    (labPlan x y).map BlockWire.name = (labPlan 0 0).map BlockWire.name := by
  simp only [labPlan, sharedPlan, almPlan, selectorPlan, flopPlan, List.map_append,
    List.map_flatMap, List.map_map, List.map_cons, List.map_nil, Function.comp_def]

/-- The names of the wires of a LAB are all different. -/
theorem nodup_labPlan_names (x y : Nat) : ((labPlan x y).map BlockWire.name).Nodup := by
  rw [labPlan_names]
  decide +kernel

/-- A list of blocks of equal length, read by block and place. -/
theorem getElem?_flatMap_of_length {α β : Type} {l : List α} {f : α → List β} {size : Nat}
    (hsize : ∀ a, (f a).length = size) {i k : Nat} {a : α} (ha : l[i]? = some a) (hk : k < size) :
    (l.flatMap f)[size * i + k]? = (f a)[k]? := by
  induction l generalizing i with
  | nil => simp at ha
  | cons b rest ih =>
      rw [List.flatMap_cons]
      cases i with
      | zero =>
          obtain rfl := Option.some.inj ha
          rw [Nat.mul_zero, Nat.zero_add, List.getElem?_append_left (by rw [hsize]; exact hk)]
      | succ i =>
          have hi : size * (i + 1) + k = size * i + k + size := by rw [Nat.mul_succ]; omega
          rw [List.getElem?_append_right (by rw [hsize]; omega), hsize, hi, Nat.add_sub_cancel]
          exact ih ha

/-- The wires of ALM `z` come after the shared wires and those of the ALMs before it. -/
theorem getElem?_labPlan {x y z k : Nat} (hz : z < Chip.almsPerLab) (hk : k < 18) :
    (labPlan x y)[10 + 18 * z + k]? = (almPlan x y z)[k]? := by
  have hz' : (List.range Chip.almsPerLab)[z]? = some z := List.getElem?_range hz
  rw [labPlan, List.getElem?_append_right (by rw [length_sharedPlan]; omega), length_sharedPlan,
    ← getElem?_flatMap_of_length (length_almPlan x y) hz' hk]
  congr 1
  omega

/-! ### Building a LAB -/

/-- The first `n` wires of a LAB are made, and a number of sites. -/
abbrev LabStage (d₀ : Device) (x y n sites : Nat) (pins : Option (List Ident))
    (script : List BuildStep) : Device → Prop :=
  TileStage d₀ x y ((labPlan x y).take n) sites pins script

section Lab

variable {d₀ : Device} {x y : Nat} {pins : Option (List Ident)} {n sites : Nat}
  {script : List BuildStep}

/-- A shared wire is fed by its dedicated input and then by the data lines. -/
theorem answers_buildShared (ht : IsTile d₀.chip x y .lab) {name : String}
    {dedicated : Option Wire} {firstLine : Nat}
    (hplan : (labPlan x y)[n]? = some ⟨name, dedicated.toList ++ labDataLines x y firstLine⟩)
    (hdedicated : ∀ w ∈ dedicated, IsTileWire x y n w) :
    (Edit.buildShared x y name dedicated firstLine).Answers (LabStage d₀ x y n sites pins script)
      (syntheticNode x y n) (LabStage d₀ x y (n + 1) sites pins
        (script ++ wireScript x y n ⟨name, dedicated.toList ++ labDataLines x y firstLine⟩)) := by
  have hlen : (labPlan x y).length ≤ syntheticCount := by rw [length_labPlan]; decide
  have hlt := (List.getElem?_eq_some_iff.mp hplan).1
  have hcount := TileStage.length_take_of_getElem? hplan
  refine .bind (TileStage.answers_nextWire ht.toInRange (nodup_labPlan_names x y) hlen hplan) ?_
  refine .bind (a := ()) (TileStage.answers_addPips ht.toInRange hcount (by omega) ?_) ?_
  · simpa using hdedicated
  refine .bind (a := ()) ?_ (.pure fun _ h => h)
  rw [LabStage, ← TileStage.take_append_of_getElem? hplan]
  refine .mono (.forM (fun k => TileStage d₀ x y ((labPlan x y).take n ++
    [⟨name, dedicated.toList ++ (labDataLines x y firstLine).take k⟩]) sites pins
    (script ++ [.wire x y n name] ++ dedicated.toList.map (.pip · (syntheticNode x y n)) ++
      ((labDataLines x y firstLine).take k).map (.pip · (syntheticNode x y n)))) ?_) ?_ ?_
  · intro i k hk
    obtain ⟨-, rfl⟩ := eq_of_getElem?_range hk
    have hline : (firstLine + k) % Chip.labDataLineCount < Chip.labDataLineCount :=
      Nat.mod_lt _ (by decide)
    refine .bind (TileStage.answers_requirePort ht
      (congrArg (Option.map _) (indexBelow?_natCast hline))) ?_
    have htake : (labDataLines x y firstLine).take (k + 1) =
        (labDataLines x y firstLine).take k ++
          [Chip.gin x y (Chip.labDataLineBase + (firstLine + k) % Chip.labDataLineCount)] := by
      rw [List.take_add_one, labDataLines, List.getElem?_map, hk]
      rfl
    rw [htake, ← List.append_assoc, List.map_append, ← List.append_assoc]
    exact TileStage.answers_addPip ht.toInRange hcount (by omega)
      (isTileWire_pack ht.toInRange (by decide))
  · simp
  · have hall : (labDataLines x y firstLine).take (List.range Chip.labDataLineCount).length =
        labDataLines x y firstLine :=
      List.take_of_length_le (by simp [labDataLines])
    intro d h
    rw [hall] at h
    refine h.congr ?_
    simp [wireScript, List.append_assoc]

/-- The shared wires of a LAB come first. -/
theorem answers_buildSharedWires (ht : IsTile d₀.chip x y .lab) :
    (Edit.buildSharedWires x y).Answers (LabStage d₀ x y 0 sites pins []) (labShared x y)
      (LabStage d₀ x y 10 sites pins (wiresScript x y 0 (sharedPlan x y))) := by
  have hgin (n z : Nat) : IsTileWire x y n (Chip.gin x y z) :=
    isTileWire_pack ht.toInRange (by decide)
  let Stage (k : Nat) := LabStage d₀ x y k sites pins (wiresScript x y 0 ((labPlan x y).take k))
  have hshared {k : Nat} {name : String} {dedicated : Option Wire} {firstLine : Nat}
      (hplan : (labPlan x y)[k]? = some ⟨name, dedicated.toList ++ labDataLines x y firstLine⟩)
      (hdedicated : ∀ w ∈ dedicated, IsTileWire x y k w) :
      (Edit.buildShared x y name dedicated firstLine).Answers (Stage k) (syntheticNode x y k)
        (Stage (k + 1)) :=
    .mono (answers_buildShared ht hplan hdedicated) (fun _ h => h)
      fun _ h => h.congr (wiresScript_take_succ x y hplan).symm
  rw [Edit.buildSharedWires]
  refine .bind (.mapM (syntheticNode x y) Stage ?_) ?_
  · intro i k hk
    obtain ⟨hlt, rfl⟩ := eq_of_getElem?_range hk
    refine .bind (TileStage.answers_requirePort ht
      (congrArg (Option.map _) (indexBelow?_natCast hlt))) ?_
    refine hshared ?_ (by rintro w ⟨rfl⟩; exact hgin _ _)
    have hlt : k < 3 := hlt
    interval_cases k <;> rfl
  refine .bind (.mapM (fun p => syntheticNode x y (3 + p.1)) (fun k => Stage (3 + k)) ?_) ?_
  · intro k p hp
    have hlt : k < 3 := (List.getElem?_eq_some_iff.mp hp).1
    interval_cases k
    all_goals
      obtain rfl := Option.some.inj hp
      exact hshared rfl (by simp)
  refine .bind (.mapM (fun p => syntheticNode x y (6 + p.1)) (fun k => Stage (6 + k)) ?_) ?_
  · intro k p hp
    have hlt : k < 2 := (List.getElem?_eq_some_iff.mp hp).1
    interval_cases k
    all_goals
      obtain rfl := Option.some.inj hp
      refine .bind (TileStage.answers_requirePort ht rfl) ?_
      exact hshared rfl (by rintro w ⟨rfl⟩; exact hgin _ _)
  refine .bind (hshared rfl (by simp)) ?_
  refine .bind (hshared rfl (by simp)) ?_
  exact .pure fun d h => h.congr (congrArg _ (List.take_left' (length_sharedPlan x y)))

/-- The inputs of an ALM are wires of the chip. -/
theorem isTileWire_almInput (hr : InRange x y) (z : Nat) (pin : AlmPin) :
    IsTileWire x y n (almInput x y z pin) :=
  isTileWire_pack hr (by decide)

/-- The wires of a LAB fit the synthetic numbers of a tile. -/
theorem labPlan_le_syntheticCount (x y : Nat) : (labPlan x y).length ≤ syntheticCount := by
  rw [length_labPlan]
  decide

/-- The LUT of a half takes one wire and one site. -/
theorem answers_buildLut (ht : IsTile d₀.chip x y .lab) {lab z : Nat} {half : Half}
    (hplan : (labPlan x y)[n]? = some (lutPlan z half)) (hs : sites < siteCount) :
    (Edit.buildLut x y lab z (almInputs x y z) half).Answers (LabStage d₀ x y n sites none script)
      (syntheticNode x y n, siteNumber x y sites)
      (LabStage d₀ x y (n + 1) (sites + 1) none
        (script ++ lutScript x y lab z n sites half)) := by
  have hr := ht.toInRange
  have hlt := (List.getElem?_eq_some_iff.mp hplan).1
  have hlen := labPlan_le_syntheticCount x y
  have hcount : ((labPlan x y).take (n + 1)).length = n + 1 := by
    rw [List.length_take]
    omega
  refine .bind (TileStage.answers_openWire hr (nodup_labPlan_names x y) hlen hplan) ?_
  refine TileStage.answers_intern_bind fun name => ?_
  refine .bind (TileStage.answers_addBel hr ht.contains hs name _) ?_
  refine .bind (a := ()) (.mono (.forM (fun k => LabStage d₀ x y (n + 1) (sites + 1)
    (some ((AlmPin.all.map AlmPin.ident).take k)) (_ ++ ((almInputs x y z).take k).map
      fun (pin, wire) => .pin (siteNumber x y sites) pin.ident ⟨wire, .input⟩)) ?_)
    (fun _ h => h.congr (List.append_nil _).symm) fun _ h => h) ?_
  · rintro k ⟨pin, w⟩ hk
    rw [almInputs, List.getElem?_map, Option.map_eq_some_iff] at hk
    obtain ⟨_, hpin, ⟨rfl, rfl⟩⟩ := hk
    have hname : (AlmPin.all.map AlmPin.ident)[k]? = some pin.ident := by
      rw [List.getElem?_map, hpin, Option.map_some]
    have hinput : (almInputs x y z)[k]? = some (pin, almInput x y z pin) := by
      rw [almInputs, List.getElem?_map, hpin, Option.map_some]
    rw [List.take_add_one, hname, List.take_add_one, hinput, Option.toList_some, Option.toList_some,
      List.map_append, ← List.append_assoc]
    refine TileStage.answers_addBelPin hr (by omega) ?_ (isTileWire_almInput hr z pin)
    exact not_mem_take_of_nodup (by decide) hname
  have hall : (some ((AlmPin.all.map AlmPin.ident).take (almInputs x y z).length)) =
      some (AlmPin.all.map AlmPin.ident) := rfl
  rw [hall, List.take_length]
  refine .bind (a := ()) (TileStage.answers_addBelPin hr (by omega) (by decide) ?_) ?_
  · rw [hcount]
    exact isTileWire_syntheticNode (Nat.lt_succ_self n)
  refine .bind (a := ()) (TileStage.answers_modifySite (fun _ => rfl) fun _ _ hsite h =>
    h.step (.place z (some ⟨lab, z, half.index⟩) hsite)) ?_
  refine .pure fun d h => h.close.congr ?_
  simp only [lutScript, siteScript, lutSite, List.append_assoc, List.cons_append, List.nil_append,
    List.map_append, List.map_map]
  rfl

/-- The shared wires are made once the first ten wires are. -/
theorem isTileWire_shared (hn : 10 ≤ n) (kind : ControlKind) :
    ∀ w ∈ (labShared x y).get kind, IsTileWire x y n w := by
  intro w hw
  cases kind
  all_goals
    simp only [labShared, ByKind.get, List.map_cons, List.map_nil, List.mem_cons, List.not_mem_nil,
      or_false] at hw
    rcases hw with rfl | rfl | rfl
  all_goals exact isTileWire_syntheticNode (by omega)

/-- The selectors of a half take four wires. -/
theorem answers_buildSelectors (ht : IsTile d₀.chip x y .lab) {z : Nat} {half : Half}
    (hplan : ∀ k < 4, (labPlan x y)[n + k]? = (selectorPlan x y z half)[k]?) (hn : 10 ≤ n) :
    (Edit.buildSelectors x y z (labShared x y) (almInputs x y z) half).Answers
      (LabStage d₀ x y n sites none script)
      ⟨syntheticNode x y n, syntheticNode x y (n + 1), syntheticNode x y (n + 2),
        syntheticNode x y (n + 3)⟩
      (LabStage d₀ x y (n + 4) sites none
        (script ++ wiresScript x y n (selectorPlan x y z half))) := by
  have hr := ht.toInRange
  have hnames := nodup_labPlan_names x y
  have hlen := labPlan_le_syntheticCount x y
  have hef : (half.efPins.flatMap fun pin => (Table.get? (almInputs x y z) pin).toList) =
      half.efPins.map (almInput x y z) := by
    cases half <;> rfl
  unfold Edit.buildSelectors
  simp only [hef]
  refine TileStage.answers_fedWire hr hnames hlen (hplan 0 (by omega))
    (isTileWire_shared hn .clk) ?_
  refine TileStage.answers_fedWire hr hnames hlen (hplan 1 (by omega))
    (isTileWire_shared (by omega) .ena) ?_
  refine TileStage.answers_fedWire hr hnames hlen (hplan 2 (by omega))
    (isTileWire_shared (by omega) .aclr) ?_
  refine TileStage.answers_fedWire hr hnames hlen (hplan 3 (by omega)) ?_ ?_
  · intro src hsrc
    obtain ⟨pin, -, rfl⟩ := List.mem_map.mp hsrc
    exact isTileWire_almInput hr z pin
  refine .pure fun d h => h.congr ?_
  cases half <;> simp only [selectorPlan, wiresScript_cons, wiresScript_nil, List.append_nil,
    List.append_assoc]

/-- The pins of a flip-flop: its inputs one after the other, and then its output. -/
theorem answers_flopPins {α : Type} {f : Edit α} {a : α} {Q : Device → Prop}
    {made : List BlockWire} (hr : InRange x y) (hmade : made.length ≤ syntheticCount)
    (lab z m : Nat) (w : FlopWires) (half : Half) (k : Nat)
    (hinputs : ∀ p ∈ flopInputs x y m w, IsTileWire x y made.length p.2)
    (hq : IsTileWire x y made.length (syntheticNode x y (m + 1)))
    (hf : ∀ ps, f.Answers (TileStage d₀ x y made (sites + 1) (some ps) (script ++
      (flopSite x y lab z m w half k).pins.map fun p => .pin (siteNumber x y sites) p.1 p.2)) a Q) :
    (do
      Edit.addBelPin (siteNumber x y sites) Known.clk .input w.clk
      Edit.addBelPin (siteNumber x y sites) Known.ena .input w.ena
      Edit.addBelPin (siteNumber x y sites) Known.aclr .input w.aclr
      (labShared x y).sclr.forM (Edit.addBelPin (siteNumber x y sites) Known.sclr .input)
      (labShared x y).sload.forM (Edit.addBelPin (siteNumber x y sites) Known.sload .input)
      Edit.addBelPin (siteNumber x y sites) Known.sdata .input w.selector
      Edit.addBelPin (siteNumber x y sites) Known.dataIn .input (syntheticNode x y m)
      Edit.addBelPin (siteNumber x y sites) Known.q .output (syntheticNode x y (m + 1))
      f).Answers (TileStage d₀ x y made (sites + 1) (some []) script) a Q := by
  simp only [flopInputs, List.forall_mem_cons, List.not_mem_nil, false_implies, implies_true,
    and_true] at hinputs
  obtain ⟨hclk, hena, haclr, hsclr, hsload, hsdata, hdata⟩ := hinputs
  have hpin {ps : List Ident} {pin : Ident} {script : List BuildStep} {dir : PortDir} {wire : Wire}
      (hnew : pin ∉ ps) (hwire : IsTileWire x y made.length wire) :
      (Edit.addBelPin (siteNumber x y sites) pin dir wire).Answers
        (TileStage d₀ x y made (sites + 1) (some ps) script) ()
        (TileStage d₀ x y made (sites + 1) (some (ps ++ [pin]))
          (script ++ [.pin (siteNumber x y sites) pin ⟨wire, dir⟩])) :=
    TileStage.answers_addBelPin hr hmade hnew hwire
  refine .bind (a := ()) (hpin List.not_mem_nil hclk) ?_
  refine .bind (a := ()) (hpin (by decide) hena) ?_
  refine .bind (a := ()) (hpin (by decide) haclr) ?_
  refine .bind (a := ()) (.bind (a := ()) (hpin (by decide) hsclr) (.pure fun _ h => h)) ?_
  refine .bind (a := ()) (.bind (a := ()) (hpin (by decide) hsload) (.pure fun _ h => h)) ?_
  refine .bind (a := ()) (hpin (by decide) hsdata) ?_
  refine .bind (a := ()) (hpin (by decide) hdata) ?_
  refine .bind (a := ()) (hpin (by decide) hq) ((hf _).mono (fun _ h => h.congr ?_) fun _ h => h)
  simp only [flopSite, flopInputs, List.append_assoc, List.map_cons, List.map_nil,
    List.cons_append, List.nil_append]

/-- The block outputs that a flip-flop drives are fed by its output and by the LUT. -/
theorem answers_flopOutputs {α : Type} {f : Edit α} {a : α} {Q : Device → Prop} {m k z : Nat}
    {made : List BlockWire} {combOut : Wire} {half : Half} (ht : IsTile d₀.chip x y .lab)
    (hz : z < Chip.almsPerLab) (hmade : made.length ≤ syntheticCount)
    (hq : IsTileWire x y made.length (syntheticNode x y (m + 1)))
    (hcomb : IsTileWire x y made.length combOut)
    (hf : f.Answers (TileStage d₀ x y made sites pins
      (script ++ muxesScript (flopMuxes x y z m combOut half k))) a Q) :
    (do
      let outputs ← (Edit.flopOutputs half k).mapM fun o =>
        Edit.requirePort x y .lab (.almOutput o) z (-1)
      outputs.forM (Edit.addPips [syntheticNode x y (m + 1), combOut])
      f).Answers (TileStage d₀ x y made sites pins script) a Q := by
  have hr := ht.toInRange
  let gout (o : AlmOutput) : Wire := Chip.gout x y (z * Chip.almOutputCount + o.index)
  let pips (dst : Wire) : List BuildStep :=
    [syntheticNode x y (m + 1), combOut].map (.pip · dst)
  refine .bind (.mapM gout (fun _ => _) fun _ o _ => ?_) ?_
  · exact TileStage.answers_requirePort ht (congrArg (Option.map _) (indexBelow?_natCast hz))
  refine .bind (a := ()) (TileStage.answers_forM (g := pips) fun dst hdst script => ?_)
    (hf.mono (fun _ h => ?_) fun _ h => h)
  · obtain ⟨o, -, rfl⟩ := List.mem_map.mp hdst
    refine TileStage.answers_addPips_chip hr hmade (kind_pack_lt _ hr (by decide)) ?_
    simp only [List.forall_mem_cons, List.not_mem_nil, false_implies, implies_true, and_true]
    exact ⟨hq, hcomb⟩
  · rw [muxesScript, flopMuxes, List.flatMap_map]
    rwa [List.flatMap_map] at h

/-- A flip-flop takes two wires and one site. -/
theorem answers_buildFlop (ht : IsTile d₀.chip x y .lab) {lab z k out : Nat} {half : Half}
    {clk ena aclr ef : Nat} (hz : z < Chip.almsPerLab)
    (hplan : ∀ j < 2, (labPlan x y)[n + j]? = (flopPlan z half k (syntheticNode x y out)
      (syntheticNode x y ef))[j]?)
    (hn : 10 ≤ n) (hout : out < n) (hclk : clk < n) (hena : ena < n) (haclr : aclr < n)
    (hef : ef < n) (hs : sites < siteCount) :
    (Edit.buildFlop x y lab z (labShared x y) (syntheticNode x y out)
      ⟨syntheticNode x y clk, syntheticNode x y ena, syntheticNode x y aclr,
        syntheticNode x y ef⟩ half k).Answers
      (LabStage d₀ x y n sites none script)
      (syntheticNode x y n, syntheticNode x y (n + 1), siteNumber x y sites)
      (LabStage d₀ x y (n + 2) (sites + 1) none
        (script ++ flopScript x y lab z n sites ⟨syntheticNode x y out, syntheticNode x y clk,
          syntheticNode x y ena, syntheticNode x y aclr, syntheticNode x y ef⟩ half k)) := by
  have hr := ht.toInRange
  have hnames := nodup_labPlan_names x y
  have hlen := labPlan_le_syntheticCount x y
  have hlt : n + 1 < (labPlan x y).length :=
    (List.getElem?_eq_some_iff.mp (hplan 1 (by omega))).1
  have hcount : ((labPlan x y).take (n + 2)).length = n + 2 := by
    rw [List.length_take]
    omega
  have hwire {m : Nat} (hm : m < n + 2) :
      IsTileWire x y ((labPlan x y).take (n + 2)).length (syntheticNode x y m) := by
    rw [hcount]
    exact isTileWire_syntheticNode hm
  have hle : ((labPlan x y).take (n + 2)).length ≤ syntheticCount := by omega
  rw [Edit.buildFlop]
  refine TileStage.answers_fedWire hr hnames hlen (hplan 0 (by omega)) ?_ ?_
  · simp only [List.forall_mem_cons, List.not_mem_nil, false_implies, implies_true, and_true]
    exact ⟨isTileWire_syntheticNode hout, isTileWire_syntheticNode hef⟩
  refine .bind (TileStage.answers_openWire hr hnames hlen (hplan 1 (by omega))) ?_
  refine TileStage.answers_intern_bind fun name => ?_
  refine .bind (TileStage.answers_addBel hr ht.contains hs name _) ?_
  refine answers_flopPins hr hle lab z n ⟨syntheticNode x y out, syntheticNode x y clk,
    syntheticNode x y ena, syntheticNode x y aclr, syntheticNode x y ef⟩ half k ?_
    (hwire (by omega)) fun ps => ?_
  · simp only [flopInputs, List.forall_mem_cons, List.not_mem_nil, false_implies, implies_true,
      and_true]
    exact ⟨hwire (by omega), hwire (by omega), hwire (by omega), hwire (by omega),
      hwire (by omega), hwire (by omega), hwire (by omega)⟩
  refine .bind (a := ()) (TileStage.answers_modifySite (fun _ => rfl) fun _ _ hsite h =>
    h.step (.place z (some ⟨lab, z, half.index * 2 + k⟩) hsite)) ?_
  refine answers_flopOutputs ht hz hle (hwire (by omega)) (hwire (by omega)) ?_
  refine .pure fun d h => h.close.congr ?_
  simp only [flopScript, siteScript, flopSite, List.append_assoc, List.cons_append,
    List.nil_append]
  rfl

/-- An ALM takes eighteen wires and six sites. -/
theorem answers_buildAlm (ht : IsTile d₀.chip x y .lab) {lab z : Nat} (hz : z < Chip.almsPerLab) :
    (Edit.buildAlm x y lab (labShared x y) z).Answers
      (LabStage d₀ x y (10 + 18 * z) (6 * z) none script) (labAlm x y z)
      (LabStage d₀ x y (10 + 18 * (z + 1)) (6 * (z + 1)) none
        (script ++ almScript x y lab z)) := by
  have hz' : z < 10 := hz
  have hs {k : Nat} (hk : k < 6) : 6 * z + k < siteCount := by
    have : siteCount = 65536 := rfl
    omega
  have hplan {m j : Nat} (hm : m + j < 18) :
      (labPlan x y)[10 + 18 * z + m + j]? = (almPlan x y z)[m + j]? := by
    rw [Nat.add_assoc (10 + 18 * z), getElem?_labPlan hz hm]
  rw [Edit.buildAlm]
  refine .bind (.mapM (fun pin => (pin, almInput x y z pin)) (fun _ => _) ?_) ?_
  · intro _ pin _
    refine .bind (TileStage.answers_requirePort ht
      (congrArg (Option.map _) (indexBelow?_natCast hz))) ?_
    exact .pure fun d h => h
  refine .bind (answers_buildLut ht (hplan (m := 0) (j := 0) (by omega))
    (hs (k := 0) (by omega))) ?_
  refine .bind (answers_buildLut ht (hplan (m := 1) (j := 0) (by omega))
    (hs (k := 1) (by omega))) ?_
  refine .bind (answers_buildSelectors ht (n := 10 + 18 * z + 2) ?_ (by omega)) ?_
  · intro k hk
    rw [hplan (by omega)]
    interval_cases k <;> rfl
  refine .bind (answers_buildSelectors ht (n := 10 + 18 * z + 6) ?_ (by omega)) ?_
  · intro k hk
    rw [hplan (by omega)]
    interval_cases k <;> rfl
  refine .bind (answers_buildFlop ht (n := 10 + 18 * z + 10) hz ?_ (by omega) (by omega)
    (by omega) (by omega) (by omega) (by omega) (hs (k := 2) (by omega))) ?_
  · intro j hj
    rw [hplan (by omega)]
    interval_cases j <;> rfl
  refine .bind (answers_buildFlop ht (n := 10 + 18 * z + 12) hz ?_ (by omega) (by omega)
    (by omega) (by omega) (by omega) (by omega) (hs (k := 3) (by omega))) ?_
  · intro j hj
    rw [hplan (by omega)]
    interval_cases j <;> rfl
  refine .bind (answers_buildFlop ht (n := 10 + 18 * z + 14) hz ?_ (by omega) (by omega)
    (by omega) (by omega) (by omega) (by omega) (hs (k := 4) (by omega))) ?_
  · intro j hj
    rw [hplan (by omega)]
    interval_cases j <;> rfl
  refine .bind (answers_buildFlop ht (n := 10 + 18 * z + 16) hz ?_ (by omega) (by omega)
    (by omega) (by omega) (by omega) (by omega) (hs (k := 5) (by omega))) ?_
  · intro j hj
    rw [hplan (by omega)]
    interval_cases j <;> rfl
  refine .pure fun d h => h.congr ?_
  simp only [almScript, List.append_assoc]
  rfl

/-- A LAB is built as planned. -/
theorem answers_buildLab (ht : IsTile d₀.chip x y .lab) :
    (Edit.buildLab x y).Answers (TileStage d₀ x y [] 0 none []) () fun d =>
      TileState { d₀ with labs := d₀.labs.push (labAt x y) } x y (labPlan x y) 60 none d ∧
        d₀.Builds (labScript x y d₀.labs.size) d := by
  rw [Edit.buildLab]
  refine .get_bind fun d hd => ?_
  rw [hd.labs]
  refine .bind (answers_buildSharedWires ht) ?_
  refine .bind (.mono (.mapM (labAlm x y) (fun z => LabStage d₀ x y (10 + 18 * z) (6 * z) none
    (wiresScript x y 0 (sharedPlan x y) ++
      (List.range z).flatMap (almScript x y d₀.labs.size))) ?_)
    (fun _ h => h.congr (List.append_nil _).symm) fun _ h => h) (.modify fun d h => ?_)
  · intro i z hz
    obtain ⟨hlt, rfl⟩ := eq_of_getElem?_range hz
    rw [List.range_succ, List.flatMap_append, List.flatMap_singleton, ← List.append_assoc]
    exact answers_buildAlm ht hlt
  · have hall : (labPlan x y).take (10 + 18 * (List.range Chip.almsPerLab).length) =
        labPlan x y :=
      List.take_of_length_le (by rw [length_labPlan, List.length_range]; decide)
    rw [LabStage, hall, List.length_range] at h
    refine ⟨{ h with labs := ?_, elsewhere := fun x' y' hne hx' hy' =>
      { h.elsewhere x' y' hne hx' hy' with } },
      h.builds.silent (.of_fields rfl rfl rfl rfl rfl rfl)⟩
    rw [h.labs]
    rfl

end Lab

end Fabric
