import Fabric.Alm.Mask
import Fabric.Alm.Plan
import Fabric.Proofs.InputPlan

/-!
# Addresses of truth tables

The truth table of an ALM is addressed by its physical pins, and a LUT fills the addresses of its
half with the bits of its own table. A pin that drives an address bit is read back from that bit,
so the bit of the mask at an address is the bit of the table that the inputs spell.

## Main results

* `maskAddress`: the address that the values of the pins spell for the LUT of a half;
* `exists_addressBit`: every pin that a half reads drives an address bit, and reads back;
* `testBit_lutMask`: what a LUT fills in, and where.
-/

namespace Fabric

/-! ### Addresses -/

/-- The values of the pins that address the truth table, lowest bit first. -/
def addressBits (fused : Bool) (half : Half) (v : AlmPin → Bool) : List Bool :=
  if fused then [.a, .b, .c, .d, .e0, .f0].map v else half.lutPins.map v

/-- The number of addresses that the LUT of a half fills. -/
def addressCount (fused : Bool) : Nat := if fused then 64 else 32

/-- The place of the first of them. -/
def addressBase (fused : Bool) (half : Half) : Nat := if fused then 0 else 32 * half.index

/-- In fused mode both copies of `E` have one value, and both copies of `F`. -/
def Joined (fused : Bool) (v : AlmPin → Bool) : Prop :=
  fused = true → v .e0 = v .e1 ∧ v .f0 = v .f1

/-- An address is within the part of its half. -/
theorem ofBits_addressBits_lt (fused : Bool) (half : Half) (v : AlmPin → Bool) :
    ofBits (addressBits fused half v) < addressCount fused := by
  have h := ofBits_lt_capacity (addressBits fused half v)
  have hlen : capacity (addressBits fused half v).length = addressCount fused := by
    cases fused <;> cases half <;> rfl
  rwa [hlen] at h

/-- The address that the values of the pins spell, for the LUT of a half. In split mode the
bottom half has the upper 32 bits of the table. -/
def maskAddress (fused : Bool) (half : Half) (v : AlmPin → Bool) : Nat :=
  match fused, half with
  | true, _ => ofBits [v .a, v .b, v .c, v .d, v .e0, v .f0]
  | false, .top => ofBits [v .a, v .b, v .c, v .e0, v .f0]
  | false, .bottom => 32 + ofBits [v .a, v .b, v .d, v .e1, v .f1]

/-- The address in a mask is that in the half, from where the half starts. -/
theorem maskAddress_eq (fused : Bool) (half : Half) (v : AlmPin → Bool) :
    maskAddress fused half v = addressBase fused half + ofBits (addressBits fused half v) := by
  cases fused <;> cases half <;> simp [maskAddress, addressBase, addressBits, Half.index,
    Half.lutPins]

/-- The addresses of a half start at its base. -/
theorem le_maskAddress (fused : Bool) (half : Half) (v : AlmPin → Bool) :
    addressBase fused half ≤ maskAddress fused half v := by
  rw [maskAddress_eq]
  exact Nat.le_add_right _ _

/-- The addresses of a half end where the next one starts. -/
theorem maskAddress_lt (fused : Bool) (half : Half) (v : AlmPin → Bool) :
    maskAddress fused half v < addressBase fused half + addressCount fused := by
  rw [maskAddress_eq]
  exact Nat.add_lt_add_left (ofBits_addressBits_lt fused half v) _

/-- A pin that a half reads drives an address bit, which has the value of the pin. -/
theorem exists_addressBit {fused : Bool} {half : Half} {pin : AlmPin}
    (h : fused = true ∨ pin ∈ half.lutPins) : ∃ bit, addressBit? fused half pin = some bit ∧
      ∀ v, Joined fused v → (ofBits (addressBits fused half v)).testBit bit = v pin := by
  cases fused with
  | true =>
      -- Both copies of a pin drive the bit that the first one names.
      have hbit : ∃ bit, fusedPins.findIdx? (·.contains pin) = some bit ∧ ∀ v, Joined true v →
          (addressBits true half v).getD bit false = v pin := by
        cases pin with
        | e1 => exact ⟨4, rfl, fun v hv => (hv rfl).1⟩
        | f1 => exact ⟨5, rfl, fun v hv => (hv rfl).2⟩
        | a | b | c | d | e0 | f0 => exact ⟨_, rfl, fun v _ => rfl⟩
      obtain ⟨bit, hbit, hread⟩ := hbit
      exact ⟨bit, hbit, fun v hv => (testBit_ofBits _ _).trans (hread v hv)⟩
  | false =>
      have hmem : pin ∈ half.lutPins := h.resolve_left (by simp)
      obtain ⟨bit, hbit⟩ := Option.isSome_iff_exists.mp (List.isSome_idxOf?.mpr hmem)
      obtain ⟨hlt, hget, -⟩ := List.idxOf?_eq_some_iff.mp hbit
      refine ⟨bit, hbit, fun v _ => ?_⟩
      rw [testBit_ofBits, List.getD_eq_getElem?_getD, addressBits, if_neg (by simp),
        List.getElem?_map, List.getElem?_eq_getElem hlt, hget]
      rfl

/-! ### Tabulated functions -/

/-- The bits of a number made from bits are read back. -/
theorem testBit_ofBits_range (f : Nat → Bool) (n i : Nat) :
    (ofBits ((List.range n).map f)).testBit i = (decide (i < n) && f i) := by
  rw [testBit_ofBits, List.getD_eq_getElem?_getD, List.getElem?_map]
  by_cases hi : i < n
  · simp [hi]
  · simp [hi]

/-- A LUT fills the addresses of its half with the bits that its inputs select,
and nothing else. -/
theorem testBit_lutMask (fused : Bool) (half : Half) (table : Nat) (sources : List LutSource)
    (i : Nat) : (lutMask fused half table sources).testBit i =
      (decide (addressBase fused half ≤ i ∧ i < addressBase fused half + addressCount fused) &&
        tableBit table sources (i - addressBase fused half)) := by
  show ((ofBits ((List.range (addressCount fused)).map (tableBit table sources))) <<<
    addressBase fused half).testBit i = _
  rw [Nat.testBit_shiftLeft, testBit_ofBits_range]
  by_cases hle : addressBase fused half ≤ i
  · have hiff : i - addressBase fused half < addressCount fused ↔
        i < addressBase fused half + addressCount fused := by omega
    simp [hle, hiff]
  · simp [hle]

/-- The logical inputs of a cell with `n` inputs, by name and number. -/
theorem getElem?_of_mem_logicalInputs {n k : Nat} {port : Ident}
    (h : (port, k) ∈ lutInputNames.zipIdx.take n) : lutInputNames[k]? = some port ∧ k < n := by
  obtain ⟨i, hi⟩ := List.getElem?_of_mem h
  rw [List.getElem?_take, Option.ite_none_right_eq_some, List.getElem?_zipIdx,
    Option.map_eq_some_iff] at hi
  obtain ⟨hlt, name, hname, heq⟩ := hi
  obtain ⟨rfl, rfl⟩ := Prod.mk.inj heq
  exact ⟨by rwa [Nat.zero_add], by omega⟩

/-- Inputs that each have a source have sources together, and what those read is what the inputs
read one by one. -/
theorem exists_sources {α : Type} {l : List α} {f : α → Option LutSource}
    (h : ∀ a ∈ l, ∃ source, f a = some source) : ∃ sources, l.mapM f = some sources ∧
      ∀ (addr : Nat) (g : α → Option Bool),
        (∀ a ∈ l, ∀ source, f a = some source → g a = some (source.read addr)) →
        l.mapM g = some (sources.map (·.read addr)) := by
  induction l with
  | nil => exact ⟨[], rfl, fun _ _ _ => rfl⟩
  | cons a rest ih =>
      obtain ⟨source, hsource⟩ := h a List.mem_cons_self
      obtain ⟨sources, hsources, hread⟩ := ih fun a' ha' => h a' (List.mem_cons_of_mem a ha')
      refine ⟨source :: sources, by simp [List.mapM_cons, hsource, hsources], fun addr g hg => ?_⟩
      have hrest := hread addr g fun a' ha' => hg a' (List.mem_cons_of_mem a ha')
      simp [List.mapM_cons, hg a List.mem_cons_self source hsource, hrest]

/-- What sources read at an address, one by one. -/
theorem map_read_of_mapM {α : Type} {l : List α} {f : α → Option LutSource}
    {sources : List LutSource} (h : l.mapM f = some sources) {addr : Nat} {g : α → Bool}
    (hg : ∀ a ∈ l, ∀ source, f a = some source → source.read addr = g a) :
    sources.map (·.read addr) = l.map g := by
  induction l generalizing sources with
  | nil =>
      obtain rfl := Option.some.inj h
      rfl
  | cons a rest ih =>
      simp only [List.mapM_cons, Option.bind_eq_bind, Option.bind_eq_some_iff] at h
      obtain ⟨source, hsource, tail, htail, h⟩ := h
      obtain rfl := Option.some.inj h
      rw [List.map_cons, List.map_cons, hg a List.mem_cons_self source hsource,
        ih htail fun a' ha' => hg a' (List.mem_cons_of_mem a ha')]

end Fabric
