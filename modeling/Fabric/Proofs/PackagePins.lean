import Fabric.Proofs.DeviceNames
import Fabric.Proofs.PortAttributes

/-!
# Package pins

A package pin stands for an I/O site: `PIN_L` and `PIN_R` stand for the first and the last column,
and the number that follows counts the sites of the column, four to a tile. `IsPinName` says which
texts name which pins, and `IsIoSite` which sites the pins are for, without the pads in between. A
pad packs a tile and a place in it into one word; it reads back, so nothing is lost on the way.

## Main results

* `Chip.packagePin?_eq_some_iff`: the pads of the texts;
* `IsBuiltBy.isIoSite_iff`: the I/O sites of a built device;
* `IsBuiltBy.belOfPin?_eq_some_iff`: a text leads to the site of the pin that it names;
* `Device.packagePins`: every I/O site has one pin, and ports constrained to a pin get its site.
-/

namespace Fabric

/-! ### Names of pins -/

/-- The two columns of I/O blocks. -/
inductive PinSide where
  | left
  | right
  deriving DecidableEq

namespace PinSide

/-- What the names of the pins of a side start with. -/
def text : PinSide → String
  | left => "PIN_L"
  | right => "PIN_R"

/-- The letter that the names of the two sides differ in. -/
def letter : PinSide → Char
  | left => 'L'
  | right => 'R'

/-- The column of a side. -/
def column (c : Chip) : PinSide → Nat
  | left => 0
  | right => c.width - 1

theorem toList_text (side : PinSide) : side.text.toList = ['P', 'I', 'N', '_', side.letter] := by
  cases side <;> rfl

/-- The sides have different letters. -/
theorem letter_inj {side side' : PinSide} (h : side.letter = side'.letter) : side = side' := by
  revert h
  cases side <;> cases side' <;> decide

/-- The sides have different columns on every grid. -/
theorem column_inj {c : Chip} (hc : Chip.isGrid c.width c.height = true) {side side' : PinSide}
    (h : side.column c = side'.column c) : side = side' := by
  have hwidth := (Chip.isGrid_iff.mp hc).1
  cases side <;> cases side'
  case left.right => exact absurd h (by rw [column, column]; omega)
  case right.left => exact absurd h (by rw [column, column]; omega)
  all_goals rfl

/-- The columns of the sides are on the chip. -/
theorem column_lt {c : Chip} (hc : Chip.isGrid c.width c.height = true) (side : PinSide) :
    side.column c < c.width := by
  have hwidth := (Chip.isGrid_iff.mp hc).1
  cases side <;> simp only [column] <;> omega

end PinSide

/-- A text names a pin by its side and its number, which has to fit a 32-bit word. -/
def IsPinName (s : String) (side : PinSide) (n : Nat) : Prop :=
  ∃ numeral : String, s = side.text ++ numeral ∧ Numeral.IsDecimal numeral.toList n ∧
    n < capacity 32

/-- Every pin has a name. -/
theorem isPinName_toString (side : PinSide) {n : Nat} (hn : n < capacity 32) :
    IsPinName (side.text ++ toString n) side n :=
  ⟨toString n, rfl, Numeral.isDecimal_toString n, hn⟩

/-- A text names one pin. -/
theorem IsPinName.unique {s : String} {side side' : PinSide} {n n' : Nat} (h : IsPinName s side n)
    (h' : IsPinName s side' n') : side = side' ∧ n = n' := by
  obtain ⟨numeral, rfl, hn, -⟩ := h
  obtain ⟨numeral', heq, hn', -⟩ := h'
  have hlist := congrArg String.toList heq
  rw [String.toList_append, String.toList_append, side.toList_text, side'.toList_text] at hlist
  simp only [List.cons_append, List.nil_append, List.cons.injEq, true_and] at hlist
  exact ⟨PinSide.letter_inj hlist.1, hn.unique (hlist.2 ▸ hn')⟩

namespace Chip

variable {c : Chip} {s : String} {pad : Pad}

/-- The letter of a name tells the column. -/
theorem columnOf_eq_some_iff {letter : Char} {column : Nat} :
    (if letter = 'L' then some 0 else if letter = 'R' then some (c.width - 1) else none) =
    some column ↔
      ∃ side : PinSide, letter = side.letter ∧ column = side.column c := by
  constructor
  · intro h
    split at h
    · rename_i hletter
      exact ⟨.left, hletter, (Option.some.inj h).symm⟩
    · split at h
      · rename_i hletter
        exact ⟨.right, hletter, (Option.some.inj h).symm⟩
      · cases h
  · rintro ⟨side, rfl, rfl⟩
    cases side <;> rfl

/-- A text has a pad if it names a pin on the grid. -/
theorem packagePin?_eq_some_iff : c.packagePin? s = some pad ↔
    ∃ side n, IsPinName s side n ∧ n / iosPerBlock < c.height ∧
      pad = .pack (.pack (side.column c) (n / iosPerBlock)) (n % iosPerBlock) := by
  unfold packagePin?
  constructor
  · intro h
    split at h
    · rename_i letter digits htext
      simp only at h
      split at h
      · rename_i column n hcolumn hword
        rw [Option.ite_none_right_eq_some, Option.some.injEq] at h
        obtain ⟨hrow, rfl⟩ := h
        obtain ⟨side, rfl, rfl⟩ := columnOf_eq_some_iff.mp hcolumn
        obtain ⟨hdec, hfits⟩ := Numeral.word32?_eq_some_iff.mp hword
        have hs : s = side.text ++ String.ofList digits := by
          rw [← String.toList_inj, htext, String.toList_append, side.toList_text,
            String.toList_ofList]
          rfl
        exact ⟨side, n, ⟨_, hs, by rwa [String.toList_ofList], hfits⟩, hrow, rfl⟩
      · cases h
    · cases h
  · rintro ⟨side, n, ⟨numeral, rfl, hdec, hfits⟩, hrow, rfl⟩
    have hcolumn := (columnOf_eq_some_iff (c := c)).mpr ⟨side, rfl, rfl⟩
    have hword := Numeral.word32?_eq_some_iff.mpr ⟨hdec, hfits⟩
    rw [String.toList_append, side.toList_text]
    simp only [List.cons_append, List.nil_append, hcolumn, hword, if_pos hrow]

end Chip

/-! ### I/O sites -/

/-- The I/O site for a part of the block of a tile. -/
def Device.IsIoSite (d : Device) (x y part : Nat) (bel : BelId) : Prop :=
  bel.pos.x = x ∧ bel.pos.y = y ∧
    ∃ site, d.siteInfo bel = .ok site ∧ site.type = Known.ioSite ∧ site.blockIndex = part

/-- I/O sites are planned for I/O blocks only. -/
theorem type_eq_ioSite_iff {x y lab n : Nat} {block : BlockKind} {plan : BlockSite}
    (hplan : (blockSitePlan x y lab block)[n]? = some plan) :
    plan.type = Known.ioSite ↔ block = .gpio := by
  have hmem := List.mem_of_getElem? hplan
  cases block with
  | lab =>
    obtain ⟨z, -, hsite⟩ := List.mem_flatMap.mp hmem
    have hother : ∀ site ∈ almSites x y lab z, site.type ≠ Known.ioSite := by
      simp [almSites, lutSite, flopSite, Known.combSite, Known.flipFlop, Known.ioSite]
    exact iff_of_false (hother plan hsite) (by simp)
  | gpio =>
    obtain ⟨z, -, rfl⟩ := List.mem_map.mp hmem
    exact iff_of_true rfl rfl
  | clockMux =>
    obtain ⟨z, -, rfl⟩ := List.mem_map.mp hmem
    have hother : Known.clockBuffer ≠ Known.ioSite := by decide
    exact iff_of_false hother (by simp)

/-- The sites of an I/O tile are its I/O pins. -/
theorem getElem?_blockSitePlan_gpio {x y lab n : Nat} {plan : BlockSite} :
    (blockSitePlan x y lab .gpio)[n]? = some plan ↔ n < Chip.iosPerBlock ∧ plan = ioSite x y n := by
  rw [blockSitePlan, List.getElem?_map, Option.map_eq_some_iff]
  constructor
  · rintro ⟨z, hz, rfl⟩
    obtain ⟨hn, rfl⟩ := eq_of_getElem?_range hz
    exact ⟨hn, rfl⟩
  · rintro ⟨hn, rfl⟩
    exact ⟨n, List.getElem?_range hn, rfl⟩

/-- The I/O blocks are in the first and the last column. -/
theorem Chip.blockAt_eq_gpio_iff {c : Chip} (hc : isGrid c.width c.height = true) {x y : Nat} :
    c.blockAt x y = some .gpio ↔ ∃ side : PinSide, x = side.column c ∧ y < c.height := by
  rw [blockAt]
  constructor
  · intro h
    split at h
    · cases h
    · rename_i hin
      rw [Bool.not_eq_true, Bool.not_eq_false, contains, Bool.and_eq_true, decide_eq_true_iff,
        decide_eq_true_iff] at hin
      split at h
      · rename_i hx
        exact hx.elim (fun hx => ⟨.left, hx, hin.2⟩) fun hx => ⟨.right, hx, hin.2⟩
      · split at h <;> cases h
  · rintro ⟨side, rfl, hy⟩
    have hin : c.contains (side.column c) y = true := by
      rw [contains, decide_eq_true (side.column_lt hc), decide_eq_true hy, Bool.true_and]
    have hedge : side.column c = 0 ∨ side.column c = c.width - 1 := by
      cases side
      · exact .inl rfl
      · exact .inr rfl
    rw [if_neg (not_not.mpr hin), if_pos hedge]

namespace IsBuiltBy

variable {c : Chip} {d : Device} {x y part : Nat} {bel : BelId}

/-- A site of the I/O type is planned for an I/O block, and numbered by the part
that it stands for. -/
theorem exists_ioSite (hc : c.Fits) (h : IsBuiltBy c c.script d) {site : Site}
    (hinfo : d.siteInfo bel = .ok site) (htype : site.type = Known.ioSite) :
    ∃ x y n, c.blockAt x y = some .gpio ∧ n < Chip.iosPerBlock ∧ bel = siteNumber x y n ∧
      site.blockIndex = n := by
  have hsite := Device.siteInfo_eq_ok_iff.mp hinfo
  obtain ⟨k, t, block, n, plan, hk, hblock, hplan, rfl⟩ := h.exists_sitePlan hc hsite
  obtain ⟨site', hsite', -, htype', hpart, -⟩ := h.exists_site hc hk hblock hplan
  obtain rfl := Option.some.inj (hsite.symm.trans hsite')
  obtain rfl := (type_eq_ioSite_iff hplan).mp (htype'.symm.trans htype)
  obtain ⟨hn, rfl⟩ := getElem?_blockSitePlan_gpio.mp hplan
  exact ⟨t.1, t.2, n, hblock, hn, rfl, hpart⟩

/-- The I/O sites are those of the I/O blocks, by number. -/
theorem isIoSite_iff (hc : c.Fits) (h : IsBuiltBy c c.script d) : d.IsIoSite x y part bel ↔
    c.blockAt x y = some .gpio ∧ part < Chip.iosPerBlock ∧ bel = siteNumber x y part := by
  constructor
  · rintro ⟨rfl, rfl, site, hinfo, htype, hpart⟩
    obtain ⟨x, y, n, hgpio, hn, rfl, hindex⟩ := h.exists_ioSite hc hinfo htype
    obtain rfl : part = n := Int.ofNat.inj (hpart.symm.trans hindex)
    have hr := hc.inRange_of_blockAt hgpio
    rw [siteNumber, Pos.x_pack hr.x_lt hr.y_lt, Pos.y_pack hr.x_lt hr.y_lt]
    exact ⟨hgpio, hn, rfl⟩
  · rintro ⟨hgpio, hpart, rfl⟩
    obtain ⟨k, hk⟩ := List.getElem?_of_mem (Chip.mem_tiles_of_blockAt hgpio)
    have hr := hc.inRange (List.mem_of_getElem? hk)
    obtain ⟨site, hsite, -, htype, hpart', -⟩ :=
      h.exists_site hc hk hgpio (getElem?_blockSitePlan_gpio.mpr ⟨hpart, rfl⟩)
    exact ⟨Pos.x_pack hr.x_lt hr.y_lt, Pos.y_pack hr.x_lt hr.y_lt, site,
      Device.siteInfo_eq_ok_iff.mpr hsite, htype, hpart'⟩

/-- The pad of an I/O site leads to it. -/
theorem belOfPad?_pack (hc : c.Fits) (h : IsBuiltBy c c.script d)
    (hgpio : c.blockAt x y = some .gpio) (hpart : part < Chip.iosPerBlock) :
    d.belOfPad? (.pack (.pack x y) part) = some (siteNumber x y part) := by
  have hr := hc.inRange_of_blockAt hgpio
  have hlt : part < siteCount := Nat.lt_trans hpart (by decide)
  have hpad : part < 2 ^ 18 := Nat.lt_trans hpart (by decide)
  have hio {n : Nat} (hn : n < Chip.iosPerBlock) := (h.isIoSite_iff hc).mpr ⟨hgpio, hn, rfl⟩
  rw [Device.belOfPad?, Pad.pos_pack hr.x_lt hr.y_lt hpad, Pad.blockIndex_pack hr.x_lt hr.y_lt hpad,
    Pos.x_pack hr.x_lt hr.y_lt, Pos.y_pack hr.x_lt hr.y_lt, Device.belOfBlock?]
  obtain ⟨-, -, site, hsite, htype, hindex⟩ := hio hpart
  refine Device.findInTile?_eq_some hr.x_lt hr.y_lt hlt (Device.siteInfo_eq_ok_iff.mp hsite)
    (by simp [htype, hindex]) fun m hm site' hsite' => ?_
  -- the sites in front stand for other parts
  obtain ⟨-, -, site'', hsite'', -, hindex'⟩ := hio (Nat.lt_trans hm hpart)
  obtain rfl := Option.some.inj (hsite'.symm.trans (Device.siteInfo_eq_ok_iff.mp hsite''))
  have hne : (m : Int) ≠ part := by omega
  simp [hindex', hne]

/-- A text leads to the site of the pin that it names. -/
theorem belOfPin?_eq_some_iff (hc : Chip.isGrid c.width c.height = true)
    (h : IsBuiltBy c c.script d) {s : String} :
    d.belOfPin? s = some bel ↔ ∃ side n, IsPinName s side n ∧
      n / Chip.iosPerBlock < c.height ∧
        bel = siteNumber (side.column c) (n / Chip.iosPerBlock) (n % Chip.iosPerBlock) := by
  have hpad (side : PinSide) {n : Nat} (hrow : n / Chip.iosPerBlock < c.height) :=
    h.belOfPad?_pack (Chip.fits_of_isGrid hc) ((Chip.blockAt_eq_gpio_iff hc).mpr ⟨side, rfl, hrow⟩)
      (Nat.mod_lt n (by decide : 0 < Chip.iosPerBlock))
  rw [Device.belOfPin?, Option.bind_eq_some_iff, h.chip]
  simp only [Chip.packagePin?_eq_some_iff]
  constructor
  · rintro ⟨_, ⟨side, n, hname, hrow, rfl⟩, hbel⟩
    exact ⟨side, n, hname, hrow, Option.some.inj (hbel.symm.trans (hpad side hrow))⟩
  · rintro ⟨side, n, hname, hrow, rfl⟩
    exact ⟨_, ⟨side, n, hname, hrow, rfl⟩, hpad side hrow⟩

end IsBuiltBy

namespace Device

variable {c : Chip} {d : Device} {bel : BelId}

/-- A pin reaches a site, under one of its names. -/
def PinReaches (d : Device) (pin : PinSide × Nat) (bel : BelId) : Prop :=
  ∃ s, IsPinName s pin.1 pin.2 ∧ d.belOfPin? s = some bel

/-- A pin reaches the I/O site that its side, row and place name. -/
theorem pinReaches_iff (hc : Chip.isGrid c.width c.height = true) (h : IsBuiltBy c c.script d)
    {side : PinSide} {n : Nat} : d.PinReaches (side, n) bel ↔ n / Chip.iosPerBlock < c.height ∧
      bel = siteNumber (side.column c) (n / Chip.iosPerBlock) (n % Chip.iosPerBlock) := by
  simp only [PinReaches, h.belOfPin?_eq_some_iff hc]
  constructor
  · rintro ⟨s, hname, side', n', hname', hrow, hbel⟩
    obtain ⟨rfl, rfl⟩ := hname.unique hname'
    exact ⟨hrow, hbel⟩
  · rintro ⟨hrow, hbel⟩
    have hfits : n < capacity 32 := by
      have hheight := (Chip.isGrid_iff.mp hc).2.2.2
      have hcapacity : 4 * 128 ≤ capacity 32 := by decide
      rw [Chip.iosPerBlock] at hrow
      omega
    exact ⟨_, isPinName_toString side hfits, side, n, isPinName_toString side hfits, hrow, hbel⟩

/-- Every I/O site is reached by one pin. -/
theorem existsUnique_pin (hc : Chip.isGrid c.width c.height = true) (h : IsBuiltBy c c.script d)
    {site : Site} (hinfo : d.siteInfo bel = .ok site) (htype : site.type = Known.ioSite) :
    ∃! pin, d.PinReaches pin bel := by
  have hfits := Chip.fits_of_isGrid hc
  obtain ⟨x, y, z, hgpio, hz, rfl, -⟩ := h.exists_ioSite hfits hinfo htype
  obtain ⟨side, rfl, hy⟩ := (Chip.blockAt_eq_gpio_iff hc).mp hgpio
  have hr := hfits.inRange_of_blockAt hgpio
  rw [Chip.iosPerBlock] at hz
  have hrow : (4 * y + z) / 4 = y := by omega
  have hpart : (4 * y + z) % 4 = z := by omega
  refine ⟨(side, 4 * y + z), (pinReaches_iff hc h).mpr ?_, ?_⟩
  · rw [Chip.iosPerBlock, hrow, hpart]
    exact ⟨hy, rfl⟩
  · rintro ⟨side', n⟩ hn
    obtain ⟨hrow', heq⟩ := (pinReaches_iff hc h).mp hn
    rw [Chip.iosPerBlock] at hrow' heq
    have hr' := hfits.inRange_of_blockAt ((Chip.blockAt_eq_gpio_iff hc).mpr ⟨side', rfl, hrow'⟩)
    obtain ⟨hcolumn, rfl, rfl⟩ := siteNumber_inj hr hr' (Nat.lt_trans hz (by decide))
      (Nat.lt_trans (Nat.mod_lt n (by decide)) (by decide)) heq
    obtain rfl := PinSide.column_inj hc hcolumn
    rw [Nat.div_add_mod]

/-- A cell with a pin attribute is constrained to the site of that pin. -/
theorem constrainedBel?_of_pin {i : Ident} {pin : String}
    (h : (d.ioAttributes.get? i).bind (·.get? Known.pin) = some (.text pin)) :
    d.constrainedBel? i = d.belOfPin? pin := by
  obtain ⟨t, ht, hget⟩ := Option.bind_eq_some_iff.mp h
  rw [constrainedBel?, ht]
  simp only [bind, Option.bind_some, hget]

/-- Package pins address the I/O sites. A text leads to a site exactly if it names a pin whose row
is on the grid, and then to the I/O site for the pin: in the column of its side, four pins to a row.
There is one such site for each pin on the grid, and every I/O site is reached by one pin. A port
with the text of a pin as its `PIN` attribute on record is constrained to the site that the text
leads to, and so is one that comes with the selection, in which no port and no attribute of a port
is listed twice. -/
theorem packagePins {selection : Selection} {c : Chip} (h : selection.chip = .ok c) :
    ∃ d, ofSelection selection = .ok d ∧
      (∀ s bel, d.belOfPin? s = some bel ↔
        ∃ side n,
        IsPinName s side n ∧ n / 4 < c.height ∧ d.IsIoSite (side.column c) (n / 4) (n % 4) bel) ∧
      (∀ side n, n / 4 < c.height → ∃! bel,
        d.IsIoSite (PinSide.column c side) (n / 4) (n % 4) bel) ∧
      (∀ bel site, d.siteInfo bel = .ok site → site.type = Known.ioSite → ∃! pin,
        d.PinReaches pin bel) ∧
      (∀ i pin, (d.ioAttributes.get? i).bind (·.get? Known.pin) = some (.text pin) →
        d.constrainedBel? i = d.belOfPin? pin) ∧
      (selection.io.Distinct → ∀ port attributes pin, selection.io.get? port = some attributes →
        attributes.get? "PIN" = some (.text pin) →
          ∃ i, d.interner.get? port = some i ∧ d.constrainedBel? i = d.belOfPin? pin) := by
  have hgrid := Selection.isGrid_chip h
  obtain ⟨d, hd, hbuilt⟩ := exists_isBuiltBy h
  have hsite (side : PinSide) {n : Nat} (hrow : n / 4 < c.height) (bel : BelId) :
      d.IsIoSite (side.column c) (n / 4) (n % 4) bel ↔
        bel = siteNumber (side.column c) (n / 4) (n % 4) := by
    rw [hbuilt.isIoSite_iff (Chip.fits_of_isGrid hgrid),
      and_iff_right ((Chip.blockAt_eq_gpio_iff hgrid).mpr ⟨side, rfl, hrow⟩)]
    exact and_iff_right (Nat.mod_lt n (by decide))
  refine ⟨d, hd, fun s bel => ?_, fun side n hrow => ?_,
    fun bel site => existsUnique_pin hgrid hbuilt, fun i pin => constrainedBel?_of_pin,
    fun hio port attributes pin hport hpin => ?_⟩
  · rw [hbuilt.belOfPin?_eq_some_iff hgrid]
    refine exists_congr fun side => exists_congr fun n => ?_
    exact and_congr_right fun _ => and_congr_right fun hrow => (hsite side hrow bel).symm
  · exact ⟨_, (hsite side hrow _).mpr rfl, fun bel hbel => (hsite side hrow bel).mp hbel⟩
  · obtain ⟨i, k, hi, hk, hv⟩ := records_ofSelection hd hio hport hpin
    obtain rfl : k = Known.pin := Interner.eq_of_name? hk (hbuilt.name?_known Known.name?_pin)
    exact ⟨i, (d.interner.get?_eq_some_iff ..).mpr hi, constrainedBel?_of_pin hv⟩

/-- A port of a design for the smallest grid, constrained to pin 5 on the right, which is spelled
with a plus sign and a leading zero. -/
theorem packagePins_smallest : ∃ d bel i,
    ofSelection { grid := some (3, 2), io := [("led", [("PIN", .text "PIN_R+05")])] } = .ok d ∧
      d.belOfPin? "PIN_R+05" = some bel ∧ d.IsIoSite 2 1 1 bel ∧
        d.interner.get? "led" = some i ∧ d.constrainedBel? i = some bel := by
  let selection : Selection := { grid := some (3, 2), io := [("led", [("PIN", .text "PIN_R+05")])] }
  have hchip : selection.chip = .ok ⟨"synthetic-3x2", 3, 2⟩ := rfl
  have hname : IsPinName "PIN_R+05" .right 5 :=
    ⟨"+05", rfl, Numeral.unsigned?_ten_eq_some_iff.mp rfl, by decide⟩
  have hio : selection.io.Distinct := ⟨by decide, by decide⟩
  obtain ⟨d, hd, hpins, hsites, -, -, hports⟩ := packagePins hchip
  obtain ⟨bel, hbel, -⟩ := hsites .right 5 (by decide)
  have hpin := (hpins "PIN_R+05" bel).mpr ⟨.right, 5, hname, by decide, hbel⟩
  obtain ⟨i, hi, hconstrained⟩ := hports hio "led" [("PIN", .text "PIN_R+05")] "PIN_R+05" rfl rfl
  exact ⟨d, bel, i, hd, hpin, hbel, hi, hconstrained.trans hpin⟩

end Device

end Fabric
