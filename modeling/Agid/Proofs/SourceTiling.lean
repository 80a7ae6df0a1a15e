import Agid.JsonParse
import Agid.Proofs.TerrainMesh
import Agid.Sha256
import Agid.SourceTiling

/-!
# Windows of a source image

On one axis an interval begins at the last sample of the one before it (`Steps`), so that every step
between two samples lies in one interval.  The tiles are the pairs of a row and a column, and so is
what a tile shares with the next one.
-/

namespace Agid.Tiling

open Checks JsonText
open Topographic (MAX_ELEVATION_GRID_CELLS)

/-! ## One axis -/

/-- Intervals from a start to the last sample, each of which begins where the one before it ends. -/
def Steps (alignment most last : ℕ) : ℕ → List AxisInterval → Prop
  | start, [] => start = last
  | start, interval :: rest =>
    interval.start = start ∧ alignment ∣ start ∧ 2 ≤ interval.length ∧ interval.length ≤ most
      ∧ Steps alignment most last (start + (interval.length - 1)) rest

section Axis

variable {alignment most last span : ℕ}

theorem axisLoop_steps (hspan : 1 ≤ span) (hmost : span + 1 ≤ most) (haligned : alignment ∣ span) :
    ∀ {fuel start : ℕ}, alignment ∣ start → start < last → last - start ≤ fuel →
      Steps alignment most last start (axisLoop (last + 1) span fuel start)
  | 0, start, _, hlt, hfuel => by omega
  | fuel + 1, start, hstart, hlt, hfuel => by
    have hlast : last + 1 - 1 = last := by omega
    simp only [axisLoop, hlast]
    rw [if_pos hlt]
    refine ⟨rfl, hstart, by dsimp only; omega, by dsimp only; omega, ?_⟩
    have hnext : start + (min (start + span) last - start + 1 - 1) = min (start + span) last := by
      omega
    dsimp only
    rw [hnext]
    split_ifs with hend
    · exact hend
    · have hmin : min (start + span) last = start + span := by omega
      rw [hmin]
      exact axisLoop_steps hspan hmost haligned (dvd_add hstart haligned) (by omega) (by omega)

theorem Steps.mem : ∀ {l : List AxisInterval} {start : ℕ}, Steps alignment most last start l →
    start ≤ last ∧ ∀ interval ∈ l, start ≤ interval.start
      ∧ interval.start + interval.length ≤ last + 1 ∧ 2 ≤ interval.length
      ∧ interval.length ≤ most ∧ alignment ∣ interval.start
  | [], start, h => ⟨le_of_eq h, by simp⟩
  | first :: rest, start, ⟨hfirst, haligned, htwo, hmost, h⟩ => by
    obtain ⟨hle, hrest⟩ := h.mem
    refine ⟨by omega, fun interval hinterval => ?_⟩
    rcases List.mem_cons.1 hinterval with rfl | hinterval
    · exact ⟨hfirst.ge, by omega, htwo, hmost, hfirst ▸ haligned⟩
    · obtain ⟨hstart, hwithin⟩ := hrest interval hinterval
      exact ⟨by omega, hwithin⟩

/-- An interval has the step from a sample to the next one. -/
def AxisInterval.HasStep (interval : AxisInterval) (sample : ℕ) : Prop :=
  interval.start ≤ sample ∧ sample + 1 < interval.start + interval.length

theorem Steps.existsUnique : ∀ {l : List AxisInterval} {start sample : ℕ},
    Steps alignment most last start l → start ≤ sample → sample < last →
      ∃! index : ℕ, ∃ interval, l[index]? = some interval ∧ interval.HasStep sample
  | [], start, sample, h, hstart, hlast => by
    have hend : start = last := h
    omega
  | first :: rest, start, sample, ⟨hfirst, _, htwo, _, h⟩, hstart, hlast => by
    by_cases hin : sample + 1 < start + first.length
    · refine ⟨0, ⟨first, rfl, hfirst ▸ hstart, hfirst ▸ hin⟩, ?_⟩
      rintro (_ | index) ⟨interval, hinterval, hstep⟩
      · rfl
      · rw [List.getElem?_cons_succ] at hinterval
        have := (h.mem.2 interval (List.mem_of_getElem? hinterval)).1
        have hbegin := hstep.1
        omega
    · obtain ⟨index, ⟨interval, hinterval, hstep⟩, huniq⟩ :=
        h.existsUnique (show start + (first.length - 1) ≤ sample by omega) hlast
      refine ⟨index + 1, ⟨interval, hinterval, hstep⟩, ?_⟩
      rintro (_ | other) ⟨interval', hinterval', hstep'⟩
      · obtain rfl := Option.some.inj hinterval'
        have hend := hstep'.2
        omega
      · rw [huniq other ⟨interval', hinterval', hstep'⟩]

theorem Steps.next : ∀ {l : List AxisInterval} {start index : ℕ} {one next : AxisInterval},
    Steps alignment most last start l → l[index]? = some one → l[index + 1]? = some next →
      next.start + 1 = one.start + one.length
  | [], _, _, _, _, _, hone, _ => by simp at hone
  | first :: rest, start, 0, one, next, ⟨hfirst, _, htwo, _, h⟩, hone, hnext => by
    obtain rfl := Option.some.inj hone
    rcases rest with _ | ⟨second, rest⟩
    · simp at hnext
    · obtain rfl := Option.some.inj hnext
      have := h.1
      omega
  | first :: rest, start, index + 1, one, next, ⟨_, _, _, _, h⟩, hone, hnext => by
    rw [List.getElem?_cons_succ] at hone hnext
    exact h.next hone hnext

end Axis

/-! ## Rows and columns -/

section Tiles

variable {rows columns : List AxisInterval} {tiles : List Nyc3depSourceTile}

theorem tileAt_eq_ok {height width row column : ℕ} {y x : AxisInterval}
    {tile : Nyc3depSourceTile} (h : tileAt height width row column y x = .ok tile) :
    tile = tileOf height width row column y x := by
  obtain ⟨_, -, h⟩ := bind_eq_ok.1 h
  exact (Except.ok.inj h).symm

/-- The tiles are the pairs of a row and a column. -/
theorem tilesOf_eq_ok (h : tilesOf rows columns = .ok tiles) :
    tiles = (rows.zipIdx.flatMap fun y => columns.zipIdx.map fun x => (y, x)).map fun p =>
      tileOf rows.length columns.length p.1.2 p.2.2 p.1.1 p.2.1 := by
  have hall := mapM_eq_ok.1 h
  clear h
  revert hall
  generalize (rows.zipIdx.flatMap fun y => columns.zipIdx.map fun x => (y, x)) = pairs
  intro hall
  induction hall with
  | nil => rfl
  | cons hhead htail ih =>
    rw [List.map_cons, tileAt_eq_ok hhead, ih]

theorem mem_tilesOf (h : tilesOf rows columns = .ok tiles) {tile : Nyc3depSourceTile} :
    tile ∈ tiles ↔ ∃ (row column : ℕ) (y x : AxisInterval), rows[row]? = some y
      ∧ columns[column]? = some x ∧ tile = tileOf rows.length columns.length row column y x := by
  rw [tilesOf_eq_ok h]
  simp only [List.mem_map, List.mem_flatMap, Prod.exists, List.mem_zipIdx_iff_getElem?]
  constructor
  · rintro ⟨y, row, x, column, ⟨y', row', hrow, x', column', hcolumn, heq⟩, rfl⟩
    obtain ⟨⟨rfl, rfl⟩, rfl, rfl⟩ : (y' = y ∧ row' = row) ∧ x' = x ∧ column' = column := by
      simpa using heq
    exact ⟨row', column', y', x', hrow, hcolumn, rfl⟩
  · rintro ⟨row, column, y, x, hrow, hcolumn, rfl⟩
    exact ⟨y, row, x, column, ⟨y, row, hrow, x, column, hcolumn, rfl⟩, rfl⟩

/-! ## Names of tiles -/

theorem digitsValue_zeros (k : ℕ) (s : JsString) :
    digitsValue (List.replicate k 48 ++ s) = digitsValue s := by
  induction k with
  | zero => rfl
  | succ k ih =>
    rw [List.replicate_succ, List.cons_append]
    exact ih

theorem digitsValue_padded (n : ℕ) : digitsValue (padded n) = n := by
  rw [padded, digitsValue_zeros, digitsValue_repr]

theorem padded_digits {n : ℕ} : ∀ c ∈ padded n, c ≠ 45 := by
  intro c hc
  have hdigit : c = 48 ∨ c ∈ js (toString n) := by
    rw [padded] at hc
    rcases List.mem_append.1 hc with hc | hc
    · exact .inl (List.eq_of_mem_replicate hc)
    · exact .inr hc
  rcases hdigit with rfl | hc
  · decide
  · obtain ⟨d, hd, rfl⟩ := List.mem_map.1 hc
    rw [show (toString n).toList = Nat.toDigits 10 n from Nat.toList_repr] at hd
    have hd := Nat.isDigit_of_mem_toDigits (by decide) (by decide) hd
    simp only [Char.isDigit, Bool.and_eq_true, decide_eq_true_eq] at hd
    have hlow : 48 ≤ d.toNat := hd.1
    have hhigh : d.toNat ≤ 57 := hd.2
    intro h45
    have hval := congrArg Fin.val h45
    rw [val_unit (by omega)] at hval
    change d.toNat = 45 at hval
    omega

theorem padded_inj {n m : ℕ} (h : padded n = padded m) : n = m := by
  rw [← digitsValue_padded n, h, digitsValue_padded]

theorem id_inj {row column row' column' : ℕ}
    (h : js "r" ++ padded row ++ js "-c" ++ padded column
      = js "r" ++ padded row' ++ js "-c" ++ padded column') :
    row = row' ∧ column = column' := by
  simp only [List.append_assoc, List.append_cancel_left_eq] at h
  have hrow : padded row = padded row' := by
    have htake (n : ℕ) (s : JsString) :
        (padded n ++ (js "-c" ++ s)).takeWhile (· ≠ 45) = padded n := by
      rw [List.takeWhile_append_of_pos fun c hc => decide_eq_true (padded_digits c hc),
        show js "-c" = 45 :: js "c" from by decide, List.cons_append,
        List.takeWhile_cons_of_neg (by decide), List.append_nil]
    rw [← htake row (padded column), h, htake]
  rw [hrow, List.append_cancel_left_eq, List.append_cancel_left_eq] at h
  exact ⟨padded_inj hrow, padded_inj h⟩

theorem nodup_zipIdx {α : Type} (l : List α) : l.zipIdx.Nodup := by
  refine List.Nodup.of_map Prod.snd ?_
  rw [List.zipIdx_map_snd]
  exact List.nodup_range'

theorem nodup_ids (h : tilesOf rows columns = .ok tiles) :
    (tiles.map Nyc3depSourceTile.id).Nodup := by
  rw [tilesOf_eq_ok h, List.map_map]
  refine ((nodup_zipIdx rows).product (nodup_zipIdx columns)).map_on ?_
  rintro ⟨⟨y, row⟩, x, column⟩ hp ⟨⟨y', row'⟩, x', column'⟩ hq heq
  obtain ⟨hy, hx⟩ := List.pair_mem_product.1 hp
  obtain ⟨hy', hx'⟩ := List.pair_mem_product.1 hq
  rw [List.mem_zipIdx_iff_getElem?] at hy hx hy' hx'
  obtain ⟨hrow, hcolumn⟩ := id_inj heq
  dsimp only at hrow hcolumn hy hx hy' hx'
  subst hrow
  subst hcolumn
  obtain rfl := Option.some.inj (hy.symm.trans hy')
  obtain rfl := Option.some.inj (hx.symm.trans hx')
  rfl

/-! ## What the tiles cover -/

section Cover

variable {xAlignment yAlignment mostWidth mostHeight lastX lastY : ℕ}

theorem hasCell_tileOf {height width row column : ℕ} {y x : AxisInterval} {i j : ℕ} :
    (tileOf height width row column y x).window.HasCell i j ↔ x.HasStep i ∧ y.HasStep j := by
  simp only [SourceWindow.HasCell, SourceWindow.samples, tileOf, Finset.mem_product,
    Finset.mem_Ico, AxisInterval.HasStep]
  omega

theorem existsUnique_tile (h : tilesOf rows columns = .ok tiles)
    (hcolumns : Steps xAlignment mostWidth lastX 0 columns)
    (hrows : Steps yAlignment mostHeight lastY 0 rows) {i j : ℕ} (hi : i < lastX) (hj : j < lastY) :
    ∃! tile, tile ∈ tiles ∧ tile.window.HasCell i j := by
  obtain ⟨column, ⟨x, hx, hxstep⟩, hcolumn⟩ := hcolumns.existsUnique (Nat.zero_le i) hi
  obtain ⟨row, ⟨y, hy, hystep⟩, hrow⟩ := hrows.existsUnique (Nat.zero_le j) hj
  refine ⟨tileOf rows.length columns.length row column y x,
    ⟨(mem_tilesOf h).2 ⟨row, column, y, x, hy, hx, rfl⟩, hasCell_tileOf.2 ⟨hxstep, hystep⟩⟩, ?_⟩
  rintro tile ⟨htile, hcell⟩
  obtain ⟨row', column', y', x', hy', hx', rfl⟩ := (mem_tilesOf h).1 htile
  obtain ⟨hxstep', hystep'⟩ := hasCell_tileOf.1 hcell
  obtain rfl := hcolumn column' ⟨x', hx', hxstep'⟩
  obtain rfl := hrow row' ⟨y', hy', hystep'⟩
  obtain rfl := Option.some.inj (hx.symm.trans hx')
  obtain rfl := Option.some.inj (hy.symm.trans hy')
  rfl

/-- What two intervals share of which the second begins at the last sample of the first. -/
theorem Ico_inter_next {x x' : AxisInterval} (hx : 2 ≤ x.length) (hx' : 2 ≤ x'.length)
    (h : x'.start + 1 = x.start + x.length) :
    Finset.Ico x.start (x.start + x.length) ∩ Finset.Ico x'.start (x'.start + x'.length)
      = {x'.start} := by
  ext i
  rw [Finset.mem_inter, Finset.mem_Ico, Finset.mem_Ico, Finset.mem_singleton]
  omega

theorem beside_tilesOf (h : tilesOf rows columns = .ok tiles)
    (hcolumns : Steps xAlignment mostWidth lastX 0 columns) {left right : Nyc3depSourceTile}
    (hleft : left ∈ tiles) (hright : right ∈ tiles) (hrow : left.row = right.row)
    (hcolumn : left.column + 1 = right.column) :
    left.window.samples ∩ right.window.samples
        = {right.window.x} ×ˢ Finset.Ico left.window.y (left.window.y + left.window.height)
      ∧ left.sharedSourceSamples.east = some (left.window.samples ∩ right.window.samples).card
      ∧ right.sharedSourceSamples.west
        = some (left.window.samples ∩ right.window.samples).card := by
  obtain ⟨row, column, y, x, hy, hx, rfl⟩ := (mem_tilesOf h).1 hleft
  obtain ⟨row', column', y', x', hy', hx', rfl⟩ := (mem_tilesOf h).1 hright
  obtain rfl : row = row' := hrow
  obtain rfl : column + 1 = column' := hcolumn
  obtain rfl := Option.some.inj (hy.symm.trans hy')
  have hlast : column + 1 < columns.length := (List.getElem?_eq_some_iff.1 hx').1
  have hxs := hcolumns.mem.2 x (List.mem_of_getElem? hx)
  have hxs' := hcolumns.mem.2 x' (List.mem_of_getElem? hx')
  have hline := Ico_inter_next hxs.2.2.1 hxs'.2.2.1 (hcolumns.next hx hx')
  have hinter : (tileOf rows.length columns.length row column y x).window.samples
      ∩ (tileOf rows.length columns.length row (column + 1) y x').window.samples
        = {x'.start} ×ˢ Finset.Ico y.start (y.start + y.length) := by
    simp only [SourceWindow.samples, tileOf]
    rw [Finset.product_inter_product, hline, Finset.inter_self]
  have hcard : ({x'.start} ×ˢ Finset.Ico y.start (y.start + y.length) : Finset (ℕ × ℕ)).card
      = y.length := by
    rw [Finset.card_product, Finset.card_singleton, Nat.card_Ico]
    omega
  rw [hinter, hcard]
  refine ⟨rfl, ?_, ?_⟩
  · simp only [tileOf]
    rw [if_neg (by omega)]
  · simp only [tileOf]
    rw [if_neg (by omega)]

theorem below_tilesOf (h : tilesOf rows columns = .ok tiles)
    (hrows : Steps yAlignment mostHeight lastY 0 rows) {upper lower : Nyc3depSourceTile}
    (hupper : upper ∈ tiles) (hlower : lower ∈ tiles) (hcolumn : upper.column = lower.column)
    (hrow : upper.row + 1 = lower.row) :
    upper.window.samples ∩ lower.window.samples
        = Finset.Ico upper.window.x (upper.window.x + upper.window.width) ×ˢ {lower.window.y}
      ∧ upper.sharedSourceSamples.south = some (upper.window.samples ∩ lower.window.samples).card
      ∧ lower.sharedSourceSamples.north
        = some (upper.window.samples ∩ lower.window.samples).card := by
  obtain ⟨row, column, y, x, hy, hx, rfl⟩ := (mem_tilesOf h).1 hupper
  obtain ⟨row', column', y', x', hy', hx', rfl⟩ := (mem_tilesOf h).1 hlower
  obtain rfl : column = column' := hcolumn
  obtain rfl : row + 1 = row' := hrow
  obtain rfl := Option.some.inj (hx.symm.trans hx')
  have hlast : row + 1 < rows.length := (List.getElem?_eq_some_iff.1 hy').1
  have hys := hrows.mem.2 y (List.mem_of_getElem? hy)
  have hys' := hrows.mem.2 y' (List.mem_of_getElem? hy')
  have hline := Ico_inter_next hys.2.2.1 hys'.2.2.1 (hrows.next hy hy')
  have hinter : (tileOf rows.length columns.length row column y x).window.samples
      ∩ (tileOf rows.length columns.length (row + 1) column y' x).window.samples
        = Finset.Ico x.start (x.start + x.length) ×ˢ {y'.start} := by
    simp only [SourceWindow.samples, tileOf]
    rw [Finset.product_inter_product, hline, Finset.inter_self]
  have hcard : (Finset.Ico x.start (x.start + x.length) ×ˢ {y'.start} : Finset (ℕ × ℕ)).card
      = x.length := by
    rw [Finset.card_product, Finset.card_singleton, Nat.card_Ico]
    omega
  rw [hinter, hcard]
  refine ⟨rfl, ?_, ?_⟩
  · simp only [tileOf]
    rw [if_neg (by omega)]
  · simp only [tileOf]
    rw [if_neg (by omega)]

end Cover

end Tiles

/-! ## The plan -/

section Plan

variable {input : Nyc3depSourceTilingRequest} {plan : PlanBody}
  {source : Nyc3depSourceImageLayout}

theorem requireInteger_eq_ok {least : ℤ} {value : Option JsonValue} {message : JsString} {n : ℕ}
    (hleast : 0 ≤ least) (h : requireInteger least value message = .ok n) :
    value = some (.number (.int n)) ∧ least ≤ n ∧ (n : ℤ) ≤ JsonNumber.MAX_SAFE_INTEGER := by
  unfold requireInteger safeIntegerOf at h
  rcases value with _ | v
  · cases h
  · rcases v with _ | b | number | s | items | members
    · cases h
    · cases h
    · rcases number with z | ⟨text, plain⟩ | negative
      · simp only [JsonNumber.safeInteger?] at h
        split_ifs at h with hsafe
        · dsimp only at h
          split_ifs at h with hz
          obtain rfl := Except.ok.inj h
          rw [Int.toNat_of_nonneg (by omega)]
          exact ⟨rfl, hz, hsafe.2⟩
      · cases h
      · cases h
    · cases h
    · cases h
    · cases h

theorem axisIntervals_eq_ok {sourceLength maximumWindowLength alignment : ℕ} {side : String}
    {intervals : List AxisInterval} (hsource : 2 ≤ sourceLength)
    (h : axisIntervals sourceLength maximumWindowLength alignment side = .ok intervals) :
    Steps alignment maximumWindowLength (sourceLength - 1) 0 intervals := by
  unfold axisIntervals at h
  obtain ⟨_, hspan, h⟩ := bind_eq_ok.1 h
  obtain rfl := Except.ok.inj h
  simp only [require_eq_ok, Bool.not_eq_true', decide_eq_false_iff_not, not_lt] at hspan
  have hle := Nat.div_mul_le_self (maximumWindowLength - 1) alignment
  obtain ⟨last, rfl⟩ : ∃ last, sourceLength = last + 1 := ⟨sourceLength - 1, by omega⟩
  exact axisLoop_steps hspan (by omega) (Nat.dvd_mul_left _ _) (dvd_zero _) (by omega) (by omega)

theorem test_undefined : JsonValue.test GeoTiff.isSha256Digest none = .ok false := by
  have hfalse : GeoTiff.isSha256Digest (js "undefined") = false := by decide
  exact congrArg Except.ok hfalse

/-- What an accepted source has. -/
structure Accepted (members : List (JsString × JsonValue)) (source : Nyc3depSourceImageLayout) :
    Prop where
  index : ∃ n : ℕ, JsonValue.member (js "imageIndex") members = some (.number (.int n))
    ∧ (n : ℤ) ≤ JsonNumber.MAX_SAFE_INTEGER
  width : JsonValue.member (js "width") members = some (.number (.int source.width))
    ∧ 2 ≤ source.width ∧ (source.width : ℤ) ≤ JsonNumber.MAX_SAFE_INTEGER
  height : JsonValue.member (js "height") members = some (.number (.int source.height))
    ∧ 2 ≤ source.height ∧ (source.height : ℤ) ≤ JsonNumber.MAX_SAFE_INTEGER
  blockWidth : JsonValue.member (js "blockWidth") members = some (.number (.int source.blockWidth))
    ∧ 1 ≤ source.blockWidth ∧ (source.blockWidth : ℤ) ≤ JsonNumber.MAX_SAFE_INTEGER
  blockHeight :
    JsonValue.member (js "blockHeight") members = some (.number (.int source.blockHeight))
      ∧ 1 ≤ source.blockHeight ∧ (source.blockHeight : ℤ) ≤ JsonNumber.MAX_SAFE_INTEGER

theorem validateSource_eq_ok {given : Option JsonValue} (h : validateSource given = .ok source) :
    ∃ members, given = some (.object members) ∧ Accepted members source := by
  unfold validateSource at h
  obtain ⟨digest, hdigest, h⟩ := bind_eq_ok.1 h
  obtain ⟨passes, hpasses, h⟩ := bind_eq_ok.1 h
  obtain ⟨_, hrequired, h⟩ := bind_eq_ok.1 h
  have hundefined (hnone : digest = none) : False := by
    rw [hnone, test_undefined] at hpasses
    obtain rfl := Except.ok.inj hpasses
    cases hrequired
  have hobject : ∃ members, given = some (.object members) := by
    rcases given with _ | v
    · cases hdigest
    · rcases v with _ | b | number | s | items | members
      · cases hdigest
      · exact (hundefined (Except.ok.inj hdigest).symm).elim
      · exact (hundefined (Except.ok.inj hdigest).symm).elim
      · exact (hundefined (Except.ok.inj hdigest).symm).elim
      · exact (hundefined (Except.ok.inj hdigest).symm).elim
      · exact ⟨members, rfl⟩
  obtain ⟨members, rfl⟩ := hobject
  refine ⟨members, rfl, ?_⟩
  simp only [get_object] at h
  obtain ⟨_, hget, h⟩ := bind_eq_ok.1 h
  obtain rfl := Except.ok.inj hget
  obtain ⟨index, hindex, h⟩ := bind_eq_ok.1 h
  obtain ⟨_, hget, h⟩ := bind_eq_ok.1 h
  obtain rfl := Except.ok.inj hget
  obtain ⟨width, hwidth, h⟩ := bind_eq_ok.1 h
  obtain ⟨_, hget, h⟩ := bind_eq_ok.1 h
  obtain rfl := Except.ok.inj hget
  obtain ⟨height, hheight, h⟩ := bind_eq_ok.1 h
  obtain ⟨_, hget, h⟩ := bind_eq_ok.1 h
  obtain rfl := Except.ok.inj hget
  obtain ⟨storage, hstorage, h⟩ := bind_eq_ok.1 h
  obtain ⟨_, hget, h⟩ := bind_eq_ok.1 h
  obtain rfl := Except.ok.inj hget
  obtain ⟨blockWidth, hblockWidth, h⟩ := bind_eq_ok.1 h
  obtain ⟨_, hget, h⟩ := bind_eq_ok.1 h
  obtain rfl := Except.ok.inj hget
  obtain ⟨blockHeight, hblockHeight, h⟩ := bind_eq_ok.1 h
  obtain rfl := Except.ok.inj h
  obtain ⟨hindex, -, hindexSafe⟩ := requireInteger_eq_ok le_rfl hindex
  obtain ⟨hwidth, hwidthLeast, hwidthSafe⟩ := requireInteger_eq_ok (by decide) hwidth
  obtain ⟨hheight, hheightLeast, hheightSafe⟩ := requireInteger_eq_ok (by decide) hheight
  obtain ⟨hblockWidth, hblockWidthLeast, hblockWidthSafe⟩ :=
    requireInteger_eq_ok (by decide) hblockWidth
  obtain ⟨hblockHeight, hblockHeightLeast, hblockHeightSafe⟩ :=
    requireInteger_eq_ok (by decide) hblockHeight
  exact {
    index := ⟨index, hindex, hindexSafe⟩
    width := ⟨hwidth, by exact_mod_cast hwidthLeast, hwidthSafe⟩
    height := ⟨hheight, by exact_mod_cast hheightLeast, hheightSafe⟩
    blockWidth := ⟨hblockWidth, by exact_mod_cast hblockWidthLeast, hblockWidthSafe⟩
    blockHeight := ⟨hblockHeight, by exact_mod_cast hblockHeightLeast, hblockHeightSafe⟩ }

/-- What an accepted request has, and the plan of it. -/
structure Built (input : Nyc3depSourceTilingRequest) (source : Nyc3depSourceImageLayout)
    (plan : PlanBody) (rows columns : List AxisInterval) : Prop where
  maximumWindowWidth : input.maximumWindowWidth = some (count plan.maximumWindowWidth)
    ∧ (plan.maximumWindowWidth : ℤ) ≤ JsonNumber.MAX_SAFE_INTEGER
  maximumWindowHeight : input.maximumWindowHeight = some (count plan.maximumWindowHeight)
    ∧ (plan.maximumWindowHeight : ℤ) ≤ JsonNumber.MAX_SAFE_INTEGER
  maximumTileCount : input.maximumTileCount = some (count plan.maximumTileCount)
    ∧ (plan.maximumTileCount : ℤ) ≤ JsonNumber.MAX_SAFE_INTEGER
  spreads : plan.source = spread input.source
  xSamples : plan.xSamples = if source.storage = .tiled then source.blockWidth else 1
  ySamples : plan.ySamples = source.blockHeight
  columnSteps : Steps plan.xSamples plan.maximumWindowWidth (source.width - 1) 0 columns
  rowSteps : Steps plan.ySamples plan.maximumWindowHeight (source.height - 1) 0 rows
  tileCount : columns.length * rows.length ≤ plan.maximumTileCount
  tiles : tilesOf rows columns = .ok plan.tiles

theorem buildPlan_eq_ok (h : buildPlan input = .ok plan) :
    ∃ source rows columns, validateSource input.source = .ok source
      ∧ Built input source plan rows columns := by
  unfold buildPlan at h
  obtain ⟨source, hsource, h⟩ := bind_eq_ok.1 h
  obtain ⟨width, hwidth, h⟩ := bind_eq_ok.1 h
  obtain ⟨height, hheight, h⟩ := bind_eq_ok.1 h
  obtain ⟨most, hmost, h⟩ := bind_eq_ok.1 h
  obtain ⟨_, -, h⟩ := bind_eq_ok.1 h
  obtain ⟨columns, hcolumns, h⟩ := bind_eq_ok.1 h
  obtain ⟨rows, hrows, h⟩ := bind_eq_ok.1 h
  obtain ⟨_, hcount, h⟩ := bind_eq_ok.1 h
  obtain ⟨tiles, htiles, h⟩ := bind_eq_ok.1 h
  obtain rfl := Except.ok.inj h
  obtain ⟨members, -, haccepted⟩ := validateSource_eq_ok hsource
  obtain ⟨hwidth, -, hwidthSafe⟩ := requireInteger_eq_ok (by decide) hwidth
  obtain ⟨hheight, -, hheightSafe⟩ := requireInteger_eq_ok (by decide) hheight
  obtain ⟨hmost, -, hmostSafe⟩ := requireInteger_eq_ok (by decide) hmost
  simp only [require_eq_ok, Bool.not_eq_true', decide_eq_false_iff_not, not_lt] at hcount
  refine ⟨source, rows, columns, hsource, {
    maximumWindowWidth := ⟨hwidth, hwidthSafe⟩
    maximumWindowHeight := ⟨hheight, hheightSafe⟩
    maximumTileCount := ⟨hmost, hmostSafe⟩
    spreads := rfl
    xSamples := ?_
    ySamples := rfl
    columnSteps := axisIntervals_eq_ok haccepted.width.2.1 hcolumns
    rowSteps := axisIntervals_eq_ok haccepted.height.2.1 hrows
    tileCount := hcount
    tiles := htiles }⟩
  cases source.storage <;> rfl

/-- The tiles of an accepted request cover its image. -/
theorem Built.exact {rows columns : List AxisInterval} (h : Built input source plan rows columns)
    (hwidth : 2 ≤ source.width) (hheight : 2 ≤ source.height) : plan.Exact source := by
  have hmem {tile : Nyc3depSourceTile} (htile : tile ∈ plan.tiles) :
      ∃ y x : AxisInterval, (tile.window = ⟨x.start, y.start, x.length, y.length⟩)
        ∧ (x.start + x.length ≤ source.width - 1 + 1 ∧ 2 ≤ x.length
          ∧ x.length ≤ plan.maximumWindowWidth ∧ plan.xSamples ∣ x.start)
        ∧ y.start + y.length ≤ source.height - 1 + 1 ∧ 2 ≤ y.length
          ∧ y.length ≤ plan.maximumWindowHeight ∧ plan.ySamples ∣ y.start := by
    obtain ⟨row, column, y, x, hy, hx, rfl⟩ := (mem_tilesOf h.tiles).1 htile
    exact ⟨y, x, rfl, (h.columnSteps.mem.2 x (List.mem_of_getElem? hx)).2,
      (h.rowSteps.mem.2 y (List.mem_of_getElem? hy)).2⟩
  refine {
    inside := fun tile htile => ?_
    within := fun tile htile => ?_
    cells := fun i j hi hj =>
      existsUnique_tile h.tiles h.columnSteps h.rowSteps (by omega) (by omega)
    beside := fun left hleft right hright hrow hcolumn =>
      beside_tilesOf h.tiles h.columnSteps hleft hright hrow hcolumn
    below := fun upper hupper lower hlower hcolumn hrow =>
      below_tilesOf h.tiles h.rowSteps hupper hlower hcolumn hrow
    aligned := fun tile htile => ?_
    blocks := ⟨h.ySamples, h.xSamples⟩
    ids := nodup_ids h.tiles }
  · obtain ⟨y, x, hwindow, hx, hy⟩ := hmem htile
    rw [hwindow]
    exact ⟨by dsimp only; omega, by dsimp only; omega⟩
  · obtain ⟨y, x, hwindow, hx, hy⟩ := hmem htile
    rw [hwindow]
    exact ⟨hx.2.2.1, hy.2.2.1⟩
  · obtain ⟨y, x, hwindow, hx, hy⟩ := hmem htile
    rw [hwindow]
    exact ⟨hx.2.2.2, hy.2.2.2⟩

/-! ## A plan that was written and read -/

theorem written_countOrNull {n : Option ℕ}
    (h : ∀ m ∈ n, (m : ℤ) ≤ JsonNumber.MAX_SAFE_INTEGER) : Written (countOrNull n) := by
  rcases n with _ | m
  · exact Written.null
  · exact Written.natural (h m rfl)

/-- All numbers of a tile are safe integers. -/
structure SafeTile (tile : Nyc3depSourceTile) : Prop where
  row : (tile.row : ℤ) ≤ JsonNumber.MAX_SAFE_INTEGER
  column : (tile.column : ℤ) ≤ JsonNumber.MAX_SAFE_INTEGER
  x : (tile.window.x : ℤ) ≤ JsonNumber.MAX_SAFE_INTEGER
  y : (tile.window.y : ℤ) ≤ JsonNumber.MAX_SAFE_INTEGER
  width : (tile.window.width : ℤ) ≤ JsonNumber.MAX_SAFE_INTEGER
  height : (tile.window.height : ℤ) ≤ JsonNumber.MAX_SAFE_INTEGER
  shared : ∀ n, some n ∈ [tile.sharedSourceSamples.north, tile.sharedSourceSamples.east,
    tile.sharedSourceSamples.south, tile.sharedSourceSamples.west] →
      (n : ℤ) ≤ JsonNumber.MAX_SAFE_INTEGER

theorem written_tile {tile : Nyc3depSourceTile} (h : SafeTile tile) : Written tile.value := by
  have hwindow : ∀ n ∈ [tile.window.x, tile.window.y, tile.window.width, tile.window.height],
      Written (count n) := by
    simp only [List.forall_mem_cons, List.not_mem_nil, false_implies, implies_true, and_true]
    exact ⟨Written.natural h.x, Written.natural h.y, Written.natural h.width,
      Written.natural h.height⟩
  refine Written.object (by simp only [List.map]; decide) (by simp only [List.map]; decide) ?_
  simp only [List.forall_mem_cons, List.not_mem_nil, false_implies, implies_true,
    and_true] at hwindow ⊢
  refine ⟨Written.string _, Written.natural h.row, Written.natural h.column, ?_, ?_, ?_⟩
  · refine Written.object (by simp only [List.map]; decide) (by simp only [List.map]; decide) ?_
    simp only [List.forall_mem_cons, List.not_mem_nil, false_implies, implies_true, and_true]
    exact hwindow
  · refine Written.array ?_
    simp only [List.forall_mem_cons, List.not_mem_nil, false_implies, implies_true, and_true]
    exact hwindow
  · refine Written.object (by simp only [List.map]; decide) (by simp only [List.map]; decide) ?_
    simp only [List.forall_mem_cons, List.not_mem_nil, false_implies, implies_true, and_true]
    refine ⟨written_countOrNull fun n hn => h.shared n ?_,
      written_countOrNull fun n hn => h.shared n ?_,
      written_countOrNull fun n hn => h.shared n ?_,
      written_countOrNull fun n hn => h.shared n ?_⟩
    all_goals rw [← Option.mem_def.1 hn]; simp

/-- What a plan shares has the length of a window. -/
theorem shared_tileOf {height width row column : ℕ} {y x : AxisInterval} {n : ℕ}
    (h : some n ∈ [(tileOf height width row column y x).sharedSourceSamples.north,
      (tileOf height width row column y x).sharedSourceSamples.east,
      (tileOf height width row column y x).sharedSourceSamples.south,
      (tileOf height width row column y x).sharedSourceSamples.west]) :
    n = x.length ∨ n = y.length := by
  simp only [tileOf, List.mem_cons, List.not_mem_nil, or_false] at h
  rcases h with h | h | h | h
  · split_ifs at h
    exact .inl (Option.some.inj h)
  · split_ifs at h
    exact .inr (Option.some.inj h)
  · split_ifs at h
    exact .inl (Option.some.inj h)
  · split_ifs at h
    exact .inr (Option.some.inj h)

theorem Built.safeTile {members : List (JsString × JsonValue)} {rows columns : List AxisInterval}
    (h : Built input source plan rows columns) (haccepted : Accepted members source)
    {tile : Nyc3depSourceTile} (htile : tile ∈ plan.tiles) : SafeTile tile := by
  obtain ⟨row, column, y, x, hy, hx, rfl⟩ := (mem_tilesOf h.tiles).1 htile
  have hrow : row < rows.length := (List.getElem?_eq_some_iff.1 hy).1
  have hcolumn : column < columns.length := (List.getElem?_eq_some_iff.1 hx).1
  obtain ⟨-, hxend, -⟩ := h.columnSteps.mem.2 x (List.mem_of_getElem? hx)
  obtain ⟨-, hyend, -⟩ := h.rowSteps.mem.2 y (List.mem_of_getElem? hy)
  have hrows : rows.length ≤ columns.length * rows.length :=
    Nat.le_mul_of_pos_left _ (by omega)
  have hcolumns : columns.length ≤ columns.length * rows.length :=
    Nat.le_mul_of_pos_right _ (by omega)
  have htiles := h.tileCount
  have hmost := h.maximumTileCount.2
  obtain ⟨-, hwidth, hwidthSafe⟩ := haccepted.width
  obtain ⟨-, hheight, hheightSafe⟩ := haccepted.height
  have hxlength : (x.length : ℤ) ≤ JsonNumber.MAX_SAFE_INTEGER := by omega
  have hylength : (y.length : ℤ) ≤ JsonNumber.MAX_SAFE_INTEGER := by omega
  refine {
    row := by dsimp only [tileOf]; omega
    column := by dsimp only [tileOf]; omega
    x := by dsimp only [tileOf]; omega
    y := by dsimp only [tileOf]; omega
    width := hxlength
    height := hylength
    shared := fun n hn => ?_ }
  rcases shared_tileOf hn with rfl | rfl
  · exact hxlength
  · exact hylength

theorem member_of_mem {name : JsString} {v : JsonValue} :
    ∀ {members : List (JsString × JsonValue)}, (members.map Prod.fst).Nodup →
      (name, v) ∈ members → JsonValue.member name members = some v
  | (key, w) :: members, hnodup, h => by
    rw [List.map_cons, List.nodup_cons] at hnodup
    rw [JsonValue.member]
    rcases List.mem_cons.1 h with heq | h
    · obtain ⟨rfl, rfl⟩ := Prod.mk.inj heq
      exact if_pos rfl
    · have hne : key ≠ name := by
        rintro rfl
        exact hnodup.1 (List.mem_map.2 ⟨_, h, rfl⟩)
      rw [if_neg hne, member_of_mem hnodup.2 h]

/-- A source of its type, which the checks accepted. -/
theorem written_source {members : List (JsString × JsonValue)} (hlayout : IsLayout members)
    (haccepted : Accepted members source) : Written (.object members) := by
  have hnodup : (members.map Prod.fst).Nodup := hlayout.names.nodup_iff.2 (by decide)
  have hletters : ∀ name ∈ sourceNames, name.head?.all isDigit = false := by decide
  have hsafe {name : String} {n : ℕ} (hn : (n : ℤ) ≤ JsonNumber.MAX_SAFE_INTEGER)
      (hmember : JsonValue.member (js name) members = some (.number (.int n))) {v : JsonValue}
      (hv : (js name, v) ∈ members) : Written v := by
    obtain rfl := Option.some.inj ((member_of_mem hnodup hv).symm.trans hmember)
    exact Written.natural hn
  have htext {name : String} (hname : name ∈ ["sourceSnapshotSha256", "storage"]) {v : JsonValue}
      (hv : (js name, v) ∈ members) : Written v := by
    obtain ⟨s, rfl⟩ := hlayout.texts name hname v hv
    exact Written.string s
  refine Written.object hnodup (fun name hname => hletters name (hlayout.names.mem_iff.1 hname)) ?_
  rintro ⟨name, v⟩ hv
  have hname : name ∈ sourceNames :=
    hlayout.names.mem_iff.1 (List.mem_map.2 ⟨_, hv, rfl⟩)
  simp only [sourceNames, List.map, List.mem_cons, List.not_mem_nil, or_false] at hname
  rcases hname with rfl | rfl | rfl | rfl | rfl | rfl | rfl
  · exact htext (by simp) hv
  · obtain ⟨n, hmember, hn⟩ := haccepted.index
    exact hsafe hn hmember hv
  · exact hsafe haccepted.width.2.2 haccepted.width.1 hv
  · exact hsafe haccepted.height.2.2 haccepted.height.1 hv
  · exact htext (by simp) hv
  · exact hsafe haccepted.blockWidth.2.2 haccepted.blockWidth.1 hv
  · exact hsafe haccepted.blockHeight.2.2 haccepted.blockHeight.1 hv

/-- The names of the fields of a plan, whatever their values. -/
theorem names_fields (plan : Nyc3depSourceTilingPlan) :
    plan.fields.map Prod.fst
      = ["version", "method", "source", "maximumWindowWidth", "maximumWindowHeight",
        "maximumTileCount", "sampleOverlap", "alignment", "tiles", "privacy", "nonClaims",
        "planSha256"].map js := rfl

theorem nodup_fields (plan : Nyc3depSourceTilingPlan) : (plan.fields.map Prod.fst).Nodup := by
  rw [names_fields]
  decide

theorem Built.written {members : List (JsString × JsonValue)} {rows columns : List AxisInterval}
    (h : Built input source plan rows columns) (haccepted : Accepted members source)
    (hsource : input.source = some (.object members)) (hlayout : IsLayout members)
    (planSha256 : JsString) :
    Written (Nyc3depSourceTilingPlan.value { plan with planSha256 }) := by
  have hspread : plan.source = members := by rw [h.spreads, hsource, spread]
  have hx : (plan.xSamples : ℤ) ≤ JsonNumber.MAX_SAFE_INTEGER := by
    have hblock := haccepted.blockWidth.2.2
    have hone : (1 : ℤ) ≤ JsonNumber.MAX_SAFE_INTEGER := by decide
    rw [h.xSamples]
    split_ifs
    · exact hblock
    · exact_mod_cast hone
  have hy : (plan.ySamples : ℤ) ≤ JsonNumber.MAX_SAFE_INTEGER := by
    rw [h.ySamples]
    exact haccepted.blockHeight.2.2
  refine Written.object (nodup_fields _) ?_ ?_
  · rw [names_fields]
    decide
  · simp only [Nyc3depSourceTilingPlan.fields, PlanBody.members, List.cons_append,
      List.nil_append, List.forall_mem_cons, List.not_mem_nil, false_implies, implies_true,
      and_true]
    refine ⟨Written.string _, Written.string _, ?_, Written.natural h.maximumWindowWidth.2,
      Written.natural h.maximumWindowHeight.2, Written.natural h.maximumTileCount.2,
      Written.natural (by decide), ?_, ?_, ?_, ?_, Written.string _⟩
    · rw [hspread]
      exact written_source hlayout haccepted
    · refine Written.object (by simp only [List.map]; decide) (by simp only [List.map]; decide) ?_
      simp only [List.forall_mem_cons, List.not_mem_nil, false_implies, implies_true, and_true]
      exact ⟨Written.natural hx, Written.natural hy, Written.string _⟩
    · refine Written.array fun v hv => ?_
      obtain ⟨tile, htile, rfl⟩ := List.mem_map.1 hv
      exact written_tile (h.safeTile haccepted htile)
    · refine Written.object (by simp only [List.map]; decide) (by simp only [List.map]; decide) ?_
      simp only [List.forall_mem_cons, List.not_mem_nil, false_implies, implies_true, and_true]
      exact ⟨Written.bool _, Written.bool _, Written.bool _⟩
    · refine Written.array fun v hv => ?_
      obtain ⟨s, -, rfl⟩ := List.mem_map.1 hv
      exact Written.string s

theorem get_value {plan : Nyc3depSourceTilingPlan} {name : String} {v : JsonValue}
    (h : (js name, v) ∈ plan.fields) : JsonValue.get (some plan.value) name = .ok (some v) := by
  rw [Nyc3depSourceTilingPlan.value, get_object]
  exact congrArg Except.ok (member_of_mem (nodup_fields plan) h)

/-- A plan is accepted as it was made. -/
theorem verify_value {sha256 : JsString → JsString} {plan : Nyc3depSourceTilingPlan}
    (h : planNyc3depSourceTiles sha256 input = .ok plan) :
    verifyNyc3depSourceTilingPlan sha256 plan.value = .ok plan := by
  have hplan := h
  obtain ⟨body, hbody, h⟩ := bind_eq_ok.1 h
  obtain rfl := Except.ok.inj h
  obtain ⟨source, rows, columns, hsource, hbuilt⟩ := buildPlan_eq_ok hbody
  obtain ⟨members, hmembers, -⟩ := validateSource_eq_ok hsource
  have hspread : body.source = members := by rw [hbuilt.spreads, hmembers, spread]
  have hinput : input = {
      source := some (.object body.source)
      maximumWindowWidth := some (count body.maximumWindowWidth)
      maximumWindowHeight := some (count body.maximumWindowHeight)
      maximumTileCount := some (count body.maximumTileCount) } := by
    rw [hspread, ← hmembers, ← hbuilt.maximumWindowWidth.1, ← hbuilt.maximumWindowHeight.1,
      ← hbuilt.maximumTileCount.1]
  rw [hinput] at hplan
  unfold verifyNyc3depSourceTilingPlan
  refine bind_eq_ok.2 ⟨_, get_value (v := .object body.source) ?_, ?_⟩
  · simp [Nyc3depSourceTilingPlan.fields, PlanBody.members]
  refine bind_eq_ok.2 ⟨_, get_value (v := count body.maximumWindowWidth) ?_, ?_⟩
  · simp [Nyc3depSourceTilingPlan.fields, PlanBody.members]
  refine bind_eq_ok.2 ⟨_, get_value (v := count body.maximumWindowHeight) ?_, ?_⟩
  · simp [Nyc3depSourceTilingPlan.fields, PlanBody.members]
  refine bind_eq_ok.2 ⟨_, get_value (v := count body.maximumTileCount) ?_, ?_⟩
  · simp [Nyc3depSourceTilingPlan.fields, PlanBody.members]
  refine bind_eq_ok.2 ⟨_, hplan, bind_eq_ok.2 ⟨_,
    get_value (v := .string (sha256 (planPayload body))) ?_, bind_eq_ok.2 ⟨(), ?_, rfl⟩⟩⟩
  · simp [Nyc3depSourceTilingPlan.fields]
  · rw [require_eq_ok, same_string.2 rfl]
    simp

/-- The tiles of every accepted request cover its image, and its plan is accepted when it was
written and read. -/
theorem planNyc3depSourceTiles_exact {sha256 : JsString → JsString}
    {plan : Nyc3depSourceTilingPlan} (h : planNyc3depSourceTiles sha256 input = .ok plan) :
    (∃ source, validateSource input.source = .ok source ∧ plan.Exact source)
      ∧ ∀ (other : JsString → Option JsonNumber) (members : List (JsString × JsonValue)),
        input.source = some (.object members) → IsLayout members →
          ∃ read, parse other (stringify plan.value) = some read
            ∧ verifyNyc3depSourceTilingPlan sha256 read = .ok plan := by
  have hplan := h
  obtain ⟨body, hbody, h⟩ := bind_eq_ok.1 h
  obtain rfl := Except.ok.inj h
  obtain ⟨source, rows, columns, hsource, hbuilt⟩ := buildPlan_eq_ok hbody
  obtain ⟨members, hmembers, haccepted⟩ := validateSource_eq_ok hsource
  refine ⟨⟨source, hsource, hbuilt.exact haccepted.width.2.1 haccepted.height.2.1⟩, ?_⟩
  intro other members' hmembers' hlayout
  obtain rfl : members = members' := by
    rw [hmembers] at hmembers'
    simpa using hmembers'
  exact ⟨_, parse_stringify other (hbuilt.written haccepted hmembers hlayout _),
    verify_value hplan⟩

end Plan

/-! ## Four tiles -/

/-- An image of tiled blocks, whose fields stand in another order than in their type. -/
def fourTilesSource : List (JsString × JsonValue) := [
  (js "storage", .string (js "tiled")),
  (js "sourceSnapshotSha256", .string (js "sha256:" ++ List.replicate 64 97)),
  (js "imageIndex", count 0), (js "width", count 17), (js "height", count 13),
  (js "blockWidth", count 4), (js "blockHeight", count 3)]

def fourTiles : Nyc3depSourceTilingRequest where
  source := some (.object fourTilesSource)
  maximumWindowWidth := some (count 9)
  maximumWindowHeight := some (count 7)
  maximumTileCount := some (count 16)

def textSha256 (s : JsString) : JsString := js "sha256:" ++ (Sha256.sha256Hex true s).getD []

theorem nodup_fourTilesSource : (fourTilesSource.map Prod.fst).Nodup := by
  simp only [fourTilesSource, List.map]
  decide

theorem eq_of_mem_fourTilesSource {name : JsString} {v w : JsonValue}
    (hv : (name, v) ∈ fourTilesSource)
    (hw : JsonValue.member name fourTilesSource = some w) : v = w :=
  Option.some.inj ((member_of_mem nodup_fourTilesSource hv).symm.trans hw)

theorem isLayout_fourTilesSource : IsLayout fourTilesSource where
  names := by
    simp only [fourTilesSource, List.map]
    decide
  texts := by
    simp only [List.forall_mem_cons, List.not_mem_nil, false_implies, implies_true, and_true]
    exact ⟨fun v hv => ⟨_, eq_of_mem_fourTilesSource hv rfl⟩,
      fun v hv => ⟨_, eq_of_mem_fourTilesSource hv rfl⟩⟩
  numbers := by
    simp only [List.forall_mem_cons, List.not_mem_nil, false_implies, implies_true, and_true]
    exact ⟨fun v hv => ⟨_, eq_of_mem_fourTilesSource hv rfl⟩,
      fun v hv => ⟨_, eq_of_mem_fourTilesSource hv rfl⟩,
      fun v hv => ⟨_, eq_of_mem_fourTilesSource hv rfl⟩,
      fun v hv => ⟨_, eq_of_mem_fourTilesSource hv rfl⟩,
      fun v hv => ⟨_, eq_of_mem_fourTilesSource hv rfl⟩⟩

theorem windows_fourTiles : (buildPlan fourTiles).toOption.map (fun plan =>
    plan.tiles.map Nyc3depSourceTile.window)
      = some [⟨0, 0, 9, 7⟩, ⟨8, 0, 9, 7⟩, ⟨0, 6, 9, 7⟩, ⟨8, 6, 9, 7⟩] := by
  decide

/-- The four tiles cover their image, and their plan is accepted when it was written and read. -/
theorem planNyc3depSourceTiles_exact_fourTiles :
    ∃ plan source, planNyc3depSourceTiles textSha256 fourTiles = .ok plan ∧ plan.Exact source
      ∧ ∃ read, parse (fun _ => none) (stringify plan.value) = some read
        ∧ verifyNyc3depSourceTilingPlan textSha256 read = .ok plan := by
  obtain ⟨body, hbody, -⟩ := Option.map_eq_some_iff.1 windows_fourTiles
  have hplan : planNyc3depSourceTiles textSha256 fourTiles
      = .ok { body with planSha256 := textSha256 (planPayload body) } :=
    bind_eq_ok.2 ⟨body, eq_ok_of_toOption hbody, rfl⟩
  obtain ⟨⟨source, -, hexact⟩, hread⟩ := planNyc3depSourceTiles_exact hplan
  exact ⟨_, source, hplan, hexact, hread _ _ rfl isLayout_fourTilesSource⟩

end Agid.Tiling
