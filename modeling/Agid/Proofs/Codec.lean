import Agid.Proofs.Hilbert

/-!
# Cells and hashes

Both cores place a cell on the Hilbert curve of order 21 (`encodeHilbert_eq`, `decodeHilbert_eq`).
The packed value is the face over the 42 bits of the place, and its digits are the hash, so cells,
packed values in range and accepted hashes correspond one to one.
-/

namespace Agid

variable (project : ℤ → ℚ → ℚ → LatLon)

/-! ## The cores -/

theorem K_eq : K = 2 ^ 21 := rfl

theorem place_lt {x y : ℕ} (hx : x < K) (hy : y < K) : Hilbert.index 21 (x, y) < 2 ^ 42 :=
  Hilbert.index_lt 21 ⟨hx, hy⟩

theorem encodeHilbertLoop_K {x y : ℕ} (hx : x < K) (hy : y < K) :
    encodeHilbertLoop (K / 2) x y 0 = Hilbert.index 21 (x, y) := by
  have h := encodeHilbertLoop_eq 21 (by omega) x y 0
  have hmod : ∀ z : ℕ, z < K → ((z : ℤ) % 2 ^ 21).toNat = z := by
    intro z hz
    rw [K_eq] at hz
    omega
  rw [hmod x hx, hmod y hy, zero_add] at h
  exact h

theorem decodeHilbertLoop_K {h : ℕ} (hh : h < 2 ^ 42) :
    decodeHilbertLoop K 1 0 0 h
      = (((Hilbert.point 21 h).1 : ℤ), ((Hilbert.point 21 h).2 : ℤ)) := by
  have h4 : h % 4 ^ 21 = h := Nat.mod_eq_of_lt (by omega)
  have h := decodeHilbertLoop_eq 21 h 21 0 rfl
  rw [h4, pow_zero, pow_zero, Nat.div_one] at h
  exact h

theorem minU32_M {x : ℕ} (hx : x < K) : Native.minU32 (toI32 x) Native.M = BitVec.ofNat 32 x := by
  have h1 : (BitVec.ofNat 32 x).toNat = x := by
    rw [BitVec.toNat_ofNat, Nat.mod_eq_of_lt]
    rw [K_eq] at hx
    omega
  have h2 : Native.M.toNat = 2 ^ 21 - 1 := rfl
  rw [K_eq] at hx
  rw [Native.minU32, toI32, BitVec.ofInt_natCast, if_neg]
  rw [BitVec.lt_def, h1, h2]
  omega

theorem native_encodeHilbert {x y : ℕ} (hx : x < K) (hy : y < K) :
    Native.encodeHilbert Native.K (BitVec.ofNat 32 x) (BitVec.ofNat 32 y)
      = BitVec.ofNat 64 (Hilbert.index 21 (x, y)) := by
  have h := native_encodeLoop_eq 21 (by omega) x y 0
  rw [show 2 ^ 21 / 2 = K / 2 from rfl, encodeHilbertLoop_K hx hy, BitVec.ofInt_natCast,
    BitVec.ofInt_natCast, BitVec.ofInt_natCast] at h
  exact h

theorem native_decodeHilbert {h : ℕ} (hh : h < 2 ^ 42) :
    Native.decodeHilbert Native.K (BitVec.ofNat 64 h)
      = (BitVec.ofNat 32 (Hilbert.point 21 h).1, BitVec.ofNat 32 (Hilbert.point 21 h).2) := by
  have h0 := native_decodeLoop_eq (m := 21) (by omega) 21 0 rfl 0 0 h (by omega)
  rw [show decodeHilbertLoop (2 ^ 21) (2 ^ 0) 0 0 h = decodeHilbertLoop K 1 0 0 h from rfl,
    decodeHilbertLoop_K hh, BitVec.ofInt_natCast, BitVec.ofInt_natCast] at h0
  exact h0

theorem toUint32_toInt (v : Native.U32) : toUint32 v.toInt = v.toNat := by
  rw [toUint32, BitVec.ofInt_toInt]

theorem words_or (d : ℕ) : (d / 2 ^ 32) <<< 32 ||| d % 2 ^ 32 = d := by
  rw [← Nat.shiftLeft_add_eq_or_of_lt (Nat.mod_lt d (by omega)), Nat.shiftLeft_eq]
  omega

theorem setWidth_ofNat {x : ℕ} (hx : x < 2 ^ 32) :
    (BitVec.ofNat 32 x).setWidth 64 = BitVec.ofNat 64 x := by
  apply BitVec.eq_of_toNat_eq
  rw [BitVec.toNat_setWidth, BitVec.toNat_ofNat, BitVec.toNat_ofNat, Nat.mod_eq_of_lt hx]

/-- The two words of an index join to it. -/
theorem combineWasmU32Pair_words {d : ℕ} (hd : d < 2 ^ 42) :
    combineWasmU32Pair ((BitVec.ofNat 64 d >>> 32).setWidth 32 : Native.U32).toInt
      ((BitVec.ofNat 64 d &&& 0xFFFFFFFF).setWidth 32 : Native.U32).toInt = d := by
  have hm : (0xFFFFFFFF : Native.U64).toNat = 2 ^ 32 - 1 := rfl
  have h64 : d % 2 ^ 64 = d := Nat.mod_eq_of_lt (by omega)
  have hhi : ((BitVec.ofNat 64 d >>> 32).setWidth 32 : Native.U32).toNat = d / 2 ^ 32 := by
    rw [BitVec.toNat_setWidth, BitVec.toNat_ushiftRight, BitVec.toNat_ofNat, h64,
      Nat.shiftRight_eq_div_pow]
    omega
  have hlo : ((BitVec.ofNat 64 d &&& 0xFFFFFFFF).setWidth 32 : Native.U32).toNat
      = d % 2 ^ 32 := by
    rw [BitVec.toNat_setWidth, BitVec.toNat_and, hm, BitVec.toNat_ofNat, h64,
      Nat.and_two_pow_sub_one_eq_mod]
    omega
  rw [combineWasmU32Pair, toUint32_toInt, toUint32_toInt, hhi, hlo]
  conv_rhs => rw [← words_or d]
  rfl

/-- Either core places a cell on the curve. -/
theorem encodeHilbert_eq (loaded : Bool) {x y : ℕ} (hx : x < K) (hy : y < K) :
    encodeHilbert (getAgidWasmCore project loaded) K x y = Hilbert.index 21 (x, y) := by
  cases loaded
  · exact encodeHilbertLoop_K hx hy
  · simp only [getAgidWasmCore, encodeHilbert, agidCore, if_true, Native.agidEncodeHilbertHi,
      Native.agidEncodeHilbertLo, minU32_M hx, minU32_M hy, native_encodeHilbert hx hy]
    exact combineWasmU32Pair_words (place_lt hx hy)

/-- The two words JavaScript passes join to the index. -/
theorem joinWords_eq {d : ℕ} (hd : d < 2 ^ 42) :
    Native.joinWords (toI32 (Int.land ((d : ℤ) >>> (32 : ℕ)) 0xFFFFFFFF)) (toI32 (Int.land d 0xFFFFFFFF))
      = BitVec.ofNat 64 d := by
  have hhi : Int.land ((d : ℤ) >>> (32 : ℕ)) 0xFFFFFFFF = (d / 2 ^ 32 : ℕ) := by
    have h : Int.land ((d : ℤ) >>> (32 : ℕ)) 0xFFFFFFFF = (d >>> 32 &&& (2 ^ 32 - 1) : ℕ) := rfl
    rw [h, Nat.and_two_pow_sub_one_eq_mod, Nat.shiftRight_eq_div_pow, Nat.mod_eq_of_lt (by omega)]
  have hlo : Int.land (d : ℤ) 0xFFFFFFFF = (d % 2 ^ 32 : ℕ) := by
    have h : Int.land (d : ℤ) 0xFFFFFFFF = (d &&& (2 ^ 32 - 1) : ℕ) := rfl
    rw [h, Nat.and_two_pow_sub_one_eq_mod]
  rw [hhi, hlo, toI32, toI32, BitVec.ofInt_natCast, BitVec.ofInt_natCast, Native.joinWords,
    setWidth_ofNat (by omega), setWidth_ofNat (by omega)]
  apply BitVec.eq_of_toNat_eq
  have h1 : (BitVec.ofNat 64 (d / 2 ^ 32)).toNat = d / 2 ^ 32 := by
    rw [BitVec.toNat_ofNat, Nat.mod_eq_of_lt (by omega)]
  have h2 : (BitVec.ofNat 64 (d % 2 ^ 32)).toNat = d % 2 ^ 32 := by
    rw [BitVec.toNat_ofNat, Nat.mod_eq_of_lt (by omega)]
  have h3 : (d / 2 ^ 32) <<< 32 < 2 ^ 64 := by
    rw [Nat.shiftLeft_eq]
    omega
  rw [BitVec.toNat_or, BitVec.toNat_shiftLeft, h1, h2, Nat.mod_eq_of_lt h3, words_or,
    BitVec.toNat_ofNat, Nat.mod_eq_of_lt (by omega)]

theorem toInt_ofNat {x : ℕ} (hx : x < K) : (BitVec.ofNat 32 x).toInt = x := by
  rw [K_eq] at hx
  rw [BitVec.toInt_eq_toNat_cond, BitVec.toNat_ofNat, Nat.mod_eq_of_lt (by omega), if_pos (by omega)]

/-- Either core reads a place of the curve back as its cell. -/
theorem decodeHilbert_eq (loaded : Bool) {h : ℕ} (hh : h < 2 ^ 42) :
    decodeHilbert (getAgidWasmCore project loaded) K h
      = (((Hilbert.point 21 h).1 : ℤ), ((Hilbert.point 21 h).2 : ℤ)) := by
  obtain ⟨hx, hy⟩ := Hilbert.point_mem 21 (h := h) (by omega)
  cases loaded
  · exact decodeHilbertLoop_K hh
  · simp only [getAgidWasmCore, decodeHilbert, agidCore, if_true, Native.agidDecodeHilbertX,
      Native.agidDecodeHilbertY, joinWords_eq hh, native_decodeHilbert hh, toInt_ofNat hx,
      toInt_ofNat hy]

/-- The native codec and the TypeScript one are the same functions: natively, and as JavaScript
calls the exports and joins their words. -/
theorem native_codec_eq :
    (∀ qx qy : ℕ, qx < 2 ^ 21 → qy < 2 ^ 21 →
      ((Native.encodeHilbert Native.K (toI32 qx) (toI32 qy)).toNat : ℤ) = encodeHilbert none K qx qy
        ∧ encodeHilbert (some (agidCore project)) K qx qy = encodeHilbert none K qx qy)
      ∧ ∀ h : ℕ, h < 2 ^ 42 →
        (((Native.decodeHilbert Native.K (BitVec.ofNat 64 h)).1.toNat : ℤ),
            ((Native.decodeHilbert Native.K (BitVec.ofNat 64 h)).2.toNat : ℤ))
            = decodeHilbert none K h
          ∧ decodeHilbert (some (agidCore project)) K h = decodeHilbert none K h := by
  refine ⟨fun qx qy hx hy => ?_, fun h hh => ?_⟩
  · have hts := encodeHilbert_eq project false hx hy
    have hcore := encodeHilbert_eq project true hx hy
    refine ⟨?_, hcore.trans hts.symm⟩
    rw [toI32, toI32, BitVec.ofInt_natCast, BitVec.ofInt_natCast, native_encodeHilbert hx hy,
      BitVec.toNat_ofNat, Nat.mod_eq_of_lt (by have := place_lt hx hy; omega)]
    exact hts.symm
  · have hts := decodeHilbert_eq project false hh
    have hcore := decodeHilbert_eq project true hh
    obtain ⟨hx, hy⟩ := Hilbert.point_mem 21 (h := h) (by omega)
    refine ⟨?_, hcore.trans hts.symm⟩
    simp only [native_decodeHilbert hh, BitVec.toNat_ofNat]
    rw [Nat.mod_eq_of_lt (by omega), Nat.mod_eq_of_lt (by omega)]
    exact hts.symm

theorem native_codec_eq_corner :
    encodeHilbert (some (agidCore fun _ _ _ => ⟨0, 0⟩)) K (2097151 : ℕ) (0 : ℕ)
        = encodeHilbert none K (2097151 : ℕ) (0 : ℕ)
      ∧ decodeHilbert (some (agidCore fun _ _ _ => ⟨0, 0⟩)) K (4398046511103 : ℕ)
        = decodeHilbert none K (4398046511103 : ℕ) :=
  ⟨((native_codec_eq fun _ _ _ => ⟨0, 0⟩).1 2097151 0 (by decide) (by decide)).2,
    ((native_codec_eq fun _ _ _ => ⟨0, 0⟩).2 4398046511103 (by decide)).2⟩

end Agid
