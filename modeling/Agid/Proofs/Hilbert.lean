import Agid.Grid
import Agid.Lib.Hilbert

/-!
# The two codecs are the Hilbert curve

At each level the TypeScript loop reads one bit of each coordinate and leaves the bits above it in
place, reflected or not; what the levels below read is the coordinate modulo the level's side, so
the loop is `Hilbert.index` of the coordinates so reduced (`encodeHilbertLoop_eq`).  The decoder
builds the point of the lowest digits first and is `Hilbert.point` (`decodeHilbertLoop_eq`).

The native loops do the same steps on the 32-bit images of the coordinates: the wrapped image of a
reflected coordinate has the bits of the negative number the TypeScript loop holds.
-/

namespace Agid

/-! ## Bits -/

theorem emod_two_pow_succ (x : ℤ) (k : ℕ) :
    x % 2 ^ (k + 1) = x % 2 ^ k + 2 ^ k * (x / 2 ^ k % 2) := by
  have hp : (0 : ℤ) < 2 ^ k := by positivity
  have h2 := Int.emod_nonneg x hp.ne'
  have h3 := Int.emod_lt_of_pos x hp
  have h4 : x / 2 ^ k % 2 = 0 ∨ x / 2 ^ k % 2 = 1 := by omega
  have hx : x = x % 2 ^ k + 2 ^ k * (x / 2 ^ k % 2) + 2 ^ (k + 1) * (x / 2 ^ k / 2) := by
    rw [pow_succ, mul_assoc, add_assoc, ← mul_add, Int.emod_add_mul_ediv, Int.emod_add_mul_ediv]
  conv_lhs => rw [hx]
  rw [Int.add_mul_emod_self_left, pow_succ]
  refine Int.emod_eq_of_lt ?_ ?_ <;> rcases h4 with h4 | h4 <;> rw [h4] <;> omega

theorem rem_toNat_div (x : ℤ) (k : ℕ) :
    (((x % 2 ^ (k + 1)).toNat / 2 ^ k : ℕ) : ℤ) = x / 2 ^ k % 2 := by
  have hp : (0 : ℤ) < 2 ^ k := by positivity
  have h1 : 0 ≤ x % 2 ^ (k + 1) := Int.emod_nonneg _ (by positivity)
  push_cast
  rw [Int.toNat_of_nonneg h1, emod_two_pow_succ, Int.add_mul_ediv_left _ _ hp.ne',
    Int.ediv_eq_zero_of_lt (Int.emod_nonneg x hp.ne') (Int.emod_lt_of_pos x hp), zero_add]

theorem rem_toNat_mod (x : ℤ) {k m : ℕ} (h : k ≤ m) :
    (x % 2 ^ m).toNat % 2 ^ k = (x % 2 ^ k).toNat := by
  have h1 : 0 ≤ x % 2 ^ m := Int.emod_nonneg _ (by positivity)
  have h2 : 0 ≤ x % 2 ^ k := Int.emod_nonneg _ (by positivity)
  zify
  rw [Int.toNat_of_nonneg h1, Int.toNat_of_nonneg h2, Int.emod_emod_of_dvd _ (pow_dvd_pow _ h)]

theorem ofInt_getLsbD (x : ℤ) {w k : ℕ} (hk : k < w) :
    (BitVec.ofInt w x).getLsbD k = decide (x / 2 ^ k % 2 = 1) := by
  have hd := rem_toNat_div x k
  have hm : (x % 2 ^ w).toNat / 2 ^ k % 2 = (x % 2 ^ (k + 1)).toNat / 2 ^ k := by
    rw [← Nat.mod_mul_right_div_self, ← pow_succ, rem_toNat_mod x (by omega)]
  rw [BitVec.getLsbD, BitVec.toNat_ofInt, Nat.testBit_eq_decide_div_mod_eq, decide_eq_decide]
  push_cast
  rw [hm]
  omega

theorem ofInt_two_pow (k : ℕ) : BitVec.ofInt 32 (2 ^ k : ℕ) = BitVec.twoPow 32 k := by
  rw [BitVec.ofInt_natCast]
  apply BitVec.eq_of_toNat_eq
  rw [BitVec.toNat_twoPow, BitVec.toNat_ofNat]

theorem bitAnd_two_pow (x : ℤ) (k : ℕ) :
    bitAnd x (2 ^ k : ℕ)
      = if (BitVec.ofInt 32 x).getLsbD k then (BitVec.twoPow 32 k).toInt else 0 := by
  rw [bitAnd, ofInt_two_pow, BitVec.and_twoPow]
  split <;> simp

theorem twoPow_toInt_pos {k : ℕ} (hk : k < 31) : 0 < (BitVec.twoPow 32 k).toInt := by
  have h : (2 : ℕ) ^ k < 2 ^ 31 := Nat.pow_lt_pow_right (by omega) hk
  have hp : 0 < (2 : ℕ) ^ k := by positivity
  rw [BitVec.toInt_eq_toNat_cond, BitVec.toNat_twoPow, Nat.mod_eq_of_lt (by omega)]
  split <;> omega

/-- What a loop reads of a coordinate at level `k` is its bit `k`. -/
theorem bitAnd_pos (x : ℤ) {k : ℕ} (hk : k < 31) :
    0 < bitAnd x (2 ^ k : ℕ) ↔ x / 2 ^ k % 2 = 1 := by
  rw [bitAnd_two_pow, ofInt_getLsbD x (by omega)]
  simp only [decide_eq_true_eq]
  split_ifs with h
  · simp [h, twoPow_toInt_pos hk]
  · simp [h]

/-! ## The TypeScript encoder -/

/-- The bit a loop reads, as a number. -/
theorem bit_eq (x : ℤ) {k : ℕ} (hk : k < 31) :
    (if 0 < bitAnd x (2 ^ k : ℕ) then 1 else 0) = (x % 2 ^ (k + 1)).toNat / 2 ^ k := by
  have h := rem_toNat_div x k
  simp only [bitAnd_pos x hk]
  split_ifs <;> omega

theorem reflect_mod (x s : ℤ) (hs : 0 < s) :
    ((s - 1 - x) % s).toNat = s.toNat - 1 - (x % s).toNat := by
  have h1 := Int.emod_nonneg x hs.ne'
  have h2 := Int.emod_lt_of_pos x hs
  have h : (s - 1 - x) % s = s - 1 - x % s := by
    rw [Int.sub_emod, ← Int.emod_emod_of_dvd x (dvd_refl s), ← Int.sub_emod,
      Int.emod_emod_of_dvd x (dvd_refl s)]
    exact Int.emod_eq_of_lt (by omega) (by omega)
  omega

/-- `rot` turns the coordinates modulo the side as `Hilbert.turn` does. -/
theorem rot_mod (s : ℕ) (hs : 0 < s) (x y : ℤ) (rx ry : ℕ) :
    (((rot s x y rx ry).1 % s).toNat, ((rot s x y rx ry).2 % s).toNat)
      = Hilbert.turn s rx ry ((x % s).toNat, (y % s).toNat) := by
  have hx := reflect_mod x s (by omega)
  have hy := reflect_mod y s (by omega)
  rw [Int.toNat_natCast] at hx hy
  unfold rot Hilbert.turn
  by_cases h1 : ry = 0 <;> by_cases h2 : rx = 1 <;> simp [h1, h2, hx, hy]

theorem encodeHilbertLoop_eq :
    ∀ (k : ℕ), k ≤ 31 → ∀ x y d : ℤ, encodeHilbertLoop (2 ^ k / 2) x y d
      = d + Hilbert.index k ((x % 2 ^ k).toNat, (y % 2 ^ k).toNat)
  | 0, _, x, y, d => by
    rw [encodeHilbertLoop]
    simp [Hilbert.index]
  | k + 1, hk, x, y, d => by
    have hs : 2 ^ (k + 1) / 2 = 2 ^ k := by rw [pow_succ, Nat.mul_div_cancel _ (by omega)]
    have hp : 0 < 2 ^ k := by positivity
    rw [hs, encodeHilbertLoop, if_pos hp]
    simp only [bit_eq _ (show k < 31 by omega)]
    rw [encodeHilbertLoop_eq k (by omega)]
    have hr := rot_mod (2 ^ k) hp x y ((x % 2 ^ (k + 1)).toNat / 2 ^ k)
      ((y % 2 ^ (k + 1)).toNat / 2 ^ k)
    push_cast at hr ⊢
    rw [hr, Hilbert.index, rem_toNat_mod x (by omega), rem_toNat_mod y (by omega), Hilbert.digit]
    push_cast
    rw [show (4 : ℤ) ^ k = 2 ^ k * 2 ^ k by rw [← mul_pow]; norm_num]
    ring

/-! ## The TypeScript decoder -/

theorem land_one (t : ℕ) : Int.land 1 t = (t % 2 : ℕ) := by
  rw [← Nat.one_and_eq_mod_two]
  rfl

/-- The two bits the decoder takes from the lowest base-4 digit of `t`. -/
theorem decode_col (t : ℕ) : Int.land 1 ((t : ℤ).tdiv 2) = (Hilbert.col (t % 4) : ℤ) := by
  have h : ((t : ℤ).tdiv 2) = (t / 2 : ℕ) := rfl
  rw [h, land_one, Hilbert.col]
  omega

theorem decode_row (t : ℕ) :
    Int.land 1 (Int.xor t (Hilbert.col (t % 4) : ℤ)) = (Hilbert.row (t % 4) : ℤ) := by
  have h : Int.xor t (Hilbert.col (t % 4) : ℤ) = (t ^^^ Hilbert.col (t % 4) : ℕ) := rfl
  rw [h, land_one, Nat.xor_mod_two_eq, Hilbert.col, Hilbert.row]
  omega

theorem rot_natCast {s x y : ℕ} (hx : x < s) (hy : y < s) (rx ry : ℕ) :
    rot s x y rx ry
      = (((Hilbert.turn s rx ry (x, y)).1 : ℤ), ((Hilbert.turn s rx ry (x, y)).2 : ℤ)) := by
  unfold rot Hilbert.turn
  by_cases h1 : ry = 0 <;> by_cases h2 : rx = 1 <;> simp [h1, h2]
  omega

/-- With the `j` lowest digits read, the loop holds their point and the digits left. -/
theorem decodeHilbertLoop_eq (m d : ℕ) :
    ∀ (i j : ℕ), i + j = m →
      decodeHilbertLoop (2 ^ m) (2 ^ j) (Hilbert.point j (d % 4 ^ j)).1
          (Hilbert.point j (d % 4 ^ j)).2 (d / 4 ^ j : ℕ)
        = (((Hilbert.point m (d % 4 ^ m)).1 : ℤ), ((Hilbert.point m (d % 4 ^ m)).2 : ℤ))
  | 0, j, h => by
    obtain rfl : j = m := by omega
    rw [decodeHilbertLoop, if_neg (by omega)]
  | i + 1, j, h => by
    have hlt : 2 ^ j < 2 ^ m := Nat.pow_lt_pow_right (by omega) (by omega)
    have hp : 0 < 2 ^ j := by positivity
    have hr : d % 4 ^ (j + 1) % 4 ^ j = d % 4 ^ j :=
      Nat.mod_mod_of_dvd _ (pow_dvd_pow _ (by omega))
    have hq : d % 4 ^ (j + 1) / 4 ^ j = d / 4 ^ j % 4 := by
      rw [pow_succ, Nat.mod_mul_right_div_self]
    have ht : ((d / 4 ^ j : ℕ) : ℤ).tdiv 4 = (d / 4 ^ (j + 1) : ℕ) := by
      rw [pow_succ, ← Nat.div_div_eq_div_mul]
      rfl
    obtain ⟨hx, hy⟩ := Hilbert.point_mem j (Nat.mod_lt d (by positivity : 0 < 4 ^ j))
    rw [decodeHilbertLoop, if_pos ⟨hp, hlt⟩]
    simp only [decode_col, decode_row, rot_natCast hx hy, ht]
    rw [← decodeHilbertLoop_eq m d i (j + 1) (by omega)]
    simp only [Hilbert.point, hq, hr]
    push_cast
    rw [pow_succ]
    congr 1 <;> ring

/-! ## The native encoder -/

theorem ofInt_and_pos (x : ℤ) {k : ℕ} (hk : k < 31) :
    0 < BitVec.ofInt 32 x &&& BitVec.ofNat 32 (2 ^ k) ↔ 0 < bitAnd x (2 ^ k : ℕ) := by
  have hs : BitVec.ofNat 32 (2 ^ k) = BitVec.twoPow 32 k := by
    rw [← ofInt_two_pow, BitVec.ofInt_natCast]
  have hp : 0 < BitVec.twoPow 32 k := by
    have h : (2 : ℕ) ^ k < 2 ^ 32 := Nat.pow_lt_pow_right (by omega) (by omega)
    rw [BitVec.lt_def, BitVec.toNat_twoPow, Nat.mod_eq_of_lt h]
    exact Nat.two_pow_pos k
  rw [bitAnd_two_pow, hs, BitVec.and_twoPow]
  split_ifs
  · exact iff_of_true hp (twoPow_toInt_pos hk)
  · simp

/-- A reflected coordinate wraps to the image of the number the TypeScript loop holds. -/
theorem ofInt_reflect (s : ℕ) (x : ℤ) :
    BitVec.ofNat 32 s - 1 - BitVec.ofInt 32 x = BitVec.ofInt 32 (s - 1 - x) := by
  rw [Int.sub_eq_add_neg, Int.sub_eq_add_neg, BitVec.ofInt_add, BitVec.ofInt_add, BitVec.ofInt_neg,
    BitVec.ofInt_neg, BitVec.ofInt_natCast, ← BitVec.sub_eq_add_neg, ← BitVec.sub_eq_add_neg]
  rfl

theorem native_rot (s : ℕ) (x y : ℤ) (a b : Prop) [Decidable a] [Decidable b] :
    Native.rot (BitVec.ofNat 32 s) (BitVec.ofInt 32 x) (BitVec.ofInt 32 y)
        (if a then 1 else 0) (if b then 1 else 0)
      = (BitVec.ofInt 32 (rot s x y (if a then 1 else 0 : ℕ) (if b then 1 else 0 : ℕ)).1,
        BitVec.ofInt 32 (rot s x y (if a then 1 else 0 : ℕ) (if b then 1 else 0 : ℕ)).2) := by
  have hx := ofInt_reflect s x
  have hy := ofInt_reflect s y
  unfold Native.rot rot
  by_cases ha : a <;> by_cases hb : b <;> simp [ha, hb, ← hx, ← hy]

theorem native_digit (a b : Prop) [Decidable a] [Decidable b] :
    ((3 * (if a then 1 else 0 : Native.U32)) ^^^ (if b then 1 else 0)).setWidth 64
      = BitVec.ofInt 64 ((3 * (if a then 1 else 0)) ^^^ (if b then 1 else 0) : ℕ) := by
  by_cases ha : a <;> by_cases hb : b <;> simp only [ha, hb, if_true, if_false] <;> decide

/-- The native loop holds the 32-bit images of the TypeScript loop's coordinates. -/
theorem native_encodeLoop_eq :
    ∀ (k : ℕ), k ≤ 31 → ∀ x y d : ℤ,
      Native.encodeLoop (BitVec.ofNat 32 (2 ^ k / 2)) (BitVec.ofInt 32 x) (BitVec.ofInt 32 y)
          (BitVec.ofInt 64 d)
        = BitVec.ofInt 64 (encodeHilbertLoop (2 ^ k / 2) x y d)
  | 0, _, x, y, d => by
    rw [Native.encodeLoop, encodeHilbertLoop]
    simp
  | k + 1, hk, x, y, d => by
    have hs : 2 ^ (k + 1) / 2 = 2 ^ k := by rw [pow_succ, Nat.mul_div_cancel _ (by omega)]
    have hp : 0 < 2 ^ k := by positivity
    have hlt : 2 ^ k < 2 ^ 32 := Nat.pow_lt_pow_right (by omega) (by omega)
    have hN : (BitVec.ofNat 32 (2 ^ k)).toNat = 2 ^ k := by
      rw [BitVec.toNat_ofNat, Nat.mod_eq_of_lt hlt]
    have hpos : 0 < BitVec.ofNat 32 (2 ^ k) := by
      rw [BitVec.lt_def, hN]
      exact hp
    have hw : (BitVec.ofNat 32 (2 ^ k)).setWidth 64 = BitVec.ofInt 64 (2 ^ k : ℕ) := by
      rw [BitVec.ofInt_natCast]
      apply BitVec.eq_of_toNat_eq
      rw [BitVec.toNat_setWidth, hN, BitVec.toNat_ofNat]
    have hd : BitVec.ofNat 32 (2 ^ k) / 2 = BitVec.ofNat 32 (2 ^ k / 2) := by
      apply BitVec.eq_of_toNat_eq
      rw [BitVec.toNat_udiv, hN, BitVec.toNat_ofNat, Nat.mod_eq_of_lt (by omega)]
      rfl
    rw [hs, Native.encodeLoop, encodeHilbertLoop, if_pos hp, dif_pos hpos]
    simp only [ofInt_and_pos _ (show k < 31 by omega), native_rot, native_digit, hw, hd,
      ← BitVec.ofInt_mul, ← BitVec.ofInt_add]
    exact native_encodeLoop_eq k (by omega) _ _ _

/-! ## The native decoder -/

theorem native_bit (t : ℕ) : ((BitVec.ofNat 64 t &&& 1).setWidth 32 : Native.U32)
    = BitVec.ofNat 32 (t % 2) := by
  apply BitVec.eq_of_toNat_eq
  have h1 : (1 : Native.U64).toNat = 1 := rfl
  rw [BitVec.toNat_setWidth, BitVec.toNat_and, h1, Nat.and_one_is_mod, BitVec.toNat_ofNat,
    BitVec.toNat_ofNat]
  omega

theorem native_rot_bits (s : ℕ) (x y : ℤ) {rx ry : ℕ} (hx : rx < 2) (hy : ry < 2) :
    Native.rot (BitVec.ofNat 32 s) (BitVec.ofInt 32 x) (BitVec.ofInt 32 y)
        (BitVec.ofNat 32 rx) (BitVec.ofNat 32 ry)
      = (BitVec.ofInt 32 (rot s x y rx ry).1, BitVec.ofInt 32 (rot s x y rx ry).2) := by
  have h := native_rot s x y (rx = 1) (ry = 1)
  interval_cases rx <;> interval_cases ry <;> exact h

theorem native_decodeLoop_eq {m : ℕ} (hm : m ≤ 31) :
    ∀ (i j : ℕ), i + j = m → ∀ (x y : ℤ) (t : ℕ), t < 2 ^ 64 →
      Native.decodeLoop (BitVec.ofNat 32 (2 ^ m)) (BitVec.ofNat 32 (2 ^ j)) (BitVec.ofInt 32 x)
          (BitVec.ofInt 32 y) (BitVec.ofNat 64 t)
        = (BitVec.ofInt 32 (decodeHilbertLoop (2 ^ m) (2 ^ j) x y t).1,
          BitVec.ofInt 32 (decodeHilbertLoop (2 ^ m) (2 ^ j) x y t).2)
  | 0, j, h, x, y, t, _ => by
    obtain rfl : j = m := by omega
    rw [Native.decodeLoop, decodeHilbertLoop, if_neg (by omega), dif_neg (by simp)]
  | i + 1, j, h, x, y, t, ht => by
    have hlt : 2 ^ j < 2 ^ m := Nat.pow_lt_pow_right (by omega) (by omega)
    have hmle : 2 ^ m ≤ 2 ^ 31 := Nat.pow_le_pow_right (by omega) hm
    have hp : 0 < 2 ^ j := by positivity
    have hM : (BitVec.ofNat 32 (2 ^ m)).toNat = 2 ^ m := by
      rw [BitVec.toNat_ofNat, Nat.mod_eq_of_lt (by omega)]
    have hJ : (BitVec.ofNat 32 (2 ^ j)).toNat = 2 ^ j := by
      rw [BitVec.toNat_ofNat, Nat.mod_eq_of_lt (by omega)]
    have hgo : 0 < BitVec.ofNat 32 (2 ^ j) ∧ BitVec.ofNat 32 (2 ^ j) < BitVec.ofNat 32 (2 ^ m)
        ∧ (BitVec.ofNat 32 (2 ^ m)).toNat ≤ 2 ^ 31 := by
      rw [BitVec.lt_def, BitVec.lt_def, hM, hJ]
      exact ⟨hp, hlt, hmle⟩
    have hs : BitVec.ofNat 32 (2 ^ j) * 2 = BitVec.ofNat 32 (2 ^ (j + 1)) := by
      rw [pow_succ, BitVec.ofNat_mul]
      rfl
    have hdiv : ∀ c : ℕ, c < 2 ^ 64 →
        BitVec.ofNat 64 t / BitVec.ofNat 64 c = BitVec.ofNat 64 (t / c) := by
      intro c hc
      have := Nat.div_le_self t c
      apply BitVec.eq_of_toNat_eq
      rw [BitVec.toNat_udiv, BitVec.toNat_ofNat, BitVec.toNat_ofNat, BitVec.toNat_ofNat,
        Nat.mod_eq_of_lt ht, Nat.mod_eq_of_lt hc, Nat.mod_eq_of_lt (by omega)]
    have hrx : (BitVec.ofNat 64 t / 2 &&& 1).setWidth 32
        = BitVec.ofNat 32 (Hilbert.col (t % 4)) := by
      rw [show (2 : Native.U64) = BitVec.ofNat 64 2 from rfl, hdiv 2 (by omega), native_bit,
        Hilbert.col]
      congr 1
      omega
    have hcol : Hilbert.col (t % 4) < 2 := Hilbert.col_lt (Nat.mod_lt _ (by omega))
    have hry : ((BitVec.ofNat 64 t ^^^ (BitVec.ofNat 32 (Hilbert.col (t % 4))).setWidth 64)
        &&& 1).setWidth 32 = BitVec.ofNat 32 (Hilbert.row (t % 4)) := by
      have hw : (BitVec.ofNat 32 (Hilbert.col (t % 4))).setWidth 64
          = BitVec.ofNat 64 (Hilbert.col (t % 4)) := by
        generalize Hilbert.col (t % 4) = c at hcol
        interval_cases c <;> rfl
      have hx : BitVec.ofNat 64 t ^^^ BitVec.ofNat 64 (Hilbert.col (t % 4))
          = BitVec.ofNat 64 (t ^^^ Hilbert.col (t % 4)) := by
        apply BitVec.eq_of_toNat_eq
        rw [BitVec.toNat_xor, BitVec.toNat_ofNat, BitVec.toNat_ofNat, BitVec.toNat_ofNat,
          Nat.xor_mod_two_pow]
      rw [hw, hx, native_bit, Nat.xor_mod_two_eq, Hilbert.col, Hilbert.row]
      congr 1
      omega
    rw [Native.decodeLoop, decodeHilbertLoop, if_pos ⟨hp, hlt⟩, dif_pos hgo]
    simp only [hrx, hry, decode_col, decode_row, native_rot_bits _ _ _ hcol (Hilbert.row_lt _),
      hs, show (4 : Native.U64) = BitVec.ofNat 64 4 from rfl, hdiv 4 (by omega)]
    have ih := native_decodeLoop_eq hm i (j + 1) (by omega)
      ((rot (2 ^ j : ℕ) x y (Hilbert.col (t % 4)) (Hilbert.row (t % 4))).1
        + (2 ^ j : ℕ) * (Hilbert.col (t % 4)))
      ((rot (2 ^ j : ℕ) x y (Hilbert.col (t % 4)) (Hilbert.row (t % 4))).2
        + (2 ^ j : ℕ) * (Hilbert.row (t % 4))) (t / 4) (by omega)
    rw [BitVec.ofInt_add, BitVec.ofInt_mul, BitVec.ofInt_add, BitVec.ofInt_mul,
      BitVec.ofInt_natCast, BitVec.ofInt_natCast, BitVec.ofInt_natCast] at ih
    rw [ih, pow_succ]
    rfl

end Agid
