import Agid.NativeChecked
import Agid.Proofs.Hilbert

/-!
# Where the native codec panics

The decoder never does: the coordinates it passes to `rot` are below the level's side
(`decodeLoop_isSome`).  The encoder keeps the bit it has read in its coordinates, so that it panics
at the first level whose two bits are 1 and 0 in the order in which it then holds the coordinates;
until then it only swaps them, once for each level whose bits are both clear
(`encodeLoop_isSome`).
-/

namespace Agid.Native.Checked

/-! ## A build with overflow checks computes what a release build does, or panics -/

theorem rot_eq_some {n x y rx ry : U32} {p : U32 × U32} (h : rot n x y rx ry = some p) :
    Native.rot n x y rx ry = p := by
  unfold rot at h
  unfold Native.rot
  split_ifs at h ⊢ with h1 h2
  · simp only [Option.bind_eq_bind, Option.bind_eq_some_iff, sub_eq_some] at h
    obtain ⟨_, ⟨_, rfl⟩, _, ⟨_, rfl⟩, _, ⟨_, rfl⟩, _, ⟨_, rfl⟩, hp⟩ := h
    exact Option.some.inj hp
  · exact Option.some.inj h
  · exact Option.some.inj h

theorem encodeLoop_eq_some (s x y : U32) (d : U64) {r : U64} (h : encodeLoop s x y d = some r) :
    Native.encodeLoop s x y d = r := by
  induction s, x, y, d using encodeLoop.induct with
  | case1 s x y d hs ih =>
    rw [encodeLoop, dif_pos hs] at h
    simp only [Option.bind_eq_bind, Option.bind_eq_some_iff, add_eq_some, mul_eq_some] at h
    obtain ⟨_, ⟨_, rfl⟩, _, ⟨_, rfl⟩, _, ⟨_, rfl⟩, _, ⟨_, rfl⟩, p, hp, h⟩ := h
    rw [Native.encodeLoop, dif_pos hs, ← ih _ _ h]
    simp only [rot_eq_some hp]
  | case2 s x y d hs =>
    rw [encodeLoop, dif_neg hs] at h
    rw [Native.encodeLoop, dif_neg hs]
    exact Option.some.inj h

theorem decodeLoop_eq_some (n s x y : U32) (t : U64) (hn : n.toNat ≤ 2 ^ 31) {p : U32 × U32}
    (h : decodeLoop n s x y t = some p) : Native.decodeLoop n s x y t = p := by
  induction s, x, y, t using decodeLoop.induct (n := n) with
  | case1 s x y t hs ih =>
    rw [decodeLoop, dif_pos hs] at h
    simp only [Option.bind_eq_bind, Option.bind_eq_some_iff, add_eq_some, mul_eq_some] at h
    obtain ⟨q, hq, _, ⟨_, rfl⟩, _, ⟨_, rfl⟩, _, ⟨_, rfl⟩, _, ⟨_, rfl⟩, h⟩ := h
    split at h
    · cases h
    · rename_i s2 h2
      rw [Native.decodeLoop, dif_pos ⟨hs.1, hs.2, hn⟩]
      simp only [rot_eq_some hq]
      rw [← (mul_eq_some.1 h2).2]
      exact ih _ _ _ h2 h
  | case2 s x y t hs =>
    rw [decodeLoop, dif_neg hs] at h
    rw [Native.decodeLoop, dif_neg (fun h => hs ⟨h.1, h.2.1⟩)]
    exact Option.some.inj h

/-! ## The encoder -/

theorem and_pos (x : U32) {k : ℕ} (hk : k < 32) :
    0 < x &&& BitVec.ofNat 32 (2 ^ k) ↔ x.getLsbD k = true := by
  have hs : BitVec.ofNat 32 (2 ^ k) = BitVec.twoPow 32 k := by
    rw [← ofInt_two_pow, BitVec.ofInt_natCast]
  have hp : 0 < BitVec.twoPow 32 k := by
    have h : (2 : ℕ) ^ k < 2 ^ 32 := Nat.pow_lt_pow_right (by omega) hk
    rw [BitVec.lt_def, BitVec.toNat_twoPow, Nat.mod_eq_of_lt h]
    exact Nat.two_pow_pos k
  rw [hs, BitVec.and_twoPow]
  split_ifs with h
  · exact iff_of_true hp h
  · exact iff_of_false (by simp) h

theorem rot_reads (x y : U32) {k : ℕ} (hk : k < 32) :
    rot (BitVec.ofNat 32 (2 ^ k)) x y (if x.getLsbD k then 1 else 0) (if y.getLsbD k then 1 else 0)
      = if y.getLsbD k then some (x, y) else if x.getLsbD k then none else some (y, x) := by
  have hlt : (2 : ℕ) ^ k < 2 ^ 32 := Nat.pow_lt_pow_right (by omega) hk
  have hp := Nat.two_pow_pos k
  unfold rot
  by_cases hy : y.getLsbD k = true
  · simp [hy]
  by_cases hx : x.getLsbD k = true
  · have hle : 2 ^ k ≤ x.toNat := Nat.ge_two_pow_of_testBit hx
    have h1 : (1 : U32).toNat = 1 := rfl
    have hn : (BitVec.ofNat 32 (2 ^ k) - 1).toNat = 2 ^ k - 1 := by
      rw [BitVec.toNat_sub, h1, BitVec.toNat_ofNat, Nat.mod_eq_of_lt hlt]
      omega
    have hs : sub (BitVec.ofNat 32 (2 ^ k) - 1) x = none := by
      unfold sub
      rw [if_neg (by omega)]
    have hs1 : sub (BitVec.ofNat 32 (2 ^ k)) 1 = some (BitVec.ofNat 32 (2 ^ k) - 1) := by
      rw [sub_eq_some, h1, BitVec.toNat_ofNat, Nat.mod_eq_of_lt hlt]
      exact ⟨hp, rfl⟩
    simp only [hx, hy, if_true, Bool.false_eq_true, if_false, Option.bind_eq_bind, hs1, hs,
      Option.bind_some, Option.bind_none]
  · simp [hx, hy]

theorem mul_three (a b : Bool) :
    ∃ m, mul 3 (if a then 1 else 0 : U32) = some m
      ∧ ((m ^^^ (if b then 1 else 0)).setWidth 64 : U64).toNat ≤ 3 := by
  cases a <;> cases b <;> exact ⟨_, rfl, by decide⟩

/-- One level of the encoder: the coordinates stay, are swapped, or are reflected, which panics. -/
theorem encodeLoop_step {k : ℕ} (hk : k < 31) (x y : U32) {d : U64}
    (hd : d.toNat + 4 ^ (k + 1) ≤ 2 ^ 64) :
    ∃ d' : U64, d'.toNat + 4 ^ k ≤ 2 ^ 64 ∧
      encodeLoop (BitVec.ofNat 32 (2 ^ k)) x y d
        = if y.getLsbD k then encodeLoop (BitVec.ofNat 32 (2 ^ k / 2)) x y d'
          else if x.getLsbD k then none
          else encodeLoop (BitVec.ofNat 32 (2 ^ k / 2)) y x d' := by
  have hlt : (2 : ℕ) ^ k < 2 ^ 31 := Nat.pow_lt_pow_right (by omega) hk
  have hN : (BitVec.ofNat 32 (2 ^ k)).toNat = 2 ^ k := by
    rw [BitVec.toNat_ofNat, Nat.mod_eq_of_lt (by omega)]
  have hpos : 0 < BitVec.ofNat 32 (2 ^ k) := by
    rw [BitVec.lt_def, hN]
    exact Nat.two_pow_pos k
  have hdiv : BitVec.ofNat 32 (2 ^ k) / 2 = BitVec.ofNat 32 (2 ^ k / 2) := by
    apply BitVec.eq_of_toNat_eq
    rw [BitVec.toNat_udiv, hN, BitVec.toNat_ofNat, Nat.mod_eq_of_lt (by omega)]
    rfl
  have hw : ((BitVec.ofNat 32 (2 ^ k)).setWidth 64 : U64).toNat = 2 ^ k := by
    rw [BitVec.toNat_setWidth, hN, Nat.mod_eq_of_lt (by omega)]
  have h4 : (2 : ℕ) ^ k * 2 ^ k = 4 ^ k := by
    rw [← mul_pow]
    rfl
  have h4' : (4 : ℕ) ^ (k + 1) = 4 * 4 ^ k := by rw [pow_succ, mul_comm]
  obtain ⟨m, hm, hm3⟩ := mul_three (x.getLsbD k) (y.getLsbD k)
  set area : U64 := (BitVec.ofNat 32 (2 ^ k)).setWidth 64 * (BitVec.ofNat 32 (2 ^ k)).setWidth 64
    with harea
  have hA : area.toNat = 4 ^ k := by
    rw [harea, BitVec.toNat_mul, hw, h4, Nat.mod_eq_of_lt (by omega)]
  have hmul : mul ((BitVec.ofNat 32 (2 ^ k)).setWidth 64 : U64)
      ((BitVec.ofNat 32 (2 ^ k)).setWidth 64) = some area := by
    rw [mul_eq_some, hw, h4]
    exact ⟨by omega, rfl⟩
  set digit : U64 := (m ^^^ (if y.getLsbD k then 1 else 0)).setWidth 64 with hdigit
  have hle : area.toNat * digit.toNat ≤ 4 ^ k * 3 := by
    rw [hA]
    exact Nat.mul_le_mul_left _ hm3
  have hmul' : mul area digit = some (area * digit) := by
    rw [mul_eq_some]
    exact ⟨by omega, rfl⟩
  have hT : (area * digit).toNat = area.toNat * digit.toNat := by
    rw [BitVec.toNat_mul, Nat.mod_eq_of_lt (by omega)]
  have hadd : add d (area * digit) = some (d + area * digit) := by
    rw [add_eq_some, hT]
    exact ⟨by omega, rfl⟩
  refine ⟨d + area * digit, ?_, ?_⟩
  · rw [BitVec.toNat_add, hT, Nat.mod_eq_of_lt (by omega)]
    omega
  · rw [encodeLoop, dif_pos hpos]
    simp only [and_pos _ (show k < 32 by omega), hm, hmul, ← hdigit, hmul', hadd, hdiv,
      rot_reads x y (show k < 32 by omega), Option.bind_eq_bind, Option.bind_some]
    split_ifs <;> rfl

/-- How many of the levels between `i` and `k` have both bits clear. -/
def clearAbove (k : ℕ) (qx qy : U32) (i : ℕ) : ℕ :=
  ((Finset.Ioo i k).filter fun j => qx.getLsbD j = false ∧ qy.getLsbD j = false).card

/-- The pair of bits at level `i` is (1, 0) once swapped for each clear level above it. -/
def ReflectedAt (k : ℕ) (qx qy : U32) (i : ℕ) : Prop :=
  if Even (clearAbove k qx qy i) then qx.getLsbD i = true ∧ qy.getLsbD i = false
  else qx.getLsbD i = false ∧ qy.getLsbD i = true

theorem clearAbove_top (k : ℕ) (x y : U32) : clearAbove (k + 1) x y k = 0 := by
  unfold clearAbove
  rw [Finset.card_eq_zero, Finset.filter_eq_empty_iff]
  intro j hj
  rw [Finset.mem_Ioo] at hj
  omega

theorem clearAbove_comm (k : ℕ) (x y : U32) (i : ℕ) : clearAbove k y x i = clearAbove k x y i := by
  unfold clearAbove
  simp only [and_comm]

theorem clearAbove_succ {k i : ℕ} (hi : i < k) (x y : U32) :
    clearAbove (k + 1) x y i
      = clearAbove k x y i + if x.getLsbD k = false ∧ y.getLsbD k = false then 1 else 0 := by
  have h : Finset.Ioo i (k + 1) = insert k (Finset.Ioo i k) := by
    ext j
    simp only [Finset.mem_Ioo, Finset.mem_insert]
    omega
  unfold clearAbove
  rw [h, Finset.filter_insert]
  split_ifs
  · rw [Finset.card_insert_of_notMem (by simp)]
  · rfl

theorem reflectedAt_top (k : ℕ) (x y : U32) :
    ReflectedAt (k + 1) x y k ↔ x.getLsbD k = true ∧ y.getLsbD k = false := by
  unfold ReflectedAt
  rw [clearAbove_top, if_pos Even.zero]

theorem reflectedAt_swap {k i : ℕ} (hi : i < k) {x y : U32} (hx : x.getLsbD k = false)
    (hy : y.getLsbD k = false) : ReflectedAt (k + 1) x y i ↔ ReflectedAt k y x i := by
  have h : clearAbove (k + 1) x y i = clearAbove k y x i + 1 := by
    rw [clearAbove_succ hi, if_pos ⟨hx, hy⟩, clearAbove_comm]
  unfold ReflectedAt
  rw [h]
  simp only [Nat.even_add_one]
  split_ifs <;> tauto

theorem reflectedAt_keep {k i : ℕ} (hi : i < k) {x y : U32} (hy : y.getLsbD k = true) :
    ReflectedAt (k + 1) x y i ↔ ReflectedAt k x y i := by
  have h : clearAbove (k + 1) x y i = clearAbove k x y i := by
    rw [clearAbove_succ hi, if_neg (by simp [hy]), add_zero]
  unfold ReflectedAt
  rw [h]

theorem forall_lt_succ_iff {p : ℕ → Prop} {k : ℕ} :
    (∀ i < k + 1, p i) ↔ p k ∧ ∀ i < k, p i := Nat.forall_lt_succ_right.trans and_comm

theorem encodeLoop_isSome :
    ∀ (k : ℕ), k ≤ 31 → ∀ (x y : U32) (d : U64), d.toNat + 4 ^ k ≤ 2 ^ 64 →
      ((encodeLoop (BitVec.ofNat 32 (2 ^ k / 2)) x y d).isSome ↔ ∀ i < k, ¬ ReflectedAt k x y i)
  | 0, _, x, y, d, _ => by
    rw [encodeLoop]
    simp
  | k + 1, hk, x, y, d, hd => by
    obtain ⟨d', hd', he⟩ := encodeLoop_step (show k < 31 by omega) x y hd
    rw [show 2 ^ (k + 1) / 2 = 2 ^ k by rw [pow_succ, Nat.mul_div_cancel _ (by omega)], he,
      forall_lt_succ_iff, reflectedAt_top]
    by_cases hy : y.getLsbD k = true
    · rw [if_pos hy, encodeLoop_isSome k (by omega) x y d' hd']
      simp only [hy, Bool.true_eq_false, and_false, not_false_eq_true, true_and]
      exact forall₂_congr fun i hi => not_congr (reflectedAt_keep hi hy).symm
    rw [Bool.not_eq_true] at hy
    by_cases hx : x.getLsbD k = true
    · simp [hx, hy]
    rw [Bool.not_eq_true] at hx
    simp only [hx, hy, Bool.false_eq_true, if_false, false_and, not_false_eq_true, true_and]
    rw [encodeLoop_isSome k (by omega) y x d' hd']
    exact forall₂_congr fun i hi => not_congr (reflectedAt_swap hi hx hy).symm

/-! ## The decoder -/

theorem rot_below {j : ℕ} (hj : j < 32) {x y : U32} (hx : x.toNat < 2 ^ j) (hy : y.toNat < 2 ^ j)
    (rx ry : U32) : ∃ p, rot (BitVec.ofNat 32 (2 ^ j)) x y rx ry = some p
      ∧ p.1.toNat < 2 ^ j ∧ p.2.toNat < 2 ^ j := by
  have hlt : (2 : ℕ) ^ j < 2 ^ 32 := Nat.pow_lt_pow_right (by omega) hj
  have h1 : (1 : U32).toNat = 1 := rfl
  have hN : (BitVec.ofNat 32 (2 ^ j)).toNat = 2 ^ j := by
    rw [BitVec.toNat_ofNat, Nat.mod_eq_of_lt hlt]
  have hn : sub (BitVec.ofNat 32 (2 ^ j)) 1 = some (BitVec.ofNat 32 (2 ^ j) - 1) := by
    rw [sub_eq_some, h1, hN]
    exact ⟨Nat.two_pow_pos j, rfl⟩
  have hn1 : (BitVec.ofNat 32 (2 ^ j) - 1).toNat = 2 ^ j - 1 := by
    rw [BitVec.toNat_sub, h1, hN]
    omega
  have hr : ∀ z : U32, z.toNat < 2 ^ j →
      sub (BitVec.ofNat 32 (2 ^ j) - 1) z = some (BitVec.ofNat 32 (2 ^ j) - 1 - z)
        ∧ (BitVec.ofNat 32 (2 ^ j) - 1 - z).toNat < 2 ^ j := by
    intro z hz
    refine ⟨sub_eq_some.2 ⟨by omega, rfl⟩, ?_⟩
    rw [BitVec.toNat_sub, hn1]
    omega
  unfold rot
  split_ifs
  · simp only [hn, (hr x hx).1, (hr y hy).1, Option.bind_eq_bind, Option.bind_some]
    exact ⟨_, rfl, (hr y hy).2, (hr x hx).2⟩
  · exact ⟨_, rfl, hy, hx⟩
  · exact ⟨_, rfl, hx, hy⟩

theorem bit_le_one (t : U64) : ((t &&& 1).setWidth 32 : U32).toNat ≤ 1 := by
  have h1 : (1 : U64).toNat = 1 := rfl
  rw [BitVec.toNat_setWidth, BitVec.toNat_and, h1, Nat.and_one_is_mod]
  omega

/-- A quadrant's corner and a coordinate within the quadrant. -/
theorem add_quadrant {j : ℕ} (hj : j < 31) {x r : U32} (hx : x.toNat < 2 ^ j) (hr : r.toNat ≤ 1) :
    ∃ c z, mul (BitVec.ofNat 32 (2 ^ j)) r = some c ∧ add x c = some z
      ∧ z.toNat < 2 ^ (j + 1) := by
  have hlt : (2 : ℕ) ^ j < 2 ^ 31 := Nat.pow_lt_pow_right (by omega) hj
  have hN : (BitVec.ofNat 32 (2 ^ j)).toNat = 2 ^ j := by
    rw [BitVec.toNat_ofNat, Nat.mod_eq_of_lt (by omega)]
  have hm : 2 ^ j * r.toNat ≤ 2 ^ j := by
    calc 2 ^ j * r.toNat ≤ 2 ^ j * 1 := Nat.mul_le_mul_left _ hr
      _ = 2 ^ j := mul_one _
  have hc : (BitVec.ofNat 32 (2 ^ j) * r).toNat = 2 ^ j * r.toNat := by
    rw [BitVec.toNat_mul, hN, Nat.mod_eq_of_lt (by omega)]
  refine ⟨_, _, mul_eq_some.2 ⟨?_, rfl⟩, add_eq_some.2 ⟨?_, rfl⟩, ?_⟩
  · rw [hN]
    omega
  · rw [hc]
    omega
  · rw [BitVec.toNat_add, hc, pow_succ]
    omega

theorem decodeLoop_isSome {m : ℕ} (hm : m ≤ 31) :
    ∀ (i j : ℕ), i + j = m → ∀ (x y : U32) (t : U64), x.toNat < 2 ^ j → y.toNat < 2 ^ j →
      (decodeLoop (BitVec.ofNat 32 (2 ^ m)) (BitVec.ofNat 32 (2 ^ j)) x y t).isSome
  | 0, j, h, x, y, t, _, _ => by
    obtain rfl : j = m := by omega
    rw [decodeLoop, dif_neg (by simp)]
    rfl
  | i + 1, j, h, x, y, t, hx, hy => by
    have hlt : (2 : ℕ) ^ j < 2 ^ m := Nat.pow_lt_pow_right (by omega) (by omega)
    have hmle : (2 : ℕ) ^ m ≤ 2 ^ 31 := Nat.pow_le_pow_right (by omega) hm
    have hM : (BitVec.ofNat 32 (2 ^ m)).toNat = 2 ^ m := by
      rw [BitVec.toNat_ofNat, Nat.mod_eq_of_lt (by omega)]
    have hJ : (BitVec.ofNat 32 (2 ^ j)).toNat = 2 ^ j := by
      rw [BitVec.toNat_ofNat, Nat.mod_eq_of_lt (by omega)]
    have hgo : 0 < BitVec.ofNat 32 (2 ^ j) ∧ BitVec.ofNat 32 (2 ^ j) < BitVec.ofNat 32 (2 ^ m) := by
      rw [BitVec.lt_def, BitVec.lt_def, hM, hJ]
      exact ⟨Nat.two_pow_pos j, hlt⟩
    have hs : mul (BitVec.ofNat 32 (2 ^ j)) 2 = some (BitVec.ofNat 32 (2 ^ (j + 1))) := by
      have hd : BitVec.ofNat 32 (2 ^ (j + 1)) = BitVec.ofNat 32 (2 ^ j) * 2 := by
        rw [pow_succ, BitVec.ofNat_mul]
        rfl
      have h2 : (2 : U32).toNat = 2 := rfl
      rw [mul_eq_some, hJ, h2]
      exact ⟨by omega, hd⟩
    rw [decodeLoop, dif_pos hgo]
    obtain ⟨p, hp, hpx, hpy⟩ := rot_below (show j < 32 by omega) hx hy
      ((t / 2 &&& 1).setWidth 32)
      (((t ^^^ ((t / 2 &&& 1).setWidth 32 : U32).setWidth 64) &&& 1).setWidth 32)
    obtain ⟨cx, zx, hcx, hzx, hbx⟩ := add_quadrant (show j < 31 by omega) hpx (bit_le_one (t / 2))
    obtain ⟨cy, zy, hcy, hzy, hby⟩ := add_quadrant (show j < 31 by omega) hpy
      (bit_le_one (t ^^^ ((t / 2 &&& 1).setWidth 32 : U32).setWidth 64))
    simp only [hp, hcx, hzx, hcy, hzy, Option.bind_eq_bind, Option.bind_some]
    split
    · rename_i hn
      rw [hs] at hn
      exact absurd hn (by simp)
    · rename_i s2 hn
      rw [hs] at hn
      obtain rfl := Option.some.inj hn
      exact decodeLoop_isSome hm i (j + 1) (by omega) _ _ _ hbx hby

/-- Where it does not panic, it is the codec that a release build runs. -/
theorem encodeHilbert_eq_some {n x y : U32} {d : U64} (h : encodeHilbert n x y = some d) :
    Native.encodeHilbert n x y = d := encodeLoop_eq_some _ _ _ _ h

theorem decodeHilbert_eq (d : U64) : decodeHilbert K d = some (Native.decodeHilbert K d) := by
  obtain ⟨p, hp⟩ := Option.isSome_iff_exists.1 (decodeLoop_isSome (m := 21) (by omega) 21 0 rfl 0 0
    d (by decide) (by decide))
  exact hp.trans (congrArg some (decodeLoop_eq_some K 1 0 0 d (by decide) hp).symm)

/-- The encoder panics exactly when it reflects, which it does at the first level whose pair of
bits it holds as (1, 0); the decoder never panics. -/
theorem no_panic_iff (qx qy : U32) :
    (encodeHilbert K qx qy ≠ none ↔ ∀ i < 21, ¬ ReflectedAt 21 qx qy i)
      ∧ ∀ d, decodeHilbert K d ≠ none := by
  constructor
  · rw [Option.ne_none_iff_isSome]
    exact encodeLoop_isSome 21 (by omega) qx qy 0 (by decide)
  · intro d
    rw [decodeHilbert_eq]
    exact Option.some_ne_none _

theorem encode_panics : ¬ ∀ qx qy : U32, qx.toNat < 2 ^ 21 → qy.toNat < 2 ^ 21 →
    encodeHilbert K qx qy ≠ none := by
  intro h
  refine h 1048576 0 (by decide) (by decide) ?_
  rw [encodeHilbert, encodeLoop]
  rfl

end Agid.Native.Checked
