import Mathlib

/-!
# SHA-256

The hash of the Secure Hash Standard as the standard states it: on a string of bits, which is padded
to blocks of 512, over a schedule of 64 words and as many rounds for each block.  The constants are
bits of the roots of the first primes.
-/

namespace Fips180

abbrev Word := BitVec 32

/-! ## Bits -/

/-- The bits of a word, the most significant first. -/
def bits {n : ℕ} (x : BitVec n) : List Bool := (List.range n).map x.getMsbD

/-- The number that the bits write, the most significant first. -/
def number (m : List Bool) : ℕ := m.foldl (fun n b => 2 * n + b.toNat) 0

/-- The `k`-th word of a string of bits. -/
def word (m : List Bool) (k : ℕ) : Word := BitVec.ofNat 32 (number ((m.drop (32 * k)).take 32))

@[simp] theorem length_bits {n : ℕ} (x : BitVec n) : (bits x).length = n := by
  simp [bits]

theorem foldl_number (m : List Bool) : ∀ n : ℕ,
    m.foldl (fun n b => 2 * n + b.toNat) n = n * 2 ^ m.length + number m := by
  induction m with
  | nil => simp [number]
  | cons b m ih =>
    intro n
    rw [number, List.foldl_cons, List.foldl_cons, ih, ih (2 * 0 + b.toNat), List.length_cons]
    ring

theorem number_cons (b : Bool) (m : List Bool) :
    number (b :: m) = b.toNat * 2 ^ m.length + number m := by
  rw [number, List.foldl_cons, foldl_number, mul_zero, zero_add]

theorem number_append (m m' : List Bool) :
    number (m ++ m') = number m * 2 ^ m'.length + number m' := by
  rw [number, List.foldl_append, foldl_number, ← number]

theorem number_lt : ∀ m : List Bool, number m < 2 ^ m.length
  | [] => by decide
  | b :: m => by
    have ih := number_lt m
    rw [number_cons, List.length_cons, pow_succ]
    have hb := b.toNat_lt
    have hmul : b.toNat * 2 ^ m.length ≤ 1 * 2 ^ m.length := Nat.mul_le_mul_right _ (by omega)
    omega

/-- The bits of a word write its number. -/
theorem number_bits {n : ℕ} (x : BitVec n) : number (bits x) = x.toNat := by
  have upTo : ∀ k ≤ n, number ((List.range k).map x.getMsbD) = x.toNat / 2 ^ (n - k) := by
    intro k hk
    induction k with
    | zero =>
      rw [Nat.sub_zero, Nat.div_eq_of_lt x.isLt]
      rfl
    | succ k ih =>
      have hbit : number [x.getMsbD k] = x.toNat / 2 ^ (n - (k + 1)) % 2 := by
        have hlt : k < n := by omega
        rw [BitVec.getMsbD, decide_eq_true hlt, Bool.true_and, BitVec.getLsbD, Nat.testBit_eq_decide_div_mod_eq,
          show n - 1 - k = n - (k + 1) by omega]
        rcases Nat.mod_two_eq_zero_or_one (x.toNat / 2 ^ (n - (k + 1))) with h | h <;>
          simp [number, h]
      have hhalf : x.toNat / 2 ^ (n - k) = x.toNat / 2 ^ (n - (k + 1)) / 2 := by
        rw [Nat.div_div_eq_div_mul, ← pow_succ, show n - (k + 1) + 1 = n - k by omega]
      rw [List.range_succ, List.map_append, List.map_singleton, number_append, ih (by omega), hbit,
        hhalf, List.length_singleton, pow_one]
      omega
  rw [bits, upTo n le_rfl, Nat.sub_self, pow_zero, Nat.div_one]

/-- Strings of bits that are as long as each other and write the same number are the same. -/
theorem number_injective : ∀ {m m' : List Bool}, m.length = m'.length → number m = number m' → m = m'
  | [], [], _, _ => rfl
  | [], _ :: _, hlength, _ => by cases hlength
  | _ :: _, [], hlength, _ => by cases hlength
  | b :: m, b' :: m', hlength, h => by
    have htail : m.length = m'.length := Nat.succ.inj hlength
    rw [number_cons, number_cons, htail] at h
    have hm := number_lt m
    have hm' := number_lt m'
    rw [htail] at hm
    cases b <;> cases b' <;> simp only [Bool.toNat_false, Bool.toNat_true, zero_mul, one_mul] at h
    · exact congrArg (List.cons _) (number_injective htail (by omega))
    · omega
    · omega
    · exact congrArg (List.cons _) (number_injective htail (by omega))

/-! ## Padding -/

/-- The least number of zeros that leaves 64 bits of the last block. -/
def zeros (length : ℕ) : ℕ := (959 - length % 512) % 512

theorem zeros_spec (length : ℕ) : (length + 1 + zeros length) % 512 = 448 := by
  unfold zeros
  omega

theorem zeros_le {length k : ℕ} (h : (length + 1 + k) % 512 = 448) : zeros length ≤ k := by
  unfold zeros
  omega

def pad (m : List Bool) : List Bool :=
  m ++ true :: (List.replicate (zeros m.length) false ++ bits (BitVec.ofNat 64 m.length))

/-! ## Constants -/

/-- The greatest number whose `k`-th power is at most `n`, if it has no more than so many bits over
those of `x`. -/
def rootFrom (k n : ℕ) : ℕ → ℕ → ℕ
  | x, 0 => x
  | x, b + 1 => rootFrom k n (if (x + 2 ^ b) ^ k ≤ n then x + 2 ^ b else x) b

def root (k n : ℕ) : ℕ := rootFrom k n 0 (Nat.log2 n + 1)

theorem rootFrom_spec {k n : ℕ} : ∀ {b x : ℕ}, x ^ k ≤ n → n < (x + 2 ^ b) ^ k →
    rootFrom k n x b ^ k ≤ n ∧ n < (rootFrom k n x b + 1) ^ k
  | 0, x, hle, hlt => ⟨hle, by simpa [rootFrom] using hlt⟩
  | b + 1, x, hle, hlt => by
    unfold rootFrom
    split_ifs with h
    · refine rootFrom_spec h ?_
      rwa [add_assoc, ← two_mul, ← pow_succ']
    · exact rootFrom_spec hle (by omega)

theorem root_spec {k : ℕ} (hk : k ≠ 0) (n : ℕ) : root k n ^ k ≤ n ∧ n < (root k n + 1) ^ k := by
  refine rootFrom_spec (by simp [hk]) ?_
  calc n < 2 ^ (Nat.log2 n + 1) := Nat.lt_log2_self
    _ ≤ (0 + 2 ^ (Nat.log2 n + 1)) ^ k := by
      rw [zero_add]
      exact Nat.le_self_pow hk _

/-- The first 64 primes. -/
def primes : List ℕ :=
  [2, 3, 5, 7, 11, 13, 17, 19, 23, 29, 31, 37, 41, 43, 47, 53, 59, 61, 67, 71, 73, 79, 83, 89, 97,
    101, 103, 107, 109, 113, 127, 131, 137, 139, 149, 151, 157, 163, 167, 173, 179, 181, 191, 193,
    197, 199, 211, 223, 227, 229, 233, 239, 241, 251, 257, 263, 269, 271, 277, 281, 283, 293, 307,
    311]

/-- The first 32 bits of the fractional part of the `k`-th root of the `t`-th prime. -/
def fractionBits (k t : ℕ) : Word := BitVec.ofNat 32 (root k (primes.getD t 0 * 2 ^ (32 * k)))

def K (t : ℕ) : Word := fractionBits 3 t

/-- The eight words of a hash, and the working variables of the rounds. -/
structure Words where
  a : Word
  b : Word
  c : Word
  d : Word
  e : Word
  f : Word
  g : Word
  h : Word

def initial : Words where
  a := fractionBits 2 0
  b := fractionBits 2 1
  c := fractionBits 2 2
  d := fractionBits 2 3
  e := fractionBits 2 4
  f := fractionBits 2 5
  g := fractionBits 2 6
  h := fractionBits 2 7

/-! ## Functions -/

def ch (x y z : Word) : Word := (x &&& y) ^^^ (~~~x &&& z)

def maj (x y z : Word) : Word := (x &&& y) ^^^ (x &&& z) ^^^ (y &&& z)

def bigSigma0 (x : Word) : Word := x.rotateRight 2 ^^^ x.rotateRight 13 ^^^ x.rotateRight 22

def bigSigma1 (x : Word) : Word := x.rotateRight 6 ^^^ x.rotateRight 11 ^^^ x.rotateRight 25

def smallSigma0 (x : Word) : Word := x.rotateRight 7 ^^^ x.rotateRight 18 ^^^ (x >>> 3)

def smallSigma1 (x : Word) : Word := x.rotateRight 17 ^^^ x.rotateRight 19 ^^^ (x >>> 10)

/-! ## Computation -/

/-- The `t`-th word of the schedule of a block. -/
def schedule (block : ℕ → Word) (t : ℕ) : Word :=
  if t < 16 then block t
  else smallSigma1 (schedule block (t - 2)) + schedule block (t - 7)
    + smallSigma0 (schedule block (t - 15)) + schedule block (t - 16)
termination_by t
decreasing_by all_goals omega

theorem schedule_of_le (block : ℕ → Word) {t : ℕ} (h : 16 ≤ t) :
    schedule block t = smallSigma1 (schedule block (t - 2)) + schedule block (t - 7)
      + smallSigma0 (schedule block (t - 15)) + schedule block (t - 16) := by
  rw [schedule, if_neg (by omega)]

def round (k w : Word) (s : Words) : Words :=
  let t₁ := s.h + bigSigma1 s.e + ch s.e s.f s.g + k + w
  let t₂ := bigSigma0 s.a + maj s.a s.b s.c
  ⟨t₁ + t₂, s.a, s.b, s.c, s.d + t₁, s.e, s.f, s.g⟩

def compress (block : ℕ → Word) (s : Words) : Words :=
  let s' := (List.range 64).foldl (fun s t => round (K t) (schedule block t) s) s
  ⟨s'.a + s.a, s'.b + s.b, s'.c + s.c, s'.d + s.d, s'.e + s.e, s'.f + s.f, s'.g + s.g, s'.h + s.h⟩

/-- The `i`-th block of a padded message. -/
def block (m : List Bool) (i j : ℕ) : Word := word m (16 * i + j)

def sha256 (m : List Bool) : Words :=
  (List.range ((pad m).length / 512)).foldl (fun s i => compress (block (pad m) i) s) initial

def Words.toList (s : Words) : List Word := [s.a, s.b, s.c, s.d, s.e, s.f, s.g, s.h]

def digest (m : List Bool) : List Bool := (sha256 m).toList.flatMap bits

/-- The hexadecimal digits of a string of bits. -/
def hexDigits : List Bool → List ℕ
  | a :: b :: c :: d :: m => number [a, b, c, d] :: hexDigits m
  | _ => []

theorem hexDigits_append : ∀ {m m' : List Bool}, 4 ∣ m.length →
    hexDigits (m ++ m') = hexDigits m ++ hexDigits m'
  | [], _, _ => rfl
  | [_], _, h => by simp at h
  | [_, _], _, h => by simp at h
  | [_, _, _], _, h => by simp at h
  | a :: b :: c :: d :: m, m', h => by
    have hm : 4 ∣ m.length := (Nat.dvd_add_left (dvd_refl 4)).1 h
    rw [List.cons_append, List.cons_append, List.cons_append, List.cons_append, hexDigits,
      hexDigits_append hm, hexDigits, List.cons_append]

theorem lt_of_mem_hexDigits {n : ℕ} : ∀ {m : List Bool}, n ∈ hexDigits m → n < 16
  | a :: b :: c :: d :: m, h => by
    rcases List.mem_cons.1 h with rfl | h
    · exact number_lt [a, b, c, d]
    · exact lt_of_mem_hexDigits h

end Fips180
