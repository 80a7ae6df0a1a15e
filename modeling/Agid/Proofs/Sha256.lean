import Agid.Sha256
import Agid.Lib.Fips180

/-!
# The hash is SHA-256

Each number that the code keeps is a word of the standard, and each expression that ends in `>>> 0`
the word that the standard computes: its sums are too small to be rounded, and what the operators make
of a sign is lost again in the 32 bits.  The bytes that are pushed to a message are the bits it is
padded with.
-/

namespace Agid.Sha256

open Fips180 (Word Words)

/-! ## Words as numbers -/

theorem nearestNumber_of_lt {z : ℤ} (h : z.natAbs < 2 ^ 53) : nearestNumber z = z := by
  have hulp : Nat.log2 z.natAbs - 52 = 0 := by
    rcases eq_or_ne z.natAbs 0 with h0 | h0
    · simp [h0]
    · have hlog := (Nat.log2_lt h0).2 h
      omega
  simp [nearestNumber, hulp]

/-- A word as a number that is not negative. -/
def num (v : Word) : ℤ := v.toNat

theorem num_nonneg (v : Word) : 0 ≤ num v := Int.natCast_nonneg _

theorem num_lt (v : Word) : num v < 2 ^ 32 := by
  have := v.isLt
  unfold num
  omega

@[simp] theorem ofInt_num (v : Word) : BitVec.ofInt 32 (num v) = v := by
  simp [num]

theorem shiftRight_eq (x : ℤ) (n : ℕ) : shiftRight x n = num (BitVec.ofInt 32 x >>> (n % 32)) := rfl

theorem shiftRight_zero (x : ℤ) : shiftRight x 0 = num (BitVec.ofInt 32 x) := by
  simp [shiftRight_eq]

@[simp] theorem ofInt_shiftRight (x : ℤ) (n : ℕ) :
    BitVec.ofInt 32 (shiftRight x n) = BitVec.ofInt 32 x >>> (n % 32) := by
  rw [shiftRight_eq, ofInt_num]

@[simp] theorem ofInt_shiftLeft (x : ℤ) (n : ℕ) :
    BitVec.ofInt 32 (shiftLeft x n) = BitVec.ofInt 32 x <<< (n % 32) := BitVec.ofInt_toInt

@[simp] theorem ofInt_bitOr (x y : ℤ) :
    BitVec.ofInt 32 (bitOr x y) = BitVec.ofInt 32 x ||| BitVec.ofInt 32 y := BitVec.ofInt_toInt

@[simp] theorem ofInt_bitXor (x y : ℤ) :
    BitVec.ofInt 32 (bitXor x y) = BitVec.ofInt 32 x ^^^ BitVec.ofInt 32 y := BitVec.ofInt_toInt

@[simp] theorem ofInt_bitAnd (x y : ℤ) :
    BitVec.ofInt 32 (bitAnd x y) = BitVec.ofInt 32 x &&& BitVec.ofInt 32 y := BitVec.ofInt_toInt

@[simp] theorem ofInt_bitNot (x : ℤ) :
    BitVec.ofInt 32 (bitNot x) = ~~~BitVec.ofInt 32 x := BitVec.ofInt_toInt

theorem ofInt_rotr (x : ℤ) {n : ℕ} (h0 : 0 < n) (h : n < 32) :
    BitVec.ofInt 32 (rotr x n) = (BitVec.ofInt 32 x).rotateRight n := by
  rw [rotr, ofInt_bitOr, ofInt_shiftRight, ofInt_shiftLeft, BitVec.rotateRight_def,
    Nat.mod_eq_of_lt h, Nat.mod_eq_of_lt (by omega)]

/-- A sum that is not too large for a double. -/
theorem plus_num {x : ℤ} (h0 : 0 ≤ x) (h : x < 2 ^ 52) (v : Word) : plus x (num v) = x + num v := by
  have := num_nonneg v
  have := num_lt v
  exact nearestNumber_of_lt (by omega)

theorem shiftRight_plus (u v : Word) : shiftRight (plus (num u) (num v)) 0 = num (u + v) := by
  have := num_nonneg u
  have := num_lt u
  rw [plus_num (by omega) (by omega), shiftRight_zero, BitVec.ofInt_add, ofInt_num, ofInt_num]

theorem shiftRight_plus₄ (u v v' v'' : Word) :
    shiftRight (plus (plus (plus (num u) (num v)) (num v')) (num v'')) 0
      = num (u + v + v' + v'') := by
  have := num_nonneg u
  have := num_nonneg v
  have := num_nonneg v'
  have := num_lt u
  have := num_lt v
  have := num_lt v'
  rw [plus_num (x := num u) (by omega) (by omega),
    plus_num (x := num u + num v) (by omega) (by omega),
    plus_num (x := num u + num v + num v') (by omega) (by omega), shiftRight_zero]
  simp only [BitVec.ofInt_add, ofInt_num]

theorem shiftRight_plus₅ (u v v' v'' v''' : Word) :
    shiftRight (plus (plus (plus (plus (num u) (num v)) (num v')) (num v'')) (num v''')) 0
      = num (u + v + v' + v'' + v''') := by
  have := num_nonneg u
  have := num_nonneg v
  have := num_nonneg v'
  have := num_nonneg v''
  have := num_lt u
  have := num_lt v
  have := num_lt v'
  have := num_lt v''
  rw [plus_num (x := num u) (by omega) (by omega),
    plus_num (x := num u + num v) (by omega) (by omega),
    plus_num (x := num u + num v + num v') (by omega) (by omega),
    plus_num (x := num u + num v + num v' + num v'') (by omega) (by omega), shiftRight_zero]
  simp only [BitVec.ofInt_add, ofInt_num]

/-! ## Rounds -/

def ofWords (s : Words) : State where
  a := num s.a
  b := num s.b
  c := num s.c
  d := num s.d
  e := num s.e
  f := num s.f
  g := num s.g
  hh := num s.h

theorem initial_eq : initial = ofWords Fips180.initial := by
  simp only [initial, ofWords, Fips180.initial, State.mk.injEq]
  decide +kernel

theorem K_eq : ∀ i < 64, K.getD i 0 = num (Fips180.K i) := by
  decide +kernel

theorem sigma_eq (v : Word) {i j k : ℕ} (hi : 0 < i ∧ i < 32) (hj : 0 < j ∧ j < 32)
    (hk : 0 < k ∧ k < 32) :
    shiftRight (bitXor (bitXor (rotr (num v) i) (rotr (num v) j)) (rotr (num v) k)) 0
      = num (v.rotateRight i ^^^ v.rotateRight j ^^^ v.rotateRight k) := by
  rw [shiftRight_zero, ofInt_bitXor, ofInt_bitXor, ofInt_rotr _ hi.1 hi.2, ofInt_rotr _ hj.1 hj.2,
    ofInt_rotr _ hk.1 hk.2, ofInt_num]

theorem shiftSigma_eq (v : Word) {i j k : ℕ} (hi : 0 < i ∧ i < 32) (hj : 0 < j ∧ j < 32)
    (hk : k < 32) :
    shiftRight (bitXor (bitXor (rotr (num v) i) (rotr (num v) j)) (shiftRight (num v) k)) 0
      = num (v.rotateRight i ^^^ v.rotateRight j ^^^ v >>> k) := by
  rw [shiftRight_zero, ofInt_bitXor, ofInt_bitXor, ofInt_rotr _ hi.1 hi.2, ofInt_rotr _ hj.1 hj.2,
    ofInt_shiftRight, ofInt_num, Nat.mod_eq_of_lt hk]

theorem bigSigma0_eq (v : Word) :
    shiftRight (bitXor (bitXor (rotr (num v) 2) (rotr (num v) 13)) (rotr (num v) 22)) 0
      = num (Fips180.bigSigma0 v) :=
  sigma_eq v (by decide) (by decide) (by decide)

theorem bigSigma1_eq (v : Word) :
    shiftRight (bitXor (bitXor (rotr (num v) 6) (rotr (num v) 11)) (rotr (num v) 25)) 0
      = num (Fips180.bigSigma1 v) :=
  sigma_eq v (by decide) (by decide) (by decide)

theorem smallSigma0_eq (v : Word) :
    shiftRight (bitXor (bitXor (rotr (num v) 7) (rotr (num v) 18)) (shiftRight (num v) 3)) 0
      = num (Fips180.smallSigma0 v) :=
  shiftSigma_eq v (by decide) (by decide) (by decide)

theorem smallSigma1_eq (v : Word) :
    shiftRight (bitXor (bitXor (rotr (num v) 17) (rotr (num v) 19)) (shiftRight (num v) 10)) 0
      = num (Fips180.smallSigma1 v) :=
  shiftSigma_eq v (by decide) (by decide) (by decide)

theorem ch_eq (x y z : Word) :
    shiftRight (bitXor (bitAnd (num x) (num y)) (bitAnd (bitNot (num x)) (num z))) 0
      = num (Fips180.ch x y z) := by
  simp only [shiftRight_zero, ofInt_bitXor, ofInt_bitAnd, ofInt_bitNot, ofInt_num, Fips180.ch]

theorem maj_eq (x y z : Word) :
    shiftRight (bitXor (bitXor (bitAnd (num x) (num y)) (bitAnd (num x) (num z)))
      (bitAnd (num y) (num z))) 0 = num (Fips180.maj x y z) := by
  simp only [shiftRight_zero, ofInt_bitXor, ofInt_bitAnd, ofInt_num, Fips180.maj]

theorem round_eq (k w : Word) (s : Words) :
    round (num k) (num w) (ofWords s) = ofWords (Fips180.round k w s) := by
  simp only [round, ofWords, Fips180.round, bigSigma0_eq, bigSigma1_eq, ch_eq, maj_eq,
    shiftRight_plus, shiftRight_plus₅]

/-! ## Blocks -/

theorem extended_eq {w : List ℤ} {i : ℕ} {x₁ x₂ x₃ x₄ : Word} (h₁ : w.getD (i - 16) 0 = num x₁)
    (h₂ : w.getD (i - 15) 0 = num x₂) (h₃ : w.getD (i - 7) 0 = num x₃)
    (h₄ : w.getD (i - 2) 0 = num x₄) :
    extended w i = num (Fips180.smallSigma1 x₄ + x₃ + Fips180.smallSigma0 x₂ + x₁) := by
  simp only [extended, h₁, h₂, h₃, h₄, smallSigma0_eq, smallSigma1_eq, shiftRight_plus₄]
  refine congrArg num ?_
  ac_rfl

/-- A list that is extended by what the words before give holds the schedule. -/
theorem foldl_extend_eq {extend : List ℤ → ℕ → ℤ}
    (hextend : ∀ {w : List ℤ} {i : ℕ} {x₁ x₂ x₃ x₄ : Word}, w.getD (i - 16) 0 = num x₁ →
      w.getD (i - 15) 0 = num x₂ → w.getD (i - 7) 0 = num x₃ → w.getD (i - 2) 0 = num x₄ →
      extend w i = num (Fips180.smallSigma1 x₄ + x₃ + Fips180.smallSigma0 x₂ + x₁))
    {first : ℕ → ℤ} {M : ℕ → Word} (hM : ∀ i < 16, first i = num (M i)) :
    (List.range' 16 48).foldl (fun w i => w ++ [extend w i]) ((List.range 16).map first)
      = (List.range 64).map fun t => num (Fips180.schedule M t) := by
  have upTo : ∀ n, (List.range' 16 n).foldl (fun w i => w ++ [extend w i])
      ((List.range 16).map first)
        = (List.range (16 + n)).map fun t => num (Fips180.schedule M t) := by
    intro n
    induction n with
    | zero =>
      refine List.map_congr_left fun i hi => ?_
      have hi := List.mem_range.1 hi
      rw [hM i hi, Fips180.schedule, if_pos hi]
    | succ n ih =>
      have entry {i : ℕ} (hi : i < 16 + n) :
          ((List.range (16 + n)).map fun t => num (Fips180.schedule M t)).getD i 0
            = num (Fips180.schedule M i) := by
        simp [List.getD_eq_getElem?_getD, hi]
      rw [List.range'_concat, List.foldl_append, ih, Nat.one_mul, List.foldl_cons, List.foldl_nil,
        hextend (entry (by omega)) (entry (by omega)) (entry (by omega)) (entry (by omega)),
        ← add_assoc, List.range_succ, List.map_append, List.map_singleton,
        Fips180.schedule_of_le M (t := 16 + n) (by omega)]
  exact upTo 48

/-- The words that are in the list are those of the schedule. -/
theorem words_eq {bytes : List ℤ} {offset : ℕ} {M : ℕ → Word}
    (hM : ∀ i < 16, loaded bytes offset i = num (M i)) :
    words bytes offset = (List.range 64).map fun t => num (Fips180.schedule M t) :=
  foldl_extend_eq extended_eq hM

/-- Steps that do what a round does do what the rounds do. -/
theorem foldl_round_eq {step : ℤ → ℤ → State → State}
    (hstep : ∀ (k w : Word) (s : Words),
      step (num k) (num w) (ofWords s) = ofWords (Fips180.round k w s))
    {constants w : List ℤ} {M : ℕ → Word} : ∀ {l : List ℕ} {s : Words},
    (∀ i ∈ l, constants.getD i 0 = num (Fips180.K i)
      ∧ w.getD i 0 = num (Fips180.schedule M i)) →
    l.foldl (fun s i => step (constants.getD i 0) (w.getD i 0) s) (ofWords s)
      = ofWords (l.foldl (fun s t => Fips180.round (Fips180.K t) (Fips180.schedule M t) s) s)
  | [], _, _ => rfl
  | i :: l, s, h => by
    obtain ⟨hk, hw⟩ := h i List.mem_cons_self
    rw [List.foldl_cons, List.foldl_cons, hk, hw, hstep]
    exact foldl_round_eq hstep fun j hj => h j (List.mem_cons_of_mem i hj)

/-- Steps that do what a block does do what the blocks do. -/
theorem foldl_block_eq {step : ℕ → State → State} {m : List Bool} : ∀ {l : List ℕ} {s : Words},
    (∀ i ∈ l, ∀ s : Words,
      step i (ofWords s) = ofWords (Fips180.compress (Fips180.block m i) s)) →
    l.foldl (fun h i => step i h) (ofWords s)
      = ofWords (l.foldl (fun s i => Fips180.compress (Fips180.block m i) s) s)
  | [], _, _ => rfl
  | i :: l, s, h => by
    rw [List.foldl_cons, List.foldl_cons, h i List.mem_cons_self s]
    exact foldl_block_eq fun j hj => h j (List.mem_cons_of_mem i hj)

theorem block_eq {bytes : List ℤ} {offset : ℕ} {M : ℕ → Word} (s : Words)
    (hM : ∀ i < 16, loaded bytes offset i = num (M i)) :
    block bytes offset (ofWords s) = ofWords (Fips180.compress M s) := by
  have hrounds := foldl_round_eq round_eq (M := M) (w := words bytes offset) (l := List.range 64)
    (s := s) fun i hi => ⟨K_eq i (List.mem_range.1 hi), by
      rw [words_eq hM]
      simp [List.getD_eq_getElem?_getD, List.mem_range.1 hi]⟩
  simp only [block, hrounds, Fips180.compress]
  simp only [ofWords, shiftRight_plus, add_comm]

/-! ## Bytes as bits -/

/-- The bits of a message of bytes. -/
def bitsOf (bytes : List UInt8) : List Bool := bytes.flatMap fun b => Fips180.bits b.toBitVec

theorem length_bitsOf : ∀ bytes : List UInt8, (bitsOf bytes).length = 8 * bytes.length
  | [] => rfl
  | b :: bytes => by
    rw [bitsOf, List.flatMap_cons, List.length_append, Fips180.length_bits, ← bitsOf,
      length_bitsOf bytes, List.length_cons]
    omega

theorem bitsOf_append (bytes bytes' : List UInt8) :
    bitsOf (bytes ++ bytes') = bitsOf bytes ++ bitsOf bytes' := List.flatMap_append

theorem drop_bitsOf (n : ℕ) (bytes : List UInt8) :
    (bitsOf bytes).drop (8 * n) = bitsOf (bytes.drop n) := by
  rcases Nat.lt_or_ge n bytes.length with h | h
  · conv_lhs => rw [← List.take_append_drop n bytes, bitsOf_append]
    refine List.drop_left' ?_
    rw [length_bitsOf, List.length_take, min_eq_left h.le]
  · rw [List.drop_eq_nil_of_le (by rw [length_bitsOf]; omega), List.drop_eq_nil_of_le h]
    rfl

theorem take_bitsOf (n : ℕ) (bytes : List UInt8) :
    (bitsOf bytes).take (8 * n) = bitsOf (bytes.take n) := by
  rcases Nat.lt_or_ge n bytes.length with h | h
  · conv_lhs => rw [← List.take_append_drop n bytes, bitsOf_append]
    refine List.take_left' ?_
    rw [length_bitsOf, List.length_take, min_eq_left h.le]
  · rw [List.take_of_length_le (by rw [length_bitsOf]; omega), List.take_of_length_le h]

/-- A word of a message of bytes is that of four of them. -/
theorem word_bitsOf {bytes : List UInt8} {k : ℕ} {b₀ b₁ b₂ b₃ : UInt8}
    (h : (bytes.drop (4 * k)).take 4 = [b₀, b₁, b₂, b₃]) :
    Fips180.word (bitsOf bytes) k
      = BitVec.ofNat 32 (((b₀.toNat * 256 + b₁.toNat) * 256 + b₂.toNat) * 256 + b₃.toNat) := by
  have hdrop : (bitsOf bytes).drop (32 * k) = bitsOf (bytes.drop (4 * k)) := by
    rw [← drop_bitsOf]
    congr 1
    omega
  have htake : ((bitsOf bytes).drop (32 * k)).take 32 = bitsOf [b₀, b₁, b₂, b₃] := by
    rw [hdrop, ← h, ← take_bitsOf]
  rw [Fips180.word, htake]
  simp only [bitsOf, List.flatMap_cons, List.flatMap_nil, List.append_nil, Fips180.number_append,
    Fips180.number_bits, Fips180.length_bits, List.length_append]
  refine congrArg (BitVec.ofNat 32) ?_
  simp only [UInt8.toNat_toBitVec]
  ring

/-! ## Loading -/

/-- The number of a byte, as the code has it. -/
def asNumber (b : UInt8) : ℤ := b.toNat

theorem getD_map_asNumber {bytes : List UInt8} {j : ℕ} {b : UInt8} (h : bytes[j]? = some b) :
    (bytes.map asNumber).getD j 0 = asNumber b := by
  rw [List.getD_eq_getElem?_getD, List.getElem?_map, h]
  rfl

theorem or_byte {a i b : ℕ} (h : b < 2 ^ i) : a * 2 ^ i ||| b = a * 2 ^ i + b := by
  rw [mul_comm, Nat.two_pow_add_eq_or_of_lt h]

/-- Four bytes that are loaded are the word they write. -/
theorem loaded_bytes (b₀ b₁ b₂ b₃ : UInt8) :
    BitVec.ofInt 32 (asNumber b₀) <<< 24 ||| BitVec.ofInt 32 (asNumber b₁) <<< 16
        ||| BitVec.ofInt 32 (asNumber b₂) <<< 8 ||| BitVec.ofInt 32 (asNumber b₃)
      = BitVec.ofNat 32 (((b₀.toNat * 256 + b₁.toNat) * 256 + b₂.toNat) * 256 + b₃.toNat) := by
  have h₀ := b₀.toNat_lt
  have h₁ := b₁.toNat_lt
  have h₂ := b₂.toNat_lt
  have h₃ := b₃.toNat_lt
  apply BitVec.eq_of_toNat_eq
  simp only [asNumber, BitVec.ofInt_natCast, BitVec.toNat_or, BitVec.toNat_shiftLeft,
    BitVec.toNat_ofNat, Nat.shiftLeft_eq]
  rw [Nat.mod_eq_of_lt (a := b₀.toNat) (by omega), Nat.mod_eq_of_lt (a := b₁.toNat) (by omega),
    Nat.mod_eq_of_lt (a := b₂.toNat) (by omega), Nat.mod_eq_of_lt (a := b₃.toNat) (by omega),
    Nat.mod_eq_of_lt (a := b₀.toNat * 2 ^ 24) (by omega),
    Nat.mod_eq_of_lt (a := b₁.toNat * 2 ^ 16) (by omega),
    Nat.mod_eq_of_lt (a := b₂.toNat * 2 ^ 8) (by omega)]
  have two : b₀.toNat * 2 ^ 24 ||| b₁.toNat * 2 ^ 16 = (b₀.toNat * 256 + b₁.toNat) * 2 ^ 16 :=
    (or_byte (i := 24) (by omega)).trans (by ring)
  have three : (b₀.toNat * 256 + b₁.toNat) * 2 ^ 16 ||| b₂.toNat * 2 ^ 8
      = ((b₀.toNat * 256 + b₁.toNat) * 256 + b₂.toNat) * 2 ^ 8 :=
    (or_byte (i := 16) (by omega)).trans (by ring)
  rw [two, three, or_byte (i := 8) (by omega), Nat.mod_eq_of_lt (by omega)]
  rfl

theorem loaded_eq {bytes : List UInt8} {offset i : ℕ} (h : offset + i * 4 + 4 ≤ bytes.length)
    (ho : 4 ∣ offset) :
    loaded (bytes.map asNumber) offset i
      = num (Fips180.word (bitsOf bytes) (offset / 4 + i)) := by
  obtain ⟨k, rfl⟩ := ho
  rw [Nat.mul_div_cancel_left k (by decide)]
  have hj : 4 * (k + i) + 4 ≤ bytes.length := by omega
  have htake : (bytes.drop (4 * (k + i))).take 4
      = [bytes[4 * (k + i)], bytes[4 * (k + i) + 1], bytes[4 * (k + i) + 2],
        bytes[4 * (k + i) + 3]] := by
    rw [List.drop_eq_getElem_cons (by omega), List.drop_eq_getElem_cons (by omega),
      List.drop_eq_getElem_cons (by omega), List.drop_eq_getElem_cons (by omega)]
    rfl
  have hoff : 4 * k + i * 4 = 4 * (k + i) := by ring
  rw [word_bitsOf htake, ← loaded_bytes, loaded]
  simp only [hoff, shiftRight_zero, ofInt_bitOr, ofInt_shiftLeft]
  rw [getD_map_asNumber (List.getElem?_eq_getElem (by omega)),
    getD_map_asNumber (List.getElem?_eq_getElem (by omega)),
    getD_map_asNumber (List.getElem?_eq_getElem (by omega)),
    getD_map_asNumber (List.getElem?_eq_getElem (by omega))]

theorem hash_eq {bytes : List UInt8} (h : bytes.length % 64 = 0) {n : ℕ}
    (hn : 64 * n = bytes.length) :
    hash (bytes.map asNumber)
      = ofWords ((List.range n).foldl
        (fun s i => Fips180.compress (Fips180.block (bitsOf bytes) i) s) Fips180.initial) := by
  rw [hash, List.length_map, ← hn, show (64 * n + 63) / 64 = n by omega, initial_eq]
  refine foldl_block_eq fun i hi s => block_eq s fun j hj => ?_
  have hi := List.mem_range.1 hi
  rw [loaded_eq (by omega) ⟨16 * i, by omega⟩, Fips180.block, show 64 * i / 4 = 16 * i by omega]

/-! ## Padding -/

theorem pushZeros_eq (bytes : List ℤ) :
    pushZeros bytes = bytes ++ List.replicate ((120 - bytes.length % 64) % 64) 0 := by
  fun_induction pushZeros bytes with
  | case1 bytes h ih =>
    rw [ih, List.append_assoc, List.length_append, List.length_singleton, List.singleton_append,
      ← List.replicate_succ]
    congr 2
    omega
  | case2 bytes h =>
    have hzero : (120 - bytes.length % 64) % 64 = 0 := by omega
    rw [hzero, List.replicate_zero, List.append_nil]

/-- The bytes of a word. -/
def bytesOf (v : Word) : List UInt8 :=
  [.ofNat (v.toNat / 2 ^ 24), .ofNat (v.toNat / 2 ^ 16), .ofNat (v.toNat / 2 ^ 8), .ofNat v.toNat]

theorem bitAnd_255 (x : ℤ) : bitAnd x 0xff = asNumber (.ofNat (BitVec.ofInt 32 x).toNat) := by
  have hlt : (BitVec.ofInt 32 x &&& BitVec.ofInt 32 0xff).toNat < 256 := by
    rw [BitVec.toNat_and]
    exact lt_of_le_of_lt Nat.and_le_right (by decide)
  rw [bitAnd, BitVec.toInt_eq_toNat_of_lt (by omega), asNumber, UInt8.toNat_ofNat', BitVec.toNat_and]
  exact congrArg _ (Nat.and_two_pow_sub_one_eq_mod _ 8)

theorem wordBytes_eq (x : ℤ) : wordBytes x = (bytesOf (BitVec.ofInt 32 x)).map asNumber := by
  simp only [wordBytes, bitAnd_255, ofInt_shiftRight, BitVec.toNat_ushiftRight,
    Nat.shiftRight_eq_div_pow, bytesOf, List.map_cons, List.map_nil, Nat.reduceMod]

theorem number_bytesOf (v : Word) : Fips180.number (bitsOf (bytesOf v)) = v.toNat := by
  have := v.isLt
  simp only [bitsOf, bytesOf, List.flatMap_cons, List.flatMap_nil, List.append_nil,
    Fips180.number_append, Fips180.number_bits, Fips180.length_bits, List.length_append,
    UInt8.toNat_toBitVec, UInt8.toNat_ofNat']
  omega

/-- The bytes of a message that is padded. -/
def padding (bytes : List UInt8) : List UInt8 :=
  bytes ++ 0x80 :: (List.replicate ((119 - bytes.length % 64) % 64) 0
    ++ (bytesOf (.ofNat 32 (8 * bytes.length / 2 ^ 32)) ++ bytesOf (.ofNat 32 (8 * bytes.length))))

theorem pushPadding_eq {bytes : List UInt8} (h : 8 * bytes.length < 2 ^ 53) :
    pushPadding (bytes.map asNumber) = (padding bytes).map asNumber := by
  have hbits : times (bytes.map asNumber).length 8 = (8 * bytes.length : ℕ) := by
    rw [times, nearestNumber_of_lt (by rw [List.length_map]; omega), List.length_map]
    push_cast
    ring
  have hhigh : BitVec.ofInt 32 (((8 * bytes.length : ℕ) : ℤ) / 0x100000000)
      = .ofNat 32 (8 * bytes.length / 2 ^ 32) := by
    rw [← BitVec.ofInt_natCast]
    rfl
  have hlow : BitVec.ofInt 32 (shiftRight ((8 * bytes.length : ℕ) : ℤ) 0)
      = .ofNat 32 (8 * bytes.length) := by
    rw [shiftRight_zero, ofInt_num, BitVec.ofInt_natCast]
  have hzeros : (120 - (bytes.map asNumber ++ [0x80]).length % 64) % 64
      = (119 - bytes.length % 64) % 64 := by
    rw [List.length_append, List.length_map, List.length_singleton]
    omega
  rw [pushPadding, hbits, pushZeros_eq, hzeros, wordBytes_eq, wordBytes_eq, hhigh, hlow, padding]
  simp only [List.map_append, List.map_cons, List.map_replicate, List.append_assoc,
    List.cons_append, List.nil_append]
  rfl

theorem bitsOf_replicate (k : ℕ) : bitsOf (List.replicate k 0) = List.replicate (8 * k) false := by
  induction k with
  | zero => rfl
  | succ k ih =>
    rw [List.replicate_succ, bitsOf, List.flatMap_cons, ← bitsOf, ih, Nat.mul_succ, add_comm,
      List.replicate_add]
    rfl

theorem bitsOf_bytesOf (n : ℕ) :
    bitsOf (bytesOf (.ofNat 32 (n / 2 ^ 32)) ++ bytesOf (.ofNat 32 n))
      = Fips180.bits (BitVec.ofNat 64 n) := by
  refine Fips180.number_injective ?_ ?_
  · rw [length_bitsOf, Fips180.length_bits]
    rfl
  · rw [bitsOf_append, Fips180.number_append, number_bytesOf, number_bytesOf, length_bitsOf,
      Fips180.number_bits]
    simp only [BitVec.toNat_ofNat, bytesOf, List.length_cons, List.length_nil]
    omega

/-- What the code pushes is what the standard pads with. -/
theorem bitsOf_padding (bytes : List UInt8) :
    bitsOf (padding bytes) = Fips180.pad (bitsOf bytes) := by
  have hone : bitsOf [0x80] = true :: List.replicate 7 false := by decide
  have hzeros : Fips180.zeros (8 * bytes.length) = 7 + 8 * ((119 - bytes.length % 64) % 64) := by
    unfold Fips180.zeros
    omega
  rw [padding, ← List.singleton_append, bitsOf_append, bitsOf_append, bitsOf_append,
    bitsOf_replicate, bitsOf_bytesOf, hone, Fips180.pad, length_bitsOf, hzeros, List.replicate_add]
  simp only [List.cons_append, List.append_assoc]

theorem length_padding (bytes : List UInt8) : (padding bytes).length % 64 = 0 := by
  simp only [padding, List.length_append, List.length_cons, List.length_replicate, bytesOf,
    List.length_nil]
  omega

/-- The hash of the padded bytes is that of the bits of the message. -/
theorem hash_pushPadding {bytes : List UInt8} (h : 8 * bytes.length < 2 ^ 53) :
    hash (pushPadding (bytes.map asNumber)) = ofWords (Fips180.sha256 (bitsOf bytes)) := by
  have hmod := length_padding bytes
  rw [pushPadding_eq h, hash_eq hmod (n := (padding bytes).length / 64) (by omega), Fips180.sha256,
    ← bitsOf_padding, length_bitsOf, show 8 * (padding bytes).length / 512
      = (padding bytes).length / 64 by omega]

/-! ## Digits -/

/-- The text of a string of bits, four a digit. -/
def hexText (m : List Bool) : JsString :=
  js (String.ofList ((Fips180.hexDigits m).map Nat.digitChar))

theorem js_ofList (l : List Char) :
    js (String.ofList l) = l.map fun c => Fin.ofNat 65536 c.toNat := by
  rw [js, String.toList_ofList]

theorem toDigits_nibble {l : List Bool} (h : l.length = 4) :
    Nat.toDigits 16 (Fips180.number l) = (Fips180.hexDigits l).map Nat.digitChar := by
  have hlt : Fips180.number l < 16 := by simpa [h] using Fips180.number_lt l
  rw [Nat.toDigits_of_lt_base hlt]
  obtain ⟨a, b, c, d, rfl⟩ := List.length_eq_four.1 h
  rfl

/-- The digits of a number with the zeros put before them are those of its bits. -/
theorem toDigits_number : ∀ {k : ℕ} {m : List Bool}, m.length = 4 * (k + 1) →
    List.replicate (k + 1 - (Nat.toDigits 16 (Fips180.number m)).length) '0'
      ++ Nat.toDigits 16 (Fips180.number m) = (Fips180.hexDigits m).map Nat.digitChar
  | 0, m, h => by
    have hone : (Nat.toDigits 16 (Fips180.number m)).length ≠ 0 :=
      (Nat.length_toDigits_pos).ne'
    rw [show 0 + 1 - (Nat.toDigits 16 (Fips180.number m)).length = 0 by omega, toDigits_nibble h]
    rfl
  | k + 1, m, h => by
    obtain ⟨m', l, rfl, hm', hl⟩ : ∃ m' l, m = m' ++ l ∧ m'.length = 4 * (k + 1) ∧ l.length = 4 :=
      ⟨m.take (4 * (k + 1)), m.drop (4 * (k + 1)), (List.take_append_drop _ _).symm,
        by rw [List.length_take]; omega, by rw [List.length_drop]; omega⟩
    have ih := toDigits_number hm'
    have hlt : Fips180.number l < 16 := by simpa [hl] using Fips180.number_lt l
    have hlast := toDigits_nibble hl
    have hone : ((Fips180.hexDigits l).map Nat.digitChar).length = 1 := by
      obtain ⟨a, b, c, d, rfl⟩ := List.length_eq_four.1 hl
      rfl
    rw [Fips180.number_append, Fips180.hexDigits_append ⟨k + 1, hm'⟩, List.map_append, ← ih, hl,
      show 2 ^ 4 = 16 from rfl]
    rcases Nat.eq_zero_or_pos (Fips180.number m') with hzero | hpos
    · rw [hzero, zero_mul, zero_add, hlast, hone, Nat.toDigits_zero, List.length_singleton,
        Nat.add_sub_cancel, Nat.add_sub_cancel, ← List.replicate_succ']
    · rw [mul_comm, ← Nat.toDigits_append_toDigits (by decide) hpos hlt, hlast,
        List.length_append, hone, Nat.add_sub_add_right, List.append_assoc]

theorem toHex_num (v : Word) : toHex (num v) = hexText (Fips180.bits v) := by
  have hdigits := toDigits_number (k := 7) (Fips180.length_bits v)
  rw [Fips180.number_bits] at hdigits
  rw [hexText, ← hdigits, js_ofList, toHex, shiftRight_zero, ofInt_num, padStart0, toString16,
    js_ofList, List.map_append, List.map_replicate, List.length_map]
  rfl

theorem hexText_append {m m' : List Bool} (h : 4 ∣ m.length) :
    hexText (m ++ m') = hexText m ++ hexText m' := by
  simp only [hexText, js_ofList, Fips180.hexDigits_append h, List.map_append]

theorem hex_ofWords (s : Words) :
    (ofWords s).toList.flatMap toHex = hexText (s.toList.flatMap Fips180.bits) := by
  have flatMap_eq : ∀ l : List Word,
      (l.map num).flatMap toHex = hexText (l.flatMap Fips180.bits) := by
    intro l
    induction l with
    | nil => rfl
    | cons v l ih =>
      rw [List.map_cons, List.flatMap_cons, List.flatMap_cons, toHex_num, ih,
        hexText_append (by rw [Fips180.length_bits]; decide)]
  exact flatMap_eq s.toList

/-! ## Strings as bytes -/

theorem chars_of_units : ∀ {s : JsString}, (∀ c ∈ s, isHighSurrogate c = false) →
    chars s = s.map fun c => [c]
  | [], _ => rfl
  | [_], _ => rfl
  | c :: d :: s, h => by
    rw [chars, h c List.mem_cons_self, Bool.false_and, if_neg Bool.false_ne_true,
      chars_of_units fun x hx => h x (List.mem_cons_of_mem c hx)]
    rfl

/-- A byte as a code unit. -/
def unit (b : UInt8) : CodeUnit := Fin.ofNat 65536 b.toNat

theorem unit_val (b : UInt8) : (unit b).val = b.toNat :=
  Nat.mod_eq_of_lt (b.toNat_lt.trans (by decide))

theorem escaped_percentByte (b : UInt8) (s : JsString) :
    escaped ((percentByte b).tail ++ s) = some (unit b, 2) := by
  have hall : ∀ b : Fin 256, hexNumber [upperHexDigit (b.val / 16), upperHexDigit (b.val % 16)]
      = some b.val ∧ upperHexDigit (b.val / 16) ≠ 117 := by
    decide +kernel
  obtain ⟨hnumber, hne⟩ := hall ⟨b.toNat, b.toNat_lt⟩
  simp only [percentByte, List.tail_cons, List.cons_append, List.nil_append]
  unfold escaped
  split
  · rename_i heq
    simp only [List.cons.injEq] at heq
    exact absurd heq.1 hne
  · rename_i heq
    simp only [List.cons.injEq] at heq
    obtain ⟨rfl, rfl, rfl⟩ := heq
    rw [hnumber]
    rfl
  · rename_i hnone
    exact absurd rfl (hnone _ _ _)

theorem unescape_percentBytes : ∀ (bytes : List UInt8) (s : JsString),
    unescape (bytes.flatMap percentByte ++ s) = bytes.map unit ++ unescape s
  | [], _ => rfl
  | b :: bytes, s => by
    have hcons : (b :: bytes).flatMap percentByte ++ s
        = 37 :: ((percentByte b).tail ++ (bytes.flatMap percentByte ++ s)) := rfl
    rw [hcons, unescape, if_pos rfl, escaped_percentByte]
    simp only [List.map_cons, List.cons_append]
    rw [← unescape_percentBytes bytes s]
    rfl

theorem unescape_cons {c : CodeUnit} (h : c ≠ 37) (s : JsString) :
    unescape (c :: s) = c :: unescape s := by
  rw [unescape, if_neg h]

/-- A character that is not encoded is its own byte. -/
theorem utf8_of_unreserved {p : ℕ} (h : isUnreserved p = true) :
    (String.utf8EncodeChar (scalar p)).map unit = [Fin.ofNat 65536 p]
      ∧ (Fin.ofNat 65536 p : CodeUnit) ≠ 37 := by
  have hlt : p < 128 := by
    simp only [isUnreserved, Bool.or_eq_true, Bool.and_eq_true, decide_eq_true_eq] at h
    omega
  have hall : ∀ p : Fin 128, isUnreserved p.val = true →
      (String.utf8EncodeChar (scalar p.val)).map unit = [Fin.ofNat 65536 p.val]
        ∧ (Fin.ofNat 65536 p.val : CodeUnit) ≠ 37 := by
    decide
  exact hall ⟨p, hlt⟩ h

theorem unescape_encoded : ∀ ps : List ℕ,
    unescape (ps.flatMap fun p => if isUnreserved p then [Fin.ofNat 65536 p]
      else (String.utf8EncodeChar (scalar p)).flatMap percentByte)
      = (ps.flatMap fun p => String.utf8EncodeChar (scalar p)).map unit
  | [] => by simp [unescape]
  | p :: ps => by
    rw [List.flatMap_cons, List.flatMap_cons, List.map_append]
    split_ifs with h
    · obtain ⟨hbyte, hne⟩ := utf8_of_unreserved h
      rw [hbyte, List.singleton_append, unescape_cons hne, unescape_encoded ps]
      rfl
    · rw [unescape_percentBytes, unescape_encoded ps]

theorem bytesFromUtf8_eq {hasTextEncoder : Bool} {input : JsString}
    (h : hasTextEncoder = true ∨ isWellFormed input = true) :
    bytesFromUtf8 hasTextEncoder input = some ((textEncode input).map asNumber) := by
  cases hasTextEncoder with
  | true => rfl
  | false =>
    have hwell : isWellFormed input = true := by simpa using h
    have hunits : ∀ c ∈ (textEncode input).map unit, isHighSurrogate c = false := by
      intro c hc
      obtain ⟨b, -, rfl⟩ := List.mem_map.1 hc
      have := b.toNat_lt
      have hlow : ¬ 0xD800 ≤ b.toNat := by omega
      rw [isHighSurrogate, unit_val, decide_eq_false hlow, Bool.false_and]
    rw [bytesFromUtf8, if_neg Bool.false_ne_true, encodeURIComponent, if_pos hwell, Option.map_some,
      unescape_encoded, ← textEncode, chars_of_units hunits, List.map_map, List.map_map]
    refine congrArg some (List.map_congr_left fun b _ => ?_)
    simp only [Function.comp_apply, List.headD_cons, unit_val]
    rfl

/-! ## The function -/

/-- The UTF-8 of a string, as a string of bits. -/
def utf8Bits (input : JsString) : List Bool := bitsOf (textEncode input)

/-- Where there is a `TextEncoder`, the hash of each string is SHA-256 of its UTF-8; where there is
none, that of each string without a surrogate that is alone. -/
theorem sha256Hex_eq {input : JsString} (h : (utf8Bits input).length < 2 ^ 53) :
    sha256Hex true input = some (hexText (Fips180.digest (utf8Bits input)))
      ∧ (isWellFormed input = true →
        sha256Hex false input = some (hexText (Fips180.digest (utf8Bits input)))) := by
  rw [utf8Bits, length_bitsOf] at h
  have hbytes {hasTextEncoder : Bool}
      (hinput : hasTextEncoder = true ∨ isWellFormed input = true) :
      sha256Hex hasTextEncoder input = some (hexText (Fips180.digest (utf8Bits input))) := by
    rw [sha256Hex, bytesFromUtf8_eq hinput, Option.map_some, hash_pushPadding h]
    exact congrArg some (hex_ofWords _)
  exact ⟨hbytes (.inl rfl), fun hwell => hbytes (.inr hwell)⟩

/-- The hash of `abc`. -/
theorem sha256Hex_eq_abc :
    (utf8Bits (js "abc")).length < 2 ^ 53
      ∧ sha256Hex true (js "abc") = some (hexText (Fips180.digest (utf8Bits (js "abc"))))
      ∧ sha256Hex false (js "abc") = some (hexText (Fips180.digest (utf8Bits (js "abc")))) := by
  have h : (utf8Bits (js "abc")).length < 2 ^ 53 := by decide
  exact ⟨h, (sha256Hex_eq h).1, (sha256Hex_eq h).2 (by decide)⟩

end Agid.Sha256
