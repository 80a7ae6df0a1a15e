import Mathlib

/-!
# Several texts in one

Three ways to write fields one after the other.  A separator between two texts loses where it
stands: the joined texts are the same exactly where the fields are, or where a separator inside of
one pair is taken for the one between the fields of the other.  The words of the ABI give each field
its place, and a length before each field says where it ends: these lose nothing.
-/

namespace Encoding

variable {α : Type*}

/-! ## A separator -/

/-- Two texts with a separator between them. -/
def joined (x : α) (p : List α × List α) : List α := p.1 ++ x :: p.2

/-- The second pair is the first one with its separator at a later one: `a` and `m x b` where the
other has `a x m` and `b`. -/
def Shifted (x : α) (p q : List α × List α) : Prop :=
  ∃ m, q.1 = p.1 ++ x :: m ∧ p.2 = m ++ x :: q.2

theorem joined_eq_of_shifted {x : α} {p q : List α × List α} (h : Shifted x p q) :
    joined x p = joined x q := by
  obtain ⟨m, hfirst, hsecond⟩ := h
  rw [joined, joined, hfirst, hsecond, List.append_assoc, List.cons_append]

theorem joined_eq_iff {x : α} {p q : List α × List α} :
    joined x p = joined x q ↔ p = q ∨ Shifted x p q ∨ Shifted x q p := by
  constructor
  · intro h
    rcases List.append_eq_append_iff.1 h with ⟨m, hq, hp⟩ | ⟨m, hp, hq⟩
    · rcases m with _ | ⟨y, m⟩
      · rw [List.append_nil] at hq
        rw [List.nil_append, List.cons.injEq] at hp
        exact .inl (Prod.ext hq.symm hp.2)
      · rw [List.cons_append, List.cons.injEq] at hp
        obtain ⟨rfl, hp⟩ := hp
        exact .inr (.inl ⟨m, hq, hp⟩)
    · rcases m with _ | ⟨y, m⟩
      · rw [List.append_nil] at hp
        rw [List.nil_append, List.cons.injEq] at hq
        exact .inl (Prod.ext hp hq.2.symm)
      · rw [List.cons_append, List.cons.injEq] at hq
        obtain ⟨rfl, hq⟩ := hq
        exact .inr (.inr ⟨m, hp, hq⟩)
  · rintro (rfl | h | h)
    · rfl
    · exact joined_eq_of_shifted h
    · exact (joined_eq_of_shifted h).symm

/-! ## Words -/

/-- The last `k` bytes of a number. -/
def bytesOf : ℕ → ℕ → List UInt8
  | 0, _ => []
  | k + 1, n => bytesOf k (n / 256) ++ [UInt8.ofNat (n % 256)]

@[simp] theorem length_bytesOf : ∀ k n : ℕ, (bytesOf k n).length = k
  | 0, _ => rfl
  | k + 1, n => by rw [bytesOf, List.length_append, length_bytesOf k, List.length_singleton]

theorem bytesOf_inj : ∀ {k m n : ℕ}, m < 256 ^ k → n < 256 ^ k → bytesOf k m = bytesOf k n → m = n
  | 0, m, n, hm, hn, _ => by
    rw [pow_zero, Nat.lt_one_iff] at hm hn
    rw [hm, hn]
  | k + 1, m, n, hm, hn, h => by
    rw [pow_succ] at hm hn
    obtain ⟨hhigh, hlow⟩ := List.append_inj' h rfl
    have hhigh : m / 256 = n / 256 :=
      bytesOf_inj (Nat.div_lt_of_lt_mul (by omega)) (Nat.div_lt_of_lt_mul (by omega)) hhigh
    have hlow : m % 256 = n % 256 := by
      have := congrArg UInt8.toNat (List.singleton_inj.1 hlow)
      rw [UInt8.toNat_ofNat_of_lt' (Nat.mod_lt _ (by norm_num)),
        UInt8.toNat_ofNat_of_lt' (Nat.mod_lt _ (by norm_num))] at this
      exact this
    omega

/-- A word of 32 bytes. -/
def word (w : BitVec 256) : List UInt8 := bytesOf 32 w.toNat

theorem length_word (w : BitVec 256) : (word w).length = 32 := length_bytesOf _ _

theorem word_inj {v w : BitVec 256} (h : word v = word w) : v = w :=
  BitVec.eq_of_toNat_eq
    (bytesOf_inj (v.isLt.trans_eq (by norm_num)) (w.isLt.trans_eq (by norm_num)) h)

/-! ## The ABI -/

/-- The bytes with zeros up to a multiple of 32. -/
def padded (bytes : List UInt8) : List UInt8 :=
  bytes ++ List.replicate ((32 - bytes.length % 32) % 32) 0

/-- The ABI encoding of a word, a text and a word: in place of the text stands where its length and
its bytes begin. -/
def abiEncode (first : BitVec 256) (text : List UInt8) (second : BitVec 256) : List UInt8 :=
  word first ++ word 96 ++ word second ++ word (BitVec.ofNat 256 text.length) ++ padded text

theorem padded_inj {a b : List UInt8}
    (hword : BitVec.ofNat 256 a.length = BitVec.ofNat 256 b.length) (h : padded a = padded b) :
    a = b := by
  have hmod : a.length % 2 ^ 256 = b.length % 2 ^ 256 := by
    simpa only [BitVec.toNat_ofNat] using congrArg BitVec.toNat hword
  have hpadded := congrArg List.length h
  rw [padded, padded, List.length_append, List.length_append, List.length_replicate,
    List.length_replicate] at hpadded
  exact (List.append_inj h (by omega)).1

theorem abiEncode_inj {first first' second second' : BitVec 256} {text text' : List UInt8}
    (h : abiEncode first text second = abiEncode first' text' second') :
    first = first' ∧ text = text' ∧ second = second' := by
  obtain ⟨h, hpadded⟩ := List.append_inj h (by simp only [List.length_append, length_word])
  obtain ⟨h, hlength⟩ := List.append_inj h (by simp only [List.length_append, length_word])
  obtain ⟨h, hsecond⟩ := List.append_inj h (by simp only [List.length_append, length_word])
  obtain ⟨hfirst, -⟩ := List.append_inj h (by simp only [length_word])
  exact ⟨word_inj hfirst, padded_inj (word_inj hlength) hpadded, word_inj hsecond⟩

/-! ## Lengths -/

/-- The bytes after four bytes that say how many they are. -/
def measured (bytes : List UInt8) : List UInt8 := bytesOf 4 bytes.length ++ bytes

theorem measured_ne_nil (bytes : List UInt8) : measured bytes ≠ [] := fun h => by
  have := congrArg List.length h
  rw [measured, List.length_append, length_bytesOf, List.length_nil] at this
  omega

theorem measured_append_inj {a b r s : List UInt8} (ha : a.length < 256 ^ 4)
    (hb : b.length < 256 ^ 4) (h : measured a ++ r = measured b ++ s) : a = b ∧ r = s := by
  rw [measured, measured, List.append_assoc, List.append_assoc] at h
  obtain ⟨hlength, h⟩ := List.append_inj h (by rw [length_bytesOf, length_bytesOf])
  exact List.append_inj h (bytesOf_inj ha hb hlength)

/-- A tag and a value. -/
def tagged (field : List UInt8 × List UInt8) : List UInt8 := measured field.1 ++ measured field.2

def Measurable (field : List UInt8 × List UInt8) : Prop :=
  field.1.length < 256 ^ 4 ∧ field.2.length < 256 ^ 4

theorem flatMap_tagged_inj : ∀ {l l' : List (List UInt8 × List UInt8)},
    (∀ field ∈ l, Measurable field) → (∀ field ∈ l', Measurable field) →
      l.flatMap tagged = l'.flatMap tagged → l = l'
  | [], [], _, _, _ => rfl
  | [], f :: l', _, _, h => by
    rw [List.flatMap_nil, List.flatMap_cons, tagged, List.append_assoc] at h
    exact absurd (List.append_eq_nil_iff.1 h.symm).1 (measured_ne_nil f.1)
  | f :: l, [], _, _, h => by
    rw [List.flatMap_nil, List.flatMap_cons, tagged, List.append_assoc] at h
    exact absurd (List.append_eq_nil_iff.1 h).1 (measured_ne_nil f.1)
  | f :: l, g :: l', hl, hl', h => by
    rw [List.forall_mem_cons] at hl hl'
    rw [List.flatMap_cons, List.flatMap_cons, tagged, tagged, List.append_assoc,
      List.append_assoc] at h
    obtain ⟨htag, h⟩ := measured_append_inj hl.1.1 hl'.1.1 h
    obtain ⟨hvalue, h⟩ := measured_append_inj hl.1.2 hl'.1.2 h
    exact congrArg₂ List.cons (Prod.ext htag hvalue) (flatMap_tagged_inj hl.2 hl'.2 h)

end Encoding
