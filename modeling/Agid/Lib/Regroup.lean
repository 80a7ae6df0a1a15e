import Agid.Lib.Fips180

/-!
# Digits of another width

A string of bits is cut into digits of so many bits each, the most significant first, with fewer than
that left over.  What is cut from a string can be cut from its parts in turn, if what one part leaves
is put before the next.
-/

namespace Regroup

open Fips180 (bits number number_append number_bits number_lt length_bits)

/-- The bits of a digit. -/
def digitBits (w d : ℕ) : List Bool := bits (BitVec.ofNat w d)

/-- The digits that are cut off. -/
def digits (w : ℕ) (m : List Bool) : List ℕ :=
  if 0 < w ∧ w ≤ m.length then number (m.take w) :: digits w (m.drop w) else []
termination_by m.length
decreasing_by
  rw [List.length_drop]
  omega

/-- The bits that are left over. -/
def rest (w : ℕ) (m : List Bool) : List Bool :=
  if 0 < w ∧ w ≤ m.length then rest w (m.drop w) else m
termination_by m.length
decreasing_by
  rw [List.length_drop]
  omega

@[simp] theorem length_digitBits (w d : ℕ) : (digitBits w d).length = w := length_bits _

theorem number_digitBits {w d : ℕ} (h : d < 2 ^ w) : number (digitBits w d) = d := by
  rw [digitBits, number_bits, BitVec.toNat_ofNat, Nat.mod_eq_of_lt h]

theorem digitBits_number {w : ℕ} {m : List Bool} (h : m.length = w) :
    digitBits w (number m) = m := by
  subst h
  exact Fips180.number_injective (length_digitBits _ _) (number_digitBits (number_lt m))

variable {w : ℕ}

theorem digits_of_lt {m : List Bool} (h : m.length < w) : digits w m = [] := by
  rw [digits, if_neg (by omega)]

theorem rest_of_lt {m : List Bool} (h : m.length < w) : rest w m = m := by
  rw [rest, if_neg (by omega)]

theorem digits_append_of_length (hw : 0 < w) {m : List Bool} (h : m.length = w) (m' : List Bool) :
    digits w (m ++ m') = number m :: digits w m' := by
  rw [digits, if_pos ⟨hw, by rw [List.length_append]; omega⟩, List.take_left' h, List.drop_left' h]

theorem rest_append_of_length (hw : 0 < w) {m : List Bool} (h : m.length = w) (m' : List Bool) :
    rest w (m ++ m') = rest w m' := by
  rw [rest, if_pos ⟨hw, by rw [List.length_append]; omega⟩, List.drop_left' h]

theorem length_rest_lt (hw : 0 < w) (m : List Bool) : (rest w m).length < w := by
  induction m using rest.induct w with
  | case1 m h ih => rwa [rest, if_pos h]
  | case2 m h =>
    rw [rest, if_neg h]
    omega

/-- What is cut from a string goes on from what its first part leaves. -/
theorem digits_append (hw : 0 < w) (m m' : List Bool) :
    digits w (m ++ m') = digits w m ++ digits w (rest w m ++ m')
      ∧ rest w (m ++ m') = rest w (rest w m ++ m') := by
  induction m using rest.induct w with
  | case1 m h ih =>
    have hsplit : m ++ m' = m.take w ++ (m.drop w ++ m') := by
      rw [← List.append_assoc, List.take_append_drop]
    have hlength : (m.take w).length = w := List.length_take_of_le h.2
    rw [hsplit, digits_append_of_length hw hlength, rest_append_of_length hw hlength, ih.1, ih.2,
      digits.eq_def w m, rest.eq_def w m, if_pos h, if_pos h, List.cons_append]
    exact ⟨rfl, rfl⟩
  | case2 m h =>
    rw [digits.eq_def w m, rest.eq_def w m, if_neg h, if_neg h]
    exact ⟨rfl, rfl⟩

/-- The digits and what is left make the string. -/
theorem flatMap_digits (w : ℕ) (m : List Bool) :
    (digits w m).flatMap (digitBits w) ++ rest w m = m := by
  induction m using rest.induct w with
  | case1 m h ih =>
    rw [digits, rest, if_pos h, if_pos h, List.flatMap_cons, List.append_assoc, ih,
      digitBits_number (List.length_take_of_le h.2), List.take_append_drop]
  | case2 m h =>
    rw [digits, rest, if_neg h, if_neg h]
    rfl

theorem digits_flatMap (hw : 0 < w) : ∀ {ds : List ℕ}, (∀ d ∈ ds, d < 2 ^ w) → ∀ m : List Bool,
    digits w (ds.flatMap (digitBits w) ++ m) = ds ++ digits w m
      ∧ rest w (ds.flatMap (digitBits w) ++ m) = rest w m
  | [], _, _ => ⟨rfl, rfl⟩
  | d :: ds, h, m => by
    obtain ⟨hdigits, hrest⟩ := digits_flatMap hw
      (fun d hd => h d (List.mem_cons_of_mem _ hd)) m
    rw [List.flatMap_cons, List.append_assoc, digits_append_of_length hw (length_digitBits w d),
      rest_append_of_length hw (length_digitBits w d), hdigits, hrest,
      number_digitBits (h d List.mem_cons_self)]
    exact ⟨rfl, rfl⟩

theorem lt_of_mem_digits (w : ℕ) (m : List Bool) : ∀ d ∈ digits w m, d < 2 ^ w := by
  induction m using rest.induct w with
  | case1 m h ih =>
    rw [digits, if_pos h]
    intro d hd
    rcases List.mem_cons.1 hd with rfl | hd
    · exact (number_lt _).trans_eq (by rw [List.length_take_of_le h.2])
    · exact ih d hd
  | case2 m h =>
    rw [digits, if_neg h]
    exact fun d hd => absurd hd List.not_mem_nil

theorem length_flatMap_digitBits (w : ℕ) (ds : List ℕ) :
    (ds.flatMap (digitBits w)).length = w * ds.length := by
  induction ds with
  | nil => rfl
  | cons d ds ih =>
    rw [List.flatMap_cons, List.length_append, length_digitBits, ih, List.length_cons]
    ring

theorem length_digits (w : ℕ) (m : List Bool) :
    w * (digits w m).length + (rest w m).length = m.length := by
  rw [← length_flatMap_digitBits, ← List.length_append, flatMap_digits]

end Regroup
