import Mathlib

/-!
# Decimal digits

What a text of digits writes, and what is left of a decimal fraction when it is filled up with
zeros or cut to a number of places.
-/

namespace Decimal

/-- The number that digits write, the most significant first. -/
def numeral (l : List ℕ) : ℕ := Nat.ofDigits 10 l.reverse

/-- The number with the digits `f` after the point. -/
def value (w f : List ℕ) : ℚ := numeral w + numeral f / 10 ^ f.length

theorem numeral_append (a b : List ℕ) :
    numeral (a ++ b) = numeral a * 10 ^ b.length + numeral b := by
  unfold numeral
  rw [List.reverse_append, Nat.ofDigits_append, List.length_reverse]
  ring

theorem numeral_replicate_zero (n : ℕ) : numeral (List.replicate n 0) = 0 := by
  unfold numeral
  rw [List.reverse_replicate, Nat.ofDigits_replicate_zero]

theorem numeral_zero_cons (l : List ℕ) : numeral (0 :: l) = numeral l := by
  have h := numeral_append [0] l
  rw [List.singleton_append] at h
  simpa only [numeral, List.reverse_singleton, Nat.ofDigits_singleton, zero_mul, zero_add]
    using h

theorem numeral_lt {l : List ℕ} (h : ∀ d ∈ l, d < 10) : numeral l < 10 ^ l.length := by
  have := Nat.ofDigits_lt_base_pow_length (b := 10) (l := l.reverse) (by omega)
    (fun d hd => h d (List.mem_reverse.1 hd))
  rwa [List.length_reverse] at this

/-- The digits after the point, filled up with zeros and cut to `d` places. -/
def places (d : ℕ) (f : List ℕ) : List ℕ := (f ++ List.replicate d 0).take d

theorem places_length (d : ℕ) (f : List ℕ) : (places d f).length = d := by
  unfold places
  rw [List.length_take, List.length_append, List.length_replicate]
  omega

theorem digit_append_zeros {f : List ℕ} (hf : ∀ c ∈ f, c < 10) (d : ℕ) :
    ∀ c ∈ f ++ List.replicate d 0, c < 10 := by
  intro c hc
  rcases List.mem_append.1 hc with hc | hc
  · exact hf c hc
  · have := List.eq_of_mem_replicate hc
    omega

theorem numeral_places {f : List ℕ} (hf : ∀ c ∈ f, c < 10) (d : ℕ) :
    numeral (places d f) = numeral f * 10 ^ d / 10 ^ f.length := by
  have h := numeral_append (places d f) ((f ++ List.replicate d 0).drop d)
  have hfill := numeral_append f (List.replicate d 0)
  have hlen : ((f ++ List.replicate d 0).drop d).length = f.length := by
    rw [List.length_drop, List.length_append, List.length_replicate]
    omega
  have hlt : numeral ((f ++ List.replicate d 0).drop d) < 10 ^ f.length := by
    rw [← hlen]
    exact numeral_lt fun c hc => digit_append_zeros hf d c (List.mem_of_mem_drop hc)
  rw [places, List.take_append_drop, hfill, numeral_replicate_zero, List.length_replicate, hlen]
    at h
  rw [← add_zero (numeral f * 10 ^ d), h, places]
  exact (Nat.div_eq_of_lt_le (by omega) (by rw [add_mul]; omega)).symm

/-- Cut to `d` places, a number is the number of the smallest units in it, rounded down. -/
theorem numeral_append_places (w : List ℕ) {f : List ℕ} (hf : ∀ c ∈ f, c < 10) (d : ℕ) :
    numeral (w ++ places d f) = ⌊value w f * 10 ^ d⌋₊ := by
  have hv : value w f * 10 ^ d
      = ((numeral f * 10 ^ d : ℕ) : ℚ) / ((10 ^ f.length : ℕ) : ℚ)
        + ((numeral w * 10 ^ d : ℕ) : ℚ) := by
    unfold value
    push_cast
    ring
  rw [numeral_append, places_length, numeral_places hf, hv, Nat.floor_add_natCast (by positivity),
    Nat.floor_div_eq_div, add_comm]

end Decimal
