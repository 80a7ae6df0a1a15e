import Mathlib

/-!
# The Hilbert curve

The curve of order `k` runs through the `2 ^ k × 2 ^ k` square.  `index` is a point's place on it
and `point` the point at a place; each is the other's inverse (`point_index`, `index_point`).
Both go down one order by the quadrant the point is in: the digit of the quadrant is the place's
leading base-4 digit, and the rest is the curve of the order below, turned to the quadrant.
-/

namespace Hilbert

/-- The digit of the quadrant at column `rx` and row `ry`. -/
def digit (rx ry : ℕ) : ℕ := (3 * rx) ^^^ ry

/-- The column of a digit's quadrant. -/
def col (q : ℕ) : ℕ := q / 2

/-- The row of a digit's quadrant. -/
def row (q : ℕ) : ℕ := (q + q / 2) % 2

/-- How the curve of the order below, in a square of side `s`, is laid into a quadrant. -/
def turn (s rx ry : ℕ) (p : ℕ × ℕ) : ℕ × ℕ :=
  if ry = 0 then
    if rx = 1 then (s - 1 - p.2, s - 1 - p.1) else (p.2, p.1)
  else p

def index : ℕ → ℕ × ℕ → ℕ
  | 0, _ => 0
  | k + 1, p =>
    4 ^ k * digit (p.1 / 2 ^ k) (p.2 / 2 ^ k)
      + index k (turn (2 ^ k) (p.1 / 2 ^ k) (p.2 / 2 ^ k) (p.1 % 2 ^ k, p.2 % 2 ^ k))

def point : ℕ → ℕ → ℕ × ℕ
  | 0, _ => (0, 0)
  | k + 1, h =>
    let q := h / 4 ^ k
    let p := turn (2 ^ k) (col q) (row q) (point k (h % 4 ^ k))
    (2 ^ k * col q + p.1, 2 ^ k * row q + p.2)

/-- The square of side `s`. -/
def InSquare (s : ℕ) (p : ℕ × ℕ) : Prop := p.1 < s ∧ p.2 < s

/-! ## Quadrants -/

theorem digit_lt {rx ry : ℕ} (hx : rx < 2) (hy : ry < 2) : digit rx ry < 4 := by
  interval_cases rx <;> interval_cases ry <;> decide

theorem col_lt {q : ℕ} (h : q < 4) : col q < 2 := by
  unfold col
  omega

theorem row_lt (q : ℕ) : row q < 2 := by
  unfold row
  omega

theorem col_digit {rx ry : ℕ} (hx : rx < 2) (hy : ry < 2) : col (digit rx ry) = rx := by
  interval_cases rx <;> interval_cases ry <;> rfl

theorem row_digit {rx ry : ℕ} (hx : rx < 2) (hy : ry < 2) : row (digit rx ry) = ry := by
  interval_cases rx <;> interval_cases ry <;> rfl

theorem digit_col_row {q : ℕ} (h : q < 4) : digit (col q) (row q) = q := by
  interval_cases q <;> rfl

theorem turn_mem (rx ry : ℕ) {s : ℕ} {p : ℕ × ℕ} (h : InSquare s p) :
    InSquare s (turn s rx ry p) := by
  obtain ⟨x, y⟩ := p
  obtain ⟨h1, h2⟩ := h
  unfold turn InSquare
  split_ifs <;> dsimp only at * <;> omega

/-- A turn is its own inverse. -/
theorem turn_turn {s rx ry : ℕ} {p : ℕ × ℕ} (h : InSquare s p) :
    turn s rx ry (turn s rx ry p) = p := by
  obtain ⟨h1, h2⟩ := h
  unfold turn
  split_ifs
  · ext <;> dsimp only <;> omega
  · rfl
  · rfl

theorem rest_mem {k : ℕ} (p : ℕ × ℕ) : InSquare (2 ^ k) (p.1 % 2 ^ k, p.2 % 2 ^ k) :=
  ⟨Nat.mod_lt _ (by positivity), Nat.mod_lt _ (by positivity)⟩

theorem quadrant_lt {k x : ℕ} (h : x < 2 ^ (k + 1)) : x / 2 ^ k < 2 := by
  rw [Nat.div_lt_iff_lt_mul (by positivity), mul_comm, ← pow_succ]
  exact h

/-! ## The two directions -/

theorem index_lt : ∀ (k : ℕ) {p : ℕ × ℕ}, InSquare (2 ^ k) p → index k p < 4 ^ k
  | 0, _, _ => by simp [index]
  | k + 1, p, h => by
    have hd := digit_lt (quadrant_lt h.1) (quadrant_lt h.2)
    have hr := index_lt k (turn_mem (p.1 / 2 ^ k) (p.2 / 2 ^ k) (rest_mem p))
    have hm : 4 ^ k * digit (p.1 / 2 ^ k) (p.2 / 2 ^ k) ≤ 4 ^ k * 3 :=
      Nat.mul_le_mul_left _ (by omega)
    rw [index, pow_succ]
    omega

theorem point_mem : ∀ (k : ℕ) {h : ℕ}, h < 4 ^ k → InSquare (2 ^ k) (point k h)
  | 0, _, _ => by simp [point, InSquare]
  | k + 1, h, hh => by
    have hq : h / 4 ^ k < 4 := by
      rw [Nat.div_lt_iff_lt_mul (by positivity), mul_comm, ← pow_succ]
      exact hh
    have hp := turn_mem (col (h / 4 ^ k)) (row (h / 4 ^ k))
      (point_mem k (Nat.mod_lt h (by positivity : 0 < 4 ^ k)))
    have hc : 2 ^ k * col (h / 4 ^ k) ≤ 2 ^ k * 1 :=
      Nat.mul_le_mul_left _ (by have := col_lt hq; omega)
    have hr : 2 ^ k * row (h / 4 ^ k) ≤ 2 ^ k * 1 :=
      Nat.mul_le_mul_left _ (by have := row_lt (h / 4 ^ k); omega)
    obtain ⟨h1, h2⟩ := hp
    constructor <;> simp only [point, pow_succ] <;> omega

theorem point_index : ∀ (k : ℕ) {p : ℕ × ℕ}, InSquare (2 ^ k) p → point k (index k p) = p
  | 0, p, h => by
    obtain ⟨h1, h2⟩ := h
    simp only [pow_zero, Nat.lt_one_iff] at h1 h2
    ext <;> simp [point, h1, h2]
  | k + 1, p, h => by
    have hx := quadrant_lt h.1
    have hy := quadrant_lt h.2
    have ht := turn_mem (p.1 / 2 ^ k) (p.2 / 2 ^ k) (rest_mem (k := k) p)
    have hlt := index_lt k ht
    simp only [index, point, Nat.mul_add_div (by positivity : 4 ^ k > 0), Nat.mul_add_mod,
      Nat.div_eq_of_lt hlt, Nat.mod_eq_of_lt hlt, add_zero, point_index k ht, col_digit hx hy,
      row_digit hx hy, turn_turn (rest_mem p), Nat.div_add_mod]

theorem index_point : ∀ (k : ℕ) {h : ℕ}, h < 4 ^ k → index k (point k h) = h
  | 0, h, hh => by
    simp only [pow_zero, Nat.lt_one_iff] at hh
    simp [index, hh]
  | k + 1, h, hh => by
    have hq : h / 4 ^ k < 4 := by
      rw [Nat.div_lt_iff_lt_mul (by positivity), mul_comm, ← pow_succ]
      exact hh
    have hr : h % 4 ^ k < 4 ^ k := Nat.mod_lt _ (by positivity)
    have hp := point_mem k hr
    obtain ⟨h1, h2⟩ := turn_mem (col (h / 4 ^ k)) (row (h / 4 ^ k)) hp
    simp only [index, point, Nat.mul_add_div (by positivity : 2 ^ k > 0), Nat.mul_add_mod,
      Nat.div_eq_of_lt h1, Nat.div_eq_of_lt h2, Nat.mod_eq_of_lt h1, Nat.mod_eq_of_lt h2,
      add_zero, Prod.mk.eta, digit_col_row hq, turn_turn hp, index_point k hr, Nat.div_add_mod]

/-- The curve of order `k` visits every point of its square, each at one place. -/
theorem index_bijOn (k : ℕ) : Set.BijOn (index k) {p | InSquare (2 ^ k) p} (Set.Iio (4 ^ k)) := by
  refine ⟨fun p hp => index_lt k hp, fun p hp q hq hpq => ?_, fun h hh => ?_⟩
  · rw [← point_index k hp, hpq, point_index k hq]
  · exact ⟨point k h, point_mem k hh, index_point k hh⟩

end Hilbert
