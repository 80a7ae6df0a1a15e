import Mathlib

/-!
# Greedy selection from a stream

From a stream of candidates those are kept that are new and that the kept ones admit.  What is kept
only grows; where it stays short of a bound it is the same from some candidate on, and every later
candidate is a kept one or refused.
-/

namespace Greedy

variable {α : Type*} [DecidableEq α] (stream : ℕ → α) (admits : List α → α → Bool)

/-- What is kept of the first candidates. -/
def kept : ℕ → List α
  | 0 => []
  | n + 1 =>
    if stream n ∈ kept n then kept n
    else if admits (kept n) (stream n) then kept n ++ [stream n]
    else kept n

/-- A new candidate that the kept ones do not admit. -/
def Refused (n : ℕ) : Prop :=
  stream n ∉ kept stream admits n ∧ admits (kept stream admits n) (stream n) = false

variable {stream admits}

theorem kept_grows {m n : ℕ} (h : m ≤ n) : kept stream admits m <+: kept stream admits n := by
  induction n, h using Nat.le_induction with
  | base => exact List.prefix_rfl
  | succ n _ ih =>
    rw [kept]
    split_ifs
    · exact ih
    · exact ih.trans (List.prefix_append _ _)
    · exact ih

theorem length_kept_mono {m n : ℕ} (h : m ≤ n) :
    (kept stream admits m).length ≤ (kept stream admits n).length :=
  (kept_grows h).length_le

theorem nodup_kept : ∀ n, (kept stream admits n).Nodup
  | 0 => List.nodup_nil
  | n + 1 => by
    rw [kept]
    split_ifs with hmem hadmits
    · exact nodup_kept n
    · exact (nodup_kept n).append (List.nodup_singleton _) (by simpa using hmem)
    · exact nodup_kept n

theorem mem_kept : ∀ {n : ℕ} {a : α}, a ∈ kept stream admits n → ∃ m < n, a = stream m
  | 0, a, h => by cases h
  | n + 1, a, h => by
    have hprevious (h : a ∈ kept stream admits n) : ∃ m < n + 1, a = stream m := by
      obtain ⟨m, hm, rfl⟩ := mem_kept h
      exact ⟨m, by omega, rfl⟩
    rw [kept] at h
    split_ifs at h with hmem hadmits
    · exact hprevious h
    · rcases List.mem_append.1 h with h | h
      · exact hprevious h
      · exact ⟨n, by omega, List.mem_singleton.1 h⟩
    · exact hprevious h

theorem mem_or_refused {n : ℕ} (h : kept stream admits (n + 1) = kept stream admits n) :
    stream n ∈ kept stream admits n ∨ Refused stream admits n := by
  rw [kept] at h
  split_ifs at h with hmem hadmits
  · exact .inl hmem
  · have := congrArg List.length h
    simp at this
  · exact .inr ⟨hmem, by simpa using hadmits⟩

/-- What is kept short of a bound comes to an end. -/
theorem exists_constant {c : ℕ} (h : ∀ n, (kept stream admits n).length < c) :
    ∃ n, ∀ m, n ≤ m → kept stream admits m = kept stream admits n := by
  obtain ⟨n, hn⟩ : ∃ n, ∀ m, (kept stream admits m).length ≤ (kept stream admits n).length := by
    by_contra hnone
    push Not at hnone
    have hgrows (k : ℕ) : ∃ n, k ≤ (kept stream admits n).length := by
      induction k with
      | zero => exact ⟨0, Nat.zero_le _⟩
      | succ k ih =>
        obtain ⟨n, hn⟩ := ih
        obtain ⟨m, hm⟩ := hnone n
        exact ⟨m, by omega⟩
    obtain ⟨n, hn⟩ := hgrows c
    have := h n
    omega
  exact ⟨n, fun m hm =>
    ((kept_grows hm).eq_of_length (le_antisymm (length_kept_mono hm) (hn m))).symm⟩

/-- From some candidate on every one is a kept one, where none after it is refused. -/
theorem exists_repeats {c start : ℕ} (h : ∀ n, (kept stream admits n).length < c)
    (hrefused : ∀ n, start ≤ n → ¬ Refused stream admits n) :
    ∃ n, ∀ m, n ≤ m → stream m ∈ kept stream admits n := by
  obtain ⟨n, hn⟩ := exists_constant h
  refine ⟨max n start, fun m hm => ?_⟩
  have hsame : kept stream admits (m + 1) = kept stream admits m :=
    (hn (m + 1) (by omega)).trans (hn m (by omega)).symm
  rcases mem_or_refused hsame with hmem | href
  · exact (kept_grows (by omega : n ≤ max n start)).subset (hn m (by omega) ▸ hmem)
  · exact absurd href (hrefused m (by omega))

/-- Where every candidate from one on is a kept one, no more are kept. -/
theorem kept_of_repeats {n : ℕ} (h : ∀ m, n ≤ m → stream m ∈ kept stream admits n) {m : ℕ}
    (hm : n ≤ m) : kept stream admits m = kept stream admits n := by
  induction m, hm using Nat.le_induction with
  | base => rfl
  | succ m hm ih => rw [kept, ih, if_pos (h m hm)]

end Greedy
