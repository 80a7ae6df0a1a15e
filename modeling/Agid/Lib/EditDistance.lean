import Mathlib

/-!
# Edits of a list

How many single entries are to be inserted, deleted and substituted to make one list of another.
The distance by recursion on both lists is the least number of such edits.
-/

namespace EditDistance

variable {α : Type*}

/-- One entry is inserted, deleted or substituted. -/
inductive Edit : List α → List α → Prop
  | insert (a : α) (s : List α) : Edit s (a :: s)
  | delete (a : α) (s : List α) : Edit (a :: s) s
  | substitute (a b : α) (s : List α) : Edit (a :: s) (b :: s)
  | cons (a : α) {s t : List α} (h : Edit s t) : Edit (a :: s) (a :: t)

/-- So many edits, one after another. -/
inductive Edits : ℕ → List α → List α → Prop
  | refl (s : List α) : Edits 0 s s
  | step {n : ℕ} {s t u : List α} (edit : Edit s t) (edits : Edits n t u) : Edits (n + 1) s u

/-! ## Edits -/

theorem Edit.symm {s t : List α} (h : Edit s t) : Edit t s := by
  induction h with
  | insert a s => exact .delete a s
  | delete a s => exact .insert a s
  | substitute a b s => exact .substitute b a s
  | cons a _ ih => exact .cons a ih

theorem Edit.append {s t : List α} (h : Edit s t) (u : List α) : Edit (s ++ u) (t ++ u) := by
  induction h with
  | insert a s => exact .insert a _
  | delete a s => exact .delete a _
  | substitute a b s => exact .substitute a b _
  | cons a _ ih => exact .cons a ih

theorem Edit.append_left {s t : List α} (h : Edit s t) : ∀ u : List α, Edit (u ++ s) (u ++ t)
  | [] => h
  | a :: u => .cons a (h.append_left u)

theorem Edit.reverse {s t : List α} (h : Edit s t) : Edit s.reverse t.reverse := by
  induction h with
  | insert a s => simpa using (Edit.insert a []).append_left s.reverse
  | delete a s => simpa using (Edit.delete a []).append_left s.reverse
  | substitute a b s => simpa using (Edit.substitute a b []).append_left s.reverse
  | cons a _ ih => simpa using ih.append [a]

theorem Edits.trans {m n : ℕ} {s t u : List α} (h : Edits m s t) (h' : Edits n t u) :
    Edits (m + n) s u := by
  induction h with
  | refl s => rwa [Nat.zero_add]
  | step edit _ ih =>
    rw [Nat.add_right_comm]
    exact .step edit (ih h')

theorem Edits.single {s t : List α} (h : Edit s t) : Edits 1 s t := .step h (.refl t)

theorem Edits.cons {n : ℕ} {s t : List α} (h : Edits n s t) (a : α) :
    Edits n (a :: s) (a :: t) := by
  induction h with
  | refl s => exact .refl _
  | step edit _ ih => exact .step (.cons a edit) ih

theorem Edits.symm {n : ℕ} {s t : List α} (h : Edits n s t) : Edits n t s := by
  induction h with
  | refl s => exact .refl s
  | step edit _ ih => exact ih.trans (.single edit.symm)

theorem Edits.reverse {n : ℕ} {s t : List α} (h : Edits n s t) :
    Edits n s.reverse t.reverse := by
  induction h with
  | refl s => exact .refl _
  | step edit _ ih => exact .step edit.reverse ih

theorem edits_length (t : List α) : Edits t.length [] t := by
  induction t with
  | nil => exact .refl []
  | cons b t ih => exact .step (.insert b []) (ih.cons b)

/-! ## The distance -/

variable [DecidableEq α]

def distance : List α → List α → ℕ
  | [], t => t.length
  | a :: s, [] => (a :: s).length
  | a :: s, b :: t =>
    min (min (distance (a :: s) t + 1) (distance s (b :: t) + 1))
      (distance s t + if a = b then 0 else 1)

theorem distance_nil_left (t : List α) : distance [] t = t.length := by
  rw [distance]

theorem distance_nil (s : List α) : distance s [] = s.length := by
  cases s <;> rw [distance]

theorem distance_cons (a b : α) (s t : List α) : distance (a :: s) (b :: t)
    = min (min (distance (a :: s) t + 1) (distance s (b :: t) + 1))
      (distance s t + if a = b then 0 else 1) := by
  rw [distance]

theorem distance_self (s : List α) : distance s s = 0 := by
  induction s with
  | nil => rw [distance_nil, List.length_nil]
  | cons a s ih => simp [distance_cons, ih]

theorem distance_le_cons (s t : List α) (b : α) : distance s (b :: t) ≤ distance s t + 1 := by
  rcases s with _ | ⟨a, s⟩
  · rw [distance_nil_left, distance_nil_left, List.length_cons]
  · rw [distance_cons]
    omega

/-- An edit changes the distance by one at most. -/
theorem distance_le_of_edit {s s' : List α} (h : Edit s s') (t : List α) :
    distance s t ≤ distance s' t + 1 := by
  induction h generalizing t with
  | insert a s =>
    induction t with
    | nil => simp only [distance_nil, List.length_cons]; omega
    | cons b t ih =>
      have := distance_le_cons s t b
      rw [distance_cons]
      omega
  | delete a s =>
    cases t with
    | nil => simp only [distance_nil, List.length_cons]; omega
    | cons b t => rw [distance_cons]; omega
  | substitute a b s =>
    induction t with
    | nil => simp only [distance_nil, List.length_cons]; omega
    | cons c t ih => rw [distance_cons, distance_cons]; split_ifs <;> omega
  | cons a h ih =>
    rename_i s s'
    induction t with
    | nil =>
      have := ih []
      simp only [distance_nil, List.length_cons] at this ⊢
      omega
    | cons b t iht =>
      have := ih t
      have := ih (b :: t)
      rw [distance_cons, distance_cons]
      omega

theorem distance_le_of_edits {n : ℕ} {s t : List α} (h : Edits n s t) : distance s t ≤ n := by
  induction h with
  | refl s => rw [distance_self]
  | step edit _ ih => exact (distance_le_of_edit edit _).trans (Nat.succ_le_succ ih)

theorem edits_distance : ∀ s t : List α, Edits (distance s t) s t
  | [], t => by
    rw [distance_nil_left]
    exact edits_length t
  | a :: s, [] => by
    rw [distance_nil]
    exact (edits_length (a :: s)).symm
  | a :: s, b :: t => by
    have hinsert : Edits (distance (a :: s) t + 1) (a :: s) (b :: t) :=
      (edits_distance (a :: s) t).trans (.single (.insert b t))
    have hdelete : Edits (distance s (b :: t) + 1) (a :: s) (b :: t) :=
      .step (.delete a s) (edits_distance s (b :: t))
    have hsubstitute : Edits (distance s t + if a = b then 0 else 1) (a :: s) (b :: t) := by
      split_ifs with hab
      · exact hab ▸ (edits_distance s t).cons a
      · exact .step (.substitute a b s) ((edits_distance s t).cons b)
    rw [distance_cons]
    rcases min_choice (distance (a :: s) t + 1) (distance s (b :: t) + 1) with h | h <;>
      rcases min_choice (min (distance (a :: s) t + 1) (distance s (b :: t) + 1))
        (distance s t + if a = b then 0 else 1) with h' | h' <;> rw [h']
    · rwa [h]
    · exact hsubstitute
    · rwa [h]
    · exact hsubstitute

theorem distance_isLeast (s t : List α) : IsLeast {n | Edits n s t} (distance s t) :=
  ⟨edits_distance s t, fun _ h => distance_le_of_edits h⟩

/-- The lists may be read from their ends. -/
theorem distance_reverse (s t : List α) : distance s.reverse t.reverse = distance s t := by
  refine le_antisymm (distance_le_of_edits (edits_distance s t).reverse) ?_
  have h := (edits_distance s.reverse t.reverse).reverse
  rw [List.reverse_reverse, List.reverse_reverse] at h
  exact distance_le_of_edits h

theorem distance_comm (s t : List α) : distance s t = distance t s :=
  le_antisymm (distance_le_of_edits (edits_distance t s).symm)
    (distance_le_of_edits (edits_distance s t).symm)

theorem distance_eq_zero {s t : List α} : distance s t = 0 ↔ s = t := by
  constructor
  · intro h
    have hedits := edits_distance s t
    rw [h] at hedits
    cases hedits
    rfl
  · rintro rfl
    exact distance_self s

theorem distance_le_max (s t : List α) : distance s t ≤ max s.length t.length := by
  induction s generalizing t with
  | nil =>
    rw [distance_nil_left]
    exact Nat.le_max_right _ _
  | cons a s ih =>
    cases t with
    | nil =>
      rw [distance_nil]
      exact Nat.le_max_left _ _
    | cons b t =>
      have := ih t
      rw [distance_cons]
      simp only [List.length_cons]
      split_ifs <;> omega

end EditDistance
