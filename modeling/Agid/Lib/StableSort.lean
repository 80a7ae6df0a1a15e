import Mathlib

/-!
# Stable sorting by a preorder

Two elements that are each below the other tie, and a stable sort keeps those in the order they had.
So two lists are sorted to one where they have the same elements, and those that tie stand in the
same order in both.
-/

namespace StableSort

variable {α : Type*} (r : α → α → Prop) [DecidableRel r]

/-- The elements that tie with `c`. -/
def tied (c : α) (l : List α) : List α := l.filter fun a => r a c ∧ r c a

theorem tied_orderedInsert [IsTrans α r] (c a : α) : ∀ l : List α,
    tied r c (l.orderedInsert r a) = tied r c (a :: l)
  | [] => rfl
  | b :: l => by
    rw [List.orderedInsert_cons]
    split_ifs with hab
    · rfl
    · have hskip : ¬ ((r a c ∧ r c a) ∧ r b c ∧ r c b) := fun h =>
        hab (IsTrans.trans _ _ _ h.1.1 h.2.2)
      have ih := tied_orderedInsert c a l
      simp only [tied, List.filter_cons, decide_eq_true_eq] at ih ⊢
      rw [ih]
      split_ifs with hb ha
      · exact absurd ⟨ha, hb⟩ hskip
      all_goals rfl

theorem tied_insertionSort [IsTrans α r] (c : α) : ∀ l : List α,
    tied r c (l.insertionSort r) = tied r c l
  | [] => rfl
  | a :: l => by
    rw [List.insertionSort_cons, tied_orderedInsert]
    have ih := tied_insertionSort c l
    simp only [tied, List.filter_cons] at ih ⊢
    rw [ih]

variable {r}

theorem eq_of_sorted [Std.Total r] {l l' : List α} (hl : l.Pairwise r) (hl' : l'.Pairwise r)
    (hperm : l.Perm l') (htied : ∀ c, tied r c l = tied r c l') : l = l' := by
  induction l generalizing l' with
  | nil => exact hperm.nil_eq
  | cons a l ih =>
    rcases l' with _ | ⟨b, l'⟩
    · exact absurd hperm.eq_nil (List.cons_ne_nil a l)
    have hself (c : α) : r c c := (Std.Total.total c c).elim id id
    have hab : r a b := by
      rcases List.mem_cons.1 (hperm.mem_iff.2 List.mem_cons_self) with rfl | hb
      · exact hself b
      · exact (List.pairwise_cons.1 hl).1 b hb
    have hba : r b a := by
      rcases List.mem_cons.1 (hperm.mem_iff.1 List.mem_cons_self) with rfl | ha
      · exact hself a
      · exact (List.pairwise_cons.1 hl').1 a ha
    -- the two heads tie, so each is the first of its list that ties with `a`
    obtain rfl : a = b := by
      have h := htied a
      simp only [tied, List.filter_cons, hself a, hab, hba, and_self, decide_true, if_true,
        List.cons.injEq] at h
      exact h.1
    refine congrArg (a :: ·) (ih (List.Pairwise.of_cons hl) (List.Pairwise.of_cons hl')
      hperm.cons_inv fun c => ?_)
    have h := htied c
    simp only [tied, List.filter_cons] at h ⊢
    split_ifs at h
    · exact (List.cons.inj h).2
    · exact h

theorem insertionSort_eq_iff [Std.Total r] [IsTrans α r] {l l' : List α} :
    l.insertionSort r = l'.insertionSort r ↔ l.Perm l' ∧ ∀ c, tied r c l = tied r c l' := by
  constructor
  · intro h
    refine ⟨(List.perm_insertionSort r l).symm.trans (h ▸ List.perm_insertionSort r l'), fun c => ?_⟩
    rw [← tied_insertionSort r c l, h, tied_insertionSort]
  · rintro ⟨hperm, htied⟩
    refine eq_of_sorted (List.pairwise_insertionSort r l) (List.pairwise_insertionSort r l')
      ((List.perm_insertionSort r l).trans (hperm.trans (List.perm_insertionSort r l').symm))
      fun c => ?_
    rw [tied_insertionSort, tied_insertionSort, htied]

end StableSort
