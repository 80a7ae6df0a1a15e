import Mathlib

/-!
# Sorted sets

A set as the sorted list of its elements: equal sets are equal lists, and the first element is the
least.
-/

namespace SortedSet

variable {α : Type*} [LinearOrder α]

def ofList (l : List α) : List α := l.dedup.insertionSort (· ≤ ·)

@[simp] theorem mem_ofList {l : List α} {a : α} : a ∈ ofList l ↔ a ∈ l := by
  rw [ofList, List.mem_insertionSort, List.mem_dedup]

theorem ofList_congr {l l' : List α} (h : ∀ a, a ∈ l ↔ a ∈ l') : ofList l = ofList l' := by
  have hperm : l.dedup.Perm l'.dedup :=
    (List.perm_ext_iff_of_nodup (List.nodup_dedup _) (List.nodup_dedup _)).2 fun a => by
      rw [List.mem_dedup, List.mem_dedup, h]
  have hsort := (List.perm_insertionSort (· ≤ ·) _).trans
    (hperm.trans (List.perm_insertionSort (· ≤ ·) _).symm)
  exact hsort.eq_of_sortedLE List.sortedLE_insertionSort List.sortedLE_insertionSort

theorem head_ofList {l : List α} {a : α} :
    (ofList l).head? = some a ↔ a ∈ l ∧ ∀ b ∈ l, a ≤ b := by
  have hsorted : (ofList l).SortedLE := List.sortedLE_insertionSort
  have hmem : ∀ a, a ∈ l ↔ a ∈ ofList l := fun a => mem_ofList.symm
  simp only [hmem]
  generalize ofList l = sorted at hsorted
  cases sorted with
  | nil => simp
  | cons b rest =>
    have hb := (List.pairwise_cons.1 hsorted.pairwise).1
    simp only [List.head?_cons, Option.some.injEq, List.mem_cons, forall_eq_or_imp]
    constructor
    · rintro rfl
      exact ⟨Or.inl rfl, le_rfl, hb⟩
    · rintro ⟨rfl | hm, hle, -⟩
      · rfl
      · exact le_antisymm (hb a hm) hle

/-- Sets with one first element have it together. -/
theorem head_ofList_append {l l' : List α} (h : (ofList l).head? = (ofList l').head?) :
    (ofList (ofList l ++ ofList l')).head? = (ofList l).head? := by
  rcases hh : (ofList l).head? with _ | a
  · rw [hh] at h
    rw [List.head?_eq_none_iff] at hh
    rw [hh, List.head?_eq_none_iff.1 h.symm]
    rfl
  · rw [hh] at h
    obtain ⟨hm, hle⟩ := head_ofList.1 hh
    obtain ⟨-, hle'⟩ := head_ofList.1 h.symm
    refine head_ofList.2 ⟨List.mem_append_left _ (mem_ofList.2 hm), fun b hb => ?_⟩
    rcases List.mem_append.1 hb with hb | hb
    · exact hle b (mem_ofList.1 hb)
    · exact hle' b (mem_ofList.1 hb)

end SortedSet
