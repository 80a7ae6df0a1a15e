import Mathlib

/-!
# Numbered chains

A log whose entries are numbered from one and each carry the mark of the one before.  A writer
that read the last entry, however long ago, and whose entry has a number that is still free, adds
to the end of the chain.
-/

namespace Chain

variable {ε η : Type*} (number : ε → ℕ) (previous : ε → Option η) (mark : ε → η)

def Linked (l : List ε) : Prop :=
  ∀ i e, l[i]? = some e → number e = i + 1 ∧ previous e = (l.take i).getLast?.map mark

variable {number previous mark} {l : List ε} {e : ε}

theorem linked_nil : Linked number previous mark [] := by
  intro i e he
  cases he

theorem Linked.concat (h : Linked number previous mark l) (hn : number e = l.length + 1)
    (hp : previous e = l.getLast?.map mark) : Linked number previous mark (l ++ [e]) := by
  intro i b hb
  rcases lt_trichotomy i l.length with hi | rfl | hi
  · rw [List.getElem?_append_left hi] at hb
    rw [List.take_append_of_le_length hi.le]
    exact h i b hb
  · rw [List.getElem?_concat_length] at hb
    cases hb
    rw [List.take_left]
    exact ⟨hn, hp⟩
  · rw [List.getElem?_eq_none (by simp; omega)] at hb
    cases hb

theorem Linked.numbers (h : Linked number previous mark l) :
    l.map number = List.range' 1 l.length := by
  refine List.ext_getElem (by simp) fun i hi _ => ?_
  rw [List.length_map] at hi
  rw [List.getElem_map, List.getElem_range', (h i _ (List.getElem?_eq_getElem hi)).1]
  omega

theorem Linked.pairwise (h : Linked number previous mark l) :
    l.Pairwise fun a b => number a < number b := by
  rw [List.pairwise_iff_getElem]
  intro i j hi hj hij
  rw [(h i _ (List.getElem?_eq_getElem hi)).1, (h j _ (List.getElem?_eq_getElem hj)).1]
  omega

/-- What is added after an entry read earlier, under a number nobody has, comes last. -/
theorem Linked.concat_of_read (h : Linked number previous mark l) {read : Option ε}
    (hread : ∀ r, read = some r → r ∈ l) (hn : number e = (read.map number).getD 0 + 1)
    (hp : previous e = read.map mark) (hfree : ∀ b ∈ l, number b ≠ number e) :
    Linked number previous mark (l ++ [e]) := by
  have hlast : ∀ i, number e = i + 1 → l.length ≤ i := fun i hi => by
    by_contra hlt
    have hget := List.getElem?_eq_getElem (not_le.1 hlt)
    exact hfree _ (List.getElem_mem _) ((h i _ hget).1.trans hi.symm)
  rcases read with _ | r
  · have hnil : l = [] := List.length_eq_zero_iff.1 (Nat.le_zero.1 (hlast 0 hn))
    subst hnil
    exact h.concat hn hp
  · obtain ⟨i, hi, rfl⟩ := List.mem_iff_getElem.1 (hread r rfl)
    have hnum := (h i _ (List.getElem?_eq_getElem hi)).1
    rw [Option.map_some, Option.getD_some, hnum] at hn
    have hlen : l.length = i + 1 := le_antisymm (hlast (i + 1) hn) hi
    refine h.concat (by omega) ?_
    rw [hp, List.getLast?_eq_getElem?, hlen, Nat.add_sub_cancel, List.getElem?_eq_getElem hi]

end Chain
