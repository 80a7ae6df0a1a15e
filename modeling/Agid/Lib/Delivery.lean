import Mathlib

/-!
# Deliveries

A delivery of some messages is a list of them in which each comes at least once, and never before
the messages it has to follow.  A strict order always has one, and what has been delivered may be
delivered again.
-/

namespace Delivery

variable {E : Type*}

/-- The list delivers `S`, and before each message all that it follows. -/
structure Delivers (follows : E → E → Prop) (S l : List E) : Prop where
  mem : ∀ x, x ∈ l ↔ x ∈ S
  order : ∀ l₁ y l₂, l = l₁ ++ y :: l₂ → ∀ x ∈ S, follows x y → x ∈ l₁

variable {follows : E → E → Prop} {S l : List E}

theorem Delivers.again (h : Delivers follows S l) {x : E} (hx : x ∈ S) :
    Delivers follows S (l ++ [x]) where
  mem y := by
    rw [List.mem_append, List.mem_singleton, h.mem]
    constructor
    · rintro (hy | rfl)
      · exact hy
      · exact hx
    · exact Or.inl
  order l₁ y l₂ he z hz hzy := by
    rcases List.append_eq_append_iff.1 he with ⟨t, rfl, ht⟩ | ⟨t, rfl, ht⟩
    · cases t with
      | nil => simpa using (h.mem z).2 hz
      | cons u t => simp at ht
    · cases t with
      | nil => simpa using (h.mem z).2 hz
      | cons u t =>
        obtain ⟨rfl, -⟩ := List.cons.inj ht
        exact h.order l₁ y t rfl z hz hzy

/-- The last of a list of messages may be one that no message follows. -/
theorem exists_delivers (hirr : ∀ x, ¬ follows x x)
    (htrans : ∀ x y z, follows x y → follows y z → follows x z) :
    ∀ S : Finset E, ∃ l, Delivers follows S.toList l := by
  classical
  intro S
  induction S using Finset.strongInduction with
  | _ S ih =>
    rcases S.eq_empty_or_nonempty with rfl | hne
    · exact ⟨[], by simp, fun l₁ y l₂ h => by simp at h⟩
    · let _ : Preorder E :=
        { le := fun x y => x = y ∨ follows x y
          le_refl := fun x => Or.inl rfl
          le_trans := by
            rintro x y z (rfl | hxy) (rfl | hyz)
            · exact Or.inl rfl
            · exact Or.inr hyz
            · exact Or.inr hxy
            · exact Or.inr (htrans _ _ _ hxy hyz) }
      obtain ⟨m, hm, hmax⟩ := S.exists_maximal hne
      have hlast : ∀ y ∈ S, ¬ follows m y := by
        intro y hy hmy
        rcases hmax hy (Or.inr hmy) with rfl | hym
        · exact hirr _ hmy
        · exact hirr _ (htrans _ _ _ hmy hym)
      obtain ⟨l, hl⟩ := ih (S.erase m) (Finset.erase_ssubset hm)
      refine ⟨l ++ [m], fun x => ?_, fun l₁ y l₂ he x hx hxy => ?_⟩
      · rw [List.mem_append, List.mem_singleton, hl.mem, Finset.mem_toList, Finset.mem_toList,
          Finset.mem_erase]
        by_cases hxm : x = m
        · simp [hxm, hm]
        · simp [hxm]
      · have hxl : y ∈ S → x ∈ l := by
          intro hy
          rw [hl.mem, Finset.mem_toList, Finset.mem_erase]
          exact ⟨fun h => hlast y hy (h ▸ hxy), Finset.mem_toList.1 hx⟩
        rcases List.append_eq_append_iff.1 he with ⟨t, rfl, ht⟩ | ⟨t, rfl, ht⟩
        · cases t with
          | nil =>
            simp only [List.nil_append, List.cons.injEq] at ht
            simpa using hxl (ht.1 ▸ hm)
          | cons u t => simp at ht
        · cases t with
          | nil =>
            simp only [List.nil_append, List.cons.injEq] at ht
            simpa using hxl (ht.1.symm ▸ hm)
          | cons u t =>
            obtain ⟨rfl, -⟩ := List.cons.inj ht
            have hyS : y ∈ S := by
              have := (hl.mem y).1 (by simp)
              exact Finset.mem_of_mem_erase (Finset.mem_toList.1 this)
            refine hl.order l₁ y t rfl x ?_ hxy
            exact (hl.mem x).1 (hxl hyS)

/-- With two messages of which one follows the other, and none other does, the two may come in
their order anywhere. -/
theorem delivers_of_only {x y : E} (honly : ∀ a ∈ S, ∀ b ∈ S, follows a b → a = x ∧ b = y)
    (hmem : ∀ a, a ∈ l ↔ a ∈ S) {u v : List E} (hl : l = u ++ y :: v) (hx : x ∈ u) (hy : y ∉ u) :
    Delivers follows S l where
  mem := hmem
  order l₁ b l₂ he a ha hab := by
    have hb : b ∈ S := (hmem b).1 (he ▸ by simp)
    obtain ⟨rfl, rfl⟩ := honly a ha b hb hab
    rcases List.append_eq_append_iff.1 (hl.symm.trans he) with ⟨t, rfl, -⟩ | ⟨t, rfl, ht⟩
    · exact List.mem_append_left t hx
    · cases t with
      | nil => simpa using hx
      | cons c t =>
        obtain ⟨rfl, -⟩ := List.cons.inj ht
        exact absurd (List.mem_append_right l₁ List.mem_cons_self) hy

end Delivery
