import Mathlib

/-!
# Greedy groups

Items are taken in turn, and each joins the first group that it fits, or begins a group of its own.
The groups hold what was taken, each item as often as it was there, and what is kept when an item
joins a group it fits holds of every group.
-/

namespace GreedyGroups

variable {α : Type*} (fits : α → List α → Bool)

/-- The groups after an item. -/
def join (x : α) : List (List α) → List (List α)
  | [] => [[x]]
  | group :: groups => if fits x group then (group ++ [x]) :: groups else group :: join x groups

def groups (items : List α) : List (List α) := items.foldl (fun groups x => join fits x groups) []

variable {fits}

theorem perm_join (x : α) : ∀ gs : List (List α),
    (join fits x gs).flatten.Perm (gs.flatten ++ [x])
  | [] => .refl _
  | group :: gs => by
    unfold join
    split_ifs
    · rw [List.flatten_cons, List.flatten_cons, List.append_assoc, List.append_assoc]
      exact List.perm_append_comm.append_left group
    · rw [List.flatten_cons, List.flatten_cons, List.append_assoc]
      exact (perm_join x gs).append_left group

theorem forall_join {p : List α → Prop} {x : α} (hnew : p [x])
    (hadd : ∀ group, fits x group = true → p group → p (group ++ [x])) :
    ∀ {gs : List (List α)}, (∀ g ∈ gs, p g) → ∀ g ∈ join fits x gs, p g
  | [], _, g, hg => by
    obtain rfl := List.mem_singleton.1 hg
    exact hnew
  | group :: gs, h, g, hg => by
    have hgroup := h group List.mem_cons_self
    have hgs : ∀ g ∈ gs, p g := fun g hg => h g (List.mem_cons_of_mem group hg)
    unfold join at hg
    split_ifs at hg with hfits
    · rcases List.mem_cons.1 hg with rfl | hg
      · exact hadd group hfits hgroup
      · exact hgs g hg
    · rcases List.mem_cons.1 hg with rfl | hg
      · exact hgroup
      · exact forall_join hnew hadd hgs g hg

theorem groups_concat (items : List α) (x : α) :
    groups fits (items ++ [x]) = join fits x (groups fits items) := by
  rw [groups, List.foldl_append]
  rfl

/-- The groups hold the items. -/
theorem perm_groups (items : List α) : (groups fits items).flatten.Perm items := by
  induction items using List.reverseRecOn with
  | nil => exact .refl _
  | append_singleton items x ih =>
    rw [groups_concat]
    exact (perm_join x _).trans (ih.append_right [x])

theorem forall_groups {p : List α → Prop} (hnew : ∀ x, p [x])
    (hadd : ∀ x group, fits x group = true → p group → p (group ++ [x])) (items : List α) :
    ∀ g ∈ groups fits items, p g := by
  induction items using List.reverseRecOn with
  | nil => exact fun g hg => absurd hg List.not_mem_nil
  | append_singleton items x ih =>
    rw [groups_concat]
    exact forall_join (hnew x) (hadd x) ih

theorem mem_of_mem_groups {items group : List α} (h : group ∈ groups fits items) {x : α}
    (hx : x ∈ group) : x ∈ items :=
  (perm_groups items).mem_iff.1 (List.mem_flatten_of_mem h hx)

theorem ne_nil_of_mem_groups {items group : List α} (h : group ∈ groups fits items) :
    group ≠ [] :=
  forall_groups (p := fun g => g ≠ []) (fun x => List.cons_ne_nil x [])
    (fun _ _ _ _ => by simp) items group h

/-- A relation to each member that an item has when it fits holds between the members. -/
theorem pairwise_groups {r : α → α → Prop}
    (h : ∀ x group, fits x group = true → ∀ y ∈ group, r y x) (items : List α) :
    ∀ g ∈ groups fits items, g.Pairwise r := by
  refine forall_groups (fun x => List.pairwise_singleton r x) (fun x group hfits hgroup => ?_) items
  refine List.pairwise_append.2 ⟨hgroup, List.pairwise_singleton r x, fun y hy z hz => ?_⟩
  obtain rfl := List.mem_singleton.1 hz
  exact h z group hfits y hy

end GreedyGroups
