import Mathlib.Data.List.Rotate
import Mathlib.Data.Multiset.AddSub
import Mathlib.Data.Sym.Sym2

/-!
# Closed lines

A ring is told without its last point, which is the first again; its closed line has it.  The closed
lines of a ring are those of its rotations, each in both directions, and they have the same edges.
-/

namespace Lines

variable {α : Type*}

/-- The line that ends where it starts. -/
def closed (ring : List α) : List α := ring ++ ring.take 1

/-- The edges of a line, of which the direction is left out. -/
def edges : List α → Multiset (Sym2 α)
  | [] => 0
  | [_] => 0
  | a :: b :: l => s(a, b) ::ₘ edges (b :: l)

/-- The ring that starts at the same point and goes the other way. -/
def back : List α → List α
  | [] => []
  | a :: l => a :: l.reverse

/-- The closed lines of a ring, from any point of it and either way. -/
def turns (ring : List α) : Set (List α) :=
  {line | ∃ r, r.IsRotated ring ∧ (line = closed r ∨ line = (closed r).reverse)}

variable {a : α} {l l' ring ring' line : List α}

/-! ## Edges -/

theorem edges_append_cons (a : α) (l' : List α) : ∀ l : List α,
    edges (l ++ a :: l') = edges (l ++ [a]) + edges (a :: l')
  | [] => (zero_add _).symm
  | [b] => by
    simp only [List.cons_append, List.nil_append, edges, Multiset.cons_add, zero_add]
  | b :: c :: l => by
    have ih := edges_append_cons a l' (c :: l)
    simp only [List.cons_append, edges, Multiset.cons_add] at ih ⊢
    rw [ih]

@[simp] theorem edges_reverse : ∀ l : List α, edges l.reverse = edges l
  | [] => rfl
  | [_] => rfl
  | a :: b :: l => by
    have ih := edges_reverse (b :: l)
    rw [List.reverse_cons] at ih
    rw [List.reverse_cons, List.reverse_cons, List.append_assoc, List.singleton_append,
      edges_append_cons, ih]
    simp only [edges, Multiset.add_cons, add_zero]
    rw [Sym2.eq_swap]

theorem edges_closed_append_comm : ∀ l l' : List α,
    edges (closed (l ++ l')) = edges (closed (l' ++ l))
  | [], l' => by simp
  | a :: l, [] => by simp
  | a :: l, b :: l' => by
    have hleft : closed (a :: l ++ b :: l') = (a :: l) ++ b :: (l' ++ [a]) := by simp [closed]
    have hright : closed (b :: l' ++ a :: l) = (b :: l') ++ a :: (l ++ [b]) := by simp [closed]
    rw [hleft, hright, edges_append_cons, edges_append_cons a, add_comm]
    rfl

theorem edges_closed_of_isRotated (h : ring.IsRotated ring') :
    edges (closed ring) = edges (closed ring') := by
  obtain ⟨n, hn, rfl⟩ := List.isRotated_iff_mod.1 h
  rw [List.rotate_eq_drop_append_take hn, edges_closed_append_comm, List.take_append_drop]

theorem edges_of_mem_turns (h : line ∈ turns ring) : edges line = edges (closed ring) := by
  obtain ⟨r, hr, rfl | rfl⟩ := h
  · exact edges_closed_of_isRotated hr
  · rw [edges_reverse]
    exact edges_closed_of_isRotated hr

/-! ## Turns -/

theorem closed_reverse : ∀ ring : List α, (closed ring).reverse = closed (back ring)
  | [] => rfl
  | a :: l => by simp [closed, back]

theorem back_isRotated : ∀ ring : List α, (back ring).IsRotated ring.reverse
  | [] => List.IsRotated.refl _
  | a :: l => by
    rw [List.reverse_cons]
    exact ⟨1, by simp [back, List.rotate_cons_succ]⟩

theorem turns_congr (h : ring.IsRotated ring') : turns ring = turns ring' :=
  Set.ext fun _ => exists_congr fun _ =>
    and_congr_left fun _ => ⟨fun hr => hr.trans h, fun hr => hr.trans h.symm⟩

theorem turns_back_subset : turns (back ring) ⊆ turns ring := by
  rintro line ⟨r, hr, hline⟩
  have hback : (back r).IsRotated ring := by
    have hreverse := (hr.trans (back_isRotated ring)).reverse
    rw [List.reverse_reverse] at hreverse
    exact (back_isRotated r).trans hreverse
  refine ⟨back r, hback, ?_⟩
  rw [← closed_reverse, List.reverse_reverse]
  exact hline.symm

theorem back_back : ∀ ring : List α, back (back ring) = ring
  | [] => rfl
  | a :: l => by simp [back]

theorem turns_back (ring : List α) : turns (back ring) = turns ring := by
  refine Set.Subset.antisymm turns_back_subset ?_
  have hsubset : turns (back (back ring)) ⊆ turns (back ring) := turns_back_subset
  rwa [back_back] at hsubset

theorem closed_inj (hne : ring ≠ []) (h : closed ring = closed ring') : ring = ring' := by
  have hlength : ring.length = ring'.length := by
    have hlengths := congrArg List.length h
    simp only [closed, List.length_append, List.length_take] at hlengths
    have hpos := List.length_pos_iff.2 hne
    omega
  exact (List.append_inj h hlength).1

/-- The turns of a ring are those of each of them. -/
theorem turns_of_mem (h : closed ring' ∈ turns ring) (hne : ring' ≠ []) :
    turns ring' = turns ring := by
  obtain ⟨r, hr, hclosed | hclosed⟩ := h
  · rw [closed_inj hne hclosed]
    exact turns_congr hr
  · rw [closed_reverse] at hclosed
    rw [closed_inj hne hclosed, turns_back]
    exact turns_congr hr

/-- A turn is a closed line of a ring with the same points. -/
theorem exists_closed_of_mem (h : line ∈ turns ring) :
    ∃ r, line = closed r ∧ ∀ a, a ∈ r ↔ a ∈ ring := by
  obtain ⟨r, hr, rfl | rfl⟩ := h
  · exact ⟨r, rfl, fun a => hr.mem_iff⟩
  · refine ⟨back r, closed_reverse r, fun a => ?_⟩
    rw [(back_isRotated r).mem_iff, List.mem_reverse, hr.mem_iff]

end Lines
