import Mathlib

/-!
# Registers over causal histories

Events carry vector clocks, and a register holds one event, its winner, with the clock of all it
has seen.  Two registers merge by their clocks; where neither has seen the other the later key
wins and the clocks are joined.

The merge is that of sets of events (`merge_holds`) unless an event is keyed before one it has
seen and a third event, apart from both, is too: such a triple has two results
(`Misordered.merge_left`, `Misordered.merge_right`).
-/

namespace Causal

/-- A set of events with their vector clocks, where to have seen a replica's count is to have seen
the event, and keys that tell the events apart. -/
structure History (E R K : Type*) where
  events : Set E
  replica : E → R
  clock : E → R → ℕ
  key : E → K
  causal : ∀ x ∈ events, ∀ y ∈ events, clock x (replica x) ≤ clock y (replica x) →
    clock x ≤ clock y
  pos : ∀ x ∈ events, 0 < clock x (replica x)
  clock_inj : Set.InjOn clock events
  key_inj : Set.InjOn key events

/-- A register: the event it holds and the clock of all it has seen. -/
@[ext] structure Cell (E R : Type*) where
  winner : E
  clock : R → ℕ

namespace History

variable {E R K : Type*} (H : History E R K)

/-- Neither event has seen the other. -/
def Apart (x y : E) : Prop := ¬ H.clock x ≤ H.clock y ∧ ¬ H.clock y ≤ H.clock x

/-- The event is one of `D` that no event of `D` has seen. -/
def Top (D : Finset E) (x : E) : Prop := x ∈ D ∧ ∀ d ∈ D, ¬ H.clock x < H.clock d

def cell (x : E) : Cell E R := ⟨x, H.clock x⟩

variable {H}

/-- To have seen an event's count at its replica is to have seen the event. -/
theorem exists_of_count_le {D : Finset E} (hD : ∀ d ∈ D, d ∈ H.events) {x : E}
    (hx : x ∈ H.events) (h : H.clock x (H.replica x) ≤ D.sup H.clock (H.replica x)) :
    ∃ d ∈ D, H.clock x ≤ H.clock d := by
  rw [Finset.sup_apply] at h
  obtain ⟨d, hd, hxd⟩ := (Finset.le_sup_iff (H.pos x hx)).1 h
  exact ⟨d, hd, H.causal x hx d (hD d hd) hxd⟩

theorem le_sup_iff {D : Finset E} (hD : ∀ d ∈ D, d ∈ H.events) {x : E} (hx : x ∈ H.events) :
    H.clock x ≤ D.sup H.clock ↔ ∃ d ∈ D, H.clock x ≤ H.clock d := by
  constructor
  · exact fun h => exists_of_count_le hD hx (h (H.replica x))
  · rintro ⟨d, hd, h⟩
    exact h.trans (Finset.le_sup hd)

theorem exists_top {D : Finset E} {d : E} (hd : d ∈ D) :
    ∃ m, H.Top D m ∧ H.clock d ≤ H.clock m := by
  classical
  obtain ⟨c, hdc, hmax⟩ := (D.image H.clock).exists_le_maximal (Finset.mem_image_of_mem _ hd)
  obtain ⟨m, hm, rfl⟩ := Finset.mem_image.1 hmax.prop
  exact ⟨m, ⟨hm, fun e he => hmax.not_gt (Finset.mem_image_of_mem _ he)⟩, hdc⟩

theorem Top.of_subset {D D' : Finset E} {x : E} (h : H.Top D' x) (hs : D ⊆ D') (hx : x ∈ D) :
    H.Top D x := ⟨hx, fun d hd => h.2 d (hs hd)⟩

theorem Apart.ne {x y : E} (h : H.Apart x y) : x ≠ y := by
  rintro rfl
  exact h.1 le_rfl

/-! ## Merging registers -/

variable [LinearOrder K] (H)

def later (x y : E) : E := if H.key y ≤ H.key x then x else y

open scoped Classical in
/-- What the register `c` holds after it has seen `d`. -/
noncomputable def merge (c d : Cell E R) : Cell E R :=
  if c.clock < d.clock then d
  else if d.clock ≤ c.clock then c
  else ⟨H.later c.winner d.winner, c.clock ⊔ d.clock⟩

/-- The register has seen the events `D`: it holds the latest of those none of them has seen. -/
structure Holds (D : Finset E) (c : Cell E R) : Prop where
  sub : ∀ d ∈ D, d ∈ H.events
  clock_eq : c.clock = D.sup H.clock
  top : H.Top D c.winner
  latest : ∀ d, H.Top D d → H.key d ≤ H.key c.winner

/-- `y` has seen `x` and has an earlier key, and so has `z`, apart from both. -/
structure Misordered (x y z : E) : Prop where
  seen : H.clock x < H.clock y
  apart_left : H.Apart z x
  apart_right : H.Apart z y
  key_seen : H.key y < H.key x
  key_apart : H.key z < H.key x

variable {H}

theorem holds_cell {x : E} (hx : x ∈ H.events) : H.Holds {x} (H.cell x) where
  sub d hd := by
    rw [Finset.mem_singleton] at hd
    exact hd ▸ hx
  clock_eq := by rw [Finset.sup_singleton]; rfl
  top := ⟨Finset.mem_singleton_self x, fun d hd => by
    rw [Finset.mem_singleton] at hd
    rw [hd]
    exact lt_irrefl _⟩
  latest d hd := by
    rw [Finset.mem_singleton.1 hd.1]
    rfl

/-- A register is a function of the events it has seen. -/
theorem Holds.unique {D : Finset E} {c d : Cell E R} (hc : H.Holds D c) (hd : H.Holds D d) :
    c = d := by
  have hkey : H.key c.winner = H.key d.winner :=
    le_antisymm (hd.latest _ hc.top) (hc.latest _ hd.top)
  have hw := H.key_inj (hc.sub _ hc.top.1) (hc.sub _ hd.top.1) hkey
  exact Cell.ext hw (hc.clock_eq.trans hd.clock_eq.symm)

theorem Holds.clock_le {D : Finset E} {c : Cell E R} (hc : H.Holds D c) {x : E} (hx : x ∈ D) :
    H.clock x ≤ c.clock := by
  rw [hc.clock_eq]
  exact Finset.le_sup hx

section Union

variable [DecidableEq E] {D D' : Finset E} {c d : Cell E R}

theorem sub_union (hc : H.Holds D c) (hd : H.Holds D' d) : ∀ x ∈ D ∪ D', x ∈ H.events := by
  intro x hx
  rcases Finset.mem_union.1 hx with hx | hx
  · exact hc.sub x hx
  · exact hd.sub x hx

/-- A register that has seen all the other has is that of both. -/
theorem holds_union_of_le (hc : H.Holds D c) (hd : H.Holds D' d) (h : c.clock ≤ d.clock) :
    H.Holds (D ∪ D') d := by
  have hseen : ∀ x ∈ D, ∃ e ∈ D', H.clock x ≤ H.clock e := by
    intro x hx
    have hxd := (hc.clock_le hx).trans h
    rw [hd.clock_eq] at hxd
    exact (le_sup_iff hd.sub (hc.sub x hx)).1 hxd
  refine ⟨sub_union hc hd, ?_, ⟨Finset.mem_union_right _ hd.top.1, fun x hx hlt => ?_⟩,
    fun x hx => ?_⟩
  · rw [Finset.sup_union, ← hc.clock_eq, ← hd.clock_eq]
    exact (sup_eq_right.2 h).symm
  · rcases Finset.mem_union.1 hx with hx | hx
    · obtain ⟨e, he, hxe⟩ := hseen x hx
      exact hd.top.2 e he (hlt.trans_le hxe)
    · exact hd.top.2 x hx hlt
  · have hx' : x ∈ D' := by
      rcases Finset.mem_union.1 hx.1 with hxD | hxD
      · obtain ⟨e, he, hxe⟩ := hseen x hxD
        have heq : H.clock x = H.clock e :=
          hxe.eq_of_not_lt (hx.2 e (Finset.mem_union_right _ he))
        exact H.clock_inj (hc.sub x hxD) (hd.sub e he) heq ▸ he
      · exact hxD
    exact hd.latest x (hx.of_subset Finset.subset_union_right hx')

variable (hmis : ∀ x ∈ D ∪ D', ∀ y ∈ D ∪ D', ∀ z ∈ D ∪ D', ¬ H.Misordered x y z)

include hmis in
/-- An event of the other register that has seen this one's winner has a later key: a third event,
one that only this register has seen, is apart from both. -/
theorem key_lt_of_seen (hc : H.Holds D c) (hd : H.Holds D' d) (h : ¬ c.clock ≤ d.clock) {y : E}
    (hy : y ∈ D') (hlt : H.clock c.winner < H.clock y) : H.key c.winner < H.key y := by
  obtain ⟨z, hz, hzd⟩ : ∃ z ∈ D, ¬ H.clock z ≤ d.clock := by
    by_contra hall
    push Not at hall
    exact h (hc.clock_eq ▸ Finset.sup_le hall)
  obtain ⟨t, ht, hzt⟩ := exists_top hz
  have htd : ¬ H.clock t ≤ d.clock := fun hle => hzd (hzt.trans hle)
  have hyd := hd.clock_le hy
  have hty : H.Apart t y :=
    ⟨fun hle => htd (hle.trans hyd), fun hle => hc.top.2 t ht.1 (hlt.trans_le hle)⟩
  have htc : H.Apart t c.winner := by
    refine ⟨fun hle => htd (hle.trans (hlt.le.trans hyd)), fun hle => ?_⟩
    have heq := hle.eq_of_not_lt (hc.top.2 t ht.1)
    exact htd (heq ▸ hlt.le.trans hyd)
  have hkt : H.key t < H.key c.winner :=
    lt_of_le_of_ne (hc.latest t ht)
      fun heq => htc.ne (H.key_inj (hc.sub t ht.1) (hc.sub _ hc.top.1) heq)
  have hky : ¬ H.key y < H.key c.winner := fun hk =>
    hmis _ (Finset.mem_union_left _ hc.top.1) _ (Finset.mem_union_right _ hy)
      _ (Finset.mem_union_left _ ht.1) ⟨hlt, htc, hty, hk, hkt⟩
  refine lt_of_le_of_ne (not_lt.1 hky) fun heq => ?_
  exact hlt.ne (congrArg H.clock (H.key_inj (hc.sub _ hc.top.1) (hd.sub y hy) heq))

include hmis in
theorem top_union_of_key_le (hc : H.Holds D c) (hd : H.Holds D' d) (h : ¬ c.clock ≤ d.clock)
    (hk : H.key d.winner ≤ H.key c.winner) : H.Top (D ∪ D') c.winner := by
  refine ⟨Finset.mem_union_left _ hc.top.1, fun y hy hlt => ?_⟩
  rcases Finset.mem_union.1 hy with hy | hy
  · exact hc.top.2 y hy hlt
  · obtain ⟨t, ht, hyt⟩ := exists_top hy
    have h1 := key_lt_of_seen hmis hc hd h ht.1 (hlt.trans_le hyt)
    exact absurd (h1.trans_le ((hd.latest t ht).trans hk)) (lt_irrefl _)

theorem key_le_of_top (hc : H.Holds D c) (hd : H.Holds D' d) {w x : E}
    (hw : H.key c.winner ≤ H.key w ∧ H.key d.winner ≤ H.key w) (hx : H.Top (D ∪ D') x) :
    H.key x ≤ H.key w := by
  rcases Finset.mem_union.1 hx.1 with hx' | hx'
  · exact (hc.latest x (hx.of_subset Finset.subset_union_left hx')).trans hw.1
  · exact (hd.latest x (hx.of_subset Finset.subset_union_right hx')).trans hw.2

include hmis in
/-- Merging registers is the union of what they have seen. -/
theorem merge_holds (hc : H.Holds D c) (hd : H.Holds D' d) : H.Holds (D ∪ D') (H.merge c d) := by
  unfold merge
  split_ifs with hlt hle
  · exact holds_union_of_le hc hd hlt.le
  · rw [Finset.union_comm]
    exact holds_union_of_le hd hc hle
  · have hncd : ¬ c.clock ≤ d.clock := fun h => hlt (lt_of_le_not_ge h hle)
    refine ⟨sub_union hc hd, by rw [Finset.sup_union, ← hc.clock_eq, ← hd.clock_eq], ?_, ?_⟩
    · unfold later
      simp only
      split_ifs with hk
      · exact top_union_of_key_le hmis hc hd hncd hk
      · rw [Finset.union_comm] at hmis ⊢
        exact top_union_of_key_le hmis hd hc hle (not_le.1 hk).le
    · intro x hx
      refine key_le_of_top hc hd ?_ hx
      unfold later
      split_ifs with hk
      · exact ⟨le_rfl, hk⟩
      · exact ⟨(not_le.1 hk).le, le_rfl⟩

end Union

/-! ## A triple with two results -/

section Misordered

variable {x y z : E}

theorem merge_of_seen {c d : Cell E R} (h : c.clock < d.clock) : H.merge c d = d := if_pos h

theorem merge_of_apart {c d : Cell E R} (h : ¬ c.clock ≤ d.clock) (h' : ¬ d.clock ≤ c.clock) :
    H.merge c d = ⟨H.later c.winner d.winner, c.clock ⊔ d.clock⟩ := by
  rw [merge, if_neg fun hlt => h hlt.le, if_neg h']

theorem later_eq (x y : E) : H.later x y = x ∨ H.later x y = y := by
  unfold later
  split_ifs
  · exact Or.inl rfl
  · exact Or.inr rfl

theorem merge_winner_or (c d : Cell E R) :
    (H.merge c d).winner = c.winner ∨ (H.merge c d).winner = d.winner := by
  unfold merge
  split_ifs
  · exact Or.inr rfl
  · exact Or.inl rfl
  · exact later_eq c.winner d.winner

/-- The winner of three events is one of them. -/
theorem merge_winner (x y z : E) :
    (H.merge (H.merge (H.cell x) (H.cell y)) (H.cell z)).winner = x
      ∨ (H.merge (H.merge (H.cell x) (H.cell y)) (H.cell z)).winner = y
      ∨ (H.merge (H.merge (H.cell x) (H.cell y)) (H.cell z)).winner = z := by
  rcases merge_winner_or (H := H) (H.merge (H.cell x) (H.cell y)) (H.cell z) with h | h <;> rw [h]
  · rcases merge_winner_or (H := H) (H.cell x) (H.cell y) with h | h <;> rw [h]
    · exact Or.inl rfl
    · exact Or.inr (Or.inl rfl)
  · exact Or.inr (Or.inr rfl)

/-- With the third event first the one seen stays. -/
theorem Misordered.merge_left (h : H.Misordered x y z) (hx : x ∈ H.events) (hy : y ∈ H.events)
    (hz : z ∈ H.events) : (H.merge (H.merge (H.cell z) (H.cell x)) (H.cell y)).winner = x := by
  classical
  have h1 : H.merge (H.cell z) (H.cell x) = ⟨x, H.clock z ⊔ H.clock x⟩ := by
    rw [merge_of_apart h.apart_left.1 h.apart_left.2]
    exact Cell.ext (if_neg (not_le.2 h.key_apart)) rfl
  have h2 : ¬ H.clock y ≤ H.clock z ⊔ H.clock x := by
    intro hle
    have hsup : H.clock y ≤ ({z, x} : Finset E).sup H.clock := by
      rw [Finset.sup_insert, Finset.sup_singleton]
      exact hle
    obtain ⟨d, hd, hyd⟩ := (le_sup_iff (by simp [hx, hz]) hy).1 hsup
    simp only [Finset.mem_insert, Finset.mem_singleton] at hd
    rcases hd with rfl | rfl
    · exact h.apart_right.2 hyd
    · exact hyd.not_gt h.seen
  rw [h1, merge_of_apart (fun hle => h.apart_right.1 (le_sup_left.trans hle)) h2]
  exact if_pos h.key_seen.le

theorem later_ne (h : H.Misordered x y z) : H.later y z ≠ x ∧ H.later z y ≠ x := by
  have hy : y ≠ x := fun he => h.seen.ne (congrArg H.clock he.symm)
  have hz : z ≠ x := h.apart_left.ne
  unfold later
  constructor <;> split_ifs <;> assumption

/-- With the two that have seen one another first it does not. -/
theorem Misordered.merge_right (h : H.Misordered x y z) :
    (H.merge (H.merge (H.cell x) (H.cell y)) (H.cell z)).winner ≠ x
      ∧ (H.merge (H.cell z) (H.merge (H.cell x) (H.cell y))).winner ≠ x := by
  have h1 : H.merge (H.cell x) (H.cell y) = H.cell y := merge_of_seen h.seen
  rw [h1, merge_of_apart h.apart_right.2 h.apart_right.1,
    merge_of_apart h.apart_right.1 h.apart_right.2]
  exact later_ne h

end Misordered

end History

end Causal
