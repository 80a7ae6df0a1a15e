import Mathlib

/-!
# Grids cut into triangles

A grid of cells between nodes, each cell cut along one of its two diagonals, whichever.  Each
triangle goes round its corners the same way.  An edge of one triangle that is not on the border of
the grid is an edge of one other, which goes along it the other way, and where the rows and the
columns of nodes stand at ascending places, the triangles lie side by side and cover the grid.
-/

namespace GridMesh

/-! ## Triangles and their edges -/

section Conforming

variable {α β : Type*}

/-- The edges of a triangle, in the way it goes round. -/
def edges (t : α × α × α) : List (α × α) := [(t.1, t.2.1), (t.2.1, t.2.2), (t.2.2, t.1)]

variable {K : Type*} [Field K]

/-- Twice the area of the triangle of an edge and a point, which is positive where the point is on
the left of the edge. -/
def side (place : α → K × K) (e : α × α) (p : K × K) : K :=
  ((place e.2).1 - (place e.1).1) * (p.2 - (place e.1).2)
    - ((place e.2).2 - (place e.1).2) * (p.1 - (place e.1).1)

theorem side_swap (place : α → K × K) (e : α × α) (p : K × K) :
    side place e.swap p = -side place e p := by
  simp only [side, Prod.swap]
  ring

variable [DecidableEq α] [DecidableEq β]

/-- How many triangles go along an edge this way. -/
def sharing (ts : List (α × α × α)) (e : α × α) : ℕ := ts.countP (e ∈ edges ·)

theorem sharing_eq_one {ts : List (α × α × α)} {t : α × α × α} {e : α × α} (hts : ts.Nodup)
    (ht : t ∈ ts) (he : e ∈ edges t) (hunique : ∀ t' ∈ ts, e ∈ edges t' → t' = t) :
    sharing ts e = 1 := by
  refine le_antisymm ?_ (List.countP_pos_iff.2 ⟨t, ht, by simpa using he⟩)
  rw [sharing, List.countP_eq_length_filter]
  have honly : ts.filter (e ∈ edges ·) ⊆ [t] := by
    intro t' ht'
    obtain ⟨ht', he'⟩ := List.mem_filter.1 ht'
    exact List.mem_singleton.2 (hunique t' ht' (by simpa using he'))
  exact (List.subperm_of_subset (hts.filter _) honly).length_le

theorem sharing_eq_zero {ts : List (α × α × α)} {e : α × α} (h : ∀ t ∈ ts, e ∉ edges t) :
    sharing ts e = 0 :=
  List.countP_eq_zero.2 fun t ht he => h t ht (by simpa using he)

variable [LinearOrder K]

def Contains (place : α → K × K) (t : α × α × α) (p : K × K) : Prop :=
  ∀ e ∈ edges t, 0 ≤ side place e p

def Inside (place : α → K × K) (t : α × α × α) (p : K × K) : Prop :=
  ∀ e ∈ edges t, 0 < side place e p

/-- The triangles all turn left.  Each edge is one of one triangle, and unless it is on the border
of one other, which goes along it the other way.  They fill the extent, side by side. -/
structure Conforming (place : α → K × K) (border : α × α → Prop) (extent : Set (K × K))
    (ts : List (α × α × α)) : Prop where
  oriented : ∀ t ∈ ts, 0 < side place (t.1, t.2.1) (place t.2.2)
  once : ∀ t ∈ ts, ∀ e ∈ edges t, sharing ts e = 1
  interior : ∀ t ∈ ts, ∀ e ∈ edges t, ¬ border e → sharing ts e.swap = 1
  border : ∀ t ∈ ts, ∀ e ∈ edges t, border e → sharing ts e.swap = 0
  covers : ∀ p ∈ extent, ∃ t ∈ ts, Contains place t p
  within : ∀ t ∈ ts, ∀ p, Contains place t p → p ∈ extent
  apart : ∀ t ∈ ts, ∀ t' ∈ ts, ∀ p, Inside place t p → Inside place t' p → t = t'

def mapTriangle (f : α → β) (t : α × α × α) : β × β × β := (f t.1, f t.2.1, f t.2.2)

omit [DecidableEq α] [DecidableEq β] in
theorem edges_mapTriangle (f : α → β) (t : α × α × α) :
    edges (mapTriangle f t) = (edges t).map (Prod.map f f) := rfl

/-- The corners may be given other names. -/
theorem Conforming.map {place : α → K × K} {place' : β → K × K} {border : α × α → Prop}
    {border' : β × β → Prop} {extent : Set (K × K)} {ts : List (α × α × α)}
    (h : Conforming place border extent ts) (f : α → β) (s : Set α)
    (hs : ∀ t ∈ ts, ∀ e ∈ edges t, e.1 ∈ s ∧ e.2 ∈ s) (hf : s.InjOn f)
    (hplace : ∀ a ∈ s, place' (f a) = place a)
    (hborder : ∀ a ∈ s, ∀ b ∈ s, border' (f a, f b) ↔ border (a, b)) :
    Conforming place' border' extent (ts.map (mapTriangle f)) := by
  have hside {e : α × α} (he : e.1 ∈ s ∧ e.2 ∈ s) (p : K × K) :
      side place' (e.map f f) p = side place e p := by
    simp only [side, Prod.map, hplace _ he.1, hplace _ he.2]
  have hcount {e : α × α} (he : e.1 ∈ s ∧ e.2 ∈ s) :
      sharing (ts.map (mapTriangle f)) (e.map f f) = sharing ts e := by
    rw [sharing, List.countP_map]
    refine List.countP_congr fun t ht => ?_
    simp only [Function.comp_apply, edges_mapTriangle, decide_eq_true_eq, List.mem_map]
    constructor
    · rintro ⟨e', he', heq⟩
      obtain ⟨h1, h2⟩ := Prod.mk.inj heq
      rwa [← Prod.ext (hf (hs t ht e' he').1 he.1 h1) (hf (hs t ht e' he').2 he.2 h2)]
    · exact fun h => ⟨e, h, rfl⟩
  have hmem {t : β × β × β} (ht : t ∈ ts.map (mapTriangle f)) :
      ∃ t' ∈ ts, mapTriangle f t' = t := List.mem_map.1 ht
  have hedge {t : α × α × α} {e : β × β} (he : e ∈ edges (mapTriangle f t)) :
      ∃ e' ∈ edges t, e'.map f f = e := List.mem_map.1 he
  have hcontains {t : α × α × α} (ht : t ∈ ts) (p : K × K) :
      Contains place' (mapTriangle f t) p ↔ Contains place t p := by
    unfold Contains
    rw [edges_mapTriangle, List.forall_mem_map]
    exact forall₂_congr fun e he => by rw [hside (hs t ht e he)]
  have hinside {t : α × α × α} (ht : t ∈ ts) (p : K × K) :
      Inside place' (mapTriangle f t) p ↔ Inside place t p := by
    unfold Inside
    rw [edges_mapTriangle, List.forall_mem_map]
    exact forall₂_congr fun e he => by rw [hside (hs t ht e he)]
  have hswap {t : α × α × α} (ht : t ∈ ts) {e : α × α} (he : e ∈ edges t) :
      sharing (ts.map (mapTriangle f)) (e.map f f).swap = sharing ts e.swap :=
    hcount (e := e.swap) (hs t ht e he).symm
  constructor
  · intro u hu
    obtain ⟨t, ht, rfl⟩ := hmem hu
    have hfirst := hs t ht (t.1, t.2.1) (by simp [edges])
    have hlast := (hs t ht (t.2.1, t.2.2) (by simp [edges])).2
    have hleft := h.oriented t ht
    rw [← hplace _ hlast, ← hside hfirst] at hleft
    exact hleft
  · intro u hu e' he'
    obtain ⟨t, ht, rfl⟩ := hmem hu
    obtain ⟨e, he, rfl⟩ := hedge he'
    rw [hcount (hs t ht e he)]
    exact h.once t ht e he
  · intro u hu e' he' hinterior
    obtain ⟨t, ht, rfl⟩ := hmem hu
    obtain ⟨e, he, rfl⟩ := hedge he'
    have hends := hs t ht e he
    rw [hswap ht he]
    exact h.interior t ht e he fun hb => hinterior ((hborder _ hends.1 _ hends.2).2 hb)
  · intro u hu e' he' hb
    obtain ⟨t, ht, rfl⟩ := hmem hu
    obtain ⟨e, he, rfl⟩ := hedge he'
    have hends := hs t ht e he
    rw [hswap ht he]
    exact h.border t ht e he ((hborder _ hends.1 _ hends.2).1 hb)
  · intro p hp
    obtain ⟨t, ht, hcovers⟩ := h.covers p hp
    exact ⟨_, List.mem_map_of_mem ht, (hcontains ht p).2 hcovers⟩
  · intro u hu p hp
    obtain ⟨t, ht, rfl⟩ := hmem hu
    exact h.within t ht p ((hcontains ht p).1 hp)
  · intro u hu u' hu' p hp hp'
    obtain ⟨t, ht, rfl⟩ := hmem hu
    obtain ⟨t', ht', rfl⟩ := hmem hu'
    rw [h.apart t ht t' ht' p ((hinside ht p).1 hp) ((hinside ht' p).1 hp')]

end Conforming

/-! ## The grid -/

/-- A node, by its row and its column. -/
abbrev Node := ℕ × ℕ

abbrev Triangle := Node × Node × Node

/-- The triangles of the cell whose first corner is in a row and a column. -/
def cellTriangles (rising : Bool) (row column : ℕ) : List Triangle :=
  if rising then
    [((row, column), (row + 1, column), (row, column + 1)),
      ((row, column + 1), (row + 1, column), (row + 1, column + 1))]
  else
    [((row, column), (row + 1, column), (row + 1, column + 1)),
      ((row, column), (row + 1, column + 1), (row, column + 1))]

/-- The triangles of a grid with so many rows and columns of cells. -/
def triangles (rising : ℕ → ℕ → Bool) (rows columns : ℕ) : List Triangle :=
  (List.range rows).flatMap fun row =>
    (List.range columns).flatMap fun column => cellTriangles (rising row column) row column

variable {rising : ℕ → ℕ → Bool} {rows columns : ℕ}

theorem mem_triangles {t : Triangle} : t ∈ triangles rising rows columns
    ↔ ∃ row < rows, ∃ column < columns, t ∈ cellTriangles (rising row column) row column := by
  simp only [triangles, List.mem_flatMap, List.mem_range]

theorem length_triangles : (triangles rising rows columns).length = 2 * rows * columns := by
  have hcell : ∀ row column, (cellTriangles (rising row column) row column).length = 2 := by
    intro row column
    unfold cellTriangles
    split_ifs <;> rfl
  simp only [triangles, List.length_flatMap, hcell, List.map_const', List.length_range,
    List.sum_replicate, smul_eq_mul]
  ring

/-! ## Edges -/

/-- The corners of the cell that has an edge on its left, going along it this way. -/
def ownerRow (e : Node × Node) : ℕ :=
  if e.1.1 = e.2.1 then if e.1.2 < e.2.2 then e.1.1 - 1 else e.1.1 else min e.1.1 e.2.1

def ownerColumn (e : Node × Node) : ℕ :=
  if e.1.2 = e.2.2 then if e.1.1 < e.2.1 then e.1.2 else e.1.2 - 1 else min e.1.2 e.2.2

/-- An edge tells which cell it is of. -/
theorem owner_of_mem {cut : Bool} {row column : ℕ} {t : Triangle} {e : Node × Node}
    (ht : t ∈ cellTriangles cut row column) (he : e ∈ edges t) :
    ownerRow e = row ∧ ownerColumn e = column := by
  unfold cellTriangles at ht
  split_ifs at ht
  all_goals
    simp only [List.mem_cons, List.not_mem_nil, or_false] at ht
    rcases ht with rfl | rfl
  all_goals
    simp only [edges, List.mem_cons, List.not_mem_nil, or_false] at he
    rcases he with rfl | rfl | rfl <;> simp [ownerRow, ownerColumn]

theorem eq_of_mem_cell {cut : Bool} {row column : ℕ} {t t' : Triangle} {e : Node × Node}
    (ht : t ∈ cellTriangles cut row column) (ht' : t' ∈ cellTriangles cut row column)
    (he : e ∈ edges t) (he' : e ∈ edges t') : t = t' := by
  unfold cellTriangles at ht ht'
  split_ifs at ht ht'
  all_goals
    simp only [List.mem_cons, List.not_mem_nil, or_false] at ht ht'
    rcases ht with rfl | rfl <;> rcases ht' with rfl | rfl
  all_goals first
    | rfl
    | simp only [edges, List.mem_cons, List.not_mem_nil, or_false] at he he'
      rcases he with rfl | rfl | rfl <;> simp at he'

/-- An edge is one of one triangle, going along it this way. -/
theorem eq_of_mem_edges {t t' : Triangle} {e : Node × Node}
    (ht : t ∈ triangles rising rows columns) (ht' : t' ∈ triangles rising rows columns)
    (he : e ∈ edges t) (he' : e ∈ edges t') : t = t' := by
  obtain ⟨row, -, column, -, ht⟩ := mem_triangles.1 ht
  obtain ⟨row', -, column', -, ht'⟩ := mem_triangles.1 ht'
  obtain ⟨rfl, rfl⟩ := owner_of_mem ht he
  obtain ⟨hrow, hcolumn⟩ := owner_of_mem ht' he'
  rw [← hrow, ← hcolumn] at ht'
  exact eq_of_mem_cell ht ht' he he'

theorem nodup_cell (cut : Bool) (row column : ℕ) : (cellTriangles cut row column).Nodup := by
  unfold cellTriangles
  split_ifs <;> simp

theorem nodup_triangles : (triangles rising rows columns).Nodup := by
  have hedge (t : Triangle) : (t.1, t.2.1) ∈ edges t := List.mem_cons_self
  refine List.nodup_flatMap.2 ⟨fun row _ => List.nodup_flatMap.2 ⟨fun column _ =>
    nodup_cell _ _ _, ?_⟩, ?_⟩
  · refine List.nodup_range.imp fun {column column'} hne t ht ht' => hne ?_
    rw [← (owner_of_mem ht (hedge t)).2, (owner_of_mem ht' (hedge t)).2]
  · refine List.nodup_range.imp fun {row row'} hne t ht ht' => hne ?_
    obtain ⟨_, -, ht⟩ := List.mem_flatMap.1 ht
    obtain ⟨_, -, ht'⟩ := List.mem_flatMap.1 ht'
    rw [← (owner_of_mem ht (hedge t)).1, (owner_of_mem ht' (hedge t)).1]

/-- Both ends in the first or the last row of nodes, or in the first or the last column. -/
def OnBorder (rows columns : ℕ) (e : Node × Node) : Prop :=
  (e.1.1 = 0 ∧ e.2.1 = 0) ∨ (e.1.1 = rows ∧ e.2.1 = rows)
    ∨ (e.1.2 = 0 ∧ e.2.2 = 0) ∨ (e.1.2 = columns ∧ e.2.2 = columns)

instance : DecidablePred (OnBorder rows columns) := fun _ =>
  inferInstanceAs (Decidable (_ ∨ _))

/-- Some triangle has the edge. -/
def IsEdge (rising : ℕ → ℕ → Bool) (rows columns : ℕ) (e : Node × Node) : Prop :=
  ∃ t ∈ triangles rising rows columns, e ∈ edges t

/-- The edges of a grid: the four sides of a cell, and its diagonal both ways. -/
theorem isEdge_iff {e : Node × Node} : IsEdge rising rows columns e
    ↔ ∃ row < rows, ∃ column < columns,
      e = ((row, column), (row + 1, column)) ∨ e = ((row + 1, column), (row + 1, column + 1))
        ∨ e = ((row + 1, column + 1), (row, column + 1)) ∨ e = ((row, column + 1), (row, column))
        ∨ (rising row column = true ∧ (e = ((row + 1, column), (row, column + 1))
          ∨ e = ((row, column + 1), (row + 1, column))))
        ∨ (rising row column = false ∧ (e = ((row, column), (row + 1, column + 1))
          ∨ e = ((row + 1, column + 1), (row, column)))) := by
  constructor
  · rintro ⟨t, ht, he⟩
    obtain ⟨row, hrow, column, hcolumn, ht⟩ := mem_triangles.1 ht
    refine ⟨row, hrow, column, hcolumn, ?_⟩
    unfold cellTriangles at ht
    split_ifs at ht with hcut
    all_goals
      simp only [List.mem_cons, List.not_mem_nil, or_false] at ht
      rcases ht with rfl | rfl
    all_goals
      simp only [edges, List.mem_cons, List.not_mem_nil, or_false] at he
      rcases he with rfl | rfl | rfl <;> simp [hcut]
  · rintro ⟨row, hrow, column, hcolumn, he⟩
    have hmem {t : Triangle} (ht : t ∈ cellTriangles (rising row column) row column) :
        t ∈ triangles rising rows columns :=
      mem_triangles.2 ⟨row, hrow, column, hcolumn, ht⟩
    unfold cellTriangles at hmem
    rcases hcut : rising row column with _ | _
    all_goals
      simp only [hcut, Bool.false_eq_true, if_false, if_true, List.mem_cons, List.not_mem_nil,
        or_false, forall_eq_or_imp, forall_eq] at hmem
      simp only [hcut, reduceCtorEq, true_and, false_and, or_false, false_or] at he
      obtain ⟨hfirst, hsecond⟩ := hmem
      rcases he with rfl | rfl | rfl | rfl | rfl | rfl
    · exact ⟨_, hfirst, by simp [edges]⟩
    · exact ⟨_, hfirst, by simp [edges]⟩
    · exact ⟨_, hsecond, by simp [edges]⟩
    · exact ⟨_, hsecond, by simp [edges]⟩
    · exact ⟨_, hsecond, by simp [edges]⟩
    · exact ⟨_, hfirst, by simp [edges]⟩
    · exact ⟨_, hfirst, by simp [edges]⟩
    · exact ⟨_, hsecond, by simp [edges]⟩
    · exact ⟨_, hsecond, by simp [edges]⟩
    · exact ⟨_, hfirst, by simp [edges]⟩
    · exact ⟨_, hfirst, by simp [edges]⟩
    · exact ⟨_, hsecond, by simp [edges]⟩

theorem IsEdge.swap {e : Node × Node} (he : IsEdge rising rows columns e)
    (hborder : ¬ OnBorder rows columns e) : IsEdge rising rows columns e.swap := by
  obtain ⟨row, hrow, column, hcolumn, he⟩ := isEdge_iff.1 he
  simp only [OnBorder, not_or] at hborder
  rw [isEdge_iff]
  rcases he with rfl | rfl | rfl | rfl | ⟨hcut, he⟩ | ⟨hcut, he⟩
  -- the cells to the left of, below, to the right of and above this one
  · refine ⟨row, hrow, column - 1, by omega, ?_⟩
    rw [Nat.sub_add_cancel (by simp at hborder; omega)]
    exact .inr (.inr (.inl rfl))
  · refine ⟨row + 1, by simp at hborder; omega, column, hcolumn, ?_⟩
    exact .inr (.inr (.inr (.inl rfl)))
  · exact ⟨row, hrow, column + 1, by simp at hborder; omega, .inl rfl⟩
  · refine ⟨row - 1, by omega, column, hcolumn, ?_⟩
    rw [Nat.sub_add_cancel (by simp at hborder; omega)]
    exact .inr (.inl rfl)
  · refine ⟨row, hrow, column, hcolumn, .inr (.inr (.inr (.inr (.inl ⟨hcut, ?_⟩))))⟩
    rcases he with rfl | rfl
    · exact .inr rfl
    · exact .inl rfl
  · refine ⟨row, hrow, column, hcolumn, .inr (.inr (.inr (.inr (.inr ⟨hcut, ?_⟩))))⟩
    rcases he with rfl | rfl
    · exact .inr rfl
    · exact .inl rfl

theorem not_isEdge_swap {e : Node × Node} (he : IsEdge rising rows columns e)
    (hborder : OnBorder rows columns e) : ¬ IsEdge rising rows columns e.swap := by
  intro hswap
  obtain ⟨row, hrow, column, hcolumn, he⟩ := isEdge_iff.1 he
  obtain ⟨row', hrow', column', hcolumn', he'⟩ := isEdge_iff.1 hswap
  unfold OnBorder at hborder
  rcases he with rfl | rfl | rfl | rfl | ⟨-, rfl | rfl⟩ | ⟨-, rfl | rfl⟩
  all_goals
    simp only [Prod.swap, Prod.mk.injEq] at he' hborder
    omega

/-! ## Places -/

section Order

variable {α : Type*} [LinearOrder α]

/-- The places of the rows and of the columns of nodes ascend. -/
structure Ascending (rows columns : ℕ) (r c : ℕ → α) : Prop where
  row : ∀ i < rows, r i < r (i + 1)
  column : ∀ j < columns, c j < c (j + 1)

theorem exists_between {f : ℕ → α} : ∀ {n : ℕ}, 0 < n → ∀ {x : α}, f 0 ≤ x → x ≤ f n →
    ∃ i < n, f i ≤ x ∧ x ≤ f (i + 1)
  | 0, h, _, _, _ => absurd h (lt_irrefl 0)
  | n + 1, _, x, hl, hu => by
    rcases n.eq_zero_or_pos with rfl | hn
    · exact ⟨0, Nat.one_pos, hl, hu⟩
    · rcases le_total (f n) x with h | h
      · exact ⟨n, n.lt_succ_self, h, hu⟩
      · obtain ⟨i, hi, hi'⟩ := exists_between hn hl h
        exact ⟨i, Nat.lt_succ_of_lt hi, hi'⟩

theorem le_of_ascending {f : ℕ → α} {n : ℕ} (h : ∀ i < n, f i < f (i + 1)) {i j : ℕ}
    (hij : i ≤ j) (hj : j ≤ n) : f i ≤ f j := by
  induction hij with
  | refl => exact le_rfl
  | step hij ih => exact (ih (by omega)).trans (h _ (by omega)).le

/-- A value is strictly between one two that follow one another. -/
theorem eq_of_between {f : ℕ → α} {n : ℕ} (h : ∀ i < n, f i < f (i + 1)) {i j : ℕ} (hi : i < n)
    (hj : j < n) {x : α} (hxi : f i < x ∧ x < f (i + 1)) (hxj : f j < x ∧ x < f (j + 1)) :
    i = j := by
  rcases lt_trichotomy i j with hij | hij | hij
  · exact absurd (hxi.2.trans_le (le_of_ascending h hij hj.le)) hxj.1.le.not_gt
  · exact hij
  · exact absurd (hxj.2.trans_le (le_of_ascending h hij hi.le)) hxi.1.le.not_gt

end Order

variable {K : Type*} [Field K] [LinearOrder K] [IsStrictOrderedRing K] {r c : ℕ → K}

def gridPlace (r c : ℕ → K) (n : Node) : K × K := (r n.1, c n.2)

/-- The triangle goes round its corners to the left. -/
theorem oriented (h : Ascending rows columns r c) {t : Triangle}
    (ht : t ∈ triangles rising rows columns) :
    0 < side (gridPlace r c) (t.1, t.2.1) (gridPlace r c t.2.2) := by
  obtain ⟨row, hrow, column, hcolumn, ht⟩ := mem_triangles.1 ht
  have harea : 0 < (r (row + 1) - r row) * (c (column + 1) - c column) :=
    mul_pos (sub_pos.2 (h.row row hrow)) (sub_pos.2 (h.column column hcolumn))
  unfold cellTriangles at ht
  split_ifs at ht
  all_goals
    simp only [List.mem_cons, List.not_mem_nil, or_false] at ht
    rcases ht with rfl | rfl <;> simp only [side, gridPlace] <;> linear_combination harea

/-- A point between the corners of a cell is in the triangle on its side of the diagonal. -/
theorem exists_contains_cell (cut : Bool) {row column : ℕ} {p : K × K}
    (hrow : r row ≤ p.1 ∧ p.1 ≤ r (row + 1)) (hcolumn : c column ≤ p.2 ∧ p.2 ≤ c (column + 1)) :
    ∃ t ∈ cellTriangles cut row column, Contains (gridPlace r c) t p := by
  have hr : 0 ≤ r (row + 1) - r row := sub_nonneg.2 (hrow.1.trans hrow.2)
  have hc : 0 ≤ c (column + 1) - c column := sub_nonneg.2 (hcolumn.1.trans hcolumn.2)
  have hup := mul_nonneg hc (sub_nonneg.2 hrow.1)
  have hdown := mul_nonneg hc (sub_nonneg.2 hrow.2)
  have hleft := mul_nonneg hr (sub_nonneg.2 hcolumn.1)
  have hright := mul_nonneg hr (sub_nonneg.2 hcolumn.2)
  rcases cut with _ | _
  · rcases le_total 0 (side (gridPlace r c) ((row + 1, column + 1), (row, column)) p) with h | h
    · refine ⟨_, List.mem_cons_self, ?_⟩
      simp only [Contains, edges, List.mem_cons, List.not_mem_nil, or_false, forall_eq_or_imp,
        forall_eq]
      refine ⟨?_, ?_, h⟩ <;> simp only [side, gridPlace] <;> linarith
    · rw [← neg_nonneg, ← side_swap] at h
      refine ⟨_, List.mem_cons_of_mem _ List.mem_cons_self, ?_⟩
      simp only [Contains, edges, List.mem_cons, List.not_mem_nil, or_false, forall_eq_or_imp,
        forall_eq]
      refine ⟨h, ?_, ?_⟩ <;> simp only [side, gridPlace] <;> linarith
  · rcases le_total 0 (side (gridPlace r c) ((row + 1, column), (row, column + 1)) p) with h | h
    · refine ⟨_, List.mem_cons_self, ?_⟩
      simp only [Contains, edges, List.mem_cons, List.not_mem_nil, or_false, forall_eq_or_imp,
        forall_eq]
      refine ⟨?_, h, ?_⟩ <;> simp only [side, gridPlace] <;> linarith
    · rw [← neg_nonneg, ← side_swap] at h
      refine ⟨_, List.mem_cons_of_mem _ List.mem_cons_self, ?_⟩
      simp only [Contains, edges, List.mem_cons, List.not_mem_nil, or_false, forall_eq_or_imp,
        forall_eq]
      refine ⟨h, ?_, ?_⟩ <;> simp only [side, gridPlace] <;> linarith

/-- The triangles cover the grid. -/
theorem exists_contains (hrows : 0 < rows) (hcolumns : 0 < columns) {p : K × K}
    (hrow : r 0 ≤ p.1 ∧ p.1 ≤ r rows) (hcolumn : c 0 ≤ p.2 ∧ p.2 ≤ c columns) :
    ∃ t ∈ triangles rising rows columns, Contains (gridPlace r c) t p := by
  obtain ⟨row, hlt, hrow⟩ := exists_between hrows hrow.1 hrow.2
  obtain ⟨column, hlt', hcolumn⟩ := exists_between hcolumns hcolumn.1 hcolumn.2
  obtain ⟨t, ht, hp⟩ := exists_contains_cell (rising row column) hrow hcolumn
  exact ⟨t, mem_triangles.2 ⟨row, hlt, column, hlt', ht⟩, hp⟩

/-- A point so far to the left of the edges of a triangle is as far from the sides of its cell. -/
theorem le_of_le_side {cut : Bool} {row column : ℕ} {t : Triangle} {p : K × K} {m : K} (hm : 0 ≤ m)
    (ht : t ∈ cellTriangles cut row column)
    (hp : ∀ e ∈ edges t, m ≤ side (gridPlace r c) e p) :
    (m ≤ (c (column + 1) - c column) * (p.1 - r row)
        ∧ m ≤ (c (column + 1) - c column) * (r (row + 1) - p.1))
      ∧ m ≤ (r (row + 1) - r row) * (p.2 - c column)
        ∧ m ≤ (r (row + 1) - r row) * (c (column + 1) - p.2) := by
  unfold cellTriangles at ht
  split_ifs at ht
  all_goals
    simp only [List.mem_cons, List.not_mem_nil, or_false] at ht
    rcases ht with rfl | rfl
  all_goals
    simp only [side, gridPlace, edges, List.mem_cons, List.not_mem_nil, or_false,
      forall_eq_or_imp, forall_eq] at hp
    obtain ⟨h, h', h''⟩ := hp
    refine ⟨⟨?_, ?_⟩, ?_, ?_⟩ <;> linarith

/-- A point inside a triangle is between the corners of its cell. -/
theorem between_of_inside {cut : Bool} {row column : ℕ} {t : Triangle} {p : K × K}
    (hr : r row < r (row + 1)) (hc : c column < c (column + 1))
    (ht : t ∈ cellTriangles cut row column) (hp : Inside (gridPlace r c) t p) :
    (r row < p.1 ∧ p.1 < r (row + 1)) ∧ c column < p.2 ∧ p.2 < c (column + 1) := by
  have hpos {a x : K} (ha : 0 < a) (h : 0 < a * x) : 0 < x := (mul_pos_iff_of_pos_left ha).1 h
  obtain ⟨m, hm, hside⟩ : ∃ m > 0, ∀ e ∈ edges t, m ≤ side (gridPlace r c) e p := by
    simp only [Inside, edges, List.mem_cons, List.not_mem_nil, or_false, forall_eq_or_imp,
      forall_eq] at hp ⊢
    exact ⟨_, lt_min hp.1 (lt_min hp.2.1 hp.2.2), min_le_left _ _,
      (min_le_right _ _).trans (min_le_left _ _), (min_le_right _ _).trans (min_le_right _ _)⟩
  obtain ⟨⟨h1, h2⟩, h3, h4⟩ := le_of_le_side hm.le ht hside
  exact ⟨⟨sub_pos.1 (hpos (sub_pos.2 hc) (hm.trans_le h1)),
      sub_pos.1 (hpos (sub_pos.2 hc) (hm.trans_le h2))⟩,
    sub_pos.1 (hpos (sub_pos.2 hr) (hm.trans_le h3)),
    sub_pos.1 (hpos (sub_pos.2 hr) (hm.trans_le h4))⟩

theorem between_of_contains {cut : Bool} {row column : ℕ} {t : Triangle} {p : K × K}
    (hr : r row < r (row + 1)) (hc : c column < c (column + 1))
    (ht : t ∈ cellTriangles cut row column) (hp : Contains (gridPlace r c) t p) :
    (r row ≤ p.1 ∧ p.1 ≤ r (row + 1)) ∧ c column ≤ p.2 ∧ p.2 ≤ c (column + 1) := by
  have hpos {a x : K} (ha : 0 < a) (h : 0 ≤ a * x) : 0 ≤ x := (mul_nonneg_iff_of_pos_left ha).1 h
  obtain ⟨⟨h1, h2⟩, h3, h4⟩ := le_of_le_side le_rfl ht hp
  exact ⟨⟨sub_nonneg.1 (hpos (sub_pos.2 hc) h1), sub_nonneg.1 (hpos (sub_pos.2 hc) h2)⟩,
    sub_nonneg.1 (hpos (sub_pos.2 hr) h3), sub_nonneg.1 (hpos (sub_pos.2 hr) h4)⟩

/-- The triangles of a cell are on the two sides of its diagonal. -/
theorem eq_of_inside_cell {cut : Bool} {row column : ℕ} {t t' : Triangle} {p : K × K}
    (ht : t ∈ cellTriangles cut row column) (ht' : t' ∈ cellTriangles cut row column)
    (hp : Inside (gridPlace r c) t p) (hp' : Inside (gridPlace r c) t' p) : t = t' := by
  have happart {e : Node × Node} {t t' : Triangle} (he : e ∈ edges t) (he' : e.swap ∈ edges t')
      (hp : Inside (gridPlace r c) t p) (hp' : Inside (gridPlace r c) t' p) : False := by
    have h := hp' _ he'
    rw [side_swap, neg_pos] at h
    exact (hp _ he).not_gt h
  unfold cellTriangles at ht ht'
  split_ifs at ht ht' with hcut
  · simp only [List.mem_cons, List.not_mem_nil, or_false] at ht ht'
    rcases ht with rfl | rfl <;> rcases ht' with rfl | rfl
    · rfl
    · exact (happart (e := ((row + 1, column), (row, column + 1))) (by simp [edges])
        (by simp [edges]) hp hp').elim
    · exact (happart (e := ((row + 1, column), (row, column + 1))) (by simp [edges])
        (by simp [edges]) hp' hp).elim
    · rfl
  · simp only [List.mem_cons, List.not_mem_nil, or_false] at ht ht'
    rcases ht with rfl | rfl <;> rcases ht' with rfl | rfl
    · rfl
    · exact (happart (e := ((row + 1, column + 1), (row, column))) (by simp [edges])
        (by simp [edges]) hp hp').elim
    · exact (happart (e := ((row + 1, column + 1), (row, column))) (by simp [edges])
        (by simp [edges]) hp' hp).elim
    · rfl

/-- No point is inside two triangles. -/
theorem eq_of_inside (h : Ascending rows columns r c) {t t' : Triangle} {p : K × K}
    (ht : t ∈ triangles rising rows columns) (ht' : t' ∈ triangles rising rows columns)
    (hp : Inside (gridPlace r c) t p) (hp' : Inside (gridPlace r c) t' p) : t = t' := by
  obtain ⟨row, hrow, column, hcolumn, ht⟩ := mem_triangles.1 ht
  obtain ⟨row', hrow', column', hcolumn', ht'⟩ := mem_triangles.1 ht'
  obtain ⟨hx, hy⟩ := between_of_inside (h.row row hrow) (h.column column hcolumn) ht hp
  obtain ⟨hx', hy'⟩ := between_of_inside (h.row row' hrow') (h.column column' hcolumn') ht' hp'
  obtain rfl := eq_of_between h.row hrow hrow' hx hx'
  obtain rfl := eq_of_between h.column hcolumn hcolumn' hy hy'
  exact eq_of_inside_cell ht ht' hp hp'

/-- The points between the first and the last place of a row, and of a column. -/
def extent (r c : ℕ → K) (rows columns : ℕ) : Set (K × K) :=
  {p | (r 0 ≤ p.1 ∧ p.1 ≤ r rows) ∧ c 0 ≤ p.2 ∧ p.2 ≤ c columns}

theorem mem_extent_of_contains (h : Ascending rows columns r c) {t : Triangle} {p : K × K}
    (ht : t ∈ triangles rising rows columns) (hp : Contains (gridPlace r c) t p) :
    p ∈ extent r c rows columns := by
  obtain ⟨row, hrow, column, hcolumn, ht⟩ := mem_triangles.1 ht
  obtain ⟨hx, hy⟩ := between_of_contains (h.row row hrow) (h.column column hcolumn) ht hp
  exact ⟨⟨(le_of_ascending h.row row.zero_le hrow.le).trans hx.1,
      hx.2.trans (le_of_ascending h.row hrow le_rfl)⟩,
    (le_of_ascending h.column column.zero_le hcolumn.le).trans hy.1,
    hy.2.trans (le_of_ascending h.column hcolumn le_rfl)⟩

theorem sharing_of_isEdge {e : Node × Node} (h : IsEdge rising rows columns e) :
    sharing (triangles rising rows columns) e = 1 := by
  obtain ⟨t, ht, he⟩ := h
  exact sharing_eq_one nodup_triangles ht he fun t' ht' he' => eq_of_mem_edges ht' ht he' he

variable (rising) in
/-- A grid that is cut into triangles is filled by them. -/
theorem conforming (hrows : 0 < rows) (hcolumns : 0 < columns) (h : Ascending rows columns r c) :
    Conforming (gridPlace r c) (OnBorder rows columns) (extent r c rows columns)
      (triangles rising rows columns) where
  oriented _ ht := oriented h ht
  once t ht _ he := sharing_of_isEdge ⟨t, ht, he⟩
  interior t ht _ he hb := sharing_of_isEdge (IsEdge.swap ⟨t, ht, he⟩ hb)
  border t ht _ he hb := sharing_eq_zero fun t' ht' he' =>
    not_isEdge_swap ⟨t, ht, he⟩ hb ⟨t', ht', he'⟩
  covers _ hp := exists_contains hrows hcolumns hp.1 hp.2
  within _ ht _ hp := mem_extent_of_contains h ht hp
  apart _ ht _ ht' _ hp hp' := eq_of_inside h ht ht' hp hp'

end GridMesh
