import Mathlib

/-!
# Surfaces of triangles

A surface is given by points with a height and by triangles of their indices.  A point of it is one of
a triangle: a mean of the three corners with weights that are not negative.  The cell of a grid that is
cut along one of its diagonals makes two triangles, and a place in it, given by how far it is across
and down, has its weights in one of them.
-/

namespace Triangles

variable {K : Type*} [Field K] [LinearOrder K]

/-- A point over the plane with its height. -/
abbrev Point (K : Type*) := K × K × K

/-- The point is a mean of the three. -/
def Within (a b c p : Point K) : Prop :=
  ∃ u v w : K, 0 ≤ u ∧ 0 ≤ v ∧ 0 ≤ w ∧ u + v + w = 1
    ∧ u * a.1 + v * b.1 + w * c.1 = p.1
    ∧ u * a.2.1 + v * b.2.1 + w * c.2.1 = p.2.1
    ∧ u * a.2.2 + v * b.2.2 + w * c.2.2 = p.2.2

/-- The point is one of a triangle of the surface. -/
def OnSurface (vertices : List (Point K)) (triangles : List (ℕ × ℕ × ℕ)) (p : Point K) : Prop :=
  ∃ t ∈ triangles, ∃ a b c, vertices[t.1]? = some a ∧ vertices[t.2.1]? = some b
    ∧ vertices[t.2.2]? = some c ∧ Within a b c p

/-- A surface whose vertices lie in a plane lies in it. -/
theorem OnSurface.plane {vertices : List (Point K)} {triangles : List (ℕ × ℕ × ℕ)} {p : Point K}
    (h : OnSurface vertices triangles p) {l m n k : K}
    (hvertices : ∀ q ∈ vertices, l * q.1 + m * q.2.1 + n * q.2.2 = k) :
    l * p.1 + m * p.2.1 + n * p.2.2 = k := by
  obtain ⟨t, -, a, b, c, ha, hb, hc, u, v, w, -, -, -, hsum, hx, hy, hz⟩ := h
  have ha := hvertices a (List.mem_of_getElem? ha)
  have hb := hvertices b (List.mem_of_getElem? hb)
  have hc := hvertices c (List.mem_of_getElem? hc)
  calc l * p.1 + m * p.2.1 + n * p.2.2
      = u * (l * a.1 + m * a.2.1 + n * a.2.2) + v * (l * b.1 + m * b.2.1 + n * b.2.2)
        + w * (l * c.1 + m * c.2.1 + n * c.2.2) := by
          rw [← hx, ← hy, ← hz]
          ring
    _ = (u + v + w) * k := by
          rw [ha, hb, hc]
          ring
    _ = k := by rw [hsum, one_mul]

/-! ## A cell -/

/-- Weights of the corners of a cell: top left, top right, bottom left and bottom right. -/
structure Weights (K : Type*) where
  topLeft : K
  topRight : K
  bottomLeft : K
  bottomRight : K

/-- The mean of four values. -/
def Weights.mean (w : Weights K) (topLeft topRight bottomLeft bottomRight : K) : K :=
  w.topLeft * topLeft + w.topRight * topRight + w.bottomLeft * bottomLeft
    + w.bottomRight * bottomRight

/-- The weights of the place that is `h` across and `v` down: in a cell that is cut from the top right
to the bottom left, or from the top left to the bottom right. -/
def weights (rising : Bool) (h v : K) : Weights K :=
  if rising then
    if h + v ≤ 1 then ⟨1 - h - v, h, v, 0⟩ else ⟨0, 1 - v, 1 - h, h + v - 1⟩
  else
    if h ≤ v then ⟨1 - v, 0, v - h, h⟩ else ⟨1 - h, h - v, 0, v⟩

theorem mean_weights_across (rising : Bool) (h v left right : K) :
    (weights rising h v).mean left right left right = left + (right - left) * h := by
  unfold weights Weights.mean
  split_ifs <;> ring

theorem mean_weights_down (rising : Bool) (h v top bottom : K) :
    (weights rising h v).mean top top bottom bottom = top + (bottom - top) * v := by
  unfold weights Weights.mean
  split_ifs <;> ring

/-- The two triangles of a cell, by the indices of its corners. -/
def cellTriangles (rising : Bool) (topLeft topRight bottomLeft bottomRight : ℕ) :
    List (ℕ × ℕ × ℕ) :=
  if rising then [(topLeft, bottomLeft, topRight), (topRight, bottomLeft, bottomRight)]
  else [(topLeft, bottomLeft, bottomRight), (topLeft, bottomRight, topRight)]

/-- The mean of the corners of a cell, by the weights of a place in it, is a point of the surface that
has its triangles. -/
theorem onSurface_mean [IsStrictOrderedRing K] {vertices : List (Point K)}
    {triangles : List (ℕ × ℕ × ℕ)} {rising : Bool} {i j k l : ℕ} {h v : K} {a b c d : Point K}
    (hcell : ∀ t ∈ cellTriangles rising i j k l, t ∈ triangles) (ha : vertices[i]? = some a)
    (hb : vertices[j]? = some b) (hc : vertices[k]? = some c) (hd : vertices[l]? = some d)
    (hh : 0 ≤ h ∧ h ≤ 1) (hv : 0 ≤ v ∧ v ≤ 1) :
    OnSurface vertices triangles ((weights rising h v).mean a.1 b.1 c.1 d.1,
      (weights rising h v).mean a.2.1 b.2.1 c.2.1 d.2.1,
      (weights rising h v).mean a.2.2 b.2.2 c.2.2 d.2.2) := by
  unfold weights Weights.mean
  unfold cellTriangles at hcell
  split_ifs at hcell ⊢ with hrising hside hside
  · refine ⟨_, hcell _ List.mem_cons_self, a, c, b, ha, hc, hb, 1 - h - v, v, h, ?_⟩
    refine ⟨by linarith, hv.1, hh.1, by ring, ?_, ?_, ?_⟩ <;> ring
  · refine ⟨_, hcell _ (List.mem_cons_of_mem _ List.mem_cons_self), b, c, d, hb, hc, hd, 1 - v, 1 - h,
      h + v - 1, ?_⟩
    refine ⟨by linarith, by linarith, by linarith, by ring, ?_, ?_, ?_⟩ <;> ring
  · refine ⟨_, hcell _ List.mem_cons_self, a, c, d, ha, hc, hd, 1 - v, v - h, h, ?_⟩
    refine ⟨by linarith, by linarith, hh.1, by ring, ?_, ?_, ?_⟩ <;> ring
  · refine ⟨_, hcell _ (List.mem_cons_of_mem _ List.mem_cons_self), a, d, b, ha, hd, hb, 1 - h, v,
      h - v, ?_⟩
    refine ⟨by linarith, hv.1, by linarith, by ring, ?_, ?_, ?_⟩ <;> ring

end Triangles
