import Agid.TerrainMesh
import Agid.Lib.GridMesh

/-!
# What a terrain mesh should be

The topology of the mesh that `createTerrainMesh` makes, in the coordinates of its grid: a row and a
column.
-/

namespace Agid.Topographic

section Grid

variable (grid : NormalizedElevationGrid) (stride : ℕ)

/-- The row and the column of the grid that a vertex of the mesh is sampled at. -/
def sampleAt (vertex : ℕ) : ℕ × ℕ :=
  let rowIndices := sampleIndices grid.height stride
  let columnIndices := sampleIndices grid.width stride
  (rowIndices.getD (vertex / columnIndices.length) 0,
    columnIndices.getD (vertex % columnIndices.length) 0)

def gridCoordinate (vertex : ℕ) : ℚ × ℚ :=
  ((sampleAt grid stride vertex).1, (sampleAt grid stride vertex).2)

/-- Both vertices in the first or the last row of the grid, or in the first or the last column. -/
def OnGridBorder (edge : ℕ × ℕ) : Prop :=
  let a := sampleAt grid stride edge.1
  let b := sampleAt grid stride edge.2
  (a.1 = 0 ∧ b.1 = 0) ∨ (a.1 = grid.height - 1 ∧ b.1 = grid.height - 1)
    ∨ (a.2 = 0 ∧ b.2 = 0) ∨ (a.2 = grid.width - 1 ∧ b.2 = grid.width - 1)

def gridExtent : Set (ℚ × ℚ) :=
  {p | (0 ≤ p.1 ∧ p.1 ≤ ((grid.height - 1 : ℕ) : ℚ)) ∧ 0 ≤ p.2
    ∧ p.2 ≤ ((grid.width - 1 : ℕ) : ℚ)}

/-- Two triangles for each cell between the sampled rows and columns, of vertices that there are,
which fill the grid as triangles should. -/
structure ConformingMesh (mesh : TopographicMesh) : Prop where
  rows : 2 ≤ (sampleIndices grid.height stride).length
  columns : 2 ≤ (sampleIndices grid.width stride).length
  count : mesh.triangles.length = 2 * ((sampleIndices grid.height stride).length - 1)
    * ((sampleIndices grid.width stride).length - 1)
  inRange : ∀ t ∈ mesh.triangles, t.1 < mesh.vertices.length ∧ t.2.1 < mesh.vertices.length
    ∧ t.2.2 < mesh.vertices.length
  vertex : ∀ v < mesh.vertices.length, mesh.vertices[v]? = some (
    let sample := sampleAt grid stride v
    ((coordinateAt grid sample.1 sample.2).1, (coordinateAt grid sample.1 sample.2).2,
      elevationAt grid sample.1 sample.2))
  conforming : GridMesh.Conforming (gridCoordinate grid stride) (OnGridBorder grid stride)
    (gridExtent grid) mesh.triangles

end Grid

end Agid.Topographic
