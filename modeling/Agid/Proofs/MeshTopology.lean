import Agid.MeshTopology
import Agid.Proofs.TerrainMesh

/-!
# Terrain meshes conform

The mesh is a grid of cells that is cut into triangles, its nodes named by their indices
(`createTerrainMesh_triangles`), and the sampled rows and columns ascend from the first of the grid
to the last, so what holds of such a grid holds of the mesh.
-/

namespace Agid.Topographic

open GridMesh (Node mapTriangle)

variable {grid : NormalizedElevationGrid} {stride : ℕ}

/-! ## Names of nodes -/

/-- The index of a node among the vertices of a mesh with so many columns. -/
def vertexIndex (columns : ℕ) (n : Node) : ℕ := n.1 * columns + n.2

theorem vertexIndex_div {columns : ℕ} {n : Node} (h : n.2 < columns) :
    vertexIndex columns n / columns = n.1 := by
  rw [vertexIndex, Nat.mul_comm, Nat.mul_add_div (Nat.zero_lt_of_lt h), Nat.div_eq_of_lt h,
    Nat.add_zero]

theorem vertexIndex_mod {columns : ℕ} {n : Node} (h : n.2 < columns) :
    vertexIndex columns n % columns = n.2 := by
  rw [vertexIndex, Nat.mul_comm, Nat.mul_add_mod, Nat.mod_eq_of_lt h]

/-- The nodes of a mesh. -/
def nodes (rows columns : ℕ) : Set Node := {n | n.1 < rows ∧ n.2 < columns}

theorem vertexIndex_injOn (rows columns : ℕ) :
    (nodes rows columns).InjOn (vertexIndex columns) := by
  intro n hn m hm h
  refine Prod.ext ?_ ?_
  · rw [← vertexIndex_div hn.2, h, vertexIndex_div hm.2]
  · rw [← vertexIndex_mod hn.2, h, vertexIndex_mod hm.2]

/-- How `createTerrainMesh` cuts a cell. -/
def rising (row column : ℕ) : Bool := (row + column) % 2 = 0

theorem cell_eq_map (columns row column : ℕ) : cell columns row column
    = (GridMesh.cellTriangles (rising row column) row column).map
      (mapTriangle (vertexIndex columns)) := by
  have hbelow : (row + 1) * columns + column = row * columns + column + columns := by ring
  unfold cell GridMesh.cellTriangles rising
  by_cases h : (row + column) % 2 = 0
  · simp [h, mapTriangle, vertexIndex, hbelow, Nat.add_assoc]
    omega
  · simp [h, mapTriangle, vertexIndex, hbelow, Nat.add_assoc]
    omega

theorem createTerrainMesh_triangles (level : ℕ) :
    (createTerrainMesh grid stride level).triangles
      = (GridMesh.triangles rising ((sampleIndices grid.height stride).length - 1)
        ((sampleIndices grid.width stride).length - 1)).map
          (mapTriangle (vertexIndex (sampleIndices grid.width stride).length)) := by
  simp only [createTerrainMesh, GridMesh.triangles, List.map_flatMap, cell_eq_map]

theorem createTerrainMesh_vertices_length (level : ℕ) :
    (createTerrainMesh grid stride level).vertices.length
      = (sampleIndices grid.height stride).length * (sampleIndices grid.width stride).length := by
  simp [createTerrainMesh, List.length_flatMap, List.map_const', List.sum_replicate]

theorem mem_nodes_of_mem {rows columns : ℕ} (hrows : 2 ≤ rows) (hcolumns : 2 ≤ columns)
    {t : GridMesh.Triangle} (ht : t ∈ GridMesh.triangles rising (rows - 1) (columns - 1))
    {e : Node × Node} (he : e ∈ GridMesh.edges t) :
    e.1 ∈ nodes rows columns ∧ e.2 ∈ nodes rows columns := by
  obtain ⟨row, hrow, column, hcolumn, he⟩ := GridMesh.isEdge_iff.1 ⟨t, ht, he⟩
  unfold nodes
  rcases he with rfl | rfl | rfl | rfl | ⟨-, rfl | rfl⟩ | ⟨-, rfl | rfl⟩
  all_goals
    simp only [Set.mem_ofPred_eq]
    omega

/-! ## Places of nodes -/

theorem Samples.strict {length : ℕ} {s : List ℕ} (h : Samples length s) {i j : ℕ} (hij : i < j)
    (hj : j < s.length) : s.getD i 0 < s.getD j 0 := by
  rw [List.getD_eq_getElem _ _ (hij.trans hj), List.getD_eq_getElem _ _ hj]
  exact List.pairwise_iff_getElem.1 h.ascending _ _ _ _ hij

theorem Samples.eq_zero_iff {length : ℕ} {s : List ℕ} (h : Samples length s) {i : ℕ}
    (hi : i < s.length) : s.getD i 0 = 0 ↔ i = 0 := by
  constructor
  · intro hzero
    by_contra hne
    have := h.strict (Nat.pos_of_ne_zero hne) hi
    omega
  · rintro rfl
    exact h.first

theorem Samples.eq_last_iff {length : ℕ} {s : List ℕ} (h : Samples length s) {i : ℕ}
    (hi : i < s.length) : s.getD i 0 = length - 1 ↔ i = s.length - 1 := by
  constructor
  · intro hlast
    by_contra hne
    have := h.strict (show i < s.length - 1 by omega) (by omega)
    rw [h.last] at this
    omega
  · rintro rfl
    exact h.last

theorem sampleAt_vertexIndex {n : Node}
    (hn : n ∈ nodes (sampleIndices grid.height stride).length
      (sampleIndices grid.width stride).length) :
    sampleAt grid stride (vertexIndex (sampleIndices grid.width stride).length n)
      = ((sampleIndices grid.height stride).getD n.1 0,
        (sampleIndices grid.width stride).getD n.2 0) := by
  simp only [sampleAt, vertexIndex_div hn.2, vertexIndex_mod hn.2]

theorem vertexIndex_lt {rows columns : ℕ} {n : Node} (hn : n ∈ nodes rows columns) :
    vertexIndex columns n < rows * columns := by
  obtain ⟨hrow, hcolumn⟩ := hn
  unfold vertexIndex
  nlinarith

/-- Each vertex is the sample of its row and column. -/
theorem createTerrainMesh_vertex {level v : ℕ}
    (hv : v < (createTerrainMesh grid stride level).vertices.length) :
    (createTerrainMesh grid stride level).vertices[v]? = some (
      let sample := sampleAt grid stride v
      ((coordinateAt grid sample.1 sample.2).1, (coordinateAt grid sample.1 sample.2).2,
        elevationAt grid sample.1 sample.2)) := by
  rw [createTerrainMesh_vertices_length] at hv
  have hpos : 0 < (sampleIndices grid.width stride).length :=
    Nat.pos_of_ne_zero fun h => by simp [h] at hv
  have hrow := getElem?_of_getD (Nat.div_lt_of_lt_mul (Nat.mul_comm _ _ ▸ hv))
  have hcolumn := getElem?_of_getD (Nat.mod_lt v hpos)
  have hvertex := getElem?_flatMap_map (fun row column => ((coordinateAt grid row column).1,
    (coordinateAt grid row column).2, elevationAt grid row column))
    (sampleIndices grid.width stride) (sampleIndices grid.height stride) hrow hcolumn
  rw [Nat.mul_comm, Nat.div_add_mod] at hvertex
  exact hvertex

theorem extent_eq (hrows : Samples grid.height (sampleIndices grid.height stride))
    (hcolumns : Samples grid.width (sampleIndices grid.width stride)) :
    GridMesh.extent (fun i => (((sampleIndices grid.height stride).getD i 0 : ℕ) : ℚ))
        (fun j => (((sampleIndices grid.width stride).getD j 0 : ℕ) : ℚ))
        ((sampleIndices grid.height stride).length - 1)
        ((sampleIndices grid.width stride).length - 1)
      = gridExtent grid := by
  unfold GridMesh.extent gridExtent
  simp only [hrows.first, hrows.last, hcolumns.first, hcolumns.last, Nat.cast_zero]

/-- The triangles of a terrain mesh tile its grid, whatever its size and the stride. -/
theorem conformingMesh_createTerrainMesh (hheight : 2 ≤ grid.height) (hwidth : 2 ≤ grid.width)
    (hstride : 0 < stride) (level : ℕ) :
    ConformingMesh grid stride (createTerrainMesh grid stride level) := by
  have hrows := samples_sampleIndices hheight hstride
  have hcolumns := samples_sampleIndices hwidth hstride
  have hascending : GridMesh.Ascending ((sampleIndices grid.height stride).length - 1)
      ((sampleIndices grid.width stride).length - 1)
      (fun i => (((sampleIndices grid.height stride).getD i 0 : ℕ) : ℚ))
      (fun j => (((sampleIndices grid.width stride).getD j 0 : ℕ) : ℚ)) :=
    ⟨fun i hi => Nat.cast_lt.2 (hrows.getD_lt (by omega)),
      fun j hj => Nat.cast_lt.2 (hcolumns.getD_lt (by omega))⟩
  have htwo := hrows.two
  have htwo' := hcolumns.two
  refine ⟨htwo, htwo', ?_, ?_, ?_, ?_⟩
  · rw [createTerrainMesh_triangles, List.length_map, GridMesh.length_triangles]
  · intro u hu
    rw [createTerrainMesh_triangles] at hu
    obtain ⟨t, ht, rfl⟩ := List.mem_map.1 hu
    rw [createTerrainMesh_vertices_length]
    obtain ⟨hfirst, hsecond⟩ := mem_nodes_of_mem htwo htwo' ht List.mem_cons_self
    exact ⟨vertexIndex_lt hfirst, vertexIndex_lt hsecond,
      vertexIndex_lt (mem_nodes_of_mem htwo htwo' ht (by simp [GridMesh.edges])).2⟩
  · exact fun v hv => createTerrainMesh_vertex hv
  · have hconforming := GridMesh.conforming rising (by omega) (by omega) hascending
    rw [createTerrainMesh_triangles, ← extent_eq hrows hcolumns]
    refine hconforming.map _ _ (fun t ht e he => mem_nodes_of_mem htwo htwo' ht he)
      (vertexIndex_injOn _ _) (fun n hn => ?_) fun a ha b hb => ?_
    · rw [gridCoordinate, sampleAt_vertexIndex hn]
      rfl
    · simp only [OnGridBorder, GridMesh.OnBorder, sampleAt_vertexIndex ha,
        sampleAt_vertexIndex hb, hrows.eq_zero_iff ha.1, hrows.eq_zero_iff hb.1,
        hrows.eq_last_iff ha.1, hrows.eq_last_iff hb.1, hcolumns.eq_zero_iff ha.2,
        hcolumns.eq_zero_iff hb.2, hcolumns.eq_last_iff ha.2, hcolumns.eq_last_iff hb.2]

theorem conformingMesh_straight :
    ConformingMesh straightGrid 2 (createTerrainMesh straightGrid 2 1) :=
  conformingMesh_createTerrainMesh (by decide) (by decide) (by decide) 1

end Agid.Topographic
