import Agid.TerrainMesh
import Agid.Proofs.JsonValues

/-!
# The audit of the terrain mesh

The samples of an axis and the segment of an index, the two axes of a grid, and from these what the
audit interpolates at a node.
-/

namespace Agid.Topographic

open Checks

/-! ## Samples -/

/-- Indices that go up from the first to the last of an axis. -/
structure Samples (length : ℕ) (s : List ℕ) : Prop where
  ascending : s.Pairwise (· < ·)
  first : s.getD 0 0 = 0
  last : s.getD (s.length - 1) 0 = length - 1
  two : 2 ≤ s.length

theorem mem_sampleFrom {length stride : ℕ} : ∀ {n index i : ℕ},
    i ∈ sampleFrom length stride n index → index ≤ i ∧ i < length
  | n + 1, index, i, h => by
    rw [sampleFrom] at h
    split_ifs at h with hindex
    · rcases List.mem_cons.1 h with rfl | h
      · exact ⟨le_rfl, hindex⟩
      · exact ⟨(Nat.le_add_right _ _).trans (mem_sampleFrom h).1, (mem_sampleFrom h).2⟩
    · simp at h
  | 0, _, _, h => by simp [sampleFrom] at h

theorem sampleFrom_ascending {length stride : ℕ} (hstride : 0 < stride) : ∀ n index : ℕ,
    (sampleFrom length stride n index).Pairwise (· < ·)
  | 0, _ => List.Pairwise.nil
  | n + 1, index => by
    rw [sampleFrom]
    split_ifs
    · refine List.pairwise_cons.2 ⟨fun i hi => ?_, sampleFrom_ascending hstride n _⟩
      have := (mem_sampleFrom hi).1
      omega
    · exact List.Pairwise.nil

theorem sampleFrom_eq_cons {length : ℕ} (stride : ℕ) (h : 0 < length) :
    ∃ s, sampleFrom length stride length 0 = 0 :: s := by
  obtain ⟨n, rfl⟩ := Nat.exists_eq_succ_of_ne_zero h.ne'
  exact ⟨_, if_pos h⟩

theorem getD_last_eq {s : List ℕ} (h : s ≠ []) : s.getD (s.length - 1) 0 = s.getLast h := by
  rw [List.getLast_eq_getElem, List.getD_eq_getElem?_getD, List.getElem?_eq_getElem]
  rfl

theorem le_getLast {l : List ℕ} (h : l.Pairwise (· < ·)) (hne : l ≠ []) {a : ℕ} (ha : a ∈ l) :
    a ≤ l.getLast hne := by
  rw [← List.dropLast_append_getLast hne] at h ha
  rcases List.mem_append.1 ha with ha | ha
  · exact ((List.pairwise_append.1 h).2.2 a ha _ (by simp)).le
  · exact (List.mem_singleton.1 ha).le

theorem samples_sampleIndices {length stride : ℕ} (hlength : 2 ≤ length) (hstride : 0 < stride) :
    Samples length (sampleIndices length stride) := by
  obtain ⟨s, hs⟩ := sampleFrom_eq_cons stride (show 0 < length by omega)
  have hascending : (sampleFrom length stride length 0).Pairwise (· < ·) :=
    sampleFrom_ascending hstride length 0
  have hlt : ∀ i ∈ sampleFrom length stride length 0, i < length :=
    fun i hi => (mem_sampleFrom hi).2
  unfold sampleIndices
  simp only
  rw [hs] at hascending hlt ⊢
  split_ifs with hlast
  · refine ⟨hascending, rfl, ?_, ?_⟩
    · rw [getD_last_eq (List.cons_ne_nil _ _)]
      rw [List.getLast?_eq_some_getLast (List.cons_ne_nil _ _)] at hlast
      exact Option.some.inj hlast
    · rcases s with _ | ⟨i, s⟩
      · simp at hlast
        omega
      · simp
  · rw [List.getLast?_eq_some_getLast (List.cons_ne_nil _ _), Option.some.injEq] at hlast
    refine ⟨List.pairwise_append.2 ⟨hascending, List.pairwise_singleton _ _, ?_⟩, rfl, ?_, ?_⟩
    · intro a ha b hb
      rw [List.mem_singleton.1 hb]
      have := le_getLast hascending (List.cons_ne_nil _ _) ha
      have := hlt _ (List.getLast_mem (List.cons_ne_nil 0 s))
      omega
    · rw [getD_last_eq (by simp), List.getLast_append_singleton]
    · simp

/-! ## Segments -/

theorem Samples.getD_lt {length : ℕ} {s : List ℕ} (h : Samples length s) {i : ℕ}
    (hi : i + 1 < s.length) : s.getD i 0 < s.getD (i + 1) 0 := by
  rw [List.getD_eq_getElem _ _ (by omega), List.getD_eq_getElem _ _ hi]
  exact List.pairwise_iff_getElem.1 h.ascending _ _ _ _ (Nat.lt_succ_self i)

/-- The segment begins before the index, and ends after it or is the last one. -/
def Reaches (s : List ℕ) (index segment : ℕ) : Prop :=
  segment + 1 < s.length ∧ s.getD segment 0 ≤ index
    ∧ (segment + 2 = s.length ∨ index ≤ s.getD (segment + 1) 0)

theorem nextSegment_reaches {s : List ℕ} {index : ℕ} : ∀ {n segment : ℕ},
    segment + 1 < s.length → s.length ≤ n + segment + 2 → s.getD segment 0 ≤ index →
    Reaches s index (nextSegment s index n segment)
  | 0, segment, hsegment, hn, hle => ⟨hsegment, hle, .inl (by rw [nextSegment]; omega)⟩
  | n + 1, segment, hsegment, hn, hle => by
    rw [nextSegment]
    split_ifs with h
    · exact nextSegment_reaches (by omega) (by omega) h.2.le
    · exact ⟨hsegment, hle, by omega⟩

theorem segmentsFrom_reaches {s : List ℕ} : ∀ {n index segment j : ℕ},
    segment + 1 < s.length → s.getD segment 0 ≤ index → j < n →
    Reaches s (index + j) ((segmentsFrom s n index segment).getD j 0)
  | n + 1, index, segment, 0, hsegment, hle, _ =>
    nextSegment_reaches hsegment (by omega) hle
  | n + 1, index, segment, j + 1, hsegment, hle, hj => by
    obtain ⟨hnext, hnextle, -⟩ :=
      nextSegment_reaches (n := s.length) hsegment (by omega) hle
    have := segmentsFrom_reaches (j := j) hnext (hnextle.trans (Nat.le_succ index))
      (Nat.lt_of_succ_lt_succ hj)
    rw [Nat.succ_add_eq_add_succ] at this
    exact this

theorem segmentIndexBySample_spec {length : ℕ} {s : List ℕ} (h : Samples length s) {index : ℕ}
    (hindex : index < length) :
    (segmentIndexBySample length s).getD index 0 + 1 < s.length
      ∧ s.getD ((segmentIndexBySample length s).getD index 0) 0 ≤ index
      ∧ index ≤ s.getD ((segmentIndexBySample length s).getD index 0 + 1) 0 := by
  have hreaches : Reaches s (0 + index) ((segmentsFrom s length 0 0).getD index 0) :=
    segmentsFrom_reaches (by have := h.two; omega) (by rw [h.first]) hindex
  rw [Nat.zero_add] at hreaches
  obtain ⟨hlt, hle, hlast | hge⟩ := hreaches
  · refine ⟨hlt, hle, ?_⟩
    have hlast' : (segmentIndexBySample length s).getD index 0 + 1 = s.length - 1 := by
      rw [segmentIndexBySample]
      omega
    rw [hlast', h.last]
    omega
  · exact ⟨hlt, hle, hge⟩

/-! ## The axes of a grid -/

/-- Values that go strictly up, or strictly down, along an axis. -/
def OneWay (n : ℕ) (f : ℕ → ℚ) : Prop :=
  (∀ i j, i < j → j < n → f i < f j) ∨ ∀ i j, i < j → j < n → f j < f i

theorem interpolationRatio_eq_ok {n : ℕ} {f : ℕ → ℚ} (h : OneWay n f) {a i b : ℕ} (hab : a < b)
    (hb : b < n) (hai : a ≤ i) (hib : i ≤ b) :
    interpolationRatio (f i) (f a) (f b) = .ok ((f i - f a) / (f b - f a))
      ∧ 0 ≤ (f i - f a) / (f b - f a) ∧ (f i - f a) / (f b - f a) ≤ 1 := by
  have hne : f b - f a ≠ 0 := by
    rcases h with h | h
    · have := h a b hab hb
      intro heq
      linarith
    · have := h a b hab hb
      intro heq
      linarith
  have hratio : 0 ≤ (f i - f a) / (f b - f a) ∧ (f i - f a) / (f b - f a) ≤ 1 := by
    have hle {g : ℕ → ℚ} (h : ∀ i j, i < j → j < n → g i < g j) {i j : ℕ} (hij : i ≤ j)
        (hj : j < n) : g i ≤ g j := by
      rcases hij.eq_or_lt with rfl | hij
      · exact le_rfl
      · exact (h i j hij hj).le
    rcases h with h | h
    · have hpos := h a b hab hb
      have h1 := hle h hai (hib.trans_lt hb)
      have h2 := hle h hib hb
      exact ⟨div_nonneg (by linarith) (by linarith), (div_le_one (by linarith)).2 (by linarith)⟩
    · have hneg := h a b hab hb
      have h' : ∀ i j, i < j → j < n → -f i < -f j := fun i j hij hj => neg_lt_neg (h i j hij hj)
      have h1 := hle h' hai (hib.trans_lt hb)
      have h2 := hle h' hib hb
      rw [← neg_div_neg_eq]
      exact ⟨div_nonneg (by linarith) (by linarith), (div_le_one (by linarith)).2 (by linarith)⟩
  refine ⟨?_, hratio⟩
  unfold interpolationRatio
  have hin : (-(1 / 10 ^ 12) ≤ (f i - f a) / (f b - f a)
      && (f i - f a) / (f b - f a) ≤ 1 + 1 / 10 ^ 12 : Bool) = true := by
    simp only [Bool.and_eq_true, decide_eq_true_eq]
    constructor
    · linarith [hratio.1, (by norm_num : (0 : ℚ) ≤ 1 / 10 ^ 12)]
    · linarith [hratio.2, (by norm_num : (0 : ℚ) ≤ 1 / 10 ^ 12)]
  simp only [require, hin, decide_eq_true hne, if_true, bind, Except.bind]
  rw [max_eq_right hratio.1, min_eq_right hratio.2]

theorem checkAxis_eq_ok {name : String} {limit : ℚ} {ordered : ℚ → ℚ → Bool}
    {disordered : JsString} : ∀ {values : List ℚ} {index : ℕ} {previous : Option ℚ},
      checkAxis name limit ordered disordered index previous values = .ok () →
      (∀ p ∈ previous, ∀ v ∈ values.head?, ordered p v = true)
        ∧ values.IsChain fun p v => ordered p v = true
  | [], _, _, _ => ⟨fun _ _ _ h => by simp at h, List.isChain_nil⟩
  | value :: values, index, previous, h => by
    unfold checkAxis at h
    simp only [bind_eq_ok, require_eq_ok] at h
    obtain ⟨-, -, -, hordered, h⟩ := h
    obtain ⟨hhead, hchain⟩ := checkAxis_eq_ok h
    refine ⟨fun p hp v hv => ?_, List.isChain_cons.2 ⟨fun v hv => hhead value rfl v hv, hchain⟩⟩
    cases hv
    cases hp
    exact hordered

/-- The values of an axis that was checked, in the order of the test. -/
theorem getD_of_isChain {r : ℚ → ℚ → Prop} [IsTrans ℚ r] {values : List ℚ} (h : values.IsChain r)
    {i j : ℕ} (hij : i < j) (hj : j < values.length) : r (values.getD i 0) (values.getD j 0) := by
  rw [List.getD_eq_getElem _ _ (hij.trans hj), List.getD_eq_getElem _ _ hj]
  exact List.pairwise_iff_getElem.1 (List.isChain_iff_pairwise.1 h) _ _ _ _ hij

/-- What a grid that is checked has of its axes. -/
structure Valid (grid : NormalizedElevationGrid) : Prop where
  width : 2 ≤ grid.width
  height : 2 ≤ grid.height
  longitudes : OneWay grid.width (longitudeAt grid)
  latitudes : OneWay grid.height (latitudeAt grid)

theorem ratio_lt {i j n : ℕ} (hn : 2 ≤ n) (hij : i < j) :
    (i : ℚ) / ((n : ℚ) - 1) < (j : ℚ) / ((n : ℚ) - 1) := by
  have hn : (2 : ℚ) ≤ n := by exact_mod_cast hn
  have hij : (i : ℚ) < j := by exact_mod_cast hij
  exact div_lt_div_of_pos_right hij (by linarith)

theorem longitudes_of_checked {grid : NormalizedElevationGrid} (hwidth : 2 ≤ grid.width)
    (hbounds : validBounds grid.bounds) (hle : grid.bounds.west ≤ grid.bounds.east)
    (h : ∀ longitudes ∈ grid.longitudeDegreesByColumn, longitudes.length = grid.width
      ∧ checkLongitudes longitudes = .ok ()) : OneWay grid.width (longitudeAt grid) := by
  refine .inl fun i j hij hj => ?_
  unfold longitudeAt
  rcases hlongitudes : grid.longitudeDegreesByColumn with _ | longitudes
  · simp only [Option.bind_none, Option.getD_none]
    simp only [validBounds, longitudeSpanDegrees, if_pos hle, Bool.and_eq_true,
      decide_eq_true_eq] at hbounds
    have := mul_lt_mul_of_pos_left (ratio_lt hwidth hij) hbounds.1.2
    linarith
  · obtain ⟨hlength, hcheck⟩ := h longitudes hlongitudes
    have hchain := (checkAxis_eq_ok hcheck).2.imp fun p v hpv => of_decide_eq_true hpv
    have := getD_of_isChain hchain hij (hlength ▸ hj)
    rw [List.getD_eq_getElem _ _ (hij.trans (hlength ▸ hj)),
      List.getD_eq_getElem _ _ (hlength ▸ hj)] at this
    simpa [hlength, hj, hij.trans hj] using this

theorem latitudes_of_checked {grid : NormalizedElevationGrid} (hheight : 2 ≤ grid.height)
    (hbounds : validBounds grid.bounds)
    (h : ∀ latitudes ∈ grid.latitudeDegreesByRow, latitudes.length = grid.height
      ∧ checkLatitudes grid.rowOrder latitudes = .ok ()) :
    OneWay grid.height (latitudeAt grid) := by
  simp only [validBounds, Bool.and_eq_true, decide_eq_true_eq] at hbounds
  obtain ⟨⟨⟨-, hlt⟩, -⟩, -⟩ := hbounds
  unfold latitudeAt
  rcases hlatitudes : grid.latitudeDegreesByRow with _ | latitudes
  · rcases grid.rowOrder
    · refine .inr fun i j hij hj => ?_
      have := mul_lt_mul_of_pos_left (ratio_lt hheight hij) (sub_pos.2 hlt)
      simp only
      linarith
    · refine .inl fun i j hij hj => ?_
      have := mul_lt_mul_of_pos_left (ratio_lt hheight hij) (sub_pos.2 hlt)
      simp only
      linarith
  · obtain ⟨hlength, hcheck⟩ := h latitudes hlatitudes
    have hchain := (checkAxis_eq_ok hcheck).2
    rcases hrowOrder : grid.rowOrder <;> rw [hrowOrder] at hchain
    · refine .inr fun i j hij hj => ?_
      exact getD_of_isChain (r := fun p v => v < p)
        (hchain.imp fun p v hpv => of_decide_eq_true hpv) hij (hlength ▸ hj)
    · refine .inl fun i j hij hj => ?_
      exact getD_of_isChain (r := fun p v => p < v)
        (hchain.imp fun p v hpv => of_decide_eq_true hpv) hij (hlength ▸ hj)

theorem valid_of_validateGrid {P : Platform} {grid : NormalizedElevationGrid}
    {options : ElevationVectorizationOptions} (h : validateGrid P grid options = .ok ())
    (hgate : P.sourceGate grid = none) : Valid grid ∧ checkOptions options = .ok () := by
  have hbounds := P.sourceGate_bounds grid hgate
  unfold validateGrid at h
  simp only [bind_eq_ok, require_eq_ok, Bool.and_eq_true, decide_eq_true_eq] at h
  obtain ⟨-, -, -, -, -, -, -, ⟨hwidth, hheight⟩, -, -, -, -, -, -, -, hle, -, -, -, -, -, -, ⟨⟩,
    hcolumns, ⟨⟩, hrows, -, -, hoptions⟩ := h
  refine ⟨⟨hwidth, hheight, longitudes_of_checked hwidth hbounds hle fun longitudes hmem => ?_,
    latitudes_of_checked hheight hbounds fun latitudes hmem => ?_⟩, hoptions⟩
  · unfold checkColumns at hcolumns
    rw [Option.mem_def.1 hmem] at hcolumns
    simp only [bind_eq_ok, require_eq_ok, decide_eq_true_eq] at hcolumns
    obtain ⟨-, hlength, hcheck⟩ := hcolumns
    exact ⟨hlength, hcheck⟩
  · unfold checkRows at hrows
    rw [Option.mem_def.1 hmem] at hrows
    simp only [bind_eq_ok, require_eq_ok, decide_eq_true_eq] at hrows
    obtain ⟨-, hlength, hcheck⟩ := hrows
    exact ⟨hlength, hcheck⟩

theorem checkStrides_eq_ok : ∀ {strides : List ℕ} {previous : Option ℕ},
    checkStrides previous strides = .ok () → ∀ stride ∈ strides, 1 ≤ stride
  | stride :: strides, previous, h, s, hs => by
    unfold checkStrides at h
    simp only [bind_eq_ok, require_eq_ok, Bool.and_eq_true, decide_eq_true_eq] at h
    obtain ⟨-, hstride, -, -, h⟩ := h
    rcases List.mem_cons.1 hs with rfl | hs
    · exact hstride.1
    · exact checkStrides_eq_ok h s hs

/-- The strides of a mesh are positive and start with 1. -/
theorem strides_of_checkOptions {options : ElevationVectorizationOptions}
    (h : checkOptions options = .ok ()) :
    (∀ stride ∈ strides options, 1 ≤ stride) ∧ (strides options).head? = some 1 := by
  unfold checkOptions at h
  simp only [bind_eq_ok, require_eq_ok] at h
  obtain ⟨-, -, -, -, -, -, ⟨⟩, h, -⟩ := h
  unfold strides
  rcases hstrides : options.meshLodStrides with _ | strides
  · simp
  · rw [hstrides, checkMeshLodStrides] at h
    simp only [bind_eq_ok, require_eq_ok, decide_eq_true_eq] at h
    obtain ⟨-, -, -, hhead, h⟩ := h
    exact ⟨checkStrides_eq_ok h, hhead⟩

/-! ## The cell of a node -/

theorem Samples.getD_lt_length {length : ℕ} {s : List ℕ} (h : Samples length s)
    (hlength : 0 < length) {i : ℕ} (hi : i < s.length) : s.getD i 0 < length := by
  have hne : s ≠ [] := List.ne_nil_of_length_pos (by omega)
  have hle := le_getLast h.ascending hne (List.getElem_mem hi)
  rw [← getD_last_eq, h.last] at hle
  rw [List.getD_eq_getElem _ _ hi]
  omega

/-- The segment of an index on an axis, by the samples at its ends. -/
structure Segment (length : ℕ) (s : List ℕ) (index segment : ℕ) : Prop where
  lt : segment + 1 < s.length
  start_le : s.getD segment 0 ≤ index
  le_end : index ≤ s.getD (segment + 1) 0
  start_lt_end : s.getD segment 0 < s.getD (segment + 1) 0
  end_lt : s.getD (segment + 1) 0 < length

theorem segment_of_lt {length stride index : ℕ} (hlength : 2 ≤ length) (hstride : 0 < stride)
    (hindex : index < length) :
    Segment length (sampleIndices length stride) index
      ((segmentIndexBySample length (sampleIndices length stride)).getD index 0) := by
  have hsamples := samples_sampleIndices hlength hstride
  obtain ⟨hlt, hstart, hend⟩ := segmentIndexBySample_spec hsamples hindex
  exact ⟨hlt, hstart, hend, hsamples.getD_lt hlt, hsamples.getD_lt_length (by omega) hlt⟩

section Node

variable {grid : NormalizedElevationGrid} (hgrid : Valid grid) {stride row column : ℕ}
  (hstride : 0 < stride) (hrow : row < grid.height) (hcolumn : column < grid.width)

include hgrid hstride hrow hcolumn

theorem auditedElevation_eq : auditedElevation grid stride row column
    = .ok ((nodeCell grid stride row column).mean (elevationAt grid)) := by
  have hrows := segment_of_lt hgrid.height hstride hrow
  have hcolumns := segment_of_lt hgrid.width hstride hcolumn
  have hacross := (interpolationRatio_eq_ok hgrid.longitudes hcolumns.start_lt_end hcolumns.end_lt
    hcolumns.start_le hcolumns.le_end).1
  have hdown := (interpolationRatio_eq_ok hgrid.latitudes hrows.start_lt_end hrows.end_lt
    hrows.start_le hrows.le_end).1
  unfold auditedElevation interpolateGridTinElevation
  simp only [hacross, hdown, bind, Except.bind]
  unfold NodeCell.mean nodeCell Triangles.weights Triangles.Weights.mean
  simp only [decide_eq_true_eq]
  congr 1
  split_ifs <;> ring

theorem nodeCell_ratios :
    (0 ≤ (nodeCell grid stride row column).across ∧ (nodeCell grid stride row column).across ≤ 1)
      ∧ 0 ≤ (nodeCell grid stride row column).down
        ∧ (nodeCell grid stride row column).down ≤ 1 := by
  have hrows := segment_of_lt hgrid.height hstride hrow
  have hcolumns := segment_of_lt hgrid.width hstride hcolumn
  exact ⟨(interpolationRatio_eq_ok hgrid.longitudes hcolumns.start_lt_end hcolumns.end_lt
      hcolumns.start_le hcolumns.le_end).2,
    (interpolationRatio_eq_ok hgrid.latitudes hrows.start_lt_end hrows.end_lt
      hrows.start_le hrows.le_end).2⟩

end Node

/-! ## The mesh of a node -/

theorem getElem?_flatMap_map {α β γ : Type} (f : α → β → γ) (bs : List β) :
    ∀ (as : List α) {i j : ℕ} {a : α} {b : β}, as[i]? = some a → bs[j]? = some b →
      (as.flatMap fun a => bs.map (f a))[i * bs.length + j]? = some (f a b)
  | a :: as, 0, j, a', b, ha, hb => by
    cases ha
    have hj : j < (bs.map (f a)).length := by
      rw [List.length_map]
      exact (List.getElem?_eq_some_iff.1 hb).1
    rw [Nat.zero_mul, Nat.zero_add, List.flatMap_cons, List.getElem?_append_left hj,
      List.getElem?_map, hb]
    rfl
  | a :: as, i + 1, j, a', b, ha, hb => by
    rw [List.flatMap_cons, List.getElem?_append_right (by rw [List.length_map]; nlinarith),
      List.length_map, show (i + 1) * bs.length + j - bs.length = i * bs.length + j by
        rw [Nat.succ_mul]; omega]
    exact getElem?_flatMap_map f bs as ha hb

theorem getElem?_of_getD {s : List ℕ} {i : ℕ} (h : i < s.length) : s[i]? = some (s.getD i 0) := by
  rw [List.getD_eq_getElem _ _ h, List.getElem?_eq_getElem h]

theorem cell_eq (columns row column : ℕ) : cell columns row column
    = Triangles.cellTriangles (decide ((row + column) % 2 = 0)) (row * columns + column)
      (row * columns + (column + 1)) ((row + 1) * columns + column)
      ((row + 1) * columns + (column + 1)) := by
  have h1 : (row + 1) * columns + column = row * columns + column + columns := by ring
  have h2 : (row + 1) * columns + (column + 1) = row * columns + column + columns + 1 := by ring
  rw [cell, Triangles.cellTriangles, h1, h2, ← Nat.add_assoc]
  simp only [decide_eq_true_eq]

theorem onMesh_mean {grid : NormalizedElevationGrid} (hgrid : Valid grid) {stride row column : ℕ}
    (hstride : 0 < stride) (hrow : row < grid.height) (hcolumn : column < grid.width) (level : ℕ) :
    OnMesh (createTerrainMesh grid stride level)
      ((nodeCell grid stride row column).mean fun row column => (coordinateAt grid row column).1,
        (nodeCell grid stride row column).mean fun row column => (coordinateAt grid row column).2)
      ((nodeCell grid stride row column).mean (elevationAt grid)) := by
  obtain ⟨hacross, hdown⟩ := nodeCell_ratios hgrid hstride hrow hcolumn
  have hrows := segment_of_lt hgrid.height hstride hrow
  have hcolumns := segment_of_lt hgrid.width hstride hcolumn
  have hvertex {i j : ℕ} (hi : i < (sampleIndices grid.height stride).length)
      (hj : j < (sampleIndices grid.width stride).length) :=
    getElem?_flatMap_map (fun row column => ((coordinateAt grid row column).1,
      (coordinateAt grid row column).2, elevationAt grid row column))
      (sampleIndices grid.width stride) (sampleIndices grid.height stride)
      (getElem?_of_getD hi) (getElem?_of_getD hj)
  refine Triangles.onSurface_mean (fun t ht => ?_) (hvertex (Nat.lt_of_succ_lt hrows.lt)
    (Nat.lt_of_succ_lt hcolumns.lt)) (hvertex (Nat.lt_of_succ_lt hrows.lt) hcolumns.lt)
    (hvertex hrows.lt (Nat.lt_of_succ_lt hcolumns.lt)) (hvertex hrows.lt hcolumns.lt) hacross hdown
  refine List.mem_flatMap.2 ⟨_, List.mem_range.2 (Nat.lt_sub_of_add_lt hrows.lt),
    List.mem_flatMap.2 ⟨_, List.mem_range.2 (Nat.lt_sub_of_add_lt hcolumns.lt), ?_⟩⟩
  rw [cell_eq]
  exact ht

/-! ## Level 0 -/

theorem sampleFrom_one {length : ℕ} : ∀ {n index : ℕ}, index + n = length →
    sampleFrom length 1 n index = List.range' index n
  | 0, _, _ => rfl
  | n + 1, index, h => by
    rw [sampleFrom, if_pos (by omega), sampleFrom_one (by omega), List.range'_succ]

theorem sampleIndices_one {length : ℕ} (h : 0 < length) :
    sampleIndices length 1 = List.range' 0 length := by
  obtain ⟨n, rfl⟩ := Nat.exists_eq_succ_of_ne_zero h.ne'
  have hlast : (List.range' 0 (n + 1)).getLast? = some n := by
    rw [List.range'_concat, List.getLast?_append]
    simp
  rw [sampleIndices, sampleFrom_one (Nat.zero_add _)]
  simp only [hlast, Nat.succ_eq_add_one, Nat.add_sub_cancel, if_true]

/-- With a stride of 1 each index is at an end of its segment. -/
theorem Segment.end_of_one {length index segment : ℕ}
    (h : Segment length (sampleIndices length 1) index segment) :
    index = (sampleIndices length 1).getD segment 0
      ∨ index = (sampleIndices length 1).getD (segment + 1) 0 := by
  have hlength := Nat.zero_lt_of_lt h.end_lt
  obtain ⟨hlt, hstart, hend, -, -⟩ := h
  rw [sampleIndices_one hlength] at *
  rw [List.getD_eq_getElem _ _ (Nat.lt_of_succ_lt hlt), List.getElem_range'] at *
  rw [List.getD_eq_getElem _ _ hlt, List.getElem_range'] at *
  omega

theorem ratio_eq {f : ℕ → ℚ} {a b i : ℕ} (hne : f b ≠ f a) (hi : i = a ∨ i = b) :
    (i = a ∧ (f i - f a) / (f b - f a) = 0) ∨ (i = b ∧ (f i - f a) / (f b - f a) = 1) := by
  rcases hi with rfl | rfl
  · exact .inl ⟨rfl, by rw [sub_self, zero_div]⟩
  · exact .inr ⟨rfl, div_self (sub_ne_zero.2 hne)⟩

theorem OneWay.ne {n : ℕ} {f : ℕ → ℚ} (h : OneWay n f) {i j : ℕ} (hij : i < j) (hj : j < n) :
    f j ≠ f i := by
  rcases h with h | h
  · exact (h i j hij hj).ne'
  · exact (h i j hij hj).ne

theorem mean_stride_one {grid : NormalizedElevationGrid} (hgrid : Valid grid) {row column : ℕ}
    (hrow : row < grid.height) (hcolumn : column < grid.width) (f : ℕ → ℕ → ℚ) :
    (nodeCell grid 1 row column).mean f = f row column := by
  have hrows := segment_of_lt hgrid.height Nat.one_pos hrow
  have hcolumns := segment_of_lt hgrid.width Nat.one_pos hcolumn
  have hacross := ratio_eq (hgrid.longitudes.ne hcolumns.start_lt_end hcolumns.end_lt)
    hcolumns.end_of_one
  have hdown := ratio_eq (hgrid.latitudes.ne hrows.start_lt_end hrows.end_lt) hrows.end_of_one
  unfold NodeCell.mean nodeCell Triangles.weights Triangles.Weights.mean
  simp only
  rcases hacross with ⟨hcolumn, hacross⟩ | ⟨hcolumn, hacross⟩ <;>
    rcases hdown with ⟨hrow, hdown⟩ | ⟨hrow, hdown⟩ <;>
    rw [hacross, hdown, ← hcolumn, ← hrow] <;> split_ifs <;> norm_num at *

/-! ## The levels -/

theorem mem_createTerrainMeshLods {grid : NormalizedElevationGrid}
    {options : ElevationVectorizationOptions}
    {lod : ElevationMeshLod} (h : lod ∈ createTerrainMeshLods grid (strides options)) :
    lod.stride ∈ strides options ∧ lod.mesh = createTerrainMesh grid lod.stride lod.level
      ∧ (strides options)[lod.level]? = some lod.stride := by
  obtain ⟨⟨stride, level⟩, hmem, rfl⟩ := List.mem_map.1 h
  have hget := List.mem_zipIdx_iff_getElem?.1 hmem
  exact ⟨List.mem_of_getElem? hget, rfl, hget⟩

theorem le_foldl_max : ∀ (errors : List ℚ) (m : ℚ),
    m ≤ errors.foldl max m ∧ ∀ error ∈ errors, error ≤ errors.foldl max m
  | [], m => ⟨le_rfl, fun _ h => by simp at h⟩
  | e :: errors, m => by
    obtain ⟨hm, herrors⟩ := le_foldl_max errors (max m e)
    refine ⟨(le_max_left m e).trans hm, fun error h => ?_⟩
    rcases List.mem_cons.1 h with rfl | h
    · exact (le_max_right m error).trans hm
    · exact herrors error h

/-- A level that passes has no error above what it allows, at any node. -/
theorem absoluteError_le {P : Platform} {grid : NormalizedElevationGrid} {maximum : Option ℚ}
    {lod : ElevationMeshLod} {level : MeshLodErrorLevel} {row column : ℕ} {error : ℚ}
    (h : auditLevel P grid maximum lod = .ok level) (hpassed : level.passed = true)
    (hlevel : lod.level ≠ 0) (hrow : row < grid.height) (hcolumn : column < grid.width)
    (herror : absoluteError grid lod.stride row column = .ok error) :
    error ≤ maximum.getD MAX_MESH_VERTICAL_ERROR_METERS := by
  obtain ⟨errors, herrors, h⟩ := bind_eq_ok.1 h
  cases h
  simp only [if_neg hlevel, decide_eq_true_eq] at hpassed
  refine le_trans ((le_foldl_max errors 0).2 error ?_) hpassed
  have hnode : (row, column) ∈ (List.range grid.height).flatMap fun row =>
      (List.range grid.width).map fun column => (row, column) := by
    simp [hrow, hcolumn]
  obtain ⟨error', hmem, herror'⟩ := exists_of_mapM herrors hnode
  cases herror.symm.trans herror'
  exact hmem

theorem passed_of_audit {P : Platform} {grid : NormalizedElevationGrid} {maximum : Option ℚ}
    {lods : List ElevationMeshLod} {audit : MeshLodQualityAudit}
    (h : auditTerrainMeshLods P grid lods maximum = .ok audit) {lod : ElevationMeshLod}
    (hlod : lod ∈ lods) : ∃ level, auditLevel P grid maximum lod = .ok level
      ∧ level.passed = true := by
  obtain ⟨levels, hlevels, h⟩ := bind_eq_ok.1 h
  split at h
  · cases h
  · rename_i hfind
    obtain ⟨level, hmem, hlevel⟩ := exists_of_mapM hlevels hlod
    exact ⟨level, hlevel, by simpa using List.find?_eq_none.1 hfind level hmem⟩

/-! ## The audit -/

/-- The grid with other elevations. -/
def withElevations (grid : NormalizedElevationGrid) (elevations : List ℚ) :
    NormalizedElevationGrid := { grid with elevationsMeters := elevations }

theorem Valid.withElevations {grid : NormalizedElevationGrid} (h : Valid grid)
    (elevations : List ℚ) : Valid (withElevations grid elevations) :=
  ⟨h.width, h.height, h.longitudes, h.latitudes⟩

/-- Elevations that are a given function of the node. -/
theorem exists_elevations (grid : NormalizedElevationGrid) (f : ℕ → ℕ → ℚ) :
    ∃ elevations : List ℚ, elevations.length = grid.width * grid.height
      ∧ ∀ row < grid.height, ∀ column < grid.width,
        elevationAt (withElevations grid elevations) row column = f row column := by
  refine ⟨(List.range grid.height).flatMap fun row => (List.range grid.width).map (f row), ?_, ?_⟩
  · simp [mul_comm]
  · intro row hrow column hcolumn
    have hget := getElem?_flatMap_map f (List.range grid.width) (List.range grid.height)
      (List.getElem?_range hrow) (List.getElem?_range hcolumn)
    rw [List.length_range] at hget
    rw [elevationAt, withElevations, List.getD_eq_getElem?_getD, hget]
    rfl

theorem auditSound_of_placed {P : Platform} {grid : NormalizedElevationGrid}
    {options : ElevationVectorizationOptions} (hgrid : Valid grid)
    (hoptions : checkOptions options = .ok ())
    (hplaced : ∀ stride ∈ strides options, ∀ row < grid.height, ∀ column < grid.width,
      Placed grid stride row column) : AuditSound P grid options := by
  obtain ⟨hpositive, hhead⟩ := strides_of_checkOptions hoptions
  have hsurface : ∀ lod ∈ createTerrainMeshLods grid (strides options), ∀ row < grid.height,
      ∀ column < grid.width, OnMesh lod.mesh (coordinateAt grid row column)
        ((nodeCell grid lod.stride row column).mean (elevationAt grid)) := by
    intro lod hlod row hrow column hcolumn
    obtain ⟨hstride, hmesh, -⟩ := mem_createTerrainMeshLods hlod
    have hon := onMesh_mean hgrid (hpositive _ hstride) hrow hcolumn lod.level
    obtain ⟨hlongitude, hlatitude⟩ := hplaced _ hstride row hrow column hcolumn
    rw [hlongitude, hlatitude] at hon
    exact hmesh ▸ hon
  have hexact : ∀ lod ∈ createTerrainMeshLods grid (strides options), lod.level = 0 →
      ∀ row < grid.height, ∀ column < grid.width,
        (nodeCell grid lod.stride row column).mean (elevationAt grid)
          = elevationAt grid row column := by
    intro lod hlod hlevel row hrow column hcolumn
    obtain ⟨-, -, hget⟩ := mem_createTerrainMeshLods hlod
    rw [hlevel, ← List.head?_eq_getElem?, hhead] at hget
    rw [← Option.some.inj hget]
    exact mean_stride_one hgrid hrow hcolumn _
  have haudited : ∀ lod ∈ createTerrainMeshLods grid (strides options), ∀ row < grid.height,
      ∀ column < grid.width, auditedElevation grid lod.stride row column
        = .ok ((nodeCell grid lod.stride row column).mean (elevationAt grid)) :=
    fun lod hlod row hrow column hcolumn => auditedElevation_eq hgrid
      (hpositive _ (mem_createTerrainMeshLods hlod).1) hrow hcolumn
  constructor
  · intro lod hlod row hrow column hcolumn
    exact ⟨_, haudited lod hlod row hrow column hcolumn, hsurface lod hlod row hrow column hcolumn⟩
  · intro audit haudit lod hlod row hrow column hcolumn
    refine ⟨_, hsurface lod hlod row hrow column hcolumn, ?_⟩
    split_ifs with hlevel
    · rw [hexact lod hlod hlevel row hrow column hcolumn, sub_self, abs_zero]
    · obtain ⟨level, hauditLevel, hpassed⟩ := passed_of_audit haudit hlod
      exact absoluteError_le hauditLevel hpassed hlevel hrow hcolumn
        (by rw [absoluteError, haudited lod hlod row hrow column hcolumn]; rfl)
  · intro lod hlod hlevel row hrow column hcolumn
    rw [absoluteError, haudited lod hlod row hrow column hcolumn,
      hexact lod hlod hlevel row hrow column hcolumn]
    simp [bind, Except.bind]

theorem Samples.lt_of_mem {length : ℕ} {s : List ℕ} (h : Samples length s) (hlength : 0 < length)
    {i : ℕ} (hi : i ∈ s) : i < length := by
  obtain ⟨j, hj, rfl⟩ := List.mem_iff_getElem.1 hi
  rw [← List.getD_eq_getElem _ 0 hj]
  exact h.getD_lt_length hlength hj

/-- A mesh of a grid keeps to a plane that the elevations of the grid keep to. -/
theorem onMesh_plane {grid : NormalizedElevationGrid} (hgrid : Valid grid) {stride level : ℕ}
    (hstride : 0 < stride) {l m : ℚ} (hplane : ∀ row < grid.height, ∀ column < grid.width,
      elevationAt grid row column
        = l * (coordinateAt grid row column).1 + m * (coordinateAt grid row column).2)
    {coordinate : ℚ × ℚ} {z : ℚ} (h : OnMesh (createTerrainMesh grid stride level) coordinate z) :
    z = l * coordinate.1 + m * coordinate.2 := by
  have hheight := hgrid.height
  have hwidth := hgrid.width
  have hvertices : ∀ q ∈ (createTerrainMesh grid stride level).vertices,
      l * q.1 + m * q.2.1 + -1 * q.2.2 = 0 := by
    intro q hq
    obtain ⟨row, hrow, hq⟩ := List.mem_flatMap.1 hq
    obtain ⟨column, hcolumn, rfl⟩ := List.mem_map.1 hq
    simp only [hplane row
      ((samples_sampleIndices hheight hstride).lt_of_mem (by omega) hrow) column
      ((samples_sampleIndices hwidth hstride).lt_of_mem (by omega) hcolumn)]
    ring
  have := Triangles.OnSurface.plane h hvertices
  linarith

/-- A function of the nodes that is the same at the corners has the same mean. -/
theorem mean_congr {grid : NormalizedElevationGrid} (hgrid : Valid grid) {stride row column : ℕ}
    (hstride : 0 < stride) (hrow : row < grid.height) (hcolumn : column < grid.width)
    {f g : ℕ → ℕ → ℚ}
    (h : ∀ row < grid.height, ∀ column < grid.width, f row column = g row column) :
    (nodeCell grid stride row column).mean f = (nodeCell grid stride row column).mean g := by
  have hrows := segment_of_lt hgrid.height hstride hrow
  have hcolumns := segment_of_lt hgrid.width hstride hcolumn
  have htop := hrows.start_lt_end.trans hrows.end_lt
  have hleft := hcolumns.start_lt_end.trans hcolumns.end_lt
  unfold NodeCell.mean nodeCell
  simp only
  rw [h _ htop _ hleft, h _ htop _ hcolumns.end_lt, h _ hrows.end_lt _ hleft,
    h _ hrows.end_lt _ hcolumns.end_lt]

/-- Over a plane the audit agrees with the mesh only where the plane has the mean of the corners. -/
theorem mean_of_auditSound {P : Platform} {grid : NormalizedElevationGrid}
    {options : ElevationVectorizationOptions} (hgrid : Valid grid)
    (hoptions : checkOptions options = .ok ())
    (hsound : ∀ elevations : List ℚ, elevations.length = grid.width * grid.height →
      AuditSound P (withElevations grid elevations) options) (l m : ℚ) {stride row column : ℕ}
    (hstride : stride ∈ strides options) (hrow : row < grid.height)
    (hcolumn : column < grid.width) :
    (nodeCell grid stride row column).mean (fun row column =>
        l * (coordinateAt grid row column).1 + m * (coordinateAt grid row column).2)
      = l * (coordinateAt grid row column).1 + m * (coordinateAt grid row column).2 := by
  have hpositive := (strides_of_checkOptions hoptions).1 stride hstride
  obtain ⟨elevations, hlength, helevations⟩ := exists_elevations grid fun row column =>
    l * (coordinateAt grid row column).1 + m * (coordinateAt grid row column).2
  obtain ⟨level, hlevel⟩ := List.mem_iff_getElem?.1 hstride
  have hlod : (⟨level, stride, createTerrainMesh (withElevations grid elevations) stride level,
      _, _⟩ : ElevationMeshLod)
      ∈ createTerrainMeshLods (withElevations grid elevations) (strides options) :=
    List.mem_map.2 ⟨(stride, level), List.mem_zipIdx_iff_getElem?.2 hlevel, rfl⟩
  obtain ⟨z, hz, hon⟩ := (hsound elevations hlength).surface _ hlod row hrow column hcolumn
  have hmean := auditedElevation_eq (hgrid.withElevations elevations) hpositive hrow hcolumn
  cases hz.symm.trans hmean
  exact (mean_congr hgrid hpositive hrow hcolumn helevations).symm.trans
    (onMesh_plane (hgrid.withElevations elevations) hpositive helevations hon)

/-- A node between two axes is where they put it. -/
theorem placed_of_rectilinear {grid : NormalizedElevationGrid} (hgrid : Valid grid)
    (hcells : grid.longitudeLatitudeDegreesByCell = none) {stride row column : ℕ}
    (hstride : 0 < stride) (hrow : row < grid.height) (hcolumn : column < grid.width) :
    Placed grid stride row column := by
  have hrows := segment_of_lt hgrid.height hstride hrow
  have hcolumns := segment_of_lt hgrid.width hstride hcolumn
  have hlongitude := hgrid.longitudes.ne hcolumns.start_lt_end hcolumns.end_lt
  have hlatitude := hgrid.latitudes.ne hrows.start_lt_end hrows.end_lt
  have hcoordinate (row column : ℕ) :
      coordinateAt grid row column = (longitudeAt grid column, latitudeAt grid row) := by
    rw [coordinateAt, hcells]
    rfl
  unfold Placed NodeCell.mean
  simp only [hcoordinate, Triangles.mean_weights_across, Triangles.mean_weights_down]
  unfold nodeCell
  simp only
  rw [mul_div_cancel₀ _ (sub_ne_zero.2 hlongitude), mul_div_cancel₀ _ (sub_ne_zero.2 hlatitude)]
  exact ⟨add_sub_cancel _ _, add_sub_cancel _ _⟩

/-- The gate asks of a grid only that its bounds are valid, and every time is one. -/
def openPlatform : Platform where
  dateParse _ := some 0
  sourceGate grid := if validBounds grid.bounds then none else some []
  sourceGate_bounds grid h := by
    by_contra hbounds
    rw [if_neg hbounds] at h
    cases h
  sqrt _ := 0
  numberText _ := []

def straightGrid : NormalizedElevationGrid where
  gridId := js "straight"
  title := js "Straight grid"
  bounds := ⟨0, 0, 2, 2⟩
  width := 3
  height := 3
  elevationsMeters := [0, 100, 200, 0, 100, 200, 0, 100, 200]
  rowOrder := .northToSouth
  horizontalCrs := js "EPSG:4326"
  coordinateModel := none
  longitudeDegreesByColumn := none
  latitudeDegreesByRow := none
  longitudeLatitudeDegreesByCell := none
  curvilinearSourceGrid := none
  verticalDatum := js "EGM96"
  generatedAt := js "2026-07-26T00:00:00.000Z"

/-- The node in the middle is not half way between its neighbours. -/
def curvedGrid : NormalizedElevationGrid := { straightGrid with
  coordinateModel := some .perGridNode
  longitudeLatitudeDegreesByCell := some
    [(0, 2), (1, 2), (2, 2), (0, 1), (9 / 5, 1), (2, 1), (0, 0), (1, 0), (2, 0)]
  curvilinearSourceGrid := some ⟨js "EPSG:32631", 0, 0, 2, 2, js "proj4js",
    js "source-affine-linear-inverse-projection"⟩ }

def twoLevels : ElevationVectorizationOptions where
  contourIntervalMeters := 1
  includeTerrainMesh := none
  includeContours := some false
  meshLodStrides := some [1, 2]
  meshMaxVerticalErrorMeters := some 1

theorem straightGrid_valid : validateGrid openPlatform straightGrid twoLevels = .ok ()
    ∧ openPlatform.sourceGate straightGrid = none :=
  ⟨eq_ok_of_toOption (by decide +kernel), by decide +kernel⟩

end Agid.Topographic
