import Agid.GeometryBuckets
import Agid.Lib.Checks

/-!
# What the bucket index returns

A feature is in the buckets of the cells of its bounds, or in the global list.  So a query returns
the features whose cells have that of the point, or one of those of the box, and the global ones,
each once.
-/

namespace Agid.PostalContext

open PointLocation (Position Geometry)
open Checks (bind_eq_ok)

/-! ## Cells -/

theorem mem_wholeRange {first last k : ℤ} : k ∈ wholeRange first last ↔ first ≤ k ∧ k ≤ last := by
  simp only [wholeRange, List.mem_map, List.mem_range]
  constructor
  · rintro ⟨index, hindex, rfl⟩
    omega
  · rintro ⟨hfirst, hlast⟩
    exact ⟨(k - first).toNat, by omega, by omega⟩

/-- The cell is one of those between the cells of two corners. -/
def CellBetween (first last cell : Cell) : Prop :=
  (first.1 ≤ cell.1 ∧ cell.1 ≤ last.1) ∧ first.2 ≤ cell.2 ∧ cell.2 ≤ last.2

def firstCell (cellSize : ℚ) (bbox : Bbox) : Cell :=
  cellForPoint cellSize (bbox.minimumLongitude, bbox.minimumLatitude)

def lastCell (cellSize : ℚ) (bbox : Bbox) : Cell :=
  cellForPoint cellSize (bbox.maximumLongitude, bbox.maximumLatitude)

theorem mem_cellsForBbox {cellSize : ℚ} {bbox : Bbox} {maximum : ℕ} {cells : List Cell}
    (h : cellsForBbox cellSize (some bbox) maximum = some cells) (cell : Cell) :
    cell ∈ cells ↔ CellBetween (firstCell cellSize bbox) (lastCell cellSize bbox) cell := by
  unfold cellsForBbox at h
  dsimp only at h
  split_ifs at h with hcount
  obtain rfl := Option.some.inj h
  simp only [List.mem_flatMap, List.mem_map, mem_wholeRange]
  constructor
  · rintro ⟨longitude, hlongitude, latitude, hlatitude, rfl⟩
    exact ⟨hlongitude, hlatitude⟩
  · intro hcell
    exact ⟨cell.1, hcell.1, cell.2, hcell.2, rfl⟩

theorem bbox_of_cellsForBbox {cellSize : ℚ} {bounds : Option Bbox} {maximum : ℕ}
    {cells : List Cell} (h : cellsForBbox cellSize bounds maximum = some cells) :
    ∃ bbox, bounds = some bbox := by
  cases bounds with
  | none => cases h
  | some bbox => exact ⟨bbox, rfl⟩

/-- The first coordinate is in a cell before that of the second where a border is between them. -/
theorem floor_lt_floor_iff {origin cellSize a b : ℚ} (hsize : 0 < cellSize) :
    ⌊(a + origin) / cellSize⌋ < ⌊(b + origin) / cellSize⌋
      ↔ ∃ k : ℤ, a < k * cellSize - origin ∧ k * cellSize - origin ≤ b := by
  have hborder : ∀ k : ℤ, (⌊(a + origin) / cellSize⌋ < k ↔ a < k * cellSize - origin)
      ∧ (k ≤ ⌊(b + origin) / cellSize⌋ ↔ k * cellSize - origin ≤ b) := fun k => by
    rw [Int.floor_lt, Int.le_floor, div_lt_iff₀ hsize, le_div_iff₀ hsize, lt_sub_iff_add_lt,
      sub_le_iff_le_add]
    exact ⟨Iff.rfl, Iff.rfl⟩
  constructor
  · intro h
    exact ⟨_, (hborder _).1.1 h, (hborder _).2.1 le_rfl⟩
  · rintro ⟨k, hfirst, hsecond⟩
    exact ((hborder k).1.2 hfirst).trans_le ((hborder k).2.2 hsecond)

/-! ## Bounds -/

/-- A box whose sides are in order. -/
def Bbox.Ordered (bbox : Bbox) : Prop :=
  bbox.minimumLongitude ≤ bbox.maximumLongitude ∧ bbox.minimumLatitude ≤ bbox.maximumLatitude

theorem ordered_extend {bounds : Option Bbox} (h : ∀ b ∈ bounds, b.Ordered) (position : Position) :
    ∀ b ∈ Bbox.extend bounds position, b.Ordered := by
  rintro b hb
  rcases bounds with _ | bounds
  · obtain rfl := Option.some.inj hb
    exact ⟨le_rfl, le_rfl⟩
  · obtain rfl := Option.some.inj hb
    obtain ⟨hlongitude, hlatitude⟩ := h bounds rfl
    exact ⟨(min_le_left _ _).trans (hlongitude.trans (le_max_left _ _)),
      (min_le_left _ _).trans (hlatitude.trans (le_max_left _ _))⟩

theorem ordered_foldl : ∀ (positions : List Position) {bounds : Option Bbox},
    (∀ b ∈ bounds, b.Ordered) → ∀ b ∈ positions.foldl Bbox.extend bounds, b.Ordered
  | [], _, h => h
  | position :: positions, _, h => ordered_foldl positions (ordered_extend h position)

theorem ordered_bounds {geometry : Geometry} {bounds : Bbox}
    (h : postalContextGeometryBounds geometry = some bounds) : bounds.Ordered := by
  have hnone : ∀ b ∈ (none : Option Bbox), b.Ordered := nofun
  exact ordered_foldl (geometryPositions geometry) hnone bounds h

/-! ## Building the index -/

/-- The cell is one of those that the feature is registered in. -/
def InCell (cellSize : ℚ) (cell : Cell) (feature : GeometryFeature) : Prop :=
  ∃ cells, cellsForBbox cellSize (postalContextGeometryBounds feature.geometry)
    INDEX_LIMITS.cellsPerFeature = some cells ∧ cell ∈ cells

/-- The feature is in the global list. -/
def Everywhere (cellSize : ℚ) (feature : GeometryFeature) : Prop :=
  cellsForBbox cellSize (postalContextGeometryBounds feature.geometry)
    INDEX_LIMITS.cellsPerFeature = none

/-- The index has these features, with those it had before. -/
structure Holds (old new : GeometryBucketIndex) (features : List GeometryFeature) : Prop where
  cellSize : new.cellSize = old.cellSize
  buckets : ∀ cell entry, entry ∈ new.buckets cell ↔ entry ∈ old.buckets cell
    ∨ ∃ feature ∈ features, InCell old.cellSize cell feature ∧ entry = indexFeature feature
  global : ∀ entry, entry ∈ new.global ↔ entry ∈ old.global
    ∨ ∃ feature ∈ features, Everywhere old.cellSize feature ∧ entry = indexFeature feature

theorem Holds.refl (index : GeometryBucketIndex) : Holds index index [] where
  cellSize := rfl
  buckets := by simp
  global := by simp

theorem Holds.trans {old middle new : GeometryBucketIndex}
    {features features' : List GeometryFeature} (h : Holds old middle features)
    (h' : Holds middle new features') : Holds old new (features ++ features') where
  cellSize := h'.cellSize.trans h.cellSize
  buckets cell entry := by
    rw [h'.buckets, h.buckets, h.cellSize, or_assoc]
    simp only [List.mem_append, or_and_right, exists_or]
  global entry := by
    rw [h'.global, h.global, h.cellSize, or_assoc]
    simp only [List.mem_append, or_and_right, exists_or]

theorem holds_insert {index new : GeometryBucketIndex} {budget budget' : BuildBudget}
    {feature : GeometryFeature}
    (h : index.insert budget (indexFeature feature) = .ok (new, budget')) :
    Holds index new [feature] := by
  unfold GeometryBucketIndex.insert at h
  rcases hcells : cellsForBbox index.cellSize (indexFeature feature).bounds
    INDEX_LIMITS.cellsPerFeature with _ | cells <;> rw [hcells] at h <;> dsimp only at h
  · split_ifs at h
    obtain ⟨rfl, -⟩ := Prod.mk.inj (Except.ok.inj h)
    refine ⟨rfl, fun cell entry => ?_, fun entry => ?_⟩
    · have hout : ¬ InCell index.cellSize cell feature := by
        rintro ⟨cells, hsome, -⟩
        exact absurd (hcells.symm.trans hsome) nofun
      simp [hout]
    · simp [show Everywhere index.cellSize feature from hcells]
  · split_ifs at h
    obtain ⟨rfl, -⟩ := Prod.mk.inj (Except.ok.inj h)
    refine ⟨rfl, fun cell entry => ?_, fun entry => ?_⟩
    · have hin : InCell index.cellSize cell feature ↔ cell ∈ cells :=
        ⟨fun ⟨_, hsome, hcell⟩ => Option.some.inj (hsome.symm.trans hcells) ▸ hcell,
          fun hcell => ⟨cells, hcells, hcell⟩⟩
      simp only [List.mem_singleton, exists_eq_left, hin]
      split_ifs with hcell <;> simp [hcell]
    · have hout : ¬ Everywhere index.cellSize feature := fun hnone =>
        absurd (hcells.symm.trans hnone) nofun
      simp [hout]

theorem holds_insertAll : ∀ {features : List GeometryFeature} {index new : GeometryBucketIndex}
    {budget budget' : BuildBudget}, index.insertAll budget features = .ok (new, budget') →
      Holds index new features
  | [], index, new, budget, budget', h => by
    obtain ⟨rfl, -⟩ := Prod.mk.inj (Except.ok.inj h)
    exact Holds.refl index
  | feature :: features, index, new, budget, budget', h => by
    obtain ⟨⟨middle, middleBudget⟩, hinsert, hrest⟩ := bind_eq_ok.1 h
    exact (holds_insert hinsert).trans (holds_insertAll hrest)

/-- The index of the features. -/
structure Indexes (index : GeometryBucketIndex) (size : ℚ) (features : List GeometryFeature) :
    Prop where
  cellSize : index.cellSize = size
  buckets : ∀ cell entry, entry ∈ index.buckets cell
    ↔ ∃ feature ∈ features, InCell size cell feature ∧ entry = indexFeature feature
  global : ∀ entry, entry ∈ index.global
    ↔ ∃ feature ∈ features, Everywhere size feature ∧ entry = indexFeature feature

theorem indexes_build {features : List GeometryFeature} {cellSize : ℚ}
    {index : GeometryBucketIndex} {budget budget' : BuildBudget}
    (h : GeometryBucketIndex.build features cellSize budget = .ok (index, budget')) :
    Indexes index cellSize features := by
  obtain ⟨hsize, hbuckets, hglobal⟩ := holds_insertAll h
  exact ⟨hsize, fun cell entry => by simpa using hbuckets cell entry,
    fun entry => by simpa using hglobal entry⟩

/-! ## Entries once each -/

/-- Entries with one id are one entry. -/
def IdsApart (entries : List IndexedFeature) : Prop :=
  ∀ e ∈ entries, ∀ e' ∈ entries, e.feature.id = e'.feature.id → e = e'

theorem setById_of_mem {byId : List IndexedFeature} {entry : IndexedFeature}
    (hids : ∀ e ∈ byId, e.feature.id = entry.feature.id → e = entry) (h : entry ∈ byId) :
    setById byId entry = byId := by
  rw [setById, if_pos (List.any_eq_true.2 ⟨entry, h, by simp⟩)]
  refine (List.map_congr_left fun other hother => ?_).trans (List.map_id byId)
  split_ifs with hid
  · exact (hids other hother hid).symm
  · rfl

theorem setById_of_not_mem {byId : List IndexedFeature} {entry : IndexedFeature}
    (hids : ∀ e ∈ byId, e.feature.id = entry.feature.id → e = entry) (h : entry ∉ byId) :
    setById byId entry = byId ++ [entry] := by
  rw [setById, if_neg]
  rw [List.any_eq_true]
  rintro ⟨other, hother, hid⟩
  exact h (hids other hother (by simpa using hid) ▸ hother)

/-- The entries, each once. -/
structure OnceEach (entries result : List IndexedFeature) : Prop where
  mem : ∀ e, e ∈ result ↔ e ∈ entries
  nodup : result.Nodup

theorem onceEach_deduplicate {maximum : ℕ} : ∀ {entries byId result : List IndexedFeature},
    IdsApart (byId ++ entries) → byId.Nodup → deduplicate maximum byId entries = some result →
      OnceEach (byId ++ entries) result
  | [], byId, result, _, hnodup, h => by
    obtain rfl := Option.some.inj h
    exact ⟨by simp, hnodup⟩
  | entry :: entries, byId, result, hids, hnodup, h => by
    have hentry : ∀ e ∈ byId, e.feature.id = entry.feature.id → e = entry := fun e he hid =>
      hids e (List.mem_append_left _ he) entry (by simp) hid
    unfold deduplicate at h
    split_ifs at h
    by_cases hmem : entry ∈ byId
    · rw [setById_of_mem hentry hmem] at h
      have hsub : ∀ e, e ∈ byId ++ entries ↔ e ∈ byId ++ entry :: entries := by
        intro e
        simp only [List.mem_append, List.mem_cons]
        constructor
        · rintro (he | he) <;> simp [he]
        · rintro (he | rfl | he)
          · exact Or.inl he
          · exact Or.inl hmem
          · exact Or.inr he
      obtain ⟨hresult, hres⟩ := onceEach_deduplicate (fun e he e' he' =>
        hids e ((hsub e).1 he) e' ((hsub e').1 he')) hnodup h
      exact ⟨fun e => (hresult e).trans (hsub e), hres⟩
    · rw [setById_of_not_mem hentry hmem] at h
      rw [List.append_cons] at hids ⊢
      exact onceEach_deduplicate hids
        (List.nodup_append.2 ⟨hnodup, List.nodup_singleton entry, by
          rintro a ha b hb rfl
          exact hmem (List.mem_singleton.1 hb ▸ ha)⟩) h

theorem onceEach_of_deduplicate {maximum : ℕ} {entries result : List IndexedFeature}
    (hids : IdsApart entries) (h : deduplicate maximum [] entries = some result) :
    OnceEach entries result :=
  @onceEach_deduplicate maximum entries [] result hids List.nodup_nil h

/-! ## What the queries return -/

section Queries

variable {index : GeometryBucketIndex} {cellSize : ℚ} {features : List GeometryFeature}

theorem indexFeature_injective : Function.Injective indexFeature := fun _ _ h =>
  congrArg IndexedFeature.feature h

/-- Features with one id are one feature, and none is there twice. -/
def DistinctIds (features : List GeometryFeature) : Prop := (features.map (·.id)).Nodup

theorem DistinctIds.eq (h : DistinctIds features) {f f' : GeometryFeature} (hf : f ∈ features)
    (hf' : f' ∈ features) (hid : f.id = f'.id) : f = f' :=
  List.inj_on_of_nodup_map h hf hf' hid

theorem DistinctIds.nodup (h : DistinctIds features) : features.Nodup := List.Nodup.of_map _ h

theorem DistinctIds.filter (h : DistinctIds features) (p : GeometryFeature → Bool) :
    DistinctIds (features.filter p) :=
  List.Nodup.sublist ((List.filter_sublist (p := p)).map _) h

/-- A query that looks at the entries of some features returns those features. -/
theorem perm_of_onceEach (hdistinct : DistinctIds features) {p : GeometryFeature → Prop}
    [DecidablePred p] {entries result : List IndexedFeature}
    (hentries : ∀ e, e ∈ entries ↔ ∃ f ∈ features, p f ∧ e = indexFeature f)
    (h : OnceEach entries result) :
    result.Perm ((features.filter p).map indexFeature) := by
  rw [List.perm_ext_iff_of_nodup h.nodup
    ((hdistinct.filter _).nodup.map indexFeature_injective)]
  intro e
  rw [h.mem, hentries]
  simp only [List.mem_map, List.mem_filter, decide_eq_true_eq]
  constructor
  · rintro ⟨f, hf, hp, rfl⟩
    exact ⟨f, ⟨hf, hp⟩, rfl⟩
  · rintro ⟨f, ⟨hf, hp⟩, rfl⟩
    exact ⟨f, hf, hp, rfl⟩

theorem idsApart_of_indexes (hdistinct : DistinctIds features) {p : GeometryFeature → Prop}
    {entries : List IndexedFeature}
    (hentries : ∀ e, e ∈ entries ↔ ∃ f ∈ features, p f ∧ e = indexFeature f) :
    IdsApart entries := by
  intro e he e' he' hid
  obtain ⟨f, hf, -, rfl⟩ := (hentries e).1 he
  obtain ⟨f', hf', -, rfl⟩ := (hentries e').1 he'
  exact congrArg indexFeature (hdistinct.eq hf hf' hid)

open Classical in
/-- The features that a query by a point looks at. -/
theorem perm_queryPoint (hindex : Indexes index cellSize features)
    (hdistinct : DistinctIds features) {point : Position} {entries : List IndexedFeature}
    (h : index.queryPoint point = some entries) :
    entries.Perm ((features.filter fun f =>
      InCell cellSize (cellForPoint cellSize point) f ∨ Everywhere cellSize f).map
        indexFeature) := by
  have hentries : ∀ e, e ∈ index.buckets (cellForPoint index.cellSize point) ++ index.global
      ↔ ∃ f ∈ features, (InCell cellSize (cellForPoint cellSize point) f
        ∨ Everywhere cellSize f) ∧ e = indexFeature f := by
    intro e
    rw [List.mem_append, hindex.buckets, hindex.global, hindex.cellSize]
    simp only [or_and_right, and_or_left, exists_or]
  exact perm_of_onceEach hdistinct hentries (onceEach_of_deduplicate
    (idsApart_of_indexes hdistinct hentries) h)

open Classical in
/-- The features that a query by a box looks at. -/
theorem perm_queryBbox (hindex : Indexes index cellSize features)
    (hdistinct : DistinctIds features) {bbox : Bbox} {entries : List IndexedFeature}
    (h : index.queryBbox bbox = some entries) :
    entries.Perm ((features.filter fun f =>
      (∃ cell, CellBetween (firstCell cellSize bbox) (lastCell cellSize bbox) cell
        ∧ InCell cellSize cell f) ∨ Everywhere cellSize f).map indexFeature) := by
  unfold GeometryBucketIndex.queryBbox at h
  rcases hcells : cellsForBbox index.cellSize (some bbox) QUERY_LIMITS.bboxCells with _ | cells <;>
    rw [hcells] at h <;> dsimp only at h
  · cases h
  have hentries : ∀ e, e ∈ cells.flatMap index.buckets ++ index.global
      ↔ ∃ f ∈ features,
        ((∃ cell, CellBetween (firstCell cellSize bbox) (lastCell cellSize bbox) cell
          ∧ InCell cellSize cell f) ∨ Everywhere cellSize f) ∧ e = indexFeature f := by
    intro e
    have hmem := mem_cellsForBbox hcells
    rw [hindex.cellSize] at hmem
    simp only [List.mem_append, List.mem_flatMap, hindex.buckets, hindex.global, hmem]
    constructor
    · rintro (⟨cell, hcell, f, hf, hin, rfl⟩ | ⟨f, hf, hevery, rfl⟩)
      · exact ⟨f, hf, Or.inl ⟨cell, hcell, hin⟩, rfl⟩
      · exact ⟨f, hf, Or.inr hevery, rfl⟩
    · rintro ⟨f, hf, ⟨cell, hcell, hin⟩ | hevery, rfl⟩
      · exact Or.inl ⟨cell, hcell, f, hf, hin, rfl⟩
      · exact Or.inr ⟨f, hf, hevery, rfl⟩
  exact perm_of_onceEach hdistinct hentries (onceEach_of_deduplicate
    (idsApart_of_indexes hdistinct hentries) h)

end Queries

/-! ## Which features are looked at -/

theorem inCell_iff {cellSize : ℚ} {feature : GeometryFeature} {bounds : Bbox} {cells : List Cell}
    (hbounds : postalContextGeometryBounds feature.geometry = some bounds)
    (hcells : cellsForBbox cellSize (some bounds) INDEX_LIMITS.cellsPerFeature = some cells)
    (cell : Cell) : InCell cellSize cell feature
      ↔ CellBetween (firstCell cellSize bounds) (lastCell cellSize bounds) cell := by
  rw [← mem_cellsForBbox hcells]
  constructor
  · rintro ⟨cells', hcells', hcell⟩
    rw [hbounds, hcells] at hcells'
    exact Option.some.inj hcells' ▸ hcell
  · exact fun hcell => ⟨cells, hbounds ▸ hcells, hcell⟩

/-- Two boxes in order that meet have a cell in common. -/
theorem cellBetween_of_meet {cellSize : ℚ} (hsize : 0 < cellSize) {a b : Bbox} (ha : a.Ordered)
    (hb : b.Ordered) (hlongitude : a.minimumLongitude ≤ b.maximumLongitude
      ∧ b.minimumLongitude ≤ a.maximumLongitude)
    (hlatitude : a.minimumLatitude ≤ b.maximumLatitude
      ∧ b.minimumLatitude ≤ a.maximumLatitude) :
    ∃ cell, CellBetween (firstCell cellSize a) (lastCell cellSize a) cell
      ∧ CellBetween (firstCell cellSize b) (lastCell cellSize b) cell := by
  have hle {origin x y : ℚ} (h : x ≤ y) :
      ⌊(x + origin) / cellSize⌋ ≤ ⌊(y + origin) / cellSize⌋ :=
    Int.floor_le_floor (div_le_div_of_nonneg_right (by linarith) hsize.le)
  refine ⟨(max (firstCell cellSize a).1 (firstCell cellSize b).1,
    max (firstCell cellSize a).2 (firstCell cellSize b).2), ⟨⟨?_, ?_⟩, ?_, ?_⟩, ⟨?_, ?_⟩, ?_, ?_⟩
  · exact le_max_left _ _
  · exact max_le (hle ha.1) (hle hlongitude.2)
  · exact le_max_left _ _
  · exact max_le (hle ha.2) (hle hlatitude.2)
  · exact le_max_right _ _
  · exact max_le (hle hlongitude.1) (hle hb.1)
  · exact le_max_right _ _
  · exact max_le (hle hlatitude.1) (hle hb.2)

end Agid.PostalContext
