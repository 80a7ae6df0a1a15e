import Agid.RegionGrid

/-!
# Matches across a grid line

A cell has the regions whose boxes meet it, edges included (`overlaps_iff`), and a point is in its
cell.  A region matches from a little outside of its box, and is lost where a grid line is between.
-/

namespace Agid.RegionGrid

variable {regions : Regions} {points : List (ℚ × ℚ)} {lat lon : ℚ}

/-! ## Cells -/

theorem overlaps_iff (s n w e : ℚ) (reg : GeoRegion) :
    overlaps s n w e reg = true ↔ (reg.box ∩ Set.Icc s n ×ˢ Set.Icc w e).Nonempty := by
  unfold overlaps GeoRegion.box
  rw [Set.prod_inter_prod, Set.prod_nonempty_iff, Set.Icc_inter_Icc, Set.nonempty_Icc,
    Bool.and_eq_true, decide_eq_true_eq, max_comm s, min_comm n]
  refine and_congr Iff.rfl ?_
  split_ifs with hwrap
  · rw [Set.union_inter_distrib_right, Set.union_nonempty, Set.Icc_inter_Icc, Set.Icc_inter_Icc,
      Set.nonempty_Icc, Set.nonempty_Icc, Bool.or_eq_true, decide_eq_true_eq, decide_eq_true_eq,
      max_comm w, min_comm e, max_comm w, min_comm e]
  · rw [Set.Icc_inter_Icc, Set.nonempty_Icc, decide_eq_true_eq, max_comm w, min_comm e]

theorem mem_step {g : ℚ} (hg : 0 < g) (x : ℚ) : x ∈ Set.Icc (⌊x / g⌋ * g) (⌊x / g⌋ * g + g) := by
  have hlow : ⌊x / g⌋ * g ≤ x := (le_div_iff₀ hg).1 (Int.floor_le _)
  have hhigh : x < (⌊x / g⌋ + 1) * g := (div_lt_iff₀ hg).1 (Int.lt_floor_add_one _)
  exact ⟨hlow, by linarith⟩

theorem mem_closedCell (lat lon : ℚ) : (lat, lon) ∈ closedCell lat lon :=
  ⟨mem_step (by norm_num [GRID_SIZE]) lat, mem_step (by norm_num [GRID_SIZE]) lon⟩

theorem layer_cellAt (key : ℤ × ℤ) (layer : Layer) :
    (cellAt regions key).layer layer = (regions.layer layer).filter (overlaps (key.1 * GRID_SIZE)
      (key.1 * GRID_SIZE + GRID_SIZE) (key.2 * GRID_SIZE) (key.2 * GRID_SIZE + GRID_SIZE)) := by
  rcases layer with _ | _ | _ <;> rfl

/-! ## The index -/

/-- Each cell of an index is the one of its key. -/
def Exact (regions : Regions) (index : GridIndex) : Prop :=
  ∀ key cell, index.get? key = some cell → cell = cellAt regions key

theorem Exact.getSpatialCell {index : GridIndex} (h : Exact regions index) (lat lon : ℚ) :
    Exact regions (getSpatialCell regions index lat lon).1
      ∧ (getSpatialCell regions index lat lon).2 = cellAt regions (getSpatialKey lat lon) := by
  unfold RegionGrid.getSpatialCell
  rcases hget : index.get? (getSpatialKey lat lon) with _ | cell
  · simp only [hget, and_true]
    intro key cell hcell
    rw [Record.get?_set] at hcell
    split_ifs at hcell with hkey
    · rw [← Option.some.inj hcell, hkey]
    · exact h key cell hcell
  · simp only [hget]
    exact ⟨h, h _ cell hget⟩

theorem exact_indexAfter (regions : Regions) : ∀ (points : List (ℚ × ℚ)) {index : GridIndex},
    Exact regions index →
      Exact regions (points.foldl (fun index p => (getSpatialCell regions index p.1 p.2).1) index)
  | [], _, h => h
  | p :: points, _, h => exact_indexAfter regions points (h.getSpatialCell p.1 p.2).1

/-- A cell is the same whatever was looked up before. -/
theorem cellOf_eq (regions : Regions) (points : List (ℚ × ℚ)) (lat lon : ℚ) :
    cellOf regions points lat lon = cellAt regions (getSpatialKey lat lon) := by
  have hempty : Exact regions (Record.empty : GridIndex) := fun key cell h => by cases h
  exact ((exact_indexAfter regions points hempty).getSpatialCell lat lon).2

theorem mem_cellOf (layer : Layer) (reg : GeoRegion) :
    reg ∈ (cellOf regions points lat lon).layer layer
      ↔ reg ∈ regions.layer layer ∧ (reg.box ∩ closedCell lat lon).Nonempty := by
  rw [cellOf_eq, layer_cellAt, List.mem_filter, overlaps_iff]
  rfl

/-! ## Matches -/

theorem filter_filter_eq_iff {α : Type*} {p q : α → Bool} {l : List α} :
    (l.filter p).filter q = l.filter q ↔ ∀ x ∈ l, q x → p x := by
  constructor
  · intro h x hx hq
    have hmem : x ∈ (l.filter p).filter q := h ▸ List.mem_filter.2 ⟨hx, hq⟩
    exact (List.mem_filter.1 (List.mem_filter.1 hmem).1).2
  · intro h
    rw [List.filter_filter]
    refine List.filter_congr fun x hx => ?_
    rw [Bool.and_eq_left_iff_imp]
    exact h x hx

theorem overlaps_cell (lat lon : ℚ) (reg : GeoRegion) : overlaps
    ((getSpatialKey lat lon).1 * GRID_SIZE) ((getSpatialKey lat lon).1 * GRID_SIZE + GRID_SIZE)
    ((getSpatialKey lat lon).2 * GRID_SIZE) ((getSpatialKey lat lon).2 * GRID_SIZE + GRID_SIZE) reg
      ↔ (reg.box ∩ closedCell lat lon).Nonempty :=
  overlaps_iff _ _ _ _ reg

theorem losesNoMatch_of_meets (h : ∀ layer, ∀ reg ∈ regions.layer layer, reg.matches lat lon →
    (reg.box ∩ closedCell lat lon).Nonempty) : LosesNoMatch regions points lat lon := by
  refine ⟨fun layer reg hreg hbox => ?_, fun layer => ?_⟩
  · exact (mem_cellOf layer reg).2 ⟨hreg, (lat, lon), hbox, mem_closedCell lat lon⟩
  · rw [cellOf_eq, layer_cellAt, filter_filter_eq_iff]
    exact fun reg hreg hmatches => (overlaps_cell lat lon reg).2 (h layer reg hreg hmatches)

/-- No match is lost exactly where the box of every region that matches meets the point's cell. -/
theorem losesNoMatch_iff (regions : Regions) (points : List (ℚ × ℚ)) (lat lon : ℚ) :
    LosesNoMatch regions points lat lon
      ↔ ∀ layer, ∀ reg ∈ regions.layer layer, reg.matches lat lon →
        (reg.box ∩ closedCell lat lon).Nonempty := by
  refine ⟨fun h layer reg hreg hmatches => ?_, losesNoMatch_of_meets⟩
  have hfilter := h.matched layer
  rw [cellOf_eq, layer_cellAt, filter_filter_eq_iff] at hfilter
  exact (overlaps_cell lat lon reg).1 (hfilter reg hreg hmatches)

/-! ## Plain boxes -/

/-- No grid line is within the tolerance of a bound, but for one that the bound is on. -/
def Clear (bound : ℚ) : Prop := ∀ k : ℤ, |bound - k * GRID_SIZE| ≤ EPS → bound = k * GRID_SIZE

structure GeoRegion.Plain (reg : GeoRegion) : Prop where
  n_clear : Clear reg.n
  s_clear : Clear reg.s
  w_clear : Clear reg.w
  e_clear : Clear reg.e
  s_le_n : reg.s ≤ reg.n
  w_le : reg.w ≤ 180
  le_e : -180 ≤ reg.e

/-- A bound that is a little past the point is not past its cell. -/
theorem Clear.le_step {bound x : ℚ} (h : Clear bound) (hx : bound - EPS ≤ x) :
    bound ≤ ⌊x / GRID_SIZE⌋ * GRID_SIZE + GRID_SIZE := by
  by_contra hlt
  have hcell : x < (⌊x / GRID_SIZE⌋ + 1) * GRID_SIZE :=
    (div_lt_iff₀ (by norm_num [GRID_SIZE])).1 (Int.lt_floor_add_one _)
  have hline := h (⌊x / GRID_SIZE⌋ + 1) (by
    push_cast
    rw [abs_le]
    constructor <;> linarith [show (0 : ℚ) < EPS by norm_num [EPS]])
  push_cast at hline
  linarith

theorem Clear.step_le {bound x : ℚ} (h : Clear bound) (hx : x ≤ bound + EPS) :
    ⌊x / GRID_SIZE⌋ * GRID_SIZE ≤ bound := by
  by_contra hlt
  have hcell := (mem_step (show 0 < GRID_SIZE by norm_num [GRID_SIZE]) x).1
  have hline := h ⌊x / GRID_SIZE⌋ (by
    rw [abs_le]
    constructor <;> linarith [show (0 : ℚ) < EPS by norm_num [EPS]])
  linarith

theorem meets_step {low high x : ℚ} (hlow : low ≤ ⌊x / GRID_SIZE⌋ * GRID_SIZE + GRID_SIZE)
    (hhigh : ⌊x / GRID_SIZE⌋ * GRID_SIZE ≤ high) (hle : low ≤ high) :
    (Set.Icc low high ∩ Set.Icc (⌊x / GRID_SIZE⌋ * GRID_SIZE)
      (⌊x / GRID_SIZE⌋ * GRID_SIZE + GRID_SIZE)).Nonempty := by
  rw [Set.Icc_inter_Icc, Set.nonempty_Icc]
  have hsize : (0 : ℚ) ≤ GRID_SIZE := by norm_num [GRID_SIZE]
  exact max_le (le_min hle hlow) (le_min hhigh (by linarith))

theorem GeoRegion.Plain.meets {reg : GeoRegion} (h : reg.Plain)
    (hlon : lon ∈ Set.Icc (-180) 180) (hmatches : reg.matches lat lon = true) :
    (reg.box ∩ closedCell lat lon).Nonempty := by
  have hbounds : inBounds lat lon reg = true := by
    unfold GeoRegion.matches isPointInPolygon at hmatches
    split_ifs at hmatches with hbounds
    exact hbounds
  unfold inBounds at hbounds
  simp only [Bool.not_eq_true', Bool.or_eq_false_iff, decide_eq_false_iff_not, not_lt] at hbounds
  obtain ⟨⟨hs, hn⟩, hinLon⟩ := hbounds
  unfold GeoRegion.box closedCell getSpatialKey
  rw [Set.prod_inter_prod, Set.prod_nonempty_iff]
  refine ⟨meets_step (h.s_clear.le_step hs) (h.n_clear.step_le hn) h.s_le_n, ?_⟩
  have hstep := mem_step (show 0 < GRID_SIZE by norm_num [GRID_SIZE]) lon
  by_cases hwrap : reg.e < reg.w
  · rw [if_pos hwrap, Set.union_inter_distrib_right, Set.union_nonempty]
    rw [if_neg (not_le.2 hwrap)] at hinLon
    simp only [Bool.not_eq_false', Bool.or_eq_true, decide_eq_true_eq] at hinLon
    rcases hinLon with hw | he
    · exact .inl (meets_step (h.w_clear.le_step hw) (hstep.1.trans hlon.2) h.w_le)
    · exact .inr (meets_step (hlon.1.trans hstep.2) (h.e_clear.step_le he) h.le_e)
  · rw [if_neg hwrap]
    rw [if_pos (not_lt.1 hwrap)] at hinLon
    simp only [Bool.not_eq_false', Bool.and_eq_true, decide_eq_true_eq] at hinLon
    exact meets_step (h.w_clear.le_step hinLon.1) (h.e_clear.step_le hinLon.2) (not_lt.1 hwrap)

/-- Where every box is plain, no match is lost at any normalized point. -/
theorem losesNoMatch_of_plain (hplain : ∀ layer, ∀ reg ∈ regions.layer layer, reg.Plain)
    (hlon : lon ∈ Set.Icc (-180) 180) : LosesNoMatch regions points lat lon :=
  losesNoMatch_of_meets fun layer reg hreg => (hplain layer reg hreg).meets hlon

/-- Regions that are of the country `F`, of which one starts a hair past the second parallel. -/
def hairRegions : Regions where
  seas := []
  countries := [⟨10, 2 + 1 / 20000000000, 0, 10, none, none⟩]
  continents := []

theorem hair_loses_match : ¬ LosesNoMatch hairRegions [] (2 - 3 / 100000000000) 5 := by
  intro h
  have hmatched := h.matched .countries
  revert hmatched
  decide +kernel

end Agid.RegionGrid
