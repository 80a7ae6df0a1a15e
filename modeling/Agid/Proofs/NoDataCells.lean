import Agid.NoDataCells
import Agid.Proofs.TerrainMesh

/-!
# Cells without data

The loop reads from a copy, so what it leaves is told cell by cell (`fillCells_eq_ok`): a listed
cell gets the mean of the observations beside it, and any other cell stays.  Neither the order of
the list nor what another listed cell gets has a part in it.
-/

namespace Agid.GeoTiff

open Checks

/-! ## The cells beside a cell -/

section Grid

variable {width height : ℕ}

theorem div_mod_cell {column : ℕ} (hcolumn : column < width) (row : ℕ) :
    (width * row + column) / width = row ∧ (width * row + column) % width = column := by
  constructor
  · rw [Nat.mul_add_div (by omega), Nat.div_eq_of_lt hcolumn, add_zero]
  · rw [Nat.mul_add_mod, Nat.mod_eq_of_lt hcolumn]

theorem cell_lt_iff {row column : ℕ} (hcolumn : column < width) :
    width * row + column < width * height ↔ row < height := by
  constructor
  · intro h
    by_contra hrow
    have := Nat.mul_le_mul_left width (not_lt.1 hrow)
    omega
  · intro h
    have := Nat.mul_le_mul_left width (Nat.succ_le_of_lt h)
    rw [Nat.mul_succ] at this
    omega

theorem cell_inj {row column row' column' : ℕ} (hcolumn : column < width)
    (hcolumn' : column' < width) :
    width * row + column = width * row' + column' ↔ row = row' ∧ column = column' := by
  constructor
  · intro h
    obtain ⟨hdiv, hmod⟩ := div_mod_cell hcolumn row
    rw [h] at hdiv hmod
    obtain ⟨hdiv', hmod'⟩ := div_mod_cell hcolumn' row'
    exact ⟨hdiv.symm.trans hdiv', hmod.symm.trans hmod'⟩
  · rintro ⟨rfl, rfl⟩
    rfl

/-- The neighbours of a cell in the order in which the code reads them. -/
def CardinalNeighbors.list (neighbors : CardinalNeighbors) : List ℕ :=
  [neighbors.left, neighbors.right, neighbors.up, neighbors.down].filterMap id

theorem mem_list {neighbors : CardinalNeighbors} {j : ℕ} :
    j ∈ neighbors.list ↔ neighbors.left = some j ∨ neighbors.right = some j
      ∨ neighbors.up = some j ∨ neighbors.down = some j := by
  simp [CardinalNeighbors.list, eq_comm]

theorem exists_cell {index : ℕ} (hindex : index < width * height) :
    ∃ row column, column < width ∧ index = width * row + column :=
  ⟨index / width, index % width, Nat.mod_lt _ (Nat.pos_of_ne_zero (by rintro rfl; simp at hindex)),
    (Nat.div_add_mod index width).symm⟩

variable {row column row' column' : ℕ}

theorem left_eq_some (hcolumn : column < width) (hcolumn' : column' < width) :
    (cardinalNeighborIndexes (width * row + column) width height).left
        = some (width * row' + column')
      ↔ row = row' ∧ column' + 1 = column := by
  simp only [cardinalNeighborIndexes, (div_mod_cell hcolumn row).2]
  rcases column with _ | column
  · simp
  · rw [if_pos (Nat.succ_pos column), Option.some_inj,
      show width * row + (column + 1) - 1 = width * row + column from by omega,
      cell_inj (by omega) hcolumn']
    omega

theorem right_eq_some (hcolumn : column < width) (hcolumn' : column' < width) :
    (cardinalNeighborIndexes (width * row + column) width height).right
        = some (width * row' + column')
      ↔ row = row' ∧ column + 1 = column' := by
  simp only [cardinalNeighborIndexes, (div_mod_cell hcolumn row).2]
  split_ifs with h
  · rw [Option.some_inj, add_assoc, cell_inj h hcolumn']
  · simp only [false_iff]
    omega

theorem up_eq_some (hcolumn : column < width) (hcolumn' : column' < width) :
    (cardinalNeighborIndexes (width * row + column) width height).up
        = some (width * row' + column')
      ↔ column = column' ∧ row' + 1 = row := by
  simp only [cardinalNeighborIndexes, (div_mod_cell hcolumn row).1]
  rcases row with _ | row
  · simp
  · rw [if_pos (Nat.succ_pos row), Option.some_inj, Nat.mul_succ,
      show width * row + width + column - width = width * row + column from by omega,
      cell_inj hcolumn hcolumn']
    omega

theorem down_eq_some (hcolumn : column < width) (hcolumn' : column' < width) :
    (cardinalNeighborIndexes (width * row + column) width height).down
        = some (width * row' + column')
      ↔ (column = column' ∧ row + 1 = row') ∧ row' < height := by
  simp only [cardinalNeighborIndexes, (div_mod_cell hcolumn row).1]
  split_ifs with h
  · rw [Option.some_inj, show width * row + column + width = width * (row + 1) + column from by
      rw [Nat.mul_succ]; omega, cell_inj hcolumn hcolumn']
    omega
  · simp only [false_iff]
    omega

/-- The neighbours are the cells of the grid that lie beside the cell. -/
theorem mem_cardinalNeighborIndexes {index j : ℕ} (hindex : index < width * height)
    (hj : j < width * height) :
    j ∈ (cardinalNeighborIndexes index width height).list ↔ Beside width index j := by
  obtain ⟨row, column, hcolumn, rfl⟩ := exists_cell hindex
  obtain ⟨row', column', hcolumn', rfl⟩ := exists_cell hj
  rw [cell_lt_iff hcolumn'] at hj
  rw [mem_list, left_eq_some hcolumn hcolumn', right_eq_some hcolumn hcolumn',
    up_eq_some hcolumn hcolumn', down_eq_some hcolumn hcolumn', Beside,
    (div_mod_cell hcolumn row).1, (div_mod_cell hcolumn row).2, (div_mod_cell hcolumn' row').1,
    (div_mod_cell hcolumn' row').2]
  omega

theorem lt_of_mem_cardinalNeighborIndexes {index j : ℕ} (hindex : index < width * height)
    (hj : j ∈ (cardinalNeighborIndexes index width height).list) : j < width * height := by
  obtain ⟨row, column, hcolumn, rfl⟩ := exists_cell hindex
  have hrow := (cell_lt_iff hcolumn).1 hindex
  rw [mem_list] at hj
  simp only [cardinalNeighborIndexes, (div_mod_cell hcolumn row).1,
    (div_mod_cell hcolumn row).2] at hj
  rcases hj with h | h | h | h
  · split_ifs at h
    obtain rfl := Option.some.inj h
    omega
  · split_ifs at h with hright
    obtain rfl := Option.some.inj h
    exact (cell_lt_iff hright).2 hrow
  · split_ifs at h
    obtain rfl := Option.some.inj h
    omega
  · split_ifs at h with hdown
    obtain rfl := Option.some.inj h
    have := (cell_lt_iff hcolumn).2 hdown
    rw [Nat.mul_succ] at this
    omega

theorem nodup_list {index : ℕ} (hindex : index < width * height) :
    (cardinalNeighborIndexes index width height).list.Nodup := by
  have hwidth : 0 < width := Nat.pos_of_ne_zero (by rintro rfl; simp at hindex)
  have hcolumn : index % width < width := Nat.mod_lt _ hwidth
  have hrow : 0 < index / width → width ≤ index := fun h => (Nat.div_pos_iff.1 h).2
  have hfirst : index % width ≤ index := Nat.mod_le _ _
  simp only [CardinalNeighbors.list, cardinalNeighborIndexes]
  split_ifs <;> simp <;> omega

/-! ## The mean beside a cell -/

variable {original : List (Option ℚ)} {index : ℕ}

theorem filterMap_eq_map_filter {α : Type} (f : α → Option ℚ) : ∀ l : List α,
    l.filterMap f = (l.filter fun a => (f a).isSome).map fun a => (f a).getD 0
  | [] => rfl
  | a :: l => by
    rcases hf : f a with _ | q
    · simp [hf, filterMap_eq_map_filter f l]
    · simp [hf, filterMap_eq_map_filter f l]

theorem observedNeighbors_eq (neighbors : CardinalNeighbors) :
    observedNeighbors original neighbors = neighbors.list.filterMap (observedAt original) := by
  rw [CardinalNeighbors.list, List.filterMap_filterMap]
  rfl

theorem toFinset_filter_list (hsize : original.length = width * height)
    (hindex : index < width * height) :
    ((cardinalNeighborIndexes index width height).list.filter fun j =>
      (observedAt original j).isSome).toFinset = observedBeside original width index := by
  ext j
  simp only [List.mem_toFinset, List.mem_filter, observedBeside, Finset.mem_filter,
    Finset.mem_range, hsize]
  constructor
  · rintro ⟨hj, hobserved⟩
    have hlt := lt_of_mem_cardinalNeighborIndexes hindex hj
    exact ⟨hlt, (mem_cardinalNeighborIndexes hindex hlt).1 hj, hobserved⟩
  · rintro ⟨hlt, hbeside, hobserved⟩
    exact ⟨(mem_cardinalNeighborIndexes hindex hlt).2 hbeside, hobserved⟩

/-- What the code computes from the neighbours that it reads. -/
theorem mean_observedNeighbors (hsize : original.length = width * height)
    (hindex : index < width * height) :
    (observedNeighbors original (cardinalNeighborIndexes index width height)).foldl (· + ·) 0
        / (observedNeighbors original (cardinalNeighborIndexes index width height)).length
      = cardinalMean original width index := by
  have hnodup := (nodup_list hindex).filter fun j => (observedAt original j).isSome
  rw [observedNeighbors_eq, filterMap_eq_map_filter, ← List.sum_eq_foldl, List.length_map,
    ← List.sum_toFinset _ hnodup, ← List.toFinset_card_of_nodup hnodup,
    toFinset_filter_list hsize hindex, cardinalMean]

/-- The cell has an opposing pair of observed neighbours. -/
def Isolated (original : List (Option ℚ)) (width height index : ℕ) : Prop :=
  (observedPair original (cardinalNeighborIndexes index width height).left
      (cardinalNeighborIndexes index width height).right
    || observedPair original (cardinalNeighborIndexes index width height).up
      (cardinalNeighborIndexes index width height).down) = true

theorem resolveCell_eq_ok (hsize : original.length = width * height)
    (hindex : index < width * height) {filled : ℚ} :
    resolveCell original width height index = .ok filled
      ↔ Isolated original width height index ∧ filled = cardinalMean original width index := by
  rw [resolveCell, bind_eq_ok]
  simp only [require_eq_ok, mean_observedNeighbors hsize hindex, Except.ok.injEq, Isolated,
    ← Bool.not_or, Bool.not_not, exists_and_left]
  constructor
  · rintro ⟨hpair, -, rfl⟩
    exact ⟨hpair, rfl⟩
  · rintro ⟨hpair, rfl⟩
    exact ⟨hpair, (), rfl⟩

theorem observedBeside_nonempty (hsize : original.length = width * height)
    (hindex : index < width * height) (h : Isolated original width height index) :
    (observedBeside original width index).Nonempty := by
  rw [← toFinset_filter_list hsize hindex]
  have hone {one other : Option ℕ} (hpair : observedPair original one other = true) :
      ∃ j, one = some j ∧ (observedAt original j).isSome := by
    rw [observedPair, Bool.and_eq_true] at hpair
    rcases one with _ | j
    · simp at hpair
    · exact ⟨j, rfl, hpair.1⟩
  rw [Isolated, Bool.or_eq_true] at h
  rcases h with h | h
  · obtain ⟨j, hj, hobserved⟩ := hone h
    exact ⟨j, List.mem_toFinset.2 (List.mem_filter.2 ⟨mem_list.2 (.inl hj), hobserved⟩)⟩
  · obtain ⟨j, hj, hobserved⟩ := hone h
    exact ⟨j, List.mem_toFinset.2
      (List.mem_filter.2 ⟨mem_list.2 (.inr (.inr (.inl hj))), hobserved⟩)⟩

theorem exists_spanned (h : (observedBeside original width index).Nonempty) :
    ∃ least greatest, Spanned original width index (cardinalMean original width index)
      least greatest := by
  have hvalue {j : ℕ} (hj : j ∈ observedBeside original width index) :
      observedAt original j = some ((observedAt original j).getD 0) := by
    obtain ⟨q, hq⟩ := Option.isSome_iff_exists.1 (Finset.mem_filter.1 hj).2.2
    rw [hq, Option.getD_some]
  obtain ⟨low, hlow, hleast⟩ := Finset.exists_min_image _
    (fun j => (observedAt original j).getD 0) h
  obtain ⟨high, hhigh, hgreatest⟩ := Finset.exists_max_image _
    (fun j => (observedAt original j).getD 0) h
  have hcard : (0 : ℚ) < (observedBeside original width index).card := by
    exact_mod_cast Finset.card_pos.2 h
  refine ⟨_, _, ⟨low, hlow, hvalue hlow⟩, ⟨high, hhigh, hvalue hhigh⟩,
    fun j hj height hheight => ?_, ?_, ?_⟩
  · rw [hvalue hj] at hheight
    obtain rfl := Option.some.inj hheight
    exact ⟨hleast j hj, hgreatest j hj⟩
  · rw [cardinalMean, le_div_iff₀ hcard, mul_comm, ← nsmul_eq_mul]
    exact Finset.card_nsmul_le_sum _ _ _ hleast
  · rw [cardinalMean, div_le_iff₀ hcard, mul_comm, ← nsmul_eq_mul]
    exact Finset.sum_le_card_nsmul _ _ _ hgreatest

/-! ## The loop over the listed cells -/

/-- The cells after the loop, told from those that it began with. -/
def filledCells (original : List (Option ℚ)) (width : ℕ) (listed : List ℕ)
    (elevations : List (Option ℚ)) : List (Option ℚ) :=
  elevations.mapIdx fun index cell =>
    if index ∈ listed then some (cardinalMean original width index) else cell

theorem filledCells_nil {elevations : List (Option ℚ)} :
    filledCells original width [] elevations = elevations := by
  apply List.ext_getElem?
  intro j
  simp [filledCells, List.getElem?_mapIdx]

theorem filledCells_set {listed : List ℕ} {elevations : List (Option ℚ)} :
    filledCells original width listed
        (elevations.set index (some (cardinalMean original width index)))
      = filledCells original width (index :: listed) elevations := by
  apply List.ext_getElem?
  intro j
  simp only [filledCells, List.getElem?_mapIdx, List.getElem?_set, List.mem_cons]
  by_cases hj : index = j
  · subst hj
    by_cases hlt : index < elevations.length
    · simp [hlt]
    · simp [hlt]
  · simp [hj, Ne.symm hj]

theorem fillCells_eq_ok (hsize : original.length = width * height) :
    ∀ {listed : List ℕ} {elevations result : List (Option ℚ)},
      (∀ index ∈ listed, index < width * height) →
      (fillCells original width height listed elevations = .ok result
        ↔ (∀ index ∈ listed, Isolated original width height index)
          ∧ result = filledCells original width listed elevations)
  | [], elevations, result, _ => by
    rw [filledCells_nil]
    simp [fillCells, eq_comm]
  | index :: listed, elevations, result, hlt => by
    have hindex := hlt index List.mem_cons_self
    have hrest := fun j hj => hlt j (List.mem_cons_of_mem index hj)
    rw [fillCells, bind_eq_ok, List.forall_mem_cons]
    constructor
    · rintro ⟨filled, hfilled, h⟩
      obtain ⟨hisolated, rfl⟩ := (resolveCell_eq_ok hsize hindex).1 hfilled
      obtain ⟨hall, rfl⟩ := (fillCells_eq_ok hsize hrest).1 h
      exact ⟨⟨hisolated, hall⟩, filledCells_set⟩
    · rintro ⟨⟨hisolated, hall⟩, rfl⟩
      exact ⟨_, (resolveCell_eq_ok hsize hindex).2 ⟨hisolated, rfl⟩,
        (fillCells_eq_ok hsize hrest).2 ⟨hall, filledCells_set.symm⟩⟩

/-- The loop is the same for two lists of the same cells. -/
theorem fillCells_congr (hsize : original.length = width * height) {listed other : List ℕ}
    (hlt : ∀ index ∈ listed, index < width * height)
    (hsame : ∀ index, index ∈ other ↔ index ∈ listed)
    {elevations result : List (Option ℚ)}
    (h : fillCells original width height listed elevations = .ok result) :
    fillCells original width height other elevations = .ok result := by
  obtain ⟨hisolated, rfl⟩ := (fillCells_eq_ok hsize hlt).1 h
  refine (fillCells_eq_ok hsize fun index hindex => hlt index ((hsame index).1 hindex)).2
    ⟨fun index hindex => hisolated index ((hsame index).1 hindex), ?_⟩
  simp only [filledCells, hsame]

end Grid

/-! ## The mask -/

section Mask

variable {maskEncoding : JsString} {listed other : List ℕ}

theorem checkMask_eq_ok : ∀ {mask : List UInt8} {start : ℕ},
    checkMask maskEncoding listed start mask = .ok ()
      ↔ mask = mask.mapIdx fun index _ =>
          expectedMaskValue maskEncoding (listed.contains (start + index))
  | [], start => by simp [checkMask]
  | maskValue :: mask, start => by
    have hrest := @checkMask_eq_ok mask (start + 1)
    rw [checkMask, bind_eq_ok, List.mapIdx_cons, List.cons.injEq, add_zero]
    simp only [require_eq_ok, decide_eq_true_eq, hrest, show ∀ index, start + 1 + index = start + (index + 1) from fun index => by omega]
    exact ⟨fun ⟨_, hfirst, hrest⟩ => ⟨hfirst, hrest⟩,
      fun ⟨hfirst, hrest⟩ => ⟨(), hfirst, hrest⟩⟩

theorem checkMask_congr (hsame : ∀ index, index ∈ other ↔ index ∈ listed) :
    ∀ {mask : List UInt8} {start : ℕ},
      checkMask maskEncoding other start mask = checkMask maskEncoding listed start mask
  | [], _ => rfl
  | maskValue :: mask, start => by
    have hcontains : other.contains start = listed.contains start := by
      simp only [List.contains_eq_mem, hsame]
    rw [checkMask, checkMask, hcontains, checkMask_congr hsame]

/-- A mask that agrees with the cells has the byte of each cell. -/
theorem mask_eq_map {cells : List (Option ℚ)} {mask : List UInt8}
    (hlisted : ∀ index, index ∈ listed ↔ cells[index]? = some none)
    (hlength : mask.length = cells.length)
    (h : checkMask maskEncoding listed 0 mask = .ok ()) :
    mask = cells.map fun cell => expectedMaskValue maskEncoding cell.isNone := by
  rw [checkMask_eq_ok] at h
  rw [h]
  apply List.ext_getElem?
  intro index
  by_cases hindex : index < cells.length
  · have hmask : index < mask.length := hlength ▸ hindex
    rcases hcell : cells[index]? with _ | _ | q
    · rw [List.getElem?_eq_none_iff] at hcell
      omega
    · simp [List.getElem?_mapIdx, List.getElem?_eq_getElem hmask, hlisted, hcell]
    · simp [List.getElem?_mapIdx, List.getElem?_eq_getElem hmask, hlisted, hcell]
  · simp [List.getElem?_mapIdx, List.getElem?_eq_none_iff.2 (not_lt.1 hindex),
      List.getElem?_eq_none_iff.2 (hlength ▸ not_lt.1 hindex)]

end Mask

/-! ## The cells of the band -/

section Band

variable {P : Platform} {input : NoDataInput} {policy : GeoTiffNoDataResolutionPolicy}

/-- The order of the listed cells. -/
def NoDataInput.relist (input : NoDataInput) (other : List ℕ) : NoDataInput :=
  { input with noDataIndexes := other }

theorem checkPolicy_eq_ok {maskEncoding qualityMaskSha256 : JsString}
    (h : checkPolicy P input policy = .ok (maskEncoding, qualityMaskSha256)) :
    maskEncoding = policy.encoding.getD GEOTIFF_AGID_MISSING_MASK_ENCODING
      ∧ policy.qualityMask.length = input.elevationsMeters.length
      ∧ checkMask maskEncoding input.noDataIndexes 0 policy.qualityMask = .ok () := by
  unfold checkPolicy at h
  dsimp only at h
  obtain ⟨_, -, h⟩ := bind_eq_ok.1 h
  obtain ⟨_, -, h⟩ := bind_eq_ok.1 h
  obtain ⟨_, hlength, h⟩ := bind_eq_ok.1 h
  obtain ⟨_, -, h⟩ := bind_eq_ok.1 h
  obtain ⟨_, -, h⟩ := bind_eq_ok.1 h
  obtain ⟨_, -, h⟩ := bind_eq_ok.1 h
  obtain ⟨_, -, h⟩ := bind_eq_ok.1 h
  obtain ⟨_, -, h⟩ := bind_eq_ok.1 h
  obtain ⟨_, hmask, h⟩ := bind_eq_ok.1 h
  obtain ⟨rfl, -⟩ := Prod.mk.inj (Except.ok.inj h)
  rw [require_eq_ok, decide_eq_true_eq] at hlength
  exact ⟨rfl, hlength, hmask⟩

theorem checkPolicy_relist {other : List ℕ}
    (hsame : ∀ index, index ∈ other ↔ index ∈ input.noDataIndexes) :
    checkPolicy P (input.relist other) policy = checkPolicy P input policy := by
  unfold checkPolicy NoDataInput.relist
  simp only [checkMask_congr hsame]

theorem NoDataInput.Listed.lt (hinput : input.Listed) :
    ∀ index ∈ input.noDataIndexes, index < input.width * input.height := by
  intro index hindex
  rw [← hinput.size]
  exact (List.getElem?_eq_some_iff.1 ((hinput.listed index).1 hindex)).1

variable {elevations : List (Option ℚ)} {metadata : GeoTiffNoDataResolutionMetadata}

/-- What is accepted has no cell to fill, or a policy whose mask is that of the cells. -/
theorem resolveNoDataCells_cases
    (h : resolveNoDataCells P input = .ok (elevations, metadata)) :
    (input.noDataIndexes = [] ∧ input.policy = none ∧ elevations = input.elevationsMeters)
      ∨ ∃ policy, input.policy = some policy
        ∧ resolveListed P input policy = .ok (elevations, metadata) := by
  unfold resolveNoDataCells at h
  split at h
  · cases h
  · rename_i hnil hpolicy
    obtain ⟨rfl, -⟩ := Prod.mk.inj (Except.ok.inj h)
    exact .inl ⟨hnil, hpolicy, rfl⟩
  · cases h
  · rename_i policy hfirst hpolicy
    exact .inr ⟨policy, hpolicy, h⟩

theorem resolveListed_eq_ok (h : resolveListed P input policy = .ok (elevations, metadata)) :
    ∃ maskEncoding, metadata.maskEncoding = some maskEncoding
      ∧ maskEncoding = policy.encoding.getD GEOTIFF_AGID_MISSING_MASK_ENCODING
      ∧ policy.qualityMask.length = input.elevationsMeters.length
      ∧ checkMask maskEncoding input.noDataIndexes 0 policy.qualityMask = .ok ()
      ∧ fillCells input.elevationsMeters input.width input.height input.noDataIndexes
          input.elevationsMeters = .ok elevations := by
  obtain ⟨⟨maskEncoding, qualityMaskSha256⟩, hchecked, h⟩ := bind_eq_ok.1 h
  obtain ⟨_, -, h⟩ := bind_eq_ok.1 h
  obtain ⟨filled, hfilled, h⟩ := bind_eq_ok.1 h
  obtain ⟨rfl, rfl⟩ := Prod.mk.inj (Except.ok.inj h)
  obtain ⟨hencoding, hlength, hmask⟩ := checkPolicy_eq_ok hchecked
  exact ⟨maskEncoding, rfl, hencoding, hlength, hmask, hfilled⟩

theorem resolveListed_relist (hinput : input.Listed) {other : List ℕ}
    (hperm : other.Perm input.noDataIndexes)
    (h : resolveListed P input policy = .ok (elevations, metadata)) :
    resolveListed P (input.relist other) policy = .ok (elevations, metadata) := by
  have hsame : ∀ index, index ∈ other ↔ index ∈ input.noDataIndexes := fun _ => hperm.mem_iff
  have hfraction : (input.relist other).resolvedCellFraction = input.resolvedCellFraction := by
    rw [NoDataInput.resolvedCellFraction, NoDataInput.relist, hperm.length_eq]
    rfl
  obtain ⟨found, hchecked, h⟩ := bind_eq_ok.1 h
  obtain ⟨_, hbudget, h⟩ := bind_eq_ok.1 h
  obtain ⟨filled, hfilled, h⟩ := bind_eq_ok.1 h
  rw [resolveListed, checkPolicy_relist hsame, hchecked, hfraction]
  refine bind_eq_ok.2 ⟨found, rfl, bind_eq_ok.2 ⟨(), ?_, bind_eq_ok.2 ⟨filled, ?_, ?_⟩⟩⟩
  · rw [require_eq_ok] at hbudget ⊢
    rw [NoDataInput.relist, hperm.length_eq]
    exact hbudget
  · exact fillCells_congr hinput.size hinput.lt hsame hfilled
  · rw [NoDataInput.relist, hperm.length_eq]
    exact h

theorem resolveNoDataCells_relist (hinput : input.Listed) {other : List ℕ}
    (hperm : other.Perm input.noDataIndexes)
    (h : resolveNoDataCells P input = .ok (elevations, metadata)) :
    resolveNoDataCells P (input.relist other) = .ok (elevations, metadata) := by
  rcases hlist : input.noDataIndexes with _ | ⟨first, rest⟩
  · obtain rfl : other = input.noDataIndexes := by
      rw [hlist, List.perm_nil] at hperm
      rw [hperm, hlist]
    exact h
  · obtain ⟨first', rest', rfl⟩ : ∃ first' rest', other = first' :: rest' := by
      rcases other with _ | ⟨first', rest'⟩
      · simp [hlist] at hperm
      · exact ⟨first', rest', rfl⟩
    rcases resolveNoDataCells_cases h with ⟨hnil, -, -⟩ | ⟨policy, hpolicy, hlisted⟩
    · rw [hlist] at hnil
      cases hnil
    · have := resolveListed_relist hinput hperm hlisted
      simpa only [resolveNoDataCells, NoDataInput.relist, hpolicy] using this

/-- The cells afterwards are the filled ones. -/
theorem resolveNoDataCells_eq (hinput : input.Listed)
    (h : resolveNoDataCells P input = .ok (elevations, metadata)) :
    (∀ index ∈ input.noDataIndexes,
        Isolated input.elevationsMeters input.width input.height index)
      ∧ elevations = filledCells input.elevationsMeters input.width input.noDataIndexes
          input.elevationsMeters := by
  rcases resolveNoDataCells_cases h with ⟨hnil, -, rfl⟩ | ⟨policy, -, hlisted⟩
  · rw [hnil, filledCells_nil]
    exact ⟨by simp, rfl⟩
  · obtain ⟨_, -, -, -, -, hfilled⟩ := resolveListed_eq_ok hlisted
    exact (fillCells_eq_ok hinput.size hinput.lt).1 hfilled

/-- Whatever is accepted is filled cell by cell from the observations beside each cell, in any
order, and the mask has the byte of each cell. -/
theorem resolveNoDataCells_fills (hinput : input.Listed)
    (h : resolveNoDataCells P input = .ok (elevations, metadata)) :
    elevations.length = input.elevationsMeters.length
      ∧ none ∉ elevations
      ∧ (∀ (index : ℕ) (height : ℚ), input.elevationsMeters[index]? = some (some height) →
          elevations[index]? = some (some height))
      ∧ (∀ index : ℕ, input.elevationsMeters[index]? = some none →
          elevations[index]?
              = some (some (cardinalMean input.elevationsMeters input.width index))
            ∧ ∃ least greatest, Spanned input.elevationsMeters input.width index
                (cardinalMean input.elevationsMeters input.width index) least greatest)
      ∧ (∀ other, other.Perm input.noDataIndexes →
          resolveNoDataCells P { input with noDataIndexes := other }
            = .ok (elevations, metadata))
      ∧ (input.policy = none → none ∉ input.elevationsMeters)
      ∧ ∀ policy, input.policy = some policy → ∃ maskEncoding,
          metadata.maskEncoding = some maskEncoding
            ∧ maskEncoding = policy.encoding.getD GEOTIFF_AGID_MISSING_MASK_ENCODING
            ∧ policy.qualityMask = input.elevationsMeters.map fun cell =>
                expectedMaskValue maskEncoding cell.isNone := by
  obtain ⟨hisolated, hcells⟩ := resolveNoDataCells_eq hinput h
  have hat (index : ℕ) : elevations[index]? = input.elevationsMeters[index]?.map fun cell =>
      if index ∈ input.noDataIndexes then
        some (cardinalMean input.elevationsMeters input.width index) else cell := by
    rw [hcells, filledCells, List.getElem?_mapIdx]
  have hmissing (index : ℕ) (hnone : input.elevationsMeters[index]? = some none) :
      elevations[index]?
        = some (some (cardinalMean input.elevationsMeters input.width index)) := by
    rw [hat, hnone, Option.map_some, if_pos ((hinput.listed index).2 hnone)]
  have hobserved (index : ℕ) (height : ℚ)
      (hsome : input.elevationsMeters[index]? = some (some height)) :
      elevations[index]? = some (some height) := by
    have hnot : index ∉ input.noDataIndexes := by
      rw [hinput.listed, hsome]
      simp
    rw [hat, hsome, Option.map_some, if_neg hnot]
  refine ⟨by rw [hcells, filledCells, List.length_mapIdx], ?_, hobserved, fun index hnone => ?_,
    fun other hperm => resolveNoDataCells_relist hinput hperm h, ?_, ?_⟩
  · intro hnone
    obtain ⟨index, hindex⟩ := List.getElem?_of_mem hnone
    rcases hcell : input.elevationsMeters[index]? with _ | _ | height
    · rw [hat, hcell] at hindex
      cases hindex
    · rw [hmissing index hcell] at hindex
      cases hindex
    · rw [hobserved index height hcell] at hindex
      cases hindex
  · have hindex := (hinput.listed index).2 hnone
    exact ⟨hmissing index hnone, exists_spanned (observedBeside_nonempty hinput.size
      (hinput.lt index hindex) (hisolated index hindex))⟩
  · intro hpolicy hnone
    rcases resolveNoDataCells_cases h with ⟨hnil, -, -⟩ | ⟨policy, hsome, -⟩
    · obtain ⟨index, hindex⟩ := List.getElem?_of_mem hnone
      have := (hinput.listed index).2 hindex
      rw [hnil] at this
      cases this
    · rw [hpolicy] at hsome
      cases hsome
  · intro policy hpolicy
    rcases resolveNoDataCells_cases h with ⟨-, hnone, -⟩ | ⟨policy', hsome, hlisted⟩
    · rw [hpolicy] at hnone
      cases hnone
    · obtain rfl := Option.some.inj (hpolicy.symm.trans hsome)
      obtain ⟨maskEncoding, hmetadata, hencoding, hlength, hmask, -⟩ :=
        resolveListed_eq_ok hlisted
      exact ⟨maskEncoding, hmetadata, hencoding, mask_eq_map hinput.listed hlength hmask⟩

end Band

/-! ## The band of an image -/

/-- The indexes, from a start on, of the cells that have no data. -/
def ListedFrom (start : ℕ) (elevations : List (Option ℚ)) (listed : List ℕ) : Prop :=
  ∀ index, index ∈ listed ↔ start ≤ index ∧ elevations[index - start]? = some none

theorem ListedFrom.cons {start : ℕ} {elevations : List (Option ℚ)} {listed : List ℕ}
    (h : ListedFrom (start + 1) elevations listed) (cell : Option ℚ) :
    ListedFrom start (cell :: elevations) (if cell.isNone then start :: listed else listed) := by
  intro index
  rcases lt_trichotomy index start with hlt | rfl | hlt
  · have hnot : index ∉ listed := fun hmem => by have := ((h index).1 hmem).1; omega
    rcases cell with _ | q
    · simp [hnot, hlt.ne, not_le.2 hlt]
    · simp [hnot, not_le.2 hlt]
  · have hnot : index ∉ listed := fun hmem => by have := ((h index).1 hmem).1; omega
    rcases cell with _ | q
    · simp
    · simp [hnot]
  · obtain ⟨k, rfl⟩ : ∃ k, index = start + 1 + k := ⟨index - (start + 1), by omega⟩
    have hk : start + 1 + k - start = k + 1 := by omega
    have hmem : start + 1 + k ∈ listed ↔ elevations[k]? = some none := by
      rw [h, show start + 1 + k - (start + 1) = k from by omega]
      exact and_iff_right (by omega)
    rcases cell with _ | q
    · rw [hk, List.getElem?_cons_succ, Option.isNone_none, if_pos rfl, List.mem_cons, hmem,
        and_iff_right hlt.le]
      exact or_iff_right hlt.ne'
    · rw [hk, List.getElem?_cons_succ, Option.isNone_some, if_neg Bool.false_ne_true, hmem,
        and_iff_right hlt.le]

theorem readCells_eq_ok {noDataValue : Option JsNumber} :
    ∀ {rasters : List JsNumber} {start : ℕ} {elevations : List (Option ℚ)} {listed : List ℕ},
      readCells noDataValue start rasters = .ok (elevations, listed) →
      elevations.length = rasters.length ∧ ListedFrom start elevations listed
  | [], start, elevations, listed, h => by
    obtain ⟨rfl, rfl⟩ := Prod.mk.inj (Except.ok.inj h)
    exact ⟨rfl, fun index => by simp⟩
  | elevation :: rasters, start, elevations, listed, h => by
    unfold readCells at h
    split_ifs at h
    · obtain ⟨⟨cells, indexes⟩, hread, h⟩ := bind_eq_ok.1 h
      obtain ⟨rfl, rfl⟩ := Prod.mk.inj (Except.ok.inj h)
      obtain ⟨hlength, hlisted⟩ := readCells_eq_ok hread
      exact ⟨congrArg Nat.succ hlength, hlisted.cons none⟩
    · split at h
      · obtain ⟨⟨cells, indexes⟩, hread, h⟩ := bind_eq_ok.1 h
        obtain ⟨rfl, rfl⟩ := Prod.mk.inj (Except.ok.inj h)
        obtain ⟨hlength, hlisted⟩ := readCells_eq_ok hread
        exact ⟨congrArg Nat.succ hlength, hlisted.cons (some _)⟩
      · cases h

/-- What the code resolves is what it reads of a band. -/
theorem listed_readCells {noDataValue : Option JsNumber} {rasters : List JsNumber}
    {elevations : List (Option ℚ)} {listed : List ℕ} {width height : ℕ}
    (h : readCells noDataValue 0 rasters = .ok (elevations, listed))
    (hsize : rasters.length = width * height) (policy : Option GeoTiffNoDataResolutionPolicy)
    (sourceRecord : TopographicSourceRecord) :
    NoDataInput.Listed {
      elevationsMeters := elevations
      noDataIndexes := listed
      width
      height
      policy
      sourceRecord } where
  size := (readCells_eq_ok h).1.trans hsize
  listed index := by simpa using (readCells_eq_ok h).2 index

/-- The mask that the code derives is that of the cells. -/
theorem checkMask_sourceDerivedQualityMask {listed : List ℕ} {elevations : List (Option ℚ)}
    (hlisted : ∀ index, index ∈ listed ↔ elevations[index]? = some none) :
    checkMask GEOTIFF_GDAL_VALIDITY_MASK_ENCODING listed 0 (sourceDerivedQualityMask elevations)
      = .ok () := by
  rw [checkMask_eq_ok]
  apply List.ext_getElem?
  intro index
  rcases hcell : elevations[index]? with _ | _ | q
  · simp [sourceDerivedQualityMask, hcell]
  · simp [sourceDerivedQualityMask, expectedMaskValue, hcell, hlisted]
  · simp [sourceDerivedQualityMask, expectedMaskValue, hcell, hlisted]

/-! ## One cell in a grid -/

/-- A square of heights whose middle has no data, and its mask of valid cells. -/
def middleMissing : NoDataInput where
  elevationsMeters := (List.range 25).map fun index => if index = 12 then none else some index
  noDataIndexes := [12]
  width := 5
  height := 5
  policy := some {
    method := TOPOGRAPHIC_NODATA_RESOLUTION_METHOD
    encoding := some GEOTIFF_GDAL_VALIDITY_MASK_ENCODING
    qualityMask := (List.range 25).map fun index => if index = 12 then 0 else 255
    expectedMaskSha256 :=
      js "sha256:68447607a07907c3ea1b916c93e3838e14d03ce8edca261098f6d8659c2af57d"
    maxResolvedCells := .finite 1
    maxResolvedFraction := .finite (1 / 25)
    sourceDerivedNoDataMask := none }
  sourceRecord := {
    snapshotEvidence := some {
      contentSha256 := js "sha256:68447607a07907c3ea1b916c93e3838e14d03ce8edca261098f6d8659c2af57d"
      relatedArtifactSha256 := none } }

def middlePlatform : Platform where
  toLowerCase := List.map lowerAscii
  sha256Bytes _ := js "sha256:68447607a07907c3ea1b916c93e3838e14d03ce8edca261098f6d8659c2af57d"
  numberText _ := js "0.04"

theorem listed_middleMissing : middleMissing.Listed where
  size := by decide
  listed := by
    intro index
    by_cases hindex : index < 25
    · revert hindex
      revert index
      decide
    · have hnone : middleMissing.elevationsMeters[index]? = none :=
        List.getElem?_eq_none_iff.2 (not_lt.1 hindex)
      rw [hnone, show middleMissing.noDataIndexes = [12] from rfl, List.mem_singleton]
      simp only [reduceCtorEq, iff_false]
      omega

/-- The middle gets the height that its neighbours have on the average. -/
def middleFilled : List (Option ℚ) := (List.range 25).map fun (index : ℕ) => some (index : ℚ)

theorem resolveNoDataCells_middleMissing :
    (resolveNoDataCells middlePlatform middleMissing).toOption = some (middleFilled, {
      method := TOPOGRAPHIC_NODATA_RESOLUTION_METHOD
      maskEncoding := some GEOTIFF_GDAL_VALIDITY_MASK_ENCODING
      qualityMaskSha256 :=
        some (js "sha256:68447607a07907c3ea1b916c93e3838e14d03ce8edca261098f6d8659c2af57d")
      maskOrigin := some (js "provided")
      resolvedCellCount := 1
      resolvedCellFraction := 1 / 25 }) := by
  decide +kernel

theorem resolveNoDataCells_fills_middle :
    none ∉ middleFilled
      ∧ middleFilled[12]? = some (some (cardinalMean middleMissing.elevationsMeters 5 12)) := by
  obtain ⟨-, hnone, -, hfilled, -⟩ := resolveNoDataCells_fills listed_middleMissing
    (eq_ok_of_toOption resolveNoDataCells_middleMissing)
  exact ⟨hnone, (hfilled 12 (by decide)).1⟩

end Agid.GeoTiff
