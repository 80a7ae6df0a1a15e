import Agid.Proofs.SpatialIndex

/-!
# What a search of the spatial address index finds

Bounds that overlap share a bucket, since the index of a bucket grows with the coordinate.  So a search
meets every record that overlaps its bounds, as long as neither is too large to be filed under all of
its buckets; a larger one is filed, or looked up, under the bucket of its centre alone.
-/

namespace Agid.SpatialIndex

variable {P : Platform} {options : SpatialAddressIndexOptions}

/-! ## Coordinates -/

theorem lowerLongitude_of_le {n : ℕ} {lon : ℚ} (h : lon ≤ 180) : lowerLongitude n lon = lon := by
  cases n with
  | zero => rfl
  | succ n => rw [lowerLongitude, if_neg (not_lt.2 h)]

theorem raiseLongitude_of_le {n : ℕ} {lon : ℚ} (h : -180 ≤ lon) : raiseLongitude n lon = lon := by
  cases n with
  | zero => rfl
  | succ n => rw [raiseLongitude, if_neg (not_lt.2 h)]

theorem normalizeLongitude_of_mem {lon : ℚ} (h : -180 ≤ lon ∧ lon ≤ 180) :
    normalizeLongitude lon = lon := by
  rw [normalizeLongitude, lowerLongitude_of_le h.2, raiseLongitude_of_le h.1]

theorem normalizeLatitude_of_mem {lat : ℚ} (h : -90 ≤ lat ∧ lat ≤ 90) :
    normalizeLatitude lat = lat := by
  rw [normalizeLatitude, clamp, max_eq_right h.1, min_eq_right h.2]

/-- Bounds that were normalized are left as they are. -/
theorem normalizeBounds_toBounds (bounds : NormalBounds) :
    normalizeBounds bounds.toBounds = some bounds := by
  have hle := bounds.lat_le
  have hmin : latitude? (minNumber bounds.toBounds.minLat bounds.toBounds.maxLat)
      = some bounds.minLat := by
    simp only [NormalBounds.toBounds, minNumber, latitude?, min_eq_left hle]
    rw [normalizeLatitude_of_mem ⟨bounds.lat_mem.1, hle.trans bounds.lat_mem.2⟩]
  have hmax : latitude? (maxNumber bounds.toBounds.minLat bounds.toBounds.maxLat)
      = some bounds.maxLat := by
    simp only [NormalBounds.toBounds, maxNumber, latitude?, max_eq_right hle]
    rw [normalizeLatitude_of_mem ⟨bounds.lat_mem.1.trans hle, bounds.lat_mem.2⟩]
  unfold normalizeBounds
  split
  · rename_i minLat maxLat minLon maxLon hmin' hmax' hminLon hmaxLon
    obtain rfl := Option.some.inj (hmin.symm.trans hmin')
    obtain rfl := Option.some.inj (hmax.symm.trans hmax')
    cases hminLon
    cases hmaxLon
    simp only [normalizeLongitude_of_mem bounds.minLon_mem,
      normalizeLongitude_of_mem bounds.maxLon_mem]
  · rename_i hnone
    exact absurd rfl (hnone _ _ _ _ hmin hmax rfl)

/-! ## Buckets -/

section Size

variable {bucketSize : ℚ} (hsize : 0 < bucketSize)
include hsize

theorem bucketIndexForLat_mono : Monotone fun lat => bucketIndexForLat P lat bucketSize := by
  intro lat lat' h
  have hlat := normalizeLatitude_mono h
  refine Int.floor_le_floor (P.round_mono ?_)
  exact div_le_div_of_nonneg_right (P.round_mono (by linarith)) hsize.le

theorem bucketIndexForLon_mono {lon lon' : ℚ} (hlon : -180 ≤ lon ∧ lon ≤ 180)
    (hlon' : -180 ≤ lon' ∧ lon' ≤ 180) (h : lon ≤ lon') :
    bucketIndexForLon P lon bucketSize ≤ bucketIndexForLon P lon' bucketSize := by
  rw [bucketIndexForLon, bucketIndexForLon, normalizeLongitude_of_mem hlon,
    normalizeLongitude_of_mem hlon']
  refine Int.floor_le_floor (P.round_mono ?_)
  exact div_le_div_of_nonneg_right (P.round_mono (by linarith)) hsize.le

omit hsize in
theorem mem_indexesFrom {low high i : ℤ} : i ∈ indexesFrom low high ↔ low ≤ i ∧ i ≤ high := by
  simp only [indexesFrom, List.mem_map, List.mem_range]
  constructor
  · rintro ⟨n, hn, rfl⟩
    omega
  · rintro ⟨hlow, hhigh⟩
    exact ⟨(i - low).toNat, by omega, by omega⟩

omit hsize in
theorem splitLongitudeRanges_mem {bounds : NormalBounds} {range : ℚ × ℚ}
    (h : range ∈ splitLongitudeRanges bounds) :
    (-180 ≤ range.1 ∧ range.1 ≤ 180) ∧ -180 ≤ range.2 ∧ range.2 ≤ 180 := by
  have hmin := bounds.minLon_mem
  have hmax := bounds.maxLon_mem
  unfold splitLongitudeRanges at h
  split_ifs at h
  · rw [List.mem_singleton.1 h]
    exact ⟨hmin, hmax⟩
  · rcases List.mem_cons.1 h with rfl | h
    · exact ⟨hmin, by norm_num⟩
    · rw [List.mem_singleton.1 h]
      exact ⟨by norm_num, hmax⟩

/-- The bucket of each point of bounds is one of theirs. -/
theorem bucketKey_mem_bucketsOf {bounds : NormalBounds} {range : ℚ × ℚ} {lat lon : ℚ}
    (hrange : range ∈ splitLongitudeRanges bounds)
    (hlat : bounds.minLat ≤ lat ∧ lat ≤ bounds.maxLat) (hlon : range.1 ≤ lon ∧ lon ≤ range.2) :
    (range, bucketKey (bucketIndexForLat P lat bucketSize) (bucketIndexForLon P lon bucketSize))
      ∈ bucketsOf P bounds bucketSize := by
  obtain ⟨hfirst, hsecond⟩ := splitLongitudeRanges_mem hrange
  have hmem : -180 ≤ lon ∧ lon ≤ 180 := ⟨hfirst.1.trans hlon.1, hlon.2.trans hsecond.2⟩
  refine mem_bucketsOf.2 ⟨hrange, _, mem_indexesFrom.2 ⟨?_, ?_⟩, _, mem_indexesFrom.2 ⟨?_, ?_⟩, rfl⟩
  · exact bucketIndexForLat_mono hsize hlat.1
  · exact bucketIndexForLat_mono hsize hlat.2
  · exact bucketIndexForLon_mono hsize hfirst hmem hlon.1
  · exact bucketIndexForLon_mono hsize hmem hsecond hlon.2

/-- Bounds that overlap have a bucket in common. -/
theorem overlap_bucket {a b : NormalBounds} (h : boundsOverlap a.toBounds b.toBounds = true) :
    ∃ key, key ∈ (bucketsOf P a bucketSize).map Prod.snd
      ∧ key ∈ (bucketsOf P b bucketSize).map Prod.snd := by
  simp only [boundsOverlap, normalizeBounds_toBounds] at h
  split_ifs at h with hlat
  obtain ⟨aRange, ha, h⟩ := List.any_eq_true.1 h
  obtain ⟨bRange, hb, h⟩ := List.any_eq_true.1 h
  have hlon := of_decide_eq_true h
  obtain ⟨⟨haa, hba⟩, hab, hbb⟩ := And.intro (le_min_iff.1 hlat |>.imp max_le_iff.1 max_le_iff.1)
    (le_min_iff.1 hlon |>.imp max_le_iff.1 max_le_iff.1)
  refine ⟨bucketKey (bucketIndexForLat P (max a.minLat b.minLat) bucketSize)
    (bucketIndexForLon P (max aRange.1 bRange.1) bucketSize), ?_, ?_⟩
  · refine List.mem_map.2 ⟨_, bucketKey_mem_bucketsOf hsize ha ?_ ?_, rfl⟩
    · exact ⟨le_max_left _ _, hlat.trans (min_le_left _ _)⟩
    · exact ⟨le_max_left _ _, hlon.trans (min_le_left _ _)⟩
  · refine List.mem_map.2 ⟨_, bucketKey_mem_bucketsOf hsize hb ?_ ?_, rfl⟩
    · exact ⟨le_max_right _ _, hlat.trans (min_le_right _ _)⟩
    · exact ⟨le_max_right _ _, hlon.trans (min_le_right _ _)⟩

end Size

/-! ## Too many buckets -/

/-- The keys of all buckets of bounds. -/
def allKeys (P : Platform) (bounds : NormalBounds) (bucketSize : ℚ) : List JsString :=
  ((bucketsOf P bounds bucketSize).map Prod.snd).foldl insertNew []

theorem mem_insertNew {keys : List JsString} {key k : JsString} :
    k ∈ insertNew keys key ↔ k ∈ keys ∨ k = key := by
  unfold insertNew
  split_ifs with h
  · exact ⟨.inl, fun hk => hk.elim id fun hk => hk ▸ h⟩
  · simp

theorem mem_foldl_insertNew {k : JsString} : ∀ {l keys : List JsString},
    k ∈ l.foldl insertNew keys ↔ k ∈ keys ∨ k ∈ l
  | [], _ => by simp
  | key :: l, keys => by
    rw [List.foldl_cons, mem_foldl_insertNew, mem_insertNew, List.mem_cons, or_assoc]

theorem length_insertNew_le {keys : List JsString} {key : JsString} :
    keys.length ≤ (insertNew keys key).length := by
  unfold insertNew
  split_ifs
  · exact le_rfl
  · simp

theorem length_foldl_insertNew : ∀ {l keys : List JsString},
    keys.length ≤ (l.foldl insertNew keys).length
  | [], _ => le_rfl
  | _ :: _, _ => length_insertNew_le.trans length_foldl_insertNew

/-- The loops take all keys if these are not too many, and else one. -/
theorem collectKeys_eq {bounds : NormalBounds} {bucketSize maxKeys : ℚ} :
    ∀ {buckets : List ((ℚ × ℚ) × JsString)} {keys : List JsString},
      ((buckets.map Prod.snd).foldl insertNew keys).length ≤ maxKeys →
      collectKeys P bounds bucketSize maxKeys keys buckets
        = (buckets.map Prod.snd).foldl insertNew keys
  | [], _, _ => rfl
  | (range, key) :: buckets, keys, h => by
    have hlength : ((insertNew keys key).length : ℚ)
        ≤ ((buckets.map Prod.snd).foldl insertNew (insertNew keys key)).length := by
      exact_mod_cast length_foldl_insertNew
    rw [collectKeys, if_neg (not_lt.2 (hlength.trans h))]
    exact collectKeys_eq h

theorem bucketKeysForBounds_eq {bounds : NormalBounds} {bucketSize maxKeys : ℚ}
    (h : ((allKeys P bounds bucketSize).length : ℚ) ≤ maxKeys) :
    bucketKeysForBounds P bounds.toBounds bucketSize maxKeys = allKeys P bounds bucketSize := by
  rw [bucketKeysForBounds, normalizeBounds_toBounds]
  exact collectKeys_eq h

/-- Bounds of too many buckets have one key, that of their centre. -/
theorem bucketKeysForBounds_of_lt {bounds : NormalBounds} {bucketSize maxKeys : ℚ}
    (hmax : 0 ≤ maxKeys) (h : maxKeys < (allKeys P bounds bucketSize).length) :
    ∃ range ∈ splitLongitudeRanges bounds,
      bucketKeysForBounds P bounds.toBounds bucketSize maxKeys
        = [centerKey P bounds range bucketSize] := by
  have collect : ∀ (buckets : List ((ℚ × ℚ) × JsString)) (keys : List JsString),
      (∀ b ∈ buckets, b.1 ∈ splitLongitudeRanges bounds) → (keys.length : ℚ) ≤ maxKeys →
      maxKeys < ((buckets.map Prod.snd).foldl insertNew keys).length →
      ∃ range ∈ splitLongitudeRanges bounds,
        collectKeys P bounds bucketSize maxKeys keys buckets
          = [centerKey P bounds range bucketSize] := by
    intro buckets
    induction buckets with
    | nil => exact fun keys _ hkeys hlt => absurd hkeys (not_le.2 hlt)
    | cons b buckets ih =>
      intro keys hmem hkeys hlt
      unfold collectKeys
      split_ifs with hfull
      · exact ⟨b.1, hmem b List.mem_cons_self, rfl⟩
      · exact ih _ (fun b' hb' => hmem b' (List.mem_cons_of_mem b hb')) (not_lt.1 hfull) hlt
  rw [bucketKeysForBounds, normalizeBounds_toBounds]
  exact collect _ [] (fun b hb => (mem_bucketsOf.1 hb).1) (by simpa using hmax) h

/-! ## Candidates -/

theorem mem_intersectWith {ids : List JsString} {index : Index} {key : Option JsString}
    {id : JsString} :
    id ∈ intersectWith ids index key ↔ id ∈ ids ∧ ∀ k ∈ key, id ∈ index.ids k := by
  cases key with
  | none => simp [intersectWith]
  | some key => simp [intersectWith]

variable (P options) in
/-- The index was created and any calls were made to it. -/
def Reached (index : SpatialAddressIndex) : Prop :=
  ∃ (initialRecords : List SpatialAddressRecord) (created : SpatialAddressIndex) (calls : List Call),
    createSpatialAddressIndex P options initialRecords = .ok created
    ∧ index = calls.foldl (call P options) created

theorem Reached.represents {index : SpatialAddressIndex} (h : Reached P options index) :
    ∃ stored, Represents P options index stored := by
  obtain ⟨initialRecords, created, calls, hcreated, rfl⟩ := h
  exact ⟨_, (represents_create hcreated).calls⟩

variable (P) in
/-- The record is of the country and the postcode that the search asks for, if it does. -/
def PassesFilters (input : SpatialAddressSearchInput) (stored : IndexedRecord) : Prop :=
  (∀ key ∈ normalizeCountry P input.countryCode, stored.countryKey = some key)
    ∧ ∀ key ∈ normalizePostcode P input.postcode, stored.postcodeKey = some key

variable {index : SpatialAddressIndex} {input : SpatialAddressSearchInput} {id : JsString}

theorem mem_candidateIds_of_seed {l : List JsString} (hl : l ∈ seedsOf P options index input)
    (hid : id ∈ l) :
    id ∈ candidateIdsForSearch P options index input
      ↔ (∀ key ∈ normalizeCountry P input.countryCode, id ∈ index.countryIndex.ids key)
        ∧ ∀ key ∈ normalizePostcode P input.postcode, id ∈ index.postcodeIndex.ids key := by
  have hne : seedsOf P options index input ≠ [] := List.ne_nil_of_mem hl
  rw [candidateIdsForSearch, mem_intersectWith, mem_intersectWith, if_neg hne, and_assoc]
  refine and_iff_right ?_
  rw [List.mem_eraseDups]
  exact List.mem_flatten.2 ⟨l, hl, hid⟩

/-- A record that overlaps the bounds of a search is among those under its buckets, if both are
filed under all of their buckets. -/
theorem mem_spatial_seed {stored : JsString → Option SpatialAddressRecord}
    {record : SpatialAddressRecord} {bounds recordBounds : NormalBounds}
    (hindex : Represents P options index stored) (hstored : stored id = some record)
    (hsize : 0 < options.bucketSizeDegrees)
    (hrecord : (indexed P options record).bounds = some recordBounds)
    (hoverlap : boundsOverlap bounds.toBounds recordBounds.toBounds = true)
    (hquery : ((allKeys P bounds options.bucketSizeDegrees).length : ℚ)
      ≤ options.maxQueryBucketKeys)
    (hkeys : ((allKeys P recordBounds options.bucketSizeDegrees).length : ℚ)
      ≤ options.maxBucketKeysPerRecord) :
    id ∈ unionOf index.spatialBuckets
      (bucketKeysForBounds P bounds.toBounds options.bucketSizeDegrees
        options.maxQueryBucketKeys) := by
  obtain ⟨key, hkey, hkey'⟩ := overlap_bucket (P := P) hsize hoverlap
  refine List.mem_flatMap.2 ⟨key, ?_, ?_⟩
  · rw [bucketKeysForBounds_eq hquery]
    exact mem_foldl_insertNew.2 (.inr hkey)
  · refine (hindex.pairs .spatial key id).2 ⟨record, hstored, ?_⟩
    have hgeometry : (geometryFromRecord P record).bounds = some recordBounds := hrecord
    simp only [IndexedRecord.keys, indexed, hgeometry, Option.map_some, Option.getD_some]
    rw [bucketKeysForBounds_eq hkeys]
    exact mem_foldl_insertNew.2 (.inr hkey')

/-- A stored record whose bounds overlap those of a search is a candidate if it passes the filters of
the search and only then, as long as neither has more buckets than it may have keys. -/
theorem overlapping_mem_candidateIds_iff {stored : IndexedRecord}
    {bounds recordBounds : NormalBounds} (hindex : Reached P options index)
    (hsize : 0 < options.bucketSizeDegrees) (hstored : index.records.get? id = some stored)
    (hbounds : (queryGeometry P input).bounds = some bounds)
    (hrecord : stored.bounds = some recordBounds)
    (hoverlap : boundsOverlap bounds.toBounds recordBounds.toBounds = true)
    (hquery : ((allKeys P bounds options.bucketSizeDegrees).length : ℚ)
      ≤ options.maxQueryBucketKeys)
    (hkeys : ((allKeys P recordBounds options.bucketSizeDegrees).length : ℚ)
      ≤ options.maxBucketKeysPerRecord) :
    id ∈ candidateIdsForSearch P options index input ↔ PassesFilters P input stored := by
  obtain ⟨records, hrep⟩ := hindex.represents
  rw [hrep.records] at hstored
  obtain ⟨record, hid, rfl⟩ := Option.map_eq_some_iff.1 hstored
  have hseed := mem_spatial_seed hrep hid hsize hrecord hoverlap hquery hkeys
  have hmem : unionOf index.spatialBuckets
      (bucketKeysForBounds P bounds.toBounds options.bucketSizeDegrees
        options.maxQueryBucketKeys) ∈ seedsOf P options index input := by
    simp [seedsOf, hbounds]
  have hcountry (key : JsString) : id ∈ index.countryIndex.ids key
      ↔ (indexed P options record).countryKey = some key := by
    rw [show index.countryIndex = index.index .country from rfl, hrep.pairs]
    simp [hid, IndexedRecord.keys, eq_comm]
  have hpostcode (key : JsString) : id ∈ index.postcodeIndex.ids key
      ↔ (indexed P options record).postcodeKey = some key := by
    rw [show index.postcodeIndex = index.index .postcode from rfl, hrep.pairs]
    simp [hid, IndexedRecord.keys, eq_comm]
  rw [mem_candidateIds_of_seed hmem hseed, PassesFilters]
  simp only [hcountry, hpostcode]

/-! ## Searches around Tokyo -/

def searchBounds (minLat minLon maxLat maxLon : ℚ) : SpatialAddressSearchInput where
  query := none
  lat := none
  lon := none
  radiusKm := none
  bounds := some ⟨.finite minLat, some minLon, .finite maxLat, some maxLon⟩
  countryCode := none
  postcode := none
  agid := none

variable (P options) in
theorem reached_of_create {record : SpatialAddressRecord} (h : trim record.id ≠ []) :
    ∃ index, Reached P options index
      ∧ createSpatialAddressIndex P options [record] = .ok index
      ∧ index.records.get? record.id = some (indexed P options record) := by
  obtain ⟨result, index, hadd⟩ := add_of_id P options .empty h
  have hcreate : createSpatialAddressIndex P options [record] = .ok index := by
    simp [createSpatialAddressIndex, hadd, Except.map, bind, Except.bind, pure, Except.pure]
  refine ⟨index, ⟨[record], index, [], hcreate, rfl⟩, hcreate, ?_⟩
  rw [(represents_create hcreate).records]
  simp [storedAfter, h]

/-- The square of a degree around Tokyo has nine buckets of half a degree. -/
theorem overlapping_mem_candidateIds_iff_tokyo :
    ∃ index, Reached plainPlatform cityOptions index
      ∧ (js "tokyo" ∈ candidateIdsForSearch plainPlatform cityOptions index
          (searchBounds 35 139 36 140)
        ↔ PassesFilters plainPlatform (searchBounds 35 139 36 140)
          (indexed plainPlatform cityOptions tokyo)) := by
  obtain ⟨index, hindex, -, hstored⟩ := reached_of_create plainPlatform cityOptions
    (show trim tokyo.id ≠ [] by decide)
  have hall : ((queryGeometry plainPlatform (searchBounds 35 139 36 140)).bounds.bind fun bounds =>
      (indexed plainPlatform cityOptions tokyo).bounds.map fun recordBounds =>
        (boundsOverlap bounds.toBounds recordBounds.toBounds,
          (allKeys plainPlatform bounds (1 / 2)).length,
          (allKeys plainPlatform recordBounds (1 / 2)).length)) = some (true, 9, 1) := by
    decide +kernel
  obtain ⟨bounds, hbounds, hall⟩ := Option.bind_eq_some_iff.1 hall
  obtain ⟨recordBounds, hrecord, hall⟩ := Option.map_eq_some_iff.1 hall
  simp only [Prod.mk.injEq] at hall
  obtain ⟨hoverlap, hquery, hkeys⟩ := hall
  refine ⟨index, hindex, overlapping_mem_candidateIds_iff hindex (by norm_num [cityOptions]) hstored
    hbounds hrecord hoverlap ?_ ?_⟩
  · simp only [cityOptions, hquery]
    norm_num
  · simp only [cityOptions, hkeys]
    norm_num

/-- Half a degree a bucket, and no more than eight keys for a search. -/
def narrowOptions : SpatialAddressIndexOptions := ⟨1 / 2, 4096, 8⟩

/-- The square of two degrees around Tokyo is looked up under the bucket of its centre, which is not
that of Tokyo. -/
theorem overlapping_not_candidate :
    ¬ ∀ P options index input id stored bounds recordBounds, Reached P options index →
      index.records.get? id = some stored → (queryGeometry P input).bounds = some bounds →
      stored.bounds = some recordBounds →
      boundsOverlap bounds.toBounds recordBounds.toBounds = true →
      id ∈ candidateIdsForSearch P options index input := by
  intro h
  obtain ⟨index, hindex, hcreate, hstored⟩ := reached_of_create plainPlatform narrowOptions
    (show trim tokyo.id ≠ [] by decide)
  have hall : ((queryGeometry plainPlatform (searchBounds 34 138 36 140)).bounds.bind fun bounds =>
      (indexed plainPlatform narrowOptions tokyo).bounds.map fun recordBounds =>
        boundsOverlap bounds.toBounds recordBounds.toBounds) = some true := by
    decide +kernel
  obtain ⟨bounds, hbounds, hall⟩ := Option.bind_eq_some_iff.1 hall
  obtain ⟨recordBounds, hrecord, hoverlap⟩ := Option.map_eq_some_iff.1 hall
  have hmem := h plainPlatform narrowOptions index _ _ _ bounds recordBounds hindex hstored hbounds
    hrecord hoverlap
  have hnone : (createSpatialAddressIndex plainPlatform narrowOptions [tokyo]).toOption.map
      (fun index => candidateIdsForSearch plainPlatform narrowOptions index
        (searchBounds 34 138 36 140)) = some [] := by
    decide +kernel
  rw [hcreate] at hnone
  have hnil : candidateIdsForSearch plainPlatform narrowOptions index
      (searchBounds 34 138 36 140) = [] := Option.some.inj hnone
  rw [hnil] at hmem
  exact absurd hmem List.not_mem_nil

end Agid.SpatialIndex
