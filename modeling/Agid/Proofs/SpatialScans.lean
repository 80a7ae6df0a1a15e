import Agid.Proofs.GeometryBuckets
import Agid.Proofs.PackRuntime

/-!
# Queries of the index and scans over all features

A query by a box meets every area that it intersects, since their bounds have a cell in common.  A
query by a point looks into one cell only: it misses the areas whose boundary it is on by the
tolerance, and the address points whose radius it is in, where a border of two cells is between.
-/

namespace Agid.PostalContext

open PointLocation (Position Geometry locatePointInGeometry)
open Checks (bind_eq_ok bind_eq_error)

/-! ## What a valid pack has -/

@[simp] theorem report_eq_nil {p : Bool} {error : JsString} :
    report p error = [] ↔ p = false := by
  cases p <;> simp [report]

theorem id_new_of_featureErrors {P : Platform} {feature : GeometryFeature} {ids : List JsString}
    (h : featureErrors P feature ids = []) : feature.id ∉ ids := by
  simp only [featureErrors, List.append_eq_nil_iff, report_eq_nil, decide_eq_false_iff_not,
    and_assoc] at h
  exact h.2.1

theorem distinctIds_of_featuresErrors {P : Platform} : ∀ {features : List GeometryFeature}
    {ids : List JsString}, featuresErrors P ids features = [] →
      DistinctIds features ∧ ∀ f ∈ features, f.id ∉ ids
  | [], _, _ => ⟨List.nodup_nil, fun _ hf => absurd hf List.not_mem_nil⟩
  | feature :: features, ids, h => by
    rw [featuresErrors, List.append_eq_nil_iff] at h
    obtain ⟨hdistinct, hapart⟩ := distinctIds_of_featuresErrors h.2
    have hnew := id_new_of_featureErrors h.1
    refine ⟨List.nodup_cons.2 ⟨fun hmem => ?_, hdistinct⟩, fun f hf => ?_⟩
    · obtain ⟨f, hf, hid⟩ := List.mem_map.1 hmem
      exact hapart f hf (hid ▸ List.mem_append_right _ List.mem_cons_self)
    · rcases List.mem_cons.1 hf with rfl | hf
      · exact hnew
      · exact fun hid => hapart f hf (List.mem_append_left _ hid)

variable {P : Platform} {pack : RuntimePack} {options : RuntimeOptions} {runtime : PackRuntime}

theorem errors_of_valid {countryCode : Option JsString}
    (h : (validatePostalContextRuntimePack P pack countryCode).valid) :
    (validatePostalContextGraph P pack.graph).errors = []
      ∧ (validatePostalContextGeometryCollection P pack.geometry).errors = []
      ∧ (∀ node ∈ pack.graph.nodes, packNodeErrors P pack.graph node = [])
      ∧ (∀ assertion ∈ pack.graph.assertions, packAssertionErrors assertion = [])
      ∧ ∀ feature ∈ pack.geometry.features, packFeatureErrors P pack.graph feature = [] := by
  simp only [ValidationResult.valid, decide_eq_true_eq, validatePostalContextRuntimePack,
    List.append_eq_nil_iff, List.map_eq_nil_iff, List.flatMap_eq_nil_iff] at h
  obtain ⟨⟨⟨⟨⟨⟨⟨⟨⟨⟨-, hgraph⟩, hgeometry⟩, -⟩, -⟩, -⟩, -⟩, -⟩, hnodes⟩, hassertions⟩,
    hfeatures⟩ := h
  exact ⟨hgraph, hgeometry, hnodes, hassertions, hfeatures⟩

theorem distinctIds_of_created (h : Created P pack runtime) :
    DistinctIds pack.geometry.features := by
  obtain ⟨countryCode, hvalid⟩ := h.valid
  obtain ⟨-, hgeometry, -⟩ := errors_of_valid hvalid
  simp only [validatePostalContextGeometryCollection, List.append_eq_nil_iff] at hgeometry
  exact (distinctIds_of_featuresErrors hgeometry.2).1

theorem node_of_created (h : Created P pack runtime) {feature : GeometryFeature}
    (hfeature : feature ∈ pack.geometry.features) : (runtime.node feature.nodeId).isSome := by
  obtain ⟨countryCode, hvalid⟩ := h.valid
  obtain ⟨-, -, -, -, hfeatures⟩ := errors_of_valid hvalid
  have hnone := hfeatures feature hfeature
  rw [PackRuntime.node, h.pack_eq]
  rcases hnode : nodeById pack.graph.nodes feature.nodeId with _ | node
  · simp [packFeatureErrors, hnode] at hnone
  · rfl

/-! ## Which features a point looks at -/

/-- The features that are looked at for a point are those that no border parts from it. -/
theorem lookedAt_iff {cellSize : ℚ} (hsize : 0 < cellSize) {point : Position}
    {feature : GeometryFeature} :
    InCell cellSize (cellForPoint cellSize point) feature ∨ Everywhere cellSize feature
      ↔ ¬ Beyond cellSize point feature.geometry := by
  rcases hcells : cellsForBbox cellSize (postalContextGeometryBounds feature.geometry)
    INDEX_LIMITS.cellsPerFeature with _ | cells
  · refine ⟨fun _ => ?_, fun _ => Or.inr hcells⟩
    rintro ⟨bounds, hbounds, hsome, -⟩
    rw [← hbounds, hcells] at hsome
    cases hsome
  · obtain ⟨bounds, hbounds⟩ := bbox_of_cellsForBbox hcells
    have hsome := hbounds ▸ hcells
    have hevery : ¬ Everywhere cellSize feature := fun hnone =>
      absurd (hcells.symm.trans hnone) nofun
    have hbeyond : Beyond cellSize point feature.geometry
        ↔ AcrossBorder cellSize point bounds := by
      constructor
      · rintro ⟨bounds', hbounds', -, hacross⟩
        exact Option.some.inj (hbounds.symm.trans hbounds') ▸ hacross
      · exact fun hacross => ⟨bounds, hbounds, hsome ▸ rfl, hacross⟩
    rw [inCell_iff hbounds hsome, or_iff_left hevery, hbeyond, AcrossBorder, BorderBetween,
      BorderBetween, BorderBetween, BorderBetween, ← floor_lt_floor_iff hsize,
      ← floor_lt_floor_iff hsize, ← floor_lt_floor_iff hsize, ← floor_lt_floor_iff hsize]
    simp only [not_or, not_lt, CellBetween, firstCell, lastCell, cellForPoint]
    tauto

theorem filterMap_filter_of {α β : Type} {g : α → Option β} {p : α → Bool} : ∀ {l : List α},
    (∀ a ∈ l, (g a).isSome → p a) → (l.filter p).filterMap g = l.filterMap g
  | [], _ => rfl
  | a :: l, h => by
    have ih := filterMap_filter_of fun a' ha' => h a' (List.mem_cons_of_mem a ha')
    by_cases hp : p a
    · rw [List.filter_cons_of_pos hp, List.filterMap_cons, List.filterMap_cons, ih]
    · have hnone : g a = none := by
        by_contra hsome
        exact hp (h a List.mem_cons_self (Option.isSome_iff_ne_none.2 hsome))
      rw [List.filter_cons_of_neg hp, List.filterMap_cons, hnone, ih]

/-! ## The answer of a query by a point -/

section Point

variable {request : CoordinateRequest}

theorem indexes_postal (h : Created P pack runtime) :
    Indexes runtime.postalGeometryIndex (1 / 10)
      (pack.geometry.features.filter eligiblePostalGeometry) := by
  obtain ⟨_, _, _, hbuild, -⟩ := h.indices
  exact indexes_build hbuild

theorem indexes_address (h : Created P pack runtime) :
    Indexes runtime.addressPointIndex (1 / 100)
      (pack.geometry.features.filter eligibleAddressPointGeometry) := by
  obtain ⟨_, _, _, -, hbuild⟩ := h.indices
  exact indexes_build hbuild

theorem spatialCandidates_ok {postal address : List IndexedFeature}
    (h : spatialCandidates runtime request = .ok (postal, address)) :
    runtime.postalGeometryIndex.queryPoint request.point = some postal
      ∧ runtime.addressPointIndex.queryPoint request.point = some address := by
  unfold spatialCandidates at h
  rcases hpostal : runtime.postalGeometryIndex.queryPoint request.point with _ | postal' <;>
    rcases haddress : runtime.addressPointIndex.queryPoint request.point with _ | address' <;>
    rw [hpostal, haddress] at h <;> dsimp only at h
  · cases h
  · cases h
  · cases h
  split_ifs at h
  obtain ⟨rfl, rfl⟩ := Prod.mk.inj (Except.ok.inj h)
  exact ⟨rfl, rfl⟩

open Classical in
/-- What a function finds in the features that are looked at for a point. -/
theorem perm_filterMap_queryPoint {β : Type} {index : GeometryBucketIndex} {cellSize : ℚ}
    {features : List GeometryFeature} (hsize : 0 < cellSize)
    (hindex : Indexes index cellSize features) (hdistinct : DistinctIds features)
    {point : Position} {entries : List IndexedFeature}
    (h : index.queryPoint point = some entries) (g : GeometryFeature → Option β) :
    (entries.filterMap fun entry => g entry.feature).Perm
      ((features.filter fun f => ¬ Beyond cellSize point f.geometry).filterMap g) := by
  have hperm := (perm_queryPoint hindex hdistinct h).filterMap fun entry => g entry.feature
  rw [List.filterMap_map] at hperm
  simp only [lookedAt_iff hsize] at hperm
  exact hperm

theorem mem_of_queryPoint {index : GeometryBucketIndex} {cellSize : ℚ}
    {features : List GeometryFeature} (hindex : Indexes index cellSize features)
    (hdistinct : DistinctIds features) {point : Position} {entries : List IndexedFeature}
    (h : index.queryPoint point = some entries) {entry : IndexedFeature}
    (hentry : entry ∈ entries) : entry.feature ∈ features := by
  classical
  obtain ⟨f, hf, rfl⟩ := List.mem_map.1 ((perm_queryPoint hindex hdistinct h).mem_iff.1 hentry)
  exact List.mem_of_mem_filter hf

theorem hitAddressPoint_feature {feature : GeometryFeature} {hit : AddressPointHit}
    (h : hitAddressPoint P request feature = some hit) :
    hit.feature = feature ∧ eligibleAddressPointGeometry feature := by
  unfold hitAddressPoint at h
  split_ifs at h with heligible
  rcases hgeometry : feature.geometry with coordinates | _ | _ <;> rw [hgeometry] at h <;>
    rcases hradius : feature.matchRadiusMeters with _ | radius <;> rw [hradius] at h <;>
    dsimp only at h
  all_goals first | cases h | skip
  split_ifs at h
  obtain rfl := Option.some.inj h
  exact ⟨rfl, (Bool.and_eq_true_iff.1 heligible).1⟩

theorem matchPostalFeatures_error : ∀ {entries : List IndexedFeature}
    {found : List PostalFeatureMatch} {error : JsString},
    matchPostalFeatures P request found entries = .error error → error ∈ LIMIT_ERRORS
  | [], _, _, h => by cases h
  | { feature, .. } :: entries, found, error, h => by
    unfold matchPostalFeatures at h
    dsimp only at h
    split_ifs at h
    · exact matchPostalFeatures_error h
    · exact matchPostalFeatures_error h
    · obtain rfl := Except.error.inj h
      simp [LIMIT_ERRORS]
    · exact matchPostalFeatures_error h

theorem spatialCandidates_error {error : JsString}
    (h : spatialCandidates runtime request = .error error) : error ∈ LIMIT_ERRORS := by
  unfold spatialCandidates at h
  rcases hpostal : runtime.postalGeometryIndex.queryPoint request.point with _ | postal <;>
    rcases haddress : runtime.addressPointIndex.queryPoint request.point with _ | address <;>
    rw [hpostal, haddress] at h <;> dsimp only at h
  · obtain rfl := Except.error.inj h
    simp [LIMIT_ERRORS]
  · obtain rfl := Except.error.inj h
    simp [LIMIT_ERRORS]
  · obtain rfl := Except.error.inj h
    simp [LIMIT_ERRORS]
  · split_ifs at h
    obtain rfl := Except.error.inj h
    simp [LIMIT_ERRORS]

theorem resolveStart_error {found : List PostalFeatureMatch} {start : ResolutionStart}
    {error : JsString} (hstart : start.addTransientQuery ∨ (runtime.node start.startNodeId).isSome)
    (h : resolveStart P runtime request found start = .error error) : error ∈ LIMIT_ERRORS := by
  unfold resolveStart at h
  rcases hgraph : graphForResolutionStart P runtime start request.purpose request.validAt
    request.known found with e | graph <;> rw [hgraph] at h
  · obtain rfl : e = error := Except.error.inj h
    unfold graphForResolutionStart at hgraph
    dsimp only at hgraph
    have hsome : ∃ node, (if start.addTransientQuery then
        some (transientQueryNode runtime start.startNodeId)
        else runtime.node start.startNodeId) = some node := by
      split_ifs with htransient
      · exact ⟨_, rfl⟩
      · exact Option.isSome_iff_exists.1 (hstart.resolve_left htransient)
    obtain ⟨node, hnode⟩ := hsome
    rw [hnode] at hgraph
    dsimp only at hgraph
    rcases hextract : extract P runtime node request.purpose request.validAt request.known
      found with _ | extraction <;> rw [hextract] at hgraph
    · obtain rfl := Except.error.inj hgraph
      simp [LIMIT_ERRORS]
    · cases hgraph
  · cases h

theorem resolveMatches_error (h : Created P pack runtime) {error : JsString}
    (herror : resolveMatches P runtime request = .error error) : error ∈ LIMIT_ERRORS := by
  unfold resolveMatches at herror
  simp only [bind_eq_error, Prod.exists] at herror
  rcases herror with hcandidates | ⟨postal, address, hcandidates, hfound | ⟨found, hfound,
    hresolutions | ⟨resolutions, hresolutions, h⟩⟩⟩
  · exact spatialCandidates_error hcandidates
  · exact matchPostalFeatures_error hfound
  · obtain ⟨start, hstart, hresolve⟩ := Checks.exists_of_mapM_error hresolutions
    refine resolveStart_error ?_ hresolve
    unfold resolutionStarts at hstart
    split_ifs at hstart
    · obtain ⟨hit, hhit, rfl⟩ := List.mem_map.1 hstart
      have hmem := List.mem_of_mem_take hhit
      rw [addressPointHits, List.mem_insertionSort] at hmem
      obtain ⟨entry, hentry, hhit⟩ := List.mem_filterMap.1 hmem
      rw [(hitAddressPoint_feature hhit).1]
      exact Or.inr (node_of_created h (List.mem_of_mem_filter (mem_of_queryPoint
        (indexes_address h) ((distinctIds_of_created h).filter _)
        (spatialCandidates_ok hcandidates).2 hentry)))
    · obtain rfl := List.mem_singleton.1 hstart
      exact Or.inl rfl
  · cases h

/-- An accepted request without a limit error is answered from its matches. -/
theorem answered (h : Created P pack runtime) (haccepted : Accepted P runtime request)
    (hlimited : ¬ Limited P runtime request) :
    ∃ answer, resolveMatches P runtime request = .ok answer := by
  rcases hmatches : resolveMatches P runtime request with error | answer
  · exact absurd ⟨error, resolveMatches_error h hmatches,
      resolveCoordinate_error haccepted hmatches⟩ hlimited
  · exact ⟨answer, rfl⟩

/-! ## Points -/

theorem eligible_pack (h : Created P pack runtime) (p : GeometryFeature → Bool) :
    runtime.pack.geometry.features.filter p = pack.geometry.features.filter p := by
  rw [h.pack_eq]

open Classical in
/-- The postal areas that are found are those of a scan that no border parts from the point. -/
theorem perm_found (h : Created P pack runtime) {postal address : List IndexedFeature}
    {found : List PostalFeatureMatch}
    (hcandidates : spatialCandidates runtime request = .ok (postal, address))
    (hfound : matchPostalFeatures P request [] postal = .ok found) :
    found.Perm (((pack.geometry.features.filter eligiblePostalGeometry).filter fun f =>
      ¬ Beyond (1 / 10) request.point f.geometry).filterMap (locateFeature P request)) := by
  rw [matchPostalFeatures_ok hfound, List.nil_append]
  exact perm_filterMap_queryPoint (by norm_num) (indexes_postal h)
    ((distinctIds_of_created h).filter _) (spatialCandidates_ok hcandidates).1 _

open Classical in
theorem perm_hits (h : Created P pack runtime) {postal address : List IndexedFeature}
    (hcandidates : spatialCandidates runtime request = .ok (postal, address)) :
    (addressPointHits P request address).Perm
      (((pack.geometry.features.filter eligibleAddressPointGeometry).filter fun f =>
        ¬ Beyond (1 / 100) request.point f.geometry).filterMap (hitAddressPoint P request)) :=
  (List.perm_insertionSort _ _).trans (perm_filterMap_queryPoint (by norm_num)
    (indexes_address h) ((distinctIds_of_created h).filter _)
    (spatialCandidates_ok hcandidates).2 _)

theorem locateFeature_feature {feature : GeometryFeature} {located : PostalFeatureMatch}
    (h : locateFeature P request feature = some located) : located.feature = feature := by
  unfold locateFeature at h
  split_ifs at h
  rw [← Option.some.inj h]

/-- The answer's postal areas are those of the scan where no border parts one from the point. -/
theorem pointQueryScans_iff (h : Created P pack runtime) :
    PointQueryScans P runtime request ↔ (Accepted P runtime request → ¬ Limited P runtime request →
      ∀ f ∈ pack.geometry.features, eligiblePostalGeometry f →
        (locateFeature P request f).isSome → ¬ Beyond (1 / 10) request.point f.geometry) := by
  classical
  have hscan (haccepted : Accepted P runtime request) : scanPoint P runtime request
      = (pack.geometry.features.filter eligiblePostalGeometry).filterMap
        (locateFeature P request) := by
    rw [scanPoint, if_pos haccepted.release, h.pack_eq]
  constructor
  · intro hquery haccepted hlimited f hf heligible hlocated hbeyond
    obtain ⟨answer, hmatches⟩ := answered h haccepted hlimited
    have hperm := (hquery ⟨haccepted.coordinate, haccepted.validAt, haccepted.knownAt⟩).resolve_left
      hlimited
    rw [resolveCoordinate_ok haccepted hmatches, hscan haccepted] at hperm
    obtain ⟨postal, address, found, resolutions, hcandidates, hfound, -, rfl⟩ :=
      resolveMatches_ok.1 hmatches
    obtain ⟨located, hlocated⟩ := Option.isSome_iff_exists.1 hlocated
    have hmem := hperm.mem_iff.2 (List.mem_map_of_mem (List.mem_filterMap.2
      ⟨f, List.mem_filter.2 ⟨hf, heligible⟩, hlocated⟩))
    obtain ⟨located', hlocated', hsame⟩ := List.mem_map.1 hmem
    obtain ⟨f', hf', hlocated''⟩ :=
      List.mem_filterMap.1 ((perm_found h hcandidates hfound).mem_iff.1 hlocated')
    have hid : f'.id = f.id := by
      rw [← locateFeature_feature hlocated'', ← locateFeature_feature hlocated]
      exact congrArg SpatialPostalMatch.geometryFeatureId hsame
    obtain ⟨hf', hnear⟩ := List.mem_filter.1 hf'
    rw [(distinctIds_of_created h).eq (List.mem_of_mem_filter hf') hf hid] at hnear
    exact of_decide_eq_true hnear hbeyond
  · intro hnear hwell
    by_cases haccepted : Accepted P runtime request
    · by_cases hlimited : Limited P runtime request
      · exact Or.inl hlimited
      · refine Or.inr ?_
        obtain ⟨answer, hmatches⟩ := answered h haccepted hlimited
        rw [resolveCoordinate_ok haccepted hmatches, hscan haccepted]
        obtain ⟨postal, address, found, resolutions, hcandidates, hfound, -, rfl⟩ :=
          resolveMatches_ok.1 hmatches
        refine List.Perm.map _ ((perm_found h hcandidates hfound).trans (List.Perm.of_eq ?_))
        refine filterMap_filter_of fun f hf hlocated => ?_
        obtain ⟨hf, heligible⟩ := List.mem_filter.1 hf
        exact decide_eq_true (hnear haccepted hlimited f hf heligible hlocated)
    · refine Or.inr ?_
      have hrelease : ¬ runtime.releaseEffective P request.validAt := fun hrelease =>
        haccepted ⟨hwell.coordinate, hwell.validAt, hwell.knownAt, hrelease⟩
      rw [(resolveCoordinate_of_not_accepted haccepted).2.1, scanPoint, if_neg hrelease]
      exact List.Perm.refl _

theorem filterMap_hitAddressPoint (features : List GeometryFeature) :
    (features.filter eligibleAddressPointGeometry).filterMap (hitAddressPoint P request)
      = features.filterMap (hitAddressPoint P request) :=
  filterMap_filter_of fun _ _ hhit => by
    obtain ⟨hit, hhit⟩ := Option.isSome_iff_exists.1 hhit
    exact (hitAddressPoint_feature hhit).2

end Point

/-! ## Boxes -/

section Boxes

variable {bbox : Bbox} {validAt knownAt : JsString}

/-- The area is in force and meets the box. -/
def meets (P : Platform) (bbox : Bbox) (validAt knownAt : JsString) (feature : GeometryFeature) :
    Bool :=
  isPostalContextGeometryEffectiveAt P feature validAt knownAt
    && postalContextGeometryIntersectsBbox feature.geometry bbox

/-- The loop takes the areas of the entries that meet the box, up to the limit. -/
theorem intersectLoop_ok {limit : ℕ} : ∀ {entries : List IndexedFeature}
    {found result : List GeometryFeature} {positions : ℕ} {truncated : Bool},
    found.length ≤ limit →
    intersectLoop P bbox validAt knownAt limit found positions entries = .ok (result, truncated) →
      result = found ++ ((entries.map (·.feature)).filter (meets P bbox validAt knownAt)).take
          (limit - found.length)
        ∧ (truncated ↔ limit < found.length
          + ((entries.map (·.feature)).filter (meets P bbox validAt knownAt)).length)
  | [], found, result, positions, truncated, hlength, h => by
    obtain ⟨rfl, rfl⟩ := Prod.mk.inj (Except.ok.inj h)
    simpa using hlength
  | entry :: entries, found, result, positions, truncated, hlength, h => by
    rw [List.map_cons]
    unfold intersectLoop at h
    split_ifs at h with hskip hfull hpositions
    · have hout : ¬ meets P bbox validAt knownAt entry.feature := by
        simp only [meets, Bool.and_eq_true, Bool.or_eq_true, Bool.not_eq_true'] at hskip ⊢
        rintro ⟨heffective, hmeets⟩
        rw [heffective, hmeets] at hskip
        simp at hskip
      rw [List.filter_cons_of_neg hout]
      exact intersectLoop_ok hlength h
    all_goals
      have hin : meets P bbox validAt knownAt entry.feature := by
        simpa [meets] using hskip
      rw [List.filter_cons_of_pos hin]
    · obtain ⟨rfl, rfl⟩ := Prod.mk.inj (Except.ok.inj h)
      rw [Nat.sub_eq_zero_of_le hfull, List.take_zero, List.append_nil, List.length_cons]
      exact ⟨rfl, by simp only [true_iff]; omega⟩
    · obtain ⟨rfl, htruncated⟩ := intersectLoop_ok (by rw [List.length_append]; simp; omega) h
      rw [List.length_append, List.length_singleton] at htruncated ⊢
      refine ⟨?_, htruncated.trans (by rw [List.length_cons]; omega)⟩
      rw [List.append_assoc, List.singleton_append, ← List.take_succ_cons]
      congr 2
      omega

/-- Where a geometry meets a box, its bounds do. -/
theorem meet_of_intersects {geometry : Geometry}
    (h : postalContextGeometryIntersectsBbox geometry bbox) :
    ∃ bounds, postalContextGeometryBounds geometry = some bounds
      ∧ (bounds.minimumLongitude ≤ bbox.maximumLongitude
        ∧ bbox.minimumLongitude ≤ bounds.maximumLongitude)
      ∧ bounds.minimumLatitude ≤ bbox.maximumLatitude
      ∧ bbox.minimumLatitude ≤ bounds.maximumLatitude := by
  unfold postalContextGeometryIntersectsBbox at h
  rcases hbounds : postalContextGeometryBounds geometry with _ | bounds <;> rw [hbounds] at h <;>
    dsimp only at h
  · cases h
  · split_ifs at h with hapart
    simp only [Bool.or_eq_true, decide_eq_true_eq, not_or, not_lt] at hapart
    exact ⟨bounds, rfl, ⟨hapart.1.1.2, hapart.1.1.1⟩, hapart.2, hapart.1.2⟩

/-- An area that meets a box is looked at. -/
theorem lookedAt_of_intersects {cellSize : ℚ} (hsize : 0 < cellSize) (hbbox : bbox.Ordered)
    {feature : GeometryFeature} (h : postalContextGeometryIntersectsBbox feature.geometry bbox) :
    (∃ cell, CellBetween (firstCell cellSize bbox) (lastCell cellSize bbox) cell
      ∧ InCell cellSize cell feature) ∨ Everywhere cellSize feature := by
  obtain ⟨bounds, hbounds, hlongitude, hlatitude⟩ := meet_of_intersects h
  rcases hcells : cellsForBbox cellSize (postalContextGeometryBounds feature.geometry)
    INDEX_LIMITS.cellsPerFeature with _ | cells
  · exact Or.inr hcells
  · obtain ⟨cell, hcell, hcell'⟩ := cellBetween_of_meet hsize (ordered_bounds hbounds) hbbox
      hlongitude hlatitude
    exact Or.inl ⟨cell, hcell', (inCell_iff hbounds (hbounds ▸ hcells) cell).2 hcell⟩

/-- An answer without an error, for a release that is in force and for one that is not. -/
theorem intersects_cases {limit : ℚ}
    (h : (intersectsPostalBbox P runtime bbox validAt knownAt limit).errors = []) :
    validPostalContextBbox bbox ∧ wholeBetween 1 QUERY_LIMITS.geometryResponseFeatures limit
      ∧ ((¬ runtime.releaseEffective P validAt
          ∧ (intersectsPostalBbox P runtime bbox validAt knownAt limit).matches_ = []
          ∧ (intersectsPostalBbox P runtime bbox validAt knownAt limit).truncated = false)
        ∨ runtime.releaseEffective P validAt ∧ ∃ found truncated,
          intersectIndexed P runtime bbox validAt knownAt limit.num.toNat = .ok (found, truncated)
            ∧ (intersectsPostalBbox P runtime bbox validAt knownAt limit).matches_
              = found.map (postalGeometryResult runtime)
            ∧ (intersectsPostalBbox P runtime bbox validAt knownAt limit).truncated
              = truncated) := by
  unfold intersectsPostalBbox at h ⊢
  dsimp only at h ⊢
  split at h
  · cases h
  rename_i hbbox
  split at h
  · cases h
  rename_i hscope
  split at h
  · cases h
  rename_i hlimit
  split at h
  · cases h
  rename_i htimes
  simp only [if_neg hbbox, if_neg hscope, if_neg hlimit, if_neg htimes]
  refine ⟨by simpa using hbbox, by simpa using hlimit, ?_⟩
  split at h
  · rename_i hrelease
    refine Or.inl ⟨by simpa using hrelease, ?_, ?_⟩
    · rw [if_pos hrelease]
    · rw [if_pos hrelease]
  rename_i hrelease
  simp only [if_neg hrelease]
  refine Or.inr ⟨by simpa using hrelease, ?_⟩
  rcases hindexed : intersectIndexed P runtime bbox validAt knownAt limit.num.toNat with
    error | ⟨found, truncated⟩ <;> rw [hindexed] at h
  · cases h
  · exact ⟨found, truncated, rfl, rfl, rfl⟩

theorem insertionSort_idLe (hcompare : LawfulCompare P) (entries : List IndexedFeature) :
    (entries.insertionSort (IdLe P)).Pairwise (IdLe P) := by
  have : Std.Total (IdLe P) := ⟨fun a b => hcompare.total _ _⟩
  have : IsTrans IndexedFeature (IdLe P) := ⟨fun a b c => hcompare.trans _ _ _⟩
  exact List.pairwise_insertionSort (IdLe P) entries

theorem toNat_num_of_wholeBetween {value : ℚ} {first last : ℕ} (h : wholeBetween first last value) :
    (value.num.toNat : ℚ) = value := by
  simp only [wholeBetween, Bool.and_eq_true, decide_eq_true_eq] at h
  obtain ⟨⟨hden, hfirst⟩, -⟩ := h
  have hvalue : (value.num : ℚ) = value := Rat.coe_int_num_of_den_eq_one hden
  have hnum : 0 ≤ value.num := Rat.num_nonneg.2 ((Nat.cast_nonneg first).trans hfirst)
  rw [← hvalue, Rat.num_intCast]
  exact_mod_cast Int.toNat_of_nonneg hnum

open Classical in
/-- The areas that meet the box are all among the candidates for it. -/
theorem filter_meets_lookedAt {cellSize : ℚ} (hsize : 0 < cellSize) (hbbox : bbox.Ordered)
    (features : List GeometryFeature) :
    (features.filter fun f =>
      (∃ cell, CellBetween (firstCell cellSize bbox) (lastCell cellSize bbox) cell
        ∧ InCell cellSize cell f) ∨ Everywhere cellSize f).filter (meets P bbox validAt knownAt)
      = features.filter (meets P bbox validAt knownAt) := by
  rw [List.filter_filter]
  refine List.filter_congr fun f _ => ?_
  by_cases hmeets : meets P bbox validAt knownAt f
  · rw [hmeets, Bool.true_and]
    exact decide_eq_true (lookedAt_of_intersects hsize hbbox (Bool.and_eq_true_iff.1 hmeets).2)
  · rw [Bool.not_eq_true] at hmeets
    rw [hmeets, Bool.false_and]

/-- The query by a box finds what a scan of all the areas does. -/
theorem bboxQueryScans (h : Created P pack runtime) (hcompare : LawfulCompare P) (limit : ℚ) :
    BboxQueryScans P runtime bbox validAt knownAt limit := by
  classical
  intro herrors
  obtain ⟨hbbox, hlimit, ⟨hrelease, hmatches, htruncated⟩ |
    ⟨hrelease, found, truncated, hindexed, hmatches, htruncated⟩⟩ := intersects_cases herrors
  · rw [hmatches, htruncated, scanBbox, if_neg hrelease]
    refine ⟨⟨[], List.Perm.refl _, List.Pairwise.nil, by simp⟩, ?_⟩
    rw [← toNat_num_of_wholeBetween hlimit]
    simp
  rw [hmatches, htruncated, scanBbox, if_pos hrelease, h.pack_eq]
  unfold intersectIndexed at hindexed
  rcases hquery : runtime.postalGeometryIndex.queryBbox bbox with _ | entries <;>
    rw [hquery] at hindexed <;> dsimp only at hindexed
  · cases hindexed
  split_ifs at hindexed
  obtain ⟨rfl, hmore⟩ := intersectLoop_ok (Nat.zero_le _) hindexed
  have hordered : bbox.Ordered := by
    simp only [validPostalContextBbox, Bool.and_eq_true, decide_eq_true_eq] at hbbox
    exact ⟨hbbox.1.2.le, hbbox.2.le⟩
  have hcandidates := perm_queryBbox (indexes_postal h) ((distinctIds_of_created h).filter _) hquery
  have hperm : (((entries.insertionSort (IdLe P)).map (·.feature)).filter
      (meets P bbox validAt knownAt)).Perm ((pack.geometry.features.filter
        eligiblePostalGeometry).filter (meets P bbox validAt knownAt)) := by
    have hfeatures := ((List.perm_insertionSort (IdLe P) entries).trans hcandidates).map (·.feature)
    rw [List.map_map, show (fun e : IndexedFeature => e.feature) ∘ indexFeature = id from rfl,
      List.map_id] at hfeatures
    exact (hfeatures.filter _).trans
      (List.Perm.of_eq (filter_meets_lookedAt (by norm_num) hordered _))
  refine ⟨⟨_, hperm, ?_, rfl⟩, hmore.trans ?_⟩
  · refine List.Pairwise.filter _ (List.pairwise_map.2 ?_)
    exact insertionSort_idLe hcompare entries
  · rw [List.length_nil, Nat.zero_add, hperm.length_eq, ← Nat.cast_lt (α := ℚ),
      toNat_num_of_wholeBetween hlimit]
    rfl

end Boxes

/-! ## Both queries -/

theorem lawfulCompare_samplePlatform : LawfulCompare samplePlatform := by
  have hle (a b : JsString) : samplePlatform.localeCompare a b ≤ 0 ↔ a ≤ b := by
    change (if a = b then (0 : ℤ) else if a < b then -1 else 1) ≤ 0 ↔ a ≤ b
    split_ifs with heq hlt
    · exact iff_of_true le_rfl heq.le
    · exact iff_of_true (by norm_num) hlt.le
    · exact iff_of_false (by norm_num) fun hle => hlt (lt_of_le_of_ne hle heq)
  refine ⟨fun a b => ?_, fun a b c => ?_⟩
  · rw [hle, hle]
    exact le_total a b
  · rw [hle, hle, hle]
    exact le_trans

/-- A square whose west side is on the border of two cells. -/
def squareArea : GeometryFeature where
  id := js "feature-1"
  nodeId := js "postal-1"
  role := .postal_area
  publicationClass := .public_context
  geometry := .polygon [[(101 / 10, 0), (102 / 10, 0), (102 / 10, 1 / 10), (101 / 10, 1 / 10),
    (101 / 10, 0)]]
  source := { sampleSource with
    assignmentAuthority := .official_postal_operator
    geometryAuthority := .official_postal_geometry }
  validTime := sampleTime
  knownTime := sampleTime
  quality := sampleQuality
  matchRadiusMeters := none

def onePostalArea : RuntimePack := samplePack
  [{ sampleNode (js "postal-1") .postal_feature .standard_area .polygon with
    postalCode := some (js "100001") }] [] [squareArea]

/-- An address point on the border of two cells. -/
def onePoint : RuntimePack := samplePack
  [sampleNode (js "point-1") .address_point .premise .point,
    sampleNode (js "record-1") .address_record .premise .none]
  [sampleAssertion (js "locates-1") (js "point-1") (js "record-1") .locates]
  [sampleAddressPoint (js "feature-1") (js "point-1") (1001 / 100, 0)]

theorem isSome_samples :
    (PackRuntime.create samplePlatform onePostalArea ⟨none, none⟩).toOption.isSome
      ∧ (PackRuntime.create samplePlatform onePoint ⟨none, none⟩).toOption.isSome
      ∧ instantValue samplePlatform (js "2026-06-01T00:00:00Z") ≠ none := by
  decide +kernel

def onePostalAreaRuntime : PackRuntime := Option.get _ isSome_samples.1

theorem create_onePostalArea :
    PackRuntime.create samplePlatform onePostalArea ⟨none, none⟩ = .ok onePostalAreaRuntime :=
  eq_ok_of_toOption_get isSome_samples.1

def squareRequest (longitude : ℚ) : CoordinateRequest :=
  { sampleRequest longitude with latitude := 1 / 20 }

def squareBbox : Bbox := ⟨10, 0, 11, 1⟩

def onePointRuntime : PackRuntime := Option.get _ isSome_samples.2.1

theorem create_onePoint :
    PackRuntime.create samplePlatform onePoint ⟨none, none⟩ = .ok onePointRuntime :=
  eq_ok_of_toOption_get isSome_samples.2.1

/-- What the runtimes of the two samples answer, and what the scans find. -/
theorem answered_samples :
    ((resolveCoordinate samplePlatform onePostalAreaRuntime
          (squareRequest (203 / 20))).postalMatches.Perm
        ((scanPoint samplePlatform onePostalAreaRuntime (squareRequest (203 / 20))).map
          (postalMatch onePostalAreaRuntime))
      ∧ (onePostalAreaRuntime.releaseEffective samplePlatform (js "2026-06-01T00:00:00Z")
        ∧ validCoordinate (1 / 20) (203 / 20)
        ∧ (resolveCoordinate samplePlatform onePostalAreaRuntime
          (squareRequest (203 / 20))).errors = []
        ∧ eligiblePostalGeometry squareArea
        ∧ (locateFeature samplePlatform (squareRequest (203 / 20)) squareArea).isSome)
      ∧ locatePointInGeometry (squareRequest (101 / 10 - 1 / 20000000000)).point
        squareArea.geometry = .boundary
      ∧ validCoordinate (1 / 20) (101 / 10 - 1 / 20000000000)
      ∧ (resolveCoordinate samplePlatform onePostalAreaRuntime
          (squareRequest (101 / 10 - 1 / 20000000000))).errors = []
      ∧ (resolveCoordinate samplePlatform onePostalAreaRuntime
          (squareRequest (101 / 10 - 1 / 20000000000))).postalMatches.length
        ≠ ((scanPoint samplePlatform onePostalAreaRuntime
          (squareRequest (101 / 10 - 1 / 20000000000))).map
            (postalMatch onePostalAreaRuntime)).length)
      ∧ onePointRuntime.releaseEffective samplePlatform (js "2026-06-01T00:00:00Z")
      ∧ validCoordinate 0 (1001 / 100 - 1 / 100000)
      ∧ (resolveCoordinate samplePlatform onePointRuntime
        (sampleRequest (1001 / 100 - 1 / 100000))).status = .no_match
      ∧ (resolveCoordinate samplePlatform onePointRuntime
        (sampleRequest (1001 / 100 - 1 / 100000))).errors = []
      ∧ (spatialCandidates onePointRuntime
        (sampleRequest (1001 / 100 - 1 / 100000))).toOption.map (·.2.length) = some 0
      ∧ (onePointRuntime.pack.geometry.features.filterMap
        (hitAddressPoint samplePlatform (sampleRequest (1001 / 100 - 1 / 100000)))).length
        ≠ 0 := by
  decide +kernel

theorem not_limited_of_errors {request : CoordinateRequest}
    (h : (resolveCoordinate P runtime request).errors = []) : ¬ Limited P runtime request := by
  rintro ⟨error, -, hbase⟩
  rw [hbase] at h
  cases h

theorem wellFormed_squareRequest {longitude : ℚ} (h : validCoordinate (1 / 20) longitude) :
    WellFormed samplePlatform (squareRequest longitude) :=
  ⟨h, isSome_samples.2.2, isSome_samples.2.2⟩

theorem pointQueryScans_square : PointQueryScans samplePlatform onePostalAreaRuntime
    (squareRequest (203 / 20)) := fun _ => Or.inr answered_samples.1.1

theorem accepted_onePoint {longitude : ℚ} (h : validCoordinate 0 longitude) :
    Accepted samplePlatform onePointRuntime (sampleRequest longitude) :=
  ⟨h, isSome_samples.2.2, isSome_samples.2.2, answered_samples.2.1⟩

theorem not_beyond_self (cellSize : ℚ) (point : Position) :
    ¬ Beyond cellSize point (.point point) := by
  rintro ⟨bounds, hbounds, -, hacross⟩
  obtain rfl := Option.some.inj hbounds
  rcases hacross with ⟨k, hlt, hle⟩ | ⟨k, hlt, hle⟩ | ⟨k, hlt, hle⟩ | ⟨k, hlt, hle⟩ <;>
    exact absurd (hlt.trans_le hle) (lt_irrefl _)

end Agid.PostalContext
