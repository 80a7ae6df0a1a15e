import Agid.Lib.Checks
import Agid.PackRuntime

/-!
# Unique answers for a coordinate

An answer that is `'unique'` or has a selected candidate comes from resolutions without a doubt and
from at most one address point of the clipped list.  With a limit of two or more the clipped list
shows that there are several; with a limit of one it does not.
-/

namespace Agid.PostalContext

open Checks (bind_eq_ok)

/-! ## What the constructor has checked -/

/-- What holds of a runtime that was created. -/
structure Created (P : Platform) (pack : RuntimePack) (runtime : PackRuntime) : Prop where
  valid : ∃ countryCode, (validatePostalContextRuntimePack P pack countryCode).valid
  pack_eq : runtime.pack = pack
  limit : 1 ≤ runtime.maxAddressPointCandidates
  indices : ∃ budget budget' budget'',
    GeometryBucketIndex.build (pack.geometry.features.filter eligiblePostalGeometry) (1 / 10)
        budget = .ok (runtime.postalGeometryIndex, budget')
      ∧ GeometryBucketIndex.build (pack.geometry.features.filter eligibleAddressPointGeometry)
        (1 / 100) budget' = .ok (runtime.addressPointIndex, budget'')

theorem one_le_toNat_of_wholeBetween {value : ℚ} {last : ℕ} (h : wholeBetween 1 last value) :
    1 ≤ value.num.toNat := by
  simp only [wholeBetween, Bool.and_eq_true, decide_eq_true_eq] at h
  obtain ⟨⟨hden, hfirst⟩, -⟩ := h
  have hvalue : (value.num : ℚ) = value := Rat.coe_int_num_of_den_eq_one hden
  have hnum : (1 : ℤ) ≤ value.num := by exact_mod_cast hvalue ▸ hfirst
  omega

theorem created {P : Platform} {pack : RuntimePack} {options : RuntimeOptions}
    {runtime : PackRuntime} (h : PackRuntime.create P pack options = .ok runtime) :
    Created P pack runtime := by
  unfold PackRuntime.create at h
  dsimp only at h
  split at h
  · cases h
  rename_i hinvalid
  split at h
  · cases h
  rename_i hlimit
  simp only [bind_eq_ok] at h
  obtain ⟨⟨postal, budget⟩, hpostal, ⟨address, budget'⟩, haddress, h⟩ := h
  obtain rfl := Except.ok.inj h
  refine ⟨⟨_, by simpa using hinvalid⟩, rfl, ?_, _, _, _, hpostal, haddress⟩
  rcases hmax : options.maxAddressPointCandidates with _ | value
  · simp
  · rw [hmax, Option.any_some, Bool.not_eq_true', Bool.not_eq_false] at hlimit
    exact one_le_toNat_of_wholeBetween hlimit

/-! ## A resolution that is unique or partial -/

theorem candidates_of_resultStatus {candidates : List ResolutionCandidate}
    (h : resultStatus candidates ≠ .no_match) : candidates ≠ [] := by
  rintro rfl
  exact h rfl

theorem head_of_partial {P : Platform} {request : ResolutionRequest}
    (h : (resolvePostalContext P request).status = .partial_) :
    ∃ candidate rest, (resolvePostalContext P request).candidates = candidate :: rest
      ∧ (resolvePostalContext P request).selectedCandidateId = some candidate.pathId := by
  unfold resolvePostalContext at h ⊢
  dsimp only at h ⊢
  split at h
  · cases h
  rename_i hvalid
  rw [if_neg hvalid]
  split at h
  · cases h
  rename_i htimes
  rw [if_neg htimes]
  rcases hstart : findNode request.graph.nodes request.startNodeId with _ | start <;>
    rw [hstart] at h
  · cases h
  dsimp only at h ⊢
  split at h
  · cases h
  rename_i hvisible
  rw [if_neg hvisible]
  have hstatus : resultStatus (resolutionCandidates P request start) = .partial_ := h
  have hne := candidates_of_resultStatus (hstatus.trans_ne (by decide))
  obtain ⟨candidate, rest, hcandidates⟩ := List.exists_cons_of_ne_nil hne
  rw [hcandidates] at hstatus
  refine ⟨candidate, rest, hcandidates, ?_⟩
  simp [resolveFrom, hcandidates, hstatus]

theorem pathId_ne_nil {P : Platform} {request : ResolutionRequest} {candidate : ResolutionCandidate}
    (h : candidate ∈ (resolvePostalContext P request).candidates) : candidate.pathId ≠ [] := by
  unfold resolvePostalContext at h
  dsimp only at h
  split at h
  · cases h
  split at h
  · cases h
  split at h
  · cases h
  rename_i start _
  split at h
  · cases h
  change candidate ∈ resolutionCandidates P request start at h
  obtain ⟨root, -, rfl⟩ := List.mem_map.1 h
  exact List.cons_ne_nil _ _

/-! ## The verdict -/

/-- What a verdict of `'unique'` or `'partial'` rules out. -/
theorem overall_decided {resolutions : List ResolutionResult}
    {postalMatches : List SpatialPostalMatch} {addressPointMatches : List AddressPointMatch}
    (h : overallResolutionStatus resolutions postalMatches addressPointMatches = .unique
      ∨ overallResolutionStatus resolutions postalMatches addressPointMatches = .partial_) :
    (∀ resolution ∈ resolutions, resolution.status ≠ .ambiguous ∧ resolution.status ≠ .conflict
        ∧ resolution.status ≠ .invalid)
      ∧ addressPointMatches.length ≤ 1
      ∧ (∀ found ∈ postalMatches, found.relation ≠ .boundary)
      ∧ ∃ resolution ∈ resolutions, resolution.status ≠ .no_match := by
  unfold overallResolutionStatus at h
  dsimp only at h
  split_ifs at h with hinvalid hconflict hambiguous hnone hpartial
  all_goals simp only [or_self, or_false, false_or] at h
  all_goals
    simp only [List.any_eq_true, decide_eq_true_eq, not_exists, not_and, Bool.or_eq_true, not_or,
      List.all_eq_true, not_forall] at hinvalid hconflict hambiguous hnone
    obtain ⟨⟨hone, hboundary⟩, hdoubt⟩ := hambiguous
    obtain ⟨resolution, hresolution, hmatch⟩ := hnone
    exact ⟨fun r hr => ⟨hdoubt r hr, hconflict r hr, hinvalid r hr⟩, by omega,
      fun found hfound => hboundary found hfound, resolution, hresolution, hmatch⟩

/-- The verdict on one resolution and at most one address point, off every boundary. -/
theorem overall_singleton {resolution : ResolutionResult} {postalMatches : List SpatialPostalMatch}
    {addressPointMatches : List AddressPointMatch} (hone : addressPointMatches.length ≤ 1)
    (hboundary : ∀ found ∈ postalMatches, found.relation ≠ .boundary)
    (h : resolution.status = .unique ∨ resolution.status = .partial_) :
    overallResolutionStatus [resolution] postalMatches addressPointMatches = resolution.status := by
  have hany : postalMatches.any (·.relation = .boundary) = false := by simpa using hboundary
  have hlength : ¬ addressPointMatches.length > 1 := by omega
  rcases h with h | h <;> simp [overallResolutionStatus, h, hany, hlength]

/-! ## The matches -/

variable {P : Platform} {runtime : PackRuntime} {request : CoordinateRequest}

theorem matchPostalFeatures_ok : ∀ {entries : List IndexedFeature}
    {found result : List PostalFeatureMatch},
    matchPostalFeatures P request found entries = .ok result →
      result = found ++ entries.filterMap fun entry => locateFeature P request entry.feature
  | [], found, result, h => by
    obtain rfl := Except.ok.inj h
    simp
  | { feature, .. } :: entries, found, result, h => by
    unfold matchPostalFeatures at h
    dsimp only at h
    split_ifs at h with heffective hout hlimit
    · rw [matchPostalFeatures_ok h, List.filterMap_cons]
      simp [locateFeature, Bool.eq_false_iff.2 (by simpa using heffective)]
    · rw [matchPostalFeatures_ok h, List.filterMap_cons]
      simp [locateFeature, hout]
    · rw [Bool.not_eq_true', Bool.not_eq_false] at heffective
      rw [matchPostalFeatures_ok h, List.filterMap_cons]
      simp [locateFeature, heffective, hout]

theorem resolveCoordinate_of_not_accepted (h : ¬ Accepted P runtime request) :
    (resolveCoordinate P runtime request).resolutions = []
      ∧ (resolveCoordinate P runtime request).postalMatches = []
      ∧ (resolveCoordinate P runtime request).status ≠ .unique
      ∧ (resolveCoordinate P runtime request).selectedResolutionIndex = none := by
  unfold resolveCoordinate
  dsimp only
  split_ifs with hcoordinate htimes hrelease
  · exact ⟨rfl, rfl, nofun, rfl⟩
  · exact ⟨rfl, rfl, nofun, rfl⟩
  · exact ⟨rfl, rfl, nofun, rfl⟩
  · simp only [Bool.not_eq_true', Bool.not_eq_false, Bool.or_eq_true, decide_eq_true_eq,
      not_or] at hcoordinate htimes hrelease
    exact absurd ⟨hcoordinate, htimes.1, htimes.2, hrelease⟩ h

theorem resolveCoordinate_error (h : Accepted P runtime request) {error : JsString}
    (hmatches : resolveMatches P runtime request = .error error) :
    resolveCoordinate P runtime request = baseResolution runtime request .invalid [error] [] := by
  unfold resolveCoordinate
  dsimp only
  rw [if_neg (by simpa using h.coordinate), if_neg (by simpa using ⟨h.validAt, h.knownAt⟩),
    if_neg (by simpa using h.release), hmatches]

theorem resolveCoordinate_ok (h : Accepted P runtime request) {resolution : CoordinateResolution}
    (hmatches : resolveMatches P runtime request = .ok resolution) :
    resolveCoordinate P runtime request = resolution := by
  unfold resolveCoordinate
  dsimp only
  rw [if_neg (by simpa using h.coordinate), if_neg (by simpa using ⟨h.validAt, h.knownAt⟩),
    if_neg (by simpa using h.release), hmatches]

theorem coordinateAnswer_status (found : List PostalFeatureMatch) (hits : List AddressPointHit)
    (resolutions : List ResolutionResult) :
    (coordinateAnswer runtime request found hits resolutions).status
      = overallResolutionStatus resolutions (found.map (postalMatch runtime))
        ((hits.take runtime.maxAddressPointCandidates).map addressPointMatch) := rfl

theorem coordinateAnswer_index (found : List PostalFeatureMatch) (hits : List AddressPointHit)
    (resolutions : List ResolutionResult) :
    (coordinateAnswer runtime request found hits resolutions).selectedResolutionIndex
      = if resolutions.length = 1
          && ((coordinateAnswer runtime request found hits resolutions).status = .unique
            || (coordinateAnswer runtime request found hits resolutions).status = .partial_) then
          some 0
        else none := rfl

/-- What an answer was made from. -/
theorem resolveMatches_ok {answer : CoordinateResolution} :
    resolveMatches P runtime request = .ok answer ↔ ∃ postal address found resolutions,
      spatialCandidates runtime request = .ok (postal, address)
        ∧ matchPostalFeatures P request [] postal = .ok found
        ∧ (resolutionStarts ((addressPointHits P request address).take
            runtime.maxAddressPointCandidates)).mapM (resolveStart P runtime request found)
          = .ok resolutions
        ∧ answer = coordinateAnswer runtime request found (addressPointHits P request address)
          resolutions := by
  unfold resolveMatches
  simp only [bind_eq_ok, Prod.exists]
  constructor
  · rintro ⟨postal, address, hcandidates, found, hfound, resolutions, hresolutions, h⟩
    exact ⟨postal, address, found, resolutions, hcandidates, hfound, hresolutions,
      (Except.ok.inj h).symm⟩
  · rintro ⟨postal, address, found, resolutions, hcandidates, hfound, hresolutions, rfl⟩
    exact ⟨postal, address, hcandidates, found, hfound, resolutions, hresolutions, rfl⟩

/-! ## Answers that are decided -/

theorem truthy_some {text : JsString} (h : text ≠ []) : truthy (some text) = some text := by
  simp [truthy, h]

theorem selected_isSome : (resolvePublicCoordinate P runtime request).selected.isSome
    = ((selectedCandidateIndex (resolveCoordinate P runtime request)).bind fun index =>
      ((resolveCoordinate P runtime request).resolutions.flatMap (·.candidates))[index]?).isSome := by
  simp only [resolvePublicCoordinate, Option.isSome_map]

theorem selectedCandidateIndex_none {internal : CoordinateResolution}
    (h : internal.selectedResolutionIndex = none) : selectedCandidateIndex internal = none := by
  rw [selectedCandidateIndex, h]
  rfl

/-- A decided answer is made from a verdict of `'unique'` or `'partial'`. -/
theorem decided_made (h : Decided P runtime request) :
    Accepted P runtime request ∧ ∃ answer, resolveMatches P runtime request = .ok answer
      ∧ (answer.status = .unique ∨ answer.status = .partial_) := by
  have hselected : (resolvePublicCoordinate P runtime request).selected.isSome →
      (resolveCoordinate P runtime request).selectedResolutionIndex ≠ none := by
    intro hsome hnone
    simp [selected_isSome, selectedCandidateIndex_none hnone] at hsome
  have haccepted : Accepted P runtime request := by
    by_contra haccepted
    obtain ⟨-, -, hstatus, hindex⟩ := resolveCoordinate_of_not_accepted haccepted
    rcases h with h | h
    · exact hstatus h
    · exact hselected h hindex
  refine ⟨haccepted, ?_⟩
  rcases hmatches : resolveMatches P runtime request with error | answer
  · have herror := resolveCoordinate_error haccepted hmatches
    rw [herror] at hselected
    rcases h with h | h
    · change (resolveCoordinate P runtime request).status = .unique at h
      rw [herror] at h
      cases h
    · exact absurd rfl (hselected h)
  · have hanswer := resolveCoordinate_ok haccepted hmatches
    refine ⟨answer, rfl, ?_⟩
    rcases h with h | h
    · change (resolveCoordinate P runtime request).status = .unique at h
      exact Or.inl (hanswer ▸ h)
    · have hindex := hanswer ▸ hselected h
      obtain ⟨_, _, _, _, -, -, -, rfl⟩ := resolveMatches_ok.1 hmatches
      rw [coordinateAnswer_index] at hindex
      split_ifs at hindex with hdecided
      · simp only [Bool.and_eq_true, Bool.or_eq_true, decide_eq_true_eq] at hdecided
        exact hdecided.2
      · exact absurd rfl hindex

theorem resolveStart_ok {found : List PostalFeatureMatch} {start : ResolutionStart}
    {resolution : ResolutionResult}
    (h : resolveStart P runtime request found start = .ok resolution) :
    ∃ inner : ResolutionRequest, resolution = resolvePostalContext P inner := by
  unfold resolveStart at h
  obtain ⟨graph, -, h⟩ := bind_eq_ok.1 h
  exact ⟨_, (Except.ok.inj h).symm⟩

/-- The candidate that a partial resolution selects is found again. -/
theorem selectedCandidateIndex_partial {internal : CoordinateResolution}
    {inner : ResolutionRequest} (hindex : internal.selectedResolutionIndex = some 0)
    (hresolutions : internal.resolutions = [resolvePostalContext P inner])
    (h : (resolvePostalContext P inner).status = .partial_) :
    selectedCandidateIndex internal = some 0
      ∧ (internal.resolutions.flatMap (·.candidates))[0]?.isSome := by
  obtain ⟨candidate, rest, hcandidates, hselected⟩ := head_of_partial h
  have hmem : candidate ∈ (resolvePostalContext P inner).candidates :=
    hcandidates ▸ List.mem_cons_self
  have hid := pathId_ne_nil hmem
  constructor
  · simp [selectedCandidateIndex, hindex, hresolutions, hcandidates, hselected, truthy_some hid,
      List.findIdx?_cons]
  · simp [hresolutions, hcandidates]

/-- An answer from one resolution that is unique or partial is decided. -/
theorem decided_of_singleton (haccepted : Accepted P runtime request)
    {postal address : List IndexedFeature} {found : List PostalFeatureMatch}
    {start : ResolutionStart} {resolution : ResolutionResult}
    (hcandidates : spatialCandidates runtime request = .ok (postal, address))
    (hfound : matchPostalFeatures P request [] postal = .ok found)
    (hboundary : ∀ located ∈ found, located.relation ≠ .boundary)
    (hone : ((addressPointHits P request address).take
      runtime.maxAddressPointCandidates).length ≤ 1)
    (hstarts : resolutionStarts ((addressPointHits P request address).take
      runtime.maxAddressPointCandidates) = [start])
    (hresolution : resolveStart P runtime request found start = .ok resolution)
    (hstatus : resolution.status = .unique ∨ resolution.status = .partial_) :
    Decided P runtime request := by
  have hmatches : resolveMatches P runtime request = .ok (coordinateAnswer runtime request found
      (addressPointHits P request address) [resolution]) :=
    resolveMatches_ok.2 ⟨postal, address, found, [resolution], hcandidates, hfound,
      hstarts ▸ by simp [hresolution, pure, Except.pure, bind, Except.bind], rfl⟩
  have hanswer := resolveCoordinate_ok haccepted hmatches
  have hverdict : overallResolutionStatus [resolution] (found.map (postalMatch runtime))
      (((addressPointHits P request address).take runtime.maxAddressPointCandidates).map
        addressPointMatch) = resolution.status :=
    overall_singleton (by simpa using hone) (by simpa [postalMatch] using hboundary) hstatus
  obtain ⟨inner, rfl⟩ := resolveStart_ok hresolution
  rcases hstatus with hstatus | hstatus
  · refine Or.inl ?_
    change (resolveCoordinate P runtime request).status = .unique
    rw [hanswer, coordinateAnswer_status, hverdict, hstatus]
  · refine Or.inr ?_
    have hone : (coordinateAnswer runtime request found (addressPointHits P request address)
        [resolvePostalContext P inner]).selectedResolutionIndex = some 0 := by
      simp [coordinateAnswer_index, coordinateAnswer_status, -List.map_take, hverdict, hstatus]
    obtain ⟨hindex, hsome⟩ := selectedCandidateIndex_partial hone rfl hstatus
    rw [selected_isSome, hanswer, hindex, Option.bind_some]
    exact hsome

/-! ## One place -/

theorem onePlace_of_decided (hlimit : 1 ≤ runtime.maxAddressPointCandidates)
    (hclipped : ¬ ClippedToOne P runtime request) (h : Decided P runtime request) :
    OnePlace P runtime request := by
  obtain ⟨haccepted, answer, hmatches, hstatus⟩ := decided_made h
  have hanswer := resolveCoordinate_ok haccepted hmatches
  obtain ⟨postal, address, found, resolutions, hcandidates, hfound, hresolutions, rfl⟩ :=
    resolveMatches_ok.1 hmatches
  obtain ⟨hclear, hone, hboundary, hsome⟩ := overall_decided hstatus
  have hoff : ∀ located ∈ found, located.relation ≠ .boundary := by
    simpa [postalMatch] using hboundary
  refine ⟨fun postal' address' h' => ?_, fun postal' address' h' entry hentry heffective => ?_, ?_⟩
  · rw [hcandidates] at h'
    obtain ⟨-, rfl⟩ := Prod.mk.inj (Except.ok.inj h')
    by_contra hseveral
    have hmax : runtime.maxAddressPointCandidates = 1 := by
      rw [List.length_map, List.length_take] at hone
      omega
    rcases hhits : addressPointHits P request address with _ | ⟨hit, others⟩
    · rw [hhits] at hseveral
      exact hseveral (Nat.zero_le 1)
    rw [hhits, hmax, List.take_succ_cons, List.take_zero] at hresolutions
    obtain ⟨resolution, hresolution, rfl⟩ : ∃ resolution,
        resolveStart P runtime request found ⟨hit.feature.nodeId, false⟩ = .ok resolution
          ∧ resolutions = [resolution] := by
      rcases Checks.mapM_eq_ok.1 hresolutions with _ | ⟨hresolution, hnil⟩
      cases hnil
      exact ⟨_, hresolution, rfl⟩
    obtain ⟨hambiguous, hconflict, hinvalid⟩ := hclear _ List.mem_cons_self
    have hdecided : resolution.status = .unique ∨ resolution.status = .partial_ := by
      simp only [List.mem_singleton, exists_eq_left] at hsome
      rcases hr : resolution.status <;> simp_all
    refine hclipped ⟨haccepted, hmax, postal, address, found, hit, others, resolution, hcandidates,
      hfound, hoff, hhits, ?_, hresolution, hdecided⟩
    rintro rfl
    rw [hhits] at hseveral
    exact hseveral le_rfl
  · rw [hcandidates] at h'
    obtain ⟨rfl, -⟩ := Prod.mk.inj (Except.ok.inj h')
    intro hboundary
    have hlocated : locateFeature P request entry.feature = some ⟨entry.feature, .boundary⟩ := by
      simp [locateFeature, heffective, hboundary]
    refine hoff ⟨entry.feature, .boundary⟩ ?_ rfl
    rw [matchPostalFeatures_ok hfound]
    exact List.mem_filterMap.2 ⟨entry, hentry, hlocated⟩
  · rw [hanswer]
    exact hclear

theorem decided_of_clippedToOne (h : ClippedToOne P runtime request) :
    Decided P runtime request ∧ ¬ OnePlace P runtime request := by
  obtain ⟨haccepted, hmax, postal, address, found, hit, others, resolution, hcandidates, hfound,
    hoff, hhits, hothers, hresolution, hdecided⟩ := h
  refine ⟨decided_of_singleton haccepted hcandidates hfound hoff ?_ ?_ hresolution hdecided,
    fun hone => ?_⟩
  · rw [hmax, hhits]
    exact le_rfl
  · rw [hmax, hhits]
    rfl
  · have hlength := hone.addressPoints postal address hcandidates
    rw [hhits, List.length_cons] at hlength
    exact hothers (List.length_eq_zero_iff.1 (by omega))

/-- A decided answer is one place, but where the limit of one address point hides others. -/
theorem onePlace_iff_not_clipped {pack : RuntimePack} {options : RuntimeOptions}
    (h : PackRuntime.create P pack options = .ok runtime) :
    (Decided P runtime request → OnePlace P runtime request)
      ↔ ¬ ClippedToOne P runtime request := by
  constructor
  · intro hsound hclipped
    obtain ⟨hdecided, hone⟩ := decided_of_clippedToOne hclipped
    exact hone (hsound hdecided)
  · exact onePlace_of_decided (created h).limit

/-! ## Two address points at one place -/

/-- The platform for the packs below, with the series of the functions near zero. -/
def samplePlatform : Platform where
  dateParse text :=
    if text = js "2026-01-01T00:00:00Z" then some 1767225600000
    else if text = js "2026-06-01T00:00:00Z" then some 1780272000000
    else if text = NIGERIA_DIGITAL_POSTCODE_EFFECTIVE_FROM then some 1790809200000
    else none
  normalizeNfkc text := text
  toUpperCase text := text.map fun c => if 97 ≤ c.val ∧ c.val ≤ 122 then c - 32 else c
  localeCompare a b := if a = b then 0 else if a < b then -1 else 1
  PI := 314159265358979 / 10 ^ 14
  sin x := x - x ^ 3 / 6
  cos x := 1 - x ^ 2 / 2
  sqrt := Rat.sqrt
  asin x := x + x ^ 3 / 6

def sampleTime : TimeRange := ⟨js "2026-01-01T00:00:00Z", none⟩

def sampleDigest : JsString := js "sha256:" ++ List.replicate 64 48

def sampleSource : Source where
  sourceId := js "registry"
  sourceType := .official
  assignmentAuthority := .official_address_registry
  geometryAuthority := .official_address_registry_geometry
  sourceVersion := none
  sourceDate := none
  licenseId := some (js "open")
  digest := some sampleDigest

def sampleQuality : Quality := ⟨.authoritative, none, none, none⟩

def sampleRelease : ReleaseManifest where
  schemaVersion := POSTAL_CONTEXT_GRAPH_SCHEMA_VERSION
  repositoryId := js "repository"
  repositoryUrl := none
  countryCode := js "SG"
  releaseId := js "release-1"
  policyVersion := js "policy-1"
  releasedAt := js "2026-01-01T00:00:00Z"
  validTime := sampleTime
  manifestDigest := sampleDigest
  artifacts := []

def sampleNode (id : JsString) (kind : NodeKind) (featureKind : FeatureKind)
    (geometryType : GeometryType) : Node where
  id
  kind
  featureKind
  geometryType
  countryCode := some (js "SG")
  postalCode := none
  label := none
  visibility := some .public_

def sampleAssertion (id fromNodeId toNodeId : JsString) (relation : Relation) : Assertion where
  id
  fromNodeId
  toNodeId
  relation
  validTime := sampleTime
  knownTime := sampleTime
  source := sampleSource
  method := .explicit_assignment
  quality := sampleQuality
  purposes := none

def sampleAddressPoint (id nodeId : JsString) (coordinates : PointLocation.Position) :
    GeometryFeature where
  id
  nodeId
  role := .address_point
  publicationClass := .public_civic_address
  geometry := .point coordinates
  source := sampleSource
  validTime := sampleTime
  knownTime := sampleTime
  quality := sampleQuality
  matchRadiusMeters := some 10

def samplePack (nodes : List Node) (assertions : List Assertion)
    (features : List GeometryFeature) : RuntimePack where
  schemaVersion := POSTAL_CONTEXT_RUNTIME_PACK_SCHEMA_VERSION
  graph :=
    { schemaVersion := POSTAL_CONTEXT_GRAPH_SCHEMA_VERSION
      release := sampleRelease
      nodes
      assertions }
  geometry :=
    { schemaVersion := POSTAL_CONTEXT_GEOMETRY_SCHEMA_VERSION
      countryCode := js "SG"
      releaseId := js "release-1"
      features }

/-- Two address points at one place, each of a record of its own. -/
def twoPoints : RuntimePack := samplePack
  [sampleNode (js "point-1") .address_point .premise .point,
    sampleNode (js "point-2") .address_point .premise .point,
    sampleNode (js "record-1") .address_record .premise .none,
    sampleNode (js "record-2") .address_record .premise .none]
  [sampleAssertion (js "locates-1") (js "point-1") (js "record-1") .locates,
    sampleAssertion (js "locates-2") (js "point-2") (js "record-2") .locates]
  [sampleAddressPoint (js "feature-1") (js "point-1") (10, 0),
    sampleAddressPoint (js "feature-2") (js "point-2") (10, 0)]

def sampleRequest (longitude : ℚ) : CoordinateRequest where
  latitude := 0
  longitude
  purpose := .display
  validAt := js "2026-06-01T00:00:00Z"
  knownAt := none

theorem twoPoints_created :
    ∃ h : (PackRuntime.create samplePlatform twoPoints ⟨none, some 1⟩).toOption.isSome,
      (resolvePublicCoordinate samplePlatform (Option.get _ h) (sampleRequest 10)).status = .unique
        ∧ (spatialCandidates (Option.get _ h) (sampleRequest 10)).toOption.map (fun candidates =>
          (addressPointHits samplePlatform (sampleRequest 10) candidates.2).length) = some 2 := by
  decide +kernel

theorem isSome_twoPoints :
    (PackRuntime.create samplePlatform twoPoints ⟨none, some 1⟩).toOption.isSome := by
  obtain ⟨h, -⟩ := twoPoints_created
  exact h

def twoPointsRuntime : PackRuntime := Option.get _ isSome_twoPoints

theorem eq_ok_of_toOption_get {ε α : Type} {x : Except ε α} (h : x.toOption.isSome) :
    x = .ok (x.toOption.get h) := by
  rcases x with e | a
  · cases h
  · rfl

theorem create_twoPoints :
    PackRuntime.create samplePlatform twoPoints ⟨none, some 1⟩ = .ok twoPointsRuntime :=
  eq_ok_of_toOption_get isSome_twoPoints

theorem resolved_twoPoints :
    (resolvePublicCoordinate samplePlatform twoPointsRuntime (sampleRequest 10)).status = .unique
      ∧ (spatialCandidates twoPointsRuntime (sampleRequest 10)).toOption.map (fun candidates =>
        (addressPointHits samplePlatform (sampleRequest 10) candidates.2).length) = some 2 := by
  obtain ⟨_, h⟩ := twoPoints_created
  exact h

theorem decided_twoPoints : Decided samplePlatform twoPointsRuntime (sampleRequest 10) :=
  Or.inl resolved_twoPoints.1

theorem not_onePlace_twoPoints :
    ¬ OnePlace samplePlatform twoPointsRuntime (sampleRequest 10) := by
  intro hone
  have hhits := resolved_twoPoints.2
  rcases hcandidates : spatialCandidates twoPointsRuntime (sampleRequest 10) with
    error | ⟨postal, address⟩
  · rw [hcandidates] at hhits
    cases hhits
  · rw [hcandidates] at hhits
    have hlength := hone.addressPoints postal address hcandidates
    simp only [Except.toOption, Option.map_some, Option.some.injEq] at hhits
    omega

/-- The answer is `'unique'`, with two address points at the point of the request. -/
theorem twoPoints_not_unique :
    PackRuntime.create samplePlatform twoPoints ⟨none, some 1⟩ = .ok twoPointsRuntime
      ∧ (resolvePublicCoordinate samplePlatform twoPointsRuntime (sampleRequest 10)).status
        = .unique
      ∧ ¬ (Decided samplePlatform twoPointsRuntime (sampleRequest 10) →
        OnePlace samplePlatform twoPointsRuntime (sampleRequest 10)) :=
  ⟨create_twoPoints, resolved_twoPoints.1, fun h => not_onePlace_twoPoints (h decided_twoPoints)⟩

theorem clippedToOne_twoPoints :
    ClippedToOne samplePlatform twoPointsRuntime (sampleRequest 10) := by
  by_contra h
  exact not_onePlace_twoPoints ((onePlace_iff_not_clipped create_twoPoints).2 h decided_twoPoints)

end Agid.PostalContext
