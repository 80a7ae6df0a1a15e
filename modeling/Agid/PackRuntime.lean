import Agid.ContextResolver
import Agid.GeometryBuckets

/-!
# The runtime of a postal context pack

`PostalContextPackRuntime` of `src/lib/postalContextPackRuntime.ts`: what its constructor indexes,
the resolution of a coordinate and the postal areas that meet a box.  That a purpose is one of the
known ones is left to the type.
-/

namespace Agid.PostalContext

open PointLocation (Position Geometry SpatialRelation locatePointInGeometry)

structure RuntimeRelease where
  countryCode : JsString
  repositoryId : JsString
  releaseId : JsString
  manifestDigest : JsString
  policyVersion : JsString
  releasedAt : JsString
  validTime : TimeRange
deriving DecidableEq

def releaseSummary (graph : Graph) : RuntimeRelease where
  countryCode := graph.release.countryCode
  repositoryId := graph.release.repositoryId
  releaseId := graph.release.releaseId
  manifestDigest := graph.release.manifestDigest
  policyVersion := graph.release.policyVersion
  releasedAt := graph.release.releasedAt
  validTime := graph.release.validTime

structure PublicComponent where
  id : JsString
  kind : NodeKind
  featureKind : FeatureKind
  label : Option JsString
  postalCode : Option JsString
  geometryType : GeometryType
deriving DecidableEq

def publicComponent (node : Node) : PublicComponent where
  id := node.id
  kind := node.kind
  featureKind := node.featureKind
  label := node.label
  postalCode := node.postalCode
  geometryType := node.geometryType

def POSTAL_GEOMETRY_QUALITY : List QualityStatus := [.authoritative, .verified, .derived]

def ADDRESS_POINT_QUALITY : List QualityStatus := [.authoritative, .verified]

def ADDRESS_POINT_SOURCE_TYPES : List SourceType := [.official, .open_, .commercial, .synthetic]

def ADDRESS_POINT_GEOMETRY_AUTHORITIES : List GeometryAuthority :=
  [.official_address_registry_geometry, .official_municipal_civic_geometry,
    .official_cadastral_geometry, .official_mapping_geometry,
    .official_3d_city_model_geometry, .synthetic_fixture_geometry]

def eligiblePostalGeometry (feature : GeometryFeature) : Bool :=
  feature.role = .postal_area && feature.publicationClass = .public_context
    && feature.source.sourceType ≠ .virtual
    && feature.source.assignmentAuthority ≠ .virtual_assignment
    && feature.source.geometryAuthority ≠ .virtual_geometry
    && feature.quality.status ∈ POSTAL_GEOMETRY_QUALITY

def eligibleAddressPointGeometry (feature : GeometryFeature) : Bool :=
  feature.role = .address_point
    && (feature.publicationClass = .public_civic_address
      || feature.publicationClass = .public_facility)
    && feature.source.sourceType ∈ ADDRESS_POINT_SOURCE_TYPES
    && feature.source.assignmentAuthority ≠ .derived_spatial_assignment
    && feature.source.assignmentAuthority ≠ .virtual_assignment
    && feature.source.geometryAuthority ∈ ADDRESS_POINT_GEOMETRY_AUTHORITIES
    && feature.quality.status ∈ ADDRESS_POINT_QUALITY
    && geometryIsPoint feature.geometry && feature.matchRadiusMeters.isSome

/-! ## The constructor -/

structure RuntimeOptions where
  countryCode : Option JsString
  maxAddressPointCandidates : Option ℚ

structure PackRuntime where
  countryCode : JsString
  pack : RuntimePack
  maxAddressPointCandidates : ℕ
  postalGeometryIndex : GeometryBucketIndex
  addressPointIndex : GeometryBucketIndex

/-- `Number.isSafeInteger(value)` and the bounds. -/
def wholeBetween (first last : ℕ) (value : ℚ) : Bool :=
  value.den = 1 && first ≤ value && value ≤ last

/-- The constructor, where the error is the message of what it throws. -/
def PackRuntime.create (P : Platform) (pack : RuntimePack) (options : RuntimeOptions) :
    Except JsString PackRuntime :=
  let expectedCountryCode :=
    P.toUpperCase (options.countryCode.getD pack.graph.release.countryCode)
  let validation := validatePostalContextRuntimePack P pack (some expectedCountryCode)
  if !validation.valid then
    .error (js "invalid-postal-context-pack:" ++ (js ",").intercalate validation.errors)
  else if options.maxAddressPointCandidates.any (!wholeBetween 1 16 ·) then
    .error (js "invalid-max-address-point-candidates")
  else do
    let (postalGeometryIndex, budget) ← GeometryBucketIndex.build
      (pack.geometry.features.filter eligiblePostalGeometry) (1 / 10) ⟨0, 0, 0⟩
    let (addressPointIndex, _) ← GeometryBucketIndex.build
      (pack.geometry.features.filter eligibleAddressPointGeometry) (1 / 100) budget
    return {
      countryCode := expectedCountryCode
      pack
      maxAddressPointCandidates := (options.maxAddressPointCandidates.map (·.num.toNat)).getD 8
      postalGeometryIndex
      addressPointIndex }

namespace PackRuntime

variable (P : Platform) (runtime : PackRuntime)

def node (id : JsString) : Option Node := nodeById runtime.pack.graph.nodes id

def publicAssertions : List Assertion :=
  runtime.pack.graph.assertions.filter hasDefinitivePostalContextAssertionQuality

def outgoingAssertions (id : JsString) : List Assertion :=
  runtime.publicAssertions.filter (·.fromNodeId = id)

def incomingAssertions (id : JsString) : List Assertion :=
  runtime.publicAssertions.filter (·.toNodeId = id)

def excludedGeometryCount : ℤ :=
  let features := runtime.pack.geometry.features
  features.length - features.countP eligiblePostalGeometry
    - features.countP eligibleAddressPointGeometry
    - features.countP fun feature =>
      feature.role = .building_footprint || feature.role = .entrance_point

def release : RuntimeRelease := releaseSummary runtime.pack.graph

def releaseEffective (validAt : JsString) : Bool :=
  instantInRange P validAt runtime.pack.graph.release.validTime

end PackRuntime

/-! ## The graph of a resolution -/

/-- A postal area that a point is in, or on the boundary of. -/
structure PostalFeatureMatch where
  feature : GeometryFeature
  relation : SpatialRelation

structure ResolutionStart where
  startNodeId : JsString
  addTransientQuery : Bool

/-- What `graphForResolutionStart` has gathered, each set in the order of what was added. -/
structure Extraction where
  selectedNodes : List Node
  selectedAssertions : List Assertion
  examinedAssertionIds : List JsString
  roots : List JsString
  effectiveSpatialTargets : List JsString
  temporalAssertion : Option Assertion
  effectiveTemporalAssertion : Option Assertion
  traversalSeeds : List JsString

namespace Extraction

variable (runtime : PackRuntime)

/-- None where a limit is exceeded, as of the functions that follow. -/
def addNode (s : Extraction) (node : Node) : Option Extraction :=
  if s.selectedNodes.any (·.id = node.id) then some s
  else if s.selectedNodes.length ≥ QUERY_LIMITS.resolutionNodes then none
  else some { s with selectedNodes := s.selectedNodes ++ [node] }

/-- The selected node with an id, or that of the pack. -/
def nodeOf (s : Extraction) (id : JsString) : Option Node :=
  (s.selectedNodes.find? (·.id = id)).or (runtime.node id)

def addAssertion (s : Extraction) (assertion : Assertion) : Option Extraction :=
  if s.selectedAssertions.any (·.id = assertion.id) then some s
  else if s.selectedAssertions.length ≥ QUERY_LIMITS.resolutionAssertions then none
  else do
    let from_ ← s.nodeOf runtime assertion.fromNodeId
    let to_ ← s.nodeOf runtime assertion.toNodeId
    let s ← s.addNode from_
    let s ← s.addNode to_
    some { s with selectedAssertions := s.selectedAssertions ++ [assertion] }

def examine (s : Extraction) (assertion : Assertion) : Option Extraction :=
  if assertion.id ∈ s.examinedAssertionIds then some s
  else if s.examinedAssertionIds.length ≥ QUERY_LIMITS.resolutionAssertionsExamined then none
  else some { s with examinedAssertionIds := s.examinedAssertionIds ++ [assertion.id] }

end Extraction

section Extract

variable (P : Platform) (runtime : PackRuntime) (startNode : Node) (purpose : Purpose)
  (validAt knownAt : JsString)

def effectiveFor (assertion : Assertion) : Bool :=
  isPurposeEligible assertion purpose
    && isPostalContextAssertionEffectiveAt P assertion validAt knownAt

/-- The start, or the node of the pack. -/
def startOr (id : JsString) : Option Node :=
  if id = startNode.id then some startNode else runtime.node id

/-- What an assertion of the start is kept for: the first that is about it, and the first in
force. -/
def noteTemporal (s : Extraction) (assertion : Assertion) : Extraction :=
  { s with
    temporalAssertion := s.temporalAssertion.or (some assertion)
    effectiveTemporalAssertion :=
      if isPostalContextAssertionEffectiveAt P assertion validAt knownAt then
        s.effectiveTemporalAssertion.or (some assertion)
      else s.effectiveTemporalAssertion }

/-- The body of the loop over the assertions of the start. -/
def startStep (s : Extraction) (assertion : Assertion) : Option Extraction := do
  let s ← s.examine assertion
  if !isPurposeEligible assertion purpose then return s
  match startOr runtime startNode assertion.fromNodeId,
      startOr runtime startNode assertion.toNodeId with
  | some from_, some to_ =>
    let allowed := postalContextAssertionAllowedForUse assertion from_ to_
    if !allowed .address_record_root && !allowed .spatial_postal && !allowed .resolution_context
        && !allowed .navigation_entrance then return s
    let s := noteTemporal P validAt knownAt s assertion
    if assertion.fromNodeId ≠ startNode.id
        || !isPostalContextAssertionEffectiveAt P assertion validAt knownAt then return s
    if allowed .address_record_root then
      if to_.id ∉ s.roots && s.roots.length ≥ QUERY_LIMITS.resolutionAddressRoots then none
      else Extraction.addAssertion runtime { s with roots := addTo s.roots to_.id } assertion
    else if allowed .spatial_postal then
      Extraction.addAssertion runtime
        { s with effectiveSpatialTargets := addTo s.effectiveSpatialTargets to_.id } assertion
    else return s
  | _, _ => return s

/-- An assertion about the start, where none of the selected ones is. -/
def keepTemporal (s : Extraction) : Option Extraction :=
  if s.selectedAssertions.any (touches startNode.id) then some s
  else match s.effectiveTemporalAssertion.or s.temporalAssertion with
    | none => some s
    | some assertion => s.addAssertion runtime assertion

def anchorIds (s : Extraction) : List JsString :=
  if startNode.kind = .address_record then [startNode.id]
  else if s.roots ≠ [] then s.roots
  else [startNode.id]

/-- The body of the loop over the assertions from an anchor. -/
def anchorStep (anchor : Node) (s : Extraction) (assertion : Assertion) : Option Extraction := do
  let s ← s.examine assertion
  if !effectiveFor P purpose validAt knownAt assertion then return s
  match runtime.node assertion.toNodeId with
  | none => return s
  | some target =>
    if !postalContextAssertionAllowedForUse assertion anchor target .postal_assignment
        && !postalContextAssertionAllowedForUse assertion anchor target .building_identity then
      return s
    let s ← s.addAssertion runtime assertion
    return { s with traversalSeeds := addTo s.traversalSeeds assertion.toNodeId }

def anchorLoop (s : Extraction) (anchorId : JsString) : Option Extraction :=
  match s.nodeOf runtime anchorId with
  | none => some s
  | some anchor =>
    (runtime.outgoingAssertions anchorId).foldlM
      (anchorStep P runtime purpose validAt knownAt anchor) s

/-- The assertion that a point is in a postal area. -/
def pipAssertion (feature : GeometryFeature) (index : ℕ) : Assertion where
  id := js "runtime:pip:" ++ js (toString index) ++ js ":" ++ startNode.id ++ js ":"
    ++ feature.nodeId
  fromNodeId := startNode.id
  toNodeId := feature.nodeId
  relation := .postal_contains
  validTime := feature.validTime
  knownTime := feature.knownTime
  source := feature.source
  method := .geometry_contains
  quality := feature.quality
  purposes := some [purpose]

def pipStep (s : Extraction) (located : PostalFeatureMatch × ℕ) : Option Extraction :=
  let feature := located.1.feature
  if feature.nodeId ∈ s.effectiveSpatialTargets then some s
  else match runtime.node feature.nodeId with
    | none => some s
    | some target => do
      let assertion := pipAssertion startNode purpose feature located.2
      if !postalContextAssertionAllowedForUse assertion startNode target .spatial_postal then
        return s
      let s ← s.addAssertion runtime assertion
      return { s with traversalSeeds := addTo s.traversalSeeds feature.nodeId }

/-- The body of the loop over the assertions from a node that is traversed, with the queue. -/
def traverseStep (fromNodeId : JsString) (s : Extraction × List JsString) (assertion : Assertion) :
    Option (Extraction × List JsString) := do
  let examined ← s.1.examine assertion
  if !effectiveFor P purpose validAt knownAt assertion then return (examined, s.2)
  match runtime.node fromNodeId, runtime.node assertion.toNodeId with
  | some from_, some target =>
    if !postalContextAssertionAllowedForUse assertion from_ target .resolution_context then
      return (examined, s.2)
    let added ← examined.addAssertion runtime assertion
    return (added,
      if examined.selectedNodes.any (·.id = target.id) then s.2 else s.2 ++ [target.id])
  | _, _ => return (examined, s.2)

/-- The traversal for a number of rounds, each from the first node of the queue. -/
def traverse : ℕ → Extraction × List JsString → Option Extraction
  | 0, s => some s.1
  | rounds + 1, (s, queue) =>
    match queue with
    | [] => some s
    | fromNodeId :: queue => do
      let s ← (runtime.outgoingAssertions fromNodeId).foldlM
        (traverseStep P runtime purpose validAt knownAt fromNodeId) (s, queue)
      traverse rounds s

/-- The body of the loop over the assertions to a building. -/
def entranceStep (s : Extraction) (assertion : Assertion) : Option Extraction := do
  let s ← s.examine assertion
  if !effectiveFor P purpose validAt knownAt assertion then return s
  match runtime.node assertion.fromNodeId, runtime.node assertion.toNodeId with
  | some entrance, some building =>
    if !postalContextAssertionAllowedForUse assertion entrance building .navigation_entrance then
      return s
    s.addAssertion runtime assertion
  | _, _ => return s

/-- A node enters the queue of the traversal when it is selected, so as many rounds are enough as
nodes may be selected. -/
def extract (postalFeatureMatches : List PostalFeatureMatch) : Option Extraction := do
  let start : Extraction := ⟨[startNode], [], [], [], [], none, none, []⟩
  let s ← (runtime.outgoingAssertions startNode.id
      ++ runtime.incomingAssertions startNode.id).foldlM
    (startStep P runtime startNode purpose validAt knownAt) start
  let s ← keepTemporal runtime startNode s
  let anchors := anchorIds startNode s
  let s := { s with
    traversalSeeds := unique (startNode.id :: anchors ++ s.effectiveSpatialTargets) }
  let s ← anchors.foldlM (anchorLoop P runtime purpose validAt knownAt) s
  let s ← postalFeatureMatches.zipIdx.foldlM (pipStep runtime startNode purpose) s
  let s ← traverse P runtime purpose validAt knownAt
    (s.traversalSeeds.length + QUERY_LIMITS.resolutionNodes) (s, s.traversalSeeds)
  if purpose = .navigation then
    (s.selectedNodes.filter (·.kind = .building)).foldlM (fun s building =>
      (runtime.incomingAssertions building.id).foldlM
        (entranceStep P runtime purpose validAt knownAt) s) s
  else return s

end Extract

def transientQueryNode (runtime : PackRuntime) (id : JsString) : Node where
  id
  kind := .query_point
  featureKind := .query_point
  geometryType := .point
  countryCode := some runtime.countryCode
  postalCode := none
  label := none
  visibility := some .public_

def graphForResolutionStart (P : Platform) (runtime : PackRuntime) (start : ResolutionStart)
    (purpose : Purpose) (validAt knownAt : JsString)
    (postalFeatureMatches : List PostalFeatureMatch) : Except JsString Graph :=
  let startNode := if start.addTransientQuery then
    some (transientQueryNode runtime start.startNodeId) else runtime.node start.startNodeId
  match startNode with
  | none => .error (js "resolution-start-node-not-found")
  | some startNode =>
    match extract P runtime startNode purpose validAt knownAt postalFeatureMatches with
    | none => .error (js "resolution-subgraph-limit-exceeded")
    | some s => .ok { runtime.pack.graph with
        nodes := s.selectedNodes
        assertions := s.selectedAssertions }

/-! ## Resolving a coordinate -/

structure SpatialPostalMatch where
  geometryFeatureId : JsString
  nodeId : JsString
  postalCode : Option JsString
  relation : SpatialRelation
deriving DecidableEq

structure AddressPointMatch where
  geometryFeatureId : JsString
  nodeId : JsString
  distanceMeters : ℚ
  matchRadiusMeters : ℚ
deriving DecidableEq

structure CoordinateResolution where
  status : ResolutionStatus
  purpose : Purpose
  release : RuntimeRelease
  selectedResolutionIndex : Option ℕ
  postalMatches : List SpatialPostalMatch
  addressPointMatches : List AddressPointMatch
  resolutions : List ResolutionResult
  errors : List JsString
  warnings : List JsString

structure CoordinateRequest where
  latitude : ℚ
  longitude : ℚ
  purpose : Purpose
  validAt : JsString
  knownAt : Option JsString

def CoordinateRequest.known (request : CoordinateRequest) : JsString :=
  request.knownAt.getD request.validAt

def CoordinateRequest.point (request : CoordinateRequest) : Position :=
  (request.longitude, request.latitude)

def validCoordinate (latitude longitude : ℚ) : Bool :=
  -90 ≤ latitude && latitude ≤ 90 && -180 ≤ longitude && longitude ≤ 180

def overallResolutionStatus (resolutions : List ResolutionResult)
    (postalMatches : List SpatialPostalMatch) (addressPointMatches : List AddressPointMatch) :
    ResolutionStatus :=
  let some_ (status : ResolutionStatus) : Bool := resolutions.any (·.status = status)
  if some_ .invalid then .invalid
  else if some_ .conflict then .conflict
  else if addressPointMatches.length > 1 || postalMatches.any (·.relation = .boundary)
      || some_ .ambiguous then .ambiguous
  else if resolutions.all (·.status = .no_match) then .no_match
  else if some_ .partial_ then .partial_
  else .unique

/-- An address point that the query point is within the match radius of. -/
structure AddressPointHit where
  feature : GeometryFeature
  matchRadiusMeters : ℚ
  distanceMeters : ℚ

section Resolve

variable (P : Platform) (runtime : PackRuntime) (request : CoordinateRequest)

/-- The loop over the candidates for postal areas. -/
def matchPostalFeatures (found : List PostalFeatureMatch) :
    List IndexedFeature → Except JsString (List PostalFeatureMatch)
  | [] => .ok found
  | { feature, .. } :: entries =>
    if !isPostalContextGeometryEffectiveAt P feature request.validAt request.known then
      matchPostalFeatures found entries
    else
      let relation := locatePointInGeometry request.point feature.geometry
      if relation = .outside then matchPostalFeatures found entries
      else if found.length ≥ QUERY_LIMITS.postalMatches then
        .error (js "spatial-postal-match-limit-exceeded")
      else matchPostalFeatures (found ++ [⟨feature, relation⟩]) entries

/-- The hit on an eligible and effective address point. -/
def hitAddressPoint (feature : GeometryFeature) : Option AddressPointHit :=
  if eligibleAddressPointGeometry feature
      && isPostalContextGeometryEffectiveAt P feature request.validAt request.known then
    match feature.geometry, feature.matchRadiusMeters with
    | .point coordinates, some matchRadiusMeters =>
      let distanceMeters := haversineDistanceMeters P request.point coordinates
      if distanceMeters ≤ matchRadiusMeters then
        some ⟨feature, matchRadiusMeters, distanceMeters⟩
      else none
    | _, _ => none
  else none

def HitLe (left right : AddressPointHit) : Prop :=
  left.distanceMeters < right.distanceMeters
    ∨ (left.distanceMeters = right.distanceMeters
      ∧ P.localeCompare left.feature.id right.feature.id ≤ 0)

instance : DecidableRel (HitLe P) := fun _ _ => inferInstanceAs (Decidable (_ ∨ _))

/-- The address points that the query point matches, before they are clipped. -/
def addressPointHits (entries : List IndexedFeature) : List AddressPointHit :=
  (entries.filterMap fun entry => hitAddressPoint P request entry.feature).insertionSort (HitLe P)

def TRANSIENT_QUERY_ID := js "runtime:query:transient-public"

def resolutionStarts (clippedAddressPoints : List AddressPointHit) : List ResolutionStart :=
  if clippedAddressPoints ≠ [] then
    clippedAddressPoints.map fun hit => ⟨hit.feature.nodeId, false⟩
  else [⟨TRANSIENT_QUERY_ID, true⟩]

/-- The candidates of both indices for the point, or the limit they exceed. -/
def spatialCandidates : Except JsString (List IndexedFeature × List IndexedFeature) :=
  match runtime.postalGeometryIndex.queryPoint request.point,
      runtime.addressPointIndex.queryPoint request.point with
  | some postalCandidates, some addressCandidates =>
    if ((postalCandidates ++ addressCandidates).map (·.positionCount)).sum
        > QUERY_LIMITS.spatialCandidatePositions then
      .error (js "spatial-position-limit-exceeded")
    else .ok (postalCandidates, addressCandidates)
  | _, _ => .error (js "spatial-candidate-limit-exceeded")

def postalMatch (located : PostalFeatureMatch) : SpatialPostalMatch where
  geometryFeatureId := located.feature.id
  nodeId := located.feature.nodeId
  postalCode := (runtime.node located.feature.nodeId).bind (·.postalCode)
  relation := located.relation

def addressPointMatch (hit : AddressPointHit) : AddressPointMatch where
  geometryFeatureId := hit.feature.id
  nodeId := hit.feature.nodeId
  distanceMeters := hit.distanceMeters
  matchRadiusMeters := hit.matchRadiusMeters

/-- The resolution from a start, or the error of its graph. -/
def resolveStart (postalFeatureMatches : List PostalFeatureMatch) (start : ResolutionStart) :
    Except JsString ResolutionResult := do
  let graph ← graphForResolutionStart P runtime start request.purpose request.validAt
    request.known postalFeatureMatches
  return resolvePostalContext P
    { graph
      startNodeId := start.startNodeId
      purpose := request.purpose
      validAt := request.validAt
      knownAt := some request.known
      visibility := some .public_ }

/-- A resolution without matches. -/
def baseResolution (status : ResolutionStatus) (errors warnings : List JsString) :
    CoordinateResolution where
  status
  purpose := request.purpose
  release := runtime.release
  selectedResolutionIndex := none
  postalMatches := []
  addressPointMatches := []
  resolutions := []
  errors
  warnings

/-- The answer from the matches and what they resolve to. -/
def coordinateAnswer (postalFeatureMatches : List PostalFeatureMatch)
    (hits : List AddressPointHit) (resolutions : List ResolutionResult) :
    CoordinateResolution :=
  let clippedAddressPoints := hits.take runtime.maxAddressPointCandidates
  let postalMatches := postalFeatureMatches.map (postalMatch runtime)
  let addressPointMatches := clippedAddressPoints.map addressPointMatch
  let status := overallResolutionStatus resolutions postalMatches addressPointMatches
  { baseResolution runtime request status (unique (resolutions.flatMap (·.errors)))
      (unique (report (hits.length > runtime.maxAddressPointCandidates)
          (js "address-point-candidates-truncated")
        ++ report (addressPointMatches = [] && postalMatches ≠ [])
          (js "postal-area-only-no-source-address-point")
        ++ report (postalMatches.any (·.relation = .boundary))
          (js "postal-boundary-requires-disambiguation")
        ++ report (runtime.excludedGeometryCount ≠ 0)
          (js "lower-quality-or-non-address-geometry-not-promoted"))) with
    selectedResolutionIndex :=
      if resolutions.length = 1 && (status = .unique || status = .partial_) then some 0 else none
    postalMatches
    addressPointMatches
    resolutions }

/-- The part of `resolveCoordinate` from the two indices on. -/
def resolveMatches : Except JsString CoordinateResolution := do
  let (postalCandidates, addressCandidates) ← spatialCandidates runtime request
  let postalFeatureMatches ← matchPostalFeatures P request [] postalCandidates
  let hits := addressPointHits P request addressCandidates
  let resolutions ← (resolutionStarts (hits.take runtime.maxAddressPointCandidates)).mapM
    (resolveStart P runtime request postalFeatureMatches)
  return coordinateAnswer runtime request postalFeatureMatches hits resolutions

def resolveCoordinate : CoordinateResolution :=
  let base := baseResolution runtime request
  if !validCoordinate request.latitude request.longitude then
    base .invalid [js "invalid-coordinate"] []
  else if instantValue P request.validAt = none || instantValue P request.known = none then
    base .invalid [js "invalid-resolution-time"] []
  else if !runtime.releaseEffective P request.validAt then
    base .no_match [] [js "release-not-effective-at-request-time"]
  else match resolveMatches P runtime request with
    | .error error => base .invalid [error] []
    | .ok resolution => resolution

/-! ## The public answer -/

structure PublicResolutionComponent where
  kind : NodeKind
  featureKind : FeatureKind
  label : Option JsString
  postalCode : Option JsString
  assertionId : Option JsString
  relation : Option Relation
  method : Option Method
  evidenceTier : Option EvidenceTier
deriving DecidableEq

structure PublicResolutionCandidate where
  resolvedLevel : ResolutionLevel
  capabilities : Capabilities
  components : List PublicResolutionComponent
  evidenceTiers : List EvidenceTier
  weakestEvidenceTier : Option EvidenceTier
  ambiguities : List Ambiguity
deriving DecidableEq

structure PublicCoordinateResolution where
  status : ResolutionStatus
  purpose : Purpose
  countryCode : JsString
  release : RuntimeRelease
  resolvedLevel : ResolutionLevel
  capabilities : Capabilities
  selected : Option PublicResolutionCandidate
  alternatives : List PublicResolutionCandidate
  postalEvidence : List (Option JsString × Option JsString)
  addressPointMatched : Bool
  addressPointCandidateCount : ℕ
  ambiguities : List Ambiguity
  errors : List JsString
  warnings : List JsString

def publicResolutionComponent (component : ResolutionComponent) : PublicResolutionComponent where
  kind := component.kind
  featureKind := component.featureKind
  label := component.label
  postalCode := component.postalCode
  assertionId := (truthy component.assertionId).filter (!startsWith · (js "runtime:"))
  relation := component.relation
  method := component.method
  evidenceTier := component.evidenceTier

def publicCandidate (candidate : ResolutionCandidate) : PublicResolutionCandidate where
  resolvedLevel := candidate.resolvedLevel
  capabilities := candidate.capabilities
  components := candidate.components.map publicResolutionComponent
  evidenceTiers := candidate.evidenceTiers
  weakestEvidenceTier := candidate.weakestEvidenceTier
  ambiguities := candidate.ambiguities

def EMPTY_CAPABILITIES : Capabilities :=
  ⟨false, false, false, false, false, false, false, false, false, false, false, true⟩

def commonCapabilities (candidates : List ResolutionCandidate) : Capabilities :=
  if candidates = [] then EMPTY_CAPABILITIES
  else
    let all (key : Capabilities → Bool) : Bool := candidates.all (key ·.capabilities)
    { country := all (·.country)
      administrative := all (·.administrative)
      locality := all (·.locality)
      postalArea := all (·.postalArea)
      streetOrBlock := all (·.streetOrBlock)
      premise := all (·.premise)
      building := all (·.building)
      entrance := all (·.entrance)
      unit := all (·.unit)
      organization := all (·.organization)
      deliveryEndpoint := all (·.deliveryEndpoint)
      publicSafe := all (·.publicSafe) }

def commonResolutionLevel (candidates : List ResolutionCandidate) : ResolutionLevel :=
  candidates.foldl (fun lowest candidate =>
    if postalContextResolutionLevelRank candidate.resolvedLevel
        < postalContextResolutionLevelRank lowest then candidate.resolvedLevel else lowest)
    ((candidates.head?.map (·.resolvedLevel)).getD .none)

/-- The position of the selected candidate in the resolution that is selected, which is then the
only one. -/
def selectedCandidateIndex (internal : CoordinateResolution) : Option ℕ := do
  let index ← internal.selectedResolutionIndex
  let primary ← internal.resolutions[index]?
  match truthy primary.selectedCandidateId with
  | some id => primary.candidates.findIdx? (·.pathId = id)
  | none => if primary.candidates.length = 1 then some 0 else none

def relationText : SpatialRelation → JsString
  | .inside => js "inside"
  | .boundary => js "boundary"
  | .outside => js "outside"

/-- The postal codes and relations of the matches, which a NUL separates. -/
def postalEvidence (postalMatches : List SpatialPostalMatch) :
    List (Option JsString × Option JsString) :=
  (unique (postalMatches.map fun found =>
    found.postalCode.getD [] ++ [0] ++ relationText found.relation)).map fun value =>
      (truthy (value.splitOn 0)[0]?, (value.splitOn 0)[1]?)

def resolvePublicCoordinate : PublicCoordinateResolution :=
  let internal := resolveCoordinate P runtime request
  let allCandidates := internal.resolutions.flatMap (·.candidates)
  let selected := selectedCandidateIndex internal
  let selectedCandidate := selected.bind fun index => allCandidates[index]?
  let others := match selected with
    | none => allCandidates
    | some index => allCandidates.eraseIdx index
  { status := internal.status
    purpose := internal.purpose
    countryCode := runtime.countryCode
    release := internal.release
    resolvedLevel := (selectedCandidate.map (·.resolvedLevel)).getD
      (commonResolutionLevel allCandidates)
    capabilities := (selectedCandidate.map (·.capabilities)).getD (commonCapabilities allCandidates)
    selected := selectedCandidate.map publicCandidate
    alternatives := (others.take 8).map publicCandidate
    postalEvidence := postalEvidence internal.postalMatches
    addressPointMatched := internal.addressPointMatches ≠ []
    addressPointCandidateCount := internal.addressPointMatches.length
    ambiguities := unique (internal.resolutions.flatMap (·.ambiguities))
    errors := internal.errors
    warnings := internal.warnings }

end Resolve

/-! ## Postal areas that meet a box -/

structure PostalGeometryResult where
  id : JsString
  node : Option PublicComponent
  geometry : Geometry
  source : Source
  quality : Quality
  validTime : TimeRange

inductive IntersectionStatus where
  | unique
  | no_match
  | invalid
deriving DecidableEq

structure BboxIntersectionResult where
  status : IntersectionStatus
  countryCode : JsString
  release : RuntimeRelease
  bbox : Option Bbox
  matches_ : List PostalGeometryResult
  truncated : Bool
  errors : List JsString
  warnings : List JsString

section Intersect

variable (P : Platform) (runtime : PackRuntime) (bbox : Bbox) (validAt knownAt : JsString)

/-- The node of a feature is one of the pack. -/
def postalGeometryResult (feature : GeometryFeature) : PostalGeometryResult where
  id := feature.id
  node := (runtime.node feature.nodeId).map publicComponent
  geometry := feature.geometry
  source := feature.source
  quality := feature.quality
  validTime := feature.validTime

/-- The loop over the sorted candidates, with the positions of the response: the matches and whether
there are more of them than the limit. -/
def intersectLoop (limit : ℕ) (found : List GeometryFeature) (responsePositions : ℕ) :
    List IndexedFeature → Except JsString (List GeometryFeature × Bool)
  | [] => .ok (found, false)
  | { feature, positionCount, .. } :: entries =>
    if !isPostalContextGeometryEffectiveAt P feature validAt knownAt
        || !postalContextGeometryIntersectsBbox feature.geometry bbox then
      intersectLoop limit found responsePositions entries
    else if found.length ≥ limit then .ok (found, true)
    else if responsePositions + positionCount > QUERY_LIMITS.geometryResponsePositions then
      .error (js "geometry-response-limit-exceeded")
    else intersectLoop limit (found ++ [feature]) (responsePositions + positionCount) entries

def IdLe (left right : IndexedFeature) : Prop :=
  P.localeCompare left.feature.id right.feature.id ≤ 0

instance : DecidableRel (IdLe P) := fun _ _ => inferInstanceAs (Decidable (_ ≤ _))

/-- The part of `intersectsPostalBbox` from the index on. -/
def intersectIndexed (limit : ℕ) : Except JsString (List GeometryFeature × Bool) :=
  match runtime.postalGeometryIndex.queryBbox bbox with
  | none => .error (js "spatial-candidate-limit-exceeded")
  | some entries =>
    if (entries.map (·.positionCount)).sum > QUERY_LIMITS.spatialCandidatePositions then
      .error (js "spatial-position-limit-exceeded")
    else intersectLoop P bbox validAt knownAt limit [] 0 (entries.insertionSort (IdLe P))

/-- The box spans more than the scope of a query. -/
def exceedsScope (bbox : Bbox) : Bool :=
  let width := bbox.maximumLongitude - bbox.minimumLongitude
  let height := bbox.maximumLatitude - bbox.minimumLatitude
  width > 5 || height > 5 || width * height > 4

def intersectsPostalBbox (limit : ℚ) : BboxIntersectionResult :=
  let base (status : IntersectionStatus) (bbox : Option Bbox) (errors warnings : List JsString) :
      BboxIntersectionResult :=
    { status
      countryCode := runtime.countryCode
      release := runtime.release
      bbox
      matches_ := []
      truncated := false
      errors
      warnings }
  if !validPostalContextBbox bbox then base .invalid none [js "invalid-bbox"] []
  else if exceedsScope bbox then base .invalid none [js "bbox-scope-limit-exceeded"] []
  else if !wholeBetween 1 QUERY_LIMITS.geometryResponseFeatures limit then
    base .invalid none [js "invalid-limit"] []
  else if instantValue P validAt = none || instantValue P knownAt = none then
    base .invalid none [js "invalid-resolution-time"] []
  else if !runtime.releaseEffective P validAt then
    base .no_match (some bbox) [] [js "release-not-effective-at-request-time"]
  else match intersectIndexed P runtime bbox validAt knownAt limit.num.toNat with
    | .error error => base .invalid (some bbox) [error] []
    | .ok (found, truncated) =>
      { base (if found.isEmpty then .no_match else .unique) (some bbox) []
          (report truncated (js "postal-intersection-results-truncated")) with
        matches_ := found.map (postalGeometryResult runtime)
        truncated }

end Intersect

/-! ## What is asked of the answers -/

section Asked

variable (P : Platform) (runtime : PackRuntime) (request : CoordinateRequest)

/-- The request is one whose matches are looked for. -/
structure Accepted : Prop where
  coordinate : validCoordinate request.latitude request.longitude
  validAt : instantValue P request.validAt ≠ none
  knownAt : instantValue P request.known ≠ none
  release : runtime.releaseEffective P request.validAt

/-- The answer is `'unique'`, or has a selected candidate. -/
def Decided : Prop :=
  (resolvePublicCoordinate P runtime request).status = .unique
    ∨ (resolvePublicCoordinate P runtime request).selected.isSome

/-- The point matches one address point of those that the index returned, if any, it is on the
boundary of no postal area, and nothing that it resolves to leaves a doubt. -/
structure OnePlace : Prop where
  addressPoints : ∀ postal address, spatialCandidates runtime request = .ok (postal, address) →
    (addressPointHits P request address).length ≤ 1
  boundaries : ∀ postal address, spatialCandidates runtime request = .ok (postal, address) →
    ∀ entry ∈ postal,
      isPostalContextGeometryEffectiveAt P entry.feature request.validAt request.known →
      locatePointInGeometry request.point entry.feature.geometry ≠ .boundary
  resolutions : ∀ resolution ∈ (resolveCoordinate P runtime request).resolutions,
    resolution.status ≠ .ambiguous ∧ resolution.status ≠ .conflict ∧ resolution.status ≠ .invalid

/-- Of several address points the limit leaves one, and from that one alone the resolution is unique
or partial. -/
def ClippedToOne : Prop :=
  Accepted P runtime request ∧ runtime.maxAddressPointCandidates = 1
    ∧ ∃ postal address found hit others resolution,
      spatialCandidates runtime request = .ok (postal, address)
        ∧ matchPostalFeatures P request [] postal = .ok found
        ∧ (∀ located ∈ found, located.relation ≠ .boundary)
        ∧ addressPointHits P request address = hit :: others ∧ others ≠ []
        ∧ resolveStart P runtime request found ⟨hit.feature.nodeId, false⟩ = .ok resolution
        ∧ (resolution.status = .unique ∨ resolution.status = .partial_)

end Asked

/-! ## Scans over all the features -/

/-- `localeCompare` compares consistently. -/
structure LawfulCompare (P : Platform) : Prop where
  total : ∀ a b, P.localeCompare a b ≤ 0 ∨ P.localeCompare b a ≤ 0
  trans : ∀ a b c, P.localeCompare a b ≤ 0 → P.localeCompare b c ≤ 0 → P.localeCompare a c ≤ 0

def LIMIT_ERRORS : List JsString :=
  [js "spatial-candidate-limit-exceeded", js "spatial-position-limit-exceeded",
    js "spatial-postal-match-limit-exceeded", js "resolution-subgraph-limit-exceeded"]

section Scans

variable (P : Platform) (runtime : PackRuntime) (request : CoordinateRequest)

/-- A limit error is reported. -/
def Limited : Prop :=
  ∃ error ∈ LIMIT_ERRORS,
    resolveCoordinate P runtime request = baseResolution runtime request .invalid [error] []

/-- The match with a postal area that is in force. -/
def locateFeature (feature : GeometryFeature) : Option PostalFeatureMatch :=
  if isPostalContextGeometryEffectiveAt P feature request.validAt request.known
      && locatePointInGeometry request.point feature.geometry ≠ .outside then
    some ⟨feature, locatePointInGeometry request.point feature.geometry⟩
  else none

/-- The postal areas in force that the point is in, or on the boundary of. -/
def scanPoint : List PostalFeatureMatch :=
  if runtime.releaseEffective P request.validAt then
    (runtime.pack.geometry.features.filter eligiblePostalGeometry).filterMap
      (locateFeature P request)
  else []

/-- A coordinate and times that an answer is looked for at. -/
structure WellFormed : Prop where
  coordinate : validCoordinate request.latitude request.longitude
  validAt : instantValue P request.validAt ≠ none
  knownAt : instantValue P request.known ≠ none

/-- The query by a point finds what the scan does. -/
def PointQueryScans : Prop :=
  WellFormed P request → Limited P runtime request
    ∨ (resolveCoordinate P runtime request).postalMatches.Perm
      ((scanPoint P runtime request).map (postalMatch runtime))

/-- The query by a point finds the address points that the scan does. -/
def AddressQueryScans : Prop :=
  Accepted P runtime request → Limited P runtime request
    ∨ ∃ postal address, spatialCandidates runtime request = .ok (postal, address)
      ∧ (addressPointHits P request address).Perm
        (runtime.pack.geometry.features.filterMap (hitAddressPoint P request))

/-- The postal areas in force that meet a box. -/
def scanBbox (bbox : Bbox) (validAt knownAt : JsString) : List GeometryFeature :=
  if runtime.releaseEffective P validAt then
    (runtime.pack.geometry.features.filter eligiblePostalGeometry).filter fun feature =>
      isPostalContextGeometryEffectiveAt P feature validAt knownAt
        && postalContextGeometryIntersectsBbox feature.geometry bbox
  else []

/-- The query by a box that is accepted finds what the scan does, up to the limit and in the order
of the ids, or reports an error. -/
def BboxQueryScans (bbox : Bbox) (validAt knownAt : JsString) (limit : ℚ) : Prop :=
  (intersectsPostalBbox P runtime bbox validAt knownAt limit).errors = [] →
    (∃ sorted : List GeometryFeature, sorted.Perm (scanBbox P runtime bbox validAt knownAt)
        ∧ sorted.Pairwise (fun left right => P.localeCompare left.id right.id ≤ 0)
        ∧ (intersectsPostalBbox P runtime bbox validAt knownAt limit).matches_
          = (sorted.take limit.num.toNat).map (postalGeometryResult runtime))
      ∧ ((intersectsPostalBbox P runtime bbox validAt knownAt limit).truncated
        ↔ limit < (scanBbox P runtime bbox validAt knownAt).length)

/-- A border of two cells is between two coordinates, of which the second may be on it. -/
def BorderBetween (origin cellSize first second : ℚ) : Prop :=
  ∃ k : ℤ, first < k * cellSize - origin ∧ k * cellSize - origin ≤ second

/-- A border of two cells is between a point and a box. -/
def AcrossBorder (cellSize : ℚ) (point : Position) (bounds : Bbox) : Prop :=
  BorderBetween 180 cellSize point.1 bounds.minimumLongitude
    ∨ BorderBetween 180 cellSize bounds.maximumLongitude point.1
    ∨ BorderBetween 90 cellSize point.2 bounds.minimumLatitude
    ∨ BorderBetween 90 cellSize bounds.maximumLatitude point.2

/-- The bounds of a geometry have few enough cells to be in the buckets, and a border of two cells
is between them and the point. -/
def Beyond (cellSize : ℚ) (point : Position) (geometry : Geometry) : Prop :=
  ∃ bounds, postalContextGeometryBounds geometry = some bounds
    ∧ (cellsForBbox cellSize (some bounds) INDEX_LIMITS.cellsPerFeature).isSome
    ∧ AcrossBorder cellSize point bounds

end Scans

end Agid.PostalContext
