import Agid.PostalContext
import Agid.RingTopology

/-!
# Validation of postal context packs

`validatePostalContextGraph` of `src/lib/postalContextGraph.ts`,
`validatePostalContextGeometryCollection` of `src/lib/postalContextSpatial.ts`,
`validatePostalContextGeometryTopology` of `src/lib/postalContextTopology.ts` and
`validatePostalContextRuntimePack` of `src/lib/postalContextPackRuntime.ts`.  Each lists the errors
of its input; that a field has a value of its enumeration, and that a number is finite, is left to
the types.
-/

namespace Agid.PostalContext

open PointLocation (Position LinearRing Polygon Geometry)
open Agid.RingTopology (TOPOLOGY_EPSILON ringSelfIntersects ringsConflict)

structure ValidationResult where
  errors : List JsString
  warnings : List JsString
deriving DecidableEq

def ValidationResult.valid (result : ValidationResult) : Bool := result.errors = []

/-- `if (p) errors.push(error)`. -/
def report (p : Bool) (error : JsString) : List JsString := if p then [error] else []

/-! ## Patterns -/

def isUpperLetter (c : CodeUnit) : Bool := 65 ≤ c.val && c.val ≤ 90

def isLetter (c : CodeUnit) : Bool := isUpperLetter c || (97 ≤ c.val && c.val ≤ 122)

def isDigit (c : CodeUnit) : Bool := 48 ≤ c.val && c.val ≤ 57

/-- `/^[A-Z]{2}$/`. -/
def countryCodePattern (text : JsString) : Bool := text.length = 2 && text.all isUpperLetter

/-- A hexadecimal digit in either case. -/
def isHexDigit (c : CodeUnit) : Bool :=
  isDigit c || (65 ≤ c.val && c.val ≤ 70) || (97 ≤ c.val && c.val ≤ 102)

def lowerLetter (c : CodeUnit) : CodeUnit := if isUpperLetter c then c + 32 else c

/-- `/^sha256:[a-f\d]{64}$/i`. -/
def DIGEST_PATTERN (text : JsString) : Bool :=
  (text.take 7).map lowerLetter = js "sha256:" && (text.drop 7).length = 64
    && (text.drop 7).all isHexDigit

/-- `/^https:\/\/[^\s]+$/`. -/
def HTTPS_URL_PATTERN (text : JsString) : Bool :=
  text.take 8 = js "https://" && text.drop 8 ≠ [] && (text.drop 8).all (!isWhiteSpace ·)

/-- `/^[A-Za-z][A-Za-z\d+.-]*:/`. -/
def ARTIFACT_PATH_SCHEME_PATTERN (text : JsString) : Bool :=
  match text with
  | [] => false
  | c :: rest =>
    isLetter c
      && (rest.dropWhile fun c => isLetter c || isDigit c || c ∈ js "+.-").head? = some 58

/-! ## The graph -/

section Graph

variable (P : Platform)

def artifactErrors (artifact : ReleaseArtifact) (artifactPaths : List JsString) : List JsString :=
  let path := artifact.path
  report (path = []) (js "artifact-path-required")
  ++ report (path.head? = some 47 || 92 ∈ path || js ".." ∈ path.splitOn 47
      || ARTIFACT_PATH_SCHEME_PATTERN path) (js "invalid-artifact-path:" ++ path)
  ++ report (path ∈ artifactPaths) (js "duplicate-artifact-path:" ++ path)
  ++ report (artifact.mediaType = []) (js "artifact-media-type-required:" ++ path)
  ++ report ((truthy artifact.downloadUrl).any (!HTTPS_URL_PATTERN ·))
      (js "invalid-artifact-url:" ++ path)
  ++ report (!DIGEST_PATTERN artifact.digest) (js "invalid-artifact-digest:" ++ path)
  ++ report (artifact.byteLength.any (· < 0)) (js "invalid-artifact-byte-length:" ++ path)
  ++ report (artifact.recordCount.any (· < 0)) (js "invalid-artifact-record-count:" ++ path)
  ++ report (artifact.licenseRefs.any (·.any fun reference => trim reference = []))
      (js "invalid-artifact-license-ref:" ++ path)

def artifactsErrors (artifactPaths : List JsString) : List ReleaseArtifact → List JsString
  | [] => []
  | artifact :: artifacts =>
    artifactErrors artifact artifactPaths
      ++ artifactsErrors (artifactPaths ++ [artifact.path]) artifacts

def validatePostalContextReleaseManifest (manifest : ReleaseManifest) : ValidationResult where
  errors :=
    report (manifest.schemaVersion ≠ POSTAL_CONTEXT_GRAPH_SCHEMA_VERSION)
      (js "unsupported-schema-version:" ++ manifest.schemaVersion)
    ++ report (manifest.repositoryId = []) (js "repositoryId-required")
    ++ report ((truthy manifest.repositoryUrl).any (!HTTPS_URL_PATTERN ·))
      (js "invalid-repository-url")
    ++ report (manifest.releaseId = []) (js "releaseId-required")
    ++ report (manifest.policyVersion = []) (js "policyVersion-required")
    ++ report (!countryCodePattern manifest.countryCode) (js "invalid-release-country-code")
    ++ report (instantValue P manifest.releasedAt = none) (js "invalid-released-at")
    ++ report (!isValidTimeRange P manifest.validTime) (js "invalid-release-valid-time")
    ++ report (!DIGEST_PATTERN manifest.manifestDigest) (js "invalid-manifest-digest")
    ++ artifactsErrors [] manifest.artifacts
  warnings := report (manifest.artifacts = []) (js "release-has-no-artifacts")

/-- `nodeById.get(id)`, where the map has the last node with an id. -/
def nodeById (nodes : List Node) (id : JsString) : Option Node :=
  nodes.reverse.find? (·.id = id)

def nodeErrors (release : ReleaseManifest) (node : Node) (nodeIds : List JsString) :
    List JsString :=
  report (node.id = []) (js "node-id-required")
  ++ report (node.id ∈ nodeIds) (js "duplicate-node:" ++ node.id)
  ++ report ((truthy node.countryCode).any (!countryCodePattern ·))
      (js "invalid-node-country-code:" ++ node.id)
  ++ report ((truthy node.countryCode).any (· ≠ release.countryCode))
      (js "node-release-country-mismatch:" ++ node.id)

def nodesErrors (release : ReleaseManifest) (nodeIds : List JsString) : List Node → List JsString
  | [] => []
  | node :: nodes =>
    nodeErrors release node nodeIds ++ nodesErrors release (nodeIds ++ [node.id]) nodes

def nodeWarnings (node : Node) : List JsString :=
  report (node.kind = .postal_feature && truthy node.postalCode = none)
    (js "postal-code-missing:" ++ node.id)
  ++ report (isPrivatePostalContextKind node.kind && node.visibility = some .public_)
    (js "private-kind-marked-public:" ++ node.id)

def assertionErrors (nodes : List Node) (assertion : Assertion) (assertionIds : List JsString) :
    List JsString :=
  let id := assertion.id
  let nodeIds := nodes.map (·.id)
  report (id = []) (js "assertion-id-required")
  ++ report (id ∈ assertionIds) (js "duplicate-assertion:" ++ id)
  ++ report (assertion.fromNodeId ∉ nodeIds) (js "assertion-from-missing:" ++ id)
  ++ report (assertion.toNodeId ∉ nodeIds) (js "assertion-to-missing:" ++ id)
  ++ report ((assertion.relation = .postal_assigned || assertion.relation = .postal_contains)
      && (nodeById nodes assertion.toNodeId).any (·.kind ≠ .postal_feature))
      (js "postal-target-not-postal-feature:" ++ id)
  ++ report (assertion.fromNodeId = assertion.toNodeId) (js "self-assertion:" ++ id)
  ++ report (!isValidTimeRange P assertion.validTime) (js "invalid-assertion-valid-time:" ++ id)
  ++ report (!isValidTimeRange P assertion.knownTime) (js "invalid-assertion-known-time:" ++ id)
  ++ report (assertion.source.sourceId = []) (js "assertion-source-required:" ++ id)
  ++ report (assertion.relation = .postal_assigned && assertion.source.assignmentAuthority = .none)
      (js "postal-assignment-authority-required:" ++ id)
  ++ report (assertion.relation = .postal_contains && assertion.source.geometryAuthority = .none)
      (js "postal-geometry-authority-required:" ++ id)
  ++ report ((truthy assertion.source.digest).any (!DIGEST_PATTERN ·))
      (js "invalid-assertion-source-digest:" ++ id)
  ++ report (assertion.quality.confidence.any fun confidence => confidence < 0 || 1 < confidence)
      (js "invalid-assertion-confidence:" ++ id)
  ++ report (assertion.quality.accuracyMeters.any (· < 0)) (js "invalid-assertion-accuracy:" ++ id)

def assertionsErrors (nodes : List Node) (assertionIds : List JsString) :
    List Assertion → List JsString
  | [] => []
  | assertion :: assertions =>
    assertionErrors P nodes assertion assertionIds
      ++ assertionsErrors nodes (assertionIds ++ [assertion.id]) assertions

def validatePostalContextGraph (graph : Graph) : ValidationResult :=
  let releaseValidation := validatePostalContextReleaseManifest P graph.release
  { errors := releaseValidation.errors
      ++ report (graph.schemaVersion ≠ POSTAL_CONTEXT_GRAPH_SCHEMA_VERSION)
        (js "unsupported-graph-schema-version:" ++ graph.schemaVersion)
      ++ report (graph.schemaVersion ≠ graph.release.schemaVersion)
        (js "graph-release-schema-mismatch")
      ++ nodesErrors graph.release [] graph.nodes
      ++ assertionsErrors P graph.nodes [] graph.assertions
    warnings := releaseValidation.warnings ++ graph.nodes.flatMap nodeWarnings }

end Graph

/-! ## The geometry -/

def validPosition (position : Position) : Bool :=
  -180 ≤ position.1 && position.1 ≤ 180 && -90 ≤ position.2 && position.2 ≤ 90

def ringErrors (featureId ringId : JsString) (ring : LinearRing) : List JsString :=
  report (ring.length < 4) (js "geometry-ring-too-short:" ++ featureId ++ js ":" ++ ringId)
  ++ report (ring.head? ≠ ring.getLast?)
      (js "geometry-ring-not-closed:" ++ featureId ++ js ":" ++ ringId)
  ++ ring.zipIdx.flatMap fun (position, index) => report (!validPosition position)
      (js "invalid-geometry-position:" ++ featureId ++ js ":" ++ ringId ++ js ":"
        ++ js (toString index))

def geometryErrors (id : JsString) : Geometry → List JsString
  | .point coordinates =>
    report (!validPosition coordinates) (js "invalid-geometry-position:" ++ id ++ js ":point")
  | geometry =>
    report (geometry.polygons = []) (js "geometry-polygon-empty:" ++ id)
    ++ geometry.polygons.zipIdx.flatMap fun (polygon, polygonIndex) =>
      report (polygon = []) (js "geometry-rings-empty:" ++ id ++ js ":" ++ js (toString polygonIndex))
      ++ polygon.zipIdx.flatMap fun (ring, ringIndex) =>
        ringErrors id (js (toString polygonIndex) ++ js ":" ++ js (toString ringIndex)) ring

def validPublicationClass (role : GeometryRole) (publicationClass : PublicationClass) : Bool :=
  match role with
  | .postal_area => publicationClass = .public_context
  | .address_point =>
    publicationClass = .public_civic_address || publicationClass = .public_facility
  | .building_footprint =>
    publicationClass = .public_building || publicationClass = .public_facility
  | .entrance_point => publicationClass = .public_facility

section Features

variable (P : Platform)

def featureErrors (feature : GeometryFeature) (ids : List JsString) : List JsString :=
  let id := feature.id
  report (id = []) (js "geometry-feature-id-required")
  ++ report (id ∈ ids) (js "duplicate-geometry-feature:" ++ id)
  ++ report (feature.nodeId = []) (js "geometry-node-id-required:" ++ id)
  ++ report (feature.source.sourceId = []) (js "geometry-source-required:" ++ id)
  ++ report (feature.source.geometryAuthority = .none) (js "geometry-authority-required:" ++ id)
  ++ report (!isValidTimeRange P feature.validTime) (js "invalid-geometry-valid-time:" ++ id)
  ++ report (!isValidTimeRange P feature.knownTime) (js "invalid-geometry-known-time:" ++ id)
  ++ report (feature.quality.confidence.any fun confidence => confidence < 0 || 1 < confidence)
      (js "invalid-geometry-confidence:" ++ id)
  ++ report (feature.matchRadiusMeters.any fun radius => radius < 0 || 25 < radius)
      (js "invalid-address-point-match-radius:" ++ id)
  ++ report (feature.role ≠ .address_point && feature.matchRadiusMeters.isSome)
      (js "match-radius-only-valid-for-address-point:" ++ id)
  ++ report (feature.role = .address_point && feature.matchRadiusMeters.isNone)
      (js "address-point-match-radius-required:" ++ id)
  ++ report (!validPublicationClass feature.role feature.publicationClass)
      (js "invalid-geometry-publication-class:" ++ id)
  ++ report (feature.role = .building_footprint && geometryIsPoint feature.geometry)
      (js "polygon-role-requires-polygon:" ++ id)
  ++ report ((feature.role = .address_point || feature.role = .entrance_point)
      && !geometryIsPoint feature.geometry) (js "point-role-requires-point:" ++ id)
  ++ geometryErrors id feature.geometry

def featuresErrors (ids : List JsString) : List GeometryFeature → List JsString
  | [] => []
  | feature :: features =>
    featureErrors P feature ids ++ featuresErrors (ids ++ [feature.id]) features

def validatePostalContextGeometryCollection (collection : GeometryCollection) :
    ValidationResult where
  errors :=
    report (collection.schemaVersion ≠ POSTAL_CONTEXT_GEOMETRY_SCHEMA_VERSION)
      (js "unsupported-geometry-schema:" ++ collection.schemaVersion)
    ++ report (!countryCodePattern collection.countryCode) (js "invalid-geometry-country-code")
    ++ report (collection.releaseId = []) (js "geometry-release-id-required")
    ++ featuresErrors P [] collection.features
  warnings := report collection.features.isEmpty (js "geometry-collection-empty")

end Features

/-! ## The topology -/

structure TopologyState where
  errors : List JsString
  remaining : ℤ
  aborted : Bool

namespace TopologyState

def TOPOLOGY_ERRORS : ℕ := 100

def TOPOLOGY_COMPARISONS : ℤ := 2000000

def addTopologyError (state : TopologyState) (error : JsString) : TopologyState :=
  if state.aborted then state
  else if state.errors.length ≥ TOPOLOGY_ERRORS - 1 then
    { state with
      errors := state.errors ++ [js "geometry-topology-error-limit-exceeded"]
      aborted := true }
  else { state with errors := state.errors ++ [error] }

def abortTopology (state : TopologyState) (error : JsString) : TopologyState :=
  { state.addTopologyError error with aborted := true }

def abortForBudget (state : TopologyState) (id : JsString) : TopologyState :=
  state.abortTopology (js "geometry-topology-budget-exceeded:" ++ id)

/-- A step that is left out once the validation is aborted. -/
def andThen (state : TopologyState) (next : TopologyState → TopologyState) : TopologyState :=
  if state.aborted then state else next state

def addIf (p : Bool) (error : JsString) (state : TopologyState) : TopologyState :=
  if p then state.addTopologyError error else state

end TopologyState

open TopologyState

def POSITIONS_PER_RING : ℕ := 100000

def POSITIONS : ℕ := 2000000

def signedRingArea (ring : LinearRing) : ℚ :=
  ((ring.zip ring.tail).map fun (previous, current) =>
    previous.1 * current.2 - current.1 * previous.2).sum / 2

/-- The loop of `pointInRing`, over the edges. -/
def topologyRingLoop (point : Position) : Bool → List (Position × Position) →
    PointLocation.SpatialRelation
  | inside, [] => if inside then .inside else .outside
  | inside, (a, b) :: edges =>
    if RingTopology.pointOnSegment point a b then .boundary
    else topologyRingLoop point (if PointLocation.crosses point a b then !inside else inside) edges

def topologyPointInRing (point : Position) (ring : LinearRing) : PointLocation.SpatialRelation :=
  topologyRingLoop point false (ring.zip ring.tail)

def ringHasRelation (ring container : LinearRing) (expected : PointLocation.SpatialRelation) :
    Bool :=
  ring.dropLast.any fun point => topologyPointInRing point container = expected

/-- `${id}:${index}`. -/
def indexed (id : JsString) (index : ℕ) : JsString := id ++ js ":" ++ js (toString index)

/-- The first index at which the ring repeats a position. -/
def firstRepeat (ring : LinearRing) : Option ℕ :=
  ((ring.zip ring.tail).findIdx? fun (previous, position) => previous = position).map (· + 1)

def validateRing (ring : LinearRing) (id : JsString) (state : TopologyState) : TopologyState :=
  if state.aborted then state
  else if ring.length > POSITIONS_PER_RING then
    state.addTopologyError (js "geometry-ring-position-limit:" ++ id)
  else
    let state := state.addIf (ring.dropLast.dedup.length < 3)
      (js "geometry-ring-distinct-position-count:" ++ id)
    let state := match firstRepeat ring with
      | none => state
      | some index => state.addTopologyError
          (js "geometry-ring-consecutive-duplicate:" ++ indexed id index)
    let state := state.addIf (|signedRingArea ring| ≤ TOPOLOGY_EPSILON)
      (js "geometry-ring-zero-area:" ++ id)
    state.andThen fun state =>
      let (selfIntersection, remaining) := ringSelfIntersects ring state.remaining
      let state := { state with remaining }
      match selfIntersection with
      | none => state.abortForBudget id
      | some found => state.addIf found (js "geometry-ring-self-intersection:" ++ id)

/-- A hole against one before it. -/
def validateHoles (id : JsString) (index : ℕ) (hole : LinearRing) (state : TopologyState)
    (other : LinearRing × ℕ) : TopologyState :=
  state.andThen fun state =>
    let ids := indexed (indexed id other.2) index
    let (intersection, remaining) := ringsConflict other.1 hole state.remaining
    let state := { state with remaining }
    match intersection with
    | none => state.abortForBudget ids
    | some found =>
      state.addIf (found || ringHasRelation hole other.1 .inside
        || ringHasRelation other.1 hole .inside) (js "geometry-holes-overlap:" ++ ids)

def validateHole (polygon : Polygon) (outer : LinearRing) (id : JsString) (state : TopologyState)
    (hole : LinearRing × ℕ) : TopologyState :=
  if hole.2 = 0 || hole.1 = [] then state
  else state.andThen fun state =>
    let ids := indexed id hole.2
    let state := state.addIf
      (!ringHasRelation hole.1 outer .inside || ringHasRelation hole.1 outer .outside)
      (js "geometry-hole-outside-outer:" ++ ids)
    state.andThen fun state =>
      let (intersection, remaining) := ringsConflict outer hole.1 state.remaining
      let state := { state with remaining }
      match intersection with
      | none => state.abortForBudget ids
      | some found =>
        ((polygon.zipIdx.take hole.2).drop 1).foldl (validateHoles id hole.2 hole.1)
          (state.addIf found (js "geometry-hole-intersects-outer:" ++ ids))

def validatePolygon (polygon : Polygon) (id : JsString) (state : TopologyState) : TopologyState :=
  let state := polygon.zipIdx.foldl (fun state (ring, index) =>
    validateRing ring (indexed id index) state) state
  state.andThen fun state =>
    match polygon with
    | [] => state
    | outer :: _ =>
      if outer = [] then state
      else polygon.zipIdx.foldl (validateHole polygon outer id) state

def positionsOf (polygon : Polygon) : List Position := polygon.flatten

/-- The longitudes of the polygon are more than half of a turn apart. -/
def crossesAntimeridian (polygon : Polygon) : Bool :=
  (positionsOf polygon).any fun p => (positionsOf polygon).any fun q => p.1 - q.1 > 180

/-- With the positions that are counted. -/
abbrev Counted := TopologyState × ℕ

def Counted.addPositions (counted : Counted) (count : ℕ) : Counted :=
  let positionCount := counted.2 + count
  if positionCount > POSITIONS then
    (counted.1.abortTopology (js "geometry-position-limit-exceeded"), positionCount)
  else (counted.1, positionCount)

def validatePolygonOf (id : JsString) (counted : Counted) (polygon : Polygon × ℕ) : Counted :=
  if counted.1.aborted then counted
  else
    let ids := indexed id polygon.2
    let counted := counted.addPositions (positionsOf polygon.1).length
    if counted.1.aborted then counted
    else
      (validatePolygon polygon.1 ids (counted.1.addIf (crossesAntimeridian polygon.1)
        (js "geometry-antimeridian-unsupported:" ++ ids)), counted.2)

def validateFeature (counted : Counted) (feature : GeometryFeature) : Counted :=
  if counted.1.aborted then counted
  else match feature.geometry with
    | .point _ => counted.addPositions 1
    | geometry => geometry.polygons.zipIdx.foldl (validatePolygonOf feature.id) counted

structure TopologyValidation where
  errors : List JsString
  positionCount : ℕ

def validatePostalContextGeometryTopology (collection : GeometryCollection) :
    TopologyValidation :=
  let (state, positionCount) :=
    collection.features.foldl validateFeature (⟨[], TOPOLOGY_COMPARISONS, false⟩, 0)
  ⟨state.errors, positionCount⟩

/-! ## The pack -/

section Pack

variable (P : Platform)

def POSTAL_CONTEXT_RUNTIME_PACK_SCHEMA_VERSION := js "postal-context-runtime-pack/v0.1"

/-- The first instant of Nigeria's digital postcodes. -/
def NIGERIA_DIGITAL_POSTCODE_EFFECTIVE_FROM := js "2026-10-01T00:00:00+01:00"

def normalizeNigeriaPostalCode (value : JsString) : Option JsString :=
  let normalized := (P.toUpperCase (P.normalizeNfkc value)).filter fun c =>
    !(isWhiteSpace c || c = 45)
  if normalized.length = 6 && normalized.all isDigit then some normalized
  else if normalized.length = 11 && (normalized.all fun c => isUpperLetter c || isDigit c)
      && normalized.any isUpperLetter && normalized.any isDigit then some normalized
  else none

def normalizeMoroccoPostalCode (value : JsString) : Option JsString :=
  let normalized := (P.normalizeNfkc value).filter (!isWhiteSpace ·)
  if normalized.length = 5 && normalized.all isDigit then some normalized else none

/-- `classifyMoroccoPostalCode(value) === 'home_delivery_sector'`. -/
def isHomeDeliverySector (value : JsString) : Bool :=
  (normalizeMoroccoPostalCode P value).any fun normalized =>
    normalized.getLast?.any (· ∈ js "0178")

def isPublicPackNode (node : Node) : Bool :=
  node.kind ≠ .unit && node.kind ≠ .recipient && node.visibility = some .public_

def geometryTypeForFeature (feature : GeometryFeature) : GeometryType :=
  match feature.geometry with
  | .point _ => .point
  | .polygon _ => .polygon
  | .multiPolygon _ => .multipolygon

def compatibleRole (node : Node) (feature : GeometryFeature) : Bool :=
  match feature.role with
  | .postal_area => node.kind = .postal_feature
  | .address_point => node.kind = .address_point
  | .building_footprint => node.kind = .building || node.kind = .building_part
  | .entrance_point => node.kind = .entrance

def startsWith (text prefix_ : JsString) : Bool := prefix_.isPrefixOf text

def packNodeErrors (graph : Graph) (node : Node) : List JsString :=
  report (!isPublicPackNode node) (js "non-public-node-in-public-pack:" ++ node.id)
  ++ report (startsWith node.id (js "runtime:")) (js "reserved-runtime-node-id:" ++ node.id)
  ++ if graph.release.countryCode = js "NG" && node.kind = .postal_feature
        && (truthy node.postalCode).any fun code =>
          (normalizeNigeriaPostalCode P code).any (·.length = 11) then
      graph.assertions.flatMap fun assertion =>
        report ((assertion.fromNodeId = node.id || assertion.toNodeId = node.id)
          && match P.dateParse assertion.validTime.from_,
              P.dateParse NIGERIA_DIGITAL_POSTCODE_EFFECTIVE_FROM with
            | some start, some effectiveFrom => start < effectiveFrom
            | _, _ => false)
          (js "nigeria-digital-postcode-before-effective-date:" ++ node.id ++ js ":"
            ++ assertion.id)
    else []

def packAssertionErrors (assertion : Assertion) : List JsString :=
  report (startsWith assertion.id (js "runtime:"))
    (js "reserved-runtime-assertion-id:" ++ assertion.id)
  ++ report (truthy assertion.source.digest = none)
    (js "assertion-source-digest-required:" ++ assertion.id)
  ++ report (truthy assertion.source.licenseId = none)
    (js "assertion-source-license-required:" ++ assertion.id)

def packFeatureErrors (graph : Graph) (feature : GeometryFeature) : List JsString :=
  let id := feature.id
  match nodeById graph.nodes feature.nodeId with
  | none => [js "geometry-node-missing:" ++ id ++ js ":" ++ feature.nodeId]
  | some node =>
    report (startsWith id (js "runtime:")) (js "reserved-runtime-geometry-id:" ++ id)
    ++ report (!compatibleRole node feature) (js "geometry-role-node-mismatch:" ++ id)
    ++ report (node.geometryType ≠ geometryTypeForFeature feature)
      (js "geometry-type-node-mismatch:" ++ id)
    ++ report (truthy feature.source.digest = none) (js "geometry-source-digest-required:" ++ id)
    ++ report (truthy feature.source.licenseId = none)
      (js "geometry-source-license-required:" ++ id)
    ++ report (feature.source.assignmentAuthority = .official_postal_dictionary)
      (js "dictionary-cannot-authorize-geometry:" ++ id)
    ++ match truthy node.postalCode with
      | none => []
      | some postalCode =>
        report (graph.release.countryCode = js "MA" && feature.role = .postal_area
          && !isHomeDeliverySector P postalCode)
          (js "morocco-non-area-postcode-has-postal-area:" ++ id ++ js ":" ++ postalCode)

def validatePostalContextRuntimePack (pack : RuntimePack) (expectedCountryCode : Option JsString) :
    ValidationResult :=
  let graphValidation := validatePostalContextGraph P pack.graph
  let geometryValidation := validatePostalContextGeometryCollection P pack.geometry
  let countryCode := truthy (expectedCountryCode.map P.toUpperCase)
  { errors :=
      report (pack.schemaVersion ≠ POSTAL_CONTEXT_RUNTIME_PACK_SCHEMA_VERSION)
        (js "unsupported-runtime-pack-schema:" ++ pack.schemaVersion)
      ++ graphValidation.errors.map (js "graph:" ++ ·)
      ++ geometryValidation.errors.map (js "geometry:" ++ ·)
      ++ report (countryCode.any (pack.graph.release.countryCode ≠ ·))
        (js "unexpected-pack-country:" ++ pack.graph.release.countryCode)
      ++ report (pack.geometry.countryCode ≠ pack.graph.release.countryCode)
        (js "graph-geometry-country-mismatch")
      ++ report (pack.geometry.releaseId ≠ pack.graph.release.releaseId)
        (js "graph-geometry-release-mismatch")
      ++ report (pack.graph.schemaVersion ≠ POSTAL_CONTEXT_GRAPH_SCHEMA_VERSION)
        (js "unexpected-graph-schema:" ++ pack.graph.schemaVersion)
      ++ report (pack.geometry.schemaVersion ≠ POSTAL_CONTEXT_GEOMETRY_SCHEMA_VERSION)
        (js "unexpected-geometry-schema:" ++ pack.geometry.schemaVersion)
      ++ pack.graph.nodes.flatMap (packNodeErrors P pack.graph)
      ++ pack.graph.assertions.flatMap packAssertionErrors
      ++ pack.geometry.features.flatMap (packFeatureErrors P pack.graph)
    warnings := graphValidation.warnings.map (js "graph:" ++ ·)
      ++ geometryValidation.warnings.map (js "geometry:" ++ ·) }

end Pack

end Agid.PostalContext
