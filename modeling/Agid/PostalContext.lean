import Agid.Clock
import Agid.PointLocation

/-!
# Postal context graphs

The nodes, assertions and geometry features of a postal context pack, from
`src/lib/postalContextGraph.ts` and `src/lib/postalContextSpatial.ts`, and what
`src/lib/postalContextAssertionPolicy.ts` allows an assertion to be used for.  `null` and
`undefined` are both `none`; a number is an exact one.
-/

namespace Agid.PostalContext

open PointLocation (Position Geometry)

/-- What the packs take from the platform: `Date.parse`, none for `NaN`, the methods of a string,
and the functions of `Math`. -/
structure Platform where
  dateParse : JsString → Option ℤ
  normalizeNfkc : JsString → JsString
  toUpperCase : JsString → JsString
  localeCompare : JsString → JsString → ℤ
  PI : ℚ
  sin : ℚ → ℚ
  cos : ℚ → ℚ
  sqrt : ℚ → ℚ
  asin : ℚ → ℚ

def POSTAL_CONTEXT_GRAPH_SCHEMA_VERSION := js "postal-context-graph/v0.1"

def POSTAL_CONTEXT_GEOMETRY_SCHEMA_VERSION := js "postal-context-geometry/v0.1"

inductive NodeKind where
  | postal_feature
  | administrative_area
  | locality
  | thoroughfare
  | address_record
  | address_point
  | parcel
  | building
  | building_part
  | entrance
  | unit
  | organization
  | delivery_endpoint
  | agid_cell
  | query_point
  | recipient
deriving DecidableEq

inductive FeatureKind where
  | query_point
  | standard_area
  | large_user
  | po_box
  | organization
  | route
  | virtual_area
  | building
  | building_part
  | entrance
  | premise
  | locality
  | street
  | block
  | cadastral
  | administrative
  | country
  | unknown
deriving DecidableEq

inductive GeometryType where
  | polygon
  | multipolygon
  | point
  | linestring
  | geometrycollection
  | none
deriving DecidableEq

inductive Purpose where
  | postal_lookup
  | display
  | delivery
  | navigation
  | cadastral
  | validation
deriving DecidableEq

inductive ResolutionStatus where
  | unique
  | partial_
  | ambiguous
  | conflict
  | no_match
  | invalid
deriving DecidableEq

inductive ResolutionLevel where
  | none
  | country
  | administrative
  | locality
  | postal_area
  | street_or_block
  | premise
  | building
  | entrance
  | unit
  | organization
  | delivery_endpoint
deriving DecidableEq

structure Capabilities where
  country : Bool
  administrative : Bool
  locality : Bool
  postalArea : Bool
  streetOrBlock : Bool
  premise : Bool
  building : Bool
  entrance : Bool
  unit : Bool
  organization : Bool
  deliveryEndpoint : Bool
  publicSafe : Bool
deriving DecidableEq

inductive Visibility where
  | public_
  | restricted
  | private_
deriving DecidableEq

structure Node where
  id : JsString
  kind : NodeKind
  featureKind : FeatureKind
  geometryType : GeometryType
  countryCode : Option JsString
  postalCode : Option JsString
  label : Option JsString
  visibility : Option Visibility
deriving DecidableEq

inductive Relation where
  | addresses
  | locates
  | stands_on
  | part_of
  | accesses
  | occupies
  | receives_mail_at
  | postal_assigned
  | postal_contains
  | delivery_served_by
  | admin_within
  | same_as
  | probable_same_as
  | supersedes
  | split_into
  | merged_into
  | covered_by_agid
deriving DecidableEq

inductive Method where
  | explicit_assignment
  | direct_source_link
  | official_crosswalk
  | source_relation
  | geometry_contains
  | geometry_intersects
  | nearest
  | derived
  | virtual_grid
deriving DecidableEq

inductive QualityStatus where
  | authoritative
  | verified
  | derived
  | candidate
  | disputed
  | unknown
deriving DecidableEq

structure TimeRange where
  from_ : JsString
  to_ : Option JsString
deriving DecidableEq

inductive SourceType where
  | official
  | open_
  | commercial
  | derived
  | virtual
  | synthetic
deriving DecidableEq

inductive AssignmentAuthority where
  | official_postal_operator
  | official_postal_dictionary
  | official_postal_mapping_authority
  | official_address_registry
  | official_municipal_civic_address
  | official_land_registry
  | derived_spatial_assignment
  | virtual_assignment
  | synthetic_fixture_assignment
  | none
deriving DecidableEq

inductive GeometryAuthority where
  | official_postal_geometry
  | official_address_registry_geometry
  | official_municipal_civic_geometry
  | official_cadastral_geometry
  | official_mapping_geometry
  | official_3d_city_model_geometry
  | derived_geometry
  | virtual_geometry
  | synthetic_fixture_geometry
  | none
deriving DecidableEq

structure Source where
  sourceId : JsString
  sourceType : SourceType
  assignmentAuthority : AssignmentAuthority
  geometryAuthority : GeometryAuthority
  sourceVersion : Option JsString
  sourceDate : Option JsString
  licenseId : Option JsString
  digest : Option JsString
deriving DecidableEq

structure Quality where
  status : QualityStatus
  confidence : Option ℚ
  accuracyMeters : Option ℚ
  validatedAt : Option JsString
deriving DecidableEq

/-- A directed assertion from a more specific node to a broader context node. -/
structure Assertion where
  id : JsString
  fromNodeId : JsString
  toNodeId : JsString
  relation : Relation
  validTime : TimeRange
  knownTime : TimeRange
  source : Source
  method : Method
  quality : Quality
  purposes : Option (List Purpose)
deriving DecidableEq

structure ReleaseArtifact where
  path : JsString
  downloadUrl : Option JsString
  mediaType : JsString
  digest : JsString
  byteLength : Option ℤ
  recordCount : Option ℤ
  licenseRefs : Option (List JsString)
deriving DecidableEq

structure ReleaseManifest where
  schemaVersion : JsString
  repositoryId : JsString
  repositoryUrl : Option JsString
  countryCode : JsString
  releaseId : JsString
  policyVersion : JsString
  releasedAt : JsString
  validTime : TimeRange
  manifestDigest : JsString
  artifacts : List ReleaseArtifact
deriving DecidableEq

structure Graph where
  schemaVersion : JsString
  release : ReleaseManifest
  nodes : List Node
  assertions : List Assertion
deriving DecidableEq

inductive GeometryRole where
  | postal_area
  | address_point
  | building_footprint
  | entrance_point
deriving DecidableEq

inductive PublicationClass where
  | public_context
  | public_civic_address
  | public_building
  | public_facility
deriving DecidableEq

structure GeometryFeature where
  id : JsString
  nodeId : JsString
  role : GeometryRole
  publicationClass : PublicationClass
  geometry : Geometry
  source : Source
  validTime : TimeRange
  knownTime : TimeRange
  quality : Quality
  matchRadiusMeters : Option ℚ

structure GeometryCollection where
  schemaVersion : JsString
  countryCode : JsString
  releaseId : JsString
  features : List GeometryFeature

structure RuntimePack where
  schemaVersion : JsString
  graph : Graph
  geometry : GeometryCollection

/-! ## Levels and capabilities -/

def postalContextResolutionLevelRank : ResolutionLevel → ℕ
  | .none => 0
  | .country => 1
  | .administrative => 2
  | .locality => 3
  | .postal_area => 4
  | .street_or_block => 5
  | .premise => 6
  | .building => 7
  | .entrance => 8
  | .unit => 9
  | .organization => 10
  | .delivery_endpoint => 11

def isPrivatePostalContextKind (kind : NodeKind) : Bool := kind = .unit || kind = .recipient

/-- Of nodes by their kinds and feature kinds. -/
def postalContextResolutionLevelForNodes (nodes : List (NodeKind × FeatureKind)) :
    ResolutionLevel :=
  let some_ (kind : NodeKind) : Bool := nodes.any (·.1 = kind)
  if some_ .delivery_endpoint then .delivery_endpoint
  else if some_ .organization then .organization
  else if some_ .unit then .unit
  else if some_ .entrance then .entrance
  else if some_ .building then .building
  else if some_ .address_record then .premise
  else if some_ .thoroughfare then .street_or_block
  else if some_ .postal_feature then .postal_area
  else if some_ .locality then .locality
  else if nodes.any (· = (.administrative_area, .country)) then .country
  else if some_ .administrative_area then .administrative
  else .none

def postalContextCapabilitiesForNodes (nodes : List Node) : Capabilities where
  country := nodes.any fun node => node.kind = .administrative_area && node.featureKind = .country
  administrative := nodes.any (·.kind = .administrative_area)
  locality := nodes.any (·.kind = .locality)
  postalArea := nodes.any (·.kind = .postal_feature)
  streetOrBlock := nodes.any (·.kind = .thoroughfare)
  premise := nodes.any (·.kind = .address_record)
  building := nodes.any (·.kind = .building)
  entrance := nodes.any (·.kind = .entrance)
  unit := nodes.any (·.kind = .unit)
  organization := nodes.any (·.kind = .organization)
  deliveryEndpoint := nodes.any (·.kind = .delivery_endpoint)
  publicSafe := nodes.all fun node =>
    !isPrivatePostalContextKind node.kind && node.visibility ≠ some .private_

/-! ## Times -/

section Times

variable (P : Platform)

def instantValue (value : JsString) : Option ℤ := P.dateParse value

/-- A text that is there and not empty. -/
def truthy (text : Option JsString) : Option JsString := text.filter (· ≠ [])

def isValidTimeRange (range : TimeRange) : Bool :=
  match instantValue P range.from_ with
  | none => false
  | some start =>
    match truthy range.to_ with
    | none => true
    | some to_ =>
      match instantValue P to_ with
      | none => false
      | some stop => start < stop

def instantInRange (value : JsString) (range : TimeRange) : Bool :=
  match instantValue P value, instantValue P range.from_ with
  | some instant, some start =>
    match truthy range.to_ with
    | none => start ≤ instant
    | some to_ =>
      match instantValue P to_ with
      | none => false
      | some stop => start ≤ instant && instant < stop
  | _, _ => false

def isPostalContextAssertionEffectiveAt (assertion : Assertion) (validAt knownAt : JsString) :
    Bool :=
  instantInRange P validAt assertion.validTime && instantInRange P knownAt assertion.knownTime

def isPostalContextGeometryEffectiveAt (feature : GeometryFeature) (validAt knownAt : JsString) :
    Bool :=
  instantInRange P validAt feature.validTime && instantInRange P knownAt feature.knownTime

end Times

def geometryIsPoint : Geometry → Bool
  | .point _ => true
  | _ => false

def EARTH_RADIUS_METERS : ℚ := 63710088 / 10

def haversineDistanceMeters (P : Platform) (a b : Position) : ℚ :=
  let radians (value : ℚ) : ℚ := value * P.PI / 180
  let haversine := P.sin (radians (b.2 - a.2) / 2) ^ 2
    + P.cos (radians a.2) * P.cos (radians b.2) * P.sin (radians (b.1 - a.1) / 2) ^ 2
  2 * EARTH_RADIUS_METERS * P.asin (min 1 (P.sqrt haversine))

/-! ## What an assertion may be used for -/

inductive AssertionUse where
  | lookup_context
  | resolution_context
  | address_record_root
  | postal_assignment
  | spatial_postal
  | building_identity
  | navigation_entrance
deriving DecidableEq

def DEFINITIVE_QUALITIES : List QualityStatus := [.authoritative, .verified]

def SPATIAL_POSTAL_QUALITIES : List QualityStatus := DEFINITIVE_QUALITIES ++ [.derived]

def DIRECT_METHODS : List Method :=
  [.explicit_assignment, .direct_source_link, .official_crosswalk, .source_relation]

def LOOKUP_CONTEXT_FROM_KINDS : List NodeKind := [.postal_feature, .administrative_area, .locality]

def hasDefinitiveAssignmentAuthority (assertion : Assertion) : Bool :=
  assertion.source.assignmentAuthority ≠ .none
    && assertion.source.assignmentAuthority ≠ .derived_spatial_assignment
    && assertion.source.assignmentAuthority ≠ .virtual_assignment

def hasNonVirtualGeometryAuthority (assertion : Assertion) : Bool :=
  assertion.source.geometryAuthority ≠ .none
    && assertion.source.geometryAuthority ≠ .virtual_geometry

def hasEligibleQuality (assertion : Assertion) (use : AssertionUse) : Bool :=
  assertion.quality.status
    ∈ if use = .spatial_postal then SPATIAL_POSTAL_QUALITIES else DEFINITIVE_QUALITIES

def methodSupportsContext (assertion : Assertion) : Bool :=
  if assertion.method ∈ DIRECT_METHODS then hasDefinitiveAssignmentAuthority assertion
  else if assertion.method = .geometry_contains then
    (assertion.relation = .admin_within || assertion.relation = .stands_on
        || assertion.relation = .covered_by_agid)
      && hasNonVirtualGeometryAuthority assertion
  else if assertion.method = .derived then
    assertion.relation = .covered_by_agid && hasNonVirtualGeometryAuthority assertion
  else false

def isArea (kind : NodeKind) : Bool := kind = .administrative_area || kind = .locality

def lookupContextKindsAreCompatible (assertion : Assertion) (fromNode toNode : Node) : Bool :=
  if fromNode.kind ∉ LOOKUP_CONTEXT_FROM_KINDS then false
  else if assertion.relation = .covered_by_agid then toNode.kind = .agid_cell
  else if assertion.relation = .admin_within then isArea toNode.kind
  else if assertion.relation = .part_of then isArea toNode.kind
  else false

def resolutionPartOfKindsAreCompatible (fromNode toNode : Node) : Bool :=
  match fromNode.kind with
  | .postal_feature | .query_point => isArea toNode.kind
  | .administrative_area | .locality | .thoroughfare => isArea toNode.kind
  | .address_record | .address_point =>
    isArea toNode.kind || toNode.kind = .thoroughfare || toNode.kind = .parcel
  | .building_part | .entrance => toNode.kind = .building || toNode.kind = .building_part
  | .building => toNode.kind = .building || toNode.kind = .parcel
  | .parcel => isArea toNode.kind
  | .organization => toNode.kind = .building || toNode.kind = .building_part
  | _ => false

def resolutionContextKindsAreCompatible (assertion : Assertion) (fromNode toNode : Node) : Bool :=
  match assertion.relation with
  | .covered_by_agid => toNode.kind = .agid_cell
  | .admin_within => isArea toNode.kind
  | .part_of => resolutionPartOfKindsAreCompatible fromNode toNode
  | .stands_on =>
    (fromNode.kind = .address_record || fromNode.kind = .building
        || fromNode.kind = .building_part)
      && toNode.kind = .parcel
  | .delivery_served_by =>
    (fromNode.kind = .address_record || fromNode.kind = .building
        || fromNode.kind = .organization)
      && toNode.kind = .delivery_endpoint
  | _ => false

def hasDefinitivePostalContextAssertionQuality (assertion : Assertion) : Bool :=
  assertion.quality.status ∈ DEFINITIVE_QUALITIES

/-- The last part of `postalContextAssertionAllowedForUse`, by the use. -/
def supportsUse (assertion : Assertion) (fromNode toNode : Node) : AssertionUse → Bool
  | .lookup_context =>
    methodSupportsContext assertion && lookupContextKindsAreCompatible assertion fromNode toNode
  | .resolution_context =>
    methodSupportsContext assertion && resolutionContextKindsAreCompatible assertion fromNode toNode
  | .address_record_root =>
    assertion.relation = .locates && fromNode.kind = .address_point
      && toNode.kind = .address_record && assertion.method ∈ DIRECT_METHODS
      && hasDefinitiveAssignmentAuthority assertion
  | .postal_assignment =>
    assertion.relation = .postal_assigned && fromNode.kind = .address_record
      && toNode.kind = .postal_feature && assertion.method ∈ DIRECT_METHODS
      && hasDefinitiveAssignmentAuthority assertion
  | .spatial_postal =>
    assertion.relation = .postal_contains
      && (fromNode.kind = .query_point || fromNode.kind = .address_point)
      && toNode.kind = .postal_feature && assertion.method = .geometry_contains
      && hasNonVirtualGeometryAuthority assertion
  | .building_identity =>
    assertion.relation = .addresses && fromNode.kind = .address_record
      && toNode.kind = .building && assertion.method ∈ DIRECT_METHODS
      && hasDefinitiveAssignmentAuthority assertion
  | .navigation_entrance =>
    assertion.relation = .accesses && fromNode.kind = .entrance
      && (toNode.kind = .building || toNode.kind = .building_part)
      && assertion.method ∈ DIRECT_METHODS && hasDefinitiveAssignmentAuthority assertion

def postalContextAssertionAllowedForUse (assertion : Assertion) (fromNode toNode : Node)
    (use : AssertionUse) : Bool :=
  if assertion.fromNodeId ≠ fromNode.id || assertion.toNodeId ≠ toNode.id then false
  else if !hasEligibleQuality assertion use then false
  else if assertion.source.sourceType = .virtual
      || assertion.source.assignmentAuthority = .virtual_assignment
      || assertion.source.geometryAuthority = .virtual_geometry
      || assertion.method = .nearest || assertion.method = .virtual_grid then false
  -- a public dictionary proves only its typed relation of a locality and a label
  else if assertion.source.assignmentAuthority = .official_postal_dictionary then
    (use = .lookup_context || use = .resolution_context)
      && assertion.source.sourceType = .official && assertion.source.geometryAuthority = .none
      && assertion.method = .source_relation && assertion.relation = .admin_within
      && lookupContextKindsAreCompatible assertion fromNode toNode
  else supportsUse assertion fromNode toNode use

end Agid.PostalContext
