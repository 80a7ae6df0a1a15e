import Agid.PackValidation

/-!
# Resolution of a postal context

`resolvePostalContext` of `src/lib/postalContextResolver.ts`: from a start node the address records,
postal features and buildings that it is linked to, and the context around them, as one candidate
for each address record.  A set is the list of its elements in the order they were added.
-/

namespace Agid.PostalContext

def POSTAL_CONTEXT_RESOLVER_VERSION := js "postal-context-resolver/v0.1"

inductive Ambiguity where
  | boundary_ambiguity
  | multiple_address_records
  | multiple_buildings
  | multiple_postal_assignments
  | multiple_entrances
  | source_conflict
  | campus_or_complex
  | postal_assignment_conflict
  | spatial_postal_only
  | vertical_unresolved
  | private_context_redacted
  | temporal_gap
  | no_spatial_geometry
deriving DecidableEq

inductive EvidenceTier where
  | E0
  | E1
  | E2
  | E3
  | E4
  | E5
deriving DecidableEq

structure ResolutionComponent where
  nodeId : JsString
  kind : NodeKind
  featureKind : FeatureKind
  label : Option JsString
  postalCode : Option JsString
  assertionId : Option JsString
  relation : Option Relation
  method : Option Method
  evidenceTier : Option EvidenceTier
deriving DecidableEq

structure ResolutionCandidate where
  pathId : JsString
  rootAddressRecordId : Option JsString
  nodeIds : List JsString
  assertionIds : List JsString
  ambiguousNodeIds : List JsString
  components : List ResolutionComponent
  resolvedLevel : ResolutionLevel
  capabilities : Capabilities
  evidenceTiers : List EvidenceTier
  weakestEvidenceTier : Option EvidenceTier
  ambiguities : List Ambiguity
deriving DecidableEq

/-- The visibility that a request is made with. -/
inductive RequestVisibility where
  | public_
  | authorized
deriving DecidableEq

structure ResolutionRequest where
  graph : Graph
  startNodeId : JsString
  purpose : Purpose
  validAt : JsString
  knownAt : Option JsString
  visibility : Option RequestVisibility

structure ResultRelease where
  repositoryId : JsString
  releaseId : JsString
  manifestDigest : JsString
  policyVersion : JsString
deriving DecidableEq

structure ResolutionResult where
  schemaVersion : JsString
  resolverVersion : JsString
  status : ResolutionStatus
  purpose : Purpose
  validAt : JsString
  knownAt : JsString
  release : ResultRelease
  selectedCandidateId : Option JsString
  resolvedLevel : ResolutionLevel
  capabilities : Capabilities
  candidates : List ResolutionCandidate
  ambiguities : List Ambiguity
  errors : List JsString
deriving DecidableEq

def METHOD_TIER : Method → EvidenceTier
  | .explicit_assignment => .E0
  | .direct_source_link => .E1
  | .official_crosswalk => .E1
  | .source_relation => .E1
  | .geometry_contains => .E2
  | .geometry_intersects => .E2
  | .derived => .E3
  | .nearest => .E4
  | .virtual_grid => .E5

def EVIDENCE_TIER_RANK : EvidenceTier → ℕ
  | .E0 => 0
  | .E1 => 1
  | .E2 => 2
  | .E3 => 3
  | .E4 => 4
  | .E5 => 5

/-- `[...new Set(values)]`. -/
def unique {α : Type} [DecidableEq α] : List α → List α
  | [] => []
  | a :: values => a :: (unique values).filter (· ≠ a)

/-- `set.add(value)`. -/
def addTo {α : Type} [DecidableEq α] (set : List α) (value : α) : List α :=
  if value ∈ set then set else set ++ [value]

def isPurposeEligible (assertion : Assertion) (purpose : Purpose) : Bool :=
  match assertion.purposes with
  | none => true
  | some purposes => purposes = [] || purpose ∈ purposes

def isVisible (node : Node) (visibility : RequestVisibility) : Bool :=
  if node.kind = .recipient then false
  else if visibility = .authorized then true
  else !isPrivatePostalContextKind node.kind && node.visibility ≠ some .private_
    && node.visibility ≠ some .restricted

def evidenceTier (assertion : Assertion) : EvidenceTier := METHOD_TIER assertion.method

def componentForNode (node : Node) (assertions : List Assertion) : ResolutionComponent :=
  let assertion := assertions.find? (·.toNodeId = node.id)
  { nodeId := node.id
    kind := node.kind
    featureKind := node.featureKind
    label := node.label
    postalCode := node.postalCode
    assertionId := assertion.map (·.id)
    relation := assertion.map (·.relation)
    method := assertion.map (·.method)
    evidenceTier := assertion.map evidenceTier }

def componentRank (component : ResolutionComponent) : ℕ :=
  postalContextResolutionLevelRank
    (postalContextResolutionLevelForNodes [(component.kind, component.featureKind)])

/-- `componentSort(a, b) <= 0`. -/
def ComponentLe (P : Platform) (a b : ResolutionComponent) : Prop :=
  componentRank a < componentRank b
    ∨ (componentRank a = componentRank b ∧ P.localeCompare a.nodeId b.nodeId ≤ 0)

instance (P : Platform) : DecidableRel (ComponentLe P) :=
  fun _ _ => inferInstanceAs (Decidable (_ ∨ _))

/-! ## The candidate of a root -/

/-- What the walk has included, and what is left in its queue. -/
structure Walk where
  includedAssertions : List Assertion
  includedNodeIds : List JsString
  queue : List JsString

/-- The body of the inner loop of the walk. -/
def Walk.follow (nodes : List Node) (fromNodeId : JsString) (walk : Walk) (assertion : Assertion) :
    Walk :=
  if assertion.fromNodeId ≠ fromNodeId then walk
  else match nodeById nodes fromNodeId, nodeById nodes assertion.toNodeId with
    | some from_, some target =>
      if target.id ∈ walk.includedNodeIds
          || !postalContextAssertionAllowedForUse assertion from_ target .resolution_context then
        walk
      else
        { includedAssertions := walk.includedAssertions ++ [assertion]
          includedNodeIds := walk.includedNodeIds ++ [target.id]
          queue := walk.queue ++ [target.id] }
    | _, _ => walk

/-- The walk for a number of rounds, each from the first node of the queue. -/
def Walk.run (nodes : List Node) (assertions : List Assertion) : ℕ → Walk → Walk
  | 0, walk => walk
  | rounds + 1, walk =>
    match walk.queue with
    | [] => walk
    | fromNodeId :: queue =>
      Walk.run nodes assertions rounds
        (assertions.foldl (Walk.follow nodes fromNodeId) { walk with queue })

/-- The walk to its end: a node enters the queue once. -/
def Walk.finish (nodes : List Node) (assertions : List Assertion) (walk : Walk) : Walk :=
  Walk.run nodes assertions (nodes.length + walk.queue.length) walk

/-- The entrances of the buildings that are included. -/
def addEntrances (nodes : List Node) (assertions : List Assertion) (walk : Walk) : Walk :=
  let buildingIds := walk.includedNodeIds.filter fun id =>
    (nodeById nodes id).any (·.kind = .building)
  assertions.foldl (fun walk assertion =>
    if assertion.relation ≠ .accesses || assertion.toNodeId ∉ buildingIds then walk
    else match nodeById nodes assertion.fromNodeId, nodeById nodes assertion.toNodeId with
      | some entrance, some building =>
        if postalContextAssertionAllowedForUse assertion entrance building .navigation_entrance then
          { walk with
            includedAssertions := walk.includedAssertions ++ [assertion]
            includedNodeIds := addTo walk.includedNodeIds entrance.id }
        else walk
      | _, _ => walk) walk

/-- The assertions to a node that may be used so from the anchor. -/
def linksFrom (nodes : List Node) (anchor : Node) (use : AssertionUse)
    (assertions : List Assertion) : List Assertion :=
  assertions.filter fun assertion =>
    (nodeById nodes assertion.toNodeId).any fun target =>
      postalContextAssertionAllowedForUse assertion anchor target use

/-- The first of the assertions to each node. -/
def firstByTarget : List Assertion → List Assertion
  | [] => []
  | assertion :: assertions =>
    assertion :: (firstByTarget assertions).filter (·.toNodeId ≠ assertion.toNodeId)

/-- `postalKey(assertion)`. -/
def postalKey (nodes : List Node) (assertion : Assertion) : JsString :=
  ((nodeById nodes assertion.toNodeId).bind (·.postalCode)).getD assertion.toNodeId

/-- The ambiguities of a candidate before its context is walked. -/
def linkAmbiguities (nodes : List Node) (directPostal spatialPostal buildings : List Assertion) :
    List Ambiguity :=
  let directPostalKeys := unique (directPostal.map (postalKey nodes))
  let spatialPostalKeys := unique (spatialPostal.map (postalKey nodes))
  (if directPostalKeys.length > 1 then [.multiple_postal_assignments] else [])
  ++ (if directPostal = [] && spatialPostalKeys.length > 1 then [.boundary_ambiguity] else [])
  ++ (if directPostal ≠ [] && spatialPostalKeys.any (· ∉ directPostalKeys) then
      [.postal_assignment_conflict] else [])
  ++ (if directPostal = [] && spatialPostal ≠ [] then [.spatial_postal_only] else [])
  ++ (if buildings.length > 1 then [.multiple_buildings] else [])

/-- What a candidate includes before its context is walked. -/
def includedLinks (start : Node) (root : Option Node)
    (assertions postalAssertions buildings : List Assertion) : Walk :=
  let rootLink := root.bind fun root => assertions.find? fun assertion =>
    postalContextAssertionAllowedForUse assertion start root .address_record_root
  let building := if buildings.length = 1 then buildings else []
  let targetIds := (postalAssertions ++ building).map (·.toNodeId)
  let includedNodeIds := (root.toList.map (·.id) ++ targetIds).foldl addTo [start.id]
  { includedAssertions := rootLink.toList ++ postalAssertions ++ building
    includedNodeIds
    queue := includedNodeIds }

/-- The nodes that a candidate speaks of apart from the start. -/
def isResolutionNode (start node : Node) : Bool :=
  node.id ≠ start.id && node.kind ≠ .address_point && node.kind ≠ .query_point

def buildCandidate (P : Platform) (graph : Graph) (start : Node) (root : Option Node)
    (assertions spatialPostalAssertions : List Assertion) (purpose : Purpose)
    (visibility : RequestVisibility) : ResolutionCandidate :=
  let nodes := graph.nodes
  let anchor := root.getD start
  let directPostal := linksFrom nodes anchor .postal_assignment assertions
  let postalAssertions := if directPostal ≠ [] then directPostal else spatialPostalAssertions
  let buildings := firstByTarget (linksFrom nodes anchor .building_identity assertions)
  let walked := Walk.finish nodes assertions
    (includedLinks start root assertions postalAssertions buildings)
  let walk := if purpose = .navigation then addEntrances nodes assertions walked else walked
  let allIncludedNodes := walk.includedNodeIds.filterMap (nodeById nodes)
  let visibleNodes := allIncludedNodes.filter (isVisible · visibility)
  let resolutionNodes := visibleNodes.filter (isResolutionNode start)
  let tiers := (unique (walk.includedAssertions.map evidenceTier)).insertionSort
    fun a b => EVIDENCE_TIER_RANK a ≤ EVIDENCE_TIER_RANK b
  { pathId := js "pcg:" ++ graph.release.releaseId ++ js ":" ++ anchor.id
    rootAddressRecordId := root.map (·.id)
    nodeIds := visibleNodes.map (·.id)
    assertionIds := unique (walk.includedAssertions.map (·.id))
    ambiguousNodeIds := if buildings.length > 1 then unique (buildings.map (·.toNodeId)) else []
    components := (resolutionNodes.map (componentForNode · walk.includedAssertions)).insertionSort
      (ComponentLe P)
    resolvedLevel :=
      postalContextResolutionLevelForNodes (resolutionNodes.map fun node =>
        (node.kind, node.featureKind))
    capabilities := postalContextCapabilitiesForNodes visibleNodes
    evidenceTiers := tiers
    weakestEvidenceTier := tiers.getLast?
    ambiguities := linkAmbiguities nodes directPostal spatialPostalAssertions buildings
      ++ if visibleNodes.length ≠ allIncludedNodes.length then [.private_context_redacted] else [] }

/-! ## The result -/

def resultStatus (candidates : List ResolutionCandidate) : ResolutionStatus :=
  let some_ (ambiguity : Ambiguity) : Bool := candidates.any (ambiguity ∈ ·.ambiguities)
  if candidates.all (·.resolvedLevel = .none) then .no_match
  else if some_ .postal_assignment_conflict then .conflict
  else if candidates.length > 1 || some_ .multiple_buildings || some_ .multiple_postal_assignments
      || some_ .boundary_ambiguity then .ambiguous
  else if some_ .spatial_postal_only || some_ .private_context_redacted then .partial_
  else .unique

section Resolve

variable (P : Platform) (request : ResolutionRequest)

def ResolutionRequest.known : JsString := request.knownAt.getD request.validAt

def ResolutionRequest.visible : RequestVisibility := request.visibility.getD .public_

/-- A result with nothing selected and no candidate. -/
def emptyResult (status : ResolutionStatus) (errors : List JsString)
    (ambiguities : List Ambiguity) : ResolutionResult where
  schemaVersion := POSTAL_CONTEXT_GRAPH_SCHEMA_VERSION
  resolverVersion := POSTAL_CONTEXT_RESOLVER_VERSION
  status
  purpose := request.purpose
  validAt := request.validAt
  knownAt := request.known
  release :=
    { repositoryId := request.graph.release.repositoryId
      releaseId := request.graph.release.releaseId
      manifestDigest := request.graph.release.manifestDigest
      policyVersion := request.graph.release.policyVersion }
  selectedCandidateId := none
  resolvedLevel := .none
  capabilities := postalContextCapabilitiesForNodes []
  candidates := []
  ambiguities
  errors

/-- The assertions of the graph that may be used for the purpose. -/
def eligibleAssertions : List Assertion :=
  let nodeIds := request.graph.nodes.map (·.id)
  request.graph.assertions.filter fun assertion =>
    assertion.fromNodeId ∈ nodeIds && assertion.toNodeId ∈ nodeIds
      && isPurposeEligible assertion request.purpose

/-- Those of them that are in force. -/
def effectiveAssertions : List Assertion :=
  (eligibleAssertions request).filter fun assertion =>
    isPostalContextAssertionEffectiveAt P assertion request.validAt request.known

/-- `graph.nodes.find(node => node.id === id)`. -/
def findNode (nodes : List Node) (id : JsString) : Option Node := nodes.find? (·.id = id)

/-- The assertions in force from the start that may be used so. -/
def startLinks (start : Node) (use : AssertionUse) : List Assertion :=
  (effectiveAssertions P request).filter fun assertion =>
    (findNode request.graph.nodes assertion.toNodeId).any fun target =>
      postalContextAssertionAllowedForUse assertion start target use

/-- The links to address records that the request may see. -/
def visibleAddressRecordLinks (start : Node) : List Assertion :=
  (startLinks P request start .address_record_root).filter fun assertion =>
    (findNode request.graph.nodes assertion.toNodeId).any (isVisible · request.visible)

def resolutionRoots (start : Node) : List Node :=
  if start.kind = .address_record then [start]
  else (unique ((visibleAddressRecordLinks P request start).map (·.toNodeId))).filterMap
    (findNode request.graph.nodes)

/-- Whether an assertion is about the node. -/
def touches (id : JsString) (assertion : Assertion) : Bool :=
  assertion.fromNodeId = id || assertion.toNodeId = id

/-- What is added to the ambiguities of every candidate. -/
def commonAmbiguities (start : Node) : List Ambiguity :=
  (if (resolutionRoots P request start).length > 1 then [.multiple_address_records] else [])
  ++ (if (visibleAddressRecordLinks P request start).length
        ≠ (startLinks P request start .address_record_root).length then
      [.private_context_redacted] else [])
  ++ (if (eligibleAssertions request).any (touches start.id)
        && !(effectiveAssertions P request).any (touches start.id) then [.temporal_gap] else [])

def resolutionCandidates (start : Node) : List ResolutionCandidate :=
  let roots := resolutionRoots P request start
  (if roots ≠ [] then roots.map some else [none]).map fun root =>
    let candidate := buildCandidate P request.graph start root (effectiveAssertions P request)
      (startLinks P request start .spatial_postal) request.purpose request.visible
    { candidate with
      ambiguities := (commonAmbiguities P request start).foldl addTo candidate.ambiguities }

def resolveFrom (start : Node) : ResolutionResult :=
  let candidates := resolutionCandidates P request start
  let status := resultStatus candidates
  let selected := if status = .unique || status = .partial_ then candidates.head? else none
  { emptyResult request status [] (unique (candidates.flatMap (·.ambiguities))) with
    selectedCandidateId := selected.map (·.pathId)
    resolvedLevel := (selected.map (·.resolvedLevel)).getD .none
    capabilities := (selected.map (·.capabilities)).getD (postalContextCapabilitiesForNodes [])
    candidates }

def resolvePostalContext : ResolutionResult :=
  let graphValidation := validatePostalContextGraph P request.graph
  if !graphValidation.valid then emptyResult request .invalid graphValidation.errors []
  else
    let invalidTimeErrors :=
      report (instantValue P request.validAt = none) (js "invalid-valid-at")
      ++ report (instantValue P request.known = none) (js "invalid-known-at")
    if invalidTimeErrors ≠ [] then emptyResult request .invalid invalidTimeErrors []
    else match findNode request.graph.nodes request.startNodeId with
      | none => emptyResult request .invalid [js "start-node-not-found"] []
      | some start =>
        if request.visible = .public_ && !isVisible start .public_ then
          emptyResult request .no_match [] [.private_context_redacted]
        else resolveFrom P request start

end Resolve

end Agid.PostalContext
