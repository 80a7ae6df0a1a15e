import Agid.Lib.MaximalPaths
import Agid.PackRuntime

/-!
# Looking up a postal code

`lookupPostalCode` of `src/lib/postalContextPackRuntime.ts`: the effective postal features of a
code, the assertions of context that lead up from them, and the alternatives, one for each set of
contexts on a way up.  The walk counts the levels it may still go up, where the source counts those
it has.
-/

namespace Agid.PostalContext

structure PostalLookupAlternative where
  postalFeature : PublicComponent
  contexts : List PublicComponent
  assertionIds : List JsString
deriving DecidableEq

inductive LookupStatus where
  | unique
  | ambiguous
  | no_match
  | invalid
deriving DecidableEq

structure PostalLookupResult where
  status : LookupStatus
  countryCode : JsString
  normalizedPostalCode : Option JsString
  release : RuntimeRelease
  postalFeatures : List PublicComponent
  contexts : List PublicComponent
  assertionIds : List JsString
  alternatives : List PostalLookupAlternative
  geometries : List PostalGeometryResult
  errors : List JsString
  warnings : List JsString

section Lookup

variable (P : Platform) (runtime : PackRuntime) (validAt knownAt : JsString)

/-! ## Effective postal features -/

/-- An assertion that makes a postal feature effective. -/
def supportsPostalFeature (assertion : Assertion) : Bool :=
  isPurposeEligible assertion .postal_lookup
    && isPostalContextAssertionEffectiveAt P assertion validAt knownAt
    && match runtime.node assertion.fromNodeId, runtime.node assertion.toNodeId with
      | some from_, some to_ =>
        postalContextAssertionAllowedForUse assertion from_ to_ .lookup_context
          || postalContextAssertionAllowedForUse assertion from_ to_ .postal_assignment
          || postalContextAssertionAllowedForUse assertion from_ to_ .spatial_postal
      | _, _ => false

def postalGeometryOf (nodeId : JsString) : List GeometryFeature :=
  (runtime.pack.geometry.features.filter eligiblePostalGeometry).filter (·.nodeId = nodeId)

/-- What `postalNodeEffective` looks at, in its order. -/
def postalNodeTests (nodeId : JsString) : List Bool :=
  (postalGeometryOf runtime nodeId).map (isPostalContextGeometryEffectiveAt P · validAt knownAt)
    ++ (runtime.outgoingAssertions nodeId ++ runtime.incomingAssertions nodeId).map
      (supportsPostalFeature P runtime validAt knownAt)

/-- The first test that holds, with the tests that were examined; none where there are too many. -/
def firstTest (examined : ℕ) : List Bool → Option (Bool × ℕ)
  | [] => some (false, examined)
  | test :: tests =>
    if examined ≥ QUERY_LIMITS.lookupAssertionsExamined then none
    else if test then some (true, examined + 1)
    else firstTest (examined + 1) tests

def postalNodeEffective (nodeId : JsString) (examined : ℕ) : Option (Bool × ℕ) :=
  match runtime.node nodeId with
  | none => some (false, examined)
  | some _ => firstTest examined (postalNodeTests P runtime validAt knownAt nodeId)

/-- The loop over the nodes of a postal code. -/
def effectivePostalFeatures (examined : ℕ) : List Node → Option (List Node)
  | [] => some []
  | node :: nodes => do
    let (effective, examined) ← postalNodeEffective P runtime validAt knownAt node.id examined
    let features ← effectivePostalFeatures examined nodes
    return if effective then node :: features else features

/-! ## Assertions of context -/

/-- An assertion that a lookup follows. -/
def isContextAssertion (assertion : Assertion) : Bool :=
  isPurposeEligible assertion .postal_lookup
    && isPostalContextAssertionEffectiveAt P assertion validAt knownAt
    && match runtime.node assertion.fromNodeId, runtime.node assertion.toNodeId with
      | some from_, some target =>
        isPublicPackNode target
          && postalContextAssertionAllowedForUse assertion from_ target .lookup_context
      | _, _ => false

/-- What the search for contexts has gathered, and what is left in its queue. -/
structure ContextSearch where
  contextIds : List JsString
  contextAssertionsByFrom : JsString → List Assertion
  queue : List JsString
  assertionsExamined : ℕ

/-- The body of the loop over the assertions from a node; none where a limit is exceeded. -/
def searchStep (fromNodeId : JsString) (s : ContextSearch) (assertion : Assertion) :
    Option ContextSearch :=
  if s.assertionsExamined + 1 > QUERY_LIMITS.lookupAssertionsExamined then none
  else
    let s := { s with assertionsExamined := s.assertionsExamined + 1 }
    if !isContextAssertion P runtime validAt knownAt assertion then some s
    else
      let s := { s with contextAssertionsByFrom := fun id =>
        if id = fromNodeId then s.contextAssertionsByFrom id ++ [assertion]
        else s.contextAssertionsByFrom id }
      if assertion.toNodeId ∈ s.contextIds then some s
      else if s.contextIds.length ≥ QUERY_LIMITS.lookupContextNodes then none
      else some { s with
        contextIds := s.contextIds ++ [assertion.toNodeId]
        queue := s.queue ++ [assertion.toNodeId] }

/-- The search for a number of rounds, each from the first node of the queue. -/
def searchContexts : ℕ → ContextSearch → Option ContextSearch
  | 0, s => some s
  | rounds + 1, s =>
    match s.queue with
    | [] => some s
    | fromNodeId :: queue => do
      let s ← (runtime.outgoingAssertions fromNodeId).foldlM
        (searchStep P runtime validAt knownAt fromNodeId) { s with queue }
      searchContexts rounds s

/-- A node enters the queue with the postal features, or as a new context. -/
def contextsOf (postalFeatures : List Node) : Option ContextSearch :=
  searchContexts P runtime validAt knownAt
    (postalFeatures.length + QUERY_LIMITS.lookupContextNodes)
    ⟨[], fun _ => [], postalFeatures.map (·.id), 0⟩

/-! ## Alternatives -/

structure AlternativeIds where
  postalFeature : Node
  contextIds : List JsString
  assertionIds : List JsString

/-- The key of an alternative: its ids, the contexts in order, with NUL between them. -/
def alternativeKey (postalFeatureId : JsString) (contextIds : List JsString) : JsString :=
  postalFeatureId ++ [0] ++ [0].intercalate (contextIds.insertionSort (· ≤ ·))

def AlternativeIds.key (alternative : AlternativeIds) : JsString :=
  alternativeKey alternative.postalFeature.id alternative.contextIds

structure Alternatives where
  alternativeIds : List AlternativeIds
  alternativeLimitExceeded : Bool

def addAlternative (s : Alternatives) (alternative : AlternativeIds) : Alternatives :=
  let normalized : AlternativeIds := { alternative with
    contextIds := unique alternative.contextIds
    assertionIds := unique alternative.assertionIds }
  if s.alternativeIds.any (·.key = normalized.key) then
    { s with alternativeIds := s.alternativeIds.map fun existing =>
        if existing.key = normalized.key then
          { existing with
            assertionIds := unique (existing.assertionIds ++ alternative.assertionIds) }
        else existing }
  else if s.alternativeIds.length ≥ QUERY_LIMITS.lookupAlternatives then
    { s with alternativeLimitExceeded := true }
  else { s with alternativeIds := s.alternativeIds ++ [normalized] }

/-- Of the assertions from a node. -/
def overlaysOf (outgoing : List Assertion) : List Assertion :=
  outgoing.filter (·.relation = .covered_by_agid)

def hierarchyOf (outgoing : List Assertion) : List Assertion :=
  outgoing.filter fun assertion =>
    assertion.relation = .admin_within || assertion.relation = .part_of

section Walk

variable (contextAssertionsByFrom : JsString → List Assertion) (postalFeature : Node)

/-- The walk from a node, with the levels that are left. -/
def walkContextPaths : ℕ → Alternatives → JsString → List JsString → List JsString →
    List JsString → Alternatives
  | 0, s, _, _, _, _ => { s with alternativeLimitExceeded := true }
  | levels + 1, s, nodeId, pathContextIds, pathAssertionIds, visited =>
    if s.alternativeLimitExceeded then s
    else
      let outgoing := contextAssertionsByFrom nodeId
      let overlays := overlaysOf outgoing
      let overlayContextIds := unique (overlays.map (·.toNodeId))
      let nextContextIds := unique (pathContextIds ++ overlayContextIds)
      let nextAssertionIds := unique (pathAssertionIds ++ overlays.map (·.id))
      let hierarchy := hierarchyOf outgoing
      let s := if hierarchy.any (·.toNodeId ∈ visited) then
        { s with alternativeLimitExceeded := true } else s
      let followed := hierarchy.filter (·.toNodeId ∉ visited)
      if followed = [] then
        addAlternative s ⟨postalFeature, nextContextIds, nextAssertionIds⟩
      else
        (unique (followed.map (·.toNodeId))).foldl (fun s targetId =>
          walkContextPaths levels s targetId (nextContextIds ++ [targetId])
            (nextAssertionIds ++ (followed.filter (·.toNodeId = targetId)).map (·.id))
            (visited ++ targetId :: overlayContextIds)) s

end Walk

/-- The alternatives of the postal features. -/
def lookupAlternatives (contextAssertionsByFrom : JsString → List Assertion)
    (postalFeatures : List Node) : Alternatives :=
  let s := postalFeatures.foldl (fun s postalFeature =>
    walkContextPaths contextAssertionsByFrom postalFeature
      (QUERY_LIMITS.lookupAlternativeDepth + 1) s postalFeature.id [] [] [postalFeature.id])
    ⟨[], false⟩
  if s.alternativeIds.isEmpty then
    (postalFeatures.take QUERY_LIMITS.lookupAlternatives).foldl (fun s postalFeature =>
      addAlternative s ⟨postalFeature, [], []⟩) { s with alternativeLimitExceeded := true }
  else s

/-- The ids that the alternatives have in common, in the order of the first. -/
def commonIds (ids : AlternativeIds → List JsString) (s : Alternatives) : List JsString :=
  match s.alternativeIds with
  | [] => []
  | first :: rest =>
    if s.alternativeLimitExceeded then []
    else (ids first).filter fun id => (first :: rest).all (id ∈ ids ·)

/-! ## The result -/

/-- The geometries of the response, and whether a limit is exceeded. -/
def responseGeometries : List GeometryFeature → List GeometryFeature → ℕ →
    List GeometryFeature × Bool
  | found, [], _ => (found, false)
  | found, feature :: features, positions =>
    if !isPostalContextGeometryEffectiveAt P feature validAt knownAt then
      responseGeometries found features positions
    else
      let positions := positions + geometryPositionCount feature.geometry
      if found.length ≥ QUERY_LIMITS.geometryResponseFeatures
          || positions > QUERY_LIMITS.geometryResponsePositions then (found, true)
      else responseGeometries (found ++ [feature]) features positions

/-- The component of each id, which is that of a node of the pack. -/
def componentsOf (ids : List JsString) : List PublicComponent :=
  ids.filterMap fun id => (runtime.node id).map publicComponent

/-- A result without alternatives. -/
def baseLookup (status : LookupStatus) (normalizedPostalCode : Option JsString)
    (errors warnings : List JsString) : PostalLookupResult where
  status
  countryCode := runtime.countryCode
  normalizedPostalCode
  release := runtime.release
  postalFeatures := []
  contexts := []
  assertionIds := []
  alternatives := []
  geometries := []
  errors
  warnings

def ALTERNATIVES_TRUNCATED := js "postal-context-alternatives-truncated"

def lookupResult (normalizedPostalCode : JsString) (postalFeatures : List Node) (s : Alternatives)
    (includeGeometry : Bool) : PostalLookupResult :=
  let (geometries, geometryLimitExceeded) := if includeGeometry then
    responseGeometries P validAt knownAt []
      ((unique (postalFeatures.map (·.id))).flatMap (postalGeometryOf runtime)) 0
    else ([], false)
  { baseLookup runtime
      (if s.alternativeIds.length = 1 && !s.alternativeLimitExceeded then .unique else .ambiguous)
      (some normalizedPostalCode) []
      (report s.alternativeLimitExceeded ALTERNATIVES_TRUNCATED
        ++ report geometryLimitExceeded (js "postal-geometry-response-limit-exceeded")) with
    postalFeatures := postalFeatures.map publicComponent
    contexts := componentsOf runtime (commonIds (·.contextIds) s)
    assertionIds := commonIds (·.assertionIds) s
    alternatives := s.alternativeIds.map fun alternative =>
      { postalFeature := publicComponent alternative.postalFeature
        contexts := componentsOf runtime alternative.contextIds
        assertionIds := alternative.assertionIds }
    geometries := if geometryLimitExceeded then [] else
      geometries.map (postalGeometryResult runtime) }

variable (normalize : JsString → Option JsString)

/-- The postal features of the pack with a code that is normalized so. -/
def postalByCode (normalizedPostalCode : JsString) : List Node :=
  runtime.pack.graph.nodes.filter fun node =>
    node.kind = .postal_feature
      && ((truthy node.postalCode).bind normalize) = some normalizedPostalCode

/-- `lookupPostalCode`, where `normalize` is `normalizePostalContextPostalCode` for the country. -/
def lookupPostalCode (value : JsString) (includeGeometry : Bool) : PostalLookupResult :=
  let base := baseLookup runtime
  match truthy (normalize value) with
  | none => base .invalid none [js "invalid-postal-code"] []
  | some code =>
    if instantValue P validAt = none || instantValue P knownAt = none then
      base .invalid (some code) [js "invalid-resolution-time"] []
    else if !runtime.releaseEffective P validAt then
      base .no_match (some code) [] [js "release-not-effective-at-request-time"]
    else if (postalByCode runtime normalize code).length > QUERY_LIMITS.postalFeaturesPerCode then
      base .invalid (some code) [js "postal-feature-limit-exceeded"] []
    else match effectivePostalFeatures P runtime validAt knownAt 0
        (postalByCode runtime normalize code) with
      | none => base .invalid (some code) [js "postal-effectiveness-limit-exceeded"] []
      | some [] => base .no_match (some code) [] []
      | some postalFeatures =>
        match contextsOf P runtime validAt knownAt postalFeatures with
        | none => base .invalid (some code) [js "postal-context-limit-exceeded"] []
        | some search =>
          lookupResult P runtime validAt knownAt code postalFeatures
            (lookupAlternatives search.contextAssertionsByFrom postalFeatures) includeGeometry

end Lookup

/-! ## What a lookup is asked for -/

def PostalLookupAlternative.pair (alternative : PostalLookupAlternative) :
    JsString × Finset JsString :=
  (alternative.postalFeature.id, (alternative.contexts.map (·.id)).toFinset)

/-- The errors of a lookup that has met a limit. -/
def LOOKUP_LIMIT_ERRORS : List JsString :=
  [js "postal-feature-limit-exceeded", js "postal-effectiveness-limit-exceeded",
    js "postal-context-limit-exceeded"]

/-- No alternative is reported to be left out. -/
def PostalLookupResult.Untruncated (result : PostalLookupResult) : Prop :=
  (∀ error ∈ LOOKUP_LIMIT_ERRORS, error ∉ result.errors)
    ∧ ALTERNATIVES_TRUNCATED ∉ result.warnings

/-- The same answer, but for the order of what it lists. -/
structure PostalLookupResult.SameAs (result result' : PostalLookupResult) : Prop where
  status : result.status = result'.status
  pairs : ∀ pair, pair ∈ result.alternatives.map (·.pair) ↔ pair ∈ result'.alternatives.map (·.pair)
  contexts : ∀ id, id ∈ result.contexts.map (·.id) ↔ id ∈ result'.contexts.map (·.id)

/-- The same pack, but for the order of its nodes and of its assertions. -/
structure RuntimePack.Reordered (pack pack' : RuntimePack) : Prop where
  nodes : pack.graph.nodes.Perm pack'.graph.nodes
  assertions : pack.graph.assertions.Perm pack'.graph.assertions
  rest : pack' = { pack with graph := { pack.graph with
    nodes := pack'.graph.nodes
    assertions := pack'.graph.assertions } }

section Asked

variable (P : Platform) (runtime : PackRuntime) (normalize : JsString → Option JsString)
  (value validAt knownAt : JsString)

/-- A postal feature of the code that something in force supports, in a release in force. -/
structure IsEffectiveFeature (node : Node) : Prop where
  mem : node ∈ runtime.pack.graph.nodes
  kind : node.kind = .postal_feature
  code : ∃ code, truthy (normalize value) = some code
    ∧ (truthy node.postalCode).bind normalize = some code
  release : runtime.releaseEffective P validAt
  supported : (∃ feature ∈ runtime.pack.geometry.features, eligiblePostalGeometry feature
      ∧ feature.nodeId = node.id ∧ isPostalContextGeometryEffectiveAt P feature validAt knownAt)
    ∨ ∃ assertion ∈ runtime.publicAssertions,
      (assertion.fromNodeId = node.id ∨ assertion.toNodeId = node.id)
        ∧ supportsPostalFeature P runtime validAt knownAt assertion

/-- An assertion of context of one of the relations leads from one node to another. -/
def Leads (relations : List Relation) (fromNodeId toNodeId : JsString) : Prop :=
  ∃ assertion ∈ runtime.publicAssertions,
    isContextAssertion P runtime validAt knownAt assertion ∧ assertion.relation ∈ relations
      ∧ assertion.fromNodeId = fromNodeId ∧ assertion.toNodeId = toNodeId

abbrev LeadsUp := Leads P runtime validAt knownAt [.admin_within, .part_of]

abbrev LeadsToOverlay := Leads P runtime validAt knownAt [.covered_by_agid]

/-- An effective postal feature, and the nodes on a maximal path from it with the overlays that are
met on the way. -/
def IsPair (pair : JsString × Finset JsString) : Prop :=
  ∃ node path, IsEffectiveFeature P runtime normalize value validAt knownAt node
    ∧ Paths.Maximal (LeadsUp P runtime validAt knownAt) node.id path ∧ pair.1 = node.id
    ∧ (pair.2 : Set JsString) = Paths.met (LeadsToOverlay P runtime validAt knownAt) node.id path

/-- The ids of a pair with NUL between them. -/
def joined (pair : JsString × Finset JsString) : JsString :=
  pair.1 ++ [0] ++ [0].intercalate (pair.2.sort (· ≤ ·))

/-- What is joined: an empty text stands for no contexts. -/
def joinedParts (pair : JsString × Finset JsString) : List JsString :=
  pair.1 :: if pair.2 = ∅ then [[]] else pair.2.sort (· ≤ ·)

/-- No two pairs are the same text once their ids are joined. -/
def JoinedApart : Prop :=
  Set.InjOn joined {pair | IsPair P runtime normalize value validAt knownAt pair}

/-- A lookup with nothing left out lists the pairs, each once, and answers by them; the order of the
pack does not matter.  The search before it ends with an empty queue. -/
structure LookupLawful (pack : RuntimePack) (options : RuntimeOptions) (includeGeometry : Bool) :
    Prop where
  ends : ∀ postalFeatures search,
    contextsOf P runtime validAt knownAt postalFeatures = some search → search.queue = []
  pairs : ∀ pair,
    pair ∈ (lookupPostalCode P runtime validAt knownAt normalize value
      includeGeometry).alternatives.map (·.pair)
      ↔ IsPair P runtime normalize value validAt knownAt pair
  distinct : ((lookupPostalCode P runtime validAt knownAt normalize value
    includeGeometry).alternatives.map (·.pair)).Nodup
  unique : (lookupPostalCode P runtime validAt knownAt normalize value includeGeometry).status
      = .unique
    ↔ ∃! pair, IsPair P runtime normalize value validAt knownAt pair
  contexts : ∀ id,
    id ∈ (lookupPostalCode P runtime validAt knownAt normalize value
      includeGeometry).contexts.map (·.id)
      ↔ (∃ pair, IsPair P runtime normalize value validAt knownAt pair)
        ∧ ∀ pair, IsPair P runtime normalize value validAt knownAt pair → id ∈ pair.2
  reordered : ∀ pack' runtime', pack.Reordered pack' →
    PackRuntime.create P pack' options = .ok runtime' →
    (lookupPostalCode P runtime' validAt knownAt normalize value includeGeometry).Untruncated →
    (lookupPostalCode P runtime validAt knownAt normalize value includeGeometry).SameAs
      (lookupPostalCode P runtime' validAt knownAt normalize value includeGeometry)

end Asked

end Agid.PostalContext
