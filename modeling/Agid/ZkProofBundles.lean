import Agid.Lib.History
import Agid.Lib.SortedSet
import Agid.RequestText

/-!
# Bundles of proofs

`analyzeZkProofCompatibility` of `src/lib/zkProofCompatibility.ts`, and the registry of
`src/lib/zkProofBundleRegistry.ts` that asks it.  The proofs are parsed JSON, the members of an
object in the order of `Object.entries`.  A call that throws leaves the registry as it is.  The
metadata of a bundle, which nothing reads, is left out.
-/

namespace Agid.ZkProofBundles

/-- What the registry takes from the platform, and the hash of a text. -/
structure Platform where
  nfkc : Nfkc
  toLowerCase : JsString → JsString
  toUpperCase : JsString → JsString
  dates : Dates
  sha256Hex : JsString → JsString

/-! ## Walking through a proof -/

/-- What `visit` is called with. -/
structure Visit where
  key : JsString
  child : JsonValue
  path : JsString

def itemPath (path : JsString) (i : ℕ) : JsString := path ++ js "[" ++ js (toString i) ++ js "]"

def memberPath (path key : JsString) : JsString := path ++ js "." ++ key

mutual

def visitObject (path : JsString) : JsonValue → List Visit
  | .array items => visitItems path 0 items
  | .object members => visitMembers path members
  | _ => []

def visitItems (path : JsString) (i : ℕ) : List JsonValue → List Visit
  | [] => []
  | child :: items =>
    ⟨js (toString i), child, itemPath path i⟩ :: (visitObject (itemPath path i) child
      ++ visitItems path (i + 1) items)

def visitMembers (path : JsString) : List (JsString × JsonValue) → List Visit
  | [] => []
  | (key, child) :: members =>
    ⟨key, child, memberPath path key⟩ :: (visitObject (memberPath path key) child
      ++ visitMembers path members)

end

inductive NullifierUsage
  | singleUse
  | bucket
  | other
deriving DecidableEq

def NullifierUsage.text : NullifierUsage → JsString
  | singleUse => js "single-use"
  | bucket => js "bucket"
  | other => js "other"

section Walk

variable (P : Platform)

def PUBLIC_PROOF_VALUE_MIN_LENGTH : ℕ := 12

/-- The trimmed text, where the value is a string that is long enough. -/
def publicProofValue : JsonValue → Option JsString
  | .string s => if PUBLIC_PROOF_VALUE_MIN_LENGTH ≤ (trim s).length then some (trim s) else none
  | _ => none

def shouldCollectNullifier (key : JsString) : Bool :=
  includes (P.toLowerCase key) (js "nullifier") && !includes (P.toLowerCase key) (js "algorithm")

def shouldCollectCommitment (key : JsString) : Bool :=
  includes (P.toLowerCase key) (js "commitment") && !includes (P.toLowerCase key) (js "algorithm")

def nullifierUsageForPath (path : JsString) : NullifierUsage :=
  let lowerPath := P.toLowerCase path
  if includes lowerPath (js "requestnullifier") || (js ".nullifier").isSuffixOf lowerPath then
    .singleUse
  else if includes lowerPath (js "bucketnullifier") then .bucket
  else .other

end Walk

/-! ## Descriptors -/

structure ValueReference where
  proofIndex : ℕ
  proofVersion : Option JsString
  /-- The usage of a nullifier, none for a commitment. -/
  usage : Option NullifierUsage
  path : JsString
  value : JsString

structure ZkProofDescriptor where
  index : ℕ
  version : Option JsString
  scope : Option JsString
  challengeHash : Option JsString
  issuedAt : Option JsString
  expiresAt : Option JsString
  issuerId : Option JsString
  zkReady : Bool
  zkpGenerated : Option Bool
  privacyHides : List JsString
  privacyReveals : List JsString
  privateFieldPaths : List JsString
  nullifierRefs : List ValueReference
  commitmentRefs : List ValueReference

structure ValidityWindow where
  issuedAt : Option JsString
  expiresAt : Option JsString
  active : Bool

structure Manifest where
  proofVersions : List JsString
  scopes : List JsString
  challengeHashes : List JsString
  collisionDomains : List JsString
  commonValidityWindow : ValidityWindow

structure CompatibilityResult where
  compatible : Bool
  privacySafe : Bool
  collisionFree : Bool
  commonValidityWindow : ValidityWindow
  proofs : List ZkProofDescriptor
  errors : List JsString
  warnings : List JsString
  manifest : Manifest

structure CompatibilityOptions where
  expectedScope : Option JsString
  expectedChallengeHash : Option JsString
  expectedChallengeHashesByVersion : Option (Record JsString JsString)
  requireSameScope : Bool
  requireSameChallenge : Bool
  requireCommonValidityWindow : Bool
  allowUnknownProofVersions : Bool
  allowDuplicateNullifiers : Bool
  allowSharedCommitments : Bool
  now : Option Moment

def ZK_PROOF_COMPATIBILITY_MANIFEST_VERSION : JsString := js "zk-proof-compatibility-manifest-v1"

def KNOWN_PROOF_VERSIONS : List JsString :=
  ["aoid-ownership-proof-v1", "consent-purpose-scope-proof-v1", "anonymous-rate-limit-proof-v1",
    "address-credential-freshness-proof-v1", "pid-lifecycle-proof-v1", "region-membership-proof-v1",
    "quality-threshold-proof-v1", "private-address-predicate-proof-v1", "address-credential-v1",
    "address-duplicate-nullifier-v1", "pid-issuance-audit-v1"].map js

def SCOPELESS_SUPPORT_PROOF_VERSIONS : List JsString := [js "address-credential-v1"]

def PRIVATE_FIELD_NAMES : List JsString :=
  ["privateProofSalt", "privateMembershipSalt", "privateLifecycleSalt", "privateAuditSalt",
    "privateSalt", "privateIdentityBindingSalt", "identitySubjectId", "identityPrivateSalt",
    "credentialPrivateSalt", "ownerPrivateKey", "ownerNullifierSecret", "privateKeyJwk",
    "localCacheKey", "rawEvidence", "rawCandidates", "rawClusters", "rawValidation", "rawSources",
    "inputAddress", "addressText", "subjectSecret", "deviceSecret", "ownerSecret",
    "userHistory"].map js

section Compatibility

variable (P : Platform)

/-- A letter from A to Z, a digit, a slash or one of `:_.*-`. -/
def isTokenUnit (c : CodeUnit) : Bool :=
  (65 ≤ c.val && c.val ≤ 90) || isDigit c || [58, 95, 46, 42, 47, 45].contains c.val

def normalizeToken (value : JsString) : JsString :=
  let token := replaceRuns (!isTokenUnit ·) 45 false
    (P.toUpperCase (trim (replaceRuns isWhiteSpace 32 false (P.nfkc.normalize value))))
  (token.dropWhile (· = 45)).rdropWhile (· = 45)

def stringOrNull : Option JsonValue → Option JsString
  | some (.string s) => nonEmpty (trim s)
  | _ => none

/-- `parseIsoDate` of a field of a proof, none where it throws. -/
def parseFieldDate : Option JsonValue → Option (Option JsString)
  | none | some .null | some (.string []) => some none
  | some value => do
    let s ← JsonValue.text value
    some ((P.dates.parse s).map P.dates.toISOString)

/-- `parseIsoDate` of a time that a caller gives. -/
def parseIsoDate (value : Option Moment) : Option JsString :=
  (presentTime P.dates value).map P.dates.toISOString

def maxIso : List JsString → Option JsString
  | [] => none
  | value :: values => some (values.foldl (fun best value => if best < value then value else best)
      value)

def minIso : List JsString → Option JsString
  | [] => none
  | value :: values => some (values.foldl (fun best value => if value < best then value else best)
      value)

def uniqueSorted (values : List (Option JsString)) : List JsString :=
  SortedSet.ofList (values.filterMap (·.bind nonEmpty))

/-- The members of an object. -/
def members? : Option JsonValue → Option (List (JsString × JsonValue))
  | some (.object members) => some members
  | _ => none

/-- A member of an object, by a name that every object does not have. -/
def field (value : Option JsonValue) (name : String) : Option JsonValue :=
  (members? value).bind (JsonValue.member (js name))

def getClaim (proof : JsonValue) : JsonValue :=
  match field (some proof) "claim" with
  | some (.object claim) => .object claim
  | _ => proof

/-- The texts of the items of an array, none where one throws. -/
def itemTexts : Option JsonValue → Option (List JsString)
  | some (.array items) => items.mapM fun item => JsonValue.text (some item)
  | _ => some []

def collectPrivateFieldPaths (proof : JsonValue) : List JsString :=
  ((visitObject (js "proof") proof).filter fun v => PRIVATE_FIELD_NAMES.contains v.key).map
    Visit.path

/-- The reference that a visit adds, with a usage for a nullifier. -/
def collectReference (proofIndex : ℕ) (proofVersion : Option JsString) (v : Visit) :
    Option ValueReference := do
  let value ← publicProofValue v.child
  if shouldCollectNullifier P v.key then
    some ⟨proofIndex, proofVersion, some (nullifierUsageForPath P v.path), v.path, value⟩
  else if shouldCollectCommitment P v.key then
    some ⟨proofIndex, proofVersion, none, v.path, value⟩
  else none

def collectValueReferences (proof : JsonValue) (proofIndex : ℕ) (proofVersion : Option JsString) :
    List ValueReference :=
  (visitObject (js "proof") proof).filterMap (collectReference P proofIndex proofVersion)

/-- A descriptor of a proof, none where it throws. -/
def normalizeZkProofDescriptor (proof : JsonValue) (index : ℕ) : Option ZkProofDescriptor := do
  let claim := some (getClaim proof)
  let version := stringOrNull (field claim "version")
  let refs := collectValueReferences P proof index version
  some {
    index
    version
    scope := stringOrNull (field claim "scope")
    challengeHash := stringOrNull (field claim "challengeHash")
    issuedAt := ← parseFieldDate P (field claim "issuedAt")
    expiresAt := ← parseFieldDate P (field claim "expiresAt")
    issuerId := stringOrNull (field (field (some proof) "signature") "issuerId")
    zkReady := JsonValue.same (field (field claim "proofHint") "zkReady") (some (.bool true))
    zkpGenerated :=
      match field (field claim "proofHint") "zkpGenerated" with
      | some (.bool generated) => some generated
      | _ => none
    privacyHides := ← itemTexts (field (field claim "privacy") "hides")
    privacyReveals := ← itemTexts (field (field claim "privacy") "reveals")
    privateFieldPaths := collectPrivateFieldPaths proof
    nullifierRefs := refs.filter (·.usage.isSome)
    commitmentRefs := refs.filter (·.usage.isNone) }

def computeCommonValidityWindow (descriptors : List ZkProofDescriptor) (nowIso : Option JsString) :
    ValidityWindow :=
  let issuedAt := maxIso (descriptors.filterMap (·.issuedAt.bind nonEmpty))
  let expiresAt := minIso (descriptors.filterMap (·.expiresAt.bind nonEmpty))
  { issuedAt
    expiresAt
    active := nowIso.all fun now => issuedAt.all (· ≤ now) && expiresAt.all (now ≤ ·) }

def when (holds : Bool) (text : String) : List JsString := if holds then [js text] else []

/-- `options.expectedChallengeHashesByVersion?.[version]`: a hash, or what every object inherits. -/
def expectedChallengeForVersion (options : CompatibilityOptions) (version : Option JsString) :
    Option (Option JsString) := do
  let version ← version
  let hashes ← options.expectedChallengeHashesByVersion
  match hashes.get? version with
  | some hash => some (some hash)
  | none => if objectPrototype.contains version then some none else none

/-- The errors of one proof, and its warnings. -/
def validateDescriptor (descriptor : ZkProofDescriptor) (options : CompatibilityOptions)
    (nowIso : Option JsString) : List JsString × List JsString :=
  let scopeOptional := descriptor.version.any SCOPELESS_SUPPORT_PROOF_VERSIONS.contains
  let unexpectedScope := (options.expectedScope.bind nonEmpty).any fun expected =>
    match descriptor.scope with
    | some scope => normalizeToken P expected ≠ normalizeToken P scope
    | none => !scopeOptional
  let unexpectedForVersion :=
    match expectedChallengeForVersion options descriptor.version with
    | none => false
    | some none => true
    | some (some hash) => hash ≠ [] && some hash ≠ descriptor.challengeHash
  let unexpectedChallenge := unexpectedForVersion ||
    (options.expectedChallengeHash.bind nonEmpty).any (some · ≠ descriptor.challengeHash)
  ([when descriptor.version.isNone "proof-version-missing",
    when (descriptor.version.any fun version =>
      !KNOWN_PROOF_VERSIONS.contains version && !options.allowUnknownProofVersions)
      "unsupported-proof-version",
    when (descriptor.privateFieldPaths ≠ []) "private-proof-material-present",
    when (!descriptor.zkReady) "zk-proof-not-ready",
    when unexpectedScope "unexpected-proof-scope",
    when unexpectedChallenge "unexpected-proof-challenge",
    when (nowIso.any fun now => descriptor.issuedAt.any (now < ·)) "proof-not-yet-valid",
    when (nowIso.any fun now => descriptor.expiresAt.any (· < now)) "proof-expired"].flatten,
    when (descriptor.zkpGenerated = some false) "zk-proof-currently-simulated")

def validateBundleShape (descriptors : List ZkProofDescriptor) (options : CompatibilityOptions) :
    List JsString :=
  let domainSeparatedChallengeBound := options.expectedChallengeHashesByVersion.isSome
    && descriptors.all fun descriptor => descriptor.challengeHash.any fun hash =>
      expectedChallengeForVersion options descriptor.version = some (some hash)
  if descriptors = [] then [js "no-proofs-provided"]
  else [
    when (options.requireSameScope && 1 < (uniqueSorted (descriptors.map (·.scope))).length)
      "proof-scope-mismatch",
    when (options.requireSameChallenge
      && 1 < (uniqueSorted (descriptors.map (·.challengeHash))).length
      && !domainSeparatedChallengeBound) "proof-challenge-mismatch",
    when (options.requireCommonValidityWindow
      && !(descriptors.all (·.issuedAt.isSome) && descriptors.all (·.expiresAt.isSome)))
      "proof-validity-window-incomplete"].flatten

/-- The references with one value: an error, and whether it is one bucket. -/
def validateCollision (refs : List ValueReference) (options : CompatibilityOptions) :
    List JsString × List JsString :=
  match refs with
  | [] | [_] => ([], [])
  | first :: _ =>
    if refs.any (·.usage.isSome) && refs.any (·.usage.isNone) then
      ([js "cross-role-proof-value-collision"], [])
    else if first.usage.isNone then
      (when (!options.allowSharedCommitments) "shared-commitment-linkability-risk", [])
    else if 1 < refs.countP (·.usage = some .singleUse) && !options.allowDuplicateNullifiers then
      ([js "duplicate-nullifier"], [])
    else if refs.all (·.usage = some .bucket) then
      ([], [js "shared-bucket-nullifier-linkability-risk"])
    else (when (!options.allowDuplicateNullifiers) "duplicate-nullifier", [])

def ValueReference.summary (ref : ValueReference) : JsString :=
  js (toString ref.proofIndex) ++ js ":"
    ++ js (if ref.usage.isSome then "nullifier" else "commitment") ++ js ":" ++ (ref.usage.map NullifierUsage.text).getD (js "commitment") ++ js ":" ++ ref.path

def ZkProofDescriptor.refs (descriptor : ZkProofDescriptor) : List ValueReference :=
  descriptor.nullifierRefs ++ descriptor.commitmentRefs

def collisionDomains (descriptors : List ZkProofDescriptor) : List JsString :=
  descriptors.flatMap fun descriptor => descriptor.refs.map ValueReference.summary

def validateValueCollisions (descriptors : List ZkProofDescriptor)
    (options : CompatibilityOptions) : List JsString × List JsString :=
  let refsByValue : Record JsString (List ValueReference) :=
    (descriptors.flatMap ZkProofDescriptor.refs).foldl
      (fun refs ref => refs.set ref.value ((refs.get? ref.value).getD [] ++ [ref])) .empty
  let found := refsByValue.values.map fun refs => validateCollision refs options
  (found.flatMap Prod.fst, found.flatMap Prod.snd
    ++ when (collisionDomains descriptors = []) "proof-bundle-has-no-collision-domain")

def buildManifest (descriptors : List ZkProofDescriptor) (window : ValidityWindow) : Manifest where
  proofVersions := uniqueSorted (descriptors.map (·.version))
  scopes := uniqueSorted (descriptors.map (·.scope))
  challengeHashes := uniqueSorted (descriptors.map (·.challengeHash))
  collisionDomains := collisionDomains descriptors
  commonValidityWindow := window

/-- None where it throws. -/
def analyzeZkProofCompatibility (proofs : List JsonValue) (options : CompatibilityOptions) :
    Option CompatibilityResult := do
  let nowIso := parseIsoDate P options.now
  let descriptors ← proofs.zipIdx.mapM fun (proof, index) =>
    normalizeZkProofDescriptor P proof index
  let window := computeCommonValidityWindow descriptors nowIso
  let validated := descriptors.map fun descriptor =>
    validateDescriptor P descriptor options nowIso
  let collisions := validateValueCollisions descriptors options
  -- each text once, where it came first
  let errors := (validateBundleShape descriptors options ++ validated.flatMap Prod.fst
    ++ collisions.1 ++ when (options.requireCommonValidityWindow && !window.active)
      "no-common-proof-validity-window").eraseDups
  some {
    compatible := errors = []
    privacySafe := descriptors.all (·.privateFieldPaths = [])
    collisionFree := ["duplicate-nullifier", "cross-role-proof-value-collision",
      "shared-commitment-linkability-risk"].all fun error => !errors.contains (js error)
    commonValidityWindow := window
    proofs := descriptors
    errors
    warnings := (validated.flatMap Prod.snd ++ collisions.2).eraseDups
    manifest := buildManifest descriptors window }

end Compatibility

/-! ## The registry -/

def ZK_PROOF_BUNDLE_REGISTRY_VERSION : JsString := js "zk-proof-bundle-registry-v1"

structure RegistryOptions where
  allowUnknownProofVersions : Option Bool
  allowDuplicateNullifiers : Option Bool
  allowSharedCommitments : Option Bool
  requireSameScope : Option Bool
  requireSameChallenge : Option Bool
  requireCommonValidityWindow : Option Bool

structure RegistrationInput where
  proofs : List JsonValue
  scope : Option JsString
  audience : Option JsString
  operationId : Option JsString
  expectedChallengeHash : Option JsString
  expectedChallengeHashesByVersion : Option (Record JsString JsString)
  now : Option Moment

/-- The usage is that of a nullifier, none for a commitment. -/
structure ValueHash where
  proofIndex : ℕ
  proofVersion : Option JsString
  path : JsString
  usage : Option NullifierUsage
  valueHash : JsString

inductive BundleStatus
  | active
  | revoked
deriving DecidableEq

structure BundleRecord where
  bundleId : JsString
  bundleHash : JsString
  status : BundleStatus
  proofs : List ZkProofDescriptor
  manifest : Manifest
  commonValidityWindow : ValidityWindow
  scope : Option JsString
  audience : Option JsString
  operationId : Option JsString
  registeredAt : JsString
  revokedAt : Option JsString
  revocationReason : Option JsString
  nullifierHashes : List ValueHash
  commitmentHashes : List ValueHash
  warnings : List JsString

inductive RegistrationStatus
  | registered
  | alreadyRegistered
  | rejected
deriving DecidableEq

structure RegistrationResult where
  status : RegistrationStatus
  bundleId : Option JsString
  record : Option BundleRecord
  compatibility : CompatibilityResult
  errors : List JsString
  warnings : List JsString

inductive VerificationStatus
  | valid
  | invalid
  | missing
deriving DecidableEq

structure VerificationResult where
  status : VerificationStatus
  valid : Bool
  bundleId : JsString
  record : Option BundleRecord
  errors : List JsString
  warnings : List JsString

structure Registry where
  recordsByBundleId : Record JsString BundleRecord
  singleUseNullifierHashes : List JsString
  bucketNullifierHashes : List JsString

def Registry.empty : Registry := ⟨.empty, [], []⟩

section Registry

variable (P : Platform)

def normalizeText (value : Option JsString) : Option JsString :=
  nonEmpty (trim (P.nfkc.normalize (value.getD [])))

def normalizeIsoDate (value : Option Moment) (clock : ℤ) : JsString :=
  P.dates.toISOString ((presentTime P.dates value).getD clock)

def getProofVersion (proof : JsonValue) : Option JsString :=
  stringOrNull (field (some (getClaim proof)) "version")

def hashProofValue (domain value : JsString) : JsString :=
  P.sha256Hex (ZK_PROOF_BUNDLE_REGISTRY_VERSION ++ js ":" ++ domain ++ js ":" ++ value)

/-- The reference that a visit adds, with the value by its hash. -/
def collectHash (proofIndex : ℕ) (proofVersion : Option JsString) (v : Visit) : Option ValueHash :=
  (collectReference P proofIndex proofVersion v).map fun ref =>
    ⟨ref.proofIndex, ref.proofVersion, ref.path, ref.usage,
      hashProofValue P (js (if ref.usage.isSome then "nullifier" else "commitment")) ref.value⟩

def collectHashedProofValues (proofs : List JsonValue) : List ValueHash :=
  proofs.zipIdx.flatMap fun (proof, proofIndex) =>
    (visitObject (js "proof") proof).filterMap (collectHash P proofIndex (getProofVersion proof))

def nullifierHashes (proofs : List JsonValue) : List ValueHash :=
  (collectHashedProofValues P proofs).filter (·.usage.isSome)

def commitmentHashes (proofs : List JsonValue) : List ValueHash :=
  (collectHashedProofValues P proofs).filter (·.usage.isNone)

def createCompatibilityOptions (input : RegistrationInput) (options : RegistryOptions) :
    CompatibilityOptions where
  expectedScope := input.scope
  expectedChallengeHash := input.expectedChallengeHash
  expectedChallengeHashesByVersion := input.expectedChallengeHashesByVersion
  requireSameScope := options.requireSameScope.getD true
  requireSameChallenge := options.requireSameChallenge.getD true
  requireCommonValidityWindow := options.requireCommonValidityWindow.getD true
  allowUnknownProofVersions := options.allowUnknownProofVersions.getD false
  allowDuplicateNullifiers := options.allowDuplicateNullifiers.getD false
  allowSharedCommitments := options.allowSharedCommitments.getD false
  now := input.now

def orNull (value : Option JsString) : JsonValue := (value.map JsonText.Value.string).getD .null

def strings (values : List JsString) : JsonValue := .array (values.map .string)

def ValueHash.json (hash : ValueHash) : JsonValue :=
  .object ([(js "path", .string hash.path), (js "proofIndex", .number (.int hash.proofIndex)),
      (js "proofVersion", orNull hash.proofVersion)]
    ++ (hash.usage.map fun usage => (js "usage", .string usage.text)).toList
    ++ [(js "valueHash", .string hash.valueHash)])

/-- The manifest, the names of its fields in their order. -/
def Manifest.json (manifest : Manifest) : JsonValue :=
  .object [
    (js "challengeHashes", strings manifest.challengeHashes),
    (js "collisionDomains", strings manifest.collisionDomains),
    (js "commonValidityWindow", .object [
      (js "active", .bool manifest.commonValidityWindow.active),
      (js "expiresAt", orNull manifest.commonValidityWindow.expiresAt),
      (js "issuedAt", orNull manifest.commonValidityWindow.issuedAt)]),
    (js "proofVersions", strings manifest.proofVersions),
    (js "scopes", strings manifest.scopes),
    (js "version", .string ZK_PROOF_COMPATIBILITY_MANIFEST_VERSION)]

def bundleHash (manifest : Manifest) (scope audience operationId : Option JsString)
    (nullifierHashes commitmentHashes : List ValueHash) : JsString :=
  P.sha256Hex (stringify (.object [
    (js "audience", orNull audience),
    (js "commitmentHashes", .array (commitmentHashes.map ValueHash.json)),
    (js "manifest", manifest.json),
    (js "nullifierHashes", .array (nullifierHashes.map ValueHash.json)),
    (js "operationId", orNull operationId),
    (js "registryVersion", .string ZK_PROOF_BUNDLE_REGISTRY_VERSION),
    (js "scope", orNull scope)]))

def bundleIdOf (bundleHash : JsString) : JsString :=
  js "ZKB-" ++ P.toUpperCase (bundleHash.take 24)

/-- A set with the hashes added to it. -/
def addHashes (set hashes : List JsString) : List JsString :=
  hashes.foldl (fun set hash => if set.contains hash then set else set ++ [hash]) set

def isBucket (hash : ValueHash) : Bool := hash.usage = some .bucket

/-- None where it throws. -/
def registerBundle (options : RegistryOptions) (clock : ℤ) (registry : Registry)
    (input : RegistrationInput) : Option (Registry × RegistrationResult) := do
  let compatibility ← analyzeZkProofCompatibility P input.proofs
    (createCompatibilityOptions input options)
  let nullifiers := nullifierHashes P input.proofs
  let commitments := commitmentHashes P input.proofs
  let scope := normalizeText P input.scope
  let audience := normalizeText P input.audience
  let operationId := normalizeText P input.operationId
  let hash := bundleHash P compatibility.manifest scope audience operationId nullifiers commitments
  let bundleId := bundleIdOf P hash
  let rejected (errors : List JsString) : RegistrationResult :=
    ⟨.rejected, none, none, compatibility, errors.eraseDups, compatibility.warnings⟩
  match registry.recordsByBundleId.get? bundleId with
  | some record =>
    some (registry, ⟨.alreadyRegistered, some bundleId, some record, compatibility,
      compatibility.errors, compatibility.warnings⟩)
  | none =>
    if !compatibility.compatible || !compatibility.privacySafe || !compatibility.collisionFree then
      some (registry, rejected compatibility.errors)
    else if (nullifiers.filter (!isBucket ·)).any fun hash =>
        registry.singleUseNullifierHashes.contains hash.valueHash then
      some (registry, rejected (compatibility.errors ++ [js "single-use-nullifier-reused"]))
    else
      let record : BundleRecord := {
        bundleId
        bundleHash := hash
        status := .active
        proofs := compatibility.proofs
        manifest := compatibility.manifest
        commonValidityWindow := compatibility.commonValidityWindow
        scope
        audience
        operationId
        registeredAt := normalizeIsoDate P input.now clock
        revokedAt := none
        revocationReason := none
        nullifierHashes := nullifiers
        commitmentHashes := commitments
        warnings := compatibility.warnings }
      some ({
          recordsByBundleId := registry.recordsByBundleId.set bundleId record
          singleUseNullifierHashes := addHashes registry.singleUseNullifierHashes
            ((nullifiers.filter (!isBucket ·)).map ValueHash.valueHash)
          bucketNullifierHashes := addHashes registry.bucketNullifierHashes
            ((nullifiers.filter isBucket).map ValueHash.valueHash) },
        ⟨.registered, some bundleId, some record, compatibility, [], compatibility.warnings⟩)

def verifyBundle (clock : ℤ) (registry : Registry) (bundleId : Option JsString)
    (now : Option Moment) : VerificationResult :=
  let normalizedBundleId := (normalizeText P bundleId).getD []
  match registry.recordsByBundleId.get? normalizedBundleId with
  | none => ⟨.missing, false, normalizedBundleId, none, [js "bundle-not-found"], []⟩
  | some record =>
    let nowIso := normalizeIsoDate P now clock
    let issuedAt := parseIsoDate P (record.commonValidityWindow.issuedAt.map .text)
    let expiresAt := parseIsoDate P (record.commonValidityWindow.expiresAt.map .text)
    let errors := [
      when (record.status = .revoked) "bundle-revoked",
      when (issuedAt.any (nowIso < ·)) "bundle-not-yet-valid",
      when (expiresAt.any (· < nowIso)) "bundle-expired"].flatten
    { status := if errors = [] then .valid else .invalid
      valid := errors = []
      bundleId := record.bundleId
      record := some record
      errors
      warnings := record.warnings }

def BundleRecord.revoke (record : BundleRecord) (revokedAt reason : JsString) : BundleRecord :=
  { record with
    status := .revoked
    revokedAt := some revokedAt
    revocationReason := some reason }

def revokeBundle (clock : ℤ) (registry : Registry) (bundleId : Option JsString)
    (reason : JsString) (revokedAt : Option Moment) : Registry × Bool :=
  match (bundleId.bind nonEmpty).bind registry.recordsByBundleId.get? with
  | none => (registry, false)
  | some record =>
    ({ registry with
      recordsByBundleId := registry.recordsByBundleId.set (bundleId.getD [])
        (record.revoke (normalizeIsoDate P revokedAt clock)
          ((normalizeText P (some reason)).getD (js "unspecified"))) }, true)

end Registry

/-! ## Runs -/

inductive Call
  | register (input : RegistrationInput)
  | revoke (bundleId : Option JsString) (reason : JsString) (revokedAt : Option Moment)
  | verify (bundleId : Option JsString) (now : Option Moment)

/-- The registration is none where it throws. -/
inductive Reply
  | registration (result : Option RegistrationResult)
  | revocation (found : Bool)
  | verification (result : VerificationResult)

/-- A call with the time of the clock. -/
structure Event where
  clock : ℤ
  call : Call

def answer (P : Platform) (options : RegistryOptions) (registry : Registry) (e : Event) :
    Registry × Reply :=
  match e.call with
  | .register input =>
    match registerBundle P options e.clock registry input with
    | some (registry, result) => (registry, .registration (some result))
    | none => (registry, .registration none)
  | .revoke bundleId reason revokedAt =>
    let (registry, found) := revokeBundle P e.clock registry bundleId reason revokedAt
    (registry, .revocation found)
  | .verify bundleId now => (registry, .verification (verifyBundle P e.clock registry bundleId now))

/-- The calls from an empty registry, each with the registry it found. -/
def Run (P : Platform) (options : RegistryOptions) :
    History.Past Registry Event → Registry → Prop :=
  History.Run (fun registry e => some (answer P options registry e).1) .empty

/-! ## What the registry is for -/

section Purpose

variable (P : Platform)

/-- Where a string that is long enough stands, and whether its own key names a nullifier. -/
structure Position where
  path : JsString
  value : JsString
  named : Bool

def Position.usage (p : Position) : NullifierUsage := nullifierUsageForPath P p.path

mutual

/-- The positions under a key that names a nullifier, at any depth, or all of them where the value
is inside of such a key. -/
def positions (inside : Bool) (path : JsString) : JsonValue → List Position
  | .array items => itemPositions inside path 0 items
  | .object members => memberPositions inside path members
  | _ => []

def itemPositions (inside : Bool) (path : JsString) (i : ℕ) : List JsonValue → List Position
  | [] => []
  | child :: items =>
    let named := shouldCollectNullifier P (js (toString i))
    let here := if inside || named then publicProofValue child else none
    (here.map fun value => ⟨itemPath path i, value, named⟩).toList
      ++ positions (inside || named) (itemPath path i) child
      ++ itemPositions inside path (i + 1) items

def memberPositions (inside : Bool) (path : JsString) : List (JsString × JsonValue) → List Position
  | [] => []
  | (key, child) :: members =>
    let named := shouldCollectNullifier P key
    let here := if inside || named then publicProofValue child else none
    (here.map fun value => ⟨memberPath path key, value, named⟩).toList
      ++ positions (inside || named) (memberPath path key) child
      ++ memberPositions inside path members

end

/-- The positions of a bundle: those of nullifiers, or everywhere. -/
def bundlePositions (everywhere : Bool) (proofs : List JsonValue) : List Position :=
  proofs.flatMap (positions P everywhere (js "proof"))

/-- A value stands under a key that names a nullifier, and its path is not that of a bucket. -/
def Guarded (proofs : List JsonValue) (value : JsString) : Prop :=
  ∃ p ∈ bundlePositions P false proofs, p.value = value ∧ p.named = true ∧ p.usage P ≠ .bucket

/-- No value at a single-use position of the first bundle stands in the second one. -/
def Unreplayed (everywhere : Bool) (first second : List JsonValue) : Prop :=
  ∀ p ∈ bundlePositions P false first, p.usage P = .singleUse →
    ∀ q ∈ bundlePositions P everywhere second, p.value ≠ q.value

/-- A value at a single-use position of the first bundle that stands in the second one is guarded in
both. -/
def GuardedBoth (everywhere : Bool) (first second : List JsonValue) : Prop :=
  ∀ p ∈ bundlePositions P false first, p.usage P = .singleUse →
    ∀ q ∈ bundlePositions P everywhere second, p.value = q.value →
      Guarded P first p.value ∧ Guarded P second p.value

variable (options : RegistryOptions)

/-- The proofs that a call gives to the registry. -/
def Event.proofs? (e : Event) : Option (List JsonValue) :=
  match e.call with
  | .register input => some input.proofs
  | _ => none

def accepts (registry : Registry) (e : Event) : Bool :=
  match (answer P options registry e).2 with
  | .registration (some result) => result.status = .registered
  | _ => false

def revokes (registry : Registry) (e : Event) (bundleId : JsString) : Prop :=
  (answer P options registry e).2 = .revocation true
    ∧ ∃ reason revokedAt, e.call = .revoke (some bundleId) reason revokedAt

/-- Of two calls, the later one first: no value of a bundle that one of them has accepted is used
again in the bundle of the other, and no bundle that the earlier one has revoked is valid. -/
structure Protects (everywhere : Bool) (later earlier : Registry × Event) : Prop where
  once : accepts P options later.1 later.2 → accepts P options earlier.1 earlier.2 →
    ∀ proofs ∈ later.2.proofs?, ∀ proofs' ∈ earlier.2.proofs?,
      Unreplayed P everywhere proofs proofs' ∧ Unreplayed P everywhere proofs' proofs
  revoked : ∀ bundleId, revokes P options earlier.1 earlier.2 bundleId →
    ∀ bundleId' now, later.2.call = .verify bundleId' now →
      normalizeText P bundleId' = some bundleId →
        (verifyBundle P later.2.clock later.1 bundleId' now).valid = false

/-- Of two calls, the values that their bundles share are guarded. -/
def SharesGuarded (everywhere : Bool) (later earlier : Registry × Event) : Prop :=
  ∀ proofs ∈ later.2.proofs?, ∀ proofs' ∈ earlier.2.proofs?,
    GuardedBoth P everywhere proofs proofs' ∧ GuardedBoth P everywhere proofs' proofs

end Purpose

end Agid.ZkProofBundles
