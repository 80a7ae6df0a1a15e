import Agid.RequestText

/-!
# The trust registry of credential issuers

`evaluateCredentialIssuerTrust` and `buildRegistryRoot` of
`src/lib/credentialIssuerTrustRegistry.ts`, for a registry document that a caller hands in.  The
document's counts, its chain commitment, its own errors and warnings, and the parts of a credential
that the evaluation does not read, are left out.
-/

namespace Agid.IssuerTrust

/-- What the evaluation takes from the platform.  `numberValue` is the double that a number of a
document is read as, and `sha256Hex` has the digits of the hash of bytes. -/
structure Platform where
  nfkc : Nfkc
  toUpperCase : JsString → JsString
  toUpperCase_nil : toUpperCase [] = []
  dates : Dates
  numberValue : JsonNumber → JsNumber
  sha256Hex : List UInt8 → JsString

structure CredentialIssuerTrustRecord where
  issuerId : JsString
  issuerDid : JsString
  status : JsString
  trustLevel : JsString
  credentialTypes : List JsString
  claimKinds : List JsString
  layers : List JsString
  countryCodes : List JsString
  regionCodes : List JsString
  schemaHashes : List JsString
  policyVersions : List JsString
  keyCommitments : List JsString
  publicAttestationRefs : List JsString
  trustScore : JsonNumber
  validFrom : Option JsString
  validUntil : Option JsString
  sourceIds : List JsString
deriving DecidableEq

structure CredentialIssuerTrustPolicy where
  allowedStatuses : List JsString
  minimumTrustScore : JsonNumber
  requireValidWindow : Bool
  requireCredentialScopeMatch : Bool

structure CredentialIssuerTrustRegistrySnapshot where
  registryId : JsString
  registryVersion : JsString
  registryRoot : JsString
  trustPolicy : CredentialIssuerTrustPolicy
  trustPolicyHash : JsString
  generatedAt : JsString
  issuerRecords : List CredentialIssuerTrustRecord
  anchorable : Bool

structure AddressCredentialClaim where
  version : Option JsString
  claimKind : Option JsString
  layer : Option JsString
  countryCode : Option JsString
  policyVersion : Option JsString

structure Credential where
  claim : Option AddressCredentialClaim
  /-- `credential?.signature?.issuerId`. -/
  issuerId : Option JsString

structure CredentialIssuerTrustEvaluationOptions where
  now : Option Moment
  credentialType : Option JsString
  requiredClaimKind : Option JsString
  requiredLayer : Option JsString
  requiredCountryCode : Option JsString
  requiredSchemaHash : Option JsString
  minimumTrustScore : Option JsonNumber
  allowedIssuerStatuses : Option (List JsString)
  trustedRegistryRoots : Option (List JsString)
  maxRegistryAgeSeconds : Option JsNumber

structure CredentialIssuerTrustEvaluation where
  trusted : Bool
  issuer : Option CredentialIssuerTrustRecord
  registryRootTrusted : Bool
  errors : List JsString
  warnings : List JsString

section Evaluation

variable (P : Platform)

/-! ## The root -/

def stringsJson (values : List JsString) : JsonValue := .array (values.map .string)

def CredentialIssuerTrustRecord.json (record : CredentialIssuerTrustRecord) : JsonValue :=
  .object [(js "claimKinds", stringsJson record.claimKinds),
    (js "countryCodes", stringsJson record.countryCodes),
    (js "credentialTypes", stringsJson record.credentialTypes),
    (js "issuerDid", .string record.issuerDid), (js "issuerId", .string record.issuerId),
    (js "keyCommitments", stringsJson record.keyCommitments),
    (js "layers", stringsJson record.layers),
    (js "policyVersions", stringsJson record.policyVersions),
    (js "publicAttestationRefs", stringsJson record.publicAttestationRefs),
    (js "regionCodes", stringsJson record.regionCodes),
    (js "schemaHashes", stringsJson record.schemaHashes),
    (js "sourceIds", stringsJson record.sourceIds), (js "status", .string record.status),
    (js "trustLevel", .string record.trustLevel), (js "trustScore", .number record.trustScore),
    (js "validFrom", record.validFrom.elim .null .string),
    (js "validUntil", record.validUntil.elim .null .string)]

def buildRegistryRoot (registryId registryVersion trustPolicyHash : JsString)
    (issuerRecords : List CredentialIssuerTrustRecord) : JsString :=
  P.sha256Hex (textEncode (stringify (.object [
    (js "algorithm", .string (js "sha256-credential-issuer-trust-registry-v1")),
    (js "issuerRecords", .array (issuerRecords.map CredentialIssuerTrustRecord.json)),
    (js "kind", .string (js "credential-issuer-trust-registry-root")),
    (js "registryId", .string registryId), (js "registryVersion", .string registryVersion),
    (js "trustPolicyHash", .string trustPolicyHash)])))

/-- The root that the document's own issuers have. -/
def recomputedRoot (snapshot : CredentialIssuerTrustRegistrySnapshot) : JsString :=
  buildRegistryRoot P snapshot.registryId snapshot.registryVersion snapshot.trustPolicyHash
    snapshot.issuerRecords

/-! ## The evaluation -/

def normalizeText (value : Option JsString) : JsString :=
  trim (replaceRuns isWhiteSpace 32 false (P.nfkc.normalize (value.getD [])))

def normalizeCountryCode (value : Option JsString) : JsString :=
  P.toUpperCase (normalizeText P value)

def normalizeIsoDateWithFallback (value : Option Moment) (clock : ℤ) : JsString :=
  P.dates.toISOString ((presentTime P.dates value).getD clock)

def isBefore (leftIso rightIso : JsString) : Bool :=
  match P.dates.parse leftIso, P.dates.parse rightIso with
  | some left, some right => left < right
  | _, _ => false

def isBeforeOrEqual (leftIso rightIso : JsString) : Bool :=
  match P.dates.parse leftIso, P.dates.parse rightIso with
  | some left, some right => left ≤ right
  | _, _ => false

def includesValue (values : List JsString) (value : JsString) : Bool :=
  values = [] || value ∈ values

/-- `x < y`. -/
def lessThan : JsNumber → JsNumber → Bool
  | .finite x, .finite y => x < y
  | .negInfinity, .finite _ => true
  | .negInfinity, .infinity => true
  | .finite _, .infinity => true
  | _, _ => false

/-- `ageMs > Math.max(0, seconds) * 1000`. -/
def olderThan (ageMs : Option ℤ) (seconds : JsNumber) : Bool :=
  match ageMs, seconds with
  | some age, .finite q => max 0 q * 1000 < age
  | some age, .negInfinity => 0 < age
  | _, _ => false

/-- `new Date(leftIso).getTime() - new Date(rightIso).getTime()`, none for `NaN`. -/
def ageMs (leftIso rightIso : JsString) : Option ℤ := do
  some ((← P.dates.parse leftIso) - (← P.dates.parse rightIso))

def isStale (snapshot : CredentialIssuerTrustRegistrySnapshot)
    (options : CredentialIssuerTrustEvaluationOptions) (nowIso : JsString) : Bool :=
  options.maxRegistryAgeSeconds.any (olderThan (ageMs P nowIso snapshot.generatedAt))

/-- A text that must be in a list, unless it is empty or the list is. -/
def notIn (values : List JsString) (required : JsString) : Bool :=
  required ≠ [] && !includesValue values required

def isNotYetValid (issuer : CredentialIssuerTrustRecord) (nowIso : JsString) : Bool :=
  (issuer.validFrom.bind nonEmpty).any (isBefore P nowIso)

def isExpired (issuer : CredentialIssuerTrustRecord) (nowIso : JsString) : Bool :=
  (issuer.validUntil.bind nonEmpty).any fun validUntil => isBeforeOrEqual P validUntil nowIso

/-- The errors about the document and its root. -/
def registryErrors (snapshot : CredentialIssuerTrustRegistrySnapshot)
    (options : CredentialIssuerTrustEvaluationOptions) (nowIso issuerId : JsString) :
    List JsString :=
  (if snapshot.anchorable then [] else [js "trust-registry-not-anchorable"])
    ++ (if options.trustedRegistryRoots.all (snapshot.registryRoot ∈ ·) then []
        else [js "trust-registry-root-not-trusted"])
    ++ (if isStale P snapshot options nowIso then [js "trust-registry-stale"] else [])
    ++ if issuerId = [] then [js "credential-issuer-id-missing"] else []

/-- The errors about the issuer's record. -/
def issuerErrors (credential : Credential) (snapshot : CredentialIssuerTrustRegistrySnapshot)
    (options : CredentialIssuerTrustEvaluationOptions) (nowIso : JsString)
    (issuer : CredentialIssuerTrustRecord) : List JsString :=
  let policy := snapshot.trustPolicy
  let claim (field : AddressCredentialClaim → Option JsString) := credential.claim.bind field
  let minimumTrustScore := options.minimumTrustScore.getD policy.minimumTrustScore
  let credentialType := normalizeText P (some ((options.credentialType.or (claim (·.version))).getD
    (js "address-credential-v1")))
  let checks : List (Bool × String) :=
    [(issuer.status ∉ options.allowedIssuerStatuses.getD policy.allowedStatuses,
        "issuer-not-trusted"),
      (lessThan (P.numberValue issuer.trustScore) (P.numberValue minimumTrustScore),
        "issuer-trust-score-too-low"),
      (policy.requireValidWindow && isNotYetValid P issuer nowIso, "issuer-trust-not-yet-valid"),
      (policy.requireValidWindow && isExpired P issuer nowIso, "issuer-trust-expired"),
      (policy.requireCredentialScopeMatch && !includesValue issuer.credentialTypes credentialType,
        "issuer-credential-type-not-allowed"),
      (notIn issuer.claimKinds ((options.requiredClaimKind.or (claim (·.claimKind))).getD []),
        "issuer-claim-kind-not-allowed"),
      (notIn issuer.layers ((options.requiredLayer.or (claim (·.layer))).getD []),
        "issuer-layer-not-allowed"),
      (notIn issuer.countryCodes
          (normalizeCountryCode P (options.requiredCountryCode.or (claim (·.countryCode)))),
        "issuer-country-not-allowed"),
      (notIn issuer.schemaHashes (normalizeText P options.requiredSchemaHash),
        "issuer-schema-not-allowed"),
      (notIn issuer.policyVersions (normalizeText P (claim (·.policyVersion))),
        "issuer-policy-version-not-allowed")]
  (checks.filter (·.1)).map fun check => js check.2

/-- With the clock of the call. -/
def evaluateCredentialIssuerTrust (credential : Credential)
    (snapshot : CredentialIssuerTrustRegistrySnapshot)
    (options : CredentialIssuerTrustEvaluationOptions) (clock : ℤ) :
    CredentialIssuerTrustEvaluation :=
  let nowIso := normalizeIsoDateWithFallback P options.now clock
  let issuerId := normalizeText P credential.issuerId
  let registryRootTrusted := options.trustedRegistryRoots.all (snapshot.registryRoot ∈ ·)
  let errors := registryErrors P snapshot options nowIso issuerId
  match snapshot.issuerRecords.find? (·.issuerId = issuerId) with
  | none =>
    { trusted := false
      issuer := none
      registryRootTrusted
      errors := (errors ++ [js "issuer-not-registered"]).eraseDups
      warnings := [] }
  | some issuer =>
    let errors := errors ++ issuerErrors P credential snapshot options nowIso issuer
    { trusted := errors = []
      issuer := some issuer
      registryRootTrusted
      errors := errors.eraseDups
      warnings := if issuer.keyCommitments = [] then
        [js "issuer-key-commitment-not-published"] else [] }

/-! ## Roots that bind -/

/-- Whoever trusts only the roots he names is told of a trusted issuer only where the document's
issuers have one of these roots, and the record is one of them. -/
def Binds (snapshot : CredentialIssuerTrustRegistrySnapshot) : Prop :=
  ∀ credential options clock roots, options.trustedRegistryRoots = some roots → roots ≠ [] →
    (evaluateCredentialIssuerTrust P credential snapshot options clock).trusted →
    recomputedRoot P snapshot ∈ roots
      ∧ ∃ issuer ∈ snapshot.issuerRecords,
        (evaluateCredentialIssuerTrust P credential snapshot options clock).issuer = some issuer

/-- Some issuer of the document can be found by its identifier, is valid at some time and has a
credential type that can be asked for. -/
def Reportable (snapshot : CredentialIssuerTrustRegistrySnapshot) : Prop :=
  snapshot.anchorable ∧ ∃ id issuer, normalizeText P id ≠ []
    ∧ snapshot.issuerRecords.find? (·.issuerId = normalizeText P id) = some issuer
    ∧ (snapshot.trustPolicy.requireValidWindow → ∃ now clock,
      isNotYetValid P issuer (normalizeIsoDateWithFallback P now clock) = false
        ∧ isExpired P issuer (normalizeIsoDateWithFallback P now clock) = false)
    ∧ (snapshot.trustPolicy.requireCredentialScopeMatch → ∃ credentialType,
      includesValue issuer.credentialTypes (normalizeText P (some credentialType)))

end Evaluation

end Agid.IssuerTrust
