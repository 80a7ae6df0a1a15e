import Agid.IssuerTrust

/-!
# Address credentials and the scopes of their issuers

`verifyAddressCredential` of `src/lib/addressCredential.ts`, and
`verifyAddressCredentialWithIssuerTrust` of `src/lib/credentialIssuerTrustRegistry.ts`, which asks
the registry about the issuer as well.  A credential is a document that a caller hands in, so its
enumerations are texts.
-/

namespace Agid.AddressCredential

open IssuerTrust (normalizeText normalizeCountryCode notIn stringsJson lessThan
  CredentialIssuerTrustRecord CredentialIssuerTrustRegistrySnapshot CredentialIssuerTrustEvaluation
  evaluateCredentialIssuerTrust)

/-- `verifyHmacSha256` has the secret, the payload and the signature. -/
structure Platform extends IssuerTrust.Platform where
  verifyHmacSha256 : JsString → JsString → JsString → Bool
  sha256Base64Url : List UInt8 → JsString

def ADDRESS_CREDENTIAL_VERSION : JsString := js "address-credential-v1"

def ADDRESS_COMMITMENT_ALGORITHM : JsString := js "sha256-address-commitment-v1"

def ADDRESS_CREDENTIAL_SIGNATURE_ALGORITHM : JsString := js "HMAC-SHA-256"

structure AddressCredentialProofHint where
  zkReady : Bool
  zkpGenerated : Bool
  statement : JsString

structure AddressCredentialClaim where
  version : JsString
  subjectId : JsString
  layer : JsString
  claimKind : JsString
  assuranceLevel : JsString
  countryCode : Option JsString
  postalCodeHash : Option JsString
  addressCommitment : JsString
  commitmentAlgorithm : JsString
  evidenceCommitmentRefs : List JsString
  qualityBand : JsString
  verificationStatus : JsString
  verificationScore : JsonNumber
  sourceIds : List JsString
  issuedAt : JsString
  expiresAt : Option JsString
  policyVersion : Option JsString
  proofHint : AddressCredentialProofHint

structure AddressCredentialSignature where
  algorithm : JsString
  issuerId : JsString
  value : JsString

structure AddressCredentialEnvelope where
  claim : AddressCredentialClaim
  signature : AddressCredentialSignature
  privateSalt : Option JsString

/-- The text of a field of an address, none for `undefined` and `null`. -/
abbrev Address := JsString → Option JsString

structure VerifyAddressCredentialOptions where
  issuerSecret : Option JsString
  issuerId : Option JsString
  now : Option Moment
  expectedLayer : Option JsString
  requiredClaimKind : Option JsString
  minimumAssuranceLevel : Option JsString
  minimumScore : Option JsNumber
  allowedStatuses : Option (List JsString)
  address : Option Address
  privateSalt : Option JsString

structure AddressCredentialVerificationResult where
  valid : Bool
  signatureValid : Option Bool
  expired : Bool
  addressMatches : Option Bool
  warnings : List JsString
  errors : List JsString

/-! ## Texts -/

/-- The claim with its keys in the order of `stableStringify`. -/
def AddressCredentialClaim.json (claim : AddressCredentialClaim) : JsonValue :=
  .object ([(js "addressCommitment", .string claim.addressCommitment),
      (js "assuranceLevel", .string claim.assuranceLevel),
      (js "claimKind", .string claim.claimKind),
      (js "commitmentAlgorithm", .string claim.commitmentAlgorithm),
      (js "countryCode", claim.countryCode.elim .null .string),
      (js "evidenceCommitmentRefs", stringsJson claim.evidenceCommitmentRefs)]
    ++ (claim.expiresAt.map fun expiresAt => (js "expiresAt", .string expiresAt)).toList
    ++ [(js "issuedAt", .string claim.issuedAt), (js "layer", .string claim.layer)]
    ++ (claim.policyVersion.map fun version => (js "policyVersion", .string version)).toList
    ++ [(js "postalCodeHash", claim.postalCodeHash.elim .null .string),
      (js "proofHint", .object [(js "statement", .string claim.proofHint.statement),
        (js "zkReady", .bool claim.proofHint.zkReady),
        (js "zkpGenerated", .bool claim.proofHint.zkpGenerated)]),
      (js "qualityBand", .string claim.qualityBand),
      (js "sourceIds", stringsJson claim.sourceIds),
      (js "subjectId", .string claim.subjectId),
      (js "verificationScore", .number claim.verificationScore),
      (js "verificationStatus", .string claim.verificationStatus),
      (js "version", .string claim.version)])

def credentialSigningPayload (claim : AddressCredentialClaim) : JsString := stringify claim.json

/-- `ADDRESS_FIELDS`, in the order of `stableStringify`. -/
def ADDRESS_FIELDS : List JsString :=
  ["building", "city", "country", "country_code", "district", "house_number", "plus_code", "poi",
    "postcode", "road", "state", "subdistrict", "suburb"].map js

section Verify

variable (P : Platform)

def normalizePostcode (value : JsString) : JsString :=
  replaceRuns isWhiteSpace 32 false (P.toUpperCase value)

/-- The value of a field in the normalized address, none when it is empty. -/
def normalizeField (address : Address) (field : JsString) : Option JsString :=
  (nonEmpty (normalizeText P.toPlatform (address field))).map fun value =>
    if field = js "country_code" then P.toUpperCase value
    else if field = js "postcode" then normalizePostcode P value
    else value

def normalizeCredentialAddress (address : Address) : List (JsString × JsString) :=
  ADDRESS_FIELDS.filterMap fun field =>
    (normalizeField P address field).map fun value => (field, value)

/-- `createAddressCommitment(address, privateSalt).commitment`. -/
def createAddressCommitment (address : Address) (privateSalt : JsString) : JsString :=
  let payload := stringify (.object ((normalizeCredentialAddress P address).map fun entry =>
    (entry.1, .string entry.2)))
  let addressHash := P.sha256Base64Url (textEncode payload)
  P.sha256Base64Url (textEncode (ADDRESS_COMMITMENT_ALGORITHM ++ js "." ++ privateSalt ++ js "."
    ++ addressHash))

/-! ## The credential -/

/-- `ASSURANCE_RANK`, without the names that it inherits, which compare as `NaN`. -/
def ASSURANCE_RANK (level : JsString) : Option ℕ :=
  (["self-asserted", "source-checked", "issuer-attested", "legal-attested"].map js).idxOf? level

def isAuthorityBoundClaimKind (claimKind : JsString) : Bool :=
  claimKind = js "residence" || claimKind = js "legal-ownership"

/-- An option that is not empty, and is not the value of the credential. -/
def differs (option : Option JsString) (value : JsString) : Bool :=
  (option.bind nonEmpty).any (· ≠ value)

def assuranceTooLow (level : JsString) (minimum : Option JsString) : Bool :=
  match ASSURANCE_RANK level, (minimum.bind nonEmpty).bind ASSURANCE_RANK with
  | some rank, some least => rank < least
  | _, _ => false

/-- `options.now ? new Date(options.now) : new Date()`, none for an invalid date. -/
def nowOf (now : Option Moment) (clock : ℤ) : Option ℤ :=
  match now with
  | none | some (.text []) => some clock
  | some moment => moment.time P.dates

def isExpired (claim : AddressCredentialClaim) (now : Option ℤ) : Bool :=
  match (claim.expiresAt.bind nonEmpty).bind P.dates.parse, now with
  | some expiresAt, some now => expiresAt ≤ now
  | _, _ => false

def verifyAddressCredential (credential : AddressCredentialEnvelope)
    (options : VerifyAddressCredentialOptions) (clock : ℤ) : AddressCredentialVerificationResult :=
  let claim := credential.claim
  let expired := isExpired P claim (nowOf P options.now clock)
  let signatureValid := (options.issuerSecret.bind nonEmpty).map fun secret =>
    P.verifyHmacSha256 secret (credentialSigningPayload claim) credential.signature.value
  let privateSalt := (options.privateSalt.or credential.privateSalt).bind nonEmpty
  let addressMatches := options.address.bind fun address => privateSalt.map fun salt =>
    decide (createAddressCommitment P address salt = claim.addressCommitment)
  let checks : List (Bool × String) :=
    [(claim.version ≠ ADDRESS_CREDENTIAL_VERSION, "unsupported-credential-version"),
      (claim.commitmentAlgorithm ≠ ADDRESS_COMMITMENT_ALGORITHM,
        "unsupported-commitment-algorithm"),
      (credential.signature.algorithm ≠ ADDRESS_CREDENTIAL_SIGNATURE_ALGORITHM,
        "unsupported-signature-algorithm"),
      (differs options.issuerId credential.signature.issuerId, "issuer-mismatch"),
      (differs options.expectedLayer claim.layer, "layer-mismatch"),
      (differs options.requiredClaimKind claim.claimKind, "claim-kind-mismatch"),
      (assuranceTooLow claim.assuranceLevel options.minimumAssuranceLevel,
        "assurance-level-too-low"),
      (isAuthorityBoundClaimKind claim.claimKind && claim.layer ≠ js "AOID",
        "authority-bound-claim-must-use-aoid-layer"),
      (isAuthorityBoundClaimKind claim.claimKind && claim.evidenceCommitmentRefs = [],
        "authority-bound-claim-evidence-missing"),
      (options.minimumScore.any (lessThan (P.numberValue claim.verificationScore)),
        "minimum-score-not-met"),
      (options.allowedStatuses.any (claim.verificationStatus ∉ ·), "status-not-allowed"),
      (expired, "credential-expired"),
      (signatureValid = some false, "signature-invalid"),
      (addressMatches = some false, "address-commitment-mismatch")]
  let errors := (checks.filter (·.1)).map fun check => js check.2
  { valid := errors = [] && signatureValid = some true
    signatureValid
    expired
    addressMatches
    warnings := (if signatureValid = none then [js "issuer-secret-not-provided"] else [])
      ++ if options.address.isSome && privateSalt.isNone then [js "private-salt-not-provided"]
        else []
    errors }

/-! ## With the issuer -/

structure VerifyAddressCredentialWithIssuerTrustOptions where
  issuerSecret : Option JsString
  /-- The secret that the object has under an identifier. -/
  issuerSecretsById : Option (JsString → Option JsString)
  now : Option Moment
  expectedLayer : Option JsString
  requiredClaimKind : Option JsString
  minimumAssuranceLevel : Option JsString
  minimumCredentialScore : Option JsNumber
  allowedCredentialStatuses : Option (List JsString)
  address : Option Address
  privateSalt : Option JsString
  requiredCountryCode : Option JsString
  requiredSchemaHash : Option JsString
  minimumTrustScore : Option JsonNumber
  allowedIssuerStatuses : Option (List JsString)
  trustedRegistryRoots : Option (List JsString)
  maxRegistryAgeSeconds : Option JsNumber

structure AddressCredentialWithIssuerTrustVerification where
  valid : Bool
  credential : AddressCredentialVerificationResult
  trust : CredentialIssuerTrustEvaluation
  errors : List JsString
  warnings : List JsString

/-- What the registry reads of a credential. -/
def AddressCredentialEnvelope.forTrust (credential : AddressCredentialEnvelope) :
    IssuerTrust.Credential where
  claim := some {
    version := some credential.claim.version
    claimKind := some credential.claim.claimKind
    layer := some credential.claim.layer
    countryCode := credential.claim.countryCode
    policyVersion := credential.claim.policyVersion }
  issuerId := some credential.signature.issuerId

def verifyAddressCredentialWithIssuerTrust (credential : AddressCredentialEnvelope)
    (snapshot : CredentialIssuerTrustRegistrySnapshot)
    (options : VerifyAddressCredentialWithIssuerTrustOptions) (clock : ℤ) :
    AddressCredentialWithIssuerTrustVerification :=
  let issuerId := normalizeText P.toPlatform (some credential.signature.issuerId)
  let issuerSecret := options.issuerSecret.or (options.issuerSecretsById.bind (· issuerId))
  let credentialResult := verifyAddressCredential P credential {
    issuerId := some issuerId
    issuerSecret
    now := options.now
    expectedLayer := options.expectedLayer
    requiredClaimKind := options.requiredClaimKind
    minimumAssuranceLevel := options.minimumAssuranceLevel
    minimumScore := options.minimumCredentialScore
    allowedStatuses := options.allowedCredentialStatuses
    address := options.address
    privateSalt := options.privateSalt } clock
  let trust := evaluateCredentialIssuerTrust P.toPlatform credential.forTrust snapshot {
    now := options.now
    credentialType := some ADDRESS_CREDENTIAL_VERSION
    requiredClaimKind := options.requiredClaimKind
    requiredLayer := options.expectedLayer
    requiredCountryCode := options.requiredCountryCode
    requiredSchemaHash := options.requiredSchemaHash
    minimumTrustScore := options.minimumTrustScore
    allowedIssuerStatuses := options.allowedIssuerStatuses
    trustedRegistryRoots := options.trustedRegistryRoots
    maxRegistryAgeSeconds := options.maxRegistryAgeSeconds } clock
  { valid := credentialResult.valid && trust.trusted
    credential := credentialResult
    trust
    errors := (credentialResult.errors ++ trust.errors).eraseDups
    warnings := (credentialResult.warnings ++ trust.warnings).eraseDups }

/-! ## Scope -/

/-- The credential's own values lie in the scope of an issuer: a list that is empty stands for every
value, and a value that is empty is in every list. -/
structure InScope (credential : AddressCredentialEnvelope) (issuer : CredentialIssuerTrustRecord) :
    Prop where
  claimKind : notIn issuer.claimKinds credential.claim.claimKind = false
  layer : notIn issuer.layers credential.claim.layer = false
  countryCode : notIn issuer.countryCodes
    (normalizeCountryCode P.toPlatform credential.claim.countryCode) = false
  policyVersion : notIn issuer.policyVersions
    (normalizeText P.toPlatform credential.claim.policyVersion) = false

/-- The registry has the issuer whose identifier the signature has, and the credential is in its
scope. -/
def ScopeKept (credential : AddressCredentialEnvelope)
    (snapshot : CredentialIssuerTrustRegistrySnapshot) : Prop :=
  ∃ issuer, snapshot.issuerRecords.find? (·.issuerId = credential.signature.issuerId) = some issuer
    ∧ InScope P credential issuer

/-- A value that the caller requires in place of the credential's own, and that the credential is
not compared with, leaves the credential's own in scope: an empty kind or layer, or a country. -/
structure Unreplaced (options : VerifyAddressCredentialWithIssuerTrustOptions)
    (credential : AddressCredentialEnvelope) (issuer : CredentialIssuerTrustRecord) : Prop where
  claimKind : options.requiredClaimKind ≠ some []
    ∨ notIn issuer.claimKinds credential.claim.claimKind = false
  layer : options.expectedLayer ≠ some []
    ∨ notIn issuer.layers credential.claim.layer = false
  countryCode : options.requiredCountryCode = none
    ∨ notIn issuer.countryCodes
      (normalizeCountryCode P.toPlatform credential.claim.countryCode) = false

end Verify

end Agid.AddressCredential
