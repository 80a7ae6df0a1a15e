import Agid.PublicPrivate

/-!
# The registry API in memory

`InMemoryAgidRegistryApiStore` of `src/lib/agidRegistryApi.ts`.  A request is parsed JSON, read
field by field; the fixed texts that each result carries (the mode, its version and the posture on
privacy) are left out.
-/

namespace Agid.RegistryApi

abbrev Members := List (JsString × JsonValue)

/-- What the store takes from the platform.  `base36` is `n.toString(36)`, and `unitInterval` is
`Math.max(0, Math.min(1, n))`. -/
structure Platform where
  nfkc : Nfkc
  toLowerCase : JsString → JsString
  toUpperCase : JsString → JsString
  dates : Dates
  base36 : ℤ → JsString
  unitInterval : JsonNumber → JsonNumber

/-- The clock, and the random texts in the order they are read. -/
structure Env where
  now : ℤ
  random : ℕ → JsString

def AUDIT_LIMIT : ℕ := 500

inductive IssuerStatus
  | active
  | suspended
  | revoked
deriving DecidableEq

inductive Operation
  | registerIssuer
  | revokeCommitment
  | anchorFreshnessRoot
  | verify
  | markNullifierUsed
deriving DecidableEq

inductive MutationStatus
  | recorded
  | alreadyRecorded
  | duplicate
  | rejected
deriving DecidableEq

inductive CommitmentType
  | credential
  | addressReference
  | aoid
  | agid
  | issuerScoped
  | unknown
deriving DecidableEq

structure IssuerRecord where
  issuerId : JsString
  status : IssuerStatus
  displayName : Option JsString
  trustScore : JsonNumber
  publicKeyCommitment : Option JsString
  metadataHash : Option JsString
  registeredAt : JsString
  updatedAt : JsString
  sourceIds : List JsString
deriving DecidableEq

structure RevocationRecord where
  commitment : JsString
  commitmentType : CommitmentType
  reason : Option JsString
  issuerId : Option JsString
  revokedAt : JsString
  sourceIds : List JsString
deriving DecidableEq

structure FreshnessRootRecord where
  freshnessRoot : JsString
  registryId : JsString
  issuerId : Option JsString
  anchoredAt : JsString
  freshUntil : JsString
  sourceIds : List JsString
deriving DecidableEq

structure NullifierRecord where
  nullifierHash : JsString
  scope : JsString
  issuerId : Option JsString
  usedAt : JsString
  expiresAt : Option JsString
  sourceIds : List JsString
deriving DecidableEq

/-- The status of an event that was stored may be any value. -/
structure AuditEvent where
  eventId : JsString
  operation : Operation
  status : Option JsonValue
  recordedAt : JsString
  subjectCommitment : Option JsString
  issuerId : Option JsString
  scope : Option JsString
  errors : List JsString
  warnings : List JsString

structure MutationResult (α : Type) where
  status : MutationStatus
  record : Option α
  errors : List JsString
  warnings : List JsString
  event : AuditEvent

structure Freshness where
  root : Option JsString
  anchored : Bool
  fresh : Bool
  freshUntil : Option JsString

structure VerifyResult where
  valid : Bool
  checkedAt : JsString
  errors : List JsString
  warnings : List JsString
  issuer : Option IssuerRecord
  revokedCommitments : List JsString
  freshness : Freshness
  nullifier : Option (JsString × Option NullifierRecord)
  commitmentCount : ℕ

/-- The maps of the store, and its audit. -/
structure Registry where
  issuers : Record JsString IssuerRecord
  revoked : Record JsString RevocationRecord
  freshnessRoots : Record JsString FreshnessRootRecord
  nullifiers : Record JsString NullifierRecord
  audit : List AuditEvent

def Registry.empty : Registry := ⟨.empty, .empty, .empty, .empty, []⟩

/-! ## Names of the enumerations -/

def IssuerStatus.text : IssuerStatus → JsString
  | active => js "active"
  | suspended => js "suspended"
  | revoked => js "revoked"

/-- A text that is no status reads as active. -/
def readStatus (text : JsString) : IssuerStatus :=
  if text = js "suspended" then .suspended else if text = js "revoked" then .revoked else .active

def Operation.text : Operation → JsString
  | registerIssuer => js "register-issuer"
  | revokeCommitment => js "revoke-commitment"
  | anchorFreshnessRoot => js "anchor-freshness-root"
  | verify => js "verify"
  | markNullifierUsed => js "mark-nullifier-used"

def readOperation (text : JsString) : Operation :=
  if text = js "register-issuer" then .registerIssuer
  else if text = js "revoke-commitment" then .revokeCommitment
  else if text = js "anchor-freshness-root" then .anchorFreshnessRoot
  else if text = js "mark-nullifier-used" then .markNullifierUsed
  else .verify

def MutationStatus.text : MutationStatus → JsString
  | recorded => js "recorded"
  | alreadyRecorded => js "already_recorded"
  | duplicate => js "duplicate"
  | rejected => js "rejected"

def CommitmentType.text : CommitmentType → JsString
  | credential => js "credential"
  | addressReference => js "address-reference"
  | aoid => js "aoid"
  | agid => js "agid"
  | issuerScoped => js "issuer-scoped"
  | unknown => js "unknown"

def readCommitmentType (text : JsString) : CommitmentType :=
  if text = js "credential" then .credential
  else if text = js "address-reference" then .addressReference
  else if text = js "aoid" then .aoid
  else if text = js "agid" then .agid
  else if text = js "issuer-scoped" then .issuerScoped
  else .unknown

/-! ## Fields -/

/-- A field of a value that may be no object. -/
def field (name : String) : JsonValue → Option JsonValue
  | .object members => JsonValue.member (js name) members
  | _ => none

def itemsOf : Option JsonValue → List JsonValue
  | some (.array items) => items
  | _ => []

/-- `a ?? b`. -/
def orNullish (a b : Option JsonValue) : Option JsonValue :=
  match a with
  | none | some .null => b
  | a => a

section Texts

variable (P : Platform)

def normalizeText : Option JsonValue → JsString
  | some (.string s) => trim (P.nfkc.normalize s)
  | _ => []

def normalizeId (value : Option JsonValue) : JsString :=
  replaceRuns isWhiteSpace 45 false (normalizeText P value)

def normalizeCommitment (value : Option JsonValue) : JsString :=
  let text := normalizeText P value
  if (js "0x").isPrefixOf text then js "0x" ++ P.toLowerCase (text.drop 2) else P.toLowerCase text

def normalizeSourceIds (value : Option JsonValue) : List JsString :=
  (((itemsOf value).map fun item => normalizeText P (some item)).filter (· ≠ [])).take 20

/-- A score that is no finite number is one half. -/
def normalizeTrustScore : Option JsonValue → JsonNumber
  | some (.number (.infinite _)) | none => .other (js "0.5") plain_half
  | some (.number n) => P.unitInterval n
  | some _ => .other (js "0.5") plain_half

def parseDate (value : Option JsonValue) : Option ℤ :=
  (nonEmpty (normalizeText P value)).bind P.dates.parse

def normalizeIso (value : Option JsonValue) (fallback : ℤ) : JsString :=
  P.dates.toISOString ((parseDate P value).getD fallback)

def createEventId (random : JsString) (operation : Operation) (recordedAt subject : JsString) :
    JsString :=
  operation.text ++ js "-" ++ ((P.dates.parse recordedAt).map P.base36).getD (js "NaN") ++ js "-"
    ++ subject.take 8 ++ js "-" ++ random

/-! ## Private material -/

def FORBIDDEN_PRIVATE_KEYS : List JsString :=
  ["address", "addresstext", "addressline", "addresslines", "fulladdress", "rawaddress",
    "streetaddress", "physicaladdress", "agid", "rawagid", "aoid", "rawaoid", "agids", "agidsecure",
    "ciphertext", "encryptedpayload", "recipient", "recipientname", "name", "fullname", "phone",
    "telephone", "email", "building", "room", "unit", "apartment", "postcode", "postalcode", "zip",
    "latitude", "longitude", "lat", "lng", "lon", "coordinates"].map js

/-- The words of `PUBLIC_KEY_PATTERN`. -/
def PUBLIC_KEY_WORDS : List JsString :=
  ["commitment", "hash", "root", "nullifier", "issuerid", "issuerstatus", "scope", "sourceids",
    "checkedat", "freshuntil", "expiresat", "jtitail", "jti", "keyid", "registryid", "version",
    "policy", "trustscore", "terminalid", "operatorid", "requestid", "reason", "metadatahash",
    "publickeycommitment", "localresolverstatus", "required", "now"].map js

def canonicalKey (key : JsString) : JsString :=
  (P.toLowerCase (trim (P.nfkc.normalize key))).filter fun c => isLowerLetter c || isDigit c

def isPublicMaterialKey (key : JsString) : Bool :=
  PUBLIC_KEY_WORDS.any (includes (key.map lowerAscii))

/-- `/^AGID[A-Z0-9]{8,}$/` or `/^[A-Z0-9]{10,16}$/` of the text without its spaces and hyphens. -/
def isAgidLike (text : JsString) : Bool :=
  let compact := (P.toUpperCase (trim (P.nfkc.normalize text))).filter fun c =>
    !(isWhiteSpace c || c = 45)
  compact.all isUpperAlphanumeric
    && (((js "AGID").isPrefixOf compact && 12 ≤ compact.length)
      || (10 ≤ compact.length && compact.length ≤ 16))

def isCoordinateLike (text : JsString) : Bool := PublicPrivate.looksLikeCoordinatePair text

mutual

/-- What `visit` finds in a value under the name of its parent. -/
def visit (path parentKey : JsString) : JsonValue → List JsString
  | .string s =>
    if !isPublicMaterialKey parentKey && (isAgidLike P s || isCoordinateLike s) then
      [path ++ js (" appears to contain raw location material; "
        ++ "submit a commitment/hash/root instead.")]
    else []
  | .array items => visitItems path parentKey 0 items
  | .object members => visitMembers path members
  | _ => []

def visitItems (path parentKey : JsString) : ℕ → List JsonValue → List JsString
  | _, [] => []
  | index, item :: items =>
    visit (path ++ js "[" ++ js (toString index) ++ js "]") parentKey item
      ++ visitItems path parentKey (index + 1) items

def visitMembers (path : JsString) : Members → List JsString
  | [] => []
  | (key, entry) :: members =>
    (if !isPublicMaterialKey key && FORBIDDEN_PRIVATE_KEYS.contains (canonicalKey P key) then
        [path ++ js "." ++ key ++ js (" is private material; "
          ++ "submit only commitments, hashes, roots, or nullifiers.")]
      else visit (path ++ js "." ++ key) key entry) ++ visitMembers path members

end

def collectAgidRegistryPrivateMaterialErrors (input : Members) : List JsString :=
  (visitMembers P (js "input") input).eraseDups

/-! ## Mutations -/

structure EventOptions where
  subjectCommitment : Option JsString
  issuerId : Option JsString
  scope : Option JsString
  errors : List JsString
  warnings : List JsString
  recordedAt : JsString

def mutationEvent (env : Env) (operation : Operation) (status : JsString)
    (options : EventOptions) : AuditEvent where
  eventId := createEventId P (env.random 0) operation options.recordedAt
    (((options.subjectCommitment.bind nonEmpty).or (options.issuerId.bind nonEmpty)).or
      options.scope |>.getD [])
  operation := operation
  status := some (.string status)
  recordedAt := options.recordedAt
  subjectCommitment := options.subjectCommitment
  issuerId := options.issuerId
  scope := options.scope
  errors := options.errors
  warnings := options.warnings

def lastEvents (audit : List AuditEvent) : List AuditEvent :=
  audit.drop (audit.length - AUDIT_LIMIT)

def recordAudit (registry : Registry) (event : AuditEvent) : Registry :=
  { registry with audit := lastEvents (registry.audit ++ [event]) }

/-- `mutationResult`, and the event of it in the audit. -/
def mutationResult {α : Type} (env : Env) (registry : Registry) (operation : Operation)
    (status : MutationStatus) (record : Option α) (options : EventOptions) :
    Registry × MutationResult α :=
  let event := mutationEvent P env operation status.text options
  (recordAudit registry event, ⟨status, record, options.errors, options.warnings, event⟩)

def nullifierKey (scope nullifierHash : JsString) : JsString := scope ++ js "::" ++ nullifierHash

def missing (text : JsString) (message : String) : List JsString :=
  if text = [] then [js message] else []

/-- What a request to revoke names. -/
def requestedCommitment (input : Members) : JsString :=
  normalizeCommitment P (orNullish (JsonValue.member (js "commitment") input)
    (JsonValue.member (js "revocationCommitment") input))

def requestedNullifier (input : Members) : JsString :=
  normalizeCommitment P (JsonValue.member (js "nullifierHash") input)

def requestedScope (input : Members) : JsString :=
  (nonEmpty (normalizeId P (JsonValue.member (js "scope") input))).getD (js "default")

def requestedIssuer (input : Members) : JsString :=
  normalizeId P (JsonValue.member (js "issuerId") input)

def requestedStatus (input : Members) : IssuerStatus :=
  readStatus (normalizeText P (JsonValue.member (js "status") input))

def registerIssuer (env : Env) (registry : Registry) (input : Members) :
    Registry × MutationResult IssuerRecord :=
  let value (name : String) := JsonValue.member (js name) input
  let issuerId := requestedIssuer P input
  let now := P.dates.toISOString env.now
  let errors := collectAgidRegistryPrivateMaterialErrors P input
    ++ missing issuerId "issuerId is required"
  let options : EventOptions := ⟨none, some issuerId, none, errors, [], now⟩
  if errors ≠ [] then mutationResult P env registry .registerIssuer .rejected none options
  else
    let existing := registry.issuers.get? issuerId
    let record : IssuerRecord := {
      issuerId := issuerId
      status := requestedStatus P input
      displayName := nonEmpty (normalizeText P (value "displayName"))
      trustScore := normalizeTrustScore P (value "trustScore")
      publicKeyCommitment := nonEmpty (normalizeCommitment P (value "publicKeyCommitment"))
      metadataHash := nonEmpty (normalizeCommitment P (value "metadataHash"))
      registeredAt := (existing.map (·.registeredAt)).getD now
      updatedAt := now
      sourceIds := normalizeSourceIds P (value "sourceIds") }
    mutationResult P env { registry with issuers := registry.issuers.set issuerId record }
      .registerIssuer (if existing.isSome then .alreadyRecorded else .recorded) (some record)
      options

def revokeCommitment (env : Env) (registry : Registry) (input : Members) :
    Registry × MutationResult RevocationRecord :=
  let value (name : String) := JsonValue.member (js name) input
  let commitment := requestedCommitment P input
  let now := P.dates.toISOString env.now
  let errors := collectAgidRegistryPrivateMaterialErrors P input
    ++ missing commitment "commitment is required"
  if errors ≠ [] then
    mutationResult P env registry .revokeCommitment .rejected none
      ⟨some commitment, none, none, errors, [], now⟩
  else
    let existing := registry.revoked.get? commitment
    let record : RevocationRecord := {
      commitment := commitment
      commitmentType := readCommitmentType (normalizeText P (value "commitmentType"))
      reason := nonEmpty (normalizeText P (value "reason"))
      issuerId := nonEmpty (normalizeId P (value "issuerId"))
      revokedAt := (existing.map (·.revokedAt)).getD
        (normalizeIso P (value "revokedAt") env.now)
      sourceIds := normalizeSourceIds P (value "sourceIds") }
    mutationResult P env { registry with revoked := registry.revoked.set commitment record }
      .revokeCommitment (if existing.isSome then .alreadyRecorded else .recorded) (some record)
      ⟨some commitment, record.issuerId, none, [], [], now⟩

def anchorFreshnessRoot (env : Env) (registry : Registry) (input : Members) :
    Registry × MutationResult FreshnessRootRecord :=
  let value (name : String) := JsonValue.member (js name) input
  let freshnessRoot := normalizeCommitment P (orNullish (value "freshnessRoot") (value "root"))
  let issuerId := nonEmpty (normalizeId P (value "issuerId"))
  let now := P.dates.toISOString env.now
  let errors := collectAgidRegistryPrivateMaterialErrors P input
    ++ missing freshnessRoot "freshnessRoot is required"
  match errors, parseDate P (value "freshUntil") with
  | [], some freshUntil =>
    let existing := registry.freshnessRoots.get? freshnessRoot
    let record : FreshnessRootRecord := {
      freshnessRoot := freshnessRoot
      registryId := (nonEmpty (normalizeId P (value "registryId"))).getD (js "default")
      issuerId := issuerId
      anchoredAt := (existing.map (·.anchoredAt)).getD
        (normalizeIso P (value "anchoredAt") env.now)
      freshUntil := P.dates.toISOString freshUntil
      sourceIds := normalizeSourceIds P (value "sourceIds") }
    mutationResult P env
      { registry with freshnessRoots := registry.freshnessRoots.set freshnessRoot record }
      .anchorFreshnessRoot (if existing.isSome then .alreadyRecorded else .recorded) (some record)
      ⟨some freshnessRoot, issuerId, none, [], [], now⟩
  | errors, some _ =>
    mutationResult P env registry .anchorFreshnessRoot .rejected none
      ⟨some freshnessRoot, issuerId, none, errors, [], now⟩
  | errors, none =>
    mutationResult P env registry .anchorFreshnessRoot .rejected none
      ⟨some freshnessRoot, issuerId, none,
        errors ++ [js "freshUntil is required and must be an ISO date"], [], now⟩

def markNullifierUsed (env : Env) (registry : Registry) (input : Members) :
    Registry × MutationResult NullifierRecord :=
  let value (name : String) := JsonValue.member (js name) input
  let nullifierHash := requestedNullifier P input
  let scope := requestedScope P input
  let now := P.dates.toISOString env.now
  let errors := collectAgidRegistryPrivateMaterialErrors P input
    ++ missing nullifierHash "nullifierHash is required"
  if errors ≠ [] then
    mutationResult P env registry .markNullifierUsed .rejected none
      ⟨some nullifierHash, none, some scope, errors, [], now⟩
  else
    match registry.nullifiers.get? (nullifierKey scope nullifierHash) with
    | some existing =>
      mutationResult P env registry .markNullifierUsed .duplicate (some existing)
        ⟨some nullifierHash, existing.issuerId, some scope, [js "nullifier-already-used"], [], now⟩
    | none =>
      let record : NullifierRecord := {
        nullifierHash := nullifierHash
        scope := scope
        issuerId := nonEmpty (normalizeId P (value "issuerId"))
        usedAt := normalizeIso P (value "usedAt") env.now
        expiresAt := (parseDate P (value "expiresAt")).map P.dates.toISOString
        sourceIds := normalizeSourceIds P (value "sourceIds") }
      mutationResult P env
        { registry with
          nullifiers := registry.nullifiers.set (nullifierKey scope nullifierHash) record }
        .markNullifierUsed .recorded (some record)
        ⟨some nullifierHash, record.issuerId, some scope, [], [], now⟩

/-! ## Verification -/

/-- What a verification finds wrong with the issuer it names. -/
def issuerErrors (registry : Registry) (issuerId : JsString) : List JsString :=
  if issuerId = [] then []
  else
    match (registry.issuers.get? issuerId).map IssuerRecord.status with
    | none => [js "issuer-not-registered"]
    | some .suspended => [js "issuer-suspended"]
    | some .revoked => [js "issuer-revoked"]
    | some .active => []

def verifyCommitments (input : Members) : List JsString :=
  let named := ["credentialCommitment", "addressReferenceCommitment", "aoidCommitment",
    "agidCommitment", "revocationCommitment"].map fun name => JsonValue.member (js name) input
  let listed := (itemsOf (JsonValue.member (js "commitments") input)).map some
  (((named ++ listed).map (normalizeCommitment P)).filter (· ≠ [])).eraseDups

def verifyFreshness (registry : Registry) (input : Members) (checkedAt : ℤ) : Freshness :=
  let root := normalizeCommitment P (JsonValue.member (js "freshnessRoot") input)
  let anchored := if root = [] then none else registry.freshnessRoots.get? root
  let provided := parseDate P (JsonValue.member (js "freshUntil") input)
  let effective := provided.or
    (anchored.bind fun record => parseDate P (some (.string record.freshUntil)))
  { root := nonEmpty root
    anchored := anchored.isSome
    fresh := match effective with
      | some freshUntil => checkedAt ≤ freshUntil
      | none => root = []
    freshUntil := effective.map P.dates.toISOString }

def verify (env : Env) (registry : Registry) (input : Members) : Registry × VerifyResult :=
  let value (name : String) := JsonValue.member (js name) input
  let checkedAtDate := (parseDate P (value "now")).getD env.now
  let checkedAt := P.dates.toISOString checkedAtDate
  let issuerId := requestedIssuer P input
  let commitments := verifyCommitments P input
  let anonymous := commitments = [] && issuerId = []
    && !JsonValue.truthy (value "freshnessRoot") && !JsonValue.truthy (value "nullifierHash")
  let revokedCommitments := commitments.filter fun commitment =>
    (registry.revoked.get? commitment).isSome
  let freshness := verifyFreshness P registry input checkedAtDate
  let unanchored := freshness.root.isSome && !freshness.anchored
  let required := JsonValue.truthy (value "requireAnchoredFreshnessRoot")
  let scope := requestedScope P input
  let nullifierHash := requestedNullifier P input
  let nullifier := if nullifierHash = [] then none
    else registry.nullifiers.get? (nullifierKey scope nullifierHash)
  let errors := collectAgidRegistryPrivateMaterialErrors P input
    ++ issuerErrors registry issuerId
    ++ (if anonymous then [js "registry-check-public-identifier-required"] else [])
    ++ (if revokedCommitments ≠ [] then [js "commitment-revoked"] else [])
    ++ (if unanchored && required then [js "freshness-root-not-anchored"] else [])
    ++ (if freshness.fresh then [] else [js "freshness-window-stale"])
    ++ (if nullifier.isSome then [js "nullifier-already-used"] else [])
  let warnings := if unanchored && !required then [js "freshness-root-not-anchored"] else []
  let event := mutationEvent P env .verify (if errors = [] then js "verified" else js "invalid") {
    subjectCommitment := commitments.head?.or (some (freshness.root.getD []))
    issuerId := nonEmpty issuerId
    scope := if nullifierHash = [] then none else some scope
    errors := errors
    warnings := warnings
    recordedAt := checkedAt }
  (recordAudit registry event, {
    valid := errors = []
    checkedAt := checkedAt
    errors := errors.eraseDups
    warnings := warnings
    issuer := if issuerId = [] then none else registry.issuers.get? issuerId
    revokedCommitments := revokedCommitments
    freshness := freshness
    nullifier := if nullifierHash = [] then none else some (scope, nullifier)
    commitmentCount := commitments.length })

/-- A limit is a number that is finite. -/
def auditEvents (registry : Registry) (limit : Option ℚ) : List AuditEvent :=
  let bounded := (max 1 (min 500 ((limit.getD 100).floor))).toNat
  (registry.audit.drop (registry.audit.length - bounded)).reverse

/-! ## Snapshots -/

/-- An object of the members that are not `undefined`. -/
def ofMembers (members : List (String × Option JsonValue)) : JsonValue :=
  .object (members.filterMap fun m => m.2.map (js m.1, ·))

def ofText (text : JsString) : Option JsonValue := some (.string text)

def ofTexts (texts : List JsString) : Option JsonValue := some (.array (texts.map .string))

def IssuerRecord.json (record : IssuerRecord) : JsonValue :=
  ofMembers [("issuerId", ofText record.issuerId), ("status", ofText record.status.text),
    ("displayName", record.displayName.map .string),
    ("trustScore", some (.number record.trustScore)),
    ("publicKeyCommitment", record.publicKeyCommitment.map .string),
    ("metadataHash", record.metadataHash.map .string),
    ("registeredAt", ofText record.registeredAt), ("updatedAt", ofText record.updatedAt),
    ("sourceIds", ofTexts record.sourceIds)]

def RevocationRecord.json (record : RevocationRecord) : JsonValue :=
  ofMembers [("commitment", ofText record.commitment),
    ("commitmentType", ofText record.commitmentType.text),
    ("reason", record.reason.map .string), ("issuerId", record.issuerId.map .string),
    ("revokedAt", ofText record.revokedAt), ("sourceIds", ofTexts record.sourceIds)]

def FreshnessRootRecord.json (record : FreshnessRootRecord) : JsonValue :=
  ofMembers [("freshnessRoot", ofText record.freshnessRoot),
    ("registryId", ofText record.registryId), ("issuerId", record.issuerId.map .string),
    ("anchoredAt", ofText record.anchoredAt), ("freshUntil", ofText record.freshUntil),
    ("sourceIds", ofTexts record.sourceIds)]

def NullifierRecord.json (record : NullifierRecord) : JsonValue :=
  ofMembers [("nullifierHash", ofText record.nullifierHash), ("scope", ofText record.scope),
    ("issuerId", record.issuerId.map .string), ("usedAt", ofText record.usedAt),
    ("expiresAt", record.expiresAt.map .string), ("sourceIds", ofTexts record.sourceIds)]

def AuditEvent.json (event : AuditEvent) : JsonValue :=
  ofMembers [("eventId", ofText event.eventId), ("operation", ofText event.operation.text),
    ("status", event.status), ("recordedAt", ofText event.recordedAt),
    ("subjectCommitment", event.subjectCommitment.map .string),
    ("issuerId", event.issuerId.map .string), ("scope", event.scope.map .string),
    ("errors", ofTexts event.errors), ("warnings", ofTexts event.warnings)]

/-- The snapshot without its fixed members. -/
def Registry.json (registry : Registry) : JsonValue :=
  ofMembers [("issuers", some (.array (registry.issuers.values.map IssuerRecord.json))),
    ("revokedCommitments", some (.array (registry.revoked.values.map RevocationRecord.json))),
    ("freshnessRoots",
      some (.array (registry.freshnessRoots.values.map FreshnessRootRecord.json))),
    ("usedNullifiers", some (.array (registry.nullifiers.values.map NullifierRecord.json))),
    ("audit", some (.array (registry.audit.map AuditEvent.json)))]

def readIssuer (env : Env) (record : JsonValue) : Option IssuerRecord :=
  (nonEmpty (normalizeId P (field "issuerId" record))).map fun issuerId => {
    issuerId := issuerId
    status := readStatus (normalizeText P (field "status" record))
    displayName := nonEmpty (normalizeText P (field "displayName" record))
    trustScore := normalizeTrustScore P (field "trustScore" record)
    publicKeyCommitment := nonEmpty (normalizeCommitment P (field "publicKeyCommitment" record))
    metadataHash := nonEmpty (normalizeCommitment P (field "metadataHash" record))
    registeredAt := normalizeIso P (field "registeredAt" record) env.now
    updatedAt := normalizeIso P (field "updatedAt" record) env.now
    sourceIds := normalizeSourceIds P (field "sourceIds" record) }

def readRevocation (env : Env) (record : JsonValue) : Option RevocationRecord :=
  (nonEmpty (normalizeCommitment P (field "commitment" record))).map fun commitment => {
    commitment := commitment
    commitmentType := readCommitmentType (normalizeText P (field "commitmentType" record))
    reason := nonEmpty (normalizeText P (field "reason" record))
    issuerId := nonEmpty (normalizeId P (field "issuerId" record))
    revokedAt := normalizeIso P (field "revokedAt" record) env.now
    sourceIds := normalizeSourceIds P (field "sourceIds" record) }

def readFreshnessRoot (env : Env) (record : JsonValue) : Option FreshnessRootRecord := do
  let freshnessRoot ← nonEmpty (normalizeCommitment P (field "freshnessRoot" record))
  let freshUntil ← parseDate P (field "freshUntil" record)
  return {
    freshnessRoot := freshnessRoot
    registryId := (nonEmpty (normalizeId P (field "registryId" record))).getD (js "default")
    issuerId := nonEmpty (normalizeId P (field "issuerId" record))
    anchoredAt := normalizeIso P (field "anchoredAt" record) env.now
    freshUntil := P.dates.toISOString freshUntil
    sourceIds := normalizeSourceIds P (field "sourceIds" record) }

def readNullifier (env : Env) (record : JsonValue) : Option NullifierRecord :=
  (nonEmpty (normalizeCommitment P (field "nullifierHash" record))).map fun nullifierHash => {
    nullifierHash := nullifierHash
    scope := (nonEmpty (normalizeId P (field "scope" record))).getD (js "default")
    issuerId := nonEmpty (normalizeId P (field "issuerId" record))
    usedAt := normalizeIso P (field "usedAt" record) env.now
    expiresAt := (parseDate P (field "expiresAt" record)).map P.dates.toISOString
    sourceIds := normalizeSourceIds P (field "sourceIds" record) }

/-- An event is kept when its id and its operation are texts. -/
def isEvent (event : JsonValue) : Bool :=
  match field "eventId" event, field "operation" event with
  | some (.string _), some (.string _) => true
  | _, _ => false

def readEvent (env : Env) (index : ℕ) (event : JsonValue) : AuditEvent where
  eventId := (nonEmpty (normalizeText P (field "eventId" event))).getD
    (createEventId P (env.random index) .verify (P.dates.toISOString env.now) [])
  operation := match field "operation" event with
    | some (.string text) => readOperation text
    | _ => .verify
  status := field "status" event
  recordedAt := normalizeIso P (field "recordedAt" event) env.now
  subjectCommitment := nonEmpty (normalizeCommitment P (field "subjectCommitment" event))
  issuerId := nonEmpty (normalizeId P (field "issuerId" event))
  scope := nonEmpty (normalizeId P (field "scope" event))
  errors := ((itemsOf (field "errors" event)).map (normalizeText P ∘ some)).filter (· ≠ [])
  warnings := ((itemsOf (field "warnings" event)).map (normalizeText P ∘ some)).filter (· ≠ [])

/-- The records by their keys, a later one in the place of an earlier one. -/
def recordsBy {α : Type} (key : α → JsString) (records : List α) : Record JsString α :=
  records.foldl (fun r record => r.set (key record) record) .empty

def replaceSnapshot (env : Env) (snapshot : JsonValue) : Registry :=
  let items (name : String) := itemsOf (field name snapshot)
  let events := (items "audit").filter isEvent
  { issuers := recordsBy (·.issuerId) ((items "issuers").filterMap (readIssuer P env))
    revoked := recordsBy (·.commitment)
      ((items "revokedCommitments").filterMap (readRevocation P env))
    freshnessRoots := recordsBy (·.freshnessRoot)
      ((items "freshnessRoots").filterMap (readFreshnessRoot P env))
    nullifiers := recordsBy (fun record => nullifierKey record.scope record.nullifierHash)
      ((items "usedNullifiers").filterMap (readNullifier P env))
    audit := (events.drop (events.length - AUDIT_LIMIT)).mapIdx (readEvent P env) }

end Texts

end Agid.RegistryApi
