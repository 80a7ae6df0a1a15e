import Agid.SecurePos
import Agid.Lib.Record

/-!
# The records of the address resolution ledger

`src/server/addressResolutionLedgerStore.ts`: the records that every store keeps, and how they are
made of a resolution.  The privacy flags are the same in every record and are left out.  The JSON
text of a payload stands for its value.
-/

namespace Agid.ResolutionLedger

/-! ## Values and their hashes -/

inductive Json where
  | null
  | bool (b : Bool)
  | number (q : ℚ)
  | string (s : JsString)
  | array (items : List Json)
  | object (fields : List (JsString × Json))

/-- `[0-9a-f]`. -/
def isHexDigit (c : CodeUnit) : Bool := (48 ≤ c.val && c.val ≤ 57) || (97 ≤ c.val && c.val ≤ 102)

/-- What the ledger takes from the platform.  A part of a normalized text is normalized, and
`localeLe` is `localeCompare(…) <= 0`. -/
structure Platform extends Nfkc where
  normalize_trim : ∀ s, normalize (trim (normalize s)) = trim (normalize s)
  toLowerCase : JsString → JsString
  dates : Dates
  localeLe : JsString → JsString → Bool
  quote : JsString → JsString
  numberText : ℚ → JsString
  sha256Hex : JsString → JsString
  sha256Hex_digits : ∀ s, ∀ c ∈ sha256Hex s, isHexDigit c

/-- The clock, and the next `randomUUID()`. -/
structure Env where
  clock : ℤ
  uuid : JsString

def orText (a b : JsString) : JsString := if a = [] then b else a

section Hash

variable (platform : Platform)

mutual

def stableStringify : Json → JsString
  | .null => js "null"
  | .bool b => if b then js "true" else js "false"
  | .number q => platform.numberText q
  | .string s => platform.quote s
  | .array items => js "[" ++ (js ",").intercalate (stableItems items) ++ js "]"
  | .object fields =>
    js "\x7b" ++ (js ",").intercalate
      (((stableFields fields).insertionSort fun a b => platform.localeLe a.1 b.1).map fun field =>
        platform.quote field.1 ++ js ":" ++ field.2) ++ js "\x7d"

def stableItems : List Json → List JsString
  | [] => []
  | item :: items => stableStringify item :: stableItems items

def stableFields : List (JsString × Json) → List (JsString × JsString)
  | [] => []
  | (key, value) :: fields => (key, stableStringify value) :: stableFields fields

end

def hash (value : Json) : JsString := platform.sha256Hex (stableStringify platform value)

def upperDigit (c : CodeUnit) : CodeUnit := if 97 ≤ c.val then Fin.ofNat _ (c.val - 32) else c

def safeId (name : String) (value : Json) : JsString :=
  js name ++ js "-" ++ ((hash platform value).take 24).map upperDigit

def clean (value : Option JsString) : JsString := trim (platform.normalize (value.getD []))

def hexHash (value : Json) : JsString := js "0x" ++ hash platform value

def nowIso (env : Env) : JsString := platform.dates.toISOString env.clock

end Hash

/-- In exact arithmetic. -/
def clamp01 : JsNumber → ℚ
  | .finite q => max 0 (min 1 (⌊q * 10000 + 1 / 2⌋ / 10000))
  | _ => 0

def FORBIDDEN_LEDGER_KEYS : List JsString :=
  ["address", "addressText", "canonicalAddress", "rawAddress", "agid", "rawAgid", "aoid", "rawAoid",
    "lat", "lon", "lng", "latitude", "longitude", "coordinates", "recipient", "recipientName",
    "phone", "email", "building", "room", "unit", "apartment"].map js

mutual

/-- The first forbidden key of a value, with the path to it. -/
def forbiddenPath (path : List JsString) : Json → Option (List JsString)
  | .array items => forbiddenItem path 0 items
  | .object fields => forbiddenField path fields
  | _ => none

def forbiddenItem (path : List JsString) (index : ℕ) : List Json → Option (List JsString)
  | [] => none
  | item :: items =>
    (forbiddenPath (path ++ [js (toString index)]) item).or (forbiddenItem path (index + 1) items)

def forbiddenField (path : List JsString) : List (JsString × Json) → Option (List JsString)
  | [] => none
  | (key, value) :: fields =>
    if key ∈ FORBIDDEN_LEDGER_KEYS then some (path ++ [key])
    else (forbiddenPath (path ++ [key]) value).or (forbiddenField path fields)

end

def assertNoForbiddenLedgerKeys (value : Json) : Except JsString Unit :=
  match forbiddenPath [] value with
  | some path => .error (["address-resolution-", "ledger-", "forbidden-key:"].flatMap js
      ++ (js ".").intercalate path)
  | none => .ok ()

/-! ## Records -/

inductive AddressResolutionMode where
  | localOnly
  | serverRegistry
  | addressDns
  | zkProof
  | ethereumRegistry
  | hybrid
deriving DecidableEq

inductive AddressResolutionStatus where
  | resolved
  | partialResult
  | unresolved
  | conflict
  | blocked
  | rejected
deriving DecidableEq

inductive AddressResolutionDecision where
  | accept
  | review
  | reject
deriving DecidableEq

inductive AggregateKind where
  | addressReference
  | agid
  | aoid
  | credential
  | pid
  | delivery
  | resolution
deriving DecidableEq

inductive EventType where
  | resolutionRecorded
  | addressRegistered
  | addressCorrected
  | credentialIssued
  | credentialRevoked
  | pidIssued
  | pidMerged
  | pidSplit
  | deliveryAccepted
  | handoffCompleted
  | reviewRequested
deriving DecidableEq

inductive CommitmentKind where
  | addressReference
  | agid
  | aoid
  | credential
  | other
deriving DecidableEq

inductive SourceKind where
  | addressVerification
  | federatedResolver
  | registry
  | addressDns
  | internetProtocol
  | agidCore
  | unknown
deriving DecidableEq

inductive StepName where
  | addressVerification
  | federatedConsensus
  | registryCheck
  | addressDnsRecord
  | internetProtocolChecks
  | finalDecision
deriving DecidableEq

inductive StepStatus where
  | passed
  | failed
  | skipped
  | review
deriving DecidableEq

def AddressResolutionMode.text : AddressResolutionMode → JsString
  | .localOnly => js "local-only"
  | .serverRegistry => js "server-registry"
  | .addressDns => js "address-dns"
  | .zkProof => js "zk-proof"
  | .ethereumRegistry => js "ethereum-registry"
  | .hybrid => js "hybrid"

def AddressResolutionStatus.text : AddressResolutionStatus → JsString
  | .resolved => js "resolved"
  | .partialResult => js "partial"
  | .unresolved => js "unresolved"
  | .conflict => js "conflict"
  | .blocked => js "blocked"
  | .rejected => js "rejected"

def AddressResolutionDecision.text : AddressResolutionDecision → JsString
  | .accept => js "accept"
  | .review => js "review"
  | .reject => js "reject"

def AggregateKind.text : AggregateKind → JsString
  | .addressReference => js "address-reference"
  | .agid => js "agid"
  | .aoid => js "aoid"
  | .credential => js "credential"
  | .pid => js "pid"
  | .delivery => js "delivery"
  | .resolution => js "resolution"

def EventType.text : EventType → JsString
  | .resolutionRecorded => js "resolution-recorded"
  | .addressRegistered => js "address-registered"
  | .addressCorrected => js "address-corrected"
  | .credentialIssued => js "credential-issued"
  | .credentialRevoked => js "credential-revoked"
  | .pidIssued => js "pid-issued"
  | .pidMerged => js "pid-merged"
  | .pidSplit => js "pid-split"
  | .deliveryAccepted => js "delivery-accepted"
  | .handoffCompleted => js "handoff-completed"
  | .reviewRequested => js "review-requested"

def CommitmentKind.text : CommitmentKind → JsString
  | .addressReference => js "address-reference"
  | .agid => js "agid"
  | .aoid => js "aoid"
  | .credential => js "credential"
  | .other => js "other"

def StepName.text : StepName → JsString
  | .addressVerification => js "address-verification"
  | .federatedConsensus => js "federated-consensus"
  | .registryCheck => js "registry-check"
  | .addressDnsRecord => js "address-dns-record"
  | .internetProtocolChecks => js "internet-protocol-" ++ js "checks"
  | .finalDecision => js "final-decision"

def StepStatus.text : StepStatus → JsString
  | .passed => js "passed"
  | .failed => js "failed"
  | .skipped => js "skipped"
  | .review => js "review"

structure ResolutionRecord where
  resolutionId : JsString
  mode : AddressResolutionMode
  domain : JsString
  status : AddressResolutionStatus
  decision : AddressResolutionDecision
  confidence : ℚ
  languageTag : Option JsString
  createdAt : JsString
  auditFingerprint : JsString
  warningCount : ℕ
  errorCount : ℕ

structure CommitmentRecord where
  commitmentId : JsString
  resolutionId : JsString
  commitmentKind : CommitmentKind
  commitmentHash : JsString
  scope : JsString
  createdAt : JsString

structure EvidenceRecord where
  evidenceId : JsString
  resolutionId : JsString
  sourceKind : SourceKind
  sourceId : JsString
  status : AddressResolutionStatus
  confidence : Option JsNumber
  evidenceHash : JsString
  observedAt : JsString

structure StepRecord where
  stepId : JsString
  resolutionId : JsString
  stepName : StepName
  status : StepStatus
  inputCommitment : Option JsString
  outputCommitment : Option JsString
  completedAt : JsString

structure NullifierRecord where
  nullifierHash : JsString
  resolutionId : JsString
  scope : JsString
  usage : JsString
  usedAt : JsString
  expiresAt : Option JsString

structure EventRecord where
  eventId : JsString
  streamId : JsString
  aggregateKind : AggregateKind
  aggregateId : JsString
  eventType : EventType
  eventVersion : ℤ
  sequence : ℕ
  occurredAt : JsString
  resolutionId : Option JsString
  actorCommitment : Option JsString
  causationId : Option JsString
  correlationId : Option JsString
  payloadHash : JsString
  payloadJson : List (JsString × Json)
  previousEventHash : Option JsString
  eventHash : JsString

structure SnapshotRecord where
  snapshotId : JsString
  streamId : JsString
  aggregateKind : AggregateKind
  aggregateId : JsString
  sequence : ℕ
  validFrom : JsString
  validTo : Option JsString
  status : AddressResolutionStatus
  decision : AddressResolutionDecision
  confidence : ℚ
  stateHash : JsString
  lastEventId : JsString
  lastEventHash : JsString
  resolutionId : Option JsString

structure Entry where
  resolution : ResolutionRecord
  commitments : List CommitmentRecord
  evidence : List EvidenceRecord
  steps : List StepRecord
  nullifiers : List NullifierRecord

structure EventInput where
  streamId : Option JsString
  aggregateKind : Option AggregateKind
  aggregateId : Option JsString
  eventType : EventType
  eventVersion : Option ℤ
  occurredAt : Option JsString
  resolutionId : Option JsString
  actorCommitment : Option JsString
  causationId : Option JsString
  correlationId : Option JsString
  payload : Option (List (JsString × Json))

structure RegistryVerification where
  valid : Bool
  checkedAt : JsString
  root : Option JsString

/-- What the ledger reads of an `AddressResolutionSystemResult`. -/
structure ResolutionResult where
  resolutionId : JsString
  mode : AddressResolutionMode
  domain : JsString
  createdAt : JsString
  status : AddressResolutionStatus
  decision : AddressResolutionDecision
  confidence : JsNumber
  language : JsString
  auditFingerprint : JsString
  sources : List JsString
  sourceResults : List JsString
  federatedStatus : JsString
  verificationSources : List JsString
  verificationStatus : JsString
  registryVerification : Option RegistryVerification
  addressDnsRecord : Option JsString
  addressReferenceCommitment : Option JsString
  agidCommitment : Option JsString
  aoidCommitment : Option JsString
  credentialCommitment : Option JsString
  commitments : List JsString
  warnings : List JsString
  errors : List JsString

structure RecordOptions where
  nullifierHash : Option JsString
  nullifierScope : Option JsString
  nullifierUsage : Option JsString
  nullifierExpiresAt : Option JsString

structure WriteReceipt where
  resolutionId : JsString
  streamId : JsString
  temporalSequence : ℕ
  temporalSnapshotId : JsString
  commitmentCount : ℕ
  evidenceCount : ℕ
  stepCount : ℕ
  nullifierCount : ℕ
  recordedAt : JsString

/-! ## Events and snapshots -/

section Events

variable (platform : Platform)

def streamIdFor (kind : AggregateKind) (aggregateId : JsString) : JsString :=
  js "arl-stream:" ++ kind.text ++ js ":" ++ (hash platform (.string aggregateId)).take 32

def createAddressResolutionLedgerEventRecord (env : Env) (input : EventInput) (sequence : ℕ)
    (previousEventHash : Option JsString) : Except JsString EventRecord := do
  let clean := clean platform
  let aggregateKind := input.aggregateKind.getD .resolution
  let aggregateId := orText (clean input.aggregateId)
    (orText (clean input.resolutionId) (js "aggregate-" ++ env.uuid))
  let streamId := orText (clean input.streamId) (streamIdFor platform aggregateKind aggregateId)
  let occurredAt := orText (clean input.occurredAt) (nowIso platform env)
  let payload := input.payload.getD []
  let eventVersion := if input.eventVersion.getD 0 = 0 then 1 else input.eventVersion.getD 0
  let payloadHash := hexHash platform (.object [
    (js "ledgerVersion", .string (["address-resolution-", "ledger-v1"].flatMap js)),
    (js "streamId", .string streamId),
    (js "aggregateKind", .string aggregateKind.text),
    (js "aggregateId", .string aggregateId),
    (js "eventType", .string input.eventType.text),
    (js "payload", .object payload)])
  let eventSeed := Json.object [
    (js "streamId", .string streamId),
    (js "aggregateKind", .string aggregateKind.text),
    (js "aggregateId", .string aggregateId),
    (js "eventType", .string input.eventType.text),
    (js "eventVersion", .number eventVersion),
    (js "sequence", .number sequence),
    (js "occurredAt", .string occurredAt),
    (js "resolutionId", .string (clean input.resolutionId)),
    (js "actorCommitment", .string (clean input.actorCommitment)),
    (js "causationId", .string (clean input.causationId)),
    (js "correlationId", .string (clean input.correlationId)),
    (js "payloadHash", .string payloadHash),
    (js "previousEventHash", .string (clean previousEventHash))]
  -- The record's own keys are none of the forbidden ones.
  assertNoForbiddenLedgerKeys (.object payload)
  return {
    eventId := safeId platform "ARLEV" eventSeed
    streamId := streamId
    aggregateKind := aggregateKind
    aggregateId := aggregateId
    eventType := input.eventType
    eventVersion := eventVersion
    sequence := sequence
    occurredAt := occurredAt
    resolutionId := nonEmpty (clean input.resolutionId)
    actorCommitment := nonEmpty (clean input.actorCommitment)
    causationId := nonEmpty (clean input.causationId)
    correlationId := nonEmpty (clean input.correlationId)
    payloadHash := payloadHash
    payloadJson := payload
    previousEventHash := nonEmpty (clean previousEventHash)
    eventHash := hexHash platform eventSeed }

/-- The text of a field, where it is one. -/
def textField (payload : List (JsString × Json)) (key : JsString) : Option JsString :=
  match payload.lookup key with
  | some (.string s) => some s
  | _ => none

def statusFromPayload (payload : List (JsString × Json)) : AddressResolutionStatus :=
  let status := clean platform (textField payload (js "status"))
  ([.resolved, .partialResult, .unresolved, .conflict, .blocked, .rejected].find?
    (·.text = status)).getD .partialResult

def decisionFromPayload (payload : List (JsString × Json)) : AddressResolutionDecision :=
  let decision := clean platform (textField payload (js "decision"))
  ([.accept, .review, .reject].find? (·.text = decision)).getD .review

def createAddressResolutionLedgerSnapshot (event : EventRecord) : SnapshotRecord :=
  let status := statusFromPayload platform event.payloadJson
  let decision := decisionFromPayload platform event.payloadJson
  let confidence := clamp01 (match event.payloadJson.lookup (js "confidence") with
    | some (.number q) => .finite q
    | _ => .finite 0)
  { snapshotId := safeId platform "ARLTS" (.object [
      (js "streamId", .string event.streamId),
      (js "sequence", .number event.sequence),
      (js "eventHash", .string event.eventHash)])
    streamId := event.streamId
    aggregateKind := event.aggregateKind
    aggregateId := event.aggregateId
    sequence := event.sequence
    validFrom := event.occurredAt
    validTo := none
    status := status
    decision := decision
    confidence := confidence
    stateHash := hexHash platform (.object [
      (js "streamId", .string event.streamId),
      (js "aggregateKind", .string event.aggregateKind.text),
      (js "aggregateId", .string event.aggregateId),
      (js "sequence", .number event.sequence),
      (js "status", .string status.text),
      (js "decision", .string decision.text),
      (js "confidence", .number confidence),
      (js "eventHash", .string event.eventHash),
      (js "payloadHash", .string event.payloadHash)])
    lastEventId := event.eventId
    lastEventHash := event.eventHash
    resolutionId := event.resolutionId.bind nonEmpty }

/-- The stream that `appendEvent` adds to, the same in every store. -/
def appendStreamId (input : EventInput) : JsString :=
  orText (clean platform input.streamId)
    (streamIdFor platform (input.aggregateKind.getD .resolution)
      (orText (clean platform input.aggregateId)
        (orText (clean platform input.resolutionId) (js "resolution"))))

end Events

/-! ## Entries -/

section Entries

variable (platform : Platform)

def commitmentKindFor (commitment : JsString) (result : ResolutionResult) : CommitmentKind :=
  if some commitment = result.addressReferenceCommitment then .addressReference
  else if some commitment = result.agidCommitment then .agid
  else if some commitment = result.aoidCommitment then .aoid
  else if some commitment = result.credentialCommitment then .credential
  else .other

def sourceKindFor (sourceId : JsString) : SourceKind :=
  let has (s : String) : Bool := includes (platform.toLowerCase sourceId) (js s)
  if has "verification" ∨ has "postal" ∨ has "format" then .addressVerification
  else if has "federated" ∨ has "resolver" then .federatedResolver
  else if has "registry" then .registry
  else if has "address-dns" then .addressDns
  else if has "protocol" ∨ has "route" ∨ has "service" then .internetProtocol
  else if has "agid" then .agidCore
  else .unknown

def statusToStepStatus (status : JsString) : StepStatus :=
  if status ∈ ["resolved", "verified", "valid", "accept"].map js then .passed
  else if status ∈ ["partial", "conflict", "review"].map js then .review
  else if status ∈ ["missing", "skipped", "not-configured"].map js then .skipped
  else .failed

/-- `a || b`, of texts that may be missing. -/
def orOptional (a b : Option JsString) : Option JsString :=
  match a with
  | none => b
  | some [] => b
  | some s => some s

def createAddressResolutionLedgerEntry (env : Env) (result : ResolutionResult)
    (options : RecordOptions) : Entry :=
  let clean := clean platform
  let resolutionId := result.resolutionId
  let createdAt := orText (clean (some result.createdAt)) (nowIso platform env)
  let scope := orText (clean options.nullifierScope)
    (orText (clean (some result.domain)) (js "address-resolution"))
  let commitment (value : JsString) : CommitmentRecord := {
    commitmentId := safeId platform "ARLC" (.object [
      (js "resolutionId", .string resolutionId),
      (js "commitment", .string value),
      (js "scope", .string scope)])
    resolutionId := resolutionId
    commitmentKind := commitmentKindFor value result
    commitmentHash := value
    scope := scope
    createdAt := createdAt }
  let evidence (sourceId : JsString) : EvidenceRecord := {
    evidenceId := safeId platform "ARLE" (.object [
      (js "resolutionId", .string resolutionId),
      (js "sourceId", .string sourceId),
      (js "auditFingerprint", .string result.auditFingerprint)])
    resolutionId := resolutionId
    sourceKind := sourceKindFor platform sourceId
    sourceId := sourceId
    status := result.status
    confidence := some result.confidence
    evidenceHash := hexHash platform (.object [
      (js "sourceId", .string sourceId),
      (js "status", .string result.status.text),
      (js "decision", .string result.decision.text),
      (js "auditFingerprint", .string result.auditFingerprint)])
    observedAt := createdAt }
  let addressCommitment := result.addressReferenceCommitment
  let outputCommitment := orOptional result.agidCommitment result.addressReferenceCommitment
  let step (name : StepName) (status : StepStatus) (output : Option JsString)
      (completedAt : JsString) : StepRecord := {
    stepId := safeId platform "ARLS" (.array [.string resolutionId, .string name.text])
    resolutionId := resolutionId
    stepName := name
    status := status
    inputCommitment := addressCommitment
    outputCommitment := output
    completedAt := completedAt }
  let nullifierHash := clean options.nullifierHash
  { resolution := {
      resolutionId := resolutionId
      mode := result.mode
      domain := result.domain
      status := result.status
      decision := result.decision
      confidence := clamp01 result.confidence
      languageTag := nonEmpty (clean (some result.language))
      createdAt := createdAt
      auditFingerprint := result.auditFingerprint
      warningCount := result.warnings.length
      errorCount := result.errors.length }
    commitments := (result.commitments.eraseDups.filter (· ≠ [])).map commitment
    evidence := ((result.sources ++ result.sourceResults ++ result.verificationSources).eraseDups.filter
      (· ≠ [])).map evidence
    steps := [
      step .addressVerification (statusToStepStatus result.verificationStatus) addressCommitment
        createdAt,
      step .federatedConsensus (statusToStepStatus result.federatedStatus) outputCommitment createdAt,
      step .registryCheck
        (match result.registryVerification with
          | some verification => if verification.valid then .passed else .failed
          | none => .skipped)
        (result.registryVerification.bind (·.root))
        (orText ((result.registryVerification.map (·.checkedAt)).getD []) createdAt),
      step .addressDnsRecord (if result.addressDnsRecord.isSome then .passed else .skipped)
        result.addressDnsRecord createdAt,
      step .internetProtocolChecks
        (if result.errors = [] then .passed
          else if result.decision = .review then .review else .failed)
        (some result.auditFingerprint) createdAt,
      step .finalDecision
        (match result.decision with
          | .accept => .passed
          | .review => .review
          | .reject => .failed)
        (some result.auditFingerprint) createdAt]
    nullifiers :=
      if nullifierHash = [] then []
      else [{
        nullifierHash := nullifierHash
        resolutionId := resolutionId
        scope := scope
        usage := orText (clean options.nullifierUsage) (js "address-resolution")
        usedAt := createdAt
        expiresAt := nonEmpty (clean options.nullifierExpiresAt) }] }

def primaryAggregateFor (entry : Entry) : AggregateKind × JsString :=
  let commitmentOf (kind : CommitmentKind) : Option JsString :=
    ((entry.commitments.find? (·.commitmentKind = kind)).map (·.commitmentHash)).bind nonEmpty
  match commitmentOf .addressReference, commitmentOf .agid with
  | some reference, _ => (.addressReference, reference)
  | none, some agid => (.agid, agid)
  | none, none =>
    (.resolution, orText entry.resolution.auditFingerprint entry.resolution.resolutionId)

def createResolutionRecordedEventInput (entry : Entry) : EventInput :=
  let aggregate := primaryAggregateFor entry
  let resolution := entry.resolution
  { streamId := some (streamIdFor platform aggregate.1 aggregate.2)
    aggregateKind := some aggregate.1
    aggregateId := some aggregate.2
    eventType := .resolutionRecorded
    eventVersion := some 1
    occurredAt := some resolution.createdAt
    resolutionId := some resolution.resolutionId
    actorCommitment := none
    causationId := none
    correlationId := some resolution.auditFingerprint
    payload := some ([
      (js "mode", .string resolution.mode.text),
      (js "domain", .string resolution.domain),
      (js "status", .string resolution.status.text),
      (js "decision", .string resolution.decision.text),
      (js "confidence", .number resolution.confidence)]
      ++ (resolution.languageTag.map fun tag => (js "languageTag", .string tag)).toList ++ [
      (js "auditFingerprint", .string resolution.auditFingerprint),
      (js "warningCount", .number resolution.warningCount),
      (js "errorCount", .number resolution.errorCount),
      (js "commitmentCount", .number entry.commitments.length),
      (js "evidenceCount", .number entry.evidence.length),
      (js "stepCount", .number entry.steps.length),
      (js "nullifierCount", .number entry.nullifiers.length),
      (js "commitmentKinds", .array ((entry.commitments.map (·.commitmentKind)).eraseDups.map
        fun kind => .string kind.text)),
      (js "stepStatuses", .array (entry.steps.map fun step => .object [
        (js "stepName", .string step.stepName.text),
        (js "status", .string step.status.text)]))]) }

def writeReceipt (env : Env) (entry : Entry) (event : EventRecord) (snapshot : SnapshotRecord) :
    WriteReceipt where
  resolutionId := entry.resolution.resolutionId
  streamId := event.streamId
  temporalSequence := event.sequence
  temporalSnapshotId := snapshot.snapshotId
  commitmentCount := entry.commitments.length
  evidenceCount := entry.evidence.length
  stepCount := entry.steps.length
  nullifierCount := entry.nullifiers.length
  recordedAt := nowIso platform env

end Entries

end Agid.ResolutionLedger
