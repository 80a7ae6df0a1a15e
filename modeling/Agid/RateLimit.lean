import Agid.Lib.Tasks
import Agid.RequestText

/-!
# Anonymous rate limits

`registerAnonymousRateLimitProof` of `src/lib/anonymousRateLimitProof.ts` and the verification it
waits for.  A call gives way to others at each `await`: for the hash of a challenge, for the
signature and for the result of the verification.  A quota and a count are whole numbers.
-/

namespace Agid.RateLimit

/-- What the proofs take from the platform: `sha256Base64Url` of bytes, and whether a secret signs a
text with a value, none where that throws. -/
structure Platform where
  nfkc : Nfkc
  toUpperCase : JsString → JsString
  dates : Dates
  sha256Base64Url : List UInt8 → JsString
  verifyHmacSha256 : JsString → JsString → JsString → Option Bool

def ANONYMOUS_RATE_LIMIT_PROOF_VERSION : JsString := js "anonymous-rate-limit-proof-v1"

def ANONYMOUS_RATE_LIMIT_SIGNATURE_ALGORITHM : JsString := js "HMAC-SHA-256"

def ANONYMOUS_RATE_LIMIT_NULLIFIER_ALGORITHM : JsString :=
  js "hmac-sha256-anonymous-rate-limit-v1"

def ANONYMOUS_RATE_LIMIT_COMMITMENT_ALGORITHM : JsString :=
  js "sha256-salted-anonymous-rate-limit-v1"

structure AnonymousRateLimitWindow where
  bucketId : JsString
  startsAt : JsString
  endsAt : JsString
  maxRequests : ℤ

structure Nullifiers where
  algorithm : JsString
  bucketNullifier : JsString
  requestNullifier : JsString

structure Commitments where
  subjectSecretCommitment : JsString
  requestNonceCommitment : JsString

structure Privacy where
  hides : List JsString
  reveals : List JsString

structure ProofHint where
  zkReady : Bool
  zkpGenerated : Bool
  statement : JsString

structure AnonymousRateLimitClaim where
  version : JsString
  scope : JsString
  action : JsString
  audience : Option JsString
  challengeHash : JsString
  issuedAt : JsString
  expiresAt : JsString
  window : AnonymousRateLimitWindow
  nullifiers : Nullifiers
  commitments : Commitments
  privacy : Privacy
  proofHint : ProofHint

structure AnonymousRateLimitSignature where
  algorithm : JsString
  issuerId : JsString
  value : JsString

structure AnonymousRateLimitProofEnvelope where
  claim : AnonymousRateLimitClaim
  signature : AnonymousRateLimitSignature
  privateProofSalt : Option JsString
  localCacheKey : Option JsString

/-- The options of a verification, but for the usage and the nullifiers that are registered. -/
structure Options where
  issuerId : Option JsString
  issuerSecret : Option JsString
  expectedScope : Option JsString
  expectedAction : Option JsString
  expectedAudience : Option JsString
  expectedChallenge : Option JsString
  now : Option Moment
  maxRequestsPerWindow : Option ℚ
  minWindowSeconds : Option ℚ
  maxWindowSeconds : Option ℚ

structure Verification where
  valid : Bool
  signatureValid : Option Bool
  expired : Bool
  windowActive : Bool
  quotaExceeded : Bool
  replay : Bool
  privacyPreserved : Bool
  remaining : Option ℤ
  errors : List JsString
  warnings : List JsString

/-! ## Texts -/

section Texts

variable (P : Platform)

def normalizeText (value : JsString) : JsString :=
  trim (replaceRuns isWhiteSpace 32 false (P.nfkc.normalize value))

/-- A letter from A to Z, a digit, a slash or one of `:_.*-`. -/
def isTokenUnit (c : CodeUnit) : Bool :=
  (65 ≤ c.val && c.val ≤ 90) || isDigit c || [58, 95, 46, 42, 47, 45].contains c.val

def normalizeToken (value : JsString) : JsString :=
  let token := replaceRuns (!isTokenUnit ·) 45 false (P.toUpperCase (normalizeText P value))
  (token.dropWhile (· = 45)).rdropWhile (· = 45)

def strings (texts : List JsString) : JsonValue := .array (texts.map .string)

/-- The claim, with the names of its fields in their order. -/
def AnonymousRateLimitClaim.json (claim : AnonymousRateLimitClaim) : JsonValue :=
  .object ([(js "action", .string claim.action)]
    ++ (claim.audience.map fun audience => (js "audience", .string audience)).toList
    ++ [(js "challengeHash", .string claim.challengeHash),
      (js "commitments", .object [
        (js "requestNonceCommitment", .string claim.commitments.requestNonceCommitment),
        (js "subjectSecretCommitment", .string claim.commitments.subjectSecretCommitment)]),
      (js "expiresAt", .string claim.expiresAt),
      (js "issuedAt", .string claim.issuedAt),
      (js "nullifiers", .object [
        (js "algorithm", .string claim.nullifiers.algorithm),
        (js "bucketNullifier", .string claim.nullifiers.bucketNullifier),
        (js "requestNullifier", .string claim.nullifiers.requestNullifier)]),
      (js "privacy", .object [
        (js "hides", strings claim.privacy.hides),
        (js "reveals", strings claim.privacy.reveals)]),
      (js "proofHint", .object [
        (js "statement", .string claim.proofHint.statement),
        (js "zkReady", .bool claim.proofHint.zkReady),
        (js "zkpGenerated", .bool claim.proofHint.zkpGenerated)]),
      (js "scope", .string claim.scope),
      (js "version", .string claim.version),
      (js "window", .object [
        (js "bucketId", .string claim.window.bucketId),
        (js "endsAt", .string claim.window.endsAt),
        (js "maxRequests", .number (.int claim.window.maxRequests)),
        (js "startsAt", .string claim.window.startsAt)])])

def signingPayload (claim : AnonymousRateLimitClaim) : JsString := stringify claim.json

/-- The text of the envelope without its private fields. -/
def publicText (envelope : AnonymousRateLimitProofEnvelope) : JsString :=
  stringify (.object [(js "claim", envelope.claim.json),
    (js "signature", .object [
      (js "algorithm", .string envelope.signature.algorithm),
      (js "issuerId", .string envelope.signature.issuerId),
      (js "value", .string envelope.signature.value)])])

def challengeHash (challenge : JsString) : JsString :=
  P.sha256Base64Url (textEncode (stringify (.object [
    (js "algorithm", .string ANONYMOUS_RATE_LIMIT_COMMITMENT_ALGORITHM),
    (js "challenge", .string challenge),
    (js "kind", .string (js "challenge"))])))

/-- A unit that is a letter without its case, as `/iu` reads it: also a long s and the sign of the
kelvin. -/
def foldUnit (c : CodeUnit) : CodeUnit :=
  if c.val = 0x17F then 115 else if c.val = 0x212A then 107 else lowerAscii c

/-- `/"name"\s*:/iu`, at the start of a text. -/
def startsWithKey (name : JsString) : JsString → Bool
  | 34 :: s =>
    (s.take name.length).map foldUnit = name.map lowerAscii &&
      match s.drop name.length with
      | 34 :: s => (s.dropWhile isWhiteSpace).head? = some 58
      | _ => false
  | _ => false

def identityKeys : List JsString :=
  ["subjectId", "subjectRef", "aoid", "agid", "pid", "userId", "deviceId", "ipAddress", "email",
    "phone", "recipient", "unit", "addressText"].map js

def privateKeys : List JsString :=
  ["\"privateProofSalt\"", "\"localCacheKey\"", "\"subjectSecret\"", "\"holderSecret\"",
    "\"privateSecret\"", "\"privateSalt\""].map js

def hiddenFields : List JsString :=
  ["subject-secret", "subject-id", "aoid", "agid", "pid", "address", "recipient", "phone",
    "device-id", "ip-address", "proof-salt"].map js

def privacyPreserved (envelope : AnonymousRateLimitProofEnvelope) : Bool :=
  let text := publicText envelope
  envelope.privateProofSalt.isNone && envelope.localCacheKey.isNone
    && privateKeys.all (fun key => !includes text key)
    && !(text.tails.any fun s => identityKeys.any fun key => startsWithKey key s)
    && hiddenFields.all fun field => envelope.claim.privacy.hides.contains field

end Texts

/-! ## The ledger -/

structure Entry where
  count : ℤ
  requestNullifiers : List JsString

/-- The objects of entries, and the one that the map has for a bucket. -/
structure Ledger where
  objects : List Entry
  buckets : Record JsString ℕ

def Ledger.entry (ledger : Ledger) (object : ℕ) : Entry := ledger.objects.getD object ⟨0, []⟩

/-- The entry of a bucket, if there is one. -/
def Ledger.get? (ledger : Ledger) (bucket : JsString) : Option Entry :=
  (ledger.buckets.get? bucket).map ledger.entry

/-- The number that is stored for a bucket. -/
def Ledger.usage (ledger : Ledger) (bucket : JsString) : ℤ :=
  ((ledger.get? bucket).map Entry.count).getD 0

/-- A ledger with these entries. -/
def Ledger.of (entries : Record JsString Entry) : Ledger where
  objects := entries.values
  buckets := ⟨entries.keys.zipIdx, by
    rw [List.zipIdx_map_fst]
    exact entries.nodup⟩

def observedUsageFor (bucketNullifier : JsString) (observed : Ledger) : ℤ :=
  max 0 (observed.usage bucketNullifier)

/-- `set.add(nullifier)`. -/
def addNew (nullifiers : List JsString) (nullifier : JsString) : List JsString :=
  if nullifier ∈ nullifiers then nullifiers else nullifiers ++ [nullifier]

/-! ## The verification -/

/-- Whether one time is at most another; `NaN` is not. -/
def atMost (a b : Option ℤ) : Bool :=
  match a, b with
  | some a, some b => a ≤ b
  | _, _ => false

/-- What the verification has found when it waits for the signature. -/
structure Found where
  errors : List JsString
  expired : Bool
  windowActive : Bool
  quotaExceeded : Bool
  replay : Bool
  remaining : ℤ

section Verify

variable (P : Platform)

def when (holds : Bool) (error : String) : List JsString := if holds then [js error] else []

/-- An option that is a text and not empty, and is not what it has to be. -/
def mismatch (option : Option JsString) (differs : JsString → Bool) (error : String) :
    List JsString :=
  when ((option.bind nonEmpty).any differs) error

/-- The rounded seconds between two times. -/
def windowSeconds (startsAt endsAt : Option ℤ) : Option ℤ := do
  some ⌊((← endsAt) - (← startsAt) : ℚ) / 1000 + 1 / 2⌋

def registeredRequestSet (values : List JsString) : List JsString :=
  (values.map (normalizeText P)).filter (· ≠ [])

/-- Up to the signature, with the nullifiers of the entry and the ledger as they are now. -/
def find (envelope : AnonymousRateLimitProofEnvelope) (options : Options)
    (registered : List JsString) (observed : Ledger) (clock : ℤ) : Found :=
  let claim := envelope.claim
  let startsAt := P.dates.parse claim.window.startsAt
  let endsAt := P.dates.parse claim.window.endsAt
  let expiresAt := P.dates.parse claim.expiresAt
  let seconds := windowSeconds startsAt endsAt
  let now := match options.now with
    | none => some clock
    | some (.date time) => time
    | some (.text s) => if s = [] then some clock else P.dates.parse s
  let expired := atMost expiresAt now || atMost endsAt now
  let windowActive := atMost startsAt now && atMost (now.map (· + 1)) endsAt
  let replay := (registeredRequestSet P registered).contains claim.nullifiers.requestNullifier
  let used := observedUsageFor claim.nullifiers.bucketNullifier observed
  let quotaExceeded := decide (claim.window.maxRequests ≤ used)
  { errors := [
      when (claim.version ≠ ANONYMOUS_RATE_LIMIT_PROOF_VERSION)
        "unsupported-anonymous-rate-limit-proof-version",
      when (claim.nullifiers.algorithm ≠ ANONYMOUS_RATE_LIMIT_NULLIFIER_ALGORITHM)
        "unsupported-nullifier-algorithm",
      when (envelope.signature.algorithm ≠ ANONYMOUS_RATE_LIMIT_SIGNATURE_ALGORITHM)
        "unsupported-signature-algorithm",
      mismatch options.issuerId (· ≠ envelope.signature.issuerId) "issuer-mismatch",
      mismatch options.expectedScope (normalizeToken P · ≠ claim.scope) "scope-mismatch",
      mismatch options.expectedAction (normalizeToken P · ≠ claim.action) "action-mismatch",
      mismatch options.expectedAudience (normalizeToken P · ≠ claim.audience.getD [])
        "audience-mismatch",
      mismatch options.expectedChallenge (challengeHash P · ≠ claim.challengeHash)
        "challenge-mismatch",
      when (options.maxRequestsPerWindow.any fun most => most < (claim.window.maxRequests : ℚ))
        "quota-too-high",
      when (seconds.any (· ≤ 0)) "rate-limit-window-invalid",
      when (seconds.any fun s => options.minWindowSeconds.any (s < ·))
        "rate-limit-window-too-short",
      when (seconds.any fun s => options.maxWindowSeconds.any (· < s))
        "rate-limit-window-too-long",
      when expired "anonymous-rate-limit-proof-expired",
      when (!windowActive && atMost (now.map (· + 1)) startsAt)
        "rate-limit-window-not-yet-active",
      when (!windowActive && atMost endsAt now) "rate-limit-window-expired",
      when replay "request-nullifier-replayed",
      when quotaExceeded "anonymous-rate-limit-exceeded"].flatten
    expired
    windowActive
    quotaExceeded
    replay
    remaining := max 0 (claim.window.maxRequests - used - 1) }

def malformed : Verification where
  valid := false
  signatureValid := none
  expired := false
  windowActive := false
  quotaExceeded := false
  replay := false
  privacyPreserved := false
  remaining := none
  errors := [js "malformed-anonymous-rate-limit-proof"]
  warnings := [js "verification-runtime-guarded"]

/-- From the signature on. -/
def conclude (envelope : AnonymousRateLimitProofEnvelope) (found : Found)
    (signatureValid : Option Bool) : Verification :=
  let preserved := privacyPreserved envelope
  let errors := found.errors ++ when (signatureValid = some false) "signature-invalid"
    ++ when (!preserved) "privacy-fields-not-hidden"
  { valid := errors = [] && signatureValid = some true && found.windowActive && !found.quotaExceeded
      && !found.replay
    signatureValid
    expired := found.expired
    windowActive := found.windowActive
    quotaExceeded := found.quotaExceeded
    replay := found.replay
    privacyPreserved := preserved
    remaining := some found.remaining
    errors
    warnings := when signatureValid.isNone "issuer-secret-not-provided" }

end Verify

/-! ## Calls -/

structure Request where
  envelope : AnonymousRateLimitProofEnvelope
  options : Options

def Request.bucket (request : Request) : JsString :=
  request.envelope.claim.nullifiers.bucketNullifier

def Request.nullifier (request : Request) : JsString :=
  request.envelope.claim.nullifiers.requestNullifier

def Request.quota (request : Request) : ℤ := request.envelope.claim.window.maxRequests

/-- Where a call is: before its first step, at an `await`, or back with what it returned. -/
inductive Phase
  | waiting
  | hashing (object : ℕ)
  | verifying (object : ℕ) (found : Found)
  | verified (object : ℕ) (verification : Verification)
  | returned (verification : Verification) (used : ℤ)

structure Call where
  request : Request
  phase : Phase

/-- `ledger.get(bucketNullifier) ?? { count: 0, requestNullifiers: new Set() }`. -/
def openEntry (ledger : Ledger) (bucket : JsString) : ℕ × Ledger :=
  match ledger.buckets.get? bucket with
  | some object => (object, ledger)
  | none => (ledger.objects.length, { ledger with objects := ledger.objects ++ [⟨0, []⟩] })

/-- From the hash of the challenge to the next `await`. -/
def check (P : Platform) (request : Request) (object : ℕ) (ledger : Ledger) (clock : ℤ) : Phase :=
  let found := find P request.envelope request.options (ledger.entry object).requestNullifiers
    ledger clock
  match request.options.issuerSecret.bind nonEmpty with
  | some _ => .verifying object found
  | none => .verified object (conclude request.envelope found none)

/-- The entry takes the request, and is put into the map. -/
def commit (request : Request) (object : ℕ) (ledger : Ledger) : Ledger where
  objects := ledger.objects.set object
    { count := (ledger.entry object).count + 1
      requestNullifiers := addNew (ledger.entry object).requestNullifiers request.nullifier }
  buckets := ledger.buckets.set request.bucket object

/-- A call up to its next `await`, with the clock. -/
def advance (P : Platform) (clock : ℤ) (ledger : Ledger) (call : Call) : Option (Ledger × Call) :=
  let request := call.request
  match call.phase with
  | .waiting =>
    let (object, ledger) := openEntry ledger request.bucket
    match request.options.expectedChallenge.bind nonEmpty with
    | some _ => some (ledger, ⟨request, .hashing object⟩)
    | none => some (ledger, ⟨request, check P request object ledger clock⟩)
  | .hashing object => some (ledger, ⟨request, check P request object ledger clock⟩)
  | .verifying object found =>
    let verification :=
      match P.verifyHmacSha256 (request.options.issuerSecret.getD [])
        (signingPayload request.envelope.claim) request.envelope.signature.value with
      | some signatureValid => conclude request.envelope found (some signatureValid)
      | none => malformed
    some (ledger, ⟨request, .verified object verification⟩)
  | .verified object verification =>
    let ledger := if verification.valid then commit request object ledger else ledger
    some (ledger, ⟨request, .returned verification (ledger.entry object).count⟩)
  | .returned _ _ => none

def registration (P : Platform) : Tasks.System Ledger Call Request ℤ where
  start request := ⟨request, .waiting⟩
  advance := advance P

/-! ## What the limit is for -/

/-- The result says that the request is registered. -/
def Call.accepted (call : Call) : Bool :=
  match call.phase with
  | .returned verification _ => verification.valid
  | _ => false

def Call.returned (call : Call) : Bool :=
  match call.phase with
  | .returned _ _ => true
  | _ => false

/-- No bucket takes more than its quota, no request is taken twice, and when all calls have returned
the ledger has counted each one that was taken. -/
structure Limited (first : Ledger) (world : Tasks.World Ledger Call) : Prop where
  quota : ∀ (bucket : JsString) (maxRequests : ℤ),
    (∀ call ∈ world.tasks, call.request.bucket = bucket → call.request.quota ≤ maxRequests) →
    ((world.tasks.countP fun call => call.accepted ∧ call.request.bucket = bucket : ℕ) : ℤ)
      ≤ max 0 maxRequests
  once : ∀ nullifier : JsString,
    (world.tasks.countP fun call => call.accepted ∧ call.request.nullifier = nullifier) ≤ 1
  counted : (∀ call ∈ world.tasks, call.returned) → ∀ bucket : JsString,
    world.store.usage bucket = first.usage bucket
      + (world.tasks.countP fun call => call.accepted ∧ call.request.bucket = bucket : ℕ)

/-- The call has taken its first step and has not returned. -/
def Call.running (call : Call) : Bool :=
  match call.phase with
  | .waiting | .returned _ _ => false
  | _ => true

/-- Calls of one bucket run one after the other, a request nullifier is a text that is normalized
and not empty, and it belongs to one bucket. -/
def oneByOne (P : Platform) : Tasks.Condition Ledger Call Request where
  accepts request := normalizeText P request.nullifier = request.nullifier ∧ request.nullifier ≠ []
  keeps _ _ := True
  meet call other := (call.running → other.running → call.request.bucket ≠ other.request.bucket)
    ∧ (call.request.nullifier = other.request.nullifier →
      call.request.bucket = other.request.bucket)

end Agid.RateLimit
