import Agid.TrustPolicy

/-!
# The runtime release ledger of AddressQL

`verifyAddressQlRuntimeRelease` of `src/lib/addressQlRuntimeReleaseLedger.ts` over one state file.
What `JSON.parse` gives of a file stands for the file, but for the runtime config, whose text is
hashed; a file that is missing, too long or no JSON is none.
-/

namespace Agid.AddressQl

open JsonValue

def ADDRESSQL_RUNTIME_CONFIG_VERSION := js "addressql-runtime-config-v1"

def ADDRESSQL_RUNTIME_RELEASE_PAYLOAD_VERSION := js "addressql-runtime-release-payload-v1"

def ADDRESSQL_RUNTIME_RELEASE_LEDGER_VERSION := js "addressql-runtime-release-ledger-v1"

def ADDRESSQL_RUNTIME_RELEASE_STATE_VERSION := js "addressql-runtime-release-state-v1"

/-- A payload that was checked.  What is compared again, or printed, is kept as it was parsed. -/
structure RuntimeReleasePayload where
  releaseId : Option JsonValue
  sequence : ℤ
  previousReleaseDigest : Option JsonValue
  configDigest : Option JsonValue
  createdAt : Option JsonValue
  validFrom : Option JsonValue
  validUntil : Option JsonValue
  minimumSignatures : ℤ

structure RuntimeReleaseState where
  lastSequence : ℤ
  lastReleaseDigest : Option JsonValue

section Ledger

variable {Key : Type} (P : Platform Key)

/-! ## The config and the payload -/

def readJson (parsed : Option JsonValue) (label : JsString) : Except Thrown JsonValue :=
  match parsed with
  | none => .error .platform
  | some (.object members) => .ok (.object members)
  | some _ => .error (.error (label ++ js " must be a JSON object"))

/-- Whether some adapter is not approved. -/
def someUnapproved : List JsonValue → Except Thrown Bool
  | [] => .ok false
  | adapter :: adapters => do
    if same (← get (some adapter) "mode") (some (.string (js "approved"))) then
      someUnapproved adapters
    else .ok true

/-- Of the text of the config and what it parses to. -/
def configDigest (config : Option (JsString × Option JsonValue)) : Except Thrown JsString := do
  let approvedOnly := js "release config must contain approved runtime adapters only"
  match config with
  | some (text, some value) =>
    let version ← get (some value) "version"
    require (same version (some (.string ADDRESSQL_RUNTIME_CONFIG_VERSION))) approvedOnly
    match ← get (some value) "adapters" with
    | some (.array adapters) =>
      require (!adapters.isEmpty) approvedOnly
      require (!(← someUnapproved adapters)) approvedOnly
      require (!includes text (js "PRIVATE KEY"))
        (js "release config must not contain private key material")
      .ok (P.sha256 text)
    | _ => .error (.error approvedOnly)
  | _ => .error .platform

/-- The positive integer, where a sequence number is one and safe. -/
def sequence? : Option JsonValue → Option ℤ
  | some (.number n) => n.safeInteger?.filter (1 ≤ ·)
  | _ => none

def validatePayload (payload : Option JsonValue) : Except Thrown RuntimeReleasePayload := do
  require (same (← get payload "version")
      (some (.string ADDRESSQL_RUNTIME_RELEASE_PAYLOAD_VERSION)))
    (js "runtime release payload version is invalid")
  let releaseId ← get payload "releaseId"
  require (← test isTechnicalId releaseId) (js "runtime release id is invalid")
  match sequence? (← get payload "sequence") with
  | none => .error (.error (js "runtime release sequence must be a positive safe integer"))
  | some sequence =>
    let previousReleaseDigest ← get payload "previousReleaseDigest"
    let isNull := same previousReleaseDigest (some .null)
    if !isNull then
      require (← test isSha256 previousReleaseDigest) (js "previous release digest is invalid")
    require (sequence ≠ 1 || isNull) (js "first runtime release must not have a previous digest")
    require (sequence = 1 || !isNull) (js "subsequent runtime release needs a previous digest")
    let configDigest ← get payload "configDigest"
    require (← test isSha256 configDigest) (js "runtime release config digest is invalid")
    let createdAt ← get payload "createdAt"
    let created ← exactTimestamp P createdAt (js "release.createdAt")
    let validFrom ← get payload "validFrom"
    let start ← exactTimestamp P validFrom (js "release.validFrom")
    let validUntil ← get payload "validUntil"
    let ends ← exactTimestamp P validUntil (js "release.validUntil")
    require (created ≤ start && start < ends) (js "runtime release validity window is invalid")
    match minimumSignatures? (← get payload "minimumSignatures") with
    | none => .error (.error (js "runtime release minimumSignatures must be between 2 and 10"))
    | some minimumSignatures => .ok {
        releaseId, sequence, previousReleaseDigest, configDigest, createdAt, validFrom, validUntil
        minimumSignatures }

/-- The object literal, without the fields that are `undefined`. -/
def RuntimeReleasePayload.value (payload : RuntimeReleasePayload) : JsonValue :=
  .object ([
    ("version", some (.string ADDRESSQL_RUNTIME_RELEASE_PAYLOAD_VERSION)),
    ("releaseId", payload.releaseId),
    ("sequence", some (.number (.int payload.sequence))),
    ("previousReleaseDigest", payload.previousReleaseDigest),
    ("configDigest", payload.configDigest),
    ("createdAt", payload.createdAt),
    ("validFrom", payload.validFrom),
    ("validUntil", payload.validUntil),
    ("minimumSignatures", some (.number (.int payload.minimumSignatures)))].filterMap
      fun field => field.2.map (js field.1, ·))

/-- `buildAddressQlRuntimeReleasePayload(payload)`, of a payload that was checked. -/
def RuntimeReleasePayload.canonical (payload : RuntimeReleasePayload) : JsString :=
  stringify payload.value

/-! ## The digest of a release -/

/-- `[...value]`. -/
def spread : Option JsonValue → Except Thrown (List JsonValue)
  | some (.array items) => .ok items
  | some (.string s) => .ok ((chars s).map .string)
  | _ => .error .platform

/-- `item.keyId`, where it has a `localeCompare`. -/
def stringKeyId (item : JsonValue) : Except Thrown (JsString × JsonValue) := do
  match ← get (some item) "keyId" with
  | some (.string keyId) => .ok (keyId, item)
  | _ => .error .platform

/-- The sort compares nothing where there is one signature.  Where a key id is no string, a release
that this refuses is refused later if the sort never calls `localeCompare` on it. -/
def sortedSignatures (signatures : Option JsonValue) : Except Thrown (List JsonValue) := do
  let items ← spread signatures
  if items.length ≤ 1 then .ok items
  else
    let keyed ← items.mapM stringKeyId
    .ok ((keyed.insertionSort fun a b => P.localeLe a.1 b.1).map Prod.snd)

/-- The text that the digest of a release is of.  What is parsed of the canonical text of a payload
prints as that text. -/
def releaseText (payload : RuntimeReleasePayload) (sorted : List JsonValue) : JsString :=
  stringify (.object [(js "payload", payload.value), (js "signatures", .array sorted)])

def calculateReleaseDigest (payload : RuntimeReleasePayload) (signatures : Option JsonValue) :
    Except Thrown JsString := do
  .ok (P.sha256 (releaseText payload (← sortedSignatures P signatures)))

/-! ## The state file -/

def readState (file : Option JsonValue) : Except Thrown (Option RuntimeReleaseState) := do
  match file with
  | none => .ok none
  | some file =>
    let invalid := js "runtime release state is invalid"
    let state ← readJson (some file) (js "runtime release state")
    require (same (← get (some state) "version")
      (some (.string ADDRESSQL_RUNTIME_RELEASE_STATE_VERSION))) invalid
    match sequence? (← get (some state) "lastSequence") with
    | none => .error (.error invalid)
    | some lastSequence =>
      let lastReleaseDigest ← get (some state) "lastReleaseDigest"
      require (← test isSha256 lastReleaseDigest) invalid
      require (← test isSha256 (← get (some state) "lastConfigDigest")) invalid
      let _ ← exactTimestamp P (← get (some state) "updatedAt") (js "releaseState.updatedAt")
      .ok (some { lastSequence, lastReleaseDigest })

def assertNoRollback (payload : RuntimeReleasePayload) (releaseDigest : JsString) :
    Option RuntimeReleaseState → Except Thrown Unit
  | none => require (payload.sequence = 1 && same payload.previousReleaseDigest (some .null))
      (js "runtime release state must be bootstrapped from sequence 1")
  | some state => do
    require (state.lastSequence ≤ payload.sequence) (js "runtime release rollback detected")
    if payload.sequence = state.lastSequence then
      require (same (some (.string releaseDigest)) state.lastReleaseDigest)
        (js "runtime release sequence equivocation detected")
    else
      require (payload.sequence = state.lastSequence + 1)
        (js "runtime release sequence gap detected")
      require (same payload.previousReleaseDigest state.lastReleaseDigest)
        (js "runtime release chain digest mismatch")

/-! ## Verification -/

/-- What a call reads, apart from the state file: the files, the clock each time it asks for it, and
whether the temporary file of a new state is written and renamed. -/
structure Call where
  config : Option (JsString × Option JsonValue)
  ledger : Option JsonValue
  trustStore : Option JsonValue
  now : Option JsString
  verificationClock : JsString
  trustClock : ℤ
  updateClock : JsString
  written : Bool
  renamed : Bool

/-- The time that the keys are judged at. -/
def Call.trustTime (call : Call) : Option ℤ :=
  match call.now with
  | some now => P.dateParse now
  | none => some call.trustClock

def base64Digit (c : CodeUnit) : ℕ :=
  if 65 ≤ c.val ∧ c.val ≤ 90 then c.val - 65
  else if 97 ≤ c.val ∧ c.val ≤ 122 then c.val - 71
  else if 48 ≤ c.val ∧ c.val ≤ 57 then c.val + 4
  else if c.val = 43 then 62
  else 63

/-- The bytes that digits make, without the bits that make none. -/
def base64Bytes : List ℕ → List UInt8
  | a :: b :: c :: d :: digits =>
    [.ofNat (a * 4 + b / 16), .ofNat (b * 16 + c / 4), .ofNat (c * 64 + d)] ++ base64Bytes digits
  | [a, b, c] => [.ofNat (a * 4 + b / 16), .ofNat (b * 16 + c / 4)]
  | [a, b] => [.ofNat (a * 4 + b / 16)]
  | _ => []

/-- `Buffer.from(signature, 'base64')`, of a text that `isBase64` accepts. -/
def fromBase64 (signature : JsString) : List UInt8 :=
  base64Bytes ((signature.takeWhile isBase64Unit).map base64Digit)

/-- The body of the loop over the signatures. -/
def checkSignature (trust : LoadedTrustPolicy Key) (canonical : JsString) (item : JsonValue) :
    Except Thrown Unit := do
  let keyId ← get (some item) "keyId"
  match trust.usableKey keyId with
  | none =>
    match text keyId with
    | some named => .error (.error (js "release reviewer key " ++ named ++ js " is not active"))
    | none => .error .platform
  | some key =>
    let named := (text keyId).getD []
    let failed := js "runtime release ledger signature failed for " ++ named
    let reviewerId ← get (some item) "reviewerId"
    let mismatch := js "release reviewer identity mismatch for " ++ named
    require (← test isTechnicalId reviewerId) mismatch
    require ((getRecord trust.records keyId).any fun loaded =>
      same (some (.string loaded.record.reviewerId)) reviewerId) mismatch
    match ← get (some item) "signature" with
    | some (.string signature) =>
      require (isBase64 signature) (js "runtime release ledger signature is not base64")
      let bytes := fromBase64 signature
      require (bytes.length = 64 && P.verify (textEncode canonical) key bytes) failed
    | signature =>
      require (← test isBase64 signature) (js "runtime release ledger signature is not base64")
      -- an array that prints as base64 has one item, and so one byte
      if signature matches some (.array _) then .error (.error failed) else .error .platform

/-- `new Set(items.map(item => item.name)).size === items.length`. -/
def distinct (name : String) (items : List JsonValue) : Except Thrown Bool := do
  let values ← items.mapM fun item => get (some item) name
  .ok (decide (values.Pairwise fun v w => same v w = false))

structure Verified where
  payload : RuntimeReleasePayload
  releaseDigest : JsString
  minimumSignatures : ℤ

/-- Everything that is checked before the state file is read. -/
def checkRelease (call : Call) : Except Thrown Verified := do
  let ledger := some (← readJson call.ledger (js "runtime release ledger"))
  require (same (← get ledger "version") (some (.string ADDRESSQL_RUNTIME_RELEASE_LEDGER_VERSION)))
    (js "runtime release ledger version is invalid")
  let payload ← validatePayload P (← get ledger "payload")
  let now ← exactTimestamp P (some (.string (call.now.getD call.verificationClock)))
    (js "releaseVerification.now")
  let inWindow := ((text payload.validFrom).bind P.dateParse).all (· ≤ now)
    && ((text payload.validUntil).bind P.dateParse).all (now ≤ ·)
  require inWindow (js "runtime release is outside its validity window")
  require (same payload.configDigest (some (.string (← configDigest P call.config))))
    (js "runtime release config digest mismatch")
  let signatures ← get ledger "signatures"
  let expectedReleaseDigest ← calculateReleaseDigest P payload signatures
  require (same (← get ledger "releaseDigest") (some (.string expectedReleaseDigest)))
    (js "runtime release ledger digest mismatch")
  let trust ← loadAddressQlTrustPolicy P call.trustStore (call.trustTime P)
  let required := max payload.minimumSignatures trust.minimumSignatures
  match signatures with
  | some (.array items) =>
    require (← distinct "keyId" items)
      (js "runtime release ledger has duplicate reviewer signatures")
    require (← distinct "reviewerId" items)
      (js "runtime release quorum requires independent reviewers")
    require (required ≤ items.length)
      (js "runtime release ledger requires at least " ++ js (toString required) ++ js " signatures")
    items.forM (checkSignature P trust payload.canonical)
    .ok { payload, releaseDigest := expectedReleaseDigest, minimumSignatures := required }
  | _ => .error .platform

/-- What `writeState` writes. -/
def stateValue (call : Call) (release : Verified) : JsonValue :=
  .object ([
    ("version", some (.string ADDRESSQL_RUNTIME_RELEASE_STATE_VERSION)),
    ("lastSequence", some (.number (.int release.payload.sequence))),
    ("lastReleaseDigest", some (.string release.releaseDigest)),
    ("lastConfigDigest", release.payload.configDigest),
    ("updatedAt", some (.string (call.now.getD call.updateClock)))].filterMap
      fun field => field.2.map (js field.1, ·))

/-- `verifyAddressQlRuntimeRelease`: what it returns, and the state file after it. -/
def verifyAddressQlRuntimeRelease (advanceState : Bool) (call : Call) (file : Option JsonValue) :
    Except Thrown Verified × Option JsonValue :=
  match checkRelease P call with
  | .error thrown => (.error thrown, file)
  | .ok release =>
    match readState P file with
    | .error thrown => (.error thrown, file)
    | .ok state =>
      match assertNoRollback release.payload release.releaseDigest state with
      | .error thrown => (.error thrown, file)
      | .ok () =>
        let advances := advanceState && state.all fun state =>
          !same state.lastReleaseDigest (some (.string release.releaseDigest))
        if advances then
          -- the file of another name is written first, and becomes the state file at once
          if call.written && call.renamed then (.ok release, some (stateValue call release))
          else (.error .platform, file)
        else (.ok release, file)

/-! ## Runs -/

structure Outcome where
  call : Call
  before : Option JsonValue
  after : Option JsonValue
  result : Except Thrown Verified

/-- The calls one after another over one state file, each to advance it. -/
def outcomes : Option JsonValue → List Call → List Outcome
  | _, [] => []
  | before, call :: calls =>
    let (result, after) := verifyAddressQlRuntimeRelease P true call before
    ⟨call, before, after, result⟩ :: outcomes after calls

def Outcome.accepted (outcome : Outcome) : Option (Call × Verified) :=
  match outcome.result with
  | .ok release => some (outcome.call, release)
  | .error _ => none

/-- The calls that are accepted, with what they return. -/
def accepted (file : Option JsonValue) (calls : List Call) : List (Call × Verified) :=
  (outcomes P file calls).filterMap Outcome.accepted

/-- The releases that are accepted, without the immediate repetitions of a digest. -/
def releases (file : Option JsonValue) (calls : List Call) : List Verified :=
  ((accepted P file calls).map Prod.snd).destutter fun a b => a.releaseDigest ≠ b.releaseDigest

/-- The text of which a call computes the digest of its release. -/
def Call.hashed (call : Call) : Option JsString :=
  (do
    let ledger := some (← readJson call.ledger (js "runtime release ledger"))
    let payload ← validatePayload P (← get ledger "payload")
    let sorted ← sortedSignatures P (← get ledger "signatures")
    .ok (releaseText payload sorted) : Except Thrown JsString).toOption

/-! ## What is asked of a run -/

structure Signer (Key : Type) where
  keyId : JsString
  reviewerId : JsString
  key : Key

/-- A record of the trust store makes the key of the reviewer usable at the time. -/
def UsableAt (trustStore : Option JsonValue) (time : ℤ) (signer : Signer Key) : Prop :=
  ∃ store keys record publicKey validFrom validUntil,
    trustStore = some (.object store) ∧ member (js "keys") store = some (.object keys)
      ∧ (signer.keyId, .object record) ∈ keys
      ∧ member (js "reviewerId") record = some (.string signer.reviewerId)
      ∧ member (js "status") record = some (.string (js "active"))
      ∧ member (js "publicKey") record = some (.string publicKey)
      ∧ P.createPublicKey publicKey = some signer.key
      ∧ (text (member (js "validFrom") record)).bind P.dateParse = some validFrom
      ∧ (text (member (js "validUntil") record)).bind P.dateParse = some validUntil
      ∧ validFrom ≤ time ∧ time ≤ validUntil

/-- A signature of 64 bytes verifies for the key. -/
def Signs (key : Key) (canonical : JsString) : Prop :=
  ∃ signature : List UInt8, signature.length = 64
    ∧ P.verify (textEncode canonical) key signature = true

/-- As many usable keys as the payload and the policy ask for, of reviewers that all differ, signed
the canonical payload. -/
def QuorumSigned (call : Call) (release : Verified) : Prop :=
  ∃ (time minimum : ℤ) (signers : List (Signer Key)),
    call.trustTime P = some time
      ∧ policyMinimum call.trustStore = .ok (some (.number (.int minimum)))
      ∧ max release.payload.minimumSignatures minimum ≤ signers.length
      ∧ (signers.map Signer.reviewerId).Nodup ∧ (signers.map Signer.key).Nodup
      ∧ ∀ signer ∈ signers, UsableAt P call.trustStore time signer
        ∧ Signs P signer.key release.payload.canonical

structure RollbackProof (file : Option JsonValue) (calls : List Call) : Prop where
  numbered : ((releases P file calls).map fun release => release.payload.sequence)
    = (List.range (releases P file calls).length).map fun i : ℕ => (i : ℤ) + 1
  first : ∀ release ∈ (releases P file calls).head?,
    release.payload.previousReleaseDigest = some .null
  chained : (releases P file calls).IsChain fun a b =>
    b.payload.previousReleaseDigest = some (.string a.releaseDigest)
  unequivocal : ∀ a ∈ accepted P file calls, ∀ b ∈ accepted P file calls,
    a.2.payload.sequence = b.2.payload.sequence → a.2.releaseDigest = b.2.releaseDigest
  signed : ∀ a ∈ accepted P file calls, QuorumSigned P a.1 a.2
  unchanged : ∀ outcome ∈ outcomes P file calls, outcome.accepted = none →
    outcome.after = outcome.before

end Ledger

end Agid.AddressQl
