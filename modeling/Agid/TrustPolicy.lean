import Agid.JsonValues
import Agid.Lib.Record

/-!
# The trust policy of AddressQL

`loadAddressQlTrustPolicy` of `src/lib/addressQlTrustPolicy.ts`, from what `JSON.parse` gives of the
trust store.  `Date.parse` and the keys of `node:crypto` are the platform's.  A record keeps the
fields of it that are read again.
-/

namespace Agid.AddressQl

open JsonValue

def ADDRESSQL_TRUST_POLICY_VERSION := js "addressql-trust-store-v2"

def ADDRESSQL_LEGACY_TRUST_STORE_VERSION := js "addressql-trust-store-v1"

/-- What AddressQL takes from the platform, with public keys in `Key`.  `sha256` hashes the bytes of
a text and has its prefix, and `fingerprint` hashes the DER of a key. -/
structure Platform (Key : Type) where
  dateParse : JsString → Option ℤ
  createPublicKey : JsString → Option Key
  isEd25519 : Key → Bool
  fingerprint : Key → JsString
  sha256 : JsString → JsString
  verify : List UInt8 → Key → List UInt8 → Bool
  localeLe : JsString → JsString → Bool

inductive ReviewerKeyStatus
  | active
  | revoked
  | rotated
deriving DecidableEq

structure ReviewerKeyRecord where
  reviewerId : JsString
  status : ReviewerKeyStatus
  replacesKeyId : Option JsonValue
  replacedByKeyId : Option JsonValue

structure LoadedKey (Key : Type) where
  record : ReviewerKeyRecord
  key : Key
  usable : Bool

section Load

variable {Key : Type} (P : Platform Key)

def exactTimestamp (value : Option JsonValue) (label : JsString) : Except Thrown ℤ := do
  require (← test isExactUtc value) (label ++ js " must be an exact UTC timestamp")
  match (text value).bind P.dateParse with
  | some timestamp => .ok timestamp
  | none => .error (.error (label ++ js " is invalid"))

def parsePublicKey (keyId pem : JsString) : Except Thrown Key := do
  require (isTechnicalId keyId) (js "trust store key id " ++ keyId ++ js " is invalid")
  require (!includes pem (js "PRIVATE KEY")) (js "trust store must not contain private keys")
  match P.createPublicKey pem with
  | some key =>
    require (P.isEd25519 key) (js "trust store key " ++ keyId ++ js " must be Ed25519")
    .ok key
  | none => .error .platform

/-- The status, where the list of the three includes the value. -/
def status? : Option JsonValue → Option ReviewerKeyStatus
  | some (.string s) =>
    if s = js "active" then some .active
    else if s = js "revoked" then some .revoked
    else if s = js "rotated" then some .rotated
    else none
  | _ => none

/-- `value?.trim()`, none for `undefined`. -/
def optionalTrim : Option JsonValue → Except Thrown (Option JsString)
  | none | some .null => .ok none
  | some (.string s) => .ok (some (trim s))
  | some _ => .error .platform

/-- The checks that only the status asks for. -/
def checkStatus (keyId : JsString) (record : Option JsonValue) (addedAt : ℤ) :
    ReviewerKeyStatus → Except Thrown Unit
  | .active => .ok ()
  | .revoked => do
    let revokedAt ← get record "revokedAt"
    let needs := js "revoked trust policy key " ++ keyId ++ js " needs time and reason"
    require (truthy revokedAt) needs
    let reason ← optionalTrim (← get record "revocationReason")
    require (reason.any (· ≠ [])) needs
    let time ← exactTimestamp P revokedAt (keyId ++ js ".revokedAt")
    require (addedAt ≤ time)
      (js "trust policy key " ++ keyId ++ js " was revoked before registration")
  | .rotated => do
    let rotatedAt ← get record "rotatedAt"
    let replacedByKeyId ← get record "replacedByKeyId"
    let needs := js "rotated trust policy key " ++ keyId ++ js " needs replacement metadata"
    require (truthy rotatedAt && truthy replacedByKeyId) needs
    require (← test isTechnicalId replacedByKeyId) needs
    let time ← exactTimestamp P rotatedAt (keyId ++ js ".rotatedAt")
    require (addedAt ≤ time)
      (js "trust policy key " ++ keyId ++ js " was rotated before registration")

def checkPredecessor (keyId : JsString) : Option JsonValue → Except Thrown Unit
  | none => .ok ()
  | some (.string replacesKeyId) => require (isTechnicalId replacesKeyId)
      (js "trust policy key " ++ keyId ++ js " has an invalid predecessor")
  | some _ => .error (.error (js "trust policy key " ++ keyId ++ js " has an invalid predecessor"))

def parseV2Record (keyId : JsString) (value : JsonValue) (now : ℤ) :
    Except Thrown (LoadedKey Key) :=
  match value with
  | .object members => do
    let record : Option JsonValue := some (.object members)
    let invalid := js "trust policy key " ++ keyId ++ js " has invalid key material or status"
    match member (js "reviewerId") members, member (js "publicKey") members,
        status? (member (js "status") members) with
    | some (.string reviewerId), some (.string publicKey), some status => do
      require (isTechnicalId reviewerId) invalid
      let validFrom ← exactTimestamp P (← get record "validFrom") (keyId ++ js ".validFrom")
      let validUntil ← exactTimestamp P (← get record "validUntil") (keyId ++ js ".validUntil")
      let addedAt ← exactTimestamp P (← get record "addedAt") (keyId ++ js ".addedAt")
      require (validFrom < validUntil)
        (js "trust policy key " ++ keyId ++ js " validity window is invalid")
      require (addedAt ≤ validUntil)
        (js "trust policy key " ++ keyId ++ js " was added after expiry")
      checkStatus P keyId record addedAt status
      let replacesKeyId ← get record "replacesKeyId"
      checkPredecessor keyId replacesKeyId
      let key ← parsePublicKey P keyId publicKey
      .ok {
        record := {
          reviewerId, status, replacesKeyId
          replacedByKeyId := ← get record "replacedByKeyId" }
        key
        usable := status = .active && validFrom ≤ now && now ≤ validUntil }
    | _, _, _ => .error (.error invalid)
  | _ => .error (.error (js "trust policy key " ++ keyId ++ js " must be an object"))

/-! ## The maps of records -/

/-- The records so far, and the id of the key of each fingerprint. -/
structure LoadedKeys (Key : Type) where
  records : Record JsString (LoadedKey Key)
  fingerprints : Record JsString JsString

def loadKeys (now : ℤ) : LoadedKeys Key → List (JsString × JsonValue) →
    Except Thrown (LoadedKeys Key)
  | keys, [] => .ok keys
  | keys, (keyId, value) :: entries => do
    let loaded ← parseV2Record P keyId value now
    let fingerprint := P.fingerprint loaded.key
    -- an id that is accepted is not empty
    match keys.fingerprints.get? fingerprint with
    | some duplicateKeyId => .error (.error (js "trust policy keys " ++ duplicateKeyId ++ js " and "
        ++ keyId ++ js " reuse one public key"))
    | none =>
      let keys : LoadedKeys Key := {
        records := keys.records.set keyId loaded
        fingerprints := keys.fingerprints.set fingerprint keyId }
      loadKeys now keys entries

/-- `map.get(id)`. -/
def getRecord (records : Record JsString (LoadedKey Key)) :
    Option JsonValue → Option (LoadedKey Key)
  | some (.string keyId) => records.get? keyId
  | _ => none

def checkRotation (records : Record JsString (LoadedKey Key)) (keyId : JsString)
    (record : ReviewerKeyRecord) : Except Thrown Unit := do
  let predecessor := getRecord records record.replacesKeyId
  let replacement := getRecord records record.replacedByKeyId
  require (!truthy record.replacesKeyId || predecessor.isSome)
    (js "trust policy key " ++ keyId ++ js " replaces an unknown key")
  require (!truthy record.replacedByKeyId || replacement.isSome)
    (js "trust policy key " ++ keyId ++ js " references an unknown replacement")
  require (!truthy record.replacesKeyId || predecessor.any fun predecessor =>
      same predecessor.record.replacedByKeyId (some (.string keyId))
        && predecessor.record.reviewerId = record.reviewerId)
    (js "trust policy key " ++ keyId ++ js " has an inconsistent rotation chain")
  require (!truthy record.replacedByKeyId || replacement.any fun replacement =>
      same replacement.record.replacesKeyId (some (.string keyId))
        && replacement.record.reviewerId = record.reviewerId)
    (js "trust policy key " ++ keyId ++ js " has an inconsistent replacement")

structure LoadedTrustPolicy (Key : Type) where
  minimumSignatures : ℤ
  records : Record JsString (LoadedKey Key)

/-- `trust.usableKeys.get(id)`. -/
def LoadedTrustPolicy.usableKey (trust : LoadedTrustPolicy Key) (keyId : Option JsonValue) :
    Option Key :=
  (getRecord trust.records keyId).bind fun loaded => if loaded.usable then some loaded.key else none

/-- An integer between 2 and 10. -/
def minimumSignatures? : Option JsonValue → Option ℤ
  | some (.number (.int n)) => if 2 ≤ n ∧ n ≤ 10 then some n else none
  | _ => none

/-- `policy?.minimumSignatures`. -/
def policyMinimum (parsed : Option JsonValue) : Except Thrown (Option JsonValue) := do
  match ← get parsed "policy" with
  | none | some .null => .ok none
  | policy => get policy "minimumSignatures"

/-- `loadAddressQlTrustPolicy(path, { now, requireV2: true })`, of what `JSON.parse` gives of the
file, if it is read.  `now` is none where it is no time. -/
def loadAddressQlTrustPolicy (parsed : Option JsonValue) (now : Option ℤ) :
    Except Thrown (LoadedTrustPolicy Key) := do
  match parsed, now with
  | some (.object members), some now =>
    let version := member (js "version") members
    require (!same version (some (.string ADDRESSQL_LEGACY_TRUST_STORE_VERSION)))
      (js "release quorum requires addressql-trust-store-v2")
    require (same version (some (.string ADDRESSQL_TRUST_POLICY_VERSION)))
      (js "trust store version is unsupported")
    match minimumSignatures? (← policyMinimum parsed), member (js "keys") members with
    | some minimumSignatures, some (.object entries) =>
      let keys ← loadKeys P now ⟨.empty, .empty⟩ entries
      keys.records.entries.forM fun entry => checkRotation keys.records entry.1 entry.2.record
      .ok ⟨minimumSignatures, keys.records⟩
    | some _, _ => .error (.error (js "trust policy keys must be an object"))
    | none, _ => .error (.error (js "trust policy minimumSignatures must be between 2 and 10"))
  | some (.object _), none => .error (.error (js "trust policy evaluation time is invalid"))
  | some _, _ => .error (.error (js "trust store must be a JSON object"))
  | none, _ => .error .platform

end Load

end Agid.AddressQl
