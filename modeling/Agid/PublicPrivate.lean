import Agid.Grid
import Agid.Lib.JsonTree
import Agid.RequestText

/-!
# Public and private fields

`separatePublicPrivatePayload` and `validatePublicPayloadSeparation` of
`src/lib/publicPrivateSeparation.ts`.  A payload is parsed JSON, the members of an object in the
order of `Object.entries`; under the name `__proto__` a write goes to the prototype instead, so
nothing here speaks of that name.  The time and the fingerprint of a separation are left out.
-/

namespace Agid.PublicPrivate

open JsonText (Value)

/-- What the sources take from the platform, and the hash of a text.  A letter before another one
stays the first of a text. -/
structure Platform where
  nfkc : Nfkc
  nfkc_head : ∀ (c d : CodeUnit) (s : JsString), isAsciiLetter c → isAsciiLetter d →
    (nfkc.normalize (c :: d :: s)).head? = some c
  toLowerCase : JsString → JsString
  toLowerCase_ascii : ∀ s : JsString, (∀ c ∈ s, c.val < 128) → toLowerCase s = s.map lowerAscii
  toUpperCase : JsString → JsString
  sha256Hex : JsString → JsString

def PUBLIC_PRIVATE_SEPARATION_VERSION : JsString := js "public-private-separation-v1"

def PUBLIC_PRIVATE_COMMITMENT_ALGORITHM : JsString :=
  js "sha256-domain-separated-public-private-commitment-v1"

inductive Mode
  | localOnly
  | serverRegistry
  | addressDns
  | zkProof
  | ethereumRegistry
  | publicQr
  | privateQr
  | encryptedSync
  | eventStream
  | openapi
deriving DecidableEq

def Mode.text : Mode → JsString
  | localOnly => js "local-only"
  | serverRegistry => js "server-registry"
  | addressDns => js "address-dns"
  | zkProof => js "zk-proof"
  | ethereumRegistry => js "ethereum-registry"
  | publicQr => js "public-qr"
  | privateQr => js "private-qr"
  | encryptedSync => js "encrypted-sync"
  | eventStream => js "event-stream"
  | openapi => js "openapi"

inductive Sensitivity
  | isPublic
  | isPrivate
  | secretLocalOnly
deriving DecidableEq

/-- The input but for the payload. -/
structure Settings where
  mode : Mode
  domain : JsString
  salt : Option JsString
  highRiskMode : Bool
  allowPublicAgid : Bool

structure Decision where
  sensitivity : Sensitivity
  reason : JsString

structure Classification where
  path : JsString
  key : JsString
  sensitivity : Sensitivity
  reason : JsString
  commitment : Option JsString

structure Commitment where
  path : JsString
  key : JsString
  domain : JsString
  commitment : JsString

abbrev Members := List (JsString × JsonValue)

structure Separation where
  domain : JsString
  publicPayload : Members
  privatePayload : Members
  commitments : List Commitment
  classification : List Classification
  blocked : Bool
  errors : List JsString
  warnings : List JsString
  rawAgidPublic : Bool

structure Validation where
  valid : Bool
  errors : List JsString
  warnings : List JsString

def PUBLIC_NETWORK_MODES : List Mode :=
  [.serverRegistry, .addressDns, .zkProof, .ethereumRegistry, .publicQr, .eventStream, .openapi]

def PRIVATE_KEY_SET : List JsString :=
  ["address", "addresstext", "addressline", "addresslines", "fulladdress", "rawaddress",
    "streetaddress", "physicaladdress", "recipient", "recipientname", "name", "fullname", "phone",
    "phonenumber", "telephone", "email", "building", "room", "unit", "unitnumber", "apartment",
    "flat", "suite", "floor", "postcode", "postalcode", "zip", "lat", "latitude", "lng", "lon",
    "longitude", "coordinates", "deliveryinstructions", "accessinstructions", "privatenote",
    "agids", "agidsecure", "ciphertext", "encryptedpayload"].map js

def SECRET_KEY_SET : List JsString :=
  ["secret", "recipientsecret", "privatesecret", "privatekey", "secretkey", "mnemonic", "seed",
    "password", "passphrase", "token", "accesstoken", "refreshtoken", "credentialsecret"].map js

/-- The words of `PUBLIC_KEY_PATTERN`. -/
def PUBLIC_KEY_WORDS : List JsString :=
  ["commitment", "hash", "root", "nullifier", "issuerid", "issuerstatus", "scope", "recordid",
    "recordhash", "ownername", "zone", "ttl", "priority", "weight", "serviceendpoint", "policy",
    "evidence", "freshness", "revocation", "status", "version", "algorithm", "keyid", "jti",
    "alias", "confidence", "quality", "country", "region", "language", "locale", "createdat",
    "issuedat", "expiresat"].map js

section Texts

variable (P : Platform)

def clean : JsonValue → JsString
  | .string s => trim (P.nfkc.normalize s)
  | _ => []

/-- `[a-z0-9:._-]`. -/
def isDomainUnit (c : CodeUnit) : Bool :=
  isLowerLetter c || isDigit c || [58, 46, 95, 45].contains c

def normalizeDomain (value : JsString) : JsString :=
  replaceRuns (!isDomainUnit ·) 45 false (P.toLowerCase (clean P (.string value)))

def normalizeKey (key : JsString) : JsString :=
  (P.toLowerCase key).filter fun c => isLowerLetter c || isDigit c

def withoutSign : JsString → JsString
  | 45 :: s => s
  | s => s

/-- `/^-?\d{1,3}\.\d+\s*,\s*-?\d{1,3}\.\d+$/` of the trimmed value. -/
def looksLikeCoordinatePair (value : JsString) : Bool :=
  match afterDecimal 3 (withoutSign (trim value)) with
  | none => false
  | some rest =>
    match rest.dropWhile isWhiteSpace with
    | 44 :: rest => afterDecimal 3 (withoutSign (rest.dropWhile isWhiteSpace)) = some []
    | _ => false

/-- `[0-9A-HJKMNP-TV-Z]`. -/
def isAoidUnit (c : CodeUnit) : Bool :=
  isDigit c || (65 ≤ c.val && c.val ≤ 90 && !(js "ILOU").contains c)

def looksLikeRawAoid (value : JsString) : Bool :=
  let compact := (P.toUpperCase value).filter fun c => !(isWhiteSpace c || c = 45)
  9 ≤ compact.length && compact.length ≤ 16 && compact.all isAoidUnit

def normalizeAGIDInput (value : JsString) : Option JsString :=
  nonEmpty (P.toUpperCase (trim value))

/-- `isValidAGIDFormat(normalizeAGIDInput(value))`, which cleans the value twice. -/
def isValidAGIDText (value : JsString) : Bool :=
  ((normalizeAGIDInput P value).bind (normalizeAGIDInput P)).any Agid.isValidAGIDFormat

end Texts

/-! ## Leaves -/

structure Leaf where
  path : List JsString
  key : JsString
  value : JsonValue

def indexKey (i : ℕ) : JsString := js (toString i)

mutual

/-- What is neither an array nor an object, in the order in which `visit` comes to it. -/
def visit (path : List JsString) (key : JsString) : JsonValue → List Leaf
  | .array items => visitItems path 0 items
  | .object members => visitMembers path members
  | value => [⟨path, key, value⟩]

def visitItems (path : List JsString) (i : ℕ) : List JsonValue → List Leaf
  | [] => []
  | item :: items =>
    visit (path ++ [indexKey i]) (indexKey i) item ++ visitItems path (i + 1) items

def visitMembers (path : List JsString) : Members → List Leaf
  | [] => []
  | (key, value) :: members => visit (path ++ [key]) key value ++ visitMembers path members

end

/-- `path.join('.')`. -/
def Leaf.fieldPath (leaf : Leaf) : JsString := (js ".").intercalate leaf.path

/-- `cloneJson(value)` of a leaf: a number that is not finite is written as null. -/
def cloneJson : JsonValue → JsonValue
  | .number (.infinite _) => .null
  | value => value

/-! ## The separation -/

section Separate

variable (P : Platform) (settings : Settings)

def canExposeAgid : Bool :=
  if settings.highRiskMode then false
  else if PUBLIC_NETWORK_MODES.contains settings.mode && !settings.allowPublicAgid then false
  else settings.allowPublicAgid || settings.mode = .localOnly || settings.mode = .privateQr

def isAgidKey (key : JsString) : Bool :=
  normalizeKey P key = js "agid" || normalizeKey P key = js "rawagid"

def isAoidKey (key : JsString) : Bool :=
  normalizeKey P key = js "aoid" || normalizeKey P key = js "rawaoid"

def classifyLeaf (key : JsString) (value : JsonValue) : Decision :=
  let text := clean P value
  if SECRET_KEY_SET.contains (normalizeKey P key) then
    ⟨.secretLocalOnly, js "secret material must never be placed in public payloads"⟩
  else if isAoidKey P key then
    ⟨.isPrivate, js "AOID is a private ownership/control identifier"⟩
  else if isAgidKey P key then
    if canExposeAgid settings then
      ⟨.isPublic, js "AGID exposure explicitly allowed for this trusted mode"⟩
    else ⟨.isPrivate, js "raw AGID is commitment-only for this public or high-risk mode"⟩
  else if PRIVATE_KEY_SET.contains (normalizeKey P key) then
    ⟨.isPrivate, js "field is private address, recipient, coordinate, or delivery material"⟩
  else if text ≠ [] && looksLikeCoordinatePair text then
    ⟨.isPrivate, js "string value looks like precise coordinates"⟩
  else if text ≠ [] && looksLikeRawAoid P text && !isValidAGIDText P text then
    ⟨.isPrivate, js "string value looks like raw AOID material"⟩
  else if PUBLIC_KEY_WORDS.any (includes (key.map lowerAscii)) then
    ⟨.isPublic, js
      "field is public metadata, commitment, hash, root, nullifier, issuer, or policy material"⟩
  else ⟨.isPublic, js "field is not classified as private by the separation policy"⟩

def isPublicLeaf (leaf : Leaf) : Bool :=
  (classifyLeaf P settings leaf.key leaf.value).sensitivity = .isPublic

def commitmentFor (domain salt path : JsString) (value : JsonValue) : JsString :=
  js "ppc:" ++ domain ++ js ":" ++ P.sha256Hex (stringify (.object [
    (js "algorithm", .string PUBLIC_PRIVATE_COMMITMENT_ALGORITHM),
    (js "domain", .string domain),
    (js "path", .string path),
    (js "salt", .string salt),
    (js "value", value)]))

def Commitment.json (commitment : Commitment) : JsonValue :=
  .object [
    (js "path", .string commitment.path),
    (js "key", .string commitment.key),
    (js "algorithm", .string PUBLIC_PRIVATE_COMMITMENT_ALGORITHM),
    (js "domain", .string commitment.domain),
    (js "commitment", .string commitment.commitment)]

def Leaf.commit (domain salt : JsString) (leaf : Leaf) : Commitment where
  path := leaf.fieldPath
  key := leaf.key
  domain
  commitment := commitmentFor P domain salt leaf.fieldPath leaf.value

def Leaf.classify (domain : JsString) (leaf : Leaf) : Classification :=
  let decision := classifyLeaf P settings leaf.key leaf.value
  { path := leaf.fieldPath
    key := leaf.key
    sensitivity := decision.sensitivity
    reason := decision.reason
    commitment :=
      if isPublicLeaf P settings leaf then none
      else (settings.salt.bind nonEmpty).map fun salt => (leaf.commit P domain salt).commitment }

def Leaf.error (leaf : Leaf) : List JsString :=
  if isPublicLeaf P settings leaf || (settings.salt.bind nonEmpty).isSome
    || settings.mode = .localOnly then []
  else [js "salt is required to commit private field " ++ leaf.fieldPath]

def Leaf.warnings (leaf : Leaf) : List JsString :=
  (if !isPublicLeaf P settings leaf && (settings.salt.bind nonEmpty).isNone
      && settings.mode = .localOnly then
    [leaf.fieldPath ++ js " is private and kept local without a public commitment."] else [])
  ++ if (classifyLeaf P settings leaf.key leaf.value).sensitivity = .secretLocalOnly then
    [leaf.fieldPath
      ++ js " is secret-local-only and must be stored in a device vault, not a sync payload."]
  else []

/-- The members with each leaf at its path below `data`. -/
def withData (members : Members) (leaves : List Leaf) : Members :=
  leaves.foldl (fun members leaf =>
    JsonTree.setNested members (js "data" :: leaf.path) (cloneJson leaf.value)) members

def heading (domain : JsString) : Members :=
  [(js "version", .string PUBLIC_PRIVATE_SEPARATION_VERSION),
    (js "mode", .string settings.mode.text),
    (js "domain", .string domain)]

def privacyOf (rawAgidPublic : Bool) : JsonValue :=
  .object [
    (js "rawAddressStored", .bool false),
    (js "rawAgidStored", .bool rawAgidPublic),
    (js "rawAoidStored", .bool false),
    (js "rawCoordinatesStored", .bool false),
    (js "recipientIdentityStored", .bool false)]

def commitmentsMember (commitments : List Commitment) : Members :=
  if commitments = [] then []
  else [(js "privateCommitments", .array (commitments.map Commitment.json))]

def domainOf : JsString :=
  normalizeDomain P ((nonEmpty settings.domain).getD settings.mode.text)

def publicLeaves (payload : JsonValue) : List Leaf :=
  (visit [js "payload"] (js "payload") payload).filter (isPublicLeaf P settings)

def privateLeaves (payload : JsonValue) : List Leaf :=
  (visit [js "payload"] (js "payload") payload).filter (!isPublicLeaf P settings ·)

def commitmentsOf (payload : JsonValue) : List Commitment :=
  match settings.salt.bind nonEmpty with
  | some salt => (privateLeaves P settings payload).map (Leaf.commit P (domainOf P settings) salt)
  | none => []

def separatePublicPrivatePayload (payload : JsonValue) : Separation :=
  let domain := domainOf P settings
  let leaves := visit [js "payload"] (js "payload") payload
  let classification := leaves.map (Leaf.classify P settings domain)
  let commitments := commitmentsOf P settings payload
  let rawAgidPublic := classification.any fun item =>
    item.sensitivity = .isPublic && isAgidKey P item.key
  let errors := leaves.flatMap (Leaf.error P settings)
  { domain
    publicPayload := withData (heading settings domain) (publicLeaves P settings payload)
      ++ commitmentsMember commitments ++ [(js "privacy", privacyOf rawAgidPublic)]
    privatePayload := withData (heading settings domain
      ++ [(js "storage", .string (js "local-device-or-encrypted-vault"))])
        (privateLeaves P settings payload)
    commitments
    classification
    blocked := errors ≠ []
    errors := errors.eraseDups
    warnings := (leaves.flatMap (Leaf.warnings P settings)).eraseDups
    rawAgidPublic }

end Separate

/-! ## The validation -/

section Validate

variable (P : Platform)

def Leaf.findings (leaf : Leaf) : List JsString :=
  (if PRIVATE_KEY_SET.contains (normalizeKey P leaf.key) || isAoidKey P leaf.key then
    [leaf.fieldPath ++ js " contains private material in a public payload"] else [])
  ++ if clean P leaf.value ≠ [] && looksLikeCoordinatePair (clean P leaf.value) then
    [leaf.fieldPath ++ js " contains precise coordinates in a public payload"]
  else []

def validatePublicPayloadSeparation (publicPayload : JsonValue) : Validation :=
  let leaves := visit [js "publicPayload"] [] publicPayload
  let errors := leaves.flatMap (Leaf.findings P)
  { valid := errors = []
    errors := errors.eraseDups
    warnings := ((leaves.filter (isAgidKey P ·.key)).map fun leaf => leaf.fieldPath
      ++ js " exposes raw AGID; ensure this is not a high-risk or Address DNS surface").eraseDups }

end Validate

/-! ## What the separation is for -/

section Purpose

variable (P : Platform) (settings : Settings)

/-- A key whose values are private whatever they are. -/
def isPrivateKey (key : JsString) : Bool :=
  SECRET_KEY_SET.contains (normalizeKey P key) || isAoidKey P key
    || (isAgidKey P key && !canExposeAgid settings) || PRIVATE_KEY_SET.contains (normalizeKey P key)

mutual

/-- The two payloads are the same but for the values under private keys. -/
def SameOutside : JsonValue → JsonValue → Prop
  | .array items, .array items' => ItemsSameOutside items items'
  | .object members, .object members' => MembersSameOutside members members'
  | v, v' => v = v'

def ItemsSameOutside : List JsonValue → List JsonValue → Prop
  | [], [] => True
  | v :: items, v' :: items' => SameOutside v v' ∧ ItemsSameOutside items items'
  | _, _ => False

def MembersSameOutside : Members → Members → Prop
  | [], [] => True
  | (key, v) :: members, (key', v') :: members' =>
    key = key' ∧ (isPrivateKey P settings key = true ∨ SameOutside v v')
      ∧ MembersSameOutside members members'
  | _, _ => False

end

/-- A commitment without its salted text. -/
def hideCommitment : JsonValue → JsonValue
  | .object members =>
    .object (members.map fun (key, v) => (key, if key = js "commitment" then .null else v))
  | v => v

def hideCommitments (publicPayload : Members) : Members :=
  publicPayload.map fun (key, v) =>
    (key, if key = js "privateCommitments" then
      match v with
      | .array items => .array (items.map hideCommitment)
      | v => v
    else v)

/-- Payloads that are the same outside of private keys have public parts that differ in the salted
texts only, and a public part that is not blocked is valid. -/
structure Separates (payload payload' : JsonValue) : Prop where
  hidden : SameOutside P settings payload payload' →
    hideCommitments (separatePublicPrivatePayload P settings payload).publicPayload
      = hideCommitments (separatePublicPrivatePayload P settings payload').publicPayload
  valid : (separatePublicPrivatePayload P settings payload).blocked = false →
    (validatePublicPayloadSeparation P
      (.object (separatePublicPrivatePayload P settings payload).publicPayload)).valid = true

/-- The leaves that are public by their own key and value are the same, and when there is a salt,
the others have the same names. -/
def SameLeaves (payload payload' : JsonValue) : Prop :=
  (publicLeaves P settings payload).map (fun leaf => (leaf.path, cloneJson leaf.value))
      = (publicLeaves P settings payload').map (fun leaf => (leaf.path, cloneJson leaf.value))
    ∧ (settings.salt.bind nonEmpty ≠ none →
      (privateLeaves P settings payload).map (fun leaf => (leaf.fieldPath, leaf.key))
        = (privateLeaves P settings payload').map (fun leaf => (leaf.fieldPath, leaf.key)))

/-- No public id and no key of a committed field looks like coordinates. -/
def NoCoordinates (payload : JsonValue) : Prop :=
  (∀ leaf ∈ publicLeaves P settings payload, isAgidKey P leaf.key →
    looksLikeCoordinatePair (clean P leaf.value) = false)
  ∧ (settings.salt.bind nonEmpty ≠ none → ∀ leaf ∈ privateLeaves P settings payload,
    looksLikeCoordinatePair (clean P (.string leaf.key)) = false)

/-- A private leaf has no salt to be committed with, away from the device. -/
def LacksSalt (payload : JsonValue) : Prop :=
  settings.salt.bind nonEmpty = none ∧ settings.mode ≠ .localOnly
    ∧ privateLeaves P settings payload ≠ []

end Purpose

end Agid.PublicPrivate
