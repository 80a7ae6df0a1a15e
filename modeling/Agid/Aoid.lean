import Agid.Grid
import Agid.RequestText

/-!
# AOID records

The ids, the records and the private bodies of `src/lib/aoid`.  A record is the members of a JSON
object, in which a field that is undefined is not there.  What a normalized record takes over
unchanged stands in `recordData`, without the fields that the function writes itself.
-/

namespace Agid.Aoid

abbrev Members := List (JsString × JsonValue)

def upperAscii (c : CodeUnit) : CodeUnit := if 97 ≤ c.val ∧ c.val ≤ 122 then c - 32 else c

/-- What the sources take from the platform.  A normalized text stays one, and so does each part of
it. -/
structure Platform where
  nfkc : Nfkc
  normalize_normalize : ∀ s, nfkc.normalize (nfkc.normalize s) = nfkc.normalize s
  normalize_infix : ∀ s t, nfkc.normalize s = s → t <:+: s → nfkc.normalize t = t
  toUpperCase : JsString → JsString
  toUpperCase_ascii : ∀ s : JsString, (∀ c ∈ s, c.val < 128) → toUpperCase s = s.map upperAscii
  toLowerCase : JsString → JsString
  toLowerCase_ascii : ∀ s : JsString, (∀ c ∈ s, c.val < 128) → toLowerCase s = s.map lowerAscii

/-! ## Values -/

/-- `a ?? b`. -/
def nullish (a b : Option JsonValue) : Option JsonValue :=
  match a with
  | none | some .null => b
  | a => a

/-- The members of an object; an array has none under the names that are read. -/
def asObject : Option JsonValue → Members
  | some (.object members) => members
  | _ => []

/-- `record.name`. -/
def field (record : Members) (name : String) : Option JsonValue := JsonValue.member (js name) record

def preferObject (primary fallback : Option JsonValue) : Members :=
  if asObject primary = [] then asObject fallback else asObject primary

/-- `text || undefined`. -/
def nonEmpty (text : JsString) : Option JsString := if text = [] then none else some text

/-- The fields of an object literal that are there. -/
def fieldsOf (fields : List (String × Option JsonValue)) : Members :=
  fields.filterMap fun (name, value) => value.map fun value => (js name, value)

def textValue (text : Option JsString) : Option JsonValue := text.map .string

section Ids

variable (P : Platform)

/-! ## Linked AGIDs -/

def clean : Option JsonValue → JsString
  | some (.string s) => trim s
  | _ => []

def normalizeAGIDInput : Option JsonValue → Option JsString
  | some (.string s) => nonEmpty (P.toUpperCase (trim s))
  | _ => none

def isValidAGIDFormat (value : Option JsonValue) : Bool :=
  (normalizeAGIDInput P value).any Agid.isValidAGIDFormat

def cleanAgid (value : Option JsonValue) : JsString :=
  match normalizeAGIDInput P value with
  | some normalized => if isValidAGIDFormat P (some (.string normalized)) then normalized else []
  | none => []

/-! ## Ids -/

def AOID_ID_MIN_LENGTH : ℕ := 9

def AOID_ID_MAX_LENGTH : ℕ := 16

def getAOIDLinkedAGIDAnchor (value : Option JsonValue) : JsString :=
  ((cleanAgid P value).drop AGID_PREFIX_LENGTH).take AGID_HASH_LENGTH

def hasAOIDAllSame16 (id : JsString) : Bool :=
  id.length = AOID_ID_MAX_LENGTH && (chars id).eraseDups.length = 1

/-- `AOID_BASE32_ALPHABET.indexOf(char)`. -/
def indexOf (c : CodeUnit) : ℤ :=
  match BASE32_ALPHABET.idxOf? c with
  | some index => index
  | none => -1

/-- Four indexes that go on by one step, up or down. -/
def isRun (first second third fourth : ℤ) : Bool :=
  let step := second - first
  !(first < 0 || second < 0 || third < 0 || fourth < 0)
    && (step = 1 || step = -1) && third - second = step && fourth - third = step

def sequentialRun : List ℤ → Bool
  | first :: second :: third :: fourth :: indexes =>
    isRun first second third fourth || sequentialRun (second :: third :: fourth :: indexes)
  | _ => false

def hasAOIDSequentialRun (id : JsString) : Bool := sequentialRun (id.map indexOf)

def isAOIDLinkedToAGID (id : JsString) (linkedAgid : Option JsonValue) : Bool :=
  let anchor := getAOIDLinkedAGIDAnchor P linkedAgid
  if anchor = [] then false
  else if id.length < anchor.length then id.isPrefixOf anchor
  else includes id anchor

/-- `[0-9A-HJKMNP-TV-Z]`. -/
def isAoidUnit (c : CodeUnit) : Bool :=
  isDigit c || (65 ≤ c.val && c.val ≤ 90 && !(js "ILOU").contains c)

def matchesAoidId (id : JsString) : Bool :=
  AOID_ID_MIN_LENGTH ≤ id.length && id.length ≤ AOID_ID_MAX_LENGTH && id.all isAoidUnit

/-- The id, or the message of the error. -/
def normalizeAOIDId (value linkedAgid : Option JsonValue) : Except JsString JsString :=
  let id := P.toUpperCase (clean value)
  if !matchesAoidId id then
    .error (js "Invalid AOID id. AOID ids must be 9 to 16 unambiguous base32 characters.")
  else if hasAOIDAllSame16 id then
    .error (js "Invalid AOID id. AOID ids cannot be 16 repeated characters.")
  else if hasAOIDSequentialRun id then
    .error (js "Invalid AOID id. AOID ids cannot contain four consecutive base32 characters.")
  else if JsonValue.truthy linkedAgid && !isAOIDLinkedToAGID P id linkedAgid then
    .error (js "Invalid AOID id. AOID ids must contain the linked AGID base32 anchor.")
  else .ok id

/-- The values that the random source gives in each attempt. -/
abbrev Random := ℕ → ℕ → Fin (2 ^ 32)

/-- The candidate of an attempt. -/
def candidate (random : Random) (anchor : JsString) (attempt : ℕ) : JsString :=
  anchor ++ (List.range (AOID_ID_MAX_LENGTH - anchor.length)).map fun i =>
    BASE32_ALPHABET.getD ((random attempt i).val % BASE32_ALPHABET.length) 0

def generateAOID (random : Random) (linkedAgid : Option JsonValue) : Except JsString JsString :=
  let anchor := getAOIDLinkedAGIDAnchor P linkedAgid
  let found := (List.range 128).findSome? fun attempt =>
    (normalizeAOIDId P (some (.string (candidate random anchor attempt)))
      (if anchor = [] then none else linkedAgid)).toOption
  match found with
  | some id => .ok id
  | none =>
    .error (js "Unable to generate a valid AOID id under the reserved-pattern rules.")

end Ids

/-! ## Private bodies -/

inductive AOIDDropOffPreference
  | recipientHandoff
  | frontDoor
  | locker
  | frontDesk
  | designatedPlace
  | doNotLeaveUnattended
deriving DecidableEq

def AOIDDropOffPreference.text : AOIDDropOffPreference → JsString
  | recipientHandoff => js "recipient-handoff"
  | frontDoor => js "front-door"
  | locker => js "locker"
  | frontDesk => js "front-desk"
  | designatedPlace => js "designated-place"
  | doNotLeaveUnattended => js "do-not-leave-unattended"

def DROP_OFF_PREFERENCES : List AOIDDropOffPreference :=
  [.recipientHandoff, .frontDoor, .locker, .frontDesk, .designatedPlace, .doNotLeaveUnattended]

inductive AOIDAccessActor
  | owner
  | recipient
  | carrier
  | delegate
  | emergencyService
deriving DecidableEq

def AOIDAccessActor.text : AOIDAccessActor → JsString
  | owner => js "owner"
  | recipient => js "recipient"
  | carrier => js "carrier"
  | delegate => js "delegate"
  | emergencyService => js "emergency-service"

def ACCESS_ACTORS : List AOIDAccessActor :=
  [.owner, .recipient, .carrier, .delegate, .emergencyService]

inductive AOIDAccessPurpose
  | ownerManagement
  | delivery
  | residenceVerification
  | emergency
deriving DecidableEq

def AOIDAccessPurpose.text : AOIDAccessPurpose → JsString
  | ownerManagement => js "owner-management"
  | delivery => js "delivery"
  | residenceVerification => js "residence-verification"
  | emergency => js "emergency"

def ACCESS_PURPOSES : List AOIDAccessPurpose :=
  [.ownerManagement, .delivery, .residenceVerification, .emergency]

inductive AOIDDisclosureField
  | agid
  | building
  | floor
  | room
  | recipient
  | deliveryOptions
  | intercom
  | metadata
deriving DecidableEq

def AOIDDisclosureField.text : AOIDDisclosureField → JsString
  | agid => js "agid"
  | building => js "building"
  | floor => js "floor"
  | room => js "room"
  | recipient => js "recipient"
  | deliveryOptions => js "delivery-options"
  | intercom => js "intercom"
  | metadata => js "metadata"

def DISCLOSURE_FIELDS : List AOIDDisclosureField :=
  [.agid, .building, .floor, .room, .recipient, .deliveryOptions, .intercom, .metadata]

structure Building where
  name : Option JsString
  block : Option JsString
  entrance : Option JsString
deriving DecidableEq

structure Recipient where
  name : Option JsString
  organization : Option JsString
  phone : Option JsString
deriving DecidableEq

structure DeliveryOptions where
  dropOffPreference : AOIDDropOffPreference
  unattendedDeliveryAllowed : Bool
  signatureRequired : Bool
  instructions : Option JsString
deriving DecidableEq

structure Intercom where
  callLabel : Option JsString
  accessCode : Option JsString
  instructions : Option JsString
deriving DecidableEq

structure AccessPolicy where
  allowedActors : List AOIDAccessActor
  allowedPurposes : List AOIDAccessPurpose
  disclosedFields : List AOIDDisclosureField
  ownerConsentRequired : Bool
deriving DecidableEq

structure Validity where
  validFrom : Option JsonNumber
  validUntil : Option JsonNumber
deriving DecidableEq

structure Metadata where
  label : Option JsString
  locale : Option JsString
  tags : List JsString
deriving DecidableEq

structure AOIDPrivateBody where
  agid : JsString
  building : Option Building
  floor : Option JsString
  room : Option JsString
  recipient : Option Recipient
  deliveryOptions : DeliveryOptions
  intercom : Option Intercom
  accessPolicy : AccessPolicy
  validity : Validity
  metadata : Metadata
deriving DecidableEq

section Written

def textsValue (texts : List JsString) : Option JsonValue := some (.array (texts.map .string))

def Building.fields (building : Building) : Members :=
  fieldsOf [
    ("name", textValue building.name),
    ("block", textValue building.block),
    ("entrance", textValue building.entrance)]

def Recipient.fields (recipient : Recipient) : Members :=
  fieldsOf [
    ("name", textValue recipient.name),
    ("organization", textValue recipient.organization),
    ("phone", textValue recipient.phone)]

def DeliveryOptions.fields (options : DeliveryOptions) : Members :=
  fieldsOf [
    ("dropOffPreference", some (.string options.dropOffPreference.text)),
    ("unattendedDeliveryAllowed", some (.bool options.unattendedDeliveryAllowed)),
    ("signatureRequired", some (.bool options.signatureRequired)),
    ("instructions", textValue options.instructions)]

def Intercom.fields (intercom : Intercom) : Members :=
  fieldsOf [
    ("callLabel", textValue intercom.callLabel),
    ("accessCode", textValue intercom.accessCode),
    ("instructions", textValue intercom.instructions)]

def AccessPolicy.fields (policy : AccessPolicy) : Members :=
  fieldsOf [
    ("allowedActors", textsValue (policy.allowedActors.map (·.text))),
    ("allowedPurposes", textsValue (policy.allowedPurposes.map (·.text))),
    ("disclosedFields", textsValue (policy.disclosedFields.map (·.text))),
    ("ownerConsentRequired", some (.bool policy.ownerConsentRequired))]

def Validity.fields (validity : Validity) : Members :=
  fieldsOf [
    ("validFrom", validity.validFrom.map .number),
    ("validUntil", validity.validUntil.map .number)]

def Metadata.fields (metadata : Metadata) : Members :=
  fieldsOf [
    ("label", textValue metadata.label),
    ("locale", textValue metadata.locale),
    ("tags", textsValue metadata.tags)]

/-- A private body as an object. -/
def AOIDPrivateBody.fields (body : AOIDPrivateBody) : Members :=
  fieldsOf [
    ("schemaVersion", some (.string (js "aoid-private-body-v1"))),
    ("agid", some (.string body.agid)),
    ("building", body.building.map fun building => .object building.fields),
    ("floor", textValue body.floor),
    ("room", textValue body.room),
    ("recipient", body.recipient.map fun recipient => .object recipient.fields),
    ("deliveryOptions", some (.object body.deliveryOptions.fields)),
    ("intercom", body.intercom.map fun intercom => .object intercom.fields),
    ("accessPolicy", some (.object body.accessPolicy.fields)),
    ("validity", some (.object body.validity.fields)),
    ("metadata", some (.object body.metadata.fields))]

end Written

/-- `compactObject`, where a value is told from its texts. -/
def compactObject {α : Type*} (texts : α → List (Option JsString)) (value : α) : Option α :=
  if (texts value).any Option.isSome then some value else none

def Building.texts (building : Building) : List (Option JsString) :=
  [building.name, building.block, building.entrance]

def Recipient.texts (recipient : Recipient) : List (Option JsString) :=
  [recipient.name, recipient.organization, recipient.phone]

def Intercom.texts (intercom : Intercom) : List (Option JsString) :=
  [intercom.callLabel, intercom.accessCode, intercom.instructions]

section Body

variable (P : Platform)

/-- The text of a string, normalized. -/
def normalText : Option JsonValue → JsString
  | some (.string s) => trim (P.nfkc.normalize s)
  | _ => []

def cleanText (value : Option JsonValue) (maxLength : ℕ) : JsString :=
  (normalText P value).take maxLength

def cleanOptionalNumber : Option JsonValue → Option JsonNumber
  | some (.number (.infinite _)) => none
  | some (.number n) => some n
  | _ => none

def cleanBoolean (value : Option JsonValue) (fallback : Bool) : Bool :=
  match value with
  | some (.bool b) => b
  | _ => fallback

/-- The allowed value that a text names. -/
def readEnum {α : Type*} (text : α → JsString) (allowed : List α) (value : Option JsonValue) :
    Option α :=
  allowed.find? fun a => text a = P.toLowerCase (cleanText P value 240)

def cleanEnum {α : Type*} (text : α → JsString) (allowed : List α) (value : Option JsonValue)
    (fallback : α) : α :=
  (readEnum P text allowed value).getD fallback

def cleanEnumList {α : Type*} [DecidableEq α] (text : α → JsString) (allowed : List α)
    (value : Option JsonValue) (fallback : List α) : List α :=
  match value with
  | some (.array items) =>
    let values := items.filterMap fun item => readEnum P text allowed (some item)
    (if values = [] then fallback else values).eraseDups
  | _ => fallback

def cleanTags (value : Option JsonValue) : List JsString :=
  match value with
  | some (.array tags) =>
    (((tags.map fun tag => cleanText P (some tag) 60).filter (· ≠ [])).eraseDups).take 32
  | _ => []

def INVALID_LINKED_AGID := js "AOID private body requires a valid linked AGID."

def buildAOIDPrivateBody (source : Members) : Except JsString AOIDPrivateBody :=
  let existing := asObject (field source "privateBody")
  match normalizeAGIDInput P (nullish (field existing "agid") (field source "agid")) with
  | none => .error INVALID_LINKED_AGID
  | some agid =>
    if !isValidAGIDFormat P (some (.string agid)) then .error INVALID_LINKED_AGID
    else
      let read (object : Members) (name : String) (other : Option JsonValue) (maxLength : ℕ) :=
        nonEmpty (cleanText P (nullish (field object name) other) maxLength)
      let buildingSource := preferObject (field source "building") (field existing "building")
      let recipientSource := preferObject (field source "recipient") (field existing "recipient")
      let deliverySource :=
        preferObject (field source "deliveryOptions") (field existing "deliveryOptions")
      let intercomSource := preferObject (field source "intercom") (field existing "intercom")
      let policySource := preferObject (field source "accessPolicy") (field existing "accessPolicy")
      let validitySource := preferObject (field source "validity") (field existing "validity")
      let metadataSource := preferObject (field source "metadata") (field existing "metadata")
      .ok {
        agid
        building := compactObject Building.texts {
          name := read buildingSource "name"
            (nullish (field source "building") (field source "organization")) 160
          block := read buildingSource "block"
            (nullish (field source "block") (field source "tower")) 80
          entrance := read buildingSource "entrance" (field source "entrance") 120 }
        floor := read source "floor" (field existing "floor") 80
        room := read source "room" (nullish (field source "unit")
          (nullish (field source "unitNumber") (field existing "room"))) 80
        recipient := compactObject Recipient.texts {
          name := read recipientSource "name"
            (nullish (field source "recipient") (field source "name")) 160
          organization := read recipientSource "organization" (field source "organization") 160
          phone := read recipientSource "phone" (field source "phone") 80 }
        deliveryOptions := {
          dropOffPreference := cleanEnum P AOIDDropOffPreference.text DROP_OFF_PREFERENCES
            (nullish (field deliverySource "dropOffPreference") (field source "dropOffPreference"))
            .recipientHandoff
          unattendedDeliveryAllowed := cleanBoolean
            (nullish (field deliverySource "unattendedDeliveryAllowed")
              (field source "unattendedDeliveryAllowed")) false
          signatureRequired := cleanBoolean
            (nullish (field deliverySource "signatureRequired")
              (field source "signatureRequired")) false
          instructions := read deliverySource "instructions"
            (field source "deliveryInstructions") 1000 }
        intercom := compactObject Intercom.texts {
          callLabel := read intercomSource "callLabel" (field source "intercomLabel") 120
          accessCode := read intercomSource "accessCode" (field source "intercomCode") 120
          instructions := read intercomSource "instructions"
            (field source "intercomInstructions") 500 }
        accessPolicy := {
          allowedActors := cleanEnumList P AOIDAccessActor.text ACCESS_ACTORS
            (field policySource "allowedActors") [.owner]
          allowedPurposes := cleanEnumList P AOIDAccessPurpose.text ACCESS_PURPOSES
            (field policySource "allowedPurposes") [.ownerManagement]
          disclosedFields := cleanEnumList P AOIDDisclosureField.text DISCLOSURE_FIELDS
            (field policySource "disclosedFields") [.agid]
          ownerConsentRequired := cleanBoolean (field policySource "ownerConsentRequired") true }
        validity := {
          validFrom := cleanOptionalNumber
            (nullish (field validitySource "validFrom") (field source "validFrom"))
          validUntil := cleanOptionalNumber
            (nullish (field validitySource "validUntil") (field source "validUntil")) }
        metadata := {
          label := read metadataSource "label" (field source "label") 160
          locale := read metadataSource "locale" (field source "locale") 40
          tags := cleanTags P (field metadataSource "tags") } }

end Body

/-! ## Delivery access -/

inductive AOIDDeliveryAccessKind
  | standard
  | autoLock
  | poBox
  | locker
  | frontDesk
  | unknown
deriving DecidableEq

def AOIDDeliveryAccessKind.text : AOIDDeliveryAccessKind → JsString
  | standard => js "standard"
  | autoLock => js "auto-lock"
  | poBox => js "po-box"
  | locker => js "locker"
  | frontDesk => js "front-desk"
  | unknown => js "unknown"

def ACCESS_KINDS : List AOIDDeliveryAccessKind :=
  [.standard, .autoLock, .poBox, .locker, .frontDesk, .unknown]

/-- The flags of a profile, by their kind, in the order in which they are looked at. -/
def FLAG_KINDS : List AOIDDeliveryAccessKind := [.autoLock, .poBox, .locker, .frontDesk]

/-- The names under which a flag is read, the first of which a profile has. -/
def flagKeys : AOIDDeliveryAccessKind → List String
  | .autoLock => ["autoLock", "autolock", "hasAutoLock"]
  | .poBox => ["poBox", "pobox", "isPoBox"]
  | .locker => ["locker", "parcelLocker", "deliveryLocker"]
  | .frontDesk => ["frontDesk", "concierge", "reception"]
  | _ => []

structure AOIDDeliveryAccessProfile where
  kind : AOIDDeliveryAccessKind
  autoLock : Bool
  poBox : Bool
  locker : Bool
  frontDesk : Bool
  carrierReviewRequired : Bool
  confirmedAt : Option JsonNumber
  instructionCommitment : Option JsString
deriving DecidableEq

/-- A profile as an object. -/
def AOIDDeliveryAccessProfile.fields (profile : AOIDDeliveryAccessProfile) : Members :=
  fieldsOf [
    ("kind", some (.string profile.kind.text)),
    ("autoLock", some (.bool profile.autoLock)),
    ("poBox", some (.bool profile.poBox)),
    ("locker", some (.bool profile.locker)),
    ("frontDesk", some (.bool profile.frontDesk)),
    ("carrierReviewRequired", some (.bool profile.carrierReviewRequired)),
    ("confirmedAt", profile.confirmedAt.map .number),
    ("instructionCommitment", textValue profile.instructionCommitment)]

/-! ### Searches in a text -/

/-- A piece of a regular expression: a letter in either case, `[…]?` or `[…]*`. -/
inductive Piece
  | letter (c : CodeUnit)
  | optional (p : CodeUnit → Bool)
  | many (p : CodeUnit → Bool)

/-- What can follow `[…]*`. -/
def afterMany (p : CodeUnit → Bool) : JsString → List JsString
  | [] => [[]]
  | c :: s => (c :: s) :: if p c then afterMany p s else []

/-- What can follow a piece. -/
def afterPiece : Piece → JsString → List JsString
  | .letter _, [] => []
  | .letter l, c :: s => if lowerAscii c = l then [s] else []
  | .optional _, [] => [[]]
  | .optional p, c :: s => (c :: s) :: if p c then [s] else []
  | .many p, s => afterMany p s

/-- What can follow the pieces. -/
def afterPieces (pieces : List Piece) (s : JsString) : List JsString :=
  pieces.foldl (fun rests piece => rests.flatMap (afterPiece piece)) [s]

def letters (s : String) : List Piece := (js s).map .letter

def finds (pieces : List Piece) (s : JsString) : Bool :=
  s.tails.any fun rest => afterPieces pieces rest ≠ []

/-- Finds the pieces between `\b` and `\b`, where they begin and end with a letter. -/
def findsWord (pieces : List Piece) : Bool → JsString → Bool
  | _, [] => false
  | inWord, c :: s =>
    (!inWord && (afterPieces pieces (c :: s)).any fun rest => !rest.head?.any isWordUnit)
      || findsWord pieces (isWordUnit c) s

def isDot (c : CodeUnit) : Bool := c = 46

def isHyphenOrSpace (c : CodeUnit) : Bool := c = 45 || isWhiteSpace c

/-- `/\b(?:p\.?\s*o\.?\s*box|post\s*office\s*box)\b|私書箱/i`. -/
def mentionsPoBox (s : JsString) : Bool :=
  findsWord (letters "p" ++ [.optional isDot, .many isWhiteSpace] ++ letters "o"
      ++ [.optional isDot, .many isWhiteSpace] ++ letters "box") false s
    || findsWord (letters "post" ++ [.many isWhiteSpace] ++ letters "office"
      ++ [.many isWhiteSpace] ++ letters "box") false s
    || includes s (js "私書箱")

/-- `/auto[-\s]?lock|autolock|オートロック/i`. -/
def mentionsAutoLock (s : JsString) : Bool :=
  finds (letters "auto" ++ [.optional isHyphenOrSpace] ++ letters "lock") s
    || finds (letters "autolock") s || includes s (js "オートロック")

/-- `/locker|宅配ロッカー|ロッカー/i`. -/
def mentionsLocker (s : JsString) : Bool :=
  finds (letters "locker") s || includes s (js "宅配ロッカー") || includes s (js "ロッカー")

/-- `/front\s*desk|concierge|管理人|受付/i`. -/
def mentionsFrontDesk (s : JsString) : Bool :=
  finds (letters "front" ++ [.many isWhiteSpace] ++ letters "desk") s
    || finds (letters "concierge") s || includes s (js "管理人") || includes s (js "受付")

section Records

variable (P : Platform)

/-- `cleanText` of `records.ts`, which makes a text of every value. -/
def cleanAnyText (value : Option JsonValue) (maxLength : ℕ) : Except Thrown JsString :=
  match nullish value (some (.string [])) with
  | value =>
    match JsonValue.text value with
    | some s => .ok ((trim (P.nfkc.normalize s)).take maxLength)
    | none => .error .platform

def isUnderscoreOrSpace (c : CodeUnit) : Bool := c = 95 || isWhiteSpace c

def cleanAccessKind (value : Option JsonValue) : Except Thrown (Option AOIDDeliveryAccessKind) := do
  let text := replaceRuns isUnderscoreOrSpace 45 false
    (P.toLowerCase (← cleanAnyText P value 160))
  .ok (ACCESS_KINDS.find? fun kind => kind.text = text)

/-- A value counts as a flag that is set. -/
def isFlag : Option JsonValue → Bool
  | some (.bool b) => b
  | some (.string s) =>
    ["true", "yes", "1", "auto-lock", "po-box"].any fun word => P.toLowerCase (trim s) = js word
  | _ => false

def booleanField (record : Members) (keys : List String) : Bool :=
  keys.any fun key => isFlag P (field record key)

/-- `{ ...nested, ...source }`, by the name of a field. -/
def mergedFlag (nested source : Members) (keys : List String) : Bool :=
  keys.any fun key => isFlag P ((field source key).or (field nested key))

def SEARCH_FIELDS : List String :=
  ["address", "street", "building", "room", "organization", "deliveryAccessKind", "accessKind",
    "accessControl", "deliveryAccessType"]

def recordSearchText (record : Members) : Except Thrown JsString := do
  .ok ([32].intercalate (← SEARCH_FIELDS.mapM fun name => cleanAnyText P (field record name) 160))

/-- The first kind that one of the fields names; the fields after it are not read. -/
def firstAccessKind (record : Members) :
    List String → Except Thrown (Option AOIDDeliveryAccessKind)
  | [] => .ok none
  | name :: names => do
    match ← cleanAccessKind P (field record name) with
    | some kind => .ok (some kind)
    | none => firstAccessKind record names

def explicitKind (record : Members) : Except Thrown (Option AOIDDeliveryAccessKind) :=
  firstAccessKind P record ["deliveryAccessKind", "accessKind", "deliveryAccessType"]

/-- The kind that the texts of a record mention. -/
def mentionedKind (text : JsString) : Option AOIDDeliveryAccessKind :=
  if mentionsPoBox text then some .poBox
  else if mentionsAutoLock text then some .autoLock
  else if mentionsLocker text then some .locker
  else if mentionsFrontDesk text then some .frontDesk
  else none

def inferDeliveryAccessKind (record : Members) : Except Thrown AOIDDeliveryAccessKind := do
  let nested := asObject (field record "deliveryAccess")
  match ← explicitKind P record with
  | some kind => .ok kind
  | none =>
    let flagged := FLAG_KINDS.find? fun kind =>
      booleanField P record (flagKeys kind) || booleanField P nested (flagKeys kind)
    match flagged with
    | some kind => .ok kind
    | none =>
      match mentionedKind (← recordSearchText P record) with
      | some kind => .ok kind
      | none => .ok ((← cleanAccessKind P (field nested "kind")).getD .standard)

/-- The number, where it is finite and not zero. -/
def confirmation (value : Option JsonValue) : Option JsonNumber :=
  (cleanOptionalNumber value).filter (· ≠ .int 0)

def normalizeAOIDDeliveryAccessProfile (source : Members) :
    Except Thrown AOIDDeliveryAccessProfile := do
  let nested := asObject (field source "deliveryAccess")
  let kind ← inferDeliveryAccessKind P source
  let flag (own : AOIDDeliveryAccessKind) := kind = own || mergedFlag P nested source (flagKeys own)
  let instructionCommitment ← cleanAnyText P (nullish (field nested "instructionCommitment")
    (field source "deliveryInstructionCommitment")) 120
  .ok {
    kind
    autoLock := flag .autoLock
    poBox := flag .poBox
    locker := flag .locker
    frontDesk := flag .frontDesk
    carrierReviewRequired := flag .autoLock || flag .poBox
    confirmedAt := confirmation
      (nullish (field nested "confirmedAt") (field source "deliveryAccessConfirmedAt"))
    instructionCommitment := nonEmpty instructionCommitment }

/-! ## Records -/

inductive AOIDStatus
  | active
  | revoked
  | rotated
deriving DecidableEq

def AOIDStatus.text : AOIDStatus → JsString
  | active => js "active"
  | revoked => js "revoked"
  | rotated => js "rotated"

def coerceAOIDStatus : Option JsonValue → AOIDStatus
  | some (.string s) =>
    if s = js "revoked" then .revoked else if s = js "rotated" then .rotated else .active
  | _ => .active

/-- `[\w:.-]`. -/
def isKeyIdUnit (c : CodeUnit) : Bool := isWordUnit c || [58, 46, 45].contains c

def cleanKeyId (value : Option JsonValue) : JsString := ((clean value).filter isKeyIdUnit).take 128

def AOID_RECORD_VERSION : JsonNumber := .int 1

structure AOIDRecord where
  recordData : Members
  id : JsString
  agid : Option JsString
  version : JsonNumber
  status : AOIDStatus
  publicHandle : JsString
  deliveryAccess : AOIDDeliveryAccessProfile
  privateBody : Option AOIDPrivateBody
  ownerKeyId : Option JsString
  deviceKeyId : Option JsString
  updatedAt : JsonNumber

/-- The fields that a normalized record does not take over. -/
def WRITTEN_FIELDS : List String :=
  ["type", "id", "agid", "isAoid", "version", "ownerManaged", "privacy", "storageMode",
    "syncReadiness", "status", "publicHandle", "deliveryAccess", "privateBody", "ownerKeyId",
    "deviceKeyId", "updatedAt"]

def recordDataOf (record : Members) : Members :=
  record.filter fun entry => !(WRITTEN_FIELDS.map js).contains entry.1

/-- A normalized record as an object. -/
def AOIDRecord.fields (record : AOIDRecord) : Members :=
  record.recordData ++ fieldsOf [
    ("type", some (.string (js "AOID"))),
    ("id", some (.string record.id)),
    ("agid", textValue record.agid),
    ("isAoid", some (.bool true)),
    ("version", some (.number record.version)),
    ("ownerManaged", some (.bool true)),
    ("privacy", some (.string (js "private"))),
    ("storageMode", some (.string (js "device-local"))),
    ("syncReadiness", some (.string (js "local-only"))),
    ("status", some (.string record.status.text)),
    ("publicHandle", some (.string record.publicHandle)),
    ("deliveryAccess", some (.object record.deliveryAccess.fields)),
    ("privateBody", record.privateBody.map fun body => .object body.fields),
    ("ownerKeyId", textValue record.ownerKeyId),
    ("deviceKeyId", textValue record.deviceKeyId),
    ("updatedAt", some (.number record.updatedAt))]

/-- `{ ...record, agid }`. -/
def withAgid (record : Members) (agid : JsString) : Members :=
  (js "agid", .string agid) :: record

def numberOr (value : Option JsonValue) (other : JsonNumber) : JsonNumber :=
  match value with
  | some (.number n) => n
  | _ => other

def thrown {α : Type*} : Except JsString α → Except Thrown α
  | .ok a => .ok a
  | .error message => .error (.error message)

def normalizeAOIDRecord (now : JsonNumber) (record : Members) (requireLinkedAgid : Bool) :
    Except Thrown AOIDRecord := do
  let agid := cleanAgid P (field record "agid")
  require (!(requireLinkedAgid && agid = []))
    (js "AOID registration requires a valid linked AGID.")
  let id ← thrown (normalizeAOIDId P (field record "id") (textValue (nonEmpty agid)))
  let deliveryAccess ← normalizeAOIDDeliveryAccessProfile P record
  let privateBody ← if agid = [] then .ok none
    else (thrown (buildAOIDPrivateBody P (withAgid record agid))).map some
  let handle ← thrown (normalizeAOIDId P (some (.string id)) none)
  .ok {
    recordData := recordDataOf record
    id
    agid := nonEmpty agid
    version := numberOr (field record "version") AOID_RECORD_VERSION
    status := coerceAOIDStatus (field record "status")
    publicHandle := js "aoid:" ++ handle
    deliveryAccess
    privateBody
    ownerKeyId := nonEmpty (cleanKeyId (field record "ownerKeyId"))
    deviceKeyId := nonEmpty (cleanKeyId (field record "deviceKeyId"))
    updatedAt := numberOr (field record "updatedAt") now }

/-- The errors of a value, and the body, where one can be built. -/
def validateAOIDPrivateBody (value : Option JsonValue) (later : JsonNumber → JsonNumber → Bool) :
    List JsString × Option AOIDPrivateBody :=
  match buildAOIDPrivateBody P (asObject value) with
  | .error message => ([message], none)
  | .ok body =>
    let validityErrors :=
      match body.validity.validFrom, body.validity.validUntil with
      | some validFrom, some validUntil =>
        if later validUntil validFrom then []
        else [js "AOID validUntil must be later than validFrom."]
      | _, _ => []
    let consentErrors := if body.accessPolicy.ownerConsentRequired then []
      else [js "AOID private disclosure must require owner consent."]
    (validityErrors ++ consentErrors, some body)

end Records

end Agid.Aoid
