import Agid.JsonValues
import Agid.Lib.Encoding
import Agid.Lib.StableSort

/-!
# Checkpoints under an AddressQL statement

`src/lib/addressQlCheckpointBinding.ts`: a binding says which checkpoints a statement is about, and
its public-input commitment is the hash of its fields, each after its length.  Of a checkpoint only
what is read is kept.  `sourceToTargets` is a plain object, its entries in the order of
`Object.entries`: under a name of `Object.prototype` it also has what every object inherits.
-/

namespace Agid.CheckpointBinding

open Encoding StableSort

deriving instance DecidableEq for JsNumber

/-- What the source takes from the platform: `normalize('NFC')`, `localeCompare`, the hexadecimal
SHA-256 of bytes, and `String(n)` of a number that is no integer below 10²¹. -/
structure Platform where
  normalizeNfc : JsString → JsString
  localeCompare : JsString → JsString → ℤ
  sha256Hex : List UInt8 → JsString
  fractionText : ℚ → JsString

def ADDRESSQL_CHECKPOINT_BINDING_VERSION : JsString := js "addressql-checkpoint-binding-v0.1"

def ADDRESSQL_CHECKPOINT_DIGEST_DOMAIN : JsString := js "AGID/AddressQlCheckpoint/v1"

def ADDRESSQL_PUBLIC_INPUT_DOMAIN : JsString := js "AGID/AddressQlPublicInputBinding/v1"

def maxRefs : ℕ := 16

def maxZoneIds : ℕ := 512

def maxTargetsPerSource : ℕ := 32

def maxUtf8BytesPerString : ℕ := 4096

/-! ## Bindings -/

inductive AddressAuthorityKind where
  | issuer
  | revocation
  | area
  | postalZone
  | translationProfile
  | carrier
  | customs
deriving DecidableEq

def AddressAuthorityKind.text : AddressAuthorityKind → JsString
  | issuer => js "issuer"
  | revocation => js "revocation"
  | area => js "area"
  | postalZone => js "postal_zone"
  | translationProfile => js "translation_profile"
  | carrier => js "carrier"
  | customs => js "customs"

inductive ClaimKind where
  | regionMembership
  | postalEquivalent
  | deliverable
deriving DecidableEq

def ClaimKind.text : ClaimKind → JsString
  | regionMembership => js "region_membership"
  | postalEquivalent => js "postal_equivalent"
  | deliverable => js "deliverable"

inductive Purpose where
  | delivery
  | addressLogin
  | lockerPickup
  | researchFixture
deriving DecidableEq

def Purpose.text : Purpose → JsString
  | delivery => js "delivery"
  | addressLogin => js "address_login"
  | lockerPickup => js "locker_pickup"
  | researchFixture => js "research_fixture"

structure AddressStateCheckpoint where
  logId : JsString
  authorityKind : AddressAuthorityKind
  epoch : JsNumber
  treeSize : JsNumber
  rootHash : JsString
  policyVersion : JsString
  boundaryEpoch : JsNumber

structure CheckpointBindingRef where
  authorityKind : AddressAuthorityKind
  checkpointDigest : JsString
  rootHash : JsString
  boundaryEpoch : JsNumber
deriving DecidableEq

structure Transition where
  fromBoundaryEpoch : JsNumber
  toBoundaryEpoch : JsNumber
  sourceZoneIds : List JsString
  targetZoneIds : List JsString
  sourceToTargets : Record JsString (List JsString)
  translatedReferentBefore : JsString
  translatedReferentAfter : JsString

structure AddressQlStatementCheckpointBinding where
  version : JsString
  claimKind : ClaimKind
  purpose : Purpose
  refs : List CheckpointBindingRef
  transition : Option Transition

abbrev Binding := AddressQlStatementCheckpointBinding

inductive Status where
  | accept
  | manualReview
  | block
deriving DecidableEq

structure CheckpointBindingDecision where
  status : Status
  errors : List JsString

/-! ## Numbers -/

/-- `Number.isSafeInteger(n)`. -/
def isSafeInteger : JsNumber → Bool
  | .finite q => q.den = 1 && q.num.natAbs ≤ 9007199254740991
  | _ => false

/-- `n < 0`. -/
def isNegative : JsNumber → Bool
  | .finite q => q < 0
  | .negInfinity => true
  | _ => false

/-- `m === n`. -/
def same (m n : JsNumber) : Bool := m ≠ .nan && m = n

/-- `m <= n`. -/
def atMost : JsNumber → JsNumber → Bool
  | .nan, _ => false
  | _, .nan => false
  | .finite p, .finite q => p ≤ q
  | .negInfinity, _ => true
  | _, .infinity => true
  | _, _ => false

section Digest

variable (P : Platform)

/-- `String(n)`. -/
def numberText : JsNumber → JsString
  | .finite q =>
    if q.den = 1 ∧ q.num.natAbs < 10 ^ 21 then js (toString q.num) else P.fractionText q
  | .infinity => js "Infinity"
  | .negInfinity => js "-Infinity"
  | .nan => js "NaN"

/-! ## Fields -/

abbrev Field := JsString × JsString

def utf8 (field : Field) : List UInt8 × List UInt8 := (textEncode field.1, textEncode field.2)

/-- A length that does not fit into four bytes makes `writeUInt32BE` throw. -/
def canonicalField (field : Field) : Option (List UInt8) :=
  if (utf8 field).1.length < 256 ^ 4 ∧ (utf8 field).2.length < 256 ^ 4 then
    some (tagged (utf8 field))
  else none

/-- What is hashed. -/
def separated (domain : JsString) (fields : List Field) : Option (List UInt8) := do
  let first ← canonicalField (js "domain", domain)
  let others ← fields.mapM canonicalField
  some (first ++ others.flatten)

def domainSeparatedDigest (domain : JsString) (fields : List Field) : Option JsString :=
  (separated domain fields).map fun bytes => js "sha256:" ++ P.sha256Hex bytes

def checkpointDigest (checkpoint : AddressStateCheckpoint) : Option JsString :=
  domainSeparatedDigest P ADDRESSQL_CHECKPOINT_DIGEST_DOMAIN [
    (js "version", ADDRESSQL_CHECKPOINT_BINDING_VERSION),
    (js "logId", checkpoint.logId),
    (js "authorityKind", checkpoint.authorityKind.text),
    (js "epoch", numberText P checkpoint.epoch),
    (js "treeSize", numberText P checkpoint.treeSize),
    (js "rootHash", checkpoint.rootHash),
    (js "policyVersion", checkpoint.policyVersion),
    (js "boundaryEpoch", numberText P checkpoint.boundaryEpoch)]

def refOrder (left right : CheckpointBindingRef) : ℤ :=
  if P.localeCompare left.authorityKind.text right.authorityKind.text ≠ 0 then
    P.localeCompare left.authorityKind.text right.authorityKind.text
  else P.localeCompare left.checkpointDigest right.checkpointDigest

/-- What the sort leaves in front. -/
def RefLe (left right : CheckpointBindingRef) : Prop := refOrder P left right ≤ 0

instance : DecidableRel (RefLe P) := fun _ _ => inferInstanceAs (Decidable (_ ≤ _))

def refTag (index : ℕ) (name : String) : JsString :=
  js "ref." ++ js (toString index) ++ js "." ++ js name

def refFields (ref : CheckpointBindingRef) (index : ℕ) : List Field :=
  [(refTag index "authorityKind", ref.authorityKind.text),
    (refTag index "checkpointDigest", ref.checkpointDigest),
    (refTag index "rootHash", ref.rootHash),
    (refTag index "boundaryEpoch", numberText P ref.boundaryEpoch)]

/-- The `length` of what every object inherits under a name, 0 where it has none. -/
def inheritedLength (name : JsString) : Option ℕ :=
  Record.lookup name ([("constructor", 1), ("__defineGetter__", 2), ("__defineSetter__", 2),
    ("hasOwnProperty", 1), ("__lookupGetter__", 1), ("__lookupSetter__", 1), ("isPrototypeOf", 1),
    ("propertyIsEnumerable", 1), ("toString", 0), ("valueOf", 0), ("__proto__", 0),
    ("toLocaleString", 0)].map fun e => (js e.1, e.2))

/-- `[...(sourceToTargets[source] ?? [])]`, none where what is inherited is spread. -/
def Transition.targetsOf (t : Transition) (source : JsString) : Option (List JsString) :=
  match t.sourceToTargets.get? source with
  | some targets => some targets
  | none => if (inheritedLength source).isSome then none else some []

/-- `JSON.stringify([...ids].sort())`. -/
def sortedJson (ids : List JsString) : JsString :=
  stringify (.array ((ids.insertionSort (· ≤ ·)).map .string))

def zoneTag (index : ℕ) (name : String) : JsString :=
  js "transition.sourceToTargets." ++ js (toString index) ++ js "." ++ js name

def zoneFields (t : Transition) (zone : JsString × ℕ) : Option (List Field) :=
  (t.targetsOf zone.1).map fun targets =>
    [(zoneTag zone.2 "source", zone.1), (zoneTag zone.2 "targets", sortedJson targets)]

def transitionHead (t : Transition) : List Field :=
  [(js "transition.fromBoundaryEpoch", numberText P t.fromBoundaryEpoch),
    (js "transition.toBoundaryEpoch", numberText P t.toBoundaryEpoch),
    (js "transition.sourceZoneIds", sortedJson t.sourceZoneIds),
    (js "transition.targetZoneIds", sortedJson t.targetZoneIds),
    (js "transition.translatedReferentBefore", t.translatedReferentBefore),
    (js "transition.translatedReferentAfter", t.translatedReferentAfter)]

def transitionFields : Option Transition → Option (List Field)
  | none => some [(js "transition", js "none")]
  | some t =>
    ((t.sourceZoneIds.insertionSort (· ≤ ·)).zipIdx.mapM (zoneFields t)).map fun zones =>
      transitionHead P t ++ zones.flatten

def bindingHead (b : Binding) : List Field :=
  [(js "version", b.version), (js "claimKind", b.claimKind.text),
    (js "purpose", b.purpose.text)]

def sortedRefs (b : Binding) : List CheckpointBindingRef := b.refs.insertionSort (RefLe P)

def bindingFields (b : Binding) : Option (List Field) :=
  (transitionFields P b.transition).map fun transition =>
    bindingHead b ++ (sortedRefs P b).zipIdx.flatMap (fun r => refFields P r.1 r.2) ++ transition

/-- None where it throws. -/
def checkpointBindingPublicInputCommitment (b : Binding) : Option JsString :=
  (bindingFields P b).bind (domainSeparatedDigest P ADDRESSQL_PUBLIC_INPUT_DOMAIN)

def verifyCheckpointBindingPublicInputCommitment (b : Binding)
    (publicInputCommitment : JsString) : Option CheckpointBindingDecision :=
  (checkpointBindingPublicInputCommitment P b).map fun expected =>
    if expected = publicInputCommitment then { status := .accept, errors := [] }
    else { status := .block, errors := [js "public-input-binding-mismatch"] }

end Digest

/-! ## Verification -/

section Verify

variable (P : Platform)

/-- `if (holds) errors.push(error)`. -/
def when (holds : Bool) (error : JsString) : List JsString := if holds then [error] else []

/-- `validateCanonicalScalar` of a number. -/
def validateCanonicalInteger (value : JsNumber) (path : JsString) : List JsString :=
  when (!isSafeInteger value || isNegative value) (js "invalid-canonical-integer:" ++ path)

/-- `validateCanonicalScalar` of a string. -/
def validateCanonicalString (value path : JsString) : List JsString :=
  when (value ≠ P.normalizeNfc value) (js "non-canonical-unicode:" ++ path)
    ++ when (maxUtf8BytesPerString < (textEncode value).length)
      (js "canonical-string-too-large:" ++ path)

def requiredAuthorities : ClaimKind → List AddressAuthorityKind
  | .regionMembership => [.issuer, .revocation, .area]
  | .postalEquivalent => [.issuer, .revocation, .postalZone, .translationProfile]
  | .deliverable =>
    [.issuer, .revocation, .postalZone, .translationProfile, .carrier, .customs]

def refPath (index : ℕ) (name : String) : JsString :=
  js "refs." ++ js (toString index) ++ js "." ++ js name

def refErrors (ref : CheckpointBindingRef) (index : ℕ) : List JsString :=
  validateCanonicalString P ref.authorityKind.text (refPath index "authorityKind")
    ++ validateCanonicalString P ref.checkpointDigest (refPath index "checkpointDigest")
    ++ validateCanonicalString P ref.rootHash (refPath index "rootHash")
    ++ validateCanonicalInteger ref.boundaryEpoch (refPath index "boundaryEpoch")

/-- None where the digest of the checkpoint throws. -/
def requiredErrors (b : Binding) (byKind : Record AddressAuthorityKind AddressStateCheckpoint)
    (requiredKind : AddressAuthorityKind) : Option (List JsString) :=
  let matchingRefs := b.refs.filter (·.authorityKind = requiredKind)
  let duplicate := when (1 < matchingRefs.length)
    (js "duplicate-authority-ref:" ++ requiredKind.text)
  match matchingRefs.head?, byKind.get? requiredKind with
  | some ref, some checkpoint =>
    (checkpointDigest P checkpoint).map fun digest =>
      duplicate
        ++ when (ref.rootHash ≠ checkpoint.rootHash)
          (js "root-substitution:" ++ requiredKind.text)
        ++ when (ref.checkpointDigest ≠ digest)
          (js "checkpoint-substitution:" ++ requiredKind.text)
        ++ when (!same ref.boundaryEpoch checkpoint.boundaryEpoch)
          (js "boundary-epoch-replay:" ++ requiredKind.text)
  | _, _ => some (duplicate ++ [js "missing-authority:" ++ requiredKind.text])

/-- `new Set(l).size`. -/
def setSize {α : Type} [DecidableEq α] (l : List α) : ℕ := l.dedup.length

def relevantEpochs (b : Binding) : List JsNumber :=
  (b.refs.filter fun ref => ref.authorityKind ∈ requiredAuthorities b.claimKind).map
    (·.boundaryEpoch)

/-- A path with an index at its end. -/
def indexed (path : String) (index : ℕ) : JsString := js path ++ js (toString index)

def mapErrors (entry : JsString × List JsString) : List JsString :=
  validateCanonicalString P entry.1 (js "transition.sourceToTargets.source")
    ++ when (maxTargetsPerSource < entry.2.length) (js "transition-target-fanout-limit-exceeded")
    ++ when (setSize entry.2 ≠ entry.2.length) (js "duplicate-transition-target-edge")
    ++ entry.2.zipIdx.flatMap fun target =>
      validateCanonicalString P target.1 (indexed "transition.sourceToTargets.target." target.2)

/-- `sourceToTargets[source]?.length`, as a test. -/
def Transition.hasTargets (t : Transition) (source : JsString) : Bool :=
  match t.sourceToTargets.get? source with
  | some targets => targets ≠ []
  | none => (inheritedLength source).any (0 < ·)

def transitionErrors (t : Transition) : List JsString :=
  validateCanonicalInteger t.fromBoundaryEpoch (js "transition.fromBoundaryEpoch")
    ++ validateCanonicalInteger t.toBoundaryEpoch (js "transition.toBoundaryEpoch")
    ++ validateCanonicalString P t.translatedReferentBefore
      (js "transition.translatedReferentBefore")
    ++ validateCanonicalString P t.translatedReferentAfter
      (js "transition.translatedReferentAfter")
    ++ when (maxZoneIds < t.sourceZoneIds.length || maxZoneIds < t.targetZoneIds.length)
      (js "transition-zone-limit-exceeded")
    ++ when (setSize t.sourceZoneIds ≠ t.sourceZoneIds.length)
      (js "duplicate-transition-source-zone")
    ++ when (setSize t.targetZoneIds ≠ t.targetZoneIds.length)
      (js "duplicate-transition-target-zone")
    ++ (t.sourceZoneIds.zipIdx.flatMap fun zone =>
      validateCanonicalString P zone.1 (indexed "transition.sourceZoneIds." zone.2))
    ++ (t.targetZoneIds.zipIdx.flatMap fun zone =>
      validateCanonicalString P zone.1 (indexed "transition.targetZoneIds." zone.2))
    ++ t.sourceToTargets.entries.flatMap (mapErrors P)
    ++ when (t.sourceZoneIds.any fun source => !t.hasTargets source) (js "transition-not-total")
    ++ when (t.sourceToTargets.values.flatten.any fun target => target ∉ t.targetZoneIds)
      (js "transition-target-outside-codomain")
    ++ when (t.translatedReferentBefore ≠ t.translatedReferentAfter)
      (js "translation-naturality-violation")
    ++ when (atMost t.toBoundaryEpoch t.fromBoundaryEpoch) (js "transition-epoch-not-forward")

def isHardBlock (error : JsString) : Bool :=
  (["root-substitution:", "checkpoint-substitution:", "boundary-epoch-replay:",
    "invalid-canonical-", "non-canonical-unicode:", "canonical-string-too-large:"].any
      fun start => (js start).isPrefixOf error)
    || includes error (js "limit-exceeded")
    || (js "too-many-").isPrefixOf error || (js "duplicate-").isPrefixOf error

def bindingErrors (b : Binding) (required : List JsString) : List JsString :=
  when (b.version ≠ ADDRESSQL_CHECKPOINT_BINDING_VERSION) (js "unsupported-binding-version")
    ++ validateCanonicalString P b.claimKind.text (js "claimKind")
    ++ validateCanonicalString P b.purpose.text (js "purpose")
    ++ when (maxRefs < b.refs.length) (js "too-many-authority-refs")
    ++ (b.refs.zipIdx.flatMap fun ref => refErrors P ref.1 ref.2)
    ++ required
    ++ when (1 < setSize (relevantEpochs b) && b.transition.isNone)
      (js "cross-epoch-transition-required")
    ++ b.transition.elim [] (transitionErrors P)

/-- None where it throws. -/
def verifyAddressQlCheckpointBinding (b : Binding) (checkpoints : List AddressStateCheckpoint) :
    Option CheckpointBindingDecision :=
  let byKind := checkpoints.foldl (fun m checkpoint => m.set checkpoint.authorityKind checkpoint)
    Record.empty
  ((requiredAuthorities b.claimKind).mapM (requiredErrors P b byKind)).map fun required =>
    let errors := bindingErrors P b required.flatten
    { status :=
        if errors.length = 0 then .accept
        else if errors.any isHardBlock then .block
        else .manualReview
      errors := errors }

def createCheckpointBindingRef (checkpoint : AddressStateCheckpoint) :
    Option CheckpointBindingRef :=
  (checkpointDigest P checkpoint).map fun digest => {
    authorityKind := checkpoint.authorityKind
    checkpointDigest := digest
    rootHash := checkpoint.rootHash
    boundaryEpoch := checkpoint.boundaryEpoch }

end Verify

/-! ## What a commitment binds -/

/-- The verification accepts, against some checkpoints. -/
def Accepted (P : Platform) (b : Binding) : Prop :=
  ∃ checkpoints decision, verifyAddressQlCheckpointBinding P b checkpoints = some decision
    ∧ decision.status = .accept

/-- The order of `localeCompare` is a total preorder. -/
structure Platform.Ordered (P : Platform) : Prop where
  antisymm : ∀ s t, 0 < P.localeCompare s t ↔ P.localeCompare t s < 0
  trans : ∀ s t u, P.localeCompare s t ≤ 0 → P.localeCompare t u ≤ 0 → P.localeCompare s u ≤ 0

structure Transition.WellFormed (t : Transition) : Prop where
  sourceZoneIds : ∀ zone ∈ t.sourceZoneIds, isWellFormed zone
  targetZoneIds : ∀ zone ∈ t.targetZoneIds, isWellFormed zone
  sourceToTargets : ∀ entry ∈ t.sourceToTargets.entries,
    isWellFormed entry.1 ∧ ∀ target ∈ entry.2, isWellFormed target
  translatedReferentBefore : isWellFormed t.translatedReferentBefore
  translatedReferentAfter : isWellFormed t.translatedReferentAfter

/-- No string of the binding has a surrogate that is alone. -/
structure AddressQlStatementCheckpointBinding.WellFormed (b : Binding) : Prop where
  version : isWellFormed b.version
  refs : ∀ ref ∈ b.refs, isWellFormed ref.checkpointDigest ∧ isWellFormed ref.rootHash
  transition : ∀ t ∈ b.transition, t.WellFormed

/-- A source goes to a target. -/
def Transition.Related (t : Transition) (source target : JsString) : Prop :=
  ∃ targets, t.sourceToTargets.get? source = some targets ∧ target ∈ targets

/-- Two transitions agree, their maps at the sources in `S`. -/
structure Transition.AgreeAt (S : Set JsString) (t t' : Transition) : Prop where
  fromBoundaryEpoch : t.fromBoundaryEpoch = t'.fromBoundaryEpoch
  toBoundaryEpoch : t.toBoundaryEpoch = t'.toBoundaryEpoch
  sourceZoneIds : ∀ zone, zone ∈ t.sourceZoneIds ↔ zone ∈ t'.sourceZoneIds
  targetZoneIds : ∀ zone, zone ∈ t.targetZoneIds ↔ zone ∈ t'.targetZoneIds
  sourceToTargets : ∀ source ∈ S, ∀ target, t.Related source target ↔ t'.Related source target
  translatedReferentBefore : t.translatedReferentBefore = t'.translatedReferentBefore
  translatedReferentAfter : t.translatedReferentAfter = t'.translatedReferentAfter

/-- Two bindings agree, the maps of their transitions at some sources of the first one. -/
structure AgreeAt (S : Transition → Set JsString) (b b' : Binding) : Prop where
  version : b.version = b'.version
  claimKind : b.claimKind = b'.claimKind
  purpose : b.purpose = b'.purpose
  refs : b.refs.Perm b'.refs
  transition : Option.Rel (fun t => t.AgreeAt (S t)) b.transition b'.transition

def Agree : Binding → Binding → Prop := AgreeAt fun _ => Set.univ

/-- The maps are compared at the source zones only. -/
def AgreeOnZones : Binding → Binding → Prop := AgreeAt fun t => {zone | zone ∈ t.sourceZoneIds}

/-- The commitments of both exist, and are equal exactly where the bindings agree. -/
def CommitmentBinds (P : Platform) (b b' : Binding) : Prop :=
  ∃ c c', checkpointBindingPublicInputCommitment P b = some c
    ∧ checkpointBindingPublicInputCommitment P b' = some c' ∧ (c = c' ↔ Agree b b')

/-- What is hashed for a commitment. -/
def preimage (P : Platform) (b : Binding) : Option (List UInt8) :=
  (bindingFields P b).bind (separated ADDRESSQL_PUBLIC_INPUT_DOMAIN)

/-- The hash tells apart what is hashed for two bindings. -/
def NoCollision (P : Platform) (b b' : Binding) : Prop :=
  ∀ x ∈ preimage P b, ∀ y ∈ preimage P b', P.sha256Hex x = P.sha256Hex y → x = y

/-- Every source zone has an entry of its own in the map. -/
def OwnEntries (b : Binding) : Prop :=
  ∀ t ∈ b.transition, ∀ source ∈ t.sourceZoneIds, t.sourceToTargets.get? source ≠ none

/-- The refs that tie in the sort stand in the same order in both. -/
def SameTieOrder (P : Platform) (b b' : Binding) : Prop :=
  ∀ ref, tied (RefLe P) ref b.refs = tied (RefLe P) ref b'.refs

/-- What is no source zone goes to the same targets in both. -/
def SameElsewhere (b b' : Binding) : Prop :=
  ∀ t ∈ b.transition, ∀ t' ∈ b'.transition, ∀ source, source ∉ t.sourceZoneIds →
    ∀ target, t.Related source target ↔ t'.Related source target

end Agid.CheckpointBinding
