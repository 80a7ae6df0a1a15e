import Agid.SecurePos

/-!
# The shipping tables

The tables of `db/veygrit-ship-core.postgres.sql` and its migrations, as far as labels and jobs need
them, and the statements of `src/server/shipping/veygritShipStore.ts` and `labelManagement.ts` that
write a shipment's labels.  A statement is one step, and so is a transaction; a row of another table
is named by its reference.  Any statement can be refused, and its reply be lost, so that the checks
of the tables on columns that are not kept here need no place of their own.
-/

namespace Agid.VeygritShip

/-- A `timestamptz`, in microseconds. -/
abbrev Instant := ℤ

def ofMilliseconds (ms : ℤ) : Instant := ms * 1000

def ofSeconds (s : ℤ) : Instant := s * 1000000

/-- A part of a normal text is normal. -/
structure Platform where
  nfkc : Nfkc
  dates : Dates
  normalize_trim : ∀ s, nfkc.normalize (trim (nfkc.normalize s)) = trim (nfkc.normalize s)

/-- The carriers the code names, and any other. -/
inductive Carrier where
  | ups
  | dhl
  | other (code : JsString)
deriving DecidableEq

inductive ShipmentStatus where
  | draft
  | rating
  | rated
  | creating
  | created
  | inTransit
  | delivered
  | voidPending
  | voided
  | failed
deriving DecidableEq

inductive LabelOutcome where
  | notRequested
  | pending
  | confirmed
  | unknown
  | reconciling
  | notFound
deriving DecidableEq

inductive LabelStatus where
  | active
  | voidPending
  | voided
  | voidFailed
  | superseded
deriving DecidableEq

inductive LabelFormat where
  | pdf
  | png
  | zpl
  | gif
  | epl
deriving DecidableEq

inductive ConnectionStatus where
  | pending
  | active
  | reauthorizationRequired
  | disabled
deriving DecidableEq

structure Shipment where
  merchantRef : Option JsString
  packageRefs : List JsString
  connectionRef : Option JsString
  carrier : Option Carrier
  adapter : Option JsString
  carrierShipmentId : Option JsString
  status : ShipmentStatus
  labelOutcome : LabelOutcome
  labelRequestId : Option JsString
  labelRequestedAt : Option Instant
  labelReconciliationDeadlineAt : Option Instant
  nextTrackingPollAt : Option Instant
  lastCarrierReconciledAt : Option Instant
  nextCarrierReconcileAt : Option Instant
  reconciliationErrorCount : ℕ
deriving DecidableEq

structure Label where
  shipmentRef : JsString
  packageRef : Option JsString
  carrier : Carrier
  carrierTrackingNumber : JsString
  format : LabelFormat
  artifactKey : JsString
  artifactSha256 : JsString
  artifactSizeBytes : Option ℕ
  status : LabelStatus
  createdAt : Instant
  voidRequestedAt : Option Instant
  voidedAt : Option Instant
  voidFailureCode : Option JsString
deriving DecidableEq

structure Connection where
  carrier : Carrier
  status : ConnectionStatus
  tokenExpiresAt : Option Instant
  nextTokenRefreshAt : Option Instant
  tokenRefreshFailureCount : ℕ
  lastVerifiedAt : Option Instant
deriving DecidableEq

inductive JobType where
  | trackingUpdate
  | carrierReconciliation
  | labelOutcomeReconciliation
  | upsTokenRefresh
deriving DecidableEq

inductive JobStatus where
  | queued
  | running
  | retry
  | succeeded
  | deadLetter
  | cancelled
deriving DecidableEq

structure Job where
  jobType : JobType
  dedupeKey : JsString
  shipmentRef : Option JsString
  labelRef : Option JsString
  connectionRef : Option JsString
  status : JobStatus
  priority : ℕ
  attemptCount : ℕ
  maxAttempts : ℕ
  runAfter : Instant
  leaseExpiresAt : Option Instant
  workerRef : Option JsString
  lastErrorCode : Option JsString
  lastErrorMessage : Option JsString
  lastErrorRetryable : Option Bool
  startedAt : Option Instant
  completedAt : Option Instant
  deadLetteredAt : Option Instant
deriving DecidableEq

/-- `worker.job.dead_lettered` of the audit trail. -/
structure DeadLetterEvent where
  jobRef : JsString
  jobType : JobType
  errorCode : JsString
  attemptCount : ℕ
deriving DecidableEq

structure Database where
  activeMerchants : List JsString
  connections : Record JsString Connection
  shipments : Record JsString Shipment
  labels : Record JsString Label
  jobs : Record JsString Job
  audit : List DeadLetterEvent

/-! ## Statements -/

/-- How a statement comes back: with its result, not at all (and not done), or done with its reply
lost. -/
inductive Link where
  | up
  | refused (message : JsString)
  | lost (message : JsString)
deriving DecidableEq

/-- What a statement leaves and what its caller sees: a value or the text of an error. -/
def query {α : Type} (link : Link) (db : Database)
    (statement : Database → Except JsString (α × Database)) : Except JsString α × Database :=
  match link with
  | .refused message => (.error message, db)
  | .up =>
    match statement db with
    | .ok (a, db') => (.ok a, db')
    | .error message => (.error message, db)
  | .lost message =>
    match statement db with
    | .ok (_, db') => (.error message, db')
    | .error message => (.error message, db)

/-- `ref` and `required`. -/
def ref (P : Platform) (value name : JsString) (max : ℕ) : Except JsString JsString :=
  let normalized := trim (P.nfkc.normalize value)
  if normalized = [] ∨ max < normalized.length then .error (name ++ js " is invalid.")
  else .ok normalized

/-- `date` and `iso`. -/
def date (P : Platform) (value name : JsString) : Except JsString Instant :=
  match P.dates.parse value with
  | some ms => .ok (ofMilliseconds ms)
  | none => .error (name ++ js " is invalid.")

def optionalDate (P : Platform) (value : Option JsString) (name : JsString) :
    Except JsString (Option Instant) :=
  match value with
  | some value => (date P value name).map some
  | none => .ok none

/-- `value?.trim() || null`. -/
def trimmed (value : Option JsString) : Option JsString := value.bind (nonEmpty ∘ trim)

/-- `[A-F]` to `[a-f]`, which is what `toLowerCase` does to a digest. -/
def lowerHexUnit (c : CodeUnit) : CodeUnit := if 65 ≤ c.val ∧ c.val ≤ 70 then c + 32 else c

def isHexUnit (c : CodeUnit) : Bool := (48 ≤ c.val && c.val ≤ 57) || (97 ≤ c.val && c.val ≤ 102)

def assertHash (value name : JsString) : Except JsString JsString :=
  let normalized := (trim value).map lowerHexUnit
  if normalized.all isHexUnit ∧ normalized.length = 64 then .ok normalized
  else .error (name ++ js " must be a SHA-256 hex digest.")

/-- `/^[A-Za-z0-9_-]+$/`. -/
def isSafeUnit (c : CodeUnit) : Bool :=
  (97 ≤ c.val && c.val ≤ 122) || (65 ≤ c.val && c.val ≤ 90) || (48 ≤ c.val && c.val ≤ 57)
    || c.val = 95 || c.val = 45

def safeRef (P : Platform) (value name : JsString) (max : ℕ) : Except JsString JsString := do
  let normalized ← ref P value name max
  if normalized.all isSafeUnit then return normalized else .error (name ++ js " is invalid.")

def optionalRef (P : Platform) (value : Option JsString) (name : JsString) (max : ℕ) :
    Except JsString (Option JsString) :=
  match value with
  | some value => (safeRef P value name max).map some
  | none => .ok none

/-! ## Connections and shipments -/

/-- The row of `upsertCarrierConnection`, in the place of the one before. -/
def upsertCarrierConnection (P : Platform) (connectionRef : JsString) (carrier : Carrier)
    (tokenExpiresAt : Option JsString) (status : Option ConnectionStatus) (now : Instant)
    (db : Database) : Except JsString (Unit × Database) := do
  let connectionRef ← ref P connectionRef (js "connectionRef") 100
  let tokenExpiresAt ← optionalDate P (tokenExpiresAt.bind nonEmpty) (js "tokenExpiresAt")
  let old := db.connections.get? connectionRef
  let row : Connection := {
    carrier := carrier
    status := status.getD .pending
    tokenExpiresAt := tokenExpiresAt
    nextTokenRefreshAt := if carrier = .ups then
        some ((tokenExpiresAt.map (· - ofSeconds 300)).getD now)
      else none
    tokenRefreshFailureCount := (old.map Connection.tokenRefreshFailureCount).getD 0
    lastVerifiedAt := old.bind Connection.lastVerifiedAt }
  return ((), { db with connections := db.connections.set connectionRef row })

structure ShipmentInput where
  shipmentRef : JsString
  merchantRef : Option JsString
  packageRefs : List JsString
  connectionRef : Option JsString
  carrier : Option Carrier
  adapter : Option JsString

/-- A shipment as it is inserted. -/
def newShipment (input : ShipmentInput) : Shipment where
  merchantRef := input.merchantRef
  packageRefs := input.packageRefs
  connectionRef := input.connectionRef
  carrier := input.carrier
  adapter := input.adapter
  carrierShipmentId := none
  status := .draft
  labelOutcome := .notRequested
  labelRequestId := none
  labelRequestedAt := none
  labelReconciliationDeadlineAt := none
  nextTrackingPollAt := none
  lastCarrierReconciledAt := none
  nextCarrierReconcileAt := none
  reconciliationErrorCount := 0

/-- The row `createShipmentWithPackages` inserts, once its owner and its connection are found. -/
def createShipment (P : Platform) (input : ShipmentInput) (db : Database) :
    Except JsString (Unit × Database) :=
  if input.packageRefs = [] then .error (js "At least one package is required.")
  else do
    let shipmentRef ← ref P input.shipmentRef (js "shipmentRef") 100
    match db.shipments.get? shipmentRef with
    | some _ => .error (js "duplicate key value violates unique constraint")
    | none => return ((), { db with shipments := db.shipments.set shipmentRef (newShipment input) })

/-- The last statement of `selectRateQuote`. -/
def selectRateQuote (P : Platform) (shipmentRef : JsString) (db : Database) :
    Except JsString (Unit × Database) := do
  let normalizedShipmentRef ← ref P shipmentRef (js "shipmentRef") 100
  match db.shipments.updateAt normalizedShipmentRef (fun _ => true)
      ({ · with status := .rated }) with
  | some shipments => return ((), { db with shipments := shipments })
  | none => .error (js "Available rate quote was not found.")

/-! ## Labels -/

/-- A label the carrier still stands by. -/
def Label.open (label : Label) : Bool := label.status = .active || label.status = .voidPending

/-- `veygrit_ship_enforce_label_scope`. -/
def enforceLabelScope (labels : Record JsString Label) (label : Label) : Except JsString Unit :=
  let other := labels.values.filter fun l => l.shipmentRef = label.shipmentRef && l.open
  if label.packageRef = none ∧ other.any (·.packageRef.isSome) then
    .error (js "shipment-scope label cannot coexist with active package-scope labels")
  else if label.packageRef.isSome ∧ other.any (·.packageRef.isNone) then
    .error (js "package-scope label cannot coexist with an active shipment-scope label")
  else .ok ()

/-- `veygrit_ship_label_tracking_uq`. -/
def trackingTaken (labels : Record JsString Label) (label : Label) : Bool :=
  labels.values.any fun l => l.status = .active && l.carrier = label.carrier
    && l.carrierTrackingNumber = label.carrierTrackingNumber

/-- `veygrit_ship_label_active_shipment_scope_uq` and `_package_scope_uq`. -/
def scopeTaken (labels : Record JsString Label) (label : Label) : Bool :=
  labels.values.any fun l => l.open && l.packageRef = label.packageRef
    && (label.packageRef.isSome || l.shipmentRef = label.shipmentRef)

def duplicateLabel : JsString := js "duplicate key value violates unique constraint"

/-- The columns of an inserted label, but its reference; it is `active`. -/
def newLabel (shipmentRef : JsString) (packageRef : Option JsString) (carrier : Carrier)
    (carrierTrackingNumber : JsString) (format : LabelFormat)
    (artifactKey artifactSha256 : JsString) (artifactSizeBytes : Option ℕ) (now : Instant) :
    Label where
  shipmentRef := shipmentRef
  packageRef := packageRef
  carrier := carrier
  carrierTrackingNumber := carrierTrackingNumber
  format := format
  artifactKey := artifactKey
  artifactSha256 := artifactSha256
  artifactSizeBytes := artifactSizeBytes
  status := .active
  createdAt := now
  voidRequestedAt := none
  voidedAt := none
  voidFailureCode := none

structure LabelInput where
  labelRef : JsString
  shipmentRef : JsString
  packageRef : Option JsString
  carrier : Carrier
  carrierTrackingNumber : JsString
  format : LabelFormat
  artifactKey : JsString
  artifactSha256 : JsString
  artifactSizeBytes : Option ℕ
  carrierShipmentId : Option JsString
deriving DecidableEq

/-- The identity that `ON CONFLICT (label_ref)` asks for. -/
def sameLabel (l l' : Label) : Bool :=
  l.shipmentRef = l'.shipmentRef && l.carrier = l'.carrier
    && l.carrierTrackingNumber = l'.carrierTrackingNumber && l.artifactSha256 = l'.artifactSha256

def labelConflict : JsString :=
  js "Label identity conflicts, or shipment/package was not found."

/-- What a stored label makes of its shipment. -/
def confirm (carrier : Carrier) (carrierShipmentId : Option JsString) (now : Instant)
    (s : Shipment) : Shipment :=
  { s with
    status := .created
    carrier := some carrier
    carrierShipmentId := carrierShipmentId.or s.carrierShipmentId
    labelOutcome := .confirmed
    nextTrackingPollAt := some now
    nextCarrierReconcileAt := some now }

/-- The first statement of `saveLabel`. -/
def insertLabel (P : Platform) (now : Instant) (input : LabelInput) (db : Database) :
    Except JsString (Record JsString Label) := do
  let labelRef ← ref P input.labelRef (js "labelRef") 100
  let shipmentRef ← ref P input.shipmentRef (js "shipmentRef") 100
  let packageRef := trimmed input.packageRef
  let tracking ← ref P input.carrierTrackingNumber (js "carrierTrackingNumber") 100
  let artifactKey ← ref P input.artifactKey (js "artifactKey") 500
  let artifactSha256 ← assertHash input.artifactSha256 (js "artifactSha256")
  let label := newLabel shipmentRef packageRef input.carrier tracking input.format artifactKey
    artifactSha256 input.artifactSizeBytes now
  match db.shipments.get? shipmentRef with
  | none => .error labelConflict
  | some s =>
    if packageRef.all (s.packageRefs.contains ·) then
      enforceLabelScope db.labels label
      match db.labels.get? labelRef with
      | some old => if sameLabel old label then return db.labels else .error labelConflict
      | none =>
        if trackingTaken db.labels label || scopeTaken db.labels label then .error duplicateLabel
        else return db.labels.set labelRef label
    else .error labelConflict

/-- The second statement names the shipment as the caller did. -/
def saveLabel (P : Platform) (now : Instant) (input : LabelInput) (db : Database) :
    Except JsString (Unit × Database) := do
  let labels ← insertLabel P now input db
  let shipments := (db.shipments.updateAt input.shipmentRef (fun _ => true)
    (confirm input.carrier (trimmed input.carrierShipmentId) now)).getD db.shipments
  return ((), { db with labels := labels, shipments := shipments })

structure ManagedLabelInput where
  labelRef : JsString
  shipmentRef : JsString
  packageRef : Option JsString
  merchantRef : JsString
  carrier : Carrier
  trackingNumber : JsString
  format : LabelFormat
  objectKey : JsString
  artifactSha256 : JsString
  artifactSizeBytes : ℕ

namespace PostgresLabelMetadataStore

/-- The shipments of a merchant that is active. -/
def owns (db : Database) (merchantRef : JsString) (s : Shipment) : Bool :=
  s.merchantRef = some merchantRef && db.activeMerchants.contains merchantRef

def saveLabel (P : Platform) (now : Instant) (input : ManagedLabelInput) (db : Database) :
    Except JsString (Unit × Database) := do
  let labelRef ← safeRef P input.labelRef (js "labelRef") 100
  let shipmentRef ← safeRef P input.shipmentRef (js "shipmentRef") 100
  let merchantRef ← safeRef P input.merchantRef (js "merchantRef") 100
  let packageRef ← optionalRef P (input.packageRef.bind nonEmpty) (js "packageRef") 100
  let tracking ← ref P input.trackingNumber (js "trackingNumber") 100
  let objectKey ← ref P input.objectKey (js "objectKey") 500
  let label := newLabel shipmentRef packageRef input.carrier tracking input.format objectKey
    input.artifactSha256 (some input.artifactSizeBytes) now
  let missing := js "Merchant shipment/package was not found or labelRef already exists."
  match db.shipments.get? shipmentRef with
  | none => .error missing
  | some s =>
    if owns db merchantRef s ∧ packageRef.all (s.packageRefs.contains ·) then
      enforceLabelScope db.labels label
      match db.labels.get? labelRef with
      | some _ => .error missing
      | none =>
        if trackingTaken db.labels label || scopeTaken db.labels label then .error duplicateLabel
        else return ((), { db with
          labels := db.labels.set labelRef label
          shipments := db.shipments.set shipmentRef (confirm input.carrier none now s) })
    else .error missing

/-- The label, where its shipment is the merchant's. -/
def target (P : Platform) (labelRef merchantRef : JsString) (db : Database) :
    Except JsString (JsString × Option Label) := do
  let labelRef ← safeRef P labelRef (js "labelRef") 100
  let merchantRef ← safeRef P merchantRef (js "merchantRef") 100
  return (labelRef, (db.labels.get? labelRef).filter fun l =>
    (db.shipments.get? l.shipmentRef).any (owns db merchantRef))

def requestVoid (P : Platform) (now : Instant) (labelRef merchantRef : JsString) (db : Database) :
    Except JsString (Unit × Database) := do
  let found ← target P labelRef merchantRef db
  match found.2.filter fun l => l.status = .active || l.status = .voidFailed with
  | none => .error (js "Voidable label was not found.")
  | some l =>
    let l := { l with
      status := .voidPending, voidRequestedAt := some now, voidFailureCode := none }
    enforceLabelScope (db.labels.erase found.1) l
    if scopeTaken (db.labels.erase found.1) l then .error duplicateLabel
    else return ((), { db with labels := db.labels.set found.1 l })

/-- `failureCode` is none where the carrier voided the label. -/
def finishVoid (P : Platform) (now : Instant) (labelRef merchantRef : JsString)
    (failureCode : Option JsString) (db : Database) : Except JsString (Unit × Database) := do
  let found ← target P labelRef merchantRef db
  match found.2.filter fun l => l.status = .voidPending with
  | none => .error (js "Pending Void label was not found.")
  | some l =>
    return ((), { db with labels := db.labels.set found.1 { l with
      status := if failureCode.isSome then .voidFailed else .voided
      voidedAt := if failureCode.isSome then none else some now
      voidFailureCode := failureCode } })

end PostgresLabelMetadataStore

end Agid.VeygritShip
