import Agid.ShipJobs
import Agid.Lib.History

/-!
# The shipping workers

`runOnce` and `process` of `src/server/shipping/veygritShipWorkers.ts`, with any number of workers
and of other callers on one database.  A worker takes its claimed jobs in as many lanes as it likes
and may stop at any point, so each claimed job goes on by itself, a statement or an answer of the
carrier at a time.  The tracking events a sync appends first are not kept: one that is refused ends
the sync as its last statement does.
-/

namespace Agid.VeygritShip

/-! ## A claimed job -/

structure ShipWorkerError where
  code : JsString
  message : JsString
  retryable : Bool
  retryAfterMs : Option ℤ
deriving DecidableEq

/-- `normalizedError` of an error that no connector made. -/
def unexpectedError (message : JsString) : ShipWorkerError :=
  ⟨js "WORKER_UNEXPECTED_ERROR", message, true, none⟩

def invalidJob (message : JsString) : ShipWorkerError :=
  ⟨js "WORKER_JOB_INVALID", message, false, none⟩

def jobRequirement (value : Option JsString) (name : JsString) : Except ShipWorkerError JsString :=
  match value.bind nonEmpty with
  | some value => .ok value
  | none => .error (invalidJob (name ++ js " is missing from worker job."))

structure TrackingWorkerResult where
  status : Option CarrierStatus
  nextPollAt : Option JsString
  nextReconcileAt : Option JsString
deriving DecidableEq

structure CarrierReconciliationResult where
  status : Option CarrierStatus
  nextReconcileAt : Option JsString
deriving DecidableEq

inductive LabelOutcomeResult where
  | found (label : LabelInput)
  | notFound
  | pending
deriving DecidableEq

/-- What the gateway answers, or the error it ends in. -/
inductive Answer where
  | tracking (result : TrackingWorkerResult)
  | carrier (result : CarrierReconciliationResult)
  | label (result : LabelOutcomeResult)
  | token (expiresAt : JsString)
  | thrown (error : ShipWorkerError)
deriving DecidableEq

/-- What comes next of a claimed job. -/
inductive Phase where
  | claimed
  | asked
  | saving (label : LabelInput)
  | confirming (label : LabelInput)
  | absent
  | syncing (result : TrackingWorkerResult)
  | reconciling (result : CarrierReconciliationResult)
  | refreshing (expiresAt : JsString)
  | processed
  | failing (error : ShipWorkerError)
  | ended (status : Option JobStatus)
deriving DecidableEq

/-- A claimed job in the hands of the worker that claimed it, and until when. -/
structure Hand where
  workerRef : JsString
  leaseExpiresAt : Instant
  job : ClaimedShipJob
  phase : Phase
deriving DecidableEq

/-- What a step reads from outside: the clock of the database and, in milliseconds, of the worker,
how the statement comes back, the carrier's answer and `Math.random()`. -/
structure Env where
  now : Instant
  clock : ℤ
  link : Link
  answer : Answer
  random : ℚ
deriving DecidableEq

/-- In milliseconds, up to the rounding of a product of doubles. -/
def retryDelay (attempt : ℕ) (retryAfterMs : Option ℤ) (random : ℚ) : ℤ :=
  match retryAfterMs with
  | some ms => max 1000 (min (6 * 60 * 60000) ms)
  | none =>
    let base : ℤ := min (6 * 60 * 60000) (5000 * 2 ^ (attempt - 1))
    ⌈(base : ℚ) * (4 / 5 + random * (2 / 5))⌉

section Process

variable (P : Platform)

/-- The text of a time so many minutes from now. -/
def inMinutes (env : Env) (minutes : ℤ) : JsString :=
  P.dates.toISOString (env.clock + minutes * 60000)

def failureOf (env : Env) (job : ClaimedShipJob) (error : ShipWorkerError) : Failure where
  errorCode := error.code
  errorMessage := error.message
  retryable := error.retryable
  nextRunAt := ofMilliseconds (env.clock + retryDelay job.attemptCount error.retryAfterMs env.random)

/-- The checks of `process` on the job, before it asks the gateway. -/
def checkJob (job : ClaimedShipJob) : Except ShipWorkerError Unit := do
  match job.jobType with
  | .trackingUpdate =>
    let _ ← jobRequirement job.shipmentRef (js "shipmentRef")
    let _ ← jobRequirement job.trackingNumber (js "trackingNumber")
  | .carrierReconciliation =>
    let _ ← jobRequirement job.shipmentRef (js "shipmentRef")
  | .labelOutcomeReconciliation =>
    let _ ← jobRequirement job.shipmentRef (js "shipmentRef")
    let _ ← jobRequirement job.labelRequestId (js "labelRequestId")
  | .upsTokenRefresh =>
    let _ ← jobRequirement job.connectionRef (js "connectionRef")
    if job.carrier ≠ some .ups then
      .error (invalidJob (js "UPS token job has a non-UPS connection."))

/-- The phase after a statement of `process`. -/
def thenPhase {α : Type} (result : Except JsString α) (phase : Phase) : Phase :=
  match result with
  | .ok _ => phase
  | .error message => .failing (unexpectedError message)

def deadlineExceeded : ShipWorkerError :=
  ⟨js "LABEL_RECONCILIATION_DEADLINE_EXCEEDED",
    js "Carrier could not determine the label outcome before the reconciliation deadline. "
      ++ js "Manual review is required.", false, none⟩

def outcomePending : ShipWorkerError :=
  ⟨js "LABEL_OUTCOME_PENDING", js "Carrier has not exposed the label result yet.", true,
    some 30000⟩

def labelMismatch : ShipWorkerError :=
  ⟨js "LABEL_RECONCILIATION_MISMATCH", js "Reconciled label belongs to another shipment.", false,
    none⟩

/-- What `process` makes of an answer; none where the gateway has no such answer to the job. -/
def answered (env : Env) (job : ClaimedShipJob) : Option Phase :=
  match env.answer, job.jobType with
  | .thrown error, _ => some (.failing error)
  | .tracking result, .trackingUpdate =>
    some (.syncing { result with
      nextPollAt := if result.status = some .delivered then result.nextPollAt
        else some (result.nextPollAt.getD (inMinutes P env 15))
      nextReconcileAt := some (result.nextReconcileAt.getD (inMinutes P env 360)) })
  | .carrier result, .carrierReconciliation =>
    some (.reconciling { result with
      nextReconcileAt :=
        if result.status = some .delivered ∨ result.status = some .voided then
          result.nextReconcileAt
        else some (result.nextReconcileAt.getD (inMinutes P env 360)) })
  | .label (.found label), .labelOutcomeReconciliation =>
    some (if some label.shipmentRef = job.shipmentRef then .saving label
      else .failing labelMismatch)
  | .label .notFound, .labelOutcomeReconciliation => some .absent
  | .label .pending, .labelOutcomeReconciliation =>
    some (.failing (if job.labelReconciliationDeadlineAt.any (· / 1000 ≤ env.clock) then
      deadlineExceeded else outcomePending))
  | .token expiresAt, .upsTokenRefresh => some (.refreshing expiresAt)
  | _, _ => none

/-- The next step of a claimed job, on the database; none where it has ended. -/
def advance (env : Env) (db : Database) (hand : Hand) : Option (Phase × Database) :=
  let job := hand.job
  let shipmentRef := job.shipmentRef.getD []
  let store {α : Type} (statement : Database → Except JsString (α × Database)) (phase : Phase) :
      Phase × Database :=
    let (result, db') := query env.link db statement
    (thenPhase result phase, db')
  match hand.phase with
  | .claimed =>
    match checkJob job with
    | .error error => some (.failing error, db)
    | .ok _ =>
      if job.jobType = .labelOutcomeReconciliation then
        some (store (markLabelReconciling P shipmentRef) .asked)
      else some (.asked, db)
  | .asked => (answered P env job).map (·, db)
  | .saving label => some (store (saveLabel P env.now label) (.confirming label))
  | .confirming label => some (store (recordConfirmed P label) .processed)
  | .absent => some (store (recordLabelNotFound P shipmentRef) .processed)
  | .syncing result =>
    some (store (recordTrackingSync P shipmentRef result.status result.nextPollAt
      result.nextReconcileAt env.now) .processed)
  | .reconciling result =>
    some (store (recordCarrierReconciliation P shipmentRef result.status result.nextReconcileAt
      env.now) .processed)
  | .refreshing expiresAt =>
    some (store (recordUpsTokenRefresh P (job.connectionRef.getD []) expiresAt env.now) .processed)
  | .processed =>
    some (store (completeJob P job.jobRef env.now) (.ended (some .succeeded)))
  | .failing error =>
    let (result, db') := query env.link db (failJob P job.jobRef (failureOf env job error) env.now)
    some (.ended (match result with
      | .ok status => some status
      | .error _ => none), db')
  | .ended _ => none

end Process

/-! ## All of them -/

structure World where
  db : Database
  hands : List Hand

/-- What else is done to the database. -/
inductive Command where
  | upsertCarrierConnection (connectionRef : JsString) (carrier : Carrier)
    (tokenExpiresAt : Option JsString) (status : Option ConnectionStatus) (now : Instant)
  | createShipment (input : ShipmentInput)
  | selectRateQuote (shipmentRef : JsString)
  | saveLabel (now : Instant) (input : LabelInput)
  | saveManagedLabel (now : Instant) (input : ManagedLabelInput)
  | requestVoid (now : Instant) (labelRef merchantRef : JsString)
  | finishVoid (now : Instant) (labelRef merchantRef : JsString) (failureCode : Option JsString)
  | scheduleDueJobs (fresh : FreshRef) (now : Instant)
  | replayDeadLetter (jobRef runAfter : JsString)
  | markLabelOutcomeUnknown (fresh : FreshRef) (now : Instant) (input : UnknownInput)

inductive Event where
  | call (link : Link) (command : Command)
  | claim (link : Link) (workerRef : JsString) (limit leaseSeconds : ℚ) (now : Instant)
  | work (i : ℕ) (env : Env)

section Next

variable (P : Platform)

def Command.run (command : Command) (db : Database) : Except JsString (Unit × Database) :=
  match command with
  | .upsertCarrierConnection connectionRef carrier tokenExpiresAt status now =>
    VeygritShip.upsertCarrierConnection P connectionRef carrier tokenExpiresAt status now db
  | .createShipment input => VeygritShip.createShipment P input db
  | .selectRateQuote shipmentRef => VeygritShip.selectRateQuote P shipmentRef db
  | .saveLabel now input => VeygritShip.saveLabel P now input db
  | .saveManagedLabel now input => PostgresLabelMetadataStore.saveLabel P now input db
  | .requestVoid now labelRef merchantRef =>
    PostgresLabelMetadataStore.requestVoid P now labelRef merchantRef db
  | .finishVoid now labelRef merchantRef failureCode =>
    PostgresLabelMetadataStore.finishVoid P now labelRef merchantRef failureCode db
  | .scheduleDueJobs fresh now => VeygritShip.scheduleDueJobs fresh now db
  | .replayDeadLetter jobRef runAfter => VeygritShip.replayDeadLetter P jobRef runAfter db
  | .markLabelOutcomeUnknown fresh now input =>
    (VeygritShip.markLabelOutcomeUnknown P fresh now input db).map fun r => ((), r.2)

def handOf (workerRef : JsString) (leaseSeconds : ℚ) (now : Instant) (job : ClaimedShipJob) :
    Hand where
  workerRef := workerRef
  leaseExpiresAt := now + ofSeconds (safeLease leaseSeconds)
  job := job
  phase := .claimed

def next (w : World) : Event → Option World
  | .call link command => some { w with db := (query link w.db (command.run P)).2 }
  | .claim link workerRef limit leaseSeconds now =>
    let (result, db') := query link w.db (claimJobs P workerRef limit leaseSeconds now)
    match result with
    | .ok jobs => some ⟨db', w.hands ++ jobs.map (handOf workerRef leaseSeconds now)⟩
    | .error _ => some { w with db := db' }
  | .work i env =>
    match w.hands[i]? with
    | none => none
    | some hand =>
      match advance P env w.db hand with
      | none => none
      | some (phase, db') => some ⟨db', w.hands.set i { hand with phase := phase }⟩

/-- No shipment yet, and no job. -/
def Database.start (activeMerchants : List JsString) (connections : Record JsString Connection) :
    Database where
  activeMerchants := activeMerchants
  connections := connections
  shipments := .empty
  labels := .empty
  jobs := .empty
  audit := []

/-- A run from a database without shipments and jobs, with no job in anyone's hands. -/
def Run (past : History.Past World Event) (w : World) : Prop :=
  ∃ activeMerchants connections,
    History.Run (next P) ⟨.start activeMerchants connections, []⟩ past w

end Next

end Agid.VeygritShip
