import Agid.ShipStore

/-!
# The shipping jobs

The statements of `src/server/shipping/veygritShipWorkerStore.ts` on the queue of
`db/veygrit-ship-workers.postgres.sql`, and those by which a worker writes what a carrier told it.
The rows of the queue stand in the order of their ids.  A claim locks no row that another statement
holds, as statements follow one another here.
-/

namespace Agid.VeygritShip

/-! ## Enqueueing -/

def JobStatus.active (status : JobStatus) : Bool :=
  status = .queued || status = .running || status = .retry

/-- A row of the queue as it is inserted. -/
def newJob (jobType : JobType) (dedupeKey : JsString)
    (shipmentRef labelRef connectionRef : Option JsString) (priority maxAttempts : ℕ)
    (now : Instant) : Job where
  jobType := jobType
  dedupeKey := dedupeKey
  shipmentRef := shipmentRef
  labelRef := labelRef
  connectionRef := connectionRef
  status := .queued
  priority := priority
  attemptCount := 0
  maxAttempts := maxAttempts
  runAfter := now
  leaseExpiresAt := none
  workerRef := none
  lastErrorCode := none
  lastErrorMessage := none
  lastErrorRetryable := none
  startedAt := none
  completedAt := none
  deadLetteredAt := none

/-- `veygrit_ship_async_job_active_dedupe_uq`. -/
def sameWork (job j : Job) : Bool :=
  j.status.active && j.jobType = job.jobType && j.dedupeKey = job.dedupeKey

/-- `INSERT … ON CONFLICT DO NOTHING`. -/
def insertJob (jobs : Record JsString Job) (row : JsString × Job) : Record JsString Job :=
  if (jobs.get? row.1).isSome || jobs.values.any (sameWork row.2) then jobs
  else jobs.set row.1 row.2

/-- A random text of 32 hexadecimal digits, as `md5` and `randomUUID` make them. -/
structure HexId where
  text : JsString
  digits : text.all isHexUnit = true
  length : text.length = 32

/-- The id drawn for a row that a job is inserted for. -/
abbrev FreshRef := JobType → JsString → HexId

def jobRefOf (fresh : FreshRef) (jobType : JobType) (row : JsString) : JsString :=
  js "job_" ++ (fresh jobType row).text

def dueNow (now : Instant) (at? : Option Instant) : Bool := at?.getD now ≤ now

def Carrier.code : Carrier → JsString
  | .ups => js "ups"
  | .dhl => js "dhl"
  | .other code => code

def trackingRows (fresh : FreshRef) (now : Instant) (db : Database) : List (JsString × Job) :=
  db.shipments.entries.flatMap fun s =>
    if (s.2.status = .created || s.2.status = .inTransit) && s.2.labelOutcome = .confirmed
        && dueNow now s.2.nextTrackingPollAt then
      (db.labels.entries.filter fun l => l.2.shipmentRef = s.1 && l.2.status = .active).map fun l =>
        (jobRefOf fresh .trackingUpdate (s.1 ++ l.1),
          newJob .trackingUpdate (l.2.carrier.code ++ js ":" ++ l.2.carrierTrackingNumber)
            (some s.1) (some l.1) s.2.connectionRef 50 12 now)
    else []

def reconciliationRows (fresh : FreshRef) (now : Instant) (db : Database) : List (JsString × Job) :=
  (db.shipments.entries.filter fun s =>
    (s.2.status = .created || s.2.status = .inTransit || s.2.status = .voidPending)
      && dueNow now s.2.nextCarrierReconcileAt).map fun s =>
    (jobRefOf fresh .carrierReconciliation s.1,
      newJob .carrierReconciliation s.1 (some s.1) none s.2.connectionRef 80 8 now)

def labelOutcomeRows (fresh : FreshRef) (now : Instant) (db : Database) : List (JsString × Job) :=
  (db.shipments.entries.filter fun s =>
    s.2.labelOutcome = .unknown || s.2.labelOutcome = .reconciling).map fun s =>
    (jobRefOf fresh .labelOutcomeReconciliation s.1,
      newJob .labelOutcomeReconciliation s.1 (some s.1) none s.2.connectionRef 10 10 now)

/-- `next_token_refresh_at`, else five minutes before the token expires. -/
def refreshDue (c : Connection) : Option Instant :=
  c.nextTokenRefreshAt.or (c.tokenExpiresAt.map (· - ofSeconds 300))

def tokenRows (fresh : FreshRef) (now : Instant) (db : Database) : List (JsString × Job) :=
  (db.connections.entries.filter fun c =>
    c.2.carrier = .ups && c.2.status = .active && dueNow now (refreshDue c.2)).map fun c =>
    (jobRefOf fresh .upsTokenRefresh c.1,
      newJob .upsTokenRefresh c.1 none none (some c.1) 20 8 now)

def scheduledRows (fresh : FreshRef) (now : Instant) (db : Database) : List (JsString × Job) :=
  trackingRows fresh now db ++ reconciliationRows fresh now db ++ labelOutcomeRows fresh now db
    ++ tokenRows fresh now db

/-- The four inserts read no job but those they clash with. -/
def scheduleDueJobs (fresh : FreshRef) (now : Instant) (db : Database) :
    Except JsString (Unit × Database) :=
  .ok ((), { db with jobs := (scheduledRows fresh now db).foldl insertJob db.jobs })

/-! ## Claiming -/

structure ClaimedShipJob where
  jobRef : JsString
  jobType : JobType
  attemptCount : ℕ
  maxAttempts : ℕ
  shipmentRef : Option JsString
  labelRef : Option JsString
  connectionRef : Option JsString
  carrier : Option Carrier
  adapter : Option JsString
  trackingNumber : Option JsString
  labelRequestId : Option JsString
  labelReconciliationDeadlineAt : Option Instant
deriving DecidableEq

/-- A job that waits for its time, or one whose lease is over. -/
def claimable (now : Instant) (j : Job) : Bool :=
  ((j.status = .queued || j.status = .retry) && j.runAfter ≤ now)
    || (j.status = .running && j.leaseExpiresAt.any (· ≤ now))

/-- `ORDER BY priority, run_after`, then by id. -/
def claimedFirst (a b : JsString × Job) : Prop :=
  a.2.priority < b.2.priority ∨ (a.2.priority = b.2.priority ∧ a.2.runAfter ≤ b.2.runAfter)

instance : DecidableRel claimedFirst := fun _ _ => inferInstanceAs (Decidable (_ ∨ _))

/-- `Math.trunc`. -/
def trunc (x : ℚ) : ℤ := if 0 ≤ x then ⌊x⌋ else ⌈x⌉

def safeLimit (limit : ℚ) : ℕ := (max 1 (min 100 (trunc limit))).toNat

def safeLease (leaseSeconds : ℚ) : ℤ := max 10 (min 900 (trunc leaseSeconds))

def candidates (now : Instant) (limit : ℚ) (jobs : Record JsString Job) : List JsString :=
  (((jobs.entries.filter fun e => claimable now e.2).insertionSort claimedFirst).take
    (safeLimit limit)).map Prod.fst

def claimed (worker : JsString) (leaseSeconds : ℚ) (now : Instant) (j : Job) : Job :=
  { j with
    status := .running
    workerRef := some worker
    attemptCount := j.attemptCount + 1
    startedAt := some (j.startedAt.getD now)
    leaseExpiresAt := some (now + ofSeconds (safeLease leaseSeconds)) }

/-- The label of the job, else the last active one of its shipment. -/
def latestLabel (db : Database) (j : Job) : Option (JsString × Label) :=
  match j.labelRef with
  | some l => (db.labels.get? l).map (l, ·)
  | none =>
    (db.labels.entries.filter fun l => some l.2.shipmentRef = j.shipmentRef
      && l.2.status = .active).foldl (fun latest l =>
        if latest.all fun m => m.2.createdAt ≤ l.2.createdAt then some l else latest) none

/-- `mapJob` of the row the claim returns. -/
def mapJob (db : Database) (e : JsString × Job) : ClaimedShipJob :=
  let s := e.2.shipmentRef.bind db.shipments.get?
  let l := latestLabel db e.2
  let c := e.2.connectionRef.bind db.connections.get?
  { jobRef := e.1
    jobType := e.2.jobType
    attemptCount := e.2.attemptCount
    maxAttempts := e.2.maxAttempts
    shipmentRef := e.2.shipmentRef
    labelRef := l.map Prod.fst
    connectionRef := e.2.connectionRef
    carrier := (s.bind Shipment.carrier).or (c.map Connection.carrier)
    adapter := s.bind Shipment.adapter
    trackingNumber := l.map fun l => l.2.carrierTrackingNumber
    labelRequestId := s.bind Shipment.labelRequestId
    labelReconciliationDeadlineAt := s.bind Shipment.labelReconciliationDeadlineAt }

/-- The jobs as a claim leaves them. -/
def claimRows (worker : JsString) (limit leaseSeconds : ℚ) (now : Instant)
    (jobs : Record JsString Job) : Record JsString Job :=
  let picked := candidates now limit jobs
  jobs.updateWhere (fun k _ => picked.contains k) (claimed worker leaseSeconds now)

def claimJobs (P : Platform) (workerRef : JsString) (limit leaseSeconds : ℚ) (now : Instant)
    (db : Database) : Except JsString (List ClaimedShipJob × Database) := do
  let worker ← ref P workerRef (js "workerRef") 100
  let picked := candidates now limit db.jobs
  let jobs := claimRows worker limit leaseSeconds now db.jobs
  let rows := (jobs.entries.filter fun e => picked.contains e.1).insertionSort fun a b =>
    a.2.priority ≤ b.2.priority
  return (rows.map (mapJob db), { db with jobs := jobs })

/-! ## Ending a job -/

def notRunning : JsString := js "Running worker job was not found."

def isRunning (j : Job) : Bool := j.status = .running

def completed (now : Instant) (j : Job) : Job :=
  { j with
    status := .succeeded
    completedAt := some now
    leaseExpiresAt := none
    workerRef := none
    lastErrorCode := none
    lastErrorMessage := none
    lastErrorRetryable := none }

def completeJob (P : Platform) (jobRef : JsString) (now : Instant) (db : Database) :
    Except JsString (Unit × Database) := do
  let jobRef ← ref P jobRef (js "jobRef") 100
  match db.jobs.updateAt jobRef isRunning (completed now) with
  | some jobs => return ((), { db with jobs := jobs })
  | none => .error notRunning

structure Failure where
  errorCode : JsString
  errorMessage : JsString
  retryable : Bool
  nextRunAt : Instant
deriving DecidableEq

/-- A job that fails has no attempt left, or is not to be tried again. -/
def exhausted (retryable : Bool) (j : Job) : Bool := !retryable || j.maxAttempts ≤ j.attemptCount

def failed (f : Failure) (now : Instant) (j : Job) : Job :=
  { j with
    status := if exhausted f.retryable j then .deadLetter else .retry
    runAfter := f.nextRunAt
    leaseExpiresAt := none
    workerRef := none
    lastErrorCode := some f.errorCode
    lastErrorMessage := some f.errorMessage
    lastErrorRetryable := some f.retryable
    deadLetteredAt := if exhausted f.retryable j then some now else none }

def failJob (P : Platform) (jobRef : JsString) (f : Failure) (now : Instant) (db : Database) :
    Except JsString (JobStatus × Database) := do
  let jobRef ← ref P jobRef (js "jobRef") 100
  let errorCode ← ref P f.errorCode (js "errorCode") 100
  let errorMessage ← ref P f.errorMessage (js "errorMessage") 500
  let f := { f with errorCode := errorCode, errorMessage := errorMessage }
  match db.jobs.get? jobRef with
  | none => .error notRunning
  | some j =>
    if isRunning j then
      let shipments := (j.shipmentRef.bind fun s => db.shipments.updateAt s (fun _ => true) fun s =>
        { s with reconciliationErrorCount := s.reconciliationErrorCount + 1 }).getD db.shipments
      let connections := if j.jobType = .upsTokenRefresh then
          (j.connectionRef.bind fun c => db.connections.updateAt c (fun _ => true) fun c =>
            { c with
              tokenRefreshFailureCount := c.tokenRefreshFailureCount + 1
              status := if exhausted f.retryable j then .reauthorizationRequired else c.status
              }).getD db.connections
        else db.connections
      let audit := if exhausted f.retryable j then
          db.audit ++ [⟨jobRef, j.jobType, errorCode, j.attemptCount⟩]
        else db.audit
      return ((failed f now j).status, { db with
        jobs := db.jobs.set jobRef (failed f now j)
        shipments := shipments
        connections := connections
        audit := audit })
    else .error notRunning

def replayed (runAfter : Instant) (j : Job) : Job :=
  { j with
    status := .queued
    attemptCount := 0
    runAfter := runAfter
    deadLetteredAt := none
    completedAt := none
    lastErrorCode := none
    lastErrorMessage := none
    lastErrorRetryable := none
    workerRef := none
    leaseExpiresAt := none }

def replayDeadLetter (P : Platform) (jobRef runAfter : JsString) (db : Database) :
    Except JsString (Unit × Database) := do
  let jobRef ← ref P jobRef (js "jobRef") 100
  let runAfter ← date P runAfter (js "runAfter")
  match db.jobs.updateAt jobRef (fun j => j.status = .deadLetter) (replayed runAfter) with
  | some jobs => return ((), { db with jobs := jobs })
  | none => .error (js "Dead-letter job was not found.")

/-! ## The outcome of a label -/

structure UnknownInput where
  shipmentRef : JsString
  carrierRequestId : JsString
  deadlineAt : JsString
deriving DecidableEq

def unconfirmed (s : Shipment) : Bool := s.labelOutcome ≠ .confirmed

def markedUnknown (carrierRequestId : JsString) (deadlineAt now : Instant) (s : Shipment) :
    Shipment :=
  { s with
    labelOutcome := .unknown
    labelRequestId := some carrierRequestId
    labelRequestedAt := some (s.labelRequestedAt.getD now)
    labelReconciliationDeadlineAt := some deadlineAt }

/-- The job's key is the reference as the caller gave it. -/
def markLabelOutcomeUnknown (P : Platform) (fresh : FreshRef) (now : Instant)
    (input : UnknownInput) (db : Database) : Except JsString (JsString × Database) := do
  let shipmentRef ← ref P input.shipmentRef (js "shipmentRef") 100
  let carrierRequestId ← ref P input.carrierRequestId (js "carrierRequestId") 100
  let deadlineAt ← date P input.deadlineAt (js "deadlineAt")
  match db.shipments.updateAt shipmentRef unconfirmed
      (markedUnknown carrierRequestId deadlineAt now) with
  | none => .error (js "Shipment was not found or already has a confirmed label.")
  | some shipments =>
    let jobRef := jobRefOf fresh .labelOutcomeReconciliation shipmentRef
    let connectionRef := (shipments.get? shipmentRef).bind Shipment.connectionRef
    let job := newJob .labelOutcomeReconciliation input.shipmentRef (some shipmentRef) none
      connectionRef 10 10 now
    let jobs := insertJob db.jobs (jobRef, job)
    let db' := { db with shipments := shipments, jobs := jobs }
    if (db.jobs.get? jobRef).isNone && (jobs.get? jobRef).isSome then return (jobRef, db')
    else
      match db.jobs.entries.find? fun e => sameWork job e.2 with
      | some existing => return (existing.1, db')
      | none => .error (js "Label reconciliation job conflict could not be resolved.")

def markLabelReconciling (P : Platform) (shipmentRef : JsString) (db : Database) :
    Except JsString (Unit × Database) := do
  let shipmentRef ← ref P shipmentRef (js "shipmentRef") 100
  let shipments := (db.shipments.updateAt shipmentRef
    (fun s => s.labelOutcome = .unknown || s.labelOutcome = .reconciling)
    ({ · with labelOutcome := .reconciling })).getD db.shipments
  return ((), { db with shipments := shipments })

/-- The second statement of `recordLabelFound`. -/
def recordConfirmed (P : Platform) (label : LabelInput) (db : Database) :
    Except JsString (Unit × Database) := do
  let shipmentRef ← ref P label.shipmentRef (js "shipmentRef") 100
  let shipments := (db.shipments.updateAt shipmentRef (fun _ => true)
    ({ · with
      labelOutcome := .confirmed
      labelReconciliationDeadlineAt := none
      reconciliationErrorCount := 0 })).getD db.shipments
  return ((), { db with shipments := shipments })

def recordLabelNotFound (P : Platform) (shipmentRef : JsString) (db : Database) :
    Except JsString (Unit × Database) := do
  let shipmentRef ← ref P shipmentRef (js "shipmentRef") 100
  let shipments := (db.shipments.updateAt shipmentRef unconfirmed
    ({ · with
      labelOutcome := .notFound
      status := .failed
      labelReconciliationDeadlineAt := none })).getD db.shipments
  return ((), { db with shipments := shipments })

/-! ## Other answers of a carrier -/

inductive CarrierStatus where
  | created
  | inTransit
  | delivered
  | voided
  | failed
deriving DecidableEq

def CarrierStatus.shipmentStatus : CarrierStatus → ShipmentStatus
  | .created => .created
  | .inTransit => .inTransit
  | .delivered => .delivered
  | .voided => .voided
  | .failed => .failed

/-- The last statement of `recordTrackingSync`, after those that append the events. -/
def recordTrackingSync (P : Platform) (shipmentRef : JsString) (status : Option CarrierStatus)
    (nextPollAt nextReconcileAt : Option JsString) (now : Instant) (db : Database) :
    Except JsString (Unit × Database) := do
  let shipmentRef ← ref P shipmentRef (js "shipmentRef") 100
  let nextPollAt ← optionalDate P
    (if status = some .delivered then none else nextPollAt.bind nonEmpty) (js "nextPollAt")
  let nextReconcileAt ← optionalDate P (nextReconcileAt.bind nonEmpty) (js "nextReconcileAt")
  let shipments := (db.shipments.updateAt shipmentRef (fun _ => true) fun s =>
    { s with
      status := (status.map CarrierStatus.shipmentStatus).getD s.status
      nextTrackingPollAt := nextPollAt
      nextCarrierReconcileAt := nextReconcileAt.or s.nextCarrierReconcileAt
      lastCarrierReconciledAt := some now
      reconciliationErrorCount := 0 }).getD db.shipments
  return ((), { db with shipments := shipments })

def recordCarrierReconciliation (P : Platform) (shipmentRef : JsString)
    (status : Option CarrierStatus) (nextReconcileAt : Option JsString) (now : Instant)
    (db : Database) : Except JsString (Unit × Database) := do
  let shipmentRef ← ref P shipmentRef (js "shipmentRef") 100
  let nextReconcileAt ← optionalDate P
    (if status = some .delivered ∨ status = some .voided then none
      else nextReconcileAt.bind nonEmpty) (js "nextReconcileAt")
  let shipments := (db.shipments.updateAt shipmentRef (fun _ => true) fun s =>
    { s with
      status := (status.map CarrierStatus.shipmentStatus).getD s.status
      lastCarrierReconciledAt := some now
      nextCarrierReconcileAt := nextReconcileAt
      reconciliationErrorCount := 0 }).getD db.shipments
  return ((), { db with shipments := shipments })

def recordUpsTokenRefresh (P : Platform) (connectionRef expiresAt : JsString) (now : Instant)
    (db : Database) : Except JsString (Unit × Database) := do
  let connectionRef ← ref P connectionRef (js "connectionRef") 100
  let expiresAt ← date P expiresAt (js "expiresAt")
  match db.connections.updateAt connectionRef (fun c => c.carrier = .ups) fun c =>
      { c with
        tokenExpiresAt := some expiresAt
        nextTokenRefreshAt := some (expiresAt - ofSeconds 300)
        tokenRefreshFailureCount := 0
        lastVerifiedAt := some now
        status := .active } with
  | some connections => return ((), { db with connections := connections })
  | none => .error (js "Active UPS carrier connection was not found.")

end Agid.VeygritShip
