import Agid.ShipWorkers

/-!
# What a run of the shipping workers does

The claims, endings, replays and requests that the steps of a run are, and what is asked of them: that a
worker whose lease was taken over leaves the job alone, that a job is handed out no more often than
it may be tried, and that a label counts as absent only when the carrier was asked about the last
request for it.
-/

namespace Agid.VeygritShip

abbrev Past := History.Past World Event

/-- The statement is done, whether or not its caller hears of it. -/
def Link.executes : Link → Bool
  | .refused _ => false
  | _ => true

section Steps

variable (P : Platform)

/-- The jobs that a step hands to a worker. -/
def claimedRefs (w : World) : Event → List JsString
  | .claim link workerRef limit _ now =>
    if link.executes && (ref P workerRef (js "workerRef") 100).toBool then
      candidates now limit w.db.jobs
    else []
  | _ => []

/-- The job whose `completeJob` or `failJob` statement a step is. -/
def settledRef (w : World) : Event → Option JsString
  | .work i env =>
    match w.hands[i]? with
    | none => none
    | some hand =>
      match hand.phase with
      | .processed => if env.link.executes then some hand.job.jobRef else none
      | .failing error =>
        if env.link.executes && (ref P error.code (js "errorCode") 100).toBool
            && (ref P error.message (js "errorMessage") 500).toBool then
          some hand.job.jobRef
        else none
      | _ => none
  | _ => none

/-- The job that a step brings back from the dead letters. -/
def replayedRef (w : World) : Event → Option JsString
  | .call link (.replayDeadLetter jobRef runAfter) =>
    match ref P jobRef (js "jobRef") 100, date P runAfter (js "runAfter") with
    | .ok k, .ok _ =>
      if link.executes && (w.db.jobs.get? k).any (·.status = .deadLetter) then some k else none
    | _, _ => none
  | _ => none

/-! ## Leases -/

/-- The job was claimed, and no `completeJob` or `failJob` of it was done since. -/
def inHand (k : JsString) : Past → Bool
  | [] => false
  | (w, e) :: past =>
    if k ∈ claimedRefs P w e then true
    else if settledRef P w e = some k then false
    else inHand k past

/-- The lease of the claimed job is over, and another worker has claimed the job since. -/
def Stale (w : World) (i : ℕ) (hand : Hand) (now : Instant) : Prop :=
  hand.leaseExpiresAt ≤ now ∧ ∃ other ∈ w.hands.drop (i + 1),
    other.job.jobRef = hand.job.jobRef ∧ other.workerRef ≠ hand.workerRef

instance (w : World) (i : ℕ) (hand : Hand) (now : Instant) : Decidable (Stale w i hand now) :=
  inferInstanceAs (Decidable (_ ∧ _))

/-- The row of a job and its dead letters in the audit trail. -/
def jobRecord (db : Database) (k : JsString) : Option Job × List DeadLetterEvent :=
  (db.jobs.get? k, db.audit.filter (·.jobRef = k))

/-- A worker whose lease was taken over leaves the job as it is. -/
def Fenced (_past : Past) (w : World) : Event → Prop
  | .work i env => ∀ hand ∈ w.hands[i]?, Stale w i hand env.now →
    ∀ w' ∈ next P w (.work i env), jobRecord w'.db hand.job.jobRef = jobRecord w.db hand.job.jobRef
  | _ => True

instance (past : Past) (w : World) : ∀ e, Decidable (Fenced P past w e)
  | .work _ _ => inferInstanceAs (Decidable (∀ _ ∈ _, _))
  | .claim .. => .isTrue trivial
  | .call .. => .isTrue trivial

/-- When a worker whose lease was taken over comes to end the job, the job has been ended since it
was last claimed. -/
def EndedBefore (past : Past) (w : World) : Event → Prop
  | .work i env => ∀ hand ∈ w.hands[i]?, Stale w i hand env.now →
    settledRef P w (.work i env) = some hand.job.jobRef → inHand P hand.job.jobRef past = false
  | _ => True

/-! ## Attempts -/

/-- How often the job was handed out since it was last brought back from the dead letters. -/
def handedOut (k : JsString) : Past → ℕ
  | [] => 0
  | (w, e) :: past =>
    if k ∈ claimedRefs P w e then handedOut k past + 1
    else if replayedRef P w e = some k then 0
    else handedOut k past

/-- A job that is handed out has been so less than `maxAttempts` times before. -/
def AtMostMax (past : Past) (w : World) (e : Event) : Prop :=
  ∀ k ∈ claimedRefs P w e, ∀ j ∈ w.db.jobs.get? k, handedOut P k past < j.maxAttempts

instance (past : Past) (w : World) (e : Event) : Decidable (AtMostMax P past w e) :=
  inferInstanceAs (Decidable (∀ _ ∈ _, _))

/-- A job that has been handed out `maxAttempts` times runs or has ended, by success or as a dead
letter. -/
def UsedUpEnds (past : Past) (w : World) (e : Event) : Prop :=
  ∀ w' k j, next P w e = some w' → w'.db.jobs.get? k = some j →
    j.maxAttempts ≤ handedOut P k ((w, e) :: past) →
      j.status = .running ∨ j.status = .succeeded ∨ j.status = .deadLetter

def Bounded (past : Past) (w : World) (e : Event) : Prop :=
  AtMostMax P past w e ∧ UsedUpEnds P past w e

/-- No claim comes upon a job whose worker let the lease of its last attempt run out. -/
def AttemptsLeft (_past : Past) (w : World) (e : Event) : Prop :=
  ∀ k ∈ claimedRefs P w e, ∀ j ∈ w.db.jobs.get? k, j.status = .running →
    j.attemptCount < j.maxAttempts

/-! ## Outcomes of labels -/

/-- The shipment whose label outcome a step marks as unknown, and the request it names. -/
def markedRequest (w : World) : Event → Option (JsString × JsString)
  | .call link (.markLabelOutcomeUnknown fresh now input) =>
    match ref P input.shipmentRef (js "shipmentRef") 100,
        ref P input.carrierRequestId (js "carrierRequestId") 100 with
    | .ok r, .ok id =>
      if link.executes && (markLabelOutcomeUnknown P fresh now input w.db).toBool then some (r, id)
      else none
    | _, _ => none
  | _ => none

/-- The last request named for a shipment. -/
def lastRequest (r : JsString) : Past → Option JsString
  | [] => none
  | (w, e) :: past =>
    match (markedRequest P w e).filter (·.1 = r) with
    | some marked => some marked.2
    | none => lastRequest r past

/-- The last request named for a shipment before the `i`-th job was claimed. -/
def requestWhenClaimed (i : ℕ) (r : JsString) : Past → Option JsString
  | [] => none
  | (w, _) :: past =>
    if w.hands.length ≤ i then lastRequest P r past else requestWhenClaimed i r past

/-- The step is a carrier's answer that there is no label, and it was asked about the shipment's
request. -/
def Answered (w : World) (r : JsString) (s : Shipment) : Event → Prop
  | .work i _ => ∃ hand ∈ w.hands[i]?, hand.phase = .absent ∧ hand.job.shipmentRef = some r
    ∧ hand.job.labelRequestId = s.labelRequestId
  | _ => False

instance (w : World) (r : JsString) (s : Shipment) : ∀ e, Decidable (Answered w r s e)
  | .work _ _ => inferInstanceAs (Decidable (∃ _ ∈ _, _))
  | .claim .. => .isFalse id
  | .call .. => .isFalse id

def HasActiveLabel (db : Database) (r : JsString) : Prop :=
  ∃ l ∈ db.labels.values, l.shipmentRef = r ∧ l.status = .active

instance (db : Database) (r : JsString) : Decidable (HasActiveLabel db r) :=
  inferInstanceAs (Decidable (∃ _ ∈ _, _))

/-- What a step may make of a shipment's outcome: `not_found` on an answer about the shipment's
request, `confirmed` together with an active label, and then nothing else. -/
def OutcomeSafe (w : World) (e : Event) (r : JsString) (s : Shipment) (db' : Database)
    (s' : Shipment) : Prop :=
  (s.labelOutcome ≠ .notFound → s'.labelOutcome = .notFound → Answered w r s e)
    ∧ (s.labelOutcome = .confirmed → s'.labelOutcome = .confirmed)
    ∧ (s.labelOutcome ≠ .confirmed → s'.labelOutcome = .confirmed → HasActiveLabel db' r)

def LabelSafe (_past : Past) (w : World) (e : Event) : Prop :=
  ∀ w' ∈ next P w e, ∀ r ∈ w.db.shipments.keys, ∀ s ∈ w.db.shipments.get? r,
    ∀ s' ∈ w'.db.shipments.get? r, OutcomeSafe w e r s w'.db s'

instance (past : Past) (w : World) (e : Event) : Decidable (LabelSafe P past w e) :=
  inferInstanceAs (Decidable (∀ _ ∈ _, ∀ _ ∈ _, ∀ _ ∈ _, ∀ _ ∈ _, _ ∧ _ ∧ _))

/-- A worker that comes to record that there is no label, for a shipment whose outcome is open,
claimed its job after the last request for the shipment, or after one with the same id. -/
def AnswersLast (past : Past) (w : World) : Event → Prop
  | .work i env => ∀ hand ∈ w.hands[i]?, hand.phase = .absent → env.link.executes = true →
    ∀ r ∈ hand.job.shipmentRef, ∀ s ∈ w.db.shipments.get? r,
      s.labelOutcome ≠ .confirmed → s.labelOutcome ≠ .notFound →
        requestWhenClaimed P i r past = lastRequest P r past
  | _ => True

/-- The label that a step saves by `saveLabel`, and when. -/
def savedLabel (w : World) : Event → Option (Instant × LabelInput)
  | .call link (.saveLabel now input) => if link.executes then some (now, input) else none
  | .work i env =>
    match w.hands[i]?.map Hand.phase with
    | some (.saving label) => if env.link.executes then some (env.now, label) else none
    | _ => none
  | _ => none

/-- A label that is saved once more, for a shipment that is not confirmed, is not the only one of
the shipment to be void. -/
def SavedIsActive (w : World) (e : Event) : Prop :=
  ∀ saved ∈ savedLabel w e, insertLabel P saved.1 saved.2 w.db = .ok w.db.labels →
    ∀ s ∈ w.db.shipments.get? saved.2.shipmentRef, s.labelOutcome ≠ .confirmed →
      HasActiveLabel w.db saved.2.shipmentRef

def RightRequest (past : Past) (w : World) (e : Event) : Prop :=
  AnswersLast P past w e ∧ SavedIsActive P w e

/-! ## Terminal states -/

def ShipmentStatus.terminal (status : ShipmentStatus) : Bool :=
  status = .delivered || status = .voided

def ShipmentStatus.reopened (status : ShipmentStatus) : Bool :=
  status = .rated || status = .created || status = .inTransit || status = .failed

def statusOf (w : World) (r : JsString) : Option ShipmentStatus :=
  (w.db.shipments.get? r).map Shipment.status

/-- No shipment that was delivered or voided is rated, created, in transit or failed later. -/
def StaysTerminal : Past → World → Prop
  | [], _ => True
  | (v, e) :: past, w =>
    (∀ r, (∃ step ∈ (v, e) :: past, (statusOf step.1 r).any ShipmentStatus.terminal) →
      ¬ (statusOf w r).any ShipmentStatus.reopened) ∧ StaysTerminal past v

/-- The shipment whose status the statement of a claimed job writes, and the status. -/
def handWrites (now : Instant) (db : Database) (hand : Hand) : Option (JsString × ShipmentStatus) :=
  let shipmentRef := hand.job.shipmentRef.getD []
  match hand.phase, ref P shipmentRef (js "shipmentRef") 100 with
  | .saving label, _ =>
    if (insertLabel P now label db).toBool then some (label.shipmentRef, .created) else none
  | .absent, .ok r =>
    if (db.shipments.get? r).any unconfirmed then some (r, .failed) else none
  | .syncing result, .ok r =>
    if (optionalDate P (if result.status = some .delivered then none
          else result.nextPollAt.bind nonEmpty) (js "nextPollAt")).toBool
        && (optionalDate P (result.nextReconcileAt.bind nonEmpty) (js "nextReconcileAt")).toBool then
      result.status.map fun status => (r, status.shipmentStatus)
    else none
  | .reconciling result, .ok r =>
    if (optionalDate P (if result.status = some .delivered ∨ result.status = some .voided then none
        else result.nextReconcileAt.bind nonEmpty) (js "nextReconcileAt")).toBool then
      result.status.map fun status => (r, status.shipmentStatus)
    else none
  | _, _ => none

/-- The shipment whose status a step writes, and the status. -/
def statusWritten (w : World) : Event → Option (JsString × ShipmentStatus)
  | .call link (.selectRateQuote shipmentRef) =>
    match ref P shipmentRef (js "shipmentRef") 100 with
    | .ok r => if link.executes then some (r, .rated) else none
    | .error _ => none
  | .call link (.saveLabel now input) =>
    if link.executes && (insertLabel P now input w.db).toBool then
      some (input.shipmentRef, .created)
    else none
  | .call link (.saveManagedLabel now input) =>
    match safeRef P input.shipmentRef (js "shipmentRef") 100 with
    | .ok r =>
      if link.executes && (PostgresLabelMetadataStore.saveLabel P now input w.db).toBool then
        some (r, .created)
      else none
    | .error _ => none
  | .work i env =>
    match w.hands[i]? with
    | some hand => if env.link.executes then handWrites P env.now w.db hand else none
    | none => none
  | _ => none

/-- No rate is selected and no label stored for a shipment that is delivered or voided, and no worker
records for it that its label is absent, or that its carrier has it as created, in transit or
failed. -/
def LeavesTerminal (_past : Past) (w : World) (e : Event) : Prop :=
  ∀ wrote ∈ statusWritten P w e, (statusOf w wrote.1).any ShipmentStatus.terminal = true →
    wrote.2.reopened = false

instance (past : Past) (w : World) (e : Event) : Decidable (LeavesTerminal P past w e) :=
  inferInstanceAs (Decidable (∀ _ ∈ _, _))

end Steps

end Agid.VeygritShip
