import Agid.ShipStore
import Agid.Lib.Tasks

/-!
# Downloading and voiding one label

`createDownload`, `createReprint` and `voidLabel` of `src/server/shipping/labelManagement.ts` over
one row of `veygrit_ship_label`, with the checks of `db/veygrit-ship-label-management.postgres.sql`.
A statement that writes takes two steps.  At the first it reads the rows of its snapshot; at the
second it has the lock of the row and writes its last version, where only the id is compared again.
A random id is named by its place in the order they are drawn.
-/

namespace Agid.LabelManagement

open VeygritShip (Platform Instant LabelStatus LabelFormat Link safeRef isSafeUnit)

inductive AccessAction
  | downloadUrlIssued
  | print
  | reprint
deriving DecidableEq

inductive EventAction
  | access (action : AccessAction)
  | voidRequested
  | voidSucceeded
  | voidFailed
deriving DecidableEq

inductive EventRef
  | access (uuid : ℕ)
  | voidRequest (root : ℕ)
  | voidResult (root : ℕ)
deriving DecidableEq

structure AccessEvent where
  eventRef : EventRef
  actorRef : JsString
  action : EventAction
  signedUrlTtlSeconds : Option ℕ
  failureCode : Option JsString
deriving DecidableEq

/-- What the columns of a label may hold without the checks. -/
structure Row where
  labelRef : JsString
  merchantRef : JsString
  format : LabelFormat
  status : LabelStatus
  downloadCount : ℕ
  printCount : ℕ
  reprintCount : ℕ
  lastDownloadedAt : Option Instant
  lastPrintedAt : Option Instant
  voidRequestedAt : Option Instant
  voidedAt : Option Instant
  voidFailureCode : Option JsString
deriving DecidableEq

/-- `veygrit_ship_label_counts_chk` and `veygrit_ship_label_void_lifecycle_chk`. -/
structure Row.Checked (row : Row) : Prop where
  counts : row.reprintCount ≤ row.printCount
  voided : row.status = .voided ↔ row.voidedAt.isSome
  requested : row.status = .voidPending ∨ row.status = .voided ∨ row.status = .voidFailed →
    row.voidRequestedAt.isSome
  failed : row.status = .voidFailed ↔ row.voidFailureCode.isSome

instance (row : Row) : Decidable row.Checked :=
  decidable_of_iff (row.reprintCount ≤ row.printCount
      ∧ (row.status = .voided ↔ row.voidedAt.isSome)
      ∧ (row.status = .voidPending ∨ row.status = .voided ∨ row.status = .voidFailed →
        row.voidRequestedAt.isSome)
      ∧ (row.status = .voidFailed ↔ row.voidFailureCode.isSome))
    ⟨fun h => ⟨h.1, h.2.1, h.2.2.1, h.2.2.2⟩, fun h => ⟨h.counts, h.voided, h.requested, h.failed⟩⟩

structure Label extends Row where
  checked : toRow.Checked

/-- What a carrier answers to a void, or that the call of it throws. -/
inductive Answer
  | ok
  | error (errorCode : JsString)
  | throws
deriving DecidableEq

structure Actor where
  merchantRef : JsString
  actorRef : JsString

structure DownloadInput where
  actor : Actor
  labelRef : JsString
  purpose : AccessAction
  expiresInSeconds : Option JsNumber

inductive Request
  | createDownload (input : DownloadInput)
  | voidLabel (actor : Actor) (labelRef : JsString)

/-- `createReprint`. -/
def Request.createReprint (actor : Actor) (labelRef : JsString)
    (expiresInSeconds : Option JsNumber) : Request :=
  .createDownload ⟨actor, labelRef, .reprint, expiresInSeconds⟩

structure SignedDownload where
  labelRef : JsString
  format : LabelFormat
  purpose : AccessAction
  downloadUrl : JsString
  expiresAt : ℕ

inductive Outcome
  | voided
  | voidFailed
deriving DecidableEq

/-! ## Answers and times -/

/-- `/[^A-Za-z0-9_-]/g` to `_`. -/
def safeUnitOr (c : CodeUnit) : CodeUnit := if isSafeUnit c then c else 95

def errorCode (P : Platform) (value : JsString) : JsString :=
  (nonEmpty (((trim (P.nfkc.normalize value)).map safeUnitOr).take 100)).getD
    (js "carrier_void_failed")

def Answer.outcome : Answer → Outcome
  | .ok => .voided
  | .error _ | .throws => .voidFailed

/-- What `finishVoid` writes as the failure of an answer. -/
def Answer.failure (P : Platform) : Answer → Option JsString
  | .ok => none
  | .error code => some (errorCode P (errorCode P code))
  | .throws => some (errorCode P (errorCode P (js "carrier_void_unavailable")))

def Outcome.status : Outcome → LabelStatus
  | .voided => .voided
  | .voidFailed => .voidFailed

def Outcome.action : Outcome → EventAction
  | .voided => .voidSucceeded
  | .voidFailed => .voidFailed

def signedUrlMaximumSeconds : ℤ := 300

def defaultSignedUrlSeconds : JsNumber := .finite 60

/-- `Math.trunc`. -/
def trunc (q : ℚ) : ℤ := q.num.tdiv q.den

/-- `Math.max(1, Math.min(signedUrlMaximumSeconds, Math.trunc(n)))`, none where it is not a
number. -/
def signedUrlTtl : JsNumber → Option ℕ
  | .finite q => some (max 1 (min signedUrlMaximumSeconds (trunc q))).toNat
  | .infinity => some signedUrlMaximumSeconds.toNat
  | .negInfinity => some 1
  | .nan => none

/-! ## The row -/

/-- What a step reads from outside: how its statement comes back, whether the merchant is active,
the clocks, the answer of the carrier and the signed URL, none where signing throws. -/
structure Env where
  link : Link
  merchantActive : Bool
  now : Instant
  nowMs : ℕ
  signedUrlSeconds : Option JsNumber
  answer : Answer
  url : Option JsString

/-- The label with its events, how many random ids were drawn, and what the carrier has answered to
the voids by their idempotency references. -/
structure Store where
  label : Label
  events : List AccessEvent
  uuids : ℕ
  answers : Record ℕ Answer

def Store.init (label : Label) : Store := ⟨label, [], 0, .empty⟩

section Platform

variable (P : Platform)

/-- A reference as `safeRef` returns it. -/
def normalRef (value : JsString) : JsString := trim (P.nfkc.normalize value)

/-- The row that a statement joins, for this label and merchant. -/
def target (env : Env) (store : Store) (labelRef merchantRef : JsString) :
    Except JsString (Option Label) := do
  let labelRef ← safeRef P labelRef (js "labelRef") 100
  let merchantRef ← safeRef P merchantRef (js "merchantRef") 100
  return if store.label.labelRef = labelRef ∧ store.label.merchantRef = merchantRef
      ∧ env.merchantActive then some store.label else none

/-- The rows of a snapshot: an error where a reference is no good, where the statement is refused,
or where no row passes the guard. -/
def snapshot (env : Env) (store : Store) (labelRef : JsString) (actor : Actor)
    (guard : LabelStatus → Bool) (missing : JsString) : Except JsString Unit := do
  let found ← target P env store labelRef actor.merchantRef
  let _ ← safeRef P actor.actorRef (js "actorRef") 200
  match env.link with
  | .refused message => .error message
  | .up | .lost _ => if found.any (guard ·.status) then return () else .error missing

def checkError : JsString :=
  js "new row for relation \"veygrit_ship_label\" violates a check constraint"

/-- The update of the row and its event, and what the caller sees. -/
def update (env : Env) (store : Store) (row : Row) (event : AccessEvent) :
    Store × Except JsString Unit :=
  match env.link with
  | .refused message => (store, .error message)
  | link =>
    if h : row.Checked then
      ({ store with label := ⟨row, h⟩, events := store.events ++ [event] },
        match link with
        | .lost message => .error message
        | _ => .ok ())
    else (store, .error checkError)

def voidable (status : LabelStatus) : Bool := status = .active || status = .voidFailed

/-- The row of `recordAccess`. -/
def Row.accessed (row : Row) (action : AccessAction) (now : Instant) : Row :=
  let prints := action = .print || action = .reprint
  { row with
    downloadCount := row.downloadCount + 1
    lastDownloadedAt := some now
    printCount := row.printCount + (if prints then 1 else 0)
    reprintCount := row.reprintCount + (if action = .reprint then 1 else 0)
    lastPrintedAt := if prints then some now else row.lastPrintedAt }

/-- The row of `requestVoid`. -/
def Row.requested (row : Row) (now : Instant) : Row :=
  { row with status := .voidPending, voidRequestedAt := some now, voidFailureCode := none }

/-- The row of `finishVoid`. -/
def Row.finished (row : Row) (outcome : Outcome) (failure : Option JsString) (now : Instant) :
    Row :=
  { row with
    status := outcome.status
    voidedAt := if outcome = .voided then some now else none
    voidFailureCode := failure }

/-! ## Calls -/

/-- A call between two `await`s, or a statement of it between its snapshot and its lock. -/
inductive Phase
  | called
  | signing (labelRef : JsString) (format : LabelFormat) (ttl : Option ℕ) (nowMs : ℕ)
  | signed (labelRef : JsString) (format : LabelFormat) (ttl : Option ℕ) (nowMs : ℕ)
      (url : JsString)
  | recording (uuid : ℕ) (labelRef : JsString) (format : LabelFormat) (ttl nowMs : ℕ)
      (url : JsString)
  | requesting (root : ℕ) (labelRef : JsString)
  | atCarrier (root : ℕ) (labelRef : JsString)
  | answered (root : ℕ) (labelRef : JsString) (answer : Answer)
  | finishing (root : ℕ) (labelRef : JsString) (answer : Answer)
  | downloaded (result : SignedDownload)
  | voided (outcome : Outcome)
  | failed (error : JsString)

structure Call where
  request : Request
  phase : Phase

def Call.to (call : Call) (phase : Phase) : Call := { call with phase := phase }

def start (request : Request) : Call := ⟨request, .called⟩

def Request.actor : Request → Actor
  | .createDownload input => input.actor
  | .voidLabel actor _ => actor

/-- `getDownloadDescriptor` and what `createDownload` does with it before it asks for a URL. -/
def describe (env : Env) (store : Store) (input : DownloadInput) : Except JsString Phase := do
  let labelRef ← safeRef P input.labelRef (js "labelRef") 100
  let merchantRef ← safeRef P input.actor.merchantRef (js "merchantRef") 100
  let found ← target P env store labelRef merchantRef
  match env.link, found with
  | .refused message, _ | .lost message, _ => .error message
  | .up, none => .error (js "Label was not found.")
  | .up, some label =>
    if label.status ≠ .active then
      .error (js "Only active labels can be downloaded or printed.")
    else
      let seconds := (input.expiresInSeconds.or env.signedUrlSeconds).getD defaultSignedUrlSeconds
      return .signing labelRef label.format (signedUrlTtl seconds) env.nowMs

/-- `voidLabel` up to the snapshot of `requestVoid`. -/
def beginVoid (env : Env) (store : Store) (actor : Actor) (labelRef : JsString) :
    Except JsString Phase := do
  let labelRef ← safeRef P labelRef (js "labelRef") 100
  snapshot P env store labelRef actor voidable (js "Voidable label was not found.")
  return .requesting store.uuids labelRef

/-- A call whose statement has thrown, or has not. -/
def Call.after (call : Call) (phase : Except JsString Phase) : Call :=
  match phase with
  | .ok phase => call.to phase
  | .error e => call.to (.failed e)

def Store.draw (store : Store) : Store := { store with uuids := store.uuids + 1 }

def begin (env : Env) (store : Store) (call : Call) : Store × Call :=
  match call.request with
  | .createDownload input => (store, call.after (describe P env store input))
  | .voidLabel actor labelRef => (store.draw, call.after (beginVoid P env store actor labelRef))

/-- The signed URL. -/
def sign (env : Env) (call : Call) (labelRef : JsString) (format : LabelFormat) (ttl : Option ℕ)
    (nowMs : ℕ) : Call :=
  match env.url with
  | none => call.to (.failed (js "the signing failed"))
  | some url =>
    if (js "https://").isPrefixOf url then call.to (.signed labelRef format ttl nowMs url)
    else call.to (.failed (js "Object Storage returned an invalid signed URL."))

/-- The snapshot of `recordAccess`.  A time to live that is not a number is refused. -/
def beginAccess (env : Env) (store : Store) (call : Call) (labelRef : JsString)
    (format : LabelFormat) (ttl : Option ℕ) (nowMs : ℕ) (url : JsString) : Store × Call :=
  (store.draw, call.after do
    match ttl with
    | none => .error (js "invalid input syntax for type smallint")
    | some ttl =>
      snapshot P env store labelRef call.request.actor (fun s => s = .active)
        (js "Active label was not found.")
      return .recording store.uuids labelRef format ttl nowMs url)

def purposeOf : Request → AccessAction
  | .createDownload input => input.purpose
  | .voidLabel _ _ => .downloadUrlIssued

/-- The update of `recordAccess`. -/
def recordAccess (env : Env) (store : Store) (call : Call) (uuid : ℕ) (labelRef : JsString)
    (format : LabelFormat) (ttl nowMs : ℕ) (url : JsString) : Store × Call :=
  let purpose := purposeOf call.request
  let (store, result) := update env store (store.label.toRow.accessed purpose env.now)
    ⟨.access uuid, normalRef P call.request.actor.actorRef, .access purpose, some ttl, none⟩
  (store, call.after (result.map fun _ =>
    .downloaded ⟨labelRef, format, purpose, url, nowMs + ttl * 1000⟩))

/-- The update of `requestVoid`. -/
def requestVoid (env : Env) (store : Store) (call : Call) (root : ℕ) (labelRef : JsString) :
    Store × Call :=
  let (store, result) := update env store (store.label.toRow.requested env.now)
    ⟨.voidRequest root, normalRef P call.request.actor.actorRef, .voidRequested, none, none⟩
  (store, call.after (result.map fun _ => .atCarrier root labelRef))

/-- The answer of the carrier. -/
def hear (env : Env) (store : Store) (call : Call) (root : ℕ) (labelRef : JsString) :
    Store × Call :=
  ({ store with answers := store.answers.set root env.answer },
    call.to (.answered root labelRef env.answer))

/-- The snapshot of `finishVoid`. -/
def beginFinish (env : Env) (store : Store) (call : Call) (root : ℕ) (labelRef : JsString)
    (answer : Answer) : Call :=
  call.after do
    snapshot P env store labelRef call.request.actor (fun s => s = .voidPending)
      (js "Pending Void label was not found.")
    return .finishing root labelRef answer

/-- The update of `finishVoid`. -/
def finishVoid (env : Env) (store : Store) (call : Call) (root : ℕ) (answer : Answer) :
    Store × Call :=
  let failure := answer.failure P
  let (store, result) := update env store
    (store.label.toRow.finished answer.outcome failure env.now)
    ⟨.voidResult root, normalRef P call.request.actor.actorRef, answer.outcome.action, none,
      failure⟩
  (store, call.after (result.map fun _ => .voided answer.outcome))

def advance (env : Env) (store : Store) (call : Call) : Option (Store × Call) :=
  match call.phase with
  | .called => some (begin P env store call)
  | .signing labelRef format ttl nowMs => some (store, sign env call labelRef format ttl nowMs)
  | .signed labelRef format ttl nowMs url =>
    some (beginAccess P env store call labelRef format ttl nowMs url)
  | .recording uuid labelRef format ttl nowMs url =>
    some (recordAccess P env store call uuid labelRef format ttl nowMs url)
  | .requesting root labelRef => some (requestVoid P env store call root labelRef)
  | .atCarrier root labelRef => some (hear env store call root labelRef)
  | .answered root labelRef answer =>
    some (store, beginFinish P env store call root labelRef answer)
  | .finishing root _ answer => some (finishVoid P env store call root answer)
  | .downloaded _ | .voided _ | .failed _ => none

def system : Tasks.System Store Call Request Env := ⟨start, advance P⟩

/-! ## What is asked of it -/

def Call.isAtCarrier (call : Call) : Bool :=
  match call.phase with
  | .atCarrier _ _ => true
  | _ => false

/-- At most one void is at the carrier. -/
def SingleFlight (w : Tasks.World Store Call) : Prop :=
  w.tasks.Pairwise fun call other => ¬ (call.isAtCarrier ∧ other.isAtCarrier)

def AccessEvent.isResult (event : AccessEvent) : Bool :=
  event.action = .voidSucceeded || event.action = .voidFailed

/-- The void that has put the label in `void_pending`. -/
def lastRequest (events : List AccessEvent) : Option EventRef :=
  ((events.filter (·.action = .voidRequested)).getLast?).map (·.eventRef)

/-- Each result is the answer of the carrier to the last request before it. -/
def Recorded (store : Store) : Prop :=
  ∀ before event after, store.events = before ++ event :: after → event.isResult →
    ∃ root answer, event.eventRef = .voidResult root
      ∧ lastRequest before = some (.voidRequest root) ∧ store.answers.get? root = some answer
      ∧ event.action = answer.outcome.action ∧ event.failureCode = answer.failure P

/-- A label that is voided stays voided. -/
def Final (c : Tasks.Condition Store Call Request) (w : Tasks.World Store Call) : Prop :=
  ∀ w', Relation.ReflTransGen (Tasks.Step (system P) c) w w' →
    w.store.label.status = .voided → w'.store.label.status = .voided

/-- What is asked of each world of a run. -/
structure VoidsOnce (c : Tasks.Condition Store Call Request) (w : Tasks.World Store Call) :
    Prop where
  single : SingleFlight w
  final : Final P c w
  recorded : Recorded P w.store

end Platform

/-- No request to void is recorded for a label that is `void_pending` when the update has its
lock. -/
def Guarded (store store' : Store) : Prop :=
  ∀ event, store'.events = store.events ++ [event] → event.action = .voidRequested →
    store.label.status ≠ .voidPending

def guarded : Tasks.Condition Store Call Request where
  accepts _ := True
  keeps := Guarded
  meet _ _ := True

end Agid.LabelManagement
