import Agid.SecurePos
import Agid.Lib.SortedSet
import Agid.Lib.Record
import Agid.Lib.Tasks

/-!
# The POS registry of a server

`PosAgidSecureRegistryStore` of `src/server/posAgidSecureRegistryStore.ts`: the state it keeps in
memory and in its file, and the calls that change it.  A call runs from one `await` to the next,
and a file operation takes effect between the two.  Objects are kept in a list, a reference is a
place in it; the texts written to the file are numbered in the order they were made.  The fields
that are the same in every object are left out.
-/

namespace Agid.PosRegistry

open AgidSecurePos
open AddressOfflineCrdt (isLineBreak space)

def POS_AGID_SECURE_REGISTRY_ID : JsString := js "AGID-S-POS-SERVER-REGISTRY"

inductive Action where
  | markUsed
  | revokeToken
  | revokeKey
  | deferredSync
deriving DecidableEq

inductive Outcome where
  | accepted
  | rejected
  | conflict
deriving DecidableEq

structure AuditEvent where
  eventId : JsString
  action : Action
  createdAt : JsString
  keyId : Option JsString
  jtiTail : Option JsString
  terminalId : Option JsString
  operatorId : Option JsString
  reason : Option JsString
  requestId : Option JsString
  outcome : Outcome
  errors : List JsString
deriving DecidableEq

/-- An audit event as a file may hold one: a field of another kind reads as none. -/
structure RawAuditEvent where
  eventId : Option JsString
  action : Option Action
  createdAt : Option JsString
  keyId : Option JsString
  jtiTail : Option JsString
  terminalId : Option JsString
  operatorId : Option JsString
  reason : Option JsString
  requestId : Option JsString
  outcome : Option Outcome
  errors : Option (List (Option JsString))

structure StoredState where
  registryId : JsString
  sequence : ℕ
  updatedAt : JsString
  usedJtis : List JsString
  revokedJtis : List JsString
  revokedKeyIds : List JsString
  audit : List AuditEvent
deriving DecidableEq

structure RawState where
  registryId : Option JsString
  sequence : Option ℕ
  updatedAt : Option JsString
  usedJtis : Option (List (Option JsString))
  revokedJtis : Option (List (Option JsString))
  revokedKeyIds : Option (List (Option JsString))
  audit : Option (List (Option RawAuditEvent))

/-- What a file holds, as `JSON.parse` reads it. -/
inductive FileText where
  | invalid
  | notObject
  | object (state : RawState)

structure MutationInput where
  keyId : Option JsString
  jti : Option JsString
  terminalId : Option JsString
  operatorId : Option JsString
  reason : Option JsString
  requestId : Option JsString
  now : Option JsNumber

/-- The actions of a call that changes the state by itself. -/
inductive MutationAction where
  | markUsed
  | revokeToken
  | revokeKey
deriving DecidableEq

def MutationAction.action : MutationAction → Action
  | .markUsed => .markUsed
  | .revokeToken => .revokeToken
  | .revokeKey => .revokeKey

structure Mutation where
  action : MutationAction
  input : MutationInput

/-- An item without an action is one whose action is not known. -/
structure DeferredSyncItem where
  action : Option MutationAction
  keyId : Option JsString
  jti : Option JsString
  terminalId : Option JsString
  operatorId : Option JsString
  reason : Option JsString
  createdAt : Option JsString

structure DeferredSyncInput where
  items : List DeferredSyncItem
  terminalId : Option JsString
  operatorId : Option JsString
  requestId : Option JsString
  now : Option JsNumber

structure PublicStatus where
  registryId : JsString
  version : JsString
  checkedAt : JsString
  freshUntil : JsString
  usedCount : ℕ
  revokedTokenCount : ℕ
  revokedKeyCount : ℕ
  auditCount : ℕ

structure MutationResult where
  ok : Bool
  decision : Option RegistryDecision
  event : AuditEvent
  registry : PublicStatus

structure DeferredSyncResult where
  accepted : ℕ
  rejected : ℕ
  conflicts : ℕ
  events : List AuditEvent
  registry : PublicStatus

/-- What the store takes from the platform: `hashState` is the start of the digest of a sequence
number and the three lists. -/
structure Platform where
  dates : Dates
  toUpperCase : JsString → JsString
  hashState : ℕ → List JsString → List JsString → List JsString → JsString

/-- What a step reads from outside: the clock, fresh ids, and whether its file operation fails. -/
structure Env where
  now : ℕ
  uuid : ℕ → JsString
  fails : Bool

/-! ## Cleaning -/

def MAX_AUDIT_EVENTS : ℕ := 500

def cleanText (value : Option JsString) : JsString := trim (value.getD [])

def cleanKeyId (value : Option JsString) : JsString :=
  let cleaned := cleanText value
  if matchesKeyId cleaned then cleaned else []

def cleanAuditText (value : Option JsString) (maxLength : ℕ) : JsString :=
  (replaceRuns isLineBreak space false (cleanText value)).take maxLength

def jtiTail (jti : JsString) : Option JsString := nonEmpty (jti.drop (jti.length - 8))

def lastEvents (audit : List AuditEvent) : List AuditEvent :=
  audit.drop (audit.length - MAX_AUDIT_EVENTS)

def readStoredArray (value : Option (List (Option JsString))) : List JsString :=
  SortedSet.ofList (((value.getD []).map cleanText).filter (· ≠ []))

def storedUsedJtis (state : RawState) : List JsString :=
  (readStoredArray state.usedJtis).filter matchesJti

def storedRevokedJtis (state : RawState) : List JsString :=
  (readStoredArray state.revokedJtis).filter matchesJti

def storedRevokedKeyIds (state : RawState) : List JsString :=
  (readStoredArray state.revokedKeyIds).filter matchesKeyId

/-- `JSON.parse(JSON.stringify(event))`. -/
def AuditEvent.raw (event : AuditEvent) : RawAuditEvent where
  eventId := some event.eventId
  action := some event.action
  createdAt := some event.createdAt
  keyId := event.keyId
  jtiTail := event.jtiTail
  terminalId := event.terminalId
  operatorId := event.operatorId
  reason := event.reason
  requestId := event.requestId
  outcome := some event.outcome
  errors := some (event.errors.map some)

/-- `JSON.parse(JSON.stringify(state))`. -/
def StoredState.raw (state : StoredState) : RawState where
  registryId := some state.registryId
  sequence := some state.sequence
  updatedAt := some state.updatedAt
  usedJtis := some (state.usedJtis.map some)
  revokedJtis := some (state.revokedJtis.map some)
  revokedKeyIds := some (state.revokedKeyIds.map some)
  audit := some (state.audit.map fun event => some event.raw)

section Platform

variable (platform : Platform)

def cleanJti (value : Option JsString) : JsString :=
  let cleaned := platform.toUpperCase (cleanText value)
  if matchesJti cleaned then cleaned else []

def readAuditEvent (env : Env) (uuid : JsString) (value : Option RawAuditEvent) :
    Option AuditEvent := do
  let event ← value
  let action ← event.action
  return {
    eventId := (nonEmpty (cleanAuditText event.eventId 80)).getD uuid
    action := action
    createdAt :=
      (nonEmpty (cleanAuditText event.createdAt 40)).getD (platform.dates.toISOString env.now)
    keyId := nonEmpty (cleanKeyId event.keyId)
    jtiTail := nonEmpty (cleanAuditText event.jtiTail 12)
    terminalId := nonEmpty (cleanAuditText event.terminalId 64)
    operatorId := nonEmpty (cleanAuditText event.operatorId 64)
    reason := nonEmpty (cleanAuditText event.reason 96)
    requestId := nonEmpty (cleanAuditText event.requestId 80)
    outcome := event.outcome.getD .rejected
    errors := ((event.errors.getD []).map (cleanAuditText · 80)).filter (· ≠ []) }

def initialState (env : Env) (registryId : JsString) : StoredState where
  registryId := registryId
  sequence := 0
  updatedAt := platform.dates.toISOString env.now
  usedJtis := []
  revokedJtis := []
  revokedKeyIds := []
  audit := []

def normalizeState (env : Env) (registryId : JsString) (state : RawState) : StoredState where
  registryId := (nonEmpty (cleanAuditText state.registryId 80)).getD registryId
  sequence := state.sequence.getD 0
  updatedAt :=
    (nonEmpty (cleanAuditText state.updatedAt 40)).getD (platform.dates.toISOString env.now)
  usedJtis := storedUsedJtis state
  revokedJtis := storedRevokedJtis state
  revokedKeyIds := storedRevokedKeyIds state
  audit := lastEvents ((state.audit.getD []).zipIdx.filterMap fun e =>
    readAuditEvent platform env (env.uuid e.2) e.1)

/-- The state of a file: none when its text cannot be parsed. -/
def parseState (env : Env) (registryId : JsString) : Option FileText → Option StoredState
  | none => some (initialState platform env registryId)
  | some .invalid => none
  | some .notObject => some (initialState platform env registryId)
  | some (.object state) => some (normalizeState platform env registryId state)

/-! ## What a call decides -/

def versionFor (state : StoredState) : JsString :=
  AGID_SECURE_POS_MODEL_VERSION ++ js "." ++ js (toString state.sequence) ++ js "."
    ++ platform.hashState state.sequence state.usedJtis state.revokedJtis state.revokedKeyIds

def freshUntil (nowMs : JsNumber) : Except JsString JsString :=
  nowIso platform.dates (nowMs.plus (AGID_SECURE_POS_REGISTRY_FRESHNESS_SECONDS * 1000))

def snapshotFromState (state : StoredState) (nowMs : JsNumber) :
    Except JsString RegistrySnapshot := do
  let checkedAt ← nowIso platform.dates nowMs
  let freshUntil ← freshUntil platform nowMs
  return {
    registryId := state.registryId
    version := versionFor platform state
    checkedAt := some checkedAt
    freshUntil := some freshUntil
    revokedKeyIds := state.revokedKeyIds
    revokedJtis := state.revokedJtis
    usedJtis := state.usedJtis }

def publicStatus (state : StoredState) (nowMs : JsNumber) : Except JsString PublicStatus := do
  let checkedAt ← nowIso platform.dates nowMs
  let freshUntil ← freshUntil platform nowMs
  return {
    registryId := state.registryId
    version := versionFor platform state
    checkedAt := checkedAt
    freshUntil := freshUntil
    usedCount := state.usedJtis.length
    revokedTokenCount := state.revokedJtis.length
    revokedKeyCount := state.revokedKeyIds.length
    auditCount := state.audit.length }

/-- What `apply` leaves: the state, and what it answers. -/
structure Applied where
  state : StoredState
  decision : Option RegistryDecision
  outcome : Outcome
  errors : List JsString

def markUsed (state : StoredState) (input : MutationInput) (nowMs : JsNumber) :
    Except JsString Applied := do
  let keyId := cleanKeyId input.keyId
  let jti := cleanJti platform input.jti
  let registry ← snapshotFromState platform state nowMs
  let decision ←
    verifyAgidSecurePosRegistry platform.dates (some registry) (some keyId) (some jti) none nowMs
  let errors := (if keyId = [] then [js "key-id-invalid"] else [])
    ++ (if jti = [] then [js "jti-invalid"] else []) ++ decision.errors
  return {
    state := if errors = [] then
      { state with usedJtis := SortedSet.ofList (state.usedJtis ++ [jti]) } else state
    decision := some decision
    outcome := if errors = [] then .accepted
      else if js "token-already-used" ∈ decision.errors then .conflict else .rejected
    errors := errors }

def revokeToken (state : StoredState) (input : MutationInput) : Applied :=
  let jti := cleanJti platform input.jti
  if jti = [] then ⟨state, none, .rejected, [js "jti-invalid"]⟩
  else ⟨{ state with revokedJtis := SortedSet.ofList (state.revokedJtis ++ [jti]) }, none,
    .accepted, []⟩

def revokeKey (state : StoredState) (input : MutationInput) : Applied :=
  let keyId := cleanKeyId input.keyId
  if keyId = [] then ⟨state, none, .rejected, [js "key-id-invalid"]⟩
  else ⟨{ state with revokedKeyIds := SortedSet.ofList (state.revokedKeyIds ++ [keyId]) }, none,
    .accepted, []⟩

def apply (state : StoredState) (m : Mutation) (nowMs : JsNumber) : Except JsString Applied :=
  match m.action with
  | .markUsed => markUsed platform state m.input nowMs
  | .revokeToken => .ok (revokeToken platform state m.input)
  | .revokeKey => .ok (revokeKey state m.input)

def auditEvent (env : Env) (action : Action) (input : MutationInput) (outcome : Outcome)
    (errors : List JsString) (nowMs : JsNumber) : Except JsString AuditEvent := do
  let createdAt ← nowIso platform.dates nowMs
  return {
    eventId := env.uuid 0
    action := action
    createdAt := createdAt
    keyId := nonEmpty (cleanKeyId input.keyId)
    jtiTail := jtiTail (cleanJti platform input.jti)
    terminalId := nonEmpty (cleanAuditText input.terminalId 64)
    operatorId := nonEmpty (cleanAuditText input.operatorId 64)
    reason := nonEmpty (cleanAuditText input.reason 96)
    requestId := nonEmpty (cleanAuditText input.requestId 80)
    outcome := outcome
    errors := errors.eraseDups }

/-- What `mutate` changes after `apply`. -/
def StoredState.logged (state : StoredState) (event : AuditEvent) : StoredState :=
  { state with
    audit := lastEvents (state.audit ++ [event])
    sequence := if event.outcome = .accepted then state.sequence + 1 else state.sequence
    updatedAt := event.createdAt }

/-- `a || b`. -/
def orElse (a b : Option JsString) : Option JsString := (a.bind nonEmpty).or b

def syncMutation (input : DeferredSyncInput) (item : DeferredSyncItem) : Option Mutation :=
  item.action.map fun action => {
    action := action
    input := {
      keyId := item.keyId
      jti := item.jti
      terminalId := orElse item.terminalId input.terminalId
      operatorId := orElse item.operatorId input.operatorId
      reason := orElse item.reason (some (js "deferred-sync"))
      requestId := input.requestId
      now := match item.createdAt.bind nonEmpty with
        | some createdAt =>
          some (match platform.dates.parse createdAt with
            | some t => .finite t
            | none => .nan)
        | none => input.now } }

/-! ## Calls -/

inductive Request where
  | mutation (m : Mutation)
  | applyDeferredSync (input : DeferredSyncInput)

/-- What `mutate` carries from `apply` on. -/
structure Pending where
  mutation : Mutation
  nowMs : JsNumber
  decision : Option RegistryDecision
  outcome : Outcome
  errors : List JsString

/-- A pending mutation with its audit event. -/
structure Logged where
  mutation : Mutation
  nowMs : JsNumber
  decision : Option RegistryDecision
  event : AuditEvent

/-- Who waits for `load`. -/
inductive Waiting where
  | mutate (m : Mutation)
  | report (p : Logged)
  | finish (nowMs : JsNumber)

inductive Result where
  | mutation (result : MutationResult)
  | sync (result : DeferredSyncResult)

inductive Phase where
  | next
  | load (k : Waiting)
  | reading (k : Waiting)
  | read (k : Waiting) (text : Option FileText)
  | loaded (k : Waiting) (ref : ℕ)
  | applied (ref : ℕ) (p : Pending)
  | makingDir (ref : ℕ) (p : Logged)
  | writing (path text : ℕ) (p : Logged)
  | moving (path text : ℕ) (p : Logged)
  | makingAuditDir (p : Logged)
  | appending (p : Logged)
  | returned (result : Result)
  | failed (error : JsString)

/-- A call: its request, the mutations to come, and what it has done, each mutation with its
event.  A deferred item without a known action is done without a mutation. -/
structure Call where
  request : Request
  work : List (Option Mutation)
  done : List (Option Mutation × AuditEvent)
  phase : Phase

def Call.to (call : Call) (phase : Phase) : Call := { call with phase := phase }

inductive Contents where
  | given
  | text (n : ℕ)
deriving DecidableEq

/-- The store with its files: `given` is what its file held before, `texts` are the states written
since, and a temporary file is named by the time of its writing. -/
structure Store where
  registryId : JsString
  state : Option ℕ
  objects : List StoredState
  given : Option FileText
  texts : List StoredState
  file : Contents
  temps : Record ℕ ℕ
  auditLog : List AuditEvent

def Store.init (registryId : JsString) (given : Option FileText) : Store where
  registryId := registryId
  state := none
  objects := []
  given := given
  texts := []
  file := .given
  temps := .empty
  auditLog := []

def Store.fileText (store : Store) : Option FileText :=
  match store.file with
  | .given => store.given
  | .text n => (store.texts[n]?).map fun state => .object state.raw

def Request.start : Request → List (Option Mutation)
  | .mutation m => [some m]
  | .applyDeferredSync input => (input.items.take 100).map (syncMutation platform input)

def start (request : Request) : Call := ⟨request, request.start platform, [], .next⟩

def ioError : JsString := js "the file operation failed"

/-- A step of a mutation's answer: a single call returns, a deferred one goes on. -/
def Call.report (call : Call) (p : Logged) (status : PublicStatus) : Call :=
  let done := call.done ++ [(some p.mutation, p.event)]
  match call.request with
  | .mutation _ =>
    ⟨call.request, call.work, done,
      .returned (.mutation ⟨p.event.outcome = .accepted, p.decision, p.event, status⟩)⟩
  | .applyDeferredSync _ => ⟨call.request, call.work, done, .next⟩

def Call.finish (call : Call) (status : PublicStatus) : Call :=
  let events := call.done.map Prod.snd
  call.to (.returned (.sync {
    accepted := events.countP (·.outcome = .accepted)
    rejected := events.countP (·.outcome = .rejected)
    conflicts := events.countP (·.outcome = .conflict)
    events := events
    registry := status }))

/-- The loop over the items of a deferred sync, and the one mutation of a single call. -/
def nextWork (env : Env) (call : Call) : Option Call :=
  match call.work, call.request with
  | some m :: work, _ => some ⟨call.request, work, call.done, .load (.mutate m)⟩
  | none :: work, .applyDeferredSync input =>
    let asInput : MutationInput :=
      ⟨none, none, input.terminalId, input.operatorId, none, input.requestId, input.now⟩
    match auditEvent platform env .deferredSync asInput .rejected
        [js "offline-sync-action-invalid"] (input.now.getD (.finite env.now)) with
    | .ok event => some ⟨call.request, work, call.done ++ [(none, event)], .next⟩
    | .error e => some (call.to (.failed e))
  | [], .applyDeferredSync input =>
    some (call.to (.load (.finish (input.now.getD (.finite env.now)))))
  | _, _ => none

/-- `load` up to its first `await`, and the file operation it waits for. -/
def load (store : Store) (call : Call) (k : Waiting) : Call :=
  match store.state with
  | some ref => call.to (.loaded k ref)
  | none => call.to (.reading k)

def readFile (env : Env) (store : Store) (call : Call) (k : Waiting) : Call :=
  if env.fails then call.to (.failed ioError) else call.to (.read k store.fileText)

/-- `load` from the text of the file on: it assigns the state whether or not one is there. -/
def assignState (env : Env) (store : Store) (call : Call) (k : Waiting) (text : Option FileText) :
    Store × Call :=
  match parseState platform env store.registryId text with
  | none => (store, call.to (.failed (js "Unexpected token")))
  | some state =>
    ({ store with state := some store.objects.length, objects := store.objects ++ [state] },
      call.to (.loaded k store.objects.length))

def Store.setObject (store : Store) (ref : ℕ) (state : StoredState) : Store :=
  { store with objects := store.objects.set ref state }

/-- What follows `await this.load()`. -/
def afterLoad (env : Env) (store : Store) (call : Call) (ref : ℕ) (state : StoredState) :
    Waiting → Store × Call
  | .mutate m =>
    let nowMs := m.input.now.getD (.finite env.now)
    match apply platform state m nowMs with
    | .error e => (store, call.to (.failed e))
    | .ok a =>
      (store.setObject ref a.state, call.to (.applied ref ⟨m, nowMs, a.decision, a.outcome, a.errors⟩))
  | .report p =>
    match publicStatus platform state p.nowMs with
    | .error e => (store, call.to (.failed e))
    | .ok status => (store, call.report p status)
  | .finish nowMs =>
    match publicStatus platform state nowMs with
    | .error e => (store, call.to (.failed e))
    | .ok status => (store, call.finish status)

/-- `mutate` from its answer on, to the first `await` of `persist`. -/
def logEvent (env : Env) (store : Store) (call : Call) (ref : ℕ) (state : StoredState)
    (p : Pending) : Store × Call :=
  match auditEvent platform env p.mutation.action.action p.mutation.input p.outcome p.errors
      p.nowMs with
  | .error e => (store, call.to (.failed e))
  | .ok event =>
    (store.setObject ref (state.logged event),
      call.to (.makingDir ref ⟨p.mutation, p.nowMs, p.decision, event⟩))

/-- `JSON.stringify(state)` once the directory is there. -/
def makeText (env : Env) (store : Store) (call : Call) (state : StoredState) (p : Logged) :
    Store × Call :=
  if env.fails then (store, call.to (.failed ioError))
  else
    ({ store with texts := store.texts ++ [state] },
      call.to (.writing env.now store.texts.length p))

def writeFile (env : Env) (store : Store) (call : Call) (path text : ℕ) (p : Logged) :
    Store × Call :=
  if env.fails then (store, call.to (.failed ioError))
  else ({ store with temps := store.temps.set path text }, call.to (.moving path text p))

def rename (env : Env) (store : Store) (call : Call) (path : ℕ) (p : Logged) : Store × Call :=
  if env.fails then (store, call.to (.failed ioError))
  else
    match store.temps.get? path with
    | none => (store, call.to (.failed (js "ENOENT")))
    | some n =>
      ({ store with file := .text n, temps := store.temps.erase path }, call.to (.makingAuditDir p))

def appendAudit (env : Env) (store : Store) (call : Call) (p : Logged) : Store × Call :=
  if env.fails then (store, call.to (.failed ioError))
  else ({ store with auditLog := store.auditLog ++ [p.event] }, call.to (.load (.report p)))

/-- A call from one `await` to the next. -/
def advance (env : Env) (store : Store) (call : Call) : Option (Store × Call) :=
  match call.phase with
  | .next => (nextWork platform env call).map (store, ·)
  | .load k => some (store, load store call k)
  | .reading k => some (store, readFile env store call k)
  | .read k text => some (assignState platform env store call k text)
  | .loaded k ref => (store.objects[ref]?).map (afterLoad platform env store call ref · k)
  | .applied ref p => (store.objects[ref]?).map (logEvent platform env store call ref · p)
  | .makingDir ref p => (store.objects[ref]?).map (makeText env store call · p)
  | .writing path text p => some (writeFile env store call path text p)
  | .moving path _ p => some (rename env store call path p)
  | .makingAuditDir p =>
    some (store, if env.fails then call.to (.failed ioError) else call.to (.appending p))
  | .appending p => some (appendAudit env store call p)
  | .returned _ => none
  | .failed _ => none

def system : Tasks.System Store Call Request Env := ⟨start platform, advance platform⟩

/-! ## What is asked of it -/

/-- The state in memory. -/
def Store.current (store : Store) : Option StoredState := store.state.bind (store.objects[·]?)

/-- What an accepted mutation leaves in the state. -/
def Recorded (m : Mutation) (state : StoredState) : Prop :=
  match m.action with
  | .markUsed => cleanJti platform m.input.jti ∈ state.usedJtis
  | .revokeToken => cleanJti platform m.input.jti ∈ state.revokedJtis
  | .revokeKey => cleanKeyId m.input.keyId ∈ state.revokedKeyIds

/-- The `i`-th call was a `markUsed` of the token, and this is the event it returned. -/
def Marked (w : Tasks.World Store Call) (i : ℕ) (jti : JsString) (event : AuditEvent) : Prop :=
  ∃ call ∈ w.tasks[i]?, ∃ input result, call.request = .mutation ⟨.markUsed, input⟩
    ∧ call.phase = .returned (.mutation result) ∧ cleanJti platform input.jti = jti
    ∧ result.event = event

/-- A token is accepted once, and every other call gets a conflict. -/
def SingleUse (w : Tasks.World Store Call) : Prop :=
  ∀ i jti event, Marked platform w i jti event →
    (event.outcome = .accepted ∨ event.outcome = .conflict)
      ∧ ∀ j event', Marked platform w j jti event' → event.outcome = .accepted →
        event'.outcome = .accepted → i = j

/-- A state in memory stays: no second load puts another one in its place. -/
def KeepsState (store store' : Store) : Prop :=
  store.state = none ∨ store'.state = store.state

/-- A key and a token that the file does not revoke.  A bound of freshness that falls on the
epoch reads as none. -/
structure Markable (given : Option FileText) (input : MutationInput) : Prop where
  keyId : cleanKeyId input.keyId ≠ []
  jti : cleanJti platform input.jti ≠ []
  key_kept : ∀ state, given = some (.object state) →
    cleanKeyId input.keyId ∉ storedRevokedKeyIds state
  token_kept : ∀ state, given = some (.object state) →
    cleanJti platform input.jti ∉ storedRevokedJtis state
  now : ∀ n, input.now = some n →
    timeClip (n.plus (AGID_SECURE_POS_REGISTRY_FRESHNESS_SECONDS * 1000)) ≠ some 0

/-- The mutation is in the state parsed back from the file. -/
def Persisted (store : Store) (m : Mutation) : Prop :=
  ∀ env, ∃ state, parseState platform env store.registryId store.fileText = some state
    ∧ Recorded platform m state

/-- What a call has reported as accepted is in the file. -/
def Durable (w : Tasks.World Store Call) : Prop :=
  ∀ call ∈ w.tasks, ∀ m event, (some m, event) ∈ call.done → event.outcome = .accepted →
    Persisted platform w.store m

def Call.hasReturned (call : Call) : Bool :=
  match call.phase with
  | .returned _ => true
  | _ => false

/-- The texts are numbered from one, and what the file held before comes first. -/
def Contents.age : Contents → ℕ
  | .given => 0
  | .text n => n + 1

/-- No state in memory is replaced, and no file by an older one. -/
structure InOrder (store store' : Store) : Prop where
  state : KeepsState store store'
  file : store.file.age ≤ store'.file.age
  temps : ∀ e ∈ store.temps.entries, ∀ n ∈ store'.temps.get? e.1, e.2 ≤ n

def inOrder : Tasks.Condition Store Call Request where
  accepts _ := True
  keeps := InOrder
  meet _ _ := True

def marking (given : Option FileText) : Tasks.Condition Store Call Request where
  accepts r := ∃ input, r = .mutation ⟨.markUsed, input⟩ ∧ Markable platform given input
  keeps := KeepsState
  meet _ _ := True

end Platform

end Agid.PosRegistry
