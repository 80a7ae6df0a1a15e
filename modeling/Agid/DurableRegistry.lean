import Agid.PosRegistry

/-!
# The POS registry of several servers

`DurablePosAgidSecureRegistryStore` of `src/server/posAgidSecureRegistryAdapters.ts` over the
commands of its three databases.  A call runs from one command to the next, and each command is
atomic.  Of a row only its key is kept, for nothing reads the rest of it, and no two audit events
have one id.
-/

namespace Agid.DurableRegistry

open AgidSecurePos PosRegistry

inductive StorageMode where
  | sqlite
  | postgres
  | redis
deriving DecidableEq

structure RegistrySets where
  usedJtis : List JsString
  revokedJtis : List JsString
  revokedKeyIds : List JsString
  auditCount : ℕ
deriving DecidableEq

/-- The tables, or the keys of Redis, that all servers share. -/
structure Database where
  usedJtis : List JsString
  revokedJtis : List JsString
  revokedKeyIds : List JsString
  audit : List AuditEvent
deriving DecidableEq

def Database.empty : Database := ⟨[], [], [], []⟩

/-- What the store takes from the platform: `hashSets` is the start of the digest of the three
lists. -/
structure Platform extends PosRegistry.Platform where
  hashSets : List JsString → List JsString → List JsString → JsString

def arrayFromSet (values : List JsString) : List JsString :=
  SortedSet.ofList ((values.map trim).filter (· ≠ []))

def withDecisionError (decision : RegistryDecision) (error : JsString) : RegistryDecision :=
  { decision with valid := false, errors := (decision.errors ++ [error]).eraseDups }

/-! ## Commands -/

/-- Adds a key that is not there, and says whether it was not. -/
def insertKey (keys : List JsString) (key : JsString) : List JsString × Bool :=
  if key ∈ keys then (keys, false) else (keys ++ [key], true)

def insertUsed (db : Database) (jti : JsString) : Database × Bool :=
  ({ db with usedJtis := (insertKey db.usedJtis jti).1 }, (insertKey db.usedJtis jti).2)

def insertRevokedJti (db : Database) (jti : JsString) : Database :=
  { db with revokedJtis := (insertKey db.revokedJtis jti).1 }

def insertRevokedKey (db : Database) (keyId : JsString) : Database :=
  { db with revokedKeyIds := (insertKey db.revokedKeyIds keyId).1 }

def appendAudit (db : Database) (event : AuditEvent) : Database :=
  { db with audit := db.audit ++ [event] }

/-- What follows an audit event in SQLite and in Redis. -/
def trimAudit (mode : StorageMode) (db : Database) : Database :=
  if mode = .postgres then db else { db with audit := lastEvents db.audit }

/-- The four queries of `readRegistrySets`. -/
inductive Query where
  | used
  | revokedJtis
  | revokedKeys
  | auditCount
deriving DecidableEq

/-- The answers of the queries that have come. -/
structure Reads where
  usedJtis : Option (List JsString)
  revokedJtis : Option (List JsString)
  revokedKeyIds : Option (List JsString)
  auditCount : Option ℕ

def Reads.none : Reads := ⟨.none, .none, .none, .none⟩

def Reads.query (reads : Reads) (db : Database) : Query → Reads
  | .used => { reads with usedJtis := reads.usedJtis.or (some db.usedJtis) }
  | .revokedJtis => { reads with revokedJtis := reads.revokedJtis.or (some db.revokedJtis) }
  | .revokedKeys => { reads with revokedKeyIds := reads.revokedKeyIds.or (some db.revokedKeyIds) }
  | .auditCount => { reads with auditCount := reads.auditCount.or (some db.audit.length) }

def Reads.sets (reads : Reads) : Option RegistrySets := do
  let usedJtis ← reads.usedJtis
  let revokedJtis ← reads.revokedJtis
  let revokedKeyIds ← reads.revokedKeyIds
  let auditCount ← reads.auditCount
  return ⟨arrayFromSet usedJtis, arrayFromSet revokedJtis, arrayFromSet revokedKeyIds, auditCount⟩

/-- The four queries with no command between them. -/
def readRegistrySets (db : Database) : RegistrySets where
  usedJtis := arrayFromSet db.usedJtis
  revokedJtis := arrayFromSet db.revokedJtis
  revokedKeyIds := arrayFromSet db.revokedKeyIds
  auditCount := db.audit.length

/-! ## What a call decides -/

section Platform

variable (platform : Platform) (registryId : JsString)

def versionFor (sets : RegistrySets) : JsString :=
  AGID_SECURE_POS_MODEL_VERSION ++ js "."
    ++ js (toString (sets.usedJtis.length + sets.revokedJtis.length + sets.revokedKeyIds.length))
    ++ js "." ++ platform.hashSets sets.usedJtis sets.revokedJtis sets.revokedKeyIds

def snapshot (sets : RegistrySets) (nowMs : JsNumber) : Except JsString RegistrySnapshot := do
  let checkedAt ← nowIso platform.dates nowMs
  let freshUntil ← freshUntil platform.toPlatform nowMs
  return {
    registryId := registryId
    version := versionFor platform sets
    checkedAt := some checkedAt
    freshUntil := some freshUntil
    revokedKeyIds := sets.revokedKeyIds
    revokedJtis := sets.revokedJtis
    usedJtis := sets.usedJtis }

def publicStatus (sets : RegistrySets) (nowMs : JsNumber) : Except JsString PublicStatus := do
  let checkedAt ← nowIso platform.dates nowMs
  let freshUntil ← freshUntil platform.toPlatform nowMs
  return {
    registryId := registryId
    version := versionFor platform sets
    checkedAt := checkedAt
    freshUntil := freshUntil
    usedCount := sets.usedJtis.length
    revokedTokenCount := sets.revokedJtis.length
    revokedKeyCount := sets.revokedKeyIds.length
    auditCount := sets.auditCount }

/-- What a call finds wrong with its key and its token. -/
def idErrors (m : Mutation) : List JsString :=
  let keyErrors := if cleanKeyId m.input.keyId = [] then [js "key-id-invalid"] else []
  let jtiErrors := if cleanJti platform.toPlatform m.input.jti = [] then [js "jti-invalid"] else []
  match m.action with
  | .markUsed => keyErrors ++ jtiErrors
  | .revokeToken => jtiErrors
  | .revokeKey => keyErrors

/-- The decision of `markUsed` on the sets it has read. -/
def decideUse (sets : RegistrySets) (m : Mutation) (nowMs : JsNumber) :
    Except JsString Pending := do
  let registry ← snapshot platform registryId sets nowMs
  let decision ← verifyAgidSecurePosRegistry platform.dates (some registry)
    (some (cleanKeyId m.input.keyId)) (some (cleanJti platform.toPlatform m.input.jti)) none nowMs
  return {
    mutation := m
    nowMs := nowMs
    decision := some decision
    outcome := if decision.errors = [] then .accepted
      else if js "token-already-used" ∈ decision.errors then .conflict else .rejected
    errors := decision.errors }

/-- The insert of a call: a use says whether the token was not there. -/
def insert (db : Database) (m : Mutation) : Database × Bool :=
  match m.action with
  | .markUsed => insertUsed db (cleanJti platform.toPlatform m.input.jti)
  | .revokeToken => (insertRevokedJti db (cleanJti platform.toPlatform m.input.jti), true)
  | .revokeKey => (insertRevokedKey db (cleanKeyId m.input.keyId), true)

/-- What a call answers once it knows whether its token was not there. -/
def settle (p : Pending) (inserted : Bool) : Pending :=
  if inserted then p
  else { p with
    decision := p.decision.map (withDecisionError · (js "token-already-used"))
    outcome := .conflict
    errors := p.errors ++ [js "token-already-used"] }

/-! ## Calls over the shared database -/

/-- What a step reads from outside: the clock, fresh ids, the query of its four that is answered
next, and whether its command fails. -/
structure Env extends PosRegistry.Env where
  query : Query

inductive Phase where
  | called
  | checking (nowMs : JsNumber) (reads : Reads)
  | inserting (p : Pending)
  | describing (p : Pending)
  | finishing (p : Pending)
  | logging (p : Logged)
  | trimming (p : Logged)
  | reporting (p : Logged) (reads : Reads)
  | returned (result : MutationResult)
  | failed (error : JsString)

structure Call where
  mutation : Mutation
  phase : Phase

def Call.to (call : Call) (phase : Phase) : Call := { call with phase := phase }

def start (m : Mutation) : Call := ⟨m, .called⟩

def commandError : JsString := js "the command failed"

/-- The row to insert holds the time of the call. -/
def toInsert (call : Call) (p : Pending) : Call :=
  match nowIso platform.dates p.nowMs with
  | .error e => call.to (.failed e)
  | .ok _ => call.to (.inserting p)

/-- A call up to its first command. -/
def begin (env : Env) (call : Call) : Call :=
  let m := call.mutation
  let nowMs := m.input.now.getD (.finite env.now)
  if idErrors platform m ≠ [] then
    call.to (.finishing ⟨m, nowMs, none, .rejected, idErrors platform m⟩)
  else if m.action = .markUsed then call.to (.checking nowMs .none)
  else toInsert platform call ⟨m, nowMs, none, .accepted, []⟩

/-- A query of `markUsed`, or its decision once all four are answered. -/
def check (env : Env) (db : Database) (call : Call) (nowMs : JsNumber) (reads : Reads) : Call :=
  match reads.sets with
  | none =>
    if env.fails then call.to (.failed commandError)
    else call.to (.checking nowMs (reads.query db env.query))
  | some sets =>
    match decideUse platform registryId sets call.mutation nowMs with
    | .error e => call.to (.failed e)
    | .ok p => if p.errors = [] then toInsert platform call p else call.to (.finishing p)

/-- The insert.  Redis keeps the rest of a row by a command of its own. -/
def runInsert (mode : StorageMode) (env : Env) (db : Database) (call : Call) (p : Pending) :
    Database × Call :=
  if env.fails then (db, call.to (.failed commandError))
  else
    let (db, inserted) := insert platform db call.mutation
    let p := settle p inserted
    (db, call.to (if mode = .redis ∧ inserted then .describing p else .finishing p))

/-- `finishMutation` up to its first command. -/
def logEvent (env : Env) (call : Call) (p : Pending) : Call :=
  match auditEvent platform.toPlatform env.toEnv call.mutation.action.action call.mutation.input
      p.outcome p.errors p.nowMs with
  | .error e => call.to (.failed e)
  | .ok event => call.to (.logging ⟨call.mutation, p.nowMs, p.decision, event⟩)

/-- A query of `publicStatus`, or the answer of the call once all four are answered. -/
def report (env : Env) (db : Database) (call : Call) (p : Logged) (reads : Reads) : Call :=
  match reads.sets with
  | none =>
    if env.fails then call.to (.failed commandError)
    else call.to (.reporting p (reads.query db env.query))
  | some sets =>
    match publicStatus platform registryId sets p.nowMs with
    | .error e => call.to (.failed e)
    | .ok status =>
      call.to (.returned ⟨p.event.outcome = .accepted, p.decision, p.event, status⟩)

/-- A call from one command to the next. -/
def advance (mode : StorageMode) (env : Env) (db : Database) (call : Call) :
    Option (Database × Call) :=
  match call.phase with
  | .called => some (db, begin platform env call)
  | .checking nowMs reads => some (db, check platform registryId env db call nowMs reads)
  | .inserting p => some (runInsert platform mode env db call p)
  | .describing p =>
    some (db, call.to (if env.fails then .failed commandError else .finishing p))
  | .finishing p => some (db, logEvent platform env call p)
  | .logging p =>
    if env.fails then some (db, call.to (.failed commandError))
    else some (appendAudit db p.event, call.to (.trimming p))
  | .trimming p =>
    if env.fails then some (db, call.to (.failed commandError))
    else some (trimAudit mode db, call.to (.reporting p .none))
  | .reporting p reads => some (db, report platform registryId env db call p reads)
  | .returned _ => none
  | .failed _ => none

def system (mode : StorageMode) : Tasks.System Database Call Mutation Env :=
  ⟨start, advance platform registryId mode⟩

/-! ## What is asked of it -/

/-- What the mutation puts into the database. -/
def Recorded (db : Database) (m : Mutation) : Prop :=
  match m.action with
  | .markUsed => cleanJti platform.toPlatform m.input.jti ∈ db.usedJtis
  | .revokeToken => cleanJti platform.toPlatform m.input.jti ∈ db.revokedJtis
  | .revokeKey => cleanKeyId m.input.keyId ∈ db.revokedKeyIds

/-- The first mutation revokes the token or the key that the second one uses. -/
def Revokes (r m : Mutation) : Prop :=
  match r.action with
  | .markUsed => False
  | .revokeToken => m.action = .markUsed
    ∧ cleanJti platform.toPlatform r.input.jti = cleanJti platform.toPlatform m.input.jti
  | .revokeKey => m.action = .markUsed ∧ cleanKeyId r.input.keyId = cleanKeyId m.input.keyId

def Call.Completed (call : Call) : Prop := ∃ result, call.phase = .returned result

/-- The call is a `markUsed` that is answered accepted. -/
def Call.Accepted (call : Call) : Prop :=
  call.mutation.action = .markUsed
    ∧ ∃ result, call.phase = .returned result ∧ result.event.outcome = .accepted

/-- Of a run that goes on from the first world to the second: no token is accepted that was not yet
used when a revocation of it, or of its key, had completed. -/
def RevocationFirst (w w' : Tasks.World Database Call) : Prop :=
  ∀ revocation ∈ w.tasks, ∀ call ∈ w'.tasks, revocation.Completed →
    Revokes platform revocation.mutation call.mutation →
    cleanJti platform.toPlatform call.mutation.input.jti ∉ w.store.usedJtis → ¬ call.Accepted

/-- A token is accepted once. -/
def UsedOnce (w : Tasks.World Database Call) : Prop :=
  ∀ (i j : ℕ), ∀ call ∈ w.tasks[i]?, ∀ other ∈ w.tasks[j]?, call.Accepted → other.Accepted →
    cleanJti platform.toPlatform call.mutation.input.jti
      = cleanJti platform.toPlatform other.mutation.input.jti → i = j

/-- A `markUsed` that has read its list before the revocation came into it, and has still to run
its insert. -/
def Missed (r : Mutation) (call : Call) : Prop :=
  match call.phase with
  | .checking _ reads =>
    match r.action with
    | .markUsed => False
    | .revokeToken => ∃ jtis ∈ reads.revokedJtis, cleanJti platform.toPlatform r.input.jti ∉ jtis
    | .revokeKey => ∃ keyIds ∈ reads.revokedKeyIds, cleanKeyId r.input.keyId ∉ keyIds
  | .inserting _ => True
  | _ => False

/-- No revocation completes while such a call stands. -/
def unmissed : Tasks.Condition Database Call Mutation where
  accepts _ := True
  keeps _ _ := True
  meet call other :=
    ¬ (call.Completed ∧ Revokes platform call.mutation other.mutation
      ∧ Missed platform call.mutation other)

end Platform

end Agid.DurableRegistry
