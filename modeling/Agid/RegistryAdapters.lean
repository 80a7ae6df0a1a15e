import Agid.DurableRegistry

/-!
# The POS registries called one call after another

The calls of `src/server/posAgidSecureRegistryStore.ts` and of
`src/server/posAgidSecureRegistryAdapters.ts`, each run to its end with no other call in between
and with files and commands that do not fail, and what the two say of one sequence of calls.
-/

namespace Agid.RegistryAdapters

open AgidSecurePos PosRegistry
open DurableRegistry (Database StorageMode)

/-- The loop of `applyDeferredSync`: a store answers each item with an event or throws, and what
comes after a throw is not done. -/
def syncItems {S : Type} (answer : Env → S → Option Mutation → S × Except JsString AuditEvent) :
    (ℕ → Env) → S → List (Option Mutation) → S × Except JsString (List AuditEvent)
  | _, s, [] => (s, .ok [])
  | envs, s, item :: items =>
    match answer (envs 0) s item with
    | (s, .error e) => (s, .error e)
    | (s, .ok event) =>
      match syncItems answer (envs <| · + 1) s items with
      | (s, .error e) => (s, .error e)
      | (s, .ok events) => (s, .ok (event :: events))

def syncResult (events : List AuditEvent) (status : PublicStatus) : DeferredSyncResult where
  accepted := events.countP (·.outcome = .accepted)
  rejected := events.countP (·.outcome = .rejected)
  conflicts := events.countP (·.outcome = .conflict)
  events := events
  registry := status

/-- The audit event of an item without a known action. -/
def skippedEvent (platform : PosRegistry.Platform) (env : Env) (input : DeferredSyncInput) :
    Except JsString AuditEvent :=
  auditEvent platform env .deferredSync
    ⟨none, none, input.terminalId, input.operatorId, none, input.requestId, input.now⟩ .rejected
    [js "offline-sync-action-invalid"] (input.now.getD (.finite env.now))

/-! ## The file store -/

namespace File

section Platform

variable (platform : PosRegistry.Platform)

/-- `mutate` from the answer of `apply` on. -/
def finish (env : Env) (m : Mutation) (nowMs : JsNumber) (a : Applied) :
    StoredState × Except JsString MutationResult :=
  match auditEvent platform env m.action.action m.input a.outcome a.errors nowMs with
  | .error e => (a.state, .error e)
  | .ok event =>
    let state := a.state.logged event
    (state, (publicStatus platform state nowMs).map fun status =>
      ⟨a.outcome = .accepted, a.decision, event, status⟩)

def mutate (env : Env) (state : StoredState) (m : Mutation) :
    StoredState × Except JsString MutationResult :=
  let nowMs := m.input.now.getD (.finite env.now)
  match apply platform state m nowMs with
  | .error e => (state, .error e)
  | .ok a => finish platform env m nowMs a

/-- An item of a deferred sync: one without a known action is not kept. -/
def answerItem (input : DeferredSyncInput) (env : Env) (state : StoredState) :
    Option Mutation → StoredState × Except JsString AuditEvent
  | none => (state, skippedEvent platform env input)
  | some m => ((mutate platform env state m).1, (mutate platform env state m).2.map (·.event))

def applyDeferredSync (envs : ℕ → Env) (state : StoredState) (input : DeferredSyncInput) :
    StoredState × Except JsString DeferredSyncResult :=
  let items := (input.items.take 100).map (syncMutation platform input)
  match syncItems (answerItem platform input) envs state items with
  | (state, .error e) => (state, .error e)
  | (state, .ok events) =>
    let nowMs := input.now.getD (.finite (envs items.length).now)
    (state, (publicStatus platform state nowMs).map (syncResult events))

end Platform

end File

/-! ## The durable stores -/

namespace Durable

open DurableRegistry

section Platform

variable (platform : DurableRegistry.Platform) (registryId : JsString) (mode : StorageMode)

def finishMutation (env : PosRegistry.Env) (db : Database) (p : Pending) :
    Database × Except JsString MutationResult :=
  match auditEvent platform.toPlatform env p.mutation.action.action p.mutation.input p.outcome
      p.errors p.nowMs with
  | .error e => (db, .error e)
  | .ok event =>
    let db := trimAudit mode (appendAudit db event)
    (db, (DurableRegistry.publicStatus platform registryId (readRegistrySets db) p.nowMs).map
      fun status => ⟨event.outcome = .accepted, p.decision, event, status⟩)

/-- A mutation from its insert on. -/
def insertAndFinish (env : PosRegistry.Env) (db : Database) (p : Pending) :
    Database × Except JsString MutationResult :=
  match nowIso platform.dates p.nowMs with
  | .error e => (db, .error e)
  | .ok _ =>
    let (db, inserted) := DurableRegistry.insert platform db p.mutation
    finishMutation platform registryId mode env db (settle p inserted)

/-- `markUsed`, `revokeToken` and `revokeKey`. -/
def mutate (env : PosRegistry.Env) (db : Database) (m : Mutation) :
    Database × Except JsString MutationResult :=
  let nowMs := m.input.now.getD (.finite env.now)
  if idErrors platform m ≠ [] then
    finishMutation platform registryId mode env db
      ⟨m, nowMs, none, .rejected, idErrors platform m⟩
  else if m.action = .markUsed then
    match decideUse platform registryId (readRegistrySets db) m nowMs with
    | .error e => (db, .error e)
    | .ok p =>
      if p.errors = [] then insertAndFinish platform registryId mode env db p
      else finishMutation platform registryId mode env db p
  else insertAndFinish platform registryId mode env db ⟨m, nowMs, none, .accepted, []⟩

def answerItem (input : DeferredSyncInput) (env : PosRegistry.Env) (db : Database) :
    Option Mutation → Database × Except JsString AuditEvent
  | none =>
    match skippedEvent platform.toPlatform env input with
    | .error e => (db, .error e)
    | .ok event => (trimAudit mode (appendAudit db event), .ok event)
  | some m => ((mutate platform registryId mode env db m).1,
      (mutate platform registryId mode env db m).2.map (·.event))

def applyDeferredSync (envs : ℕ → PosRegistry.Env) (db : Database) (input : DeferredSyncInput) :
    Database × Except JsString DeferredSyncResult :=
  let items := (input.items.take 100).map (syncMutation platform.toPlatform input)
  match syncItems (answerItem platform registryId mode input) envs db items with
  | (db, .error e) => (db, .error e)
  | (db, .ok events) =>
    let nowMs := input.now.getD (.finite (envs items.length).now)
    (db, (DurableRegistry.publicStatus platform registryId (readRegistrySets db) nowMs).map
      (syncResult events))

end Platform

end Durable

/-! ## What is asked of them -/

/-- A call, with the clock and the ids it reads. -/
structure Call where
  request : Request
  envs : ℕ → Env

/-- What a caller compares of an answer. -/
inductive Seen where
  | outcome (o : Outcome)
  | counts (accepted rejected conflicts : ℕ)
deriving DecidableEq

def seenMutation (result : MutationResult) : Seen := .outcome result.event.outcome

def seenSync (result : DeferredSyncResult) : Seen :=
  .counts result.accepted result.rejected result.conflicts

section Platform

variable (platform : DurableRegistry.Platform) (registryId : JsString) (mode : StorageMode)

def fileCall (state : StoredState) (call : Call) : StoredState × Except JsString Seen :=
  match call.request with
  | .mutation m =>
    let (state, answer) := File.mutate platform.toPlatform (call.envs 0) state m
    (state, answer.map seenMutation)
  | .applyDeferredSync input =>
    let (state, answer) := File.applyDeferredSync platform.toPlatform call.envs state input
    (state, answer.map seenSync)

def durableCall (db : Database) (call : Call) : Database × Except JsString Seen :=
  match call.request with
  | .mutation m =>
    let (db, answer) := Durable.mutate platform registryId mode (call.envs 0) db m
    (db, answer.map seenMutation)
  | .applyDeferredSync input =>
    let (db, answer) := Durable.applyDeferredSync platform registryId mode call.envs db input
    (db, answer.map seenSync)

/-- The file store after the calls, from no file. -/
def fileAfter (env : Env) (calls : List Call) : StoredState :=
  calls.foldl (fun state call => (fileCall platform state call).1)
    (initialState platform.toPlatform env registryId)

def databaseAfter (calls : List Call) : Database :=
  calls.foldl (fun db call => (durableCall platform registryId mode db call).1) .empty

/-- The same sets. -/
structure SameSets (state : StoredState) (db : Database) : Prop where
  used : ∀ jti, jti ∈ state.usedJtis ↔ jti ∈ db.usedJtis
  revoked : ∀ jti, jti ∈ state.revokedJtis ↔ jti ∈ db.revokedJtis
  keys : ∀ keyId, keyId ∈ state.revokedKeyIds ↔ keyId ∈ db.revokedKeyIds

/-- Each call is answered alike, and leaves the same sets. -/
def Interchangeable (env : Env) (calls : List Call) : Prop :=
  ∀ before call after, calls = before ++ call :: after →
    (fileCall platform (fileAfter platform registryId env before) call).2
        = (durableCall platform registryId mode (databaseAfter platform registryId mode before)
          call).2
      ∧ SameSets (fileAfter platform registryId env (before ++ [call]))
        (databaseAfter platform registryId mode (before ++ [call]))

/-- A time that can be written, and so can the end of its freshness. -/
def Timely (nowMs : JsNumber) : Prop :=
  timeClip nowMs ≠ none
    ∧ timeClip (nowMs.plus (AGID_SECURE_POS_REGISTRY_FRESHNESS_SECONDS * 1000)) ≠ none

/-- A revocation of what is not revoked has a time, and a use without a key id does not name a used
token. -/
def Regular (env : Env) (db : Database) (m : Mutation) : Prop :=
  let nowMs := m.input.now.getD (.finite env.now)
  match m.action with
  | .markUsed => cleanKeyId m.input.keyId = [] →
    cleanJti platform.toPlatform m.input.jti ∈ (DurableRegistry.readRegistrySets db).usedJtis →
    ¬ Timely nowMs
  | .revokeToken | .revokeKey => DurableRegistry.idErrors platform m = [] →
    ¬ DurableRegistry.Recorded platform db m → timeClip nowMs ≠ none

/-- So are the items of a deferred sync, each in the database it comes to, until one throws. -/
def RegularItems (input : DeferredSyncInput) :
    (ℕ → Env) → Database → List (Option Mutation) → Prop
  | _, _, [] => True
  | envs, db, item :: items =>
    (∀ m ∈ item, Regular platform (envs 0) db m)
      ∧ ∀ db' event, Durable.answerItem platform registryId mode input (envs 0) db item
          = (db', .ok event) →
        RegularItems input (envs <| · + 1) db' items

def RegularCall (db : Database) (call : Call) : Prop :=
  match call.request with
  | .mutation m => Regular platform (call.envs 0) db m
  | .applyDeferredSync input => RegularItems platform registryId mode input call.envs db
    ((input.items.take 100).map (syncMutation platform.toPlatform input))

def RegularRun (calls : List Call) : Prop :=
  ∀ before call after, calls = before ++ call :: after →
    RegularCall platform registryId mode (databaseAfter platform registryId mode before) call

end Platform

end Agid.RegistryAdapters
