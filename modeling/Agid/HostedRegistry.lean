import Agid.PosRegistry
import Agid.RegistryApi

/-!
# The hosted registry

`FileHostedAgidRegistryApiStore` of `src/server/hostedRegistryStore.ts`: the registry in memory, its
file, and the calls.  A call runs from one `await` to the next, and a file operation takes effect
between the two.  The texts written to the file are numbered in the order their snapshots were
taken; each is kept with the request and the answer of its call.
-/

namespace Agid.HostedRegistry

open RegistryApi
open PosRegistry (Contents)

def HOSTED_REGISTRY_STORE_VERSION : JsString := js "hosted-registry-store-v1"

inductive Request
  | capabilities
  | snapshot
  | auditEvents (limit : Option ℚ)
  | registerIssuer (input : Members)
  | revokeCommitment (input : Members)
  | anchorFreshnessRoot (input : Members)
  | verify (input : Members)
  | markNullifierUsed (input : Members)

inductive Answer
  | capabilities
  | snapshot (registry : Registry)
  | auditEvents (events : List AuditEvent)
  | issuer (result : MutationResult IssuerRecord)
  | revocation (result : MutationResult RevocationRecord)
  | freshnessRoot (result : MutationResult FreshnessRootRecord)
  | verification (result : VerifyResult)
  | nullifier (result : MutationResult NullifierRecord)

/-- What a file holds, as `JSON.parse` reads it. -/
inductive FileText
  | invalid
  | json (value : JsonValue)

structure Text where
  registry : Registry
  persistedAt : JsString
  request : Request
  answer : Answer

structure Env extends RegistryApi.Env where
  fails : Bool

/-- The store with its files: `given` is what its file held before, `loads` counts how often `load`
has assigned the registry, and a temporary file is named by the time of its writing. -/
structure Store where
  loaded : Bool
  memory : Registry
  loads : ℕ
  given : Option FileText
  texts : List Text
  file : Contents
  temps : Record ℤ ℕ

def Store.init (given : Option FileText) : Store where
  loaded := false
  memory := .empty
  loads := 0
  given := given
  texts := []
  file := .given
  temps := .empty

/-! ## Files -/

/-- The snapshot of a parsed file.  What is no object has no fields to read. -/
def snapshotFromStoredJson (value : JsonValue) : JsonValue :=
  match field "snapshot" value with
  | some (.object members) => .object members
  | _ => value

/-- The envelope around a snapshot. -/
def Text.json (text : Text) : JsonValue :=
  ofMembers [("storeVersion", ofText HOSTED_REGISTRY_STORE_VERSION),
    ("persistedAt", ofText text.persistedAt), ("rawAddressStorage", some (.bool false)),
    ("rawAgidStorage", some (.bool false)), ("rawAoidStorage", some (.bool false)),
    ("agidSecureCiphertextStorage", some (.bool false)), ("snapshot", some text.registry.json)]

def Store.fileText (store : Store) : Option FileText :=
  match store.file with
  | .given => store.given
  | .text n => store.texts[n]?.map fun text => .json text.json

section Platform

variable (P : Platform)

/-- The registry that `load` makes of a file, unless it throws. -/
def readRegistry (env : RegistryApi.Env) : Option FileText → Option Registry
  | none => some .empty
  | some .invalid => none
  | some (.json value) => some (replaceSnapshot P env (snapshotFromStoredJson value))

/-! ## Calls -/

/-- A call of this kind only reads. -/
def Request.readsOnly : Request → Bool
  | .capabilities | .snapshot | .auditEvents _ => true
  | _ => false

/-- The call of the store in memory. -/
def answer (env : RegistryApi.Env) (registry : Registry) : Request → Registry × Answer
  | .capabilities => (registry, .capabilities)
  | .snapshot => (registry, .snapshot registry)
  | .auditEvents limit => (registry, .auditEvents (RegistryApi.auditEvents registry limit))
  | .registerIssuer input => (registerIssuer P env registry input).map id .issuer
  | .revokeCommitment input => (revokeCommitment P env registry input).map id .revocation
  | .anchorFreshnessRoot input => (anchorFreshnessRoot P env registry input).map id .freshnessRoot
  | .verify input => (verify P env registry input).map id .verification
  | .markNullifierUsed input => (markNullifierUsed P env registry input).map id .nullifier

/-- A call fails where a file operation does, or where the file is no JSON; where its temporary
file is gone, it throws after its text may have come to the file. -/
inductive Phase
  | called
  | reading
  | read (text : Option FileText)
  | loaded
  | makingDir (text : ℕ) (answer : Answer)
  | writing (path : ℤ) (text : ℕ) (answer : Answer)
  | moving (path : ℤ) (text : ℕ) (answer : Answer)
  | returned (text : Option ℕ) (answer : Answer)
  | notFound (text : ℕ)
  | failed (error : JsString)

structure Call where
  request : Request
  phase : Phase

def Call.to (call : Call) (phase : Phase) : Call := { call with phase := phase }

def start (request : Request) : Call := ⟨request, .called⟩

def ioError : JsString := js "the file operation failed"

/-- `load` up to its first `await`. -/
def load (store : Store) (call : Call) : Call :=
  call.to (if store.loaded then .loaded else .reading)

def readFile (env : Env) (store : Store) (call : Call) : Call :=
  call.to (if env.fails then .failed ioError else .read store.fileText)

/-- `load` from the text of the file on: it assigns the registry whether or not one is there. -/
def assignRegistry (env : Env) (store : Store) (call : Call) (text : Option FileText) :
    Store × Call :=
  match readRegistry P env.toEnv text with
  | none => (store, call.to (.failed (js "Unexpected token")))
  | some registry =>
    ({ store with loaded := true, memory := registry, loads := store.loads + 1 }, call.to .loaded)

/-- What follows `await this.load()`, up to the first `await` of `persist`. -/
def mutate (env : Env) (store : Store) (call : Call) : Store × Call :=
  let (registry, a) := answer P env.toEnv store.memory call.request
  if call.request.readsOnly then (store, call.to (.returned none a))
  else
    let text : Text := ⟨registry, P.dates.toISOString env.now, call.request, a⟩
    ({ store with memory := registry, texts := store.texts ++ [text] },
      call.to (.makingDir store.texts.length a))

def makeDir (env : Env) (call : Call) (text : ℕ) (a : Answer) : Call :=
  call.to (if env.fails then .failed ioError else .writing env.now text a)

def writeFile (env : Env) (store : Store) (call : Call) (path : ℤ) (text : ℕ) (a : Answer) :
    Store × Call :=
  if env.fails then (store, call.to (.failed ioError))
  else ({ store with temps := store.temps.set path text }, call.to (.moving path text a))

def rename (env : Env) (store : Store) (call : Call) (path : ℤ) (text : ℕ) (a : Answer) :
    Store × Call :=
  if env.fails then (store, call.to (.failed ioError))
  else
    match store.temps.get? path with
    | none => (store, call.to (.notFound text))
    | some n =>
      ({ store with file := .text n, temps := store.temps.erase path },
        call.to (.returned (some text) a))

/-- A call from one `await` to the next. -/
def advance (env : Env) (store : Store) (call : Call) : Option (Store × Call) :=
  match call.phase with
  | .called => some (store, load store call)
  | .reading => some (store, readFile env store call)
  | .read text => some (assignRegistry P env store call text)
  | .loaded => some (mutate P env store call)
  | .makingDir text a => some (store, makeDir env call text a)
  | .writing path text a => some (writeFile env store call path text a)
  | .moving path text a => some (rename env store call path text a)
  | .returned _ _ => none
  | .notFound _ => none
  | .failed _ => none

def system : Tasks.System Store Call Request Env := ⟨start, advance P⟩

/-! ## What is asked of it -/

/-- The answer says that this nullifier is recorded. -/
def Records (request : Request) (a : Answer) (scope nullifierHash : JsString) : Prop :=
  ∃ input result, request = .markNullifierUsed input ∧ a = .nullifier result
    ∧ result.status = .recorded ∧ requestedScope P input = scope
    ∧ requestedNullifier P input = nullifierHash

/-- The answer says that this commitment is revoked. -/
def Revokes (request : Request) (a : Answer) (commitment : JsString) : Prop :=
  (∃ input result, request = .revokeCommitment input ∧ a = .revocation result
    ∧ result.status ≠ .rejected ∧ requestedCommitment P input = commitment)
  ∨ ∃ input result, request = .verify input ∧ a = .verification result
    ∧ commitment ∈ result.revokedCommitments

/-- The answer says that this issuer is registered, with the status of the request. -/
def Registers (request : Request) (a : Answer) (issuerId : JsString) (status : IssuerStatus) :
    Prop :=
  ∃ input result, request = .registerIssuer input ∧ a = .issuer result
    ∧ result.status ≠ .rejected ∧ requestedIssuer P input = issuerId
    ∧ requestedStatus P input = status

/-- The last registration of the issuer has this status. -/
def Latest (store : Store) (issuerId : JsString) (status : IssuerStatus) : Prop :=
  ∃ before text after, store.texts = before ++ text :: after
    ∧ Registers P text.request text.answer issuerId status
    ∧ ∀ later ∈ after, ∀ status', ¬ Registers P later.request later.answer issuerId status'

/-- A record with these texts is in a list of the snapshot that the file holds. -/
def InFile (store : Store) (list : String) (members : List (String × JsString)) : Prop :=
  ∃ value, store.fileText = some (.json value)
    ∧ ∃ item ∈ itemsOf (field list (snapshotFromStoredJson value)),
      ∀ m ∈ members, field m.1 item = some (.string m.2)

/-- The registry in memory and the file hold the nullifier. -/
def NullifierKept (store : Store) (scope nullifierHash : JsString) : Prop :=
  (∃ record ∈ store.memory.nullifiers.values,
      record.scope = scope ∧ record.nullifierHash = nullifierHash)
    ∧ InFile store "usedNullifiers" [("nullifierHash", nullifierHash), ("scope", scope)]

def CommitmentKept (store : Store) (commitment : JsString) : Prop :=
  (∃ record ∈ store.memory.revoked.values, record.commitment = commitment)
    ∧ InFile store "revokedCommitments" [("commitment", commitment)]

def StatusKept (store : Store) (issuerId : JsString) (status : IssuerStatus) : Prop :=
  (∃ record ∈ store.memory.issuers.values, record.issuerId = issuerId ∧ record.status = status)
    ∧ InFile store "issuers" [("issuerId", issuerId), ("status", status.text)]

/-- The call has come to its end, and no file operation of it has failed. -/
def Call.hasEnded (call : Call) : Bool :=
  match call.phase with
  | .returned _ _ | .notFound _ => true
  | _ => false

/-- The calls of a world keep what they have answered: one call at most has recorded a nullifier,
and what is recorded or revoked is in memory and in the file.  Once all calls have ended, so is the
latest status of each issuer, the ones that only the file registered before included. -/
structure Keeps (w : Tasks.World Store Call) : Prop where
  single : ∀ (i j : ℕ), ∀ call ∈ w.tasks[i]?, ∀ other ∈ w.tasks[j]?, ∀ n a n' a' scope hash,
    call.phase = .returned n a → Records P call.request a scope hash →
      other.phase = .returned n' a' → Records P other.request a' scope hash → i = j
  nullifiers : ∀ call ∈ w.tasks, ∀ n a scope hash, call.phase = .returned n a →
    Records P call.request a scope hash → NullifierKept w.store scope hash
  commitments : ∀ call ∈ w.tasks, ∀ n a commitment, call.phase = .returned n a →
    Revokes P call.request a commitment → CommitmentKept w.store commitment
  statuses : (∀ call ∈ w.tasks, call.hasEnded) → ∀ call ∈ w.tasks, ∀ n a issuerId status,
    call.phase = .returned n a → Registers P call.request a issuerId status →
      ∃ latest, Latest P w.store issuerId latest ∧ StatusKept w.store issuerId latest
  stored : (∀ call ∈ w.tasks, call.hasEnded) → w.store.texts ≠ [] →
    ∀ env registry issuerId record, readRegistry P env w.store.given = some registry →
      registry.issuers.get? issuerId = some record →
      (∀ text ∈ w.store.texts, ∀ status, ¬ Registers P text.request text.answer issuerId status) →
      StatusKept w.store issuerId record.status

end Platform

/-- No registry that a call has changed is replaced by one read from the file, and no text, in the
file or under a temporary name, by an older one. -/
structure InOrder (store store' : Store) : Prop where
  memory : store.texts = [] ∨ store'.loads = store.loads
  file : store.file.age ≤ store'.file.age
  temps : ∀ e ∈ store.temps.entries, ∀ n ∈ store'.temps.get? e.1, e.2 ≤ n

def inOrder : Tasks.Condition Store Call Request where
  accepts _ := True
  keeps := InOrder
  meet _ _ := True

end Agid.HostedRegistry
