import Agid.ResolutionLedger
import Agid.Lib.Tasks

/-!
# Appending to an event stream

`appendEvent` of the five stores of `src/server/addressResolutionLedgerStore.ts`, one database
command to a step, within the calls that append.  A command is refused, or it is done and its reply
arrives or is lost.  The other tables are left out: no append reads them.
-/

namespace Agid.ResolutionLedger

/-- How a command ends. -/
inductive Reply where
  | arrived
  | refused
  | lost
deriving DecidableEq

structure CommandEnv extends Env where
  reply : Reply

/-- What a step of `appendEvent` leads to. -/
inductive Outcome (A : Type) where
  | going (a : A)
  | done (event : EventRecord)
  | failed

/-- A store's `appendEvent`: no step is one that waits. -/
structure Appending (S A : Type) where
  begin : EventInput → A
  advance : CommandEnv → S → A → Option (S × Outcome A)

/-- A command that takes the store to `s'` and then goes on with `next`. -/
def command {S A : Type} (env : CommandEnv) (s s' : S) (next : Outcome A) : S × Outcome A :=
  match env.reply with
  | .arrived => (s', next)
  | .refused => (s, .failed)
  | .lost => (s', .failed)

section Stores

variable (platform : Platform)

/-! ## Memory -/

/-- The events under their ids, and the ids of each stream. -/
structure KeyedEvents where
  events : Record JsString EventRecord
  streamEvents : Record JsString (List JsString)

def KeyedEvents.empty : KeyedEvents := ⟨.empty, .empty⟩

def KeyedEvents.ids (s : KeyedEvents) (streamId : JsString) : List JsString :=
  (s.streamEvents.get? streamId).getD []

/-- `rPush`. -/
def KeyedEvents.push (s : KeyedEvents) (event : EventRecord) : KeyedEvents :=
  { s with streamEvents :=
      s.streamEvents.set event.streamId (s.ids event.streamId ++ [event.eventId]) }

/-- `getEventStream`, without a limit. -/
def KeyedEvents.stored (s : KeyedEvents) (streamId : JsString) : List EventRecord :=
  (s.ids streamId).filterMap s.events.get?

namespace InMemory

/-- All of it is one step. -/
def appendEvent : Appending KeyedEvents EventInput where
  begin := id
  advance env s input :=
    let streamId := appendStreamId platform input
    let fullInput := { input with streamId := some streamId }
    let stream := s.ids streamId
    let previousEvent := stream.getLast?.bind s.events.get?
    match createAddressResolutionLedgerEventRecord platform env.toEnv fullInput
      (stream.length + 1) (previousEvent.map (·.eventHash)) with
    | .error _ => some (s, .failed)
    | .ok event =>
      some ({ s with events := s.events.set event.eventId event }.push event, .done event)

end InMemory

/-! ## SQLite -/

/-- The rows of one stream, in the order of their sequence. -/
def streamRows (rows : List EventRecord) (streamId : JsString) : List EventRecord :=
  (rows.filter (·.streamId = streamId)).mergeSort fun a b => a.sequence ≤ b.sequence

/-- `ORDER BY sequence DESC LIMIT 1`. -/
def lastRow (rows : List EventRecord) (streamId : JsString) : Option EventRecord :=
  (streamRows rows streamId).getLast?

/-- The primary key, and `UNIQUE(stream_id, sequence)`. -/
def clashes (event row : EventRecord) : Bool :=
  row.eventId = event.eventId || (row.streamId = event.streamId && row.sequence = event.sequence)

/-- The record that follows a row. -/
def recordAfter (env : CommandEnv) (input : EventInput) (previous : Option EventRecord) :
    Except JsString EventRecord :=
  createAddressResolutionLedgerEventRecord platform env.toEnv
    { input with streamId := some (appendStreamId platform input) }
    ((previous.map (·.sequence)).getD 0 + 1) (previous.map (·.eventHash))

namespace Sqlite

inductive Phase where
  | selecting (input : EventInput)
  | inserting (event : EventRecord)

def appendEvent : Appending (List EventRecord) Phase where
  begin := .selecting
  advance env rows
    | .selecting input =>
      let next := match recordAfter platform env input
          (lastRow rows (appendStreamId platform input)) with
        | .error _ => .failed
        | .ok event => .going (.inserting event)
      some (command env rows rows next)
    | .inserting event =>
      if rows.any (clashes event) then some (rows, .failed)
      else some (command env rows (rows ++ [event]) (.done event))

end Sqlite

/-! ## Postgres -/

namespace Postgres

/-- The committed rows, what is inserted in a transaction that goes on, and the locked rows. -/
structure Store where
  rows : List EventRecord
  pending : List (ℕ × EventRecord)
  locks : List (ℕ × JsString)
  clients : ℕ

def Store.empty : Store := ⟨[], [], [], 0⟩

inductive Phase where
  | connecting (input : EventInput)
  | selecting (client : ℕ) (input : EventInput)
  | locking (client : ℕ) (input : EventInput) (previous : EventRecord)
  | inserting (client : ℕ) (event : EventRecord)
  | committing (client : ℕ) (event : EventRecord)

/-- `ROLLBACK`, or the end of a connection. -/
def Store.rollback (s : Store) (client : ℕ) : Store :=
  { s with
    pending := s.pending.filter (·.1 ≠ client)
    locks := s.locks.filter (·.1 ≠ client) }

def Store.commit (s : Store) (client : ℕ) : Store :=
  { s.rollback client with
    rows := s.rows ++ (s.pending.filter (·.1 = client)).map Prod.snd }

/-- A command within a transaction, which ends where it is not replied to. -/
def inTransaction (env : CommandEnv) (client : ℕ) (s s' : Store) (next : Outcome Phase) :
    Store × Outcome Phase :=
  match env.reply with
  | .arrived => (s', next)
  | _ => (s.rollback client, .failed)

/-- The record is made, or the transaction rolled back. -/
def create (env : CommandEnv) (client : ℕ) (s s' : Store) (input : EventInput)
    (previous : Option EventRecord) : Store × Outcome Phase :=
  match recordAfter platform env input previous with
  | .error _ => (s.rollback client, .failed)
  | .ok event => inTransaction env client s s' (.going (.inserting client event))

/-- The row that `SELECT … FOR UPDATE` has found is the one it locks, also where it waits for the
lock, and an `INSERT` waits for the transactions it clashes with. -/
def appendEvent : Appending Store Phase where
  begin := .connecting
  advance env s
    | .connecting input =>
      some (command env s { s with clients := s.clients + 1 } (.going (.selecting s.clients input)))
    | .selecting client input =>
      match lastRow s.rows (appendStreamId platform input) with
      | none => some (create platform env client s s input none)
      | some previous =>
        some (inTransaction env client s s (.going (.locking client input previous)))
    | .locking client input previous =>
      if s.locks.any fun lock => lock.1 ≠ client && lock.2 = previous.eventId then none
      else
        let s' := { s with locks := s.locks ++ [(client, previous.eventId)] }
        some (create platform env client s s' input (some previous))
    | .inserting client event =>
      if s.pending.any fun p => p.1 ≠ client && clashes event p.2 then none
      else if s.rows.any (clashes event) then some (s.rollback client, .failed)
      else
        let s' := { s with pending := s.pending ++ [(client, event)] }
        some (inTransaction env client s s' (.going (.committing client event)))
    | .committing client event =>
      match env.reply with
      | .arrived => some (s.commit client, .done event)
      | .refused => some (s.rollback client, .failed)
      | .lost => some (s.commit client, .failed)

end Postgres

/-! ## Redis -/

namespace Redis

inductive Phase where
  | indexing (input : EventInput)
  | getting (input : EventInput) (previousEventId : JsString)
  | setting (event : EventRecord)
  | pushing (event : EventRecord)
  | counting (event : EventRecord)

def create (env : CommandEnv) (input : EventInput) (previous : Option EventRecord) :
    Outcome Phase :=
  match recordAfter platform env input previous with
  | .error _ => .failed
  | .ok event => .going (.setting event)

def appendEvent : Appending KeyedEvents Phase where
  begin := .indexing
  advance env s
    | .indexing input =>
      match (s.ids (appendStreamId platform input)).getLast? with
      | none => some (command env s s (create platform env input none))
      | some previousEventId => some (command env s s (.going (.getting input previousEventId)))
    | .getting input previousEventId =>
      some (command env s s (create platform env input (s.events.get? previousEventId)))
    | .setting event =>
      some (command env s { s with events := s.events.set event.eventId event }
        (.going (.pushing event)))
    | .pushing event => some (command env s (s.push event) (.going (.counting event)))
    | .counting event => some (command env s s (.done event))

end Redis

/-! ## MongoDB -/

namespace MongoDb

inductive Phase where
  | finding (attempt : ℕ) (input : EventInput)
  | inserting (attempt : ℕ) (input : EventInput) (event : EventRecord)

/-- The unique indexes on the event's id and on stream and sequence: a clash tries again. -/
def appendEvent : Appending (List EventRecord) Phase where
  begin := .finding 0
  advance env rows
    | .finding attempt input =>
      if attempt < 5 then
        let next := match recordAfter platform env input
            (lastRow rows (appendStreamId platform input)) with
          | .error _ => .failed
          | .ok event => .going (.inserting attempt input event)
        some (command env rows rows next)
      else some (rows, .failed)
    | .inserting attempt input event =>
      if rows.any (clashes event) then some (rows, .going (.finding (attempt + 1) input))
      else some (command env rows (rows ++ [event]) (.done event))

end MongoDb

/-! ## Calls -/

inductive Request where
  | recordEvent (input : EventInput)
  | recordResolution (env : Env) (result : ResolutionResult) (options : RecordOptions)

inductive CallPhase (A : Type) where
  | writingEntry (entry : Entry)
  | appending (a : A)
  | writingSnapshot (event : EventRecord)
  | readingSnapshot (event : EventRecord)
  | returned (event : EventRecord)
  | failed

/-- A call of `recordEvent`, or of `recordResolution`, which also answers with the snapshot. -/
structure Call (A : Type) where
  ofResolution : Bool
  phase : CallPhase A

def Call.start {S A : Type} (appending : Appending S A) : Request → Call A
  | .recordEvent input => ⟨false, .appending (appending.begin input)⟩
  | .recordResolution env result options =>
    ⟨true, .writingEntry (createAddressResolutionLedgerEntry platform env result options)⟩

/-- What follows where the commands on another table are replied to. -/
def CallPhase.after {A : Type} (env : CommandEnv) (next : CallPhase A) : CallPhase A :=
  if env.reply = .arrived then next else .failed

def Call.advance {S A : Type} (appending : Appending S A) (env : CommandEnv) (s : S)
    (call : Call A) : Option (S × Call A) :=
  match call.phase with
  | .writingEntry entry =>
    let input := createResolutionRecordedEventInput platform entry
    some (s, { call with phase := .after env (.appending (appending.begin input)) })
  | .appending a =>
    (appending.advance env s a).map fun r => (r.1, { call with phase :=
      match r.2 with
      | .going a => .appending a
      | .done event => .writingSnapshot event
      | .failed => .failed })
  | .writingSnapshot event =>
    let next := if call.ofResolution then .readingSnapshot event else .returned event
    some (s, { call with phase := .after env next })
  | .readingSnapshot event => some (s, { call with phase := .after env (.returned event) })
  | .returned _ => none
  | .failed => none

def callSystem {S A : Type} (appending : Appending S A) :
    Tasks.System S (Call A) Request CommandEnv where
  start := Call.start platform appending
  advance := Call.advance platform appending

inductive StorageMode where
  | memory
  | sqlite
  | postgres
  | redis
  | mongodb

/-- A store with its `appendEvent`, and what is asked of a run: how the store may change, and which
two appends may go on at once. -/
structure Adapter where
  Store : Type
  Phase : Type
  empty : Store
  stored : Store → JsString → List EventRecord
  appendEvent : Appending Store Phase
  keeps : Store → Store → Prop
  meet : Phase → Phase → Prop

/-- No event comes under the id of another. -/
def KeepsEvents (s s' : KeyedEvents) : Prop :=
  ∀ id event, s.events.get? id = some event → s'.events.get? id = some event

/-- The stream whose last event an append has read, while it has not added its own. -/
def Redis.openStream : Redis.Phase → Option JsString
  | .getting input _ => some (appendStreamId platform input)
  | .setting event => some event.streamId
  | .pushing event => some event.streamId
  | _ => none

def Redis.Meet (a b : Redis.Phase) : Prop :=
  ∀ streamId, Redis.openStream platform a = some streamId →
    Redis.openStream platform b ≠ some streamId

def adapter : StorageMode → Adapter
  | .memory => ⟨KeyedEvents, EventInput, .empty, KeyedEvents.stored, InMemory.appendEvent platform,
    KeepsEvents, fun _ _ => True⟩
  | .sqlite => ⟨List EventRecord, Sqlite.Phase, [], streamRows, Sqlite.appendEvent platform,
    fun _ _ => True, fun _ _ => True⟩
  | .postgres => ⟨Postgres.Store, Postgres.Phase, .empty, fun s => streamRows s.rows,
    Postgres.appendEvent platform, fun _ _ => True, fun _ _ => True⟩
  | .redis => ⟨KeyedEvents, Redis.Phase, .empty, KeyedEvents.stored, Redis.appendEvent platform,
    KeepsEvents, Redis.Meet platform⟩
  | .mongodb => ⟨List EventRecord, MongoDb.Phase, [], streamRows, MongoDb.appendEvent platform,
    fun _ _ => True, fun _ _ => True⟩

def Adapter.condition (a : Adapter) : Tasks.Condition a.Store (Call a.Phase) Request where
  accepts _ := True
  keeps := a.keeps
  meet t u := ∀ p q, t.phase = .appending p → u.phase = .appending q → a.meet p q

/-- Numbered from one without a gap, and each linked to the one before. -/
structure Chained (events : List EventRecord) : Prop where
  numbered : events.map (·.sequence) = List.range' 1 events.length
  first : ∀ event, events.head? = some event → event.previousEventHash = none
  linked : ∀ i event next, events[i]? = some event → events[i + 1]? = some next →
    next.previousEventHash = some event.eventHash

structure ChainKept (a : Adapter) (w : Tasks.World a.Store (Call a.Phase)) : Prop where
  chained : ∀ streamId, Chained (a.stored w.store streamId)
  present : ∀ call ∈ w.tasks, ∀ event, call.phase = .returned event →
    event ∈ a.stored w.store event.streamId

end Stores

end Agid.ResolutionLedger
