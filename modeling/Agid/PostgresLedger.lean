import Agid.LedgerSnapshots

/-!
# Recording in the Postgres ledger

`recordEvent` of `src/server/addressResolutionLedgerStore.ts` on the Postgres store, under the
constraints of its schema.  The event's transaction is that of `appendEvent`, by itself; the update
and the upsert that write its snapshot are two statements after it.
-/

namespace Agid.ResolutionLedger.Postgres

/-- How a text is read as `TIMESTAMPTZ`, in microseconds, at the time of a transaction, and which
payloads are `JSONB`. -/
structure Server where
  timestamptz : ℤ → JsString → Option ℤ
  jsonb : List (JsString × Json) → Bool

/-- `CHECK (valid_to IS NULL OR valid_to > valid_from)`. -/
abbrev ValidTo (validFrom : ℤ) := Option {stop : ℤ // validFrom < stop}

def checkValidTo (validFrom : ℤ) : Option ℤ → Option (ValidTo validFrom)
  | none => some none
  | some stop => if h : validFrom < stop then some (some ⟨stop, h⟩) else none

/-- A row of `address_temporal_snapshot`. -/
structure SnapshotRow where
  snapshotId : JsString
  streamId : JsString
  aggregateKind : AggregateKind
  aggregateId : JsString
  sequence : ℕ
  validFrom : ℤ
  validTo : ValidTo validFrom
  status : AddressResolutionStatus
  decision : AddressResolutionDecision
  confidence : ℚ
  stateHash : JsString
  lastEventId : JsString
  lastEventHash : JsString
  resolutionId : Option JsString

/-- The rows of the two tables, and the ids of `address_resolution`. -/
structure Tables where
  events : List EventRecord
  snapshots : List SnapshotRow
  resolutions : List JsString

/-- The declared keys. -/
structure Tables.Lawful (tables : Tables) : Prop where
  events : tables.events.Pairwise fun a b => ¬ clashes a b
  snapshots : (tables.snapshots.map (·.snapshotId)).Nodup
  lastEvents : ∀ row ∈ tables.snapshots, row.lastEventId ∈ tables.events.map (·.eventId)

/-- How each command of a call ends, and when the texts of times are read. -/
structure Commands where
  connecting : Reply
  selecting : Reply
  locking : Reply
  inserting : Reply
  committing : Reply
  updating : Reply
  upserting : Reply
  insertedAt : ℤ
  updatedAt : ℤ
  upsertedAt : ℤ

/-! ## Constraints -/

/-- `TEXT` has no NUL. -/
def isText (s : JsString) : Bool := (0 : CodeUnit) ∉ s

/-- `INTEGER … CHECK (n >= 1)`. -/
def isPositive (n : ℤ) : Bool := 1 ≤ n ∧ n ≤ 2147483647

def EventRecord.texts (event : EventRecord) : List JsString :=
  [event.eventId, event.streamId, event.aggregateId, event.payloadHash, event.eventHash]
    ++ [event.resolutionId, event.actorCommitment, event.causationId, event.correlationId,
      event.previousEventHash].filterMap id

def SnapshotRow.texts (row : SnapshotRow) : List JsString :=
  [row.snapshotId, row.streamId, row.aggregateId, row.stateHash, row.lastEventId,
    row.lastEventHash] ++ row.resolutionId.toList

/-- The columns and the foreign key of `address_resolution_event`. -/
def acceptsEvent (server : Server) (tables : Tables) (time : ℤ) (event : EventRecord) : Bool :=
  (EventRecord.texts event).all isText && isPositive event.eventVersion && isPositive event.sequence
    && (server.timestamptz time event.occurredAt).isSome
    && event.resolutionId.all (· ∈ tables.resolutions) && server.jsonb event.payloadJson

/-- The columns and the foreign keys of `address_temporal_snapshot`. -/
def acceptsSnapshot (tables : Tables) (row : SnapshotRow) : Bool :=
  row.texts.all isText && isPositive row.sequence && decide (0 ≤ row.confidence)
    && decide (row.confidence ≤ 1) && (tables.events.map (·.eventId)).contains row.lastEventId
    && row.resolutionId.all (· ∈ tables.resolutions)

/-! ## Statements -/

/-- `UPDATE … WHERE`: one row that it may not change fails it. -/
def update (p : SnapshotRow → Bool) (change : SnapshotRow → Option SnapshotRow) :
    List SnapshotRow → Option (List SnapshotRow)
  | [] => some []
  | row :: rows =>
    (if p row then change row else some row).bind fun row' =>
      (update p change rows).map (row' :: ·)

/-- A statement that takes the rows to `next`, where the constraints let it. -/
def statement (reply : Reply) (rows : List SnapshotRow) (next : Option (List SnapshotRow)) :
    List SnapshotRow × Bool :=
  match next with
  | none => (rows, false)
  | some rows' =>
    match reply with
    | .arrived => (rows', true)
    | .refused => (rows, false)
    | .lost => (rows', false)

/-- `SET valid_to = $1 WHERE stream_id = $2 AND valid_to IS NULL AND sequence < $3`. -/
def closeOpen (server : Server) (time : ℤ) (snapshot : SnapshotRecord) (rows : List SnapshotRow) :
    Option (List SnapshotRow) := do
  let stop ← server.timestamptz time snapshot.validFrom
  update (fun row => row.streamId = snapshot.streamId && row.validTo.isNone
      && row.sequence < snapshot.sequence)
    (fun row => do
      let validTo ← checkValidTo row.validFrom (some stop)
      return { row with validTo := validTo })
    rows

/-- The row that `INSERT` is given. -/
def toRow (server : Server) (time : ℤ) (snapshot : SnapshotRecord) : Option SnapshotRow := do
  let validFrom ← server.timestamptz time snapshot.validFrom
  let stop ← match snapshot.validTo with
    | none => some none
    | some text => (server.timestamptz time text).map some
  let validTo ← checkValidTo validFrom stop
  return {
    snapshotId := snapshot.snapshotId
    streamId := snapshot.streamId
    aggregateKind := snapshot.aggregateKind
    aggregateId := snapshot.aggregateId
    sequence := snapshot.sequence
    validFrom := validFrom
    validTo := validTo
    status := snapshot.status
    decision := snapshot.decision
    confidence := snapshot.confidence
    stateHash := snapshot.stateHash
    lastEventId := snapshot.lastEventId
    lastEventHash := snapshot.lastEventHash
    resolutionId := snapshot.resolutionId }

/-- `ON CONFLICT (snapshot_id) DO UPDATE SET …`: the columns it does not set stay. -/
def SnapshotRow.overwrite (excluded row : SnapshotRow) : Option SnapshotRow := do
  let validTo ← checkValidTo row.validFrom (excluded.validTo.map Subtype.val)
  return { row with
    validTo := validTo
    status := excluded.status
    decision := excluded.decision
    confidence := excluded.confidence
    stateHash := excluded.stateHash
    lastEventId := excluded.lastEventId
    lastEventHash := excluded.lastEventHash
    resolutionId := excluded.resolutionId }

def upsert (server : Server) (time : ℤ) (snapshot : SnapshotRecord) (tables : Tables) :
    Option (List SnapshotRow) := do
  let excluded ← toRow server time snapshot
  if acceptsSnapshot tables excluded then
    if tables.snapshots.any (·.snapshotId = excluded.snapshotId) then
      update (·.snapshotId = excluded.snapshotId) excluded.overwrite tables.snapshots
    else some (tables.snapshots ++ [excluded])
  else none

/-- Also whether it returns. -/
def writeSnapshot (server : Server) (commands : Commands) (tables : Tables)
    (snapshot : SnapshotRecord) : List SnapshotRow × Bool :=
  match statement commands.updating tables.snapshots
      (closeOpen server commands.updatedAt snapshot tables.snapshots) with
  | (rows, false) => (rows, false)
  | (rows, true) =>
    statement commands.upserting rows
      (upsert server commands.upsertedAt snapshot { tables with snapshots := rows })

/-! ## Calls -/

/-- `appendEvent` by itself, where the reply to a command is given by its phase. -/
def runWith {S A : Type} (appending : Appending S A) (env : Env) (reply : A → Reply) :
    ℕ → S → A → S × Option EventRecord
  | 0, s, _ => (s, none)
  | n + 1, s, a =>
    match appending.advance ⟨env, reply a⟩ s a with
    | some (s', .going a') => runWith appending env reply n s' a'
    | some (s', .done event) => (s', some event)
    | some (s', .failed) => (s', none)
    | none => (s, none)

section Calls

variable (platform : Platform) (server : Server)

/-- A command that the constraints forbid is refused. -/
def Commands.reply (commands : Commands) (tables : Tables) : Phase → Reply
  | .connecting _ => commands.connecting
  | .selecting _ input =>
    if isText (appendStreamId platform input) then commands.selecting else .refused
  | .locking _ _ _ => commands.locking
  | .inserting _ event =>
    if acceptsEvent server tables commands.insertedAt event then commands.inserting else .refused
  | .committing _ _ => commands.committing

def append (env : Env) (commands : Commands) (tables : Tables) (input : EventInput) :
    List EventRecord × Option EventRecord :=
  let r := runWith (appendEvent platform) env (commands.reply platform server tables) 5
    ⟨tables.events, [], [], 0⟩ ((appendEvent platform).begin input)
  (r.1.rows, r.2)

/-- The tables after a call, and what it returns if it does not throw. -/
def recordEvent (env : Env) (commands : Commands) (tables : Tables) (input : EventInput) :
    Tables × Option EventRecord :=
  match append platform server env commands tables input with
  | (events, none) => ({ tables with events := events }, none)
  | (events, some event) =>
    let appended := { tables with events := events }
    let written := writeSnapshot server commands appended
      (createAddressResolutionLedgerSnapshot platform event)
    ({ appended with snapshots := written.1 }, if written.2 then some event else none)

/-- Both the event and its snapshot are stored, or the call throws and stores nothing. -/
def RecordsAtomically (env : Env) (commands : Commands) (tables : Tables) (input : EventInput) :
    Prop :=
  let r := recordEvent platform server env commands tables input
  (∃ event row, r.1.events = tables.events ++ [event] ∧ row ∈ r.1.snapshots
      ∧ toRow server commands.upsertedAt (createAddressResolutionLedgerSnapshot platform event)
        = some row)
    ∨ (r.1 = tables ∧ r.2 = none)

/-- The transaction of the append commits this event. -/
structure Commits (env : Env) (commands : Commands) (tables : Tables) (input : EventInput)
    (event : EventRecord) : Prop where
  connected : commands.connecting = .arrived
  selected : isText (appendStreamId platform input) ∧ commands.selecting = .arrived
  locked : lastRow tables.events (appendStreamId platform input) ≠ none →
    commands.locking = .arrived
  created : recordAfter platform ⟨env, .arrived⟩ input
    (lastRow tables.events (appendStreamId platform input)) = .ok event
  accepted : acceptsEvent server tables commands.insertedAt event
  unique : ¬ tables.events.any (clashes event)
  inserted : commands.inserting = .arrived
  committed : commands.committing ≠ .refused

/-- What `ON CONFLICT` leaves as it is. -/
def SnapshotRow.SameStart (row other : SnapshotRow) : Prop :=
  row.streamId = other.streamId ∧ row.aggregateKind = other.aggregateKind
    ∧ row.aggregateId = other.aggregateId ∧ row.sequence = other.sequence
    ∧ row.validFrom = other.validFrom

/-- The two statements after the commit go through: each open snapshot before the event's starts
before it, and no snapshot of another start is under the id of the event's. -/
structure SnapshotFits (commands : Commands) (tables : Tables) (event : EventRecord) : Prop where
  committed : commands.committing = .arrived
  updated : commands.updating = .arrived
  upserted : commands.upserting ≠ .refused
  later : ∃ stop, server.timestamptz commands.updatedAt event.occurredAt = some stop
    ∧ ∀ row ∈ tables.snapshots, row.streamId = event.streamId → row.validTo = none →
      row.sequence < event.sequence → row.validFrom < stop
  own : ∃ row, toRow server commands.upsertedAt
      (createAddressResolutionLedgerSnapshot platform event) = some row
    ∧ ((∀ other ∈ tables.snapshots, other.snapshotId ≠ row.snapshotId)
      ∨ ∃ other ∈ tables.snapshots, other.snapshotId = row.snapshotId ∧ other.SameStart row)

end Calls

end Agid.ResolutionLedger.Postgres
