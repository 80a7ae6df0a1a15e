import Agid.LedgerEvents
import Agid.LedgerSnapshots
import Agid.Lib.Rows

/-!
# The entries of the resolution ledger

`writeEntry` and `getResolution` of the five stores of `src/server/addressResolutionLedgerStore.ts`,
and the runs of `recordResolution` one after another, every command done and replied to.  The
privacy flags of the rows are left out, and so are the counters of Redis.
-/

namespace Agid.ResolutionLedger

/-! ## Memory -/

namespace InMemory

structure Entries where
  resolutions : Record JsString ResolutionRecord
  commitments : Record JsString CommitmentRecord
  evidence : Record JsString EvidenceRecord
  steps : Record JsString StepRecord
  nullifiers : Record JsString NullifierRecord

def noEntries : Entries := ⟨.empty, .empty, .empty, .empty, .empty⟩

def getResolution (s : Entries) (resolutionId : JsString) : Option Entry :=
  (s.resolutions.get? resolutionId).map fun resolution => {
    resolution := resolution
    commitments := s.commitments.values.filter (·.resolutionId = resolutionId)
    evidence := s.evidence.values.filter (·.resolutionId = resolutionId)
    steps := s.steps.values.filter (·.resolutionId = resolutionId)
    nullifiers := s.nullifiers.values.filter (·.resolutionId = resolutionId) }

def writeEntry (s : Entries) (entry : Entry) : Entries where
  resolutions := s.resolutions.set entry.resolution.resolutionId entry.resolution
  commitments := entry.commitments.foldl (fun r item => r.set item.commitmentId item) s.commitments
  evidence := entry.evidence.foldl (fun r item => r.set item.evidenceId item) s.evidence
  steps := entry.steps.foldl (fun r item => r.set item.stepId item) s.steps
  nullifiers := entry.nullifiers.foldl (fun r item => r.set item.nullifierHash item) s.nullifiers

end InMemory

/-! ## Tables -/

structure Tables where
  resolutions : List ResolutionRecord
  commitments : List CommitmentRecord
  evidence : List EvidenceRecord
  steps : List StepRecord
  nullifiers : List NullifierRecord

def Tables.empty : Tables := ⟨[], [], [], [], []⟩

/-- `DELETE FROM … WHERE resolution_id = ?` of the tables of an entry's parts. -/
def Tables.without (t : Tables) (resolutionId : JsString) : Tables :=
  { t with
    commitments := t.commitments.filter (·.resolutionId ≠ resolutionId)
    evidence := t.evidence.filter (·.resolutionId ≠ resolutionId)
    steps := t.steps.filter (·.resolutionId ≠ resolutionId)
    nullifiers := t.nullifiers.filter (·.resolutionId ≠ resolutionId) }

/-- How a table's rows are read. -/
structure RowReaders where
  resolution : ResolutionRecord → ResolutionRecord
  commitment : CommitmentRecord → CommitmentRecord
  evidence : EvidenceRecord → EvidenceRecord
  step : StepRecord → StepRecord
  nullifier : NullifierRecord → NullifierRecord

/-- The rows of a resolution, in the order of a time. -/
def rowsOf {α : Type} (resolutionId : α → JsString) (time : α → JsString) (rows : List α)
    (id : JsString) : List α :=
  (rows.filter (resolutionId · = id)).insertionSort fun a b =>
    codePoints (time a) ≤ codePoints (time b)

def Tables.getResolution (readers : RowReaders) (t : Tables) (resolutionId : JsString) :
    Option Entry :=
  (t.resolutions.find? (·.resolutionId = resolutionId)).map fun resolution => {
    resolution := readers.resolution resolution
    commitments := (rowsOf (·.resolutionId) (·.createdAt) t.commitments resolutionId).map
      readers.commitment
    evidence := (rowsOf (·.resolutionId) (·.observedAt) t.evidence resolutionId).map
      readers.evidence
    steps := (rowsOf (·.resolutionId) (·.completedAt) t.steps resolutionId).map readers.step
    nullifiers := (rowsOf (·.resolutionId) (·.usedAt) t.nullifiers resolutionId).map
      readers.nullifier }

/-- `UNIQUE(commitment_hash, scope, commitment_kind)`. -/
def sameCommitment (item row : CommitmentRecord) : Bool :=
  row.commitmentHash = item.commitmentHash && row.scope = item.scope
    && row.commitmentKind = item.commitmentKind

/-- The primary key of a nullifier. -/
def sameNullifier (item row : NullifierRecord) : Bool := row.nullifierHash = item.nullifierHash

/-- What is falsy is not read back. -/
def rowToStep (row : StepRecord) : StepRecord :=
  { row with
    inputCommitment := row.inputCommitment.bind nonEmpty
    outputCommitment := row.outputCommitment.bind nonEmpty }

def rowToResolution (row : ResolutionRecord) : ResolutionRecord :=
  { row with languageTag := row.languageTag.bind nonEmpty }

def rowToNullifier (row : NullifierRecord) : NullifierRecord :=
  { row with expiresAt := row.expiresAt.bind nonEmpty }

namespace Sqlite

/-- A `NaN` is bound as `NULL`. -/
def rowToEvidence (row : EvidenceRecord) : EvidenceRecord :=
  { row with confidence := row.confidence.bind fun
      | .nan => none
      | c => some c }

def readers : RowReaders := ⟨rowToResolution, id, rowToEvidence, rowToStep, rowToNullifier⟩

/-- The constraints that `INSERT OR IGNORE` checks: the primary key too. -/
def clashingCommitment (item row : CommitmentRecord) : Bool :=
  row.commitmentId = item.commitmentId || sameCommitment item row

def writeEntry (t : Tables) (entry : Entry) : Tables :=
  let t := t.without entry.resolution.resolutionId
  { resolutions := Rows.replace (·.resolutionId) t.resolutions entry.resolution
    commitments := entry.commitments.foldl (Rows.ignore clashingCommitment) t.commitments
    evidence := entry.evidence.foldl (Rows.replace (·.evidenceId)) t.evidence
    steps := entry.steps.foldl (Rows.replace (·.stepId)) t.steps
    nullifiers := entry.nullifiers.foldl (Rows.ignore sameNullifier) t.nullifiers }

end Sqlite

namespace Postgres

/-- What the types and the checks of the columns do: whether they take an entry's values, and how
a time, and a `NUMERIC(5,4)`, is read back. -/
structure Columns where
  accepts : Entry → Bool
  timestamp : JsString → JsString
  numeric : JsNumber → JsNumber

def readers (columns : Columns) : RowReaders where
  resolution row := { rowToResolution row with createdAt := columns.timestamp row.createdAt }
  commitment row := { row with createdAt := columns.timestamp row.createdAt }
  evidence row := { row with
    confidence := row.confidence.map columns.numeric
    observedAt := columns.timestamp row.observedAt }
  step row := { rowToStep row with completedAt := columns.timestamp row.completedAt }
  nullifier row := { row with
    usedAt := columns.timestamp row.usedAt
    expiresAt := row.expiresAt.map columns.timestamp }

/-- A conflict on the primary key alone is an error. -/
def insertCommitment (rows : List CommitmentRecord) (item : CommitmentRecord) :
    Option (List CommitmentRecord) :=
  if rows.any (sameCommitment item) then some rows
  else if rows.any (·.commitmentId = item.commitmentId) then none
  else some (rows ++ [item])

/-- `ON CONFLICT … DO UPDATE`, which leaves the row its resolution. -/
def upsertRow {α : Type} (key : α → JsString) (update : α → α → α) (rows : List α) (item : α) :
    List α :=
  if rows.any (key · = key item) then
    rows.map fun row => if key row = key item then update row item else row
  else rows ++ [item]

/-- Where a command fails the transaction is rolled back. -/
def writeEntry (columns : Columns) (t : Tables) (entry : Entry) : Option Tables :=
  let t := t.without entry.resolution.resolutionId
  if columns.accepts entry then
    (entry.commitments.foldlM insertCommitment t.commitments).map fun commitments =>
      { resolutions := Rows.replace (·.resolutionId) t.resolutions entry.resolution
        commitments := commitments
        evidence := entry.evidence.foldl (upsertRow (·.evidenceId) fun row item =>
          { item with resolutionId := row.resolutionId }) t.evidence
        steps := entry.steps.foldl (upsertRow (·.stepId) fun row item =>
          { item with resolutionId := row.resolutionId }) t.steps
        nullifiers := entry.nullifiers.foldl (Rows.ignore sameNullifier) t.nullifiers }
  else none

end Postgres

namespace Redis

/-- A number that is not finite is `null` in JSON. -/
def parsed (entry : Entry) : Entry :=
  { entry with evidence := entry.evidence.map fun item =>
      { item with confidence := item.confidence.bind fun
          | .finite q => some (.finite q)
          | _ => none } }

def getResolution (s : Record JsString Entry) (resolutionId : JsString) : Option Entry :=
  (s.get? resolutionId).map parsed

def writeEntry (s : Record JsString Entry) (entry : Entry) : Record JsString Entry :=
  s.set entry.resolution.resolutionId entry

end Redis

namespace MongoDb

def readers : RowReaders := ⟨rowToResolution, id, id, rowToStep, rowToNullifier⟩

/-- `$setOnInsert` by the commitment, and by the nullifier. -/
def writeEntry (t : Tables) (entry : Entry) : Tables :=
  let t := t.without entry.resolution.resolutionId
  { resolutions := Rows.replace (·.resolutionId) t.resolutions entry.resolution
    commitments := entry.commitments.foldl (Rows.ignore sameCommitment) t.commitments
    evidence := entry.evidence.foldl (Rows.replace (·.evidenceId)) t.evidence
    steps := entry.steps.foldl (Rows.replace (·.stepId)) t.steps
    nullifiers := entry.nullifiers.foldl (Rows.ignore sameNullifier) t.nullifiers }

end MongoDb

/-! ## Runs -/

/-- A store's entries; where `writeEntry` throws nothing is written. -/
structure EntryStore where
  Entries : Type
  noEntries : Entries
  writeEntry : Entries → Entry → Option Entries
  getResolution : Entries → JsString → Option Entry

def InMemory.entryStore : EntryStore :=
  ⟨Entries, noEntries, fun s entry => some (writeEntry s entry), getResolution⟩

def Sqlite.entryStore : EntryStore :=
  ⟨Tables, .empty, fun t entry => some (writeEntry t entry), Tables.getResolution readers⟩

def Postgres.entryStore (columns : Columns) : EntryStore :=
  ⟨Tables, .empty, writeEntry columns, Tables.getResolution (readers columns)⟩

def Redis.entryStore : EntryStore :=
  ⟨Record JsString Entry, .empty, fun s entry => some (writeEntry s entry), getResolution⟩

def MongoDb.entryStore : EntryStore :=
  ⟨Tables, .empty, fun t entry => some (writeEntry t entry), Tables.getResolution readers⟩

def entryStore (columns : Postgres.Columns) : StorageMode → EntryStore
  | .memory => InMemory.entryStore
  | .sqlite => Sqlite.entryStore
  | .postgres => Postgres.entryStore columns
  | .redis => Redis.entryStore
  | .mongodb => MongoDb.entryStore

/-- A call of `recordResolution`, with what its `recordEvent` and `getSnapshot` come to: they are
about other tables, and may throw. -/
structure RecordCall where
  env : Env
  result : ResolutionResult
  options : RecordOptions
  appended : Option (EventRecord × SnapshotRecord)

section Runs

variable (platform : Platform)

def RecordCall.entry (call : RecordCall) : Entry :=
  createAddressResolutionLedgerEntry platform call.env call.result call.options

namespace EntryStore

variable (store : EntryStore)

def recordResolution (s : store.Entries) (call : RecordCall) : store.Entries × Option WriteReceipt :=
  let entry := call.entry platform
  match store.writeEntry s entry with
  | none => (s, none)
  | some s' => (s', call.appended.map fun (event, snapshot) =>
      writeReceipt platform call.env entry event snapshot)

def run (calls : List RecordCall) : store.Entries :=
  calls.foldl (fun s call => (store.recordResolution platform s call).1) store.noEntries

/-- The nullifier is one of those that `getResolution` answers for the resolution. -/
def Recorded (s : store.Entries) (resolutionId nullifier : JsString) : Prop :=
  ∃ entry, store.getResolution s resolutionId = some entry
    ∧ nullifier ∈ entry.nullifiers.map (·.nullifierHash)

instance (s : store.Entries) (resolutionId nullifier : JsString) :
    Decidable (store.Recorded s resolutionId nullifier) :=
  decidable_of_iff ((store.getResolution s resolutionId).any fun entry =>
    decide (nullifier ∈ entry.nullifiers.map (·.nullifierHash)))
    (by simp only [Option.any_eq_true, decide_eq_true_eq]; rfl)

/-- A nullifier stays with the resolution it is recorded for, and no receipt for another one counts
it. -/
structure NullifiersStay (calls : List RecordCall) : Prop where
  stay : ∀ i j, i ≤ j → ∀ resolutionId nullifier,
    store.Recorded (store.run platform (calls.take i)) resolutionId nullifier →
      store.Recorded (store.run platform (calls.take j)) resolutionId nullifier
  uncounted : ∀ i k call, i ≤ k → calls[k]? = some call → ∀ resolutionId,
    store.Recorded (store.run platform (calls.take i)) resolutionId
      (clean platform call.options.nullifierHash) →
    resolutionId ≠ call.result.resolutionId → ∀ receipt,
      (store.recordResolution platform (store.run platform (calls.take k)) call).2 = some receipt →
        receipt.nullifierCount = 0

end EntryStore

/-- Where the write is done: a nullifier recorded for another resolution comes to no receipt, and
not to memory, which gives it to the new resolution; and a resolution recorded again comes with the
nullifiers it has, which the other stores delete. -/
def KeepsNullifiers (columns : Postgres.Columns) (mode : StorageMode)
    (s : (entryStore columns mode).Entries) (call : RecordCall) : Prop :=
  let recorded := (entryStore columns mode).Recorded s
  let nullifier := clean platform call.options.nullifierHash
  (entryStore columns mode).writeEntry s (call.entry platform) ≠ none →
    (∀ resolutionId, resolutionId ≠ call.result.resolutionId → recorded resolutionId nullifier →
        mode ≠ .memory ∧ call.appended = none)
      ∧ (mode ≠ .memory → ∀ other, recorded call.result.resolutionId other → other = nullifier)

/-! ## Memory and SQLite -/

/-- The same parts, in some order. -/
structure SameParts (a b : Entry) : Prop where
  commitments : ∀ row, row ∈ b.commitments ↔ row ∈ a.commitments
  evidence : ∀ row, row ∈ b.evidence ↔ row ∈ a.evidence
  steps : ∀ row, row ∈ b.steps ↔ row ∈ a.steps
  nullifiers : ∀ row, row ∈ b.nullifiers ↔ row ∈ a.nullifiers

/-- After each of the calls, the memory and the SQLite store answer the same parts for every
resolution. -/
def Interchangeable (calls : List RecordCall) : Prop :=
  ∀ k resolutionId, Option.Rel SameParts
    (InMemory.getResolution (InMemory.entryStore.run platform (calls.take k)) resolutionId)
    (Tables.getResolution Sqlite.readers (Sqlite.entryStore.run platform (calls.take k))
      resolutionId)

/-- An entry that memory and SQLite, which keep the same before, write the same. -/
structure WritesSame (s : InMemory.Entries) (entry : Entry) : Prop where
  commitmentIds : (entry.commitments.map (·.commitmentId)).Nodup
  commitmentsFree : ∀ item ∈ entry.commitments, ∀ row ∈ s.commitments.values,
    row.resolutionId ≠ entry.resolution.resolutionId →
      Sqlite.clashingCommitment item row = false
  commitmentsAgain : ∀ row ∈ s.commitments.values,
    row.resolutionId = entry.resolution.resolutionId →
      row.commitmentId ∈ entry.commitments.map (·.commitmentId)
  evidenceRead : ∀ item ∈ entry.evidence, Sqlite.rowToEvidence item = item
  evidenceAgain : ∀ row ∈ s.evidence.values,
    row.resolutionId = entry.resolution.resolutionId →
      row.evidenceId ∈ entry.evidence.map (·.evidenceId)
  stepsRead : ∀ item ∈ entry.steps, rowToStep item = item
  nullifiersFree : ∀ item ∈ entry.nullifiers, ∀ row ∈ s.nullifiers.values,
    row.resolutionId ≠ entry.resolution.resolutionId → sameNullifier item row = false
  nullifiersAgain : ∀ row ∈ s.nullifiers.values,
    row.resolutionId = entry.resolution.resolutionId →
      row.nullifierHash ∈ entry.nullifiers.map (·.nullifierHash)

/-- No two parts of a kind have one id. -/
structure DistinctIds (entry : Entry) : Prop where
  commitments : (entry.commitments.map (·.commitmentId)).Nodup
  evidence : (entry.evidence.map (·.evidenceId)).Nodup
  steps : (entry.steps.map (·.stepId)).Nodup

end Runs

end Agid.ResolutionLedger
