import Agid.LedgerEvents
import Agid.Lib.Timeline

/-!
# The temporal snapshots of a stream

`writeSnapshot` and `getSnapshot` of the memory and the SQLite store of
`src/server/addressResolutionLedgerStore.ts`, and the runs of `recordEvent` one after another.
Memory compares the texts of times by code units, and SQLite by the bytes of their UTF-8, which is
by code points.
-/

namespace Agid.ResolutionLedger

/-- `appendEvent` by itself, each command replied to. -/
def Appending.run {S A : Type} (appending : Appending S A) (env : Env) :
    ℕ → S → A → S × Option EventRecord
  | 0, s, _ => (s, none)
  | n + 1, s, a =>
    match appending.advance ⟨env, .arrived⟩ s a with
    | some (s', .going a') => appending.run env n s' a'
    | some (s', .done event) => (s', some event)
    | some (s', .failed) => (s', none)
    | none => (s, none)

/-- A store of events and their snapshots, with the number of commands an append takes. -/
structure TemporalStore where
  Events : Type
  Phase : Type
  Snapshots : Type
  noEvents : Events
  noSnapshots : Snapshots
  appendEvent : Appending Events Phase
  commands : ℕ
  writeSnapshot : Snapshots → SnapshotRecord → Snapshots
  getSnapshot : Snapshots → JsString → Option JsString → Option SnapshotRecord
  stored : Snapshots → JsString → List SnapshotRecord

/-! ## Memory -/

namespace InMemory

/-- `!validTo`. -/
def isOpen (snapshot : SnapshotRecord) : Bool := (snapshot.validTo.bind nonEmpty).isNone

/-- The last snapshot of the array, where it is open, ends at `validFrom`. -/
def closeLast (validFrom : JsString) : List SnapshotRecord → List SnapshotRecord
  | [] => []
  | [previous] => [if isOpen previous then { previous with validTo := some validFrom } else previous]
  | snapshot :: snapshots => snapshot :: closeLast validFrom snapshots

abbrev Snapshots := Record JsString (List SnapshotRecord)

def stored (snapshots : Snapshots) (streamId : JsString) : List SnapshotRecord :=
  (snapshots.get? streamId).getD []

def writeSnapshot (snapshots : Snapshots) (snapshot : SnapshotRecord) : Snapshots :=
  snapshots.set snapshot.streamId
    (closeLast snapshot.validFrom (stored snapshots snapshot.streamId) ++ [snapshot])

def getSnapshot (platform : Platform) (snapshots : Snapshots) (streamId : JsString)
    (at_ : Option JsString) : Option SnapshotRecord :=
  let timestamp := clean platform at_
  if timestamp = [] then (stored snapshots streamId).getLast?
  else
    (((stored snapshots streamId).filter fun item => item.validFrom ≤ timestamp
      && (isOpen item || item.validTo.any (timestamp < ·))).mergeSort
        fun a b => b.sequence ≤ a.sequence).head?

def temporal (platform : Platform) : TemporalStore where
  Events := KeyedEvents
  Phase := EventInput
  Snapshots := Snapshots
  noEvents := .empty
  noSnapshots := .empty
  appendEvent := appendEvent platform
  commands := 1
  writeSnapshot := writeSnapshot
  getSnapshot := getSnapshot platform
  stored := stored

end InMemory

/-! ## SQLite -/

/-- The code points of a text. -/
def codePoints : JsString → List ℕ
  | [] => []
  | [c] => [c.val]
  | c :: d :: s =>
    if 55296 ≤ c.val ∧ c.val < 56320 ∧ 56320 ≤ d.val ∧ d.val < 57344 then
      (65536 + (c.val - 55296) * 1024 + (d.val - 56320)) :: codePoints s
    else c.val :: codePoints (d :: s)

namespace Sqlite

/-- `UPDATE … SET valid_to = ? WHERE … valid_to IS NULL`, then `INSERT OR REPLACE`. -/
def writeSnapshot (rows : List SnapshotRecord) (snapshot : SnapshotRecord) : List SnapshotRecord :=
  let updated := rows.map fun row =>
    if row.streamId = snapshot.streamId ∧ row.validTo = none ∧ row.sequence < snapshot.sequence then
      { row with validTo := some snapshot.validFrom }
    else row
  updated.filter (·.snapshotId ≠ snapshot.snapshotId) ++ [snapshot]

def rowToSnapshot (row : SnapshotRecord) : SnapshotRecord :=
  { row with
    validTo := row.validTo.bind nonEmpty
    resolutionId := row.resolutionId.bind nonEmpty }

def getSnapshot (platform : Platform) (rows : List SnapshotRecord) (streamId : JsString)
    (at_ : Option JsString) : Option SnapshotRecord :=
  let timestamp := clean platform at_
  let found := if timestamp = [] then rows.filter (·.streamId = streamId)
    else rows.filter fun row => row.streamId = streamId
      && codePoints row.validFrom ≤ codePoints timestamp
      && row.validTo.all (codePoints timestamp < codePoints ·)
  (found.mergeSort fun a b => b.sequence ≤ a.sequence).head?.map rowToSnapshot

def temporal (platform : Platform) : TemporalStore where
  Events := List EventRecord
  Phase := Phase
  Snapshots := List SnapshotRecord
  noEvents := []
  noSnapshots := []
  appendEvent := appendEvent platform
  commands := 2
  writeSnapshot := writeSnapshot
  getSnapshot := getSnapshot platform
  stored rows streamId := (rows.filter (·.streamId = streamId)).map rowToSnapshot

end Sqlite

/-! ## Runs -/

namespace TemporalStore

variable (store : TemporalStore) (platform : Platform)

/-- The events and snapshots of a store, and the events that calls have returned. -/
structure State where
  events : store.Events
  snapshots : store.Snapshots
  recorded : List EventRecord

def recordEvent (s : store.State) (call : Env × EventInput) : store.State :=
  match store.appendEvent.run call.1 store.commands s.events
      (store.appendEvent.begin call.2) with
  | (events, none) => { s with events := events }
  | (events, some event) =>
    let snapshot := createAddressResolutionLedgerSnapshot platform event
    ⟨events, store.writeSnapshot s.snapshots snapshot, s.recorded ++ [event]⟩

def run (calls : List (Env × EventInput)) : store.State :=
  calls.foldl (store.recordEvent platform) ⟨store.noEvents, store.noSnapshots, []⟩

end TemporalStore

section Property

variable {κ : Type} [LinearOrder κ] (platform : Platform) (key : JsString → κ)

/-- The snapshot holds at a time. -/
def SnapshotRecord.Covers (snapshot : SnapshotRecord) (t : JsString) : Prop :=
  key snapshot.validFrom ≤ key t ∧ ∀ stop, snapshot.validTo = some stop → key t < key stop

/-- Of the events by a time, the one with the greatest time and then sequence. -/
def Latest (events : List EventRecord) (event : EventRecord) (t : JsString) : Prop :=
  key event.occurredAt ≤ key t ∧ ∀ other ∈ events, key other.occurredAt ≤ key t →
    key other.occurredAt < key event.occurredAt
      ∨ (key other.occurredAt = key event.occurredAt ∧ other.sequence ≤ event.sequence)

/-- The snapshots part the time from the first event on, and a query finds the latest event. -/
structure TellsTime (events : List EventRecord) (snapshots : List SnapshotRecord)
    (getSnapshot : Option JsString → Option SnapshotRecord) : Prop where
  nonempty : ∀ snapshot ∈ snapshots, ∃ t, snapshot.Covers key t
  disjoint : snapshots.Pairwise fun a b => ∀ t, a.Covers key t → ¬ b.Covers key t
  covers : ∀ event ∈ events, ∀ t, key event.occurredAt ≤ key t →
    ∃ snapshot ∈ snapshots, snapshot.Covers key t
  oneOpen : events ≠ [] → (snapshots.filter (·.validTo.isNone)).length = 1
  finds : ∀ at_, clean platform at_ ≠ [] → ∀ event ∈ events,
    Latest key events event (clean platform at_) →
      ∃ snapshot ∈ snapshots, getSnapshot at_ = some snapshot
        ∧ { snapshot with validTo := none } = createAddressResolutionLedgerSnapshot platform event
  findsNone : ∀ at_, clean platform at_ ≠ [] →
    (∀ event ∈ events, ¬ key event.occurredAt ≤ key (clean platform at_)) → getSnapshot at_ = none

/-- The stream's part of a run tells the time. -/
def TemporalStore.TellsTime (store : TemporalStore) (calls : List (Env × EventInput))
    (streamId : JsString) : Prop :=
  let s := store.run platform calls
  ResolutionLedger.TellsTime platform key (s.recorded.filter (·.streamId = streamId))
    (store.stored s.snapshots streamId) (store.getSnapshot s.snapshots streamId)

/-- Each event of the stream is later than the ones before. -/
def TemporalStore.InOrder (store : TemporalStore) (calls : List (Env × EventInput))
    (streamId : JsString) : Prop :=
  ((store.run platform calls).recorded.filter (·.streamId = streamId)).Pairwise
    fun a b => key a.occurredAt < key b.occurredAt

end Property

end Agid.ResolutionLedger
