import Agid.SecurePos
import Agid.Lib.Record

/-!
# The offline usage ledger of a POS terminal

`src/lib/posOfflineUsageLedger.ts`.  A record that is read back is what its JSON holds, a field of
another kind reading as none.  The flags that are the same in every entry are left out.
-/

namespace Agid.PosLedger

open AddressOfflineCrdt (isLineBreak space)

inductive SyncStatus where
  | pendingSync
  | synced
  | auditRequired
deriving DecidableEq

structure Entry where
  id : JsString
  nullifier : JsString
  receiptId : JsString
  waybillAlias : Option JsString
  waybillCommitment : Option JsString
  addressReferenceCommitment : Option JsString
  jtiTail : Option JsString
  terminalId : JsString
  operatorId : Option JsString
  createdAt : JsString
  updatedAt : JsString
  syncStatus : SyncStatus
  conflictReason : Option JsString
  conflictingReceiptId : Option JsString
  conflictDetectedAt : Option JsString
  serverEventId : Option JsString

structure RawEntry where
  id : Option JsString
  nullifier : Option JsString
  receiptId : Option JsString
  waybillAlias : Option JsString
  waybillCommitment : Option JsString
  addressReferenceCommitment : Option JsString
  jtiTail : Option JsString
  terminalId : Option JsString
  operatorId : Option JsString
  createdAt : Option JsString
  updatedAt : Option JsString
  syncStatus : Option SyncStatus
  conflictReason : Option JsString
  conflictingReceiptId : Option JsString
  conflictDetectedAt : Option JsString
  serverEventId : Option JsString

structure SyncItem where
  nullifier : JsString
  receiptId : JsString
  terminalId : JsString
  operatorId : Option JsString
  waybillAlias : Option JsString
  waybillCommitment : Option JsString
  addressReferenceCommitment : Option JsString
  jtiTail : Option JsString
  createdAt : JsString

inductive SyncOutcome where
  | accepted
  | conflict
  | rejected
deriving DecidableEq

structure SyncEvent where
  eventId : JsString
  createdAt : JsString
  nullifier : JsString
  nullifierTail : JsString
  receiptId : Option JsString
  terminalId : Option JsString
  operatorId : Option JsString
  outcome : SyncOutcome
  errors : List JsString
  auditRequired : Bool

structure SyncResult where
  accepted : ℕ
  rejected : ℕ
  conflicts : ℕ
  auditRequired : ℕ
  events : List SyncEvent

/-- What a receipt says of a scanned label. -/
structure ShippingLabelEvidence where
  recipientScan : Bool
  recipientControlVerified : Bool
  nullifier : JsString
  waybillId : JsString
  waybillCommitment : Option JsString
  addressReferenceCommitment : Option JsString
  jti : JsString

/-- A receipt as `createPosAcceptanceReceipt` makes it, whose id is a hash of its seed. -/
structure Receipt where
  hashSeed : JsString
  accepted : Bool
  terminalId : JsString
  operatorId : Option JsString
  createdAt : JsString
  shippingLabel : Option ShippingLabelEvidence

structure RecordResult where
  entries : List Entry
  entry : Option Entry
  recorded : Bool
  conflict : Bool
  auditRequired : Bool
  warnings : List JsString

/-- What the ledger takes from the platform: `digest` is the first 24 digits, in upper case, of the
SHA-256 of the JSON of an object with these values. -/
structure Platform where
  toUpperCase : JsString → JsString
  dates : Dates
  digest : List JsString → JsString
  toUpperCase_of_upper : ∀ s : JsString,
    (∀ c ∈ s, c.val < 128 ∧ ¬ (97 ≤ c.val ∧ c.val ≤ 122)) → toUpperCase s = s

/-- `stableReceiptHash` of `src/lib/posAcceptance.ts`. -/
def stableReceiptHash (value : JsString) : JsString :=
  let digits := base36 (stableHash value)
  List.replicate (7 - digits.length) 48 ++ digits

def Receipt.receiptId (receipt : Receipt) : JsString :=
  js "POS-" ++ stableReceiptHash receipt.hashSeed

/-- `[0-9A-F]`. -/
def isUpperHexDigit (c : CodeUnit) : Bool :=
  (48 ≤ c.val && c.val ≤ 57) || (65 ≤ c.val && c.val ≤ 70)

/-- `/^SLN-[0-9A-F]{16,64}$/`. -/
def matchesNullifier (s : JsString) : Bool :=
  (js "SLN-").isPrefixOf s && (s.drop 4).all isUpperHexDigit && 20 ≤ s.length && s.length ≤ 68

def cleanText (value : Option JsString) : JsString := trim (value.getD [])

def boundedText (value : Option JsString) (maxLength : ℕ) : JsString :=
  (replaceRuns isLineBreak space false (cleanText value)).take maxLength

def nullifierTail (nullifier : JsString) : JsString := nullifier.drop (nullifier.length - 10)

def bounded (value : Option JsString) (maxLength : ℕ) : Option JsString :=
  nonEmpty (boundedText value maxLength)

/-- `JSON.parse(JSON.stringify(entry))`. -/
def Entry.raw (entry : Entry) : RawEntry where
  id := some entry.id
  nullifier := some entry.nullifier
  receiptId := some entry.receiptId
  waybillAlias := entry.waybillAlias
  waybillCommitment := entry.waybillCommitment
  addressReferenceCommitment := entry.addressReferenceCommitment
  jtiTail := entry.jtiTail
  terminalId := some entry.terminalId
  operatorId := entry.operatorId
  createdAt := some entry.createdAt
  updatedAt := some entry.updatedAt
  syncStatus := some entry.syncStatus
  conflictReason := entry.conflictReason
  conflictingReceiptId := entry.conflictingReceiptId
  conflictDetectedAt := entry.conflictDetectedAt
  serverEventId := entry.serverEventId

section Platform

variable (platform : Platform)

def cleanNullifier (value : Option JsString) : JsString :=
  let cleaned := platform.toUpperCase (cleanText value)
  if matchesNullifier cleaned then cleaned else []

def cleanIsoTimestamp (value : Option JsString) (fallback : JsString) : JsString :=
  let cleaned := cleanText value
  if cleaned = [] then fallback
  else
    match platform.dates.parse cleaned with
    | some t => platform.dates.toISOString t
    | none => fallback

def stableId (name : String) (values : List JsString) : JsString :=
  js name ++ js "-" ++ platform.digest values

/-- One record of the loop of `normalizePosOfflineUsageEntries`. -/
def readEntry (value : RawEntry) : Option Entry :=
  let nullifier := cleanNullifier platform value.nullifier
  let receiptId := boundedText value.receiptId 80
  let terminalId := (bounded value.terminalId 80).getD (js "AGID-POS-LOCAL")
  if nullifier = [] ∨ receiptId = [] then none
  else
    let createdAt := cleanIsoTimestamp platform value.createdAt (platform.dates.toISOString 0)
    some {
      id := (bounded value.id 80).getD (stableId platform "POU" [nullifier, receiptId, terminalId])
      nullifier := nullifier
      receiptId := receiptId
      waybillAlias := bounded value.waybillAlias 80
      waybillCommitment := bounded value.waybillCommitment 96
      addressReferenceCommitment := bounded value.addressReferenceCommitment 96
      jtiTail := bounded value.jtiTail 16
      terminalId := terminalId
      operatorId := bounded value.operatorId 80
      createdAt := createdAt
      updatedAt := cleanIsoTimestamp platform value.updatedAt createdAt
      syncStatus := value.syncStatus.getD .pendingSync
      conflictReason := bounded value.conflictReason 96
      conflictingReceiptId := bounded value.conflictingReceiptId 80
      conflictDetectedAt := (value.conflictDetectedAt.bind nonEmpty).map fun detectedAt =>
        cleanIsoTimestamp platform (some detectedAt) createdAt
      serverEventId := bounded value.serverEventId 80 }

/-- `Date.parse(entry.updatedAt)`, which is a time in every normalized entry. -/
def updatedTime (entry : Entry) : ℤ := (platform.dates.parse entry.updatedAt).getD 0

/-- `byNullifier.set` of a record, unless a later one is there. -/
def addEntry (byNullifier : Record JsString Entry) (value : Option RawEntry) :
    Record JsString Entry :=
  match value.bind (readEntry platform) with
  | none => byNullifier
  | some entry =>
    match byNullifier.get? entry.nullifier with
    | none => byNullifier.set entry.nullifier entry
    | some previous =>
      if updatedTime platform previous ≤ updatedTime platform entry then
        byNullifier.set entry.nullifier entry
      else byNullifier

/-- A record that is no object reads as none. -/
def normalizePosOfflineUsageEntries (records : List (Option RawEntry)) : List Entry :=
  (records.foldl (addEntry platform) .empty).values.mergeSort fun a b =>
    updatedTime platform b ≤ updatedTime platform a

/-- The entries as they are read back. -/
def normalizeEntries (entries : List Entry) : List Entry :=
  normalizePosOfflineUsageEntries platform (entries.map fun entry => some entry.raw)

def createPosOfflineUsageEntryFromReceipt (receipt : Receipt) (now : Option JsString) :
    Option Entry :=
  match receipt.shippingLabel with
  | none => none
  | some label =>
    let nullifier := cleanNullifier platform (some label.nullifier)
    if receipt.accepted ∧ label.recipientScan ∧ label.recipientControlVerified ∧ nullifier ≠ [] then
      let createdAt := cleanIsoTimestamp platform now receipt.createdAt
      some {
        id := stableId platform "POU" [nullifier, receipt.receiptId, receipt.terminalId]
        nullifier := nullifier
        receiptId := receipt.receiptId
        waybillAlias := some label.waybillId
        waybillCommitment := label.waybillCommitment.bind nonEmpty
        addressReferenceCommitment := label.addressReferenceCommitment.bind nonEmpty
        jtiTail := some (label.jti.drop (label.jti.length - 8))
        terminalId := receipt.terminalId
        operatorId := receipt.operatorId.bind nonEmpty
        createdAt := createdAt
        updatedAt := createdAt
        syncStatus := .pendingSync
        conflictReason := none
        conflictingReceiptId := none
        conflictDetectedAt := none
        serverEventId := none }
    else none

def recordPosOfflineUsage (entries : List Entry) (receipt : Receipt) (now : Option JsString) :
    RecordResult :=
  let normalized := normalizeEntries platform entries
  match createPosOfflineUsageEntryFromReceipt platform receipt now with
  | none => ⟨normalized, none, false, false, false,
      [js "receipt-does-not-create-offline-used-nullifier"]⟩
  | some entry =>
    match normalized.findIdx? (·.nullifier = entry.nullifier) with
    | some i =>
      match normalized[i]? with
      | some existing =>
        if existing.receiptId = entry.receiptId then
          ⟨normalized, some existing, false, false, existing.syncStatus = .auditRequired,
            [js "offline-used-nullifier-already-recorded-locally"]⟩
        else
          let updated := { existing with
            syncStatus := .auditRequired
            conflictReason := some (js "local-nullifier-duplicate")
            conflictingReceiptId := some entry.receiptId
            conflictDetectedAt := some (cleanIsoTimestamp platform now entry.createdAt)
            updatedAt := cleanIsoTimestamp platform now entry.createdAt }
          ⟨normalizeEntries platform (normalized.set i updated), some updated, false, true, true,
            [js "offline-used-nullifier-local-conflict-requires-audit"]⟩
      | none => ⟨normalized, none, false, false, false, []⟩
    | none => ⟨normalizeEntries platform (entry :: normalized), some entry, true, false, false, []⟩

def buildPosOfflineUsageSyncItems (entries : List Entry) : List SyncItem :=
  ((normalizeEntries platform entries).filter (·.syncStatus = .pendingSync)).map fun entry => {
    nullifier := entry.nullifier
    receiptId := entry.receiptId
    terminalId := entry.terminalId
    operatorId := entry.operatorId.bind nonEmpty
    waybillAlias := entry.waybillAlias.bind nonEmpty
    waybillCommitment := entry.waybillCommitment.bind nonEmpty
    addressReferenceCommitment := entry.addressReferenceCommitment.bind nonEmpty
    jtiTail := entry.jtiTail.bind nonEmpty
    createdAt := entry.createdAt }

/-- The server's event for an item: `clock` is its time, read where none is given. -/
def buildPosOfflineUsageSyncEvent (item : SyncItem) (outcome : SyncOutcome)
    (errors : List JsString) (now : Option JsString) (clock : ℤ) : SyncEvent :=
  let now := cleanIsoTimestamp platform now (platform.dates.toISOString clock)
  let nullifier := cleanNullifier platform (some item.nullifier)
  let outcomeText := match outcome with
    | .accepted => js "accepted"
    | .conflict => js "conflict"
    | .rejected => js "rejected"
  { eventId := stableId platform "POUSE" [nullifier, item.receiptId, outcomeText, now]
    createdAt := now
    nullifier := nullifier
    nullifierTail := nullifierTail nullifier
    receiptId := some item.receiptId
    terminalId := nonEmpty item.terminalId
    operatorId := item.operatorId.bind nonEmpty
    outcome := outcome
    errors := errors.eraseDups
    auditRequired := outcome ≠ .accepted }

/-- One event of the loop of `reconcilePosOfflineUsageSync`. -/
def reconcileEvent (now : JsString) (byNullifier : Record JsString Entry) (event : SyncEvent) :
    Record JsString Entry :=
  let nullifier := cleanNullifier platform (some event.nullifier)
  if nullifier = [] then byNullifier
  else
    match byNullifier.get? nullifier with
    | none => byNullifier
    | some existing =>
      byNullifier.set nullifier { existing with
        syncStatus := if event.outcome = .accepted then .synced else .auditRequired
        updatedAt := now
        serverEventId := some event.eventId
        conflictReason :=
          if event.outcome = .accepted then existing.conflictReason
          else if event.outcome = .conflict then some (js "server-nullifier-conflict")
          else some ((event.errors.head?.bind nonEmpty).getD (js "server-sync-rejected"))
        conflictDetectedAt :=
          if event.outcome = .accepted then existing.conflictDetectedAt else some now }

def reconcilePosOfflineUsageSync (entries : List Entry) (result : SyncResult)
    (now : Option JsString) (clock : ℤ) : List Entry :=
  let now := cleanIsoTimestamp platform now (platform.dates.toISOString clock)
  let byNullifier := (normalizeEntries platform entries).foldl
    (fun byNullifier entry => byNullifier.set entry.nullifier entry) .empty
  normalizeEntries platform
    (result.events.foldl (reconcileEvent platform now) byNullifier).values

/-! ## Runs -/

inductive LedgerStep where
  | record (receipt : Receipt) (now : Option JsString)
  | build
  | reconcile (result : SyncResult) (now : Option JsString) (clock : ℤ)
  | normalize

/-- Building a batch only reads the ledger. -/
def ledgerStep (entries : List Entry) : LedgerStep → List Entry
  | .record receipt now => (recordPosOfflineUsage platform entries receipt now).entries
  | .build => entries
  | .reconcile result now clock => reconcilePosOfflineUsageSync platform entries result now clock
  | .normalize => normalizeEntries platform entries

def ledgerRun (steps : List LedgerStep) : List Entry := steps.foldl (ledgerStep platform) []

/-- What a ledger keeps after a run, whatever comes then. -/
structure KeepsFirst (steps : List LedgerStep) : Prop where
  once : ((ledgerRun platform steps).map Entry.nullifier).Nodup
  stays : ∀ e ∈ ledgerRun platform steps, ∀ more,
    ∃ e' ∈ ledgerRun platform (steps ++ more), e'.nullifier = e.nullifier
      ∧ e'.receiptId = e.receiptId
  stored : ∀ receipt now entry,
    createPosOfflineUsageEntryFromReceipt platform receipt now = some entry →
      (∀ e ∈ ledgerRun platform steps, e.nullifier ≠ entry.nullifier) →
        ∃ e' ∈ ledgerRun platform (steps ++ [.record receipt now]),
          e'.nullifier = entry.nullifier ∧ e'.receiptId = entry.receiptId
  flagged : ∀ receipt now entry,
    createPosOfflineUsageEntryFromReceipt platform receipt now = some entry →
      ∀ e ∈ ledgerRun platform steps, e.nullifier = entry.nullifier →
        e.receiptId ≠ entry.receiptId →
          ∃ e' ∈ ledgerRun platform (steps ++ [.record receipt now]),
            e'.nullifier = e.nullifier ∧ e'.receiptId = e.receiptId
              ∧ e'.syncStatus = .auditRequired

/-- A ledger, and the nullifiers for which it has met a second receipt. -/
structure Till where
  entries : List Entry
  doubled : List JsString

def tillStep (till : Till) (step : LedgerStep) : Till where
  entries := ledgerStep platform till.entries step
  doubled :=
    match step with
    | .record receipt now =>
      let result := recordPosOfflineUsage platform till.entries receipt now
      if result.conflict then till.doubled ++ (result.entry.map Entry.nullifier).toList
      else till.doubled
    | _ => till.doubled

def tillRun (steps : List LedgerStep) : Till := steps.foldl (tillStep platform) ⟨[], []⟩

/-- No entry with a second receipt is in the plain synced state. -/
def NeverHidden (till : Till) : Prop :=
  ∀ e ∈ till.entries, e.nullifier ∈ till.doubled → e.syncStatus ≠ .synced

/-- The last event of a reply for a nullifier with a second receipt is no acceptance. -/
def HeedsDoubles (till : Till) : LedgerStep → Prop
  | .reconcile result _ _ => ∀ nullifier ∈ till.doubled,
    ((result.events.filter fun event =>
      cleanNullifier platform (some event.nullifier) = nullifier).getLast?).map
        SyncEvent.outcome ≠ some .accepted
  | _ => True

end Platform

end Agid.PosLedger
