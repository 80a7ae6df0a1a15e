import Agid.JsonParse
import Agid.Lib.History
import Agid.Lib.Record

/-!
# The tables of the app

The persist functions of `src/lib/appDatabase.ts`: each replaces one table of the browser's database
by a clear and a bulk write.  A call of the database is done whole or fails, and which calls fail is
given with each persist call.  Loading, and what the rows mean, is left out.
-/

namespace Agid.AppDatabase

abbrev Members := List (JsString × JsonValue)

/-- An object with an `id` that is a text. -/
structure DatabaseRecord where
  id : JsString
  members : Members
  hid : JsonValue.member (js "id") members = some (.string id)

theorem member_setMember_of_ne {name other : JsString} (value : JsonValue) (h : name ≠ other) :
    ∀ members : Members,
      JsonValue.member other (setMember name value members) = JsonValue.member other members
  | [] => if_neg h
  | (k, v) :: members => by
    unfold setMember
    split_ifs with heq hbefore
    · subst heq
      simp only [JsonValue.member, if_neg h]
    · simp only [JsonValue.member, if_neg h]
    · simp only [JsonValue.member, member_setMember_of_ne value h members]

/-- `{ ...record, [name]: value }`, for another name than `id`. -/
def DatabaseRecord.with (record : DatabaseRecord) (name : JsString) (value : JsonValue)
    (h : name ≠ js "id") : DatabaseRecord where
  id := record.id
  members := setMember name value record.members
  hid := (member_setMember_of_ne value h _).trans record.hid

/-! ## Rows -/

def sanitizeRecord : JsonValue → Option DatabaseRecord
  | .object members =>
    match h : JsonValue.member (js "id") members with
    | some (.string id) => if trim id ≠ [] then some ⟨id, members, h⟩ else none
    | _ => none
  | _ => none

def sanitizeDatabaseRecords : JsonValue → List DatabaseRecord
  | .array records => records.filterMap sanitizeRecord
  | _ => []

/-- The normalizers of other files: of `aoid.ts`, none where it throws, and of
`posOfflineUsageLedger.ts`. -/
structure Platform where
  normalizeAOIDRecord : Members → Option DatabaseRecord
  normalizePosOfflineUsageEntries : JsonValue → List DatabaseRecord

def normalizeAoidRecords (P : Platform) (records : JsonValue) : List DatabaseRecord :=
  (sanitizeDatabaseRecords records).filterMap fun record =>
    P.normalizeAOIDRecord (setMember (js "type") (.string (js "AOID")) record.members)

def withDeliveryPosPrivacyFlags (record : DatabaseRecord) : DatabaseRecord :=
  (((record.with (js "rawPayloadStored") (.bool false) (by decide)).with
    (js "rawAddressStored") (.bool false) (by decide)).with
    (js "decryptedAgidStored") (.bool false) (by decide)).with
    (js "rawAgidSecureStored") (.bool false) (by decide)

/-- `normalizePosShipmentRecords`, and those of receipts, audit cases, handoffs and diagnostics. -/
def normalizePosRecords (records : JsonValue) : List DatabaseRecord :=
  (sanitizeDatabaseRecords records).map withDeliveryPosPrivacyFlags

def isArray : Option JsonValue → Bool
  | some (.array _) => true
  | _ => false

def normalizePosCrossBorderDeclarationRecords (records : JsonValue) : List DatabaseRecord :=
  (sanitizeDatabaseRecords records).map fun record =>
    let sources := JsonValue.member (js "evidenceSourceIds") record.members
    ((withDeliveryPosPrivacyFlags record).with (js "advisoryOnly") (.bool true) (by decide)).with
      (js "evidenceSourceIds") (if isArray sources then sources.getD .null else .array [])
      (by decide)

def normalizePosOfflineUsageRecords (P : Platform) (records : JsonValue) : List DatabaseRecord :=
  (P.normalizePosOfflineUsageEntries records).map withDeliveryPosPrivacyFlags

/-! ## Tables -/

inductive TableName
  | savedAgids
  | savedQrs
  | registeredAddresses
  | aoids
  | syncQueue
  | posShipments
  | posReceipts
  | posAuditCases
  | posHandoffs
  | posDeviceDiagnostics
  | posCrossBorderDeclarations
  | posOfflineUsageLedger
deriving DecidableEq

/-- The rows of a table by their `id`. -/
abbrev Table := Record JsString DatabaseRecord

abbrev Tables := TableName → Table

/-- Whether there is a database at all, and which of its calls fail. -/
structure Faults where
  isClientDatabaseSupported : Bool
  clearFails : Bool
  bulkPutFails : Bool

def bulkPut (table : Table) (records : List DatabaseRecord) : Table :=
  records.foldl (fun table record => table.set record.id record) table

/-- With whether it returns. -/
def replaceTable (faults : Faults) (table : Table) (records : List DatabaseRecord) : Table × Bool :=
  if faults.clearFails then (table, false)
  else if records.length > 0 then
    if faults.bulkPutFails then (.empty, false) else (bulkPut .empty records, true)
  else (.empty, true)

/-- A persist function, with what it returns. -/
def persistTable (name : TableName) (normalize : JsonValue → List DatabaseRecord)
    (records : JsonValue) (faults : Faults) (db : Tables) : Tables × Bool :=
  if faults.isClientDatabaseSupported then
    let (table, replaced) := replaceTable faults (db name) (normalize records)
    (Function.update db name table, replaced)
  else (db, false)

section Persist

variable (P : Platform)

def persistSavedAgids := persistTable .savedAgids sanitizeDatabaseRecords

def persistSavedQrs := persistTable .savedQrs sanitizeDatabaseRecords

def persistRegisteredAddresses := persistTable .registeredAddresses sanitizeDatabaseRecords

def persistAoids := persistTable .aoids (normalizeAoidRecords P)

def persistSyncQueue := persistTable .syncQueue sanitizeDatabaseRecords

def persistDeliveryPosShipments := persistTable .posShipments normalizePosRecords

def persistDeliveryPosReceipts := persistTable .posReceipts normalizePosRecords

def persistDeliveryPosAuditCases := persistTable .posAuditCases normalizePosRecords

def persistDeliveryPosHandoffs := persistTable .posHandoffs normalizePosRecords

def persistDeliveryPosDeviceDiagnostics := persistTable .posDeviceDiagnostics normalizePosRecords

def persistDeliveryPosCrossBorderDeclarations :=
  persistTable .posCrossBorderDeclarations normalizePosCrossBorderDeclarationRecords

def persistDeliveryPosOfflineUsageLedger :=
  persistTable .posOfflineUsageLedger (normalizePosOfflineUsageRecords P)

/-! ## Calls -/

structure Call where
  table : TableName
  records : JsonValue
  faults : Faults

def persist (db : Tables) (call : Call) : Tables × Bool :=
  match call.table with
  | .savedAgids => persistSavedAgids call.records call.faults db
  | .savedQrs => persistSavedQrs call.records call.faults db
  | .registeredAddresses => persistRegisteredAddresses call.records call.faults db
  | .aoids => persistAoids P call.records call.faults db
  | .syncQueue => persistSyncQueue call.records call.faults db
  | .posShipments => persistDeliveryPosShipments call.records call.faults db
  | .posReceipts => persistDeliveryPosReceipts call.records call.faults db
  | .posAuditCases => persistDeliveryPosAuditCases call.records call.faults db
  | .posHandoffs => persistDeliveryPosHandoffs call.records call.faults db
  | .posDeviceDiagnostics => persistDeliveryPosDeviceDiagnostics call.records call.faults db
  | .posCrossBorderDeclarations =>
    persistDeliveryPosCrossBorderDeclarations call.records call.faults db
  | .posOfflineUsageLedger => persistDeliveryPosOfflineUsageLedger P call.records call.faults db

def next (db : Tables) (call : Call) : Option Tables := some (persist P db call).1

/-- The records that a call puts into its table. -/
def newRecords (call : Call) : List DatabaseRecord :=
  match call.table with
  | .savedAgids | .savedQrs | .registeredAddresses | .syncQueue =>
    sanitizeDatabaseRecords call.records
  | .aoids => normalizeAoidRecords P call.records
  | .posCrossBorderDeclarations => normalizePosCrossBorderDeclarationRecords call.records
  | .posOfflineUsageLedger => normalizePosOfflineUsageRecords P call.records
  | .posShipments | .posReceipts | .posAuditCases | .posHandoffs | .posDeviceDiagnostics =>
    normalizePosRecords call.records

/-- The table after it, if all goes well: of records with one `id` the last one stays. -/
def newRows (call : Call) : Table := bulkPut .empty (newRecords P call)

/-! ## Whole tables -/

/-- A call that succeeds leaves exactly its own rows, one that fails these or those there were, and
no call has to do with another table. -/
structure Whole (db : Tables) (call : Call) : Prop where
  succeeded : (persist P db call).2 = true → (persist P db call).1 call.table = newRows P call
  failed : (persist P db call).2 = false →
    (persist P db call).1 call.table = db call.table
      ∨ (persist P db call).1 call.table = newRows P call
  others : ∀ name, name ≠ call.table → (persist P db call).1 name = db name

/-- The rows there were are cleared, and the new ones fail to be written. -/
structure Interrupted (db : Tables) (call : Call) : Prop where
  supported : call.faults.isClientDatabaseSupported = true
  cleared : call.faults.clearFails = false
  unwritten : call.faults.bulkPutFails = true
  records : newRecords P call ≠ []
  rows : (db call.table).entries ≠ []

/-- The rows of the last call on a table that succeeded, or those it had at first. -/
def heldRows (first : Tables) (past : History.Past Tables Call) (name : TableName) : Table :=
  ((past.find? fun e => e.2.table = name && (persist P e.1 e.2).2).map fun e => newRows P e.2).getD
    (first name)

end Persist

end Agid.AppDatabase
