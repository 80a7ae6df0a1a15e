import Agid.Clock
import Agid.Lib.SortedSet

/-!
# Offline address records

The operations and the states of `src/lib/addressOfflineSyncCrdt.ts`.  A JSON value is one of an
arbitrary type, as the code compares and copies values and measures their text.  An instant is its
number of milliseconds; `cleanIso` makes one of any text.  The flags that are the same in every
object are left out, and `cloneState`, which copies what JSON can hold, is not written.
-/

namespace Agid.AddressOfflineCrdt

inductive EntityKind where
  | addressReference
  | aoid
  | credential
  | shippingLabel
  | posUsage
  | settings
deriving DecidableEq

inductive Action where
  | upsertField
  | removeField
  | addSetMember
  | removeSetMember
  | tombstoneEntity
deriving DecidableEq

/-- An operation without its id. -/
structure OperationBody (V : Type) where
  actorId : JsString
  deviceId : Option JsString
  entityId : JsString
  entityKind : EntityKind
  domain : JsString
  action : Action
  clock : Clock
  createdAt : ℤ
  field : Option JsString
  setName : Option JsString
  memberId : Option JsString
  memberCommitment : Option JsString
  observedAddTags : Option (List JsString)
  publicValue : Option V
  valueCommitment : Option JsString
  reason : Option JsString

structure Operation (V : Type) extends OperationBody V where
  operationId : JsString

structure Register (V : Type) where
  field : JsString
  operationId : JsString
  actorId : JsString
  clock : Clock
  updatedAt : ℤ
  publicValue : Option V
  valueCommitment : Option JsString
  tombstone : Bool

structure SetMember where
  setName : JsString
  memberId : JsString
  memberCommitment : JsString
  addTags : List JsString
  removeTags : List JsString
  clock : Clock
  updatedAt : ℤ

inductive ConflictType where
  | concurrentFieldWrite
  | setMemberCommitmentMismatch
  | entityMetadataMismatch
deriving DecidableEq

structure ConflictInput where
  entityId : JsString
  conflictType : ConflictType
  detectedAt : ℤ
  field : Option JsString
  setName : Option JsString
  memberId : Option JsString
  leftOperationId : Option JsString
  rightOperationId : Option JsString
  winningOperationId : Option JsString
deriving DecidableEq

structure Conflict extends ConflictInput where
  conflictId : JsString

structure State (V : Type) where
  entityId : JsString
  entityKind : EntityKind
  domain : JsString
  clock : Clock
  fields : Record JsString (Register V)
  sets : Record JsString (Record JsString SetMember)
  tombstone : Option (Register V)
  conflicts : List Conflict
  createdAt : ℤ
  updatedAt : ℤ

structure CreateOperationInput (V : Type) where
  actorId : JsString
  deviceId : Option JsString
  entityId : JsString
  entityKind : EntityKind
  domain : Option JsString
  action : Action
  clock : Option RawClock
  now : ℤ
  field : Option JsString
  setName : Option JsString
  memberId : Option JsString
  memberCommitment : Option JsString
  observedAddTags : Option (List JsString)
  publicValue : Option V
  valueCommitment : Option JsString
  reason : Option JsString

structure CreateStateInput where
  entityId : JsString
  entityKind : EntityKind
  domain : Option JsString
  now : ℤ

structure MemberIdInput where
  domain : JsString
  entityId : JsString
  setName : JsString
  memberCommitment : JsString

/-- What the code takes from elsewhere.  The digests are the hexadecimal digits it keeps of the
SHA-256 of a value's JSON. -/
structure Platform (V : Type) where
  nfkc : Nfkc
  toLowerCase : JsString → JsString
  localeCompare : JsString → JsString → ℤ
  jsonLength : V → ℕ
  operationDigest : OperationBody V → JsString
  memberDigest : MemberIdInput → JsString
  conflictDigest : ConflictInput → JsString

/-- The value, if it is there and not empty. -/
def truthy : Option JsString → Option JsString
  | some [] => none
  | s => s

def DEFAULT_DOMAIN : JsString := js "offline-sync:default"

def SENSITIVE_FIELD_PATTERNS : List JsString :=
  ["address", "street", "room", "unit", "recipient", "phone", "email", "agid", "aoid", "lat",
    "lon", "proof", "secret", "waybill", "instruction"].map js

/-- `toLowerCase` on a unit of a key. -/
def lowerUnit (c : CodeUnit) : CodeUnit := if 65 ≤ c.val ∧ c.val ≤ 90 then c + 32 else c

/-- `Array.from(new Set(tags)).sort()`. -/
abbrev sortedSet (tags : List JsString) : List JsString := SortedSet.ofList tags

section Operations

variable {V : Type} (P : Platform V)

def isSensitiveField (field : Option JsString) : Bool :=
  let normalized := (cleanKey P.nfkc field []).map lowerUnit
  SENSITIVE_FIELD_PATTERNS.any fun pattern => includes normalized pattern

def normalizeCommitment (value : Option JsString) : JsString :=
  let text := cleanText P.nfkc value []
  if (js "0x").isPrefixOf text then js "0x" ++ P.toLowerCase (text.drop 2) else text

def operationIdFrom (input : OperationBody V) : JsString := js "AOSC-" ++ P.operationDigest input

def memberIdFrom (input : MemberIdInput) : JsString := js "MEM-" ++ P.memberDigest input

def normalizePublicValue (value : Option V) : Except JsString (Option V) :=
  match value with
  | none => .ok none
  | some v =>
    if P.jsonLength v > 4096 then .error (js "offline CRDT publicValue is too large")
    else .ok (some v)

/-- The checks of `createAddressOfflineCrdtOperation` on a cleaned operation. -/
def checkOperation (action : Action) (field setName : Option JsString)
    (memberCommitment valueCommitment : JsString) (publicValue : Option V) : Except JsString Unit :=
  let isField := action = .upsertField ∨ action = .removeField
  let isSet := action = .addSetMember ∨ action = .removeSetMember
  if isField ∧ truthy field = none then
    .error (js "offline CRDT field operation requires field")
  else if action = .upsertField ∧ isSensitiveField P field ∧ publicValue.isSome then
    .error (js "offline CRDT sensitive field \"" ++ field.getD []
      ++ js "\" must use a commitment, not publicValue")
  else if action = .upsertField ∧ publicValue.isNone ∧ valueCommitment = [] then
    .error (js "offline CRDT upsert-field requires publicValue or valueCommitment")
  else if isSet ∧ truthy setName = none then
    .error (js "offline CRDT set operation requires setName")
  else if isSet ∧ memberCommitment = [] then
    .error (js "offline CRDT set operation requires memberCommitment")
  else .ok ()

def createOperation (input : CreateOperationInput V) : Except JsString (Operation V) :=
  let actorId := cleanKey P.nfkc (some input.actorId) localActor
  let entityId := cleanKey P.nfkc (some input.entityId) []
  if entityId = [] then .error (js "offline CRDT operation requires entityId") else do
  let domain := cleanKey P.nfkc (some ((truthy input.domain).getD DEFAULT_DOMAIN)) DEFAULT_DOMAIN
  let clock := incrementClock P.nfkc input.clock actorId
  let field := (truthy input.field).map fun f => cleanKey P.nfkc (some f) []
  let setName := (truthy input.setName).map fun s => cleanKey P.nfkc (some s) []
  let valueCommitment := normalizeCommitment P input.valueCommitment
  let memberCommitment := normalizeCommitment P input.memberCommitment
  let publicValue ← normalizePublicValue P input.publicValue
  checkOperation P input.action field setName memberCommitment valueCommitment publicValue
  let memberId := match truthy input.memberId with
    | some m => some (cleanKey P.nfkc (some m) [])
    | none => match truthy setName with
      | some setName => if memberCommitment = [] then none
        else some (memberIdFrom P ⟨domain, entityId, setName, memberCommitment⟩)
      | none => none
  let operationWithoutId : OperationBody V :=
    { actorId := actorId
      deviceId := (truthy input.deviceId).map fun d => cleanKey P.nfkc (some d) []
      entityId := entityId
      entityKind := input.entityKind
      domain := domain
      action := input.action
      clock := clock
      createdAt := input.now
      field := truthy field
      setName := truthy setName
      memberId := truthy memberId
      memberCommitment := truthy (some memberCommitment)
      observedAddTags := input.observedAddTags.map fun tags =>
        (tags.map fun tag => cleanKey P.nfkc (some tag) []).filter (· ≠ [])
      publicValue := publicValue
      valueCommitment := truthy (some valueCommitment)
      reason := (truthy input.reason).map fun r => (cleanText P.nfkc (some r) []).take 160 }
  return { operationWithoutId with operationId := operationIdFrom P operationWithoutId }

def createState (input : CreateStateInput) : State V :=
  { entityId := cleanKey P.nfkc (some input.entityId) []
    entityKind := input.entityKind
    domain := cleanKey P.nfkc (some ((truthy input.domain).getD DEFAULT_DOMAIN)) DEFAULT_DOMAIN
    clock := .empty
    fields := .empty
    sets := .empty
    tombstone := none
    conflicts := []
    createdAt := input.now
    updatedAt := input.now }

/-! ## Registers and conflicts -/

/-- Whether two registers have one digest. -/
def sameDigest [DecidableEq V] (left right : Register V) : Bool :=
  left.publicValue = right.publicValue && left.valueCommitment = right.valueCommitment
    && left.tombstone = right.tombstone

def winnerRegister (left right : Register V) : Register V :=
  if left.updatedAt ≠ right.updatedAt then
    if left.updatedAt > right.updatedAt then left else right
  else if left.operationId ≥ right.operationId then left else right

def buildConflict (input : ConflictInput) : Conflict :=
  { input with
    conflictId := js "AOSC-CONFLICT-" ++ P.conflictDigest input
    field := truthy input.field
    setName := truthy input.setName
    memberId := truthy input.memberId
    leftOperationId := truthy input.leftOperationId
    rightOperationId := truthy input.rightOperationId
    winningOperationId := truthy input.winningOperationId }

/-- The conflicts by id, the last of an id in the place of the first, in the order of time. -/
def mergeConflictLists (lists : List (List Conflict)) : List Conflict :=
  let byId := lists.flatten.foldl (fun (byId : Record JsString Conflict) conflict =>
    byId.set conflict.conflictId conflict) .empty
  byId.values.insertionSort (·.detectedAt ≤ ·.detectedAt)

variable [DecidableEq V]

def mergeRegister (entityId : JsString) (current : Option (Register V)) (incoming : Register V) :
    Register V × List Conflict :=
  match current with
  | none => (incoming, [])
  | some current =>
    match compareClocks P.nfkc (some current.clock.raw) (some incoming.clock.raw) with
    | .before => (incoming, [])
    | .after => (current, [])
    | .equal => (current, [])
    | .concurrent =>
      let winner := winnerRegister current incoming
      let register := { winner with
        clock := joinClocks P.nfkc (some current.clock.raw) (some incoming.clock.raw) }
      if sameDigest current incoming then (register, [])
      else (register, [buildConflict P
        { entityId := entityId
          conflictType := .concurrentFieldWrite
          detectedAt := max current.updatedAt incoming.updatedAt
          field := some incoming.field
          setName := none
          memberId := none
          leftOperationId := some current.operationId
          rightOperationId := some incoming.operationId
          winningOperationId := some winner.operationId }])

/-! ## Applying an operation -/

def setMemberVisible (member : SetMember) : Bool :=
  member.addTags.any fun tag => !member.removeTags.contains tag

def getVisibleSetMembers (state : State V) (setName : JsString) : List SetMember :=
  let set := (state.sets.get? (cleanKey P.nfkc (some setName) [])).getD .empty
  (set.values.filter setMemberVisible).insertionSort fun a b =>
    P.localeCompare a.memberId b.memberId ≤ 0

def registerOf (operation : Operation V) : Register V :=
  { field := operation.field.getD []
    operationId := operation.operationId
    actorId := operation.actorId
    clock := operation.clock
    updatedAt := operation.createdAt
    publicValue := operation.publicValue
    valueCommitment := truthy operation.valueCommitment
    tombstone := operation.action = .removeField }

def applyRegisterOperation (state : State V) (operation : Operation V) : State V :=
  let register := registerOf operation
  let result := mergeRegister P state.entityId (state.fields.get? register.field) register
  { state with
    fields := state.fields.set register.field result.1
    conflicts := mergeConflictLists [state.conflicts, result.2] }

/-- A member's place in `sets`. -/
def State.member? (state : State V) (setName memberId : JsString) : Option SetMember :=
  (state.sets.get? setName).bind fun set => set.get? memberId

def State.setMember (state : State V) (setName memberId : JsString) (member : SetMember) :
    State V :=
  { state with
    sets := state.sets.set setName (((state.sets.get? setName).getD .empty).set memberId member) }

/-- The conflict of a member that is there under another commitment. -/
def commitmentConflicts (entityId setName memberId : JsString) (existing : Option SetMember)
    (memberCommitment rightOperationId : Option JsString) (detectedAt : ℤ) : List Conflict :=
  match existing with
  | none => []
  | some existing =>
    if some existing.memberCommitment = memberCommitment then []
    else [buildConflict P
      { entityId := entityId
        conflictType := .setMemberCommitmentMismatch
        detectedAt := detectedAt
        field := none
        setName := some setName
        memberId := some memberId
        leftOperationId := existing.addTags.head?
        rightOperationId := rightOperationId
        winningOperationId := none }]

/-- The log with the conflicts found, as it was where there are none. -/
def logConflicts (conflicts found : List Conflict) : List Conflict :=
  match found with
  | [] => conflicts
  | found => mergeConflictLists [conflicts, found]

/-- The member a set operation leaves in the place of `existing`. -/
def appliedMember (setName memberId : JsString) (existing : Option SetMember)
    (operation : Operation V) : SetMember :=
  let addTags := (existing.map SetMember.addTags).getD []
  let removeTags := (existing.map SetMember.removeTags).getD []
  let observed := match operation.observedAddTags with
    | some (tag :: tags) => tag :: tags
    | _ => addTags
  { setName := setName
    memberId := memberId
    memberCommitment := ((truthy (existing.map SetMember.memberCommitment)).or
      operation.memberCommitment).getD []
    addTags := sortedSet (if operation.action = .addSetMember then
      addTags ++ [operation.operationId] else addTags)
    removeTags := sortedSet (if operation.action = .addSetMember then removeTags
      else removeTags ++ observed)
    clock := joinClocks P.nfkc (existing.map fun e => e.clock.raw) (some operation.clock.raw)
    updatedAt := match existing with
      | some e => if e.updatedAt > operation.createdAt then e.updatedAt else operation.createdAt
      | none => operation.createdAt }

def applySetOperation (state : State V) (operation : Operation V) : State V :=
  let setName := operation.setName.getD []
  let memberId := operation.memberId.getD []
  let existing := state.member? setName memberId
  let conflicts := logConflicts state.conflicts (commitmentConflicts P state.entityId setName
    memberId existing operation.memberCommitment (some operation.operationId) operation.createdAt)
  { state.setMember setName memberId (appliedMember P setName memberId existing operation) with
    conflicts := conflicts }

def tombstoneRegisterOf (operation : Operation V) : Register V :=
  { field := js "__entity__"
    operationId := operation.operationId
    actorId := operation.actorId
    clock := operation.clock
    updatedAt := operation.createdAt
    publicValue := none
    valueCommitment := truthy operation.valueCommitment
    tombstone := true }

def applyTombstoneOperation (state : State V) (operation : Operation V) : State V :=
  let result := mergeRegister P state.entityId state.tombstone (tombstoneRegisterOf operation)
  { state with
    tombstone := some result.1
    conflicts := mergeConflictLists [state.conflicts, result.2] }

/-- What an operation does to a state of its record. -/
def applyToRecord (state : State V) (operation : Operation V) : State V :=
  let next := { state with
    clock := joinClocks P.nfkc (some state.clock.raw) (some operation.clock.raw)
    updatedAt := if state.updatedAt > operation.createdAt then state.updatedAt
      else operation.createdAt }
  match operation.action with
  | .upsertField => applyRegisterOperation P next operation
  | .removeField => applyRegisterOperation P next operation
  | .addSetMember => applySetOperation P next operation
  | .removeSetMember => applySetOperation P next operation
  | .tombstoneEntity => applyTombstoneOperation P next operation

def sameEntity (state : State V) (operation : Operation V) : Bool :=
  state.entityId = operation.entityId && state.entityKind = operation.entityKind
    && state.domain = operation.domain

def applyOperation (state : Option (State V)) (operation : Operation V) :
    Except JsString (State V) :=
  let next := state.getD (createState P
    ⟨operation.entityId, operation.entityKind, some operation.domain, operation.createdAt⟩)
  if sameEntity next operation then .ok (applyToRecord P next operation)
  else .error (js "offline CRDT operation entity metadata does not match state")

/-! ## Merging states -/

def mergeField (merged : State V) (e : JsString × Register V) : State V :=
  let result := mergeRegister P merged.entityId (merged.fields.get? e.1) e.2
  { merged with
    fields := merged.fields.set e.1 result.1
    conflicts := mergeConflictLists [merged.conflicts, result.2] }

def mergeTombstone (merged : State V) (tombstone : Option (Register V)) : State V :=
  match tombstone with
  | none => merged
  | some register =>
    let result := mergeRegister P merged.entityId merged.tombstone register
    { merged with
      tombstone := some result.1
      conflicts := mergeConflictLists [merged.conflicts, result.2] }

/-- The member a merge leaves in the place of `existing`. -/
def mergedMember (setName memberId : JsString) (existing : Option SetMember) (member : SetMember) :
    SetMember :=
  { setName := setName
    memberId := memberId
    memberCommitment := (truthy (existing.map SetMember.memberCommitment)).getD
      member.memberCommitment
    addTags := sortedSet ((existing.map SetMember.addTags).getD [] ++ member.addTags)
    removeTags := sortedSet ((existing.map SetMember.removeTags).getD [] ++ member.removeTags)
    clock := joinClocks P.nfkc (existing.map fun e => e.clock.raw) (some member.clock.raw)
    updatedAt := match existing with
      | some e => if e.updatedAt > member.updatedAt then e.updatedAt else member.updatedAt
      | none => member.updatedAt }

def mergeMember (setName : JsString) (merged : State V) (e : JsString × SetMember) : State V :=
  let existing := merged.member? setName e.1
  let conflicts := logConflicts merged.conflicts (commitmentConflicts P merged.entityId setName
    e.1 existing (some e.2.memberCommitment) e.2.addTags.head? merged.updatedAt)
  { merged.setMember setName e.1 (mergedMember P setName e.1 existing e.2) with
    conflicts := conflicts }

def mergeSet (merged : State V) (e : JsString × Record JsString SetMember) : State V :=
  let merged := match merged.sets.get? e.1 with
    | some _ => merged
    | none => { merged with sets := merged.sets.set e.1 .empty }
  e.2.entries.foldl (mergeMember P e.1) merged

def mergeStates (left right : State V) : State V :=
  if left.entityId ≠ right.entityId ∨ left.entityKind ≠ right.entityKind
      ∨ left.domain ≠ right.domain then
    { left with conflicts := mergeConflictLists [left.conflicts, right.conflicts, [buildConflict P
      { entityId := left.entityId
        conflictType := .entityMetadataMismatch
        detectedAt := max left.updatedAt right.updatedAt
        field := none
        setName := none
        memberId := none
        leftOperationId := none
        rightOperationId := none
        winningOperationId := none }]] }
  else
    let merged := { left with
      clock := joinClocks P.nfkc (some left.clock.raw) (some right.clock.raw)
      updatedAt := if left.updatedAt > right.updatedAt then left.updatedAt else right.updatedAt
      conflicts := mergeConflictLists [left.conflicts, right.conflicts] }
    let merged := right.fields.entries.foldl (mergeField P) merged
    let merged := mergeTombstone P merged right.tombstone
    right.sets.entries.foldl (mergeSet P) merged

end Operations

/-! ## The envelope -/

structure Envelope (V : Type) where
  entityId : JsString
  entityKind : EntityKind
  domain : JsString
  clock : Clock
  fields : Record JsString (Register V)
  sets : Record JsString (List SetMember)
  conflicts : List Conflict
  updatedAt : ℤ

def buildSyncEnvelope {V : Type} (P : Platform V) (state : State V) : Envelope V :=
  { entityId := state.entityId
    entityKind := state.entityKind
    domain := state.domain
    clock := state.clock
    fields := state.fields
    sets := state.sets.map fun members => members.values.insertionSort fun a b =>
      P.localeCompare a.memberId b.memberId ≤ 0
    conflicts := state.conflicts
    updatedAt := state.updatedAt }

end Agid.AddressOfflineCrdt
