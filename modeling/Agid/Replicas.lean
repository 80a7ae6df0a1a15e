import Agid.Lib.Delivery
import Agid.OfflineSync

/-!
# Replicas of one record

Replicas of a record create operations on their own states, apply operations of one another in any
order and any number of times, and merge states of one another, old ones too.  A replica goes by
the key its operations are counted under.  Clocks of the wall play no part: an operation is stamped
with any instant.

No two operations of a run share an id, which is a digest of all an operation holds.
-/

namespace Agid.AddressOfflineCrdt

/-- What a register belongs to: a field, or the whole entity. -/
inductive Target where
  | field (name : JsString)
  | entity
deriving DecidableEq

section Registers

variable {V : Type}

def Operation.target? (operation : Operation V) : Option Target :=
  match operation.action with
  | .upsertField => some (.field (operation.field.getD []))
  | .removeField => some (.field (operation.field.getD []))
  | .tombstoneEntity => some .entity
  | .addSetMember => none
  | .removeSetMember => none

/-- The register an operation writes. -/
def Operation.register (operation : Operation V) : Register V :=
  match operation.action with
  | .tombstoneEntity => tombstoneRegisterOf operation
  | _ => registerOf operation

def State.register? (state : State V) : Target → Option (Register V)
  | .field name => state.fields.get? name
  | .entity => state.tombstone

/-- What has won a register: the operation and its value. -/
def Register.winning (register : Register V) :
    JsString × Option V × Option JsString × Bool :=
  (register.operationId, register.publicValue, register.valueCommitment, register.tombstone)

end Registers

/-! ## Runs -/

structure World (V : Type) where
  current : JsString → State V
  operations : List (Operation V)
  /-- Every state a replica has held. -/
  states : Set (State V)

section Runs

variable {V : Type} [DecidableEq V] (P : Platform V) (record : CreateStateInput)

/-- The key a replica's operations are counted under. -/
def replicaOf (operation : Operation V) : JsString :=
  cleanKey P.nfkc (some operation.actorId) localActor

/-- The names an operation uses are its own, none an object inherits. -/
def plainNames (operation : Operation V) : Bool :=
  (replicaOf P operation :: [operation.field, operation.setName, operation.memberId].filterMap id).all
    fun name => !objectPrototype.contains name

def emptyState (now : ℤ) : State V := createState P { record with now := now }

def World.hold (w : World V) (r : JsString) (s : State V) : World V :=
  { w with current := Function.update w.current r s, states := insert s w.states }

/-- The replicas, empty since their own instants. -/
def World.init (now : JsString → ℤ) : World V :=
  { current := fun r => emptyState P record (now r)
    operations := []
    states := Set.range fun r => emptyState P record (now r) }

inductive Step : World V → World V → Prop where
  | create (w : World V) (input : CreateOperationInput V) (operation : Operation V) (s : State V)
      (hclock : input.clock = some (w.current (replicaOf P operation)).clock.raw)
      (hcreate : createOperation P input = .ok operation)
      (hnames : plainNames P operation = true)
      (hid : ∀ x ∈ w.operations, x.operationId ≠ operation.operationId)
      (happly : applyOperation P (some (w.current (replicaOf P operation))) operation = .ok s) :
      Step w ({ w with operations := operation :: w.operations }.hold (replicaOf P operation) s)
  | deliver (w : World V) (r : JsString) (operation : Operation V) (s : State V)
      (hop : operation ∈ w.operations)
      (happly : applyOperation P (some (w.current r)) operation = .ok s) : Step w (w.hold r s)
  | merge (w : World V) (r : JsString) (s : State V) (hs : s ∈ w.states) :
      Step w (w.hold r (mergeStates P (w.current r) s))

inductive Reachable : World V → Prop where
  | init (now : JsString → ℤ) : Reachable (World.init P record now)
  | step {w w' : World V} : Reachable w → Step P w w' → Reachable w'

/-- The state after the operations, applied one after the other. -/
def deliver (s : State V) : List (Operation V) → Except JsString (State V)
  | [] => .ok s
  | operation :: l => (applyOperation P (some s) operation).bind fun s => deliver s l

/-- The list delivers each operation of `S`, some of them again, and a replica's operations in
their order. -/
def Delivers (S l : List (Operation V)) : Prop :=
  Delivery.Delivers (fun x y => replicaOf P x = replicaOf P y
    ∧ compareClocks P.nfkc (some x.clock.raw) (some y.clock.raw) = .before) S l

/-! ## Laws -/

/-- Whatever operations of the run are delivered, in whatever order, the same ones win. -/
def Converges (w : World V) : Prop :=
  ∀ S : List (Operation V), (∀ x ∈ S, x ∈ w.operations) →
    ∀ l l', Delivers P S l → Delivers P S l' → ∀ now now' : ℤ,
      ∃ s s', deliver P (emptyState P record now) l = .ok s
        ∧ deliver P (emptyState P record now') l' = .ok s'
        ∧ ∀ t, (s.register? t).map Register.winning = (s'.register? t).map Register.winning

def visibleIds (s : State V) (setName : JsString) : List JsString :=
  (getVisibleSetMembers P s setName).map SetMember.memberId

/-- The states have the same winners under the same clocks, and show the same members. -/
structure Agree (s s' : State V) : Prop where
  winning : ∀ t, (s.register? t).map Register.winning = (s'.register? t).map Register.winning
  registerClock : ∀ t a,
    (s.register? t).map (·.clock.count a) = (s'.register? t).map (·.clock.count a)
  clock : ∀ a, s.clock.count a = s'.clock.count a
  visible : ∀ setName m, m ∈ visibleIds P s setName ↔ m ∈ visibleIds P s' setName

/-- Merging the states of the run is associative, commutative and idempotent. -/
def MergeLaws (w : World V) : Prop :=
  ∀ a ∈ w.states, ∀ b ∈ w.states, ∀ c ∈ w.states,
    Agree P (mergeStates P a (mergeStates P b c)) (mergeStates P (mergeStates P a b) c)
      ∧ Agree P (mergeStates P a b) (mergeStates P b a)
      ∧ Agree P (mergeStates P a a) a

/-- Three writes of one register: `y` has seen `x` and its stamp is the earlier one, and so is the
stamp of `z`, which has seen neither and which neither has seen. -/
structure Misordered (x y z : Operation V) : Prop where
  target : x.target? ≠ none ∧ y.target? = x.target? ∧ z.target? = x.target?
  seen : compareClocks P.nfkc (some x.clock.raw) (some y.clock.raw) = .before
  apart_left : compareClocks P.nfkc (some z.clock.raw) (some x.clock.raw) = .concurrent
  apart_right : compareClocks P.nfkc (some z.clock.raw) (some y.clock.raw) = .concurrent
  wins_seen : (winnerRegister x.register y.register).operationId = x.operationId
  wins_apart : (winnerRegister x.register z.register).operationId = x.operationId

/-- No three writes of the run are misordered. -/
def StampsFollow (w : World V) : Prop :=
  ∀ x ∈ w.operations, ∀ y ∈ w.operations, ∀ z ∈ w.operations, ¬ Misordered P x y z

/-! ## Observed removes -/

/-- Operations on the sets of the record, as `createOperation` makes them. -/
def SetOperations (O : List (Operation V)) : Prop :=
  ∀ x ∈ O, (∃ input, createOperation P input = .ok x)
    ∧ (x.action = .addSetMember ∨ x.action = .removeSetMember)
    ∧ sameEntity (emptyState P record 0) x ∧ plainNames P x

/-- The place in the sets that an operation writes. -/
def Operation.place? (operation : Operation V) : Option (JsString × JsString) :=
  if operation.action = .addSetMember ∨ operation.action = .removeSetMember then
    some (operation.setName.getD [], operation.memberId.getD [])
  else none

/-- A remove of the operations names the tag of the add. -/
def Covered (O : List (Operation V)) (add : Operation V) : Prop :=
  ∃ r ∈ O, r.action = .removeSetMember ∧ r.place? = add.place?
    ∧ add.operationId ∈ r.observedAddTags.getD []

/-- A member is visible if one of its adds is not covered. -/
def Observed (O : List (Operation V)) (setName m : JsString) : Prop :=
  ∃ add ∈ O, add.action = .addSetMember
    ∧ add.place? = some (cleanKey P.nfkc (some setName) [], m) ∧ ¬ Covered O add

/-- Any two deliveries show the same members, those the adds and the removes say. -/
def ObservedRemove (O : List (Operation V)) : Prop :=
  ∀ l l', Delivers P O l → Delivers P O l' → ∀ now now' : ℤ,
    ∃ s s', deliver P (emptyState P record now) l = .ok s
      ∧ deliver P (emptyState P record now') l' = .ok s'
      ∧ ∀ setName m, (m ∈ visibleIds P s setName ↔ m ∈ visibleIds P s' setName)
        ∧ (m ∈ visibleIds P s setName ↔ Observed P O setName m)

/-- Where a remove names no tags the removes that do name them cover every add of its member. -/
def TagsNamed (O : List (Operation V)) : Prop :=
  ∀ r ∈ O, r.action = .removeSetMember → r.observedAddTags.getD [] = [] →
    ∀ add ∈ O, add.action = .addSetMember → add.place? = r.place? → Covered O add

/-! ## The conflict log -/

/-- The conflict of two writes, as a state that holds `current` reports it. -/
def registerConflict (entityId : JsString) (current incoming : Register V) : ConflictInput :=
  { entityId := entityId
    conflictType := .concurrentFieldWrite
    detectedAt := max current.updatedAt incoming.updatedAt
    field := some incoming.field
    setName := none
    memberId := none
    leftOperationId := some current.operationId
    rightOperationId := some incoming.operationId
    winningOperationId := some (winnerRegister current incoming).operationId }

/-- The conflict of a member under two commitments. -/
def memberConflict (entityId setName memberId : JsString) (detectedAt : ℤ)
    (leftTag rightTag : Option JsString) : ConflictInput :=
  { entityId := entityId
    conflictType := .setMemberCommitmentMismatch
    detectedAt := detectedAt
    field := none
    setName := some setName
    memberId := some memberId
    leftOperationId := leftTag
    rightOperationId := rightTag
    winningOperationId := none }

/-- The writes are concurrent and their values differ. -/
def Clash (a b : Register V) : Prop :=
  compareClocks P.nfkc (some a.clock.raw) (some b.clock.raw) = .concurrent ∧ sameDigest a b = false

instance (a b : Register V) : Decidable (Clash P a b) := inferInstanceAs (Decidable (_ ∧ _))

def registerConflicts (entityId : JsString) (current : Option (Register V))
    (incoming : Register V) : List ConflictInput :=
  match current with
  | none => []
  | some current =>
    if Clash P current incoming then [registerConflict entityId current incoming] else []

def memberConflicts (entityId setName memberId : JsString) (detectedAt : ℤ)
    (existing : Option SetMember) (member : SetMember) : List ConflictInput :=
  match existing with
  | none => []
  | some existing =>
    if existing.memberCommitment = member.memberCommitment then []
    else [memberConflict entityId setName memberId detectedAt existing.addTags.head?
      member.addTags.head?]

/-- The conflicts a merge of two states of the record finds. -/
def foundConflicts (l r : State V) : List ConflictInput :=
  (r.fields.entries.flatMap fun e => registerConflicts P l.entityId (l.fields.get? e.1) e.2)
    ++ r.tombstone.toList.flatMap (registerConflicts P l.entityId l.tombstone)
    ++ r.sets.entries.flatMap fun e => e.2.entries.flatMap fun f =>
      memberConflicts l.entityId e.1 f.1 (max l.updatedAt r.updatedAt) (l.member? e.1 f.1) f.2

def conflictId (c : ConflictInput) : JsString := (buildConflict P c).conflictId

def conflictIds (log : List Conflict) : Set JsString := {id | ∃ c ∈ log, c.conflictId = id}

/-- The log is the same whichever way the states are merged, and merging the two results finds
nothing new. -/
structure OneLog (l r : State V) : Prop where
  direction : conflictIds (mergeStates P l r).conflicts = conflictIds (mergeStates P r l).conflicts
  again : conflictIds (mergeStates P (mergeStates P l r) (mergeStates P r l)).conflicts
    = conflictIds (mergeStates P l r).conflicts
  back : conflictIds (mergeStates P (mergeStates P r l) (mergeStates P l r)).conflicts
    = conflictIds (mergeStates P r l).conflicts

/-- One of the states has the conflict in its log. -/
def Logged (l r : State V) (c : ConflictInput) : Prop :=
  conflictId P c ∈ conflictIds l.conflicts ∪ conflictIds r.conflicts

/-- What the states have in conflict is in their logs under both orders of its operations.  A
member whose two first tags are the same has one order. -/
structure BothOrdersLogged (l r : State V) : Prop where
  registers : ∀ t a b, l.register? t = some a → r.register? t = some b → Clash P a b →
    Logged P l r (registerConflict l.entityId a b) ∧ Logged P l r (registerConflict l.entityId b a)
  members : ∀ q m e e', l.member? q m = some e → r.member? q m = some e' →
    e.memberCommitment ≠ e'.memberCommitment → e.addTags.head? ≠ e'.addTags.head? →
      let conflict := memberConflict l.entityId q m (max l.updatedAt r.updatedAt)
      let first := (sortedSet (e.addTags ++ e'.addTags)).head?
      Logged P l r (conflict e.addTags.head? e'.addTags.head?)
        ∧ Logged P l r (conflict e'.addTags.head? e.addTags.head?)
        ∧ Logged P l r (conflict first first)

/-- The conflicts that merging the states finds, one way, the other way and once more, have
different digests. -/
def DigestsDiffer (l r : State V) : Prop :=
  let found := foundConflicts P l r ++ foundConflicts P r l
    ++ foundConflicts P (mergeStates P l r) (mergeStates P r l)
  ∀ c ∈ found, ∀ d ∈ found, P.conflictDigest c = P.conflictDigest d → c = d

end Runs

/-! ## A platform to compute with -/

/-- Text of ASCII and values that are strings, with digests that show what they are of. -/
def asciiPlatform : Platform JsString where
  nfkc := ⟨id, id_ascii⟩
  toLowerCase := List.map lowerUnit
  localeCompare a b := if a < b then -1 else if b < a then 1 else 0
  jsonLength v := v.length + 2
  operationDigest input := input.actorId ++ [Fin.ofNat 65536 input.createdAt.toNat]
  memberDigest input := input.memberCommitment
  conflictDigest input := js "/" ++ input.leftOperationId.getD [] ++ js "/"
    ++ input.rightOperationId.getD []

/-- An operation input with nothing in it but the record's. -/
def blankInput : CreateOperationInput JsString :=
  { actorId := []
    deviceId := none
    entityId := js "shipment-001"
    entityKind := .shippingLabel
    domain := some (js "delivery:handoff")
    action := .upsertField
    clock := none
    now := 0
    field := none
    setName := none
    memberId := none
    memberCommitment := none
    observedAddTags := none
    publicValue := none
    valueCommitment := none
    reason := none }

def sampleRecord : CreateStateInput :=
  ⟨js "shipment-001", .shippingLabel, some (js "delivery:handoff"), 0⟩

theorem ok_get {ε α : Type} {e : Except ε α} (h : e.toOption.isSome) :
    e = .ok (e.toOption.get h) := by
  cases e with
  | error e => simp [Except.toOption] at h
  | ok a => rfl

end Agid.AddressOfflineCrdt
