import Agid.ShipStore
import Agid.Lib.History

/-!
# Idempotency reservations

`reserveIdempotency` and `finishIdempotency` of `src/server/shipping/veygritShipStore.ts`, called by
any number of requests on one table.  A call goes on a statement at a time, each at the time it
began by the clock of the database, and what is asked of the calls is said of their runs: that one
request holds a reservation, and that the one it was taken from leaves its record alone.
-/

namespace Agid.VeygritShip.Idempotency

/-! ## The table -/

inductive ShipOwner where
  | merchant (merchantRef : JsString)
  | guest (guestSessionRef : JsString)
deriving DecidableEq

/-- The columns of the two unique indexes; `owner` is the row its reference names. -/
structure Key where
  owner : ShipOwner
  operation : JsString
  keyHash : JsString
deriving DecidableEq

inductive Outcome where
  | completed
  | failed
deriving DecidableEq

inductive State where
  | inProgress
  | finished (outcome : Outcome)
deriving DecidableEq

structure Response where
  status : Option ℤ
  bodyRef : Option JsString
  bodySha256 : Option JsString
deriving DecidableEq

/-- A row of `veygrit_ship_idempotency_record`, by its `idempotency_ref`. -/
structure Row where
  key : Key
  requestHash : JsString
  state : State
  response : Response
  leaseExpiresAt : Instant
  expiresAt : Instant
  completedAt : Option Instant
deriving DecidableEq

abbrev Table := Record JsString Row

/-! ## Statements -/

/-- What a statement leaves and what its caller sees of it. -/
def reply {α : Type} (link : Link) (t : Table) (done : Except JsString (α × Table)) :
    Except JsString α × Table :=
  match link, done with
  | .refused message, _ => (.error message, t)
  | .up, .ok (a, t') => (.ok a, t')
  | .lost message, .ok (_, t') => (.error message, t')
  | _, .error message => (.error message, t)

structure Reservation where
  idempotencyRef : JsString
  key : Key
  requestHash : JsString
  leaseExpiresAt : Instant
  expiresAt : Instant
deriving DecidableEq

def Reservation.row (r : Reservation) : Row where
  key := r.key
  requestHash := r.requestHash
  state := .inProgress
  response := ⟨none, none, none⟩
  leaseExpiresAt := r.leaseExpiresAt
  expiresAt := r.expiresAt
  completedAt := none

def existing (key : Key) (t : Table) : Option (JsString × Row) :=
  t.entries.find? (·.2.key = key)

/-- `INSERT … ON CONFLICT DO NOTHING`: whether the row was inserted. -/
def insertRow (r : Reservation) (now : Instant) (t : Table) : Except JsString (Bool × Table) :=
  if r.expiresAt ≤ now then
    .error (js "new row for relation \"veygrit_ship_idempotency_record\" violates check constraint")
  else if (t.get? r.idempotencyRef).isSome || (existing r.key t).isSome then .ok (false, t)
  else .ok (true, t.set r.idempotencyRef r.row)

/-- Whether the record was reclaimed. -/
def reclaimRow (k : JsString) (leaseExpiresAt now : Instant) (t : Table) :
    Except JsString (Bool × Table) :=
  match t.updateAt k (fun row => row.state = .inProgress ∧ row.leaseExpiresAt ≤ now)
      (fun row => { row with leaseExpiresAt := leaseExpiresAt }) with
  | some t' => .ok (true, t')
  | none => .ok (false, t)

section Calls

variable (P : Platform) (sha256 : JsString → JsString)

/-! ## The calls -/

structure ReserveInput where
  owner : ShipOwner
  idempotencyRef : JsString
  operation : JsString
  idempotencyKey : JsString
  requestHash : JsString
  leaseExpiresAt : JsString
  expiresAt : JsString
deriving DecidableEq

inductive IdempotencyReservation where
  | acquired (idempotencyRef : JsString)
  | busy (idempotencyRef : JsString)
  | conflict (idempotencyRef : JsString)
  | replay (idempotencyRef : JsString) (outcome : Outcome) (response : Response)
deriving DecidableEq

structure FinishInput where
  outcome : Outcome
  responseStatus : Option ℤ
  responseBodyRef : Option JsString
  responseBodySha256 : Option JsString
deriving DecidableEq

/-- The references that `resolveOwner` looks up. -/
def ownerOf (owner : ShipOwner) : Except JsString ShipOwner :=
  match owner with
  | .merchant merchantRef =>
    -- an empty reference is none, and the guest's is undefined
    if merchantRef = [] then
      .error (js "Cannot read properties of undefined (reading 'normalize')")
    else (ref P merchantRef (js "merchantRef") 100).map .merchant
  | .guest sessionRef => (ref P sessionRef (js "guestSessionRef") 100).map .guest

/-- `active`: there is an active row of that reference. -/
def resolveOwner (link : Link) (active : Bool) (owner : ShipOwner) : Except JsString ShipOwner :=
  match ownerOf P owner, link with
  | .error message, _ => .error message
  | .ok _, .refused message => .error message
  | .ok _, .lost message => .error message
  | .ok owner, .up =>
    if active then .ok owner
    else match owner with
    | .merchant _ => .error (js "Active merchant was not found.")
    | .guest _ => .error (js "Active guest session was not found.")

def reservation (owner : ShipOwner) (input : ReserveInput) : Except JsString Reservation := do
  let idempotencyRef ← ref P input.idempotencyRef (js "idempotencyRef") 100
  let operation ← ref P input.operation (js "operation") 150
  let idempotencyKey ← ref P input.idempotencyKey (js "idempotencyKey") 500
  let requestHash ← assertHash input.requestHash (js "requestHash")
  let leaseExpiresAt ← date P input.leaseExpiresAt (js "leaseExpiresAt")
  let expiresAt ← date P input.expiresAt (js "expiresAt")
  return ⟨idempotencyRef, ⟨owner, operation, sha256 idempotencyKey⟩, requestHash, leaseExpiresAt,
    expiresAt⟩

/-- What comes next of a call of `reserveIdempotency`. -/
inductive Phase where
  | called
  | resolved (owner : ShipOwner)
  | conflicting (r : Reservation)
  | reclaiming (idempotencyRef : JsString) (r : Reservation)
  | answered (result : Except JsString IdempotencyReservation)

structure Request where
  input : ReserveInput
  phase : Phase

/-- What a statement reads from outside: when it began, how it comes back and whether the owner is
active. -/
structure Env where
  now : Instant
  link : Link
  active : Bool
deriving DecidableEq

/-- What the row with the same key says to a request. -/
def compared (r : Reservation) : Option (JsString × Row) → Phase
  | none => .answered (.error (js "Idempotency record conflict could not be resolved."))
  | some (k, row) =>
    if row.requestHash ≠ r.requestHash then .answered (.ok (.conflict k))
    else match row.state with
    | .finished outcome => .answered (.ok (.replay k outcome row.response))
    | .inProgress => .reclaiming k r

/-- The next statement of `reserveIdempotency`; none where it has answered. -/
def reserveIdempotency (env : Env) (t : Table) (request : Request) : Option (Phase × Table) :=
  match request.phase with
  | .called =>
    match resolveOwner P env.link env.active request.input.owner with
    | .ok owner => some (.resolved owner, t)
    | .error message => some (.answered (.error message), t)
  | .resolved owner =>
    match reservation P sha256 owner request.input with
    | .error message => some (.answered (.error message), t)
    | .ok r =>
      match reply env.link t (insertRow r env.now t) with
      | (.ok true, t') => some (.answered (.ok (.acquired r.idempotencyRef)), t')
      | (.ok false, t') => some (.conflicting r, t')
      | (.error message, t') => some (.answered (.error message), t')
  | .conflicting r =>
    match reply env.link t (.ok (existing r.key t, t)) with
    | (.ok row, t') => some (compared r row, t')
    | (.error message, t') => some (.answered (.error message), t')
  | .reclaiming k r =>
    match reply env.link t (reclaimRow k r.leaseExpiresAt env.now t) with
    | (.ok true, t') => some (.answered (.ok (.acquired k)), t')
    | (.ok false, t') => some (.answered (.ok (.busy k)), t')
    | (.error message, t') => some (.answered (.error message), t')
  | .answered _ => none

def optionalHash (value : Option JsString) (name : JsString) : Except JsString (Option JsString) :=
  match value.bind nonEmpty with
  | some value => (assertHash value name).map some
  | none => .ok none

/-- The values that `finishIdempotency` puts into its statement. -/
structure Finish where
  idempotencyRef : JsString
  requestHash : JsString
  outcome : Outcome
  response : Response
deriving DecidableEq

def finish (idempotencyRef requestHash : JsString) (input : FinishInput) :
    Except JsString Finish := do
  let idempotencyRef ← ref P idempotencyRef (js "idempotencyRef") 100
  let requestHash ← assertHash requestHash (js "requestHash")
  let bodySha256 ← optionalHash input.responseBodySha256 (js "responseBodySha256")
  return ⟨idempotencyRef, requestHash, input.outcome,
    ⟨input.responseStatus, trimmed input.responseBodyRef, bodySha256⟩⟩

def Finish.row (f : Finish) (now : Instant) (row : Row) : Row :=
  { row with
    state := .finished f.outcome
    response := f.response
    completedAt := if f.outcome = .completed then some now else none }

/-- `CHECK (response_status BETWEEN 100 AND 599)`. -/
def Response.inRange (response : Response) : Bool :=
  response.status.all fun status => 100 ≤ status && status ≤ 599

def finishRow (f : Finish) (now : Instant) (t : Table) : Except JsString (Unit × Table) :=
  match t.updateAt f.idempotencyRef
      (fun row => row.requestHash = f.requestHash ∧ row.state = .inProgress) (f.row now) with
  | some t' =>
    if f.response.inRange then .ok ((), t')
    else .error
      (js "new row for relation \"veygrit_ship_idempotency_record\" violates check constraint")
  | none => .error (js "In-progress idempotency record was not found.")

def finishIdempotency (link : Link) (idempotencyRef requestHash : JsString) (input : FinishInput)
    (now : Instant) (t : Table) : Except JsString Unit × Table :=
  match finish P idempotencyRef requestHash input with
  | .error message => (.error message, t)
  | .ok f => reply link t (finishRow f now t)

/-! ## All of them -/

structure World where
  now : Instant
  table : Table
  requests : List Request

inductive Event where
  | tick (now : Instant)
  | call (input : ReserveInput)
  | work (i : ℕ) (env : Env)
  | finish (i : ℕ) (link : Link) (now : Instant) (input : FinishInput)

/-- The record a request was told it has acquired. -/
def Request.acquired (request : Request) : Option JsString :=
  match request.phase with
  | .answered (.ok (.acquired k)) => some k
  | _ => none

/-- Only a request that has acquired a record finishes it. -/
def next (w : World) : Event → Option World
  | .tick now => if w.now ≤ now then some { w with now := now } else none
  | .call input => some { w with requests := w.requests ++ [⟨input, .called⟩] }
  | .work i env =>
    if w.now < env.now then none
    else match w.requests[i]? with
    | none => none
    | some request =>
      match reserveIdempotency P sha256 env w.table request with
      | none => none
      | some (phase, t') =>
        some { w with table := t', requests := w.requests.set i ⟨request.input, phase⟩ }
  | .finish i link now input =>
    if w.now < now then none
    else match w.requests[i]? with
    | none => none
    | some request =>
      match request.acquired with
      | none => none
      | some k =>
        some { w with
          table := (finishIdempotency P link k request.input.requestHash input now w.table).2 }

abbrev Past := History.Past World Event

/-- A run from a table without rows. -/
def Run (past : Past) (w : World) : Prop :=
  ∃ now, History.Run (next P sha256) ⟨now, .empty, []⟩ past w

/-! ## Holders -/

/-- The statement is done, whether or not its caller hears of it. -/
def reaches (link : Link) : Bool :=
  match link with
  | .refused _ => false
  | _ => true

def Event.request : Event → Option ℕ
  | .work i _ => some i
  | .finish i .. => some i
  | _ => none

/-- The request whose statement leases a record, and the record. -/
def leased (w : World) : Event → Option (ℕ × JsString)
  | .work i env =>
    match w.requests[i]? with
    | none => none
    | some request =>
      match request.phase with
      | .resolved owner =>
        match reservation P sha256 owner request.input with
        | .ok r =>
          if reaches env.link && (insertRow r env.now w.table).toOption.any (·.1) then
            some (i, r.idempotencyRef)
          else none
        | .error _ => none
      | .reclaiming k r =>
        if reaches env.link
            && (reclaimRow k r.leaseExpiresAt env.now w.table).toOption.any (·.1) then
          some (i, k)
        else none
      | _ => none
  | _ => none

/-- The request that a record was last leased to. -/
def holder (k : JsString) : Past → Option ℕ
  | [] => none
  | (w, e) :: past =>
    match (leased P sha256 w e).filter (·.2 = k) with
    | some (i, _) => some i
    | none => holder k past

/-- The request whose finishing statement a step is, and its values. -/
def finishes (w : World) : Event → Option (ℕ × Finish)
  | .finish i link _ input =>
    match w.requests[i]? with
    | none => none
    | some request =>
      match request.acquired with
      | none => none
      | some k =>
        match finish P k request.input.requestHash input with
        | .ok f => if reaches link && f.response.inRange then some (i, f) else none
        | .error _ => none
  | _ => none

/-- The record was leased, and no finishing statement of it was done since. -/
def held (k : JsString) : Past → Bool
  | [] => false
  | (w, e) :: past =>
    if (leased P sha256 w e).any (·.2 = k) then true
    else if (finishes P w e).any (·.2.idempotencyRef = k) then false
    else held k past

/-- What a request asks for. -/
def wanted (input : ReserveInput) : Except JsString Reservation :=
  match ownerOf P input.owner with
  | .ok owner => reservation P sha256 owner input
  | .error message => .error message

/-- The request was told that it has acquired `r`, and its lease lasts. -/
def Holds (w : World) (i : ℕ) (r : Reservation) : Prop :=
  ∃ request ∈ w.requests[i]?, request.acquired.isSome ∧ wanted P sha256 request.input = .ok r
    ∧ w.now < r.leaseExpiresAt

/-- Of the requests with one key at most one holds the reservation. -/
def OneHolder (w : World) : Prop :=
  ∀ i j r r', Holds P sha256 w i r → Holds P sha256 w j r' → r.key = r'.key → i = j

/-- A request whose record was leased to another leaves it as it is. -/
def LeavesAlone (past : Past) (w : World) (e : Event) : Prop :=
  ∀ i ∈ e.request, ∀ request ∈ w.requests[i]?, ∀ k ∈ request.acquired,
    holder P sha256 k past ≠ some i → ∀ w' ∈ next P sha256 w e, w'.table.get? k = w.table.get? k

instance (past : Past) (w : World) (e : Event) : Decidable (LeavesAlone P sha256 past w e) :=
  inferInstanceAs (Decidable (∀ _ ∈ _, ∀ _ ∈ _, ∀ _ ∈ _, _))

/-- The response a request is answered with instead of a reservation. -/
def Request.replayed (request : Request) : Option (JsString × Outcome × Response) :=
  match request.phase with
  | .answered (.ok (.replay k outcome response)) => some (k, outcome, response)
  | _ => none

/-- The request gave the response of the record. -/
def Gave (past : Past) (i : ℕ) (k : JsString) (outcome : Outcome) (response : Response) : Prop :=
  ∃ step ∈ past, ∃ requestHash,
    finishes P step.1 step.2 = some (i, ⟨k, requestHash, outcome, response⟩)

/-- The response a request is answered with is that of the record's holder. -/
def AnswersHolders (past : Past) (w : World) (e : Event) : Prop :=
  ∀ w' ∈ next P sha256 w e, ∀ i ∈ e.request, ∀ request ∈ w'.requests[i]?,
    ∀ replayed ∈ request.replayed, ∃ j ∈ holder P sha256 replayed.1 past,
      Gave P past j replayed.1 replayed.2.1 replayed.2.2

def Fenced (past : Past) (w : World) (e : Event) : Prop :=
  OneHolder P sha256 w ∧ LeavesAlone P sha256 past w e ∧ AnswersHolders P sha256 past w e

/-- When a request whose record was leased to another comes to finish it, the record has been
finished since. -/
def FinishedBefore (past : Past) (w : World) (e : Event) : Prop :=
  ∀ finished ∈ finishes P w e, holder P sha256 finished.2.idempotencyRef past ≠ some finished.1 →
    held P sha256 finished.2.idempotencyRef past = false

end Calls

end Agid.VeygritShip.Idempotency
