import Agid.ShipIdempotency
import Agid.Proofs.ShipJobs

/-!
# Reservations are fenced until the second lease

A record is leased again only when its lease is over, so at most one request holds a reservation.
`finishIdempotency` finishes whatever record is in progress: the request it was taken from leaves it
alone just when the record has been finished since it was last leased.
-/

namespace Agid.VeygritShip.Idempotency

variable {P : Platform} {sha256 : JsString → JsString} {past : Past} {w w' : World} {e : Event}
  {t t' : Table} {request : Request} {i : ℕ} {k : JsString} {r : Reservation}

/-! ## Statements -/

/-- A statement that may lease a record is not done or finds none to lease, which its caller hears
or not, or it leases one, which its caller hears or not. -/
theorem reply_cases (link : Link) (done : Except JsString (Bool × Table))
    (same : ∀ t', done = .ok (false, t') → t' = t) :
    ((reaches link && done.toOption.any (·.1)) = false
        ∧ ((∃ message, reply link t done = (.error message, t))
          ∨ reply link t done = (.ok false, t)))
      ∨ (reaches link && done.toOption.any (·.1)) = true ∧ ∃ t', done = .ok (true, t')
        ∧ (reply link t done = (.ok true, t')
          ∨ ∃ message, reply link t done = (.error message, t')) := by
  rcases done with message | ⟨_ | _, t'⟩
  · refine .inl ⟨by simp [Except.toOption], .inl ?_⟩
    cases link <;> exact ⟨_, rfl⟩
  · obtain rfl := same t' rfl
    refine .inl ⟨by simp [Except.toOption], ?_⟩
    cases link with
    | up => exact .inr rfl
    | refused message => exact .inl ⟨message, rfl⟩
    | lost message => exact .inl ⟨message, rfl⟩
  · cases link with
    | refused message => exact .inl ⟨rfl, .inl ⟨message, rfl⟩⟩
    | up => exact .inr ⟨rfl, t', rfl, .inl rfl⟩
    | lost message => exact .inr ⟨rfl, t', rfl, .inr ⟨message, rfl⟩⟩

theorem existing_eq_some {key : Key} {row : Row} (h : existing key t = some (k, row)) :
    t.get? k = some row ∧ row.key = key := by
  refine ⟨Record.mem_entries.1 (List.mem_of_find?_eq_some h), ?_⟩
  simpa using List.find?_some h

theorem existing_eq_none {key : Key} {row : Row} (h : existing key t = none)
    (hk : t.get? k = some row) : row.key ≠ key := by
  simpa using List.find?_eq_none.1 h _ (Record.mem_entries.2 hk)

theorem insertRow_eq_true {now : Instant} (h : insertRow r now t = .ok (true, t')) :
    t.get? r.idempotencyRef = none ∧ existing r.key t = none
      ∧ t' = t.set r.idempotencyRef r.row := by
  unfold insertRow at h
  split_ifs at h with hchecked hconflict
  · cases h
  · simp only [Bool.or_eq_true, not_or, Bool.not_eq_true, Option.isSome_eq_false_iff,
      Option.isNone_iff_eq_none] at hconflict
    cases h
    exact ⟨hconflict.1, hconflict.2, rfl⟩

theorem insertRow_eq_false {now : Instant} (h : insertRow r now t = .ok (false, t')) : t' = t := by
  unfold insertRow at h
  split_ifs at h <;> cases h
  rfl

theorem reclaimRow_eq_true {leaseExpiresAt now : Instant}
    (h : reclaimRow k leaseExpiresAt now t = .ok (true, t')) :
    ∃ row, t.get? k = some row ∧ row.state = .inProgress ∧ row.leaseExpiresAt ≤ now
      ∧ t' = t.set k { row with leaseExpiresAt := leaseExpiresAt } := by
  unfold reclaimRow at h
  split at h
  · rename_i t'' hupdate
    cases h
    obtain ⟨row, hrow, hp, rfl⟩ := Record.updateAt_eq_some.1 hupdate
    obtain ⟨hstate, hover⟩ := of_decide_eq_true hp
    exact ⟨row, hrow, hstate, hover, rfl⟩
  · cases h

theorem reclaimRow_eq_false {leaseExpiresAt now : Instant}
    (h : reclaimRow k leaseExpiresAt now t = .ok (false, t')) : t' = t := by
  unfold reclaimRow at h
  split at h <;> cases h
  rfl

/-! ## Inputs -/

theorem reservation_eq_ok {owner : ShipOwner} {input : ReserveInput}
    (h : reservation P sha256 owner input = .ok r) :
    Normal P r.idempotencyRef
      ∧ assertHash input.requestHash (js "requestHash") = .ok r.requestHash := by
  obtain ⟨ref, href, h⟩ := bind_eq_ok.1 h
  obtain ⟨operation, -, h⟩ := bind_eq_ok.1 h
  obtain ⟨key, -, h⟩ := bind_eq_ok.1 h
  obtain ⟨hash, hhash, h⟩ := bind_eq_ok.1 h
  obtain ⟨lease, -, h⟩ := bind_eq_ok.1 h
  obtain ⟨expires, -, h⟩ := bind_eq_ok.1 h
  cases h
  exact ⟨normal_of_ref href, hhash⟩

theorem wanted_eq_ok {input : ReserveInput} (h : wanted P sha256 input = .ok r) :
    Normal P r.idempotencyRef
      ∧ assertHash input.requestHash (js "requestHash") = .ok r.requestHash := by
  unfold wanted at h
  split at h
  · exact reservation_eq_ok h
  · cases h

theorem finish_eq_ok {requestHash hash : JsString} {input : FinishInput} {f : Finish}
    (hk : Normal P k) (hhash : assertHash requestHash (js "requestHash") = .ok hash)
    (h : finish P k requestHash input = .ok f) :
    f.idempotencyRef = k ∧ f.requestHash = hash := by
  obtain ⟨ref, href, h⟩ := bind_eq_ok.1 h
  obtain ⟨hash', hhash', h⟩ := bind_eq_ok.1 h
  obtain ⟨sha, -, h⟩ := bind_eq_ok.1 h
  cases h
  rw [hk.ref] at href
  rw [hhash] at hhash'
  cases href
  cases hhash'
  exact ⟨rfl, rfl⟩

theorem ownerOf_of_resolveOwner {link : Link} {active : Bool} {owner owner' : ShipOwner}
    (h : resolveOwner P link active owner = .ok owner') : ownerOf P owner = .ok owner' := by
  unfold resolveOwner at h
  split at h
  · cases h
  · cases h
  · cases h
  · rename_i found howner
    rw [howner]
    split at h
    · exact h
    · split at h <;> cases h

/-! ## Requests -/

/-- The record is that of the reservation. -/
def Serves (t : Table) (k : JsString) (r : Reservation) : Prop :=
  ∃ row, t.get? k = some row ∧ row.key = r.key ∧ row.requestHash = r.requestHash

/-- No row is lost, and none gets another key or another request. -/
def Keeps (t t' : Table) : Prop := ∀ k r, Serves t k r → Serves t' k r

theorem Keeps.set (row : Row) {row' : Row} (h : ∀ old, t.get? k = some old → old = row)
    (hkey : row'.key = row.key) (hhash : row'.requestHash = row.requestHash) :
    Keeps t (t.set k row') := by
  rintro k' r ⟨old, hold, hk, hr⟩
  rw [Serves, Record.get?_set]
  split_ifs with hkk
  · subst hkk
    obtain rfl := h old hold
    exact ⟨row', rfl, hkey.trans hk, hhash.trans hr⟩
  · exact ⟨old, hold, hk, hr⟩

/-- What a request has found out. -/
def Fits (P : Platform) (sha256 : JsString → JsString) (t : Table) (request : Request) : Prop :=
  match request.phase with
  | .resolved owner => ownerOf P request.input.owner = .ok owner
  | .conflicting r => wanted P sha256 request.input = .ok r
  | .reclaiming k r => wanted P sha256 request.input = .ok r ∧ Serves t k r
  | .answered (.ok (.acquired k)) => ∃ r, wanted P sha256 request.input = .ok r ∧ Serves t k r
  | _ => True

theorem Fits.keeps (h : Fits P sha256 t request) (hkeeps : Keeps t t') :
    Fits P sha256 t' request := by
  unfold Fits at h ⊢
  split at h
  · exact h
  · exact h
  · exact ⟨h.1, hkeeps _ _ h.2⟩
  · obtain ⟨r, hr, hserves⟩ := h
    exact ⟨r, hr, hkeeps _ _ hserves⟩
  · trivial

theorem acquired_eq_some : request.acquired = some k ↔
    request.phase = .answered (.ok (.acquired k)) := by
  unfold Request.acquired
  split
  · rename_i k' h
    rw [h]
    simp
  · rename_i h
    simpa using h k

theorem Fits.acquired (h : Fits P sha256 t request) (hk : request.acquired = some k) :
    ∃ r, wanted P sha256 request.input = .ok r ∧ Serves t k r := by
  rw [acquired_eq_some] at hk
  unfold Fits at h
  rw [hk] at h
  exact h

/-- What a statement of `reserveIdempotency` does: nothing to the table, or it leases a record. -/
inductive Reserves (P : Platform) (sha256 : JsString → JsString) (w : World) (i : ℕ) (env : Env)
    (request : Request) (phase : Phase) (t' : Table) : Prop
  | read (table : t' = w.table) (unleased : leased P sha256 w (.work i env) = none)
      (fits : Fits P sha256 w.table ⟨request.input, phase⟩)
      (unacquired : (⟨request.input, phase⟩ : Request).acquired = none)
      (found : ∀ k outcome response, phase = .answered (.ok (.replay k outcome response)) →
        ∃ row, w.table.get? k = some row ∧ row.state = .finished outcome ∧ row.response = response)
  | inserted (r : Reservation) (here : leased P sha256 w (.work i env) = some (i, r.idempotencyRef))
      (asked : wanted P sha256 request.input = .ok r) (new : w.table.get? r.idempotencyRef = none)
      (unique : existing r.key w.table = none) (table : t' = w.table.set r.idempotencyRef r.row)
      (told : phase = .answered (.ok (.acquired r.idempotencyRef))
        ∨ ∃ message, phase = .answered (.error message))
  | reclaimed (k : JsString) (r : Reservation) (row : Row)
      (here : leased P sha256 w (.work i env) = some (i, k))
      (asked : wanted P sha256 request.input = .ok r) (serves : Serves w.table k r)
      (old : w.table.get? k = some row) (running : row.state = .inProgress)
      (expired : row.leaseExpiresAt ≤ env.now)
      (table : t' = w.table.set k { row with leaseExpiresAt := r.leaseExpiresAt })
      (told : phase = .answered (.ok (.acquired k)) ∨ ∃ message, phase = .answered (.error message))

theorem fits_error (P : Platform) (sha256 : JsString → JsString) (t : Table)
    (input : ReserveInput) (message : JsString) :
    Fits P sha256 t ⟨input, .answered (.error message)⟩ := trivial

theorem compared_reads (h : wanted P sha256 request.input = .ok r) {env : Env}
    (unleased : leased P sha256 w (.work i env) = none) :
    Reserves P sha256 w i env request (compared r (existing r.key w.table)) w.table := by
  rcases hrow : existing r.key w.table with _ | ⟨k, row⟩
  · exact .read rfl unleased (fits_error ..) rfl fun _ _ _ h => by cases h
  · obtain ⟨hget, hkey⟩ := existing_eq_some hrow
    by_cases hhash : row.requestHash = r.requestHash
    · cases hstate : row.state with
      | finished outcome =>
        simp only [compared, hhash, ne_eq, not_true_eq_false, if_false, hstate]
        refine .read rfl unleased trivial rfl fun _ _ _ h => ?_
        cases h
        exact ⟨row, hget, hstate, rfl⟩
      | inProgress =>
        simp only [compared, hhash, ne_eq, not_true_eq_false, if_false, hstate]
        exact .read rfl unleased ⟨h, row, hget, hkey, hhash⟩ rfl fun _ _ _ h => by cases h
    · simp only [compared, ne_eq, hhash, not_false_eq_true, if_true]
      exact .read rfl unleased trivial rfl fun _ _ _ h => by cases h

theorem reserves_of_resolved {env : Env} {owner : ShipOwner} {phase : Phase}
    (hi : w.requests[i]? = some request) (hphase : request.phase = .resolved owner)
    (howner : ownerOf P request.input.owner = .ok owner)
    (h : reserveIdempotency P sha256 env w.table request = some (phase, t')) :
    Reserves P sha256 w i env request phase t' := by
  simp only [reserveIdempotency, hphase] at h
  rcases hr : reservation P sha256 owner request.input with message | r
  · rw [hr] at h
    cases h
    exact .read rfl (by simp only [leased, hi, hphase, hr]) (fits_error ..) rfl
      fun _ _ _ h => by cases h
  · have hasked : wanted P sha256 request.input = .ok r := by simp only [wanted, howner, hr]
    have hleased : leased P sha256 w (.work i env)
        = if reaches env.link && (insertRow r env.now w.table).toOption.any (·.1) then
          some (i, r.idempotencyRef) else none := by
      simp only [leased, hi, hphase, hr]
    rw [hr] at h
    simp only at h
    rcases reply_cases (t := w.table) env.link (insertRow r env.now w.table)
        fun _ => insertRow_eq_false with
      ⟨hnone, ⟨message, hreply⟩ | hreply⟩ | ⟨hsome, t'', hdone, hreply⟩
    · rw [hreply] at h
      cases h
      exact .read rfl (by rw [hleased, hnone]; rfl) (fits_error ..) rfl fun _ _ _ h => by cases h
    · rw [hreply] at h
      cases h
      exact .read rfl (by rw [hleased, hnone]; rfl) hasked rfl fun _ _ _ h => by cases h
    · rw [hsome, if_pos rfl] at hleased
      obtain ⟨hnew, hunique, ht''⟩ := insertRow_eq_true hdone
      rcases hreply with hreply | ⟨message, hreply⟩
      · rw [hreply] at h
        cases h
        exact .inserted r hleased hasked hnew hunique ht'' (.inl rfl)
      · rw [hreply] at h
        cases h
        exact .inserted r hleased hasked hnew hunique ht'' (.inr ⟨message, rfl⟩)

theorem reserves_of_reclaiming {env : Env} {phase : Phase}
    (hi : w.requests[i]? = some request) (hphase : request.phase = .reclaiming k r)
    (hasked : wanted P sha256 request.input = .ok r) (hserves : Serves w.table k r)
    (h : reserveIdempotency P sha256 env w.table request = some (phase, t')) :
    Reserves P sha256 w i env request phase t' := by
  simp only [reserveIdempotency, hphase] at h
  have hleased : leased P sha256 w (.work i env)
      = if reaches env.link && (reclaimRow k r.leaseExpiresAt env.now w.table).toOption.any (·.1)
        then some (i, k) else none := by
    simp only [leased, hi, hphase]
  rcases reply_cases (t := w.table) env.link (reclaimRow k r.leaseExpiresAt env.now w.table)
      fun _ => reclaimRow_eq_false with
    ⟨hnone, ⟨message, hreply⟩ | hreply⟩ | ⟨hsome, t'', hdone, hreply⟩
  · rw [hreply] at h
    cases h
    exact .read rfl (by rw [hleased, hnone]; rfl) (fits_error ..) rfl fun _ _ _ h => by cases h
  · rw [hreply] at h
    cases h
    exact .read rfl (by rw [hleased, hnone]; rfl) trivial rfl fun _ _ _ h => by cases h
  · rw [hsome, if_pos rfl] at hleased
    obtain ⟨row, hrow, hrunning, hexpired, ht''⟩ := reclaimRow_eq_true hdone
    rcases hreply with hreply | ⟨message, hreply⟩
    · rw [hreply] at h
      cases h
      exact .reclaimed k r row hleased hasked hserves hrow hrunning hexpired ht'' (.inl rfl)
    · rw [hreply] at h
      cases h
      exact .reclaimed k r row hleased hasked hserves hrow hrunning hexpired ht''
        (.inr ⟨message, rfl⟩)

theorem reserves {env : Env} {phase : Phase} (hi : w.requests[i]? = some request)
    (fits : Fits P sha256 w.table request)
    (h : reserveIdempotency P sha256 env w.table request = some (phase, t')) :
    Reserves P sha256 w i env request phase t' := by
  rcases hphase : request.phase with _ | owner | r | ⟨k, r⟩ | result
  · have unleased : leased P sha256 w (.work i env) = none := by simp only [leased, hi, hphase]
    simp only [reserveIdempotency, hphase] at h
    split at h
    · rename_i owner howner
      cases h
      exact .read rfl unleased (ownerOf_of_resolveOwner howner) rfl fun _ _ _ h => by cases h
    · cases h
      exact .read rfl unleased (fits_error ..) rfl fun _ _ _ h => by cases h
  · rw [Fits, hphase] at fits
    exact reserves_of_resolved hi hphase fits h
  · have unleased : leased P sha256 w (.work i env) = none := by simp only [leased, hi, hphase]
    rw [Fits, hphase] at fits
    simp only [reserveIdempotency, hphase] at h
    cases hlink : env.link with
    | up =>
      rw [hlink] at h
      cases h
      exact compared_reads fits unleased
    | refused message =>
      rw [hlink] at h
      cases h
      exact .read rfl unleased (fits_error ..) rfl fun _ _ _ h => by cases h
    | lost message =>
      rw [hlink] at h
      cases h
      exact .read rfl unleased (fits_error ..) rfl fun _ _ _ h => by cases h
  · rw [Fits, hphase] at fits
    exact reserves_of_reclaiming hi hphase fits.1 fits.2 h
  · simp only [reserveIdempotency, hphase] at h
    cases h

/-! ## Steps -/

/-- What a step does to the table. -/
inductive Writes (P : Platform) (sha256 : JsString → JsString) (w : World) (e : Event)
    (t' : Table) : Prop
  | kept (table : t' = w.table) (unleased : leased P sha256 w e = none)
      (missed : ∀ finished ∈ finishes P w e,
        (w.table.get? finished.2.idempotencyRef).any (·.state = .inProgress) = false)
  | inserted (i : ℕ) (r : Reservation) (here : leased P sha256 w e = some (i, r.idempotencyRef))
      (unfinished : finishes P w e = none) (normal : Normal P r.idempotencyRef)
      (new : w.table.get? r.idempotencyRef = none) (unique : existing r.key w.table = none)
      (table : t' = w.table.set r.idempotencyRef r.row)
  | reclaimed (i : ℕ) (k : JsString) (r : Reservation) (row : Row)
      (here : leased P sha256 w e = some (i, k)) (unfinished : finishes P w e = none)
      (old : w.table.get? k = some row) (running : row.state = .inProgress)
      (expired : row.leaseExpiresAt ≤ w.now)
      (table : t' = w.table.set k { row with leaseExpiresAt := r.leaseExpiresAt })
  | finished (i : ℕ) (f : Finish) (now : Instant) (row : Row)
      (here : finishes P w e = some (i, f)) (unleased : leased P sha256 w e = none)
      (old : w.table.get? f.idempotencyRef = some row) (running : row.state = .inProgress)
      (table : t' = w.table.set f.idempotencyRef (f.row now row))

theorem finishing_writes {link : Link} {now : Instant} {input : FinishInput}
    (hi : w.requests[i]? = some request) (hk : request.acquired = some k)
    (fits : Fits P sha256 w.table request) (hnormal : Normal P k) :
    Writes P sha256 w (.finish i link now input)
      (finishIdempotency P link k request.input.requestHash input now w.table).2 := by
  obtain ⟨r, hasked, row, hrow, -, hhash⟩ := fits.acquired hk
  unfold finishIdempotency
  rcases hf : finish P k request.input.requestHash input with message | f
  · have hfinishes : finishes P w (.finish i link now input) = none := by
      simp only [finishes, hi, hk, hf]
    exact .kept rfl rfl fun _ h => by rw [hfinishes] at h; cases h
  have hfinishes : finishes P w (.finish i link now input)
      = if reaches link && f.response.inRange then some (i, f) else none := by
    simp only [finishes, hi, hk, hf]
  obtain ⟨rfl, hf'⟩ := finish_eq_ok hnormal (wanted_eq_ok hasked).2 hf
  simp only
  by_cases hrunning : row.state = .inProgress
  · have hupdate : w.table.updateAt f.idempotencyRef
        (fun row => row.requestHash = f.requestHash ∧ row.state = .inProgress) (f.row now)
          = some (w.table.set f.idempotencyRef (f.row now row)) :=
      Record.updateAt_eq_some.2 ⟨row, hrow, by simp [hhash, hf', hrunning], rfl⟩
    rw [finishRow, hupdate]
    simp only
    by_cases hrange : f.response.inRange = true
    · rw [if_pos hrange]
      rw [hrange, Bool.and_true] at hfinishes
      cases link with
      | up => exact .finished i f now row hfinishes rfl hrow hrunning rfl
      | lost => exact .finished i f now row hfinishes rfl hrow hrunning rfl
      | refused => exact .kept rfl rfl fun _ h => by rw [hfinishes] at h; cases h
    · rw [if_neg hrange]
      rw [Bool.not_eq_true] at hrange
      rw [hrange, Bool.and_false, if_neg Bool.false_ne_true] at hfinishes
      cases link <;> exact .kept rfl rfl fun _ h => by rw [hfinishes] at h; cases h
  · have hupdate : w.table.updateAt f.idempotencyRef
        (fun row => row.requestHash = f.requestHash ∧ row.state = .inProgress) (f.row now)
          = none := by
      rw [Record.updateAt_eq_none]
      rintro _ h
      rw [hrow] at h
      cases h
      simp [hrunning]
    rw [finishRow, hupdate]
    refine .kept (by cases link <;> rfl) rfl fun finished h => ?_
    rw [hfinishes] at h
    split_ifs at h <;> cases h
    simp [hrow, hrunning]

/-- A request after a step: as it was, new, or a statement further. -/
theorem request_cases {request' : Request} (h : next P sha256 w e = some w')
    (hi : w'.requests[i]? = some request') :
    w.requests[i]? = some request' ∨ request'.phase = .called
      ∨ ∃ env request, e = .work i env ∧ env.now ≤ w.now ∧ w.requests[i]? = some request
        ∧ request'.input = request.input
        ∧ reserveIdempotency P sha256 env w.table request = some (request'.phase, w'.table) := by
  cases e with
  | tick now =>
    simp only [next, Option.ite_none_right_eq_some, Option.some.injEq] at h
    obtain ⟨-, rfl⟩ := h
    exact .inl hi
  | call input =>
    simp only [next, Option.some.injEq] at h
    subst h
    rcases lt_or_ge i w.requests.length with hlt | hge
    · rw [List.getElem?_append_left hlt] at hi
      exact .inl hi
    · rw [List.getElem?_append_right hge] at hi
      obtain ⟨rfl⟩ := List.mem_singleton.1 (List.mem_of_getElem? hi)
      exact .inr (.inl rfl)
  | work j env =>
    simp only [next] at h
    split_ifs at h with hnow
    split at h
    · cases h
    · rename_i request hj
      split at h
      · cases h
      · rename_i phase t' hreserve
        simp only [Option.some.injEq] at h
        subst h
        rw [List.getElem?_set] at hi
        split_ifs at hi with hji hlt
        · subst hji
          simp only [Option.some.injEq] at hi
          subst hi
          exact .inr (.inr ⟨env, request, rfl, not_lt.1 hnow, hj, rfl, hreserve⟩)
        · exact .inl hi
  | finish j link now input =>
    simp only [next] at h
    split_ifs at h with hnow
    split at h
    · cases h
    · split at h
      · cases h
      · simp only [Option.some.injEq] at h
        subst h
        exact .inl hi

theorem step_writes
    (fits : ∀ (i : ℕ) request, w.requests[i]? = some request → Fits P sha256 w.table request)
    (normal : ∀ k row, w.table.get? k = some row → Normal P k)
    (h : next P sha256 w e = some w') : Writes P sha256 w e w'.table := by
  cases e with
  | tick now =>
    simp only [next, Option.ite_none_right_eq_some, Option.some.injEq] at h
    obtain ⟨-, rfl⟩ := h
    exact .kept rfl rfl fun _ h => by cases h
  | call input =>
    simp only [next, Option.some.injEq] at h
    subst h
    exact .kept rfl rfl fun _ h => by cases h
  | work j env =>
    simp only [next] at h
    split_ifs at h with hnow
    split at h
    · cases h
    · rename_i request hj
      split at h
      · cases h
      · rename_i phase t' hreserve
        simp only [Option.some.injEq] at h
        subst h
        cases reserves hj (fits j request hj) hreserve with
        | read table unleased => exact .kept table unleased fun _ h => by cases h
        | inserted r here asked new unique table =>
          exact .inserted j r here rfl (wanted_eq_ok asked).1 new unique table
        | reclaimed k r row here asked serves old running expired table =>
          exact .reclaimed j k r row here rfl old running (expired.trans (not_lt.1 hnow)) table
  | finish j link now input =>
    simp only [next] at h
    split_ifs at h with hnow
    split at h
    · cases h
    · rename_i request hj
      split at h
      · cases h
      · rename_i k hk
        simp only [Option.some.injEq] at h
        subst h
        obtain ⟨_, -, row, hrow, -⟩ := (fits j request hj).acquired hk
        exact finishing_writes hj hk (fits j request hj) (normal k row hrow)

theorem Writes.keeps (h : Writes P sha256 w e t') : Keeps w.table t' := by
  cases h with
  | kept table =>
    rw [table]
    exact fun _ _ => id
  | inserted i r _ _ _ new _ table =>
    rw [table]
    exact .set r.row (fun old hold => by rw [new] at hold; cases hold) rfl rfl
  | reclaimed i k r row _ _ old _ _ table =>
    rw [table]
    exact .set _ (fun row' h => Option.some.inj (h.symm.trans old)) rfl rfl
  | finished i f now row _ _ old _ table =>
    rw [table]
    exact .set _ (fun row' h => Option.some.inj (h.symm.trans old)) rfl rfl

/-! ## Runs -/

theorem holder_cons (past : Past) (w : World) (e : Event) (k : JsString) :
    holder P sha256 k ((w, e) :: past)
      = match (leased P sha256 w e).filter (·.2 = k) with
        | some (i, _) => some i
        | none => holder P sha256 k past := rfl

theorem holder_leased (h : leased P sha256 w e = some (i, k)) :
    holder P sha256 k ((w, e) :: past) = some i := by
  simp only [holder_cons, h, Option.filter_some, decide_true, if_true]

theorem holder_of_ne {k' : JsString} (h : leased P sha256 w e = some (i, k')) (hne : k' ≠ k) :
    holder P sha256 k ((w, e) :: past) = holder P sha256 k past := by
  simp only [holder_cons, h, Option.filter_some, hne, decide_false, Bool.false_eq_true, if_false]

theorem holder_unleased (h : leased P sha256 w e = none) :
    holder P sha256 k ((w, e) :: past) = holder P sha256 k past := by
  rw [holder_cons, h, Option.filter_none]

structure Inv (P : Platform) (sha256 : JsString → JsString) (past : Past) (w : World) : Prop where
  normal : ∀ k row, w.table.get? k = some row → Normal P k
  keys : ∀ k k' row row', w.table.get? k = some row → w.table.get? k' = some row' →
    row.key = row'.key → k = k'
  fits : ∀ (i : ℕ) request, w.requests[i]? = some request → Fits P sha256 w.table request
  held : ∀ k, held P sha256 k past = (w.table.get? k).any (·.state = .inProgress)
  /-- A lease that lasts is the last one. -/
  lasting : ∀ (i : ℕ) request k r row, w.requests[i]? = some request → request.acquired = some k →
    wanted P sha256 request.input = .ok r → w.now < r.leaseExpiresAt → w.table.get? k = some row →
      holder P sha256 k past = some i ∧ row.leaseExpiresAt = r.leaseExpiresAt

theorem now_le (h : next P sha256 w e = some w') : w.now ≤ w'.now := by
  cases e with
  | tick now =>
    simp only [next, Option.ite_none_right_eq_some, Option.some.injEq] at h
    obtain ⟨hle, rfl⟩ := h
    exact hle
  | call input =>
    cases h
    exact le_rfl
  | work i env =>
    simp only [next] at h
    split_ifs at h
    split at h
    · cases h
    · split at h
      · cases h
      · cases h
        exact le_rfl
  | finish i link now input =>
    simp only [next] at h
    split_ifs at h
    split at h
    · cases h
    · split at h
      · cases h
      · cases h
        exact le_rfl

/-- The rows after a step have the keys they had, or one more is inserted. -/
theorem Writes.rows (h : Writes P sha256 w e t') :
    (∀ k row', t'.get? k = some row' → ∃ row, w.table.get? k = some row ∧ row'.key = row.key)
      ∨ ∃ r : Reservation, Normal P r.idempotencyRef ∧ existing r.key w.table = none
        ∧ t' = w.table.set r.idempotencyRef r.row := by
  have rows_set : ∀ {k row row'}, w.table.get? k = some row → row'.key = row.key →
      ∀ k' row'', (w.table.set k row').get? k' = some row'' →
        ∃ row, w.table.get? k' = some row ∧ row''.key = row.key := by
    intro k row row' hrow hkey k' row'' hrow''
    rw [Record.get?_set] at hrow''
    split_ifs at hrow'' with hk
    · cases hrow''
      exact ⟨row, hk ▸ hrow, hkey⟩
    · exact ⟨row'', hrow'', rfl⟩
  cases h with
  | kept table => exact .inl fun k row' hrow => ⟨row', table ▸ hrow, rfl⟩
  | inserted i r _ _ normal _ unique table => exact .inr ⟨r, normal, unique, table⟩
  | reclaimed i k r row _ _ old _ _ table =>
    rw [table]
    exact .inl (rows_set old rfl)
  | finished i f now row _ _ old _ table =>
    rw [table]
    exact .inl (rows_set old rfl)

theorem Inv.lasting_step (h : Inv P sha256 past w) (hnext : next P sha256 w e = some w')
    {request : Request} {row : Row} (hi : w'.requests[i]? = some request)
    (hk : request.acquired = some k) (hr : wanted P sha256 request.input = .ok r)
    (hnow : w'.now < r.leaseExpiresAt) (hrow : w'.table.get? k = some row) :
    holder P sha256 k ((w, e) :: past) = some i ∧ row.leaseExpiresAt = r.leaseExpiresAt := by
  have hwrites := step_writes h.fits h.normal hnext
  rcases request_cases hnext hi with hi | hcalled | ⟨env, request₀, rfl, -, hi₀, hinput, hreserve⟩
  · obtain ⟨-, -, old, hold, -⟩ := (h.fits i request hi).acquired hk
    have hlast := h.lasting i request k r old hi hk hr ((now_le hnext).trans_lt hnow) hold
    cases hwrites with
    | kept table unleased =>
      rw [table, hold] at hrow
      cases hrow
      rwa [holder_unleased unleased]
    | inserted j r' here _ _ new _ table =>
      have hne : r'.idempotencyRef ≠ k := by
        rintro rfl
        rw [new] at hold
        cases hold
      rw [table, Record.get?_set_of_ne _ _ hne, hold] at hrow
      cases hrow
      rwa [holder_of_ne here hne]
    | reclaimed j k' r' row' here _ old' _ expired table =>
      have hne : k' ≠ k := by
        rintro rfl
        rw [hold] at old'
        cases old'
        have := (now_le hnext).trans_lt hnow
        rw [← hlast.2] at this
        exact absurd expired (not_le.2 this)
      rw [table, Record.get?_set_of_ne _ _ hne, hold] at hrow
      cases hrow
      rwa [holder_of_ne here hne]
    | finished j f now row' here unleased old' _ table =>
      rw [holder_unleased unleased]
      rw [table, Record.get?_set] at hrow
      split_ifs at hrow with hkk
      · subst hkk
        rw [hold] at old'
        cases old'
        cases hrow
        exact hlast
      · rw [hold] at hrow
        cases hrow
        exact hlast
  · rw [acquired_eq_some, hcalled] at hk
    cases hk
  · rw [acquired_eq_some] at hk
    rw [hinput] at hr
    cases reserves hi₀ (h.fits i request₀ hi₀) hreserve with
    | read _ _ _ unacquired =>
      simp only [Request.acquired, hk] at unacquired
      cases unacquired
    | inserted r' here asked _ _ table told =>
      rcases told with told | ⟨message, told⟩
      · rw [hk] at told
        cases told
        rw [hr] at asked
        cases asked
        rw [table, Record.get?_set_self] at hrow
        cases hrow
        exact ⟨holder_leased here, rfl⟩
      · rw [hk] at told
        cases told
    | reclaimed k' r' row' here asked _ _ _ _ table told =>
      rcases told with told | ⟨message, told⟩
      · rw [hk] at told
        cases told
        rw [hr] at asked
        cases asked
        rw [table, Record.get?_set_self] at hrow
        cases hrow
        exact ⟨holder_leased here, rfl⟩
      · rw [hk] at told
        cases told

theorem fits_step
    (fits : ∀ (i : ℕ) request, w.requests[i]? = some request → Fits P sha256 w.table request)
    (normal : ∀ k row, w.table.get? k = some row → Normal P k)
    (h : next P sha256 w e = some w') {request : Request} (hi : w'.requests[i]? = some request) :
    Fits P sha256 w'.table request := by
  have hkeeps := (step_writes fits normal h).keeps
  rcases request_cases h hi with hi | hcalled | ⟨env, request₀, rfl, -, hi₀, hinput, hreserve⟩
  · exact (fits i request hi).keeps hkeeps
  · rw [Fits, hcalled]
    trivial
  · obtain ⟨input, phase⟩ := request
    simp only at hinput
    subst hinput
    cases reserves hi₀ (fits i request₀ hi₀) hreserve with
    | read table unleased hfits => exact hfits.keeps hkeeps
    | inserted r here asked new unique table told =>
      rcases told with told | ⟨message, told⟩
      · simp only at told
        subst told
        exact ⟨r, asked, r.row, by rw [table, Record.get?_set_self], rfl, rfl⟩
      · simp only at told
        subst told
        trivial
    | reclaimed k r row here asked serves old running expired table told =>
      rcases told with told | ⟨message, told⟩
      · simp only at told
        subst told
        exact ⟨r, asked, hkeeps _ _ serves⟩
      · simp only at told
        subst told
        trivial

theorem held_step (held : ∀ k, held P sha256 k past = (w.table.get? k).any (·.state = .inProgress))
    (h : Writes P sha256 w e t') (k : JsString) :
    Idempotency.held P sha256 k ((w, e) :: past) = (t'.get? k).any (·.state = .inProgress) := by
  unfold Idempotency.held
  cases h with
  | kept table unleased missed =>
    rw [unleased, table]
    rcases hf : finishes P w e with _ | finished
    · simpa using held k
    · by_cases hk : finished.2.idempotencyRef = k
      · simp [hk, ← missed finished hf]
      · simpa [hk] using held k
  | inserted i r here unfinished _ new _ table =>
    rw [here, unfinished, table, Record.get?_set]
    by_cases hk : r.idempotencyRef = k
    · simp [hk, Reservation.row]
    · simp [hk, held k]
  | reclaimed i k' r row here unfinished old running _ table =>
    rw [here, unfinished, table, Record.get?_set]
    by_cases hk : k' = k
    · simp [hk, running]
    · simp [hk, held k]
  | finished i f now row here unleased old running table =>
    rw [unleased, here, table, Record.get?_set]
    by_cases hk : f.idempotencyRef = k
    · simp [hk, Finish.row]
    · simp [hk, held k]

theorem Inv.step (h : Inv P sha256 past w) (hnext : next P sha256 w e = some w') :
    Inv P sha256 ((w, e) :: past) w' where
  normal k row hrow := by
    rcases (step_writes h.fits h.normal hnext).rows with hold | ⟨r, hnormal, -, htable⟩
    · obtain ⟨row', hrow', -⟩ := hold k row hrow
      exact h.normal k row' hrow'
    · rw [htable, Record.get?_set] at hrow
      split_ifs at hrow with hk
      · exact hk ▸ hnormal
      · exact h.normal k row hrow
  keys k k' row row' hrow hrow' hkey := by
    rcases (step_writes h.fits h.normal hnext).rows with hold | ⟨r, -, hunique, htable⟩
    · obtain ⟨old, hget, hsame⟩ := hold k row hrow
      obtain ⟨old', hget', hsame'⟩ := hold k' row' hrow'
      exact h.keys k k' old old' hget hget' (hsame.symm.trans (hkey.trans hsame'))
    · rw [htable, Record.get?_set] at hrow hrow'
      split_ifs at hrow hrow' with hk hk' hk'
      · exact hk.symm.trans hk'
      · cases hrow
        exact absurd hkey.symm (existing_eq_none hunique hrow')
      · cases hrow'
        exact absurd hkey (existing_eq_none hunique hrow)
      · exact h.keys k k' row row' hrow hrow' hkey
  fits i request hi := fits_step h.fits h.normal hnext hi
  held := held_step h.held (step_writes h.fits h.normal hnext)
  lasting i request k r row hi hk hr hnow hrow := h.lasting_step hnext hi hk hr hnow hrow

theorem Run.inv (h : Run P sha256 past w) : Inv P sha256 past w := by
  obtain ⟨now, h⟩ := h
  refine h.invariant ⟨fun k row h => ?_, fun k k' row row' h => ?_, fun i request h => ?_,
    fun k => rfl, fun i request k r row h => ?_⟩ fun _ inv taken => inv.step taken
  · simp at h
  · simp at h
  · simp at h
  · simp at h

/-! ## Who finishes a record -/

theorem OneHolder.of_inv (h : Inv P sha256 past w) : OneHolder P sha256 w := by
  rintro i j r r' ⟨request, hi, hacquired, hr, hnow⟩ ⟨request', hj, hacquired', hr', hnow'⟩ hkey
  obtain ⟨k, hk⟩ := Option.isSome_iff_exists.1 hacquired
  obtain ⟨k', hk'⟩ := Option.isSome_iff_exists.1 hacquired'
  obtain ⟨s, hs, row, hrow, hrowkey, -⟩ := (h.fits i request hi).acquired hk
  obtain ⟨s', hs', row', hrow', hrowkey', -⟩ := (h.fits j request' hj).acquired hk'
  rw [hr] at hs
  cases hs
  rw [hr'] at hs'
  cases hs'
  obtain rfl := h.keys k k' row row' hrow hrow' (hrowkey.trans (hkey.trans hrowkey'.symm))
  have hi := (h.lasting i request k r row hi hk hr hnow hrow).1
  rw [(h.lasting j request' k r' row' hj hk' hr' hnow' hrow').1] at hi
  cases hi
  rfl

theorem unacquired_of_leased {j : ℕ} (h : leased P sha256 w e = some (j, k))
    (hi : e.request = some i) (hrequest : w.requests[i]? = some request) : request.acquired = none := by
  cases e with
  | tick => cases hi
  | call => cases hi
  | finish => cases h
  | work i' env =>
    cases hi
    simp only [leased, hrequest] at h
    unfold Request.acquired
    split
    · rename_i hphase
      simp only [hphase] at h
      cases h
    · rfl

theorem acquired_of_finishes (h : Inv P sha256 past w) {f : Finish}
    (hfinishes : finishes P w e = some (i, f)) : e.request = some i ∧
      ∃ request, w.requests[i]? = some request ∧ request.acquired = some f.idempotencyRef := by
  cases e with
  | tick => cases hfinishes
  | call => cases hfinishes
  | work => cases hfinishes
  | finish j link now input =>
    simp only [finishes] at hfinishes
    split at hfinishes
    · cases hfinishes
    · rename_i request hj
      split at hfinishes
      · cases hfinishes
      · rename_i k hk
        split at hfinishes
        · rename_i f' hf
          split_ifs at hfinishes
          cases hfinishes
          obtain ⟨r, hr, row, hrow, -⟩ := (h.fits i request hj).acquired hk
          obtain ⟨rfl, -⟩ := finish_eq_ok (h.normal k row hrow) (wanted_eq_ok hr).2 hf
          exact ⟨rfl, request, hj, hk⟩
        · cases hfinishes

/-- A step leaves the record of a request it was taken from alone just when it is not a finishing
statement that finds the record in progress. -/
theorem leavesAlone_iff (h : Inv P sha256 past w) (hnext : next P sha256 w e = some w') :
    LeavesAlone P sha256 past w e ↔ FinishedBefore P sha256 past w e := by
  unfold LeavesAlone FinishedBefore
  simp only [Option.mem_def, hnext, Option.some.injEq, forall_eq']
  cases step_writes h.fits h.normal hnext with
  | kept table _ missed =>
    rw [table]
    refine iff_of_true (fun _ _ _ _ _ _ _ => rfl) fun finished hfinished _ => ?_
    rw [h.held]
    exact missed finished hfinished
  | inserted j r here unfinished =>
    refine iff_of_true (fun i hi request hrequest k hk => ?_) (by simp [unfinished])
    rw [unacquired_of_leased here hi hrequest] at hk
    cases hk
  | reclaimed j k r row here unfinished =>
    refine iff_of_true (fun i hi request hrequest k hk => ?_) (by simp [unfinished])
    rw [unacquired_of_leased here hi hrequest] at hk
    cases hk
  | finished j f now row here _ old running table =>
    obtain ⟨hj, request, hrequest, hacquired⟩ := acquired_of_finishes h here
    have hchanged : w'.table.get? f.idempotencyRef ≠ w.table.get? f.idempotencyRef := by
      rw [table, Record.get?_set_self, old]
      intro hsame
      have hstate := congrArg (Option.map Row.state) hsame
      simp [Finish.row, running] at hstate
    have hheld : held P sha256 f.idempotencyRef past = true := by
      rw [h.held, old]
      simp [running]
    constructor
    · intro halone finished hfinished hholder
      rw [here] at hfinished
      cases hfinished
      exact absurd (halone _ hj request hrequest _ hacquired hholder) hchanged
    · intro hbefore i hi request' hrequest' k hk hholder
      rw [hj] at hi
      cases hi
      rw [hrequest] at hrequest'
      cases hrequest'
      rw [hacquired] at hk
      cases hk
      rw [hbefore _ here hholder] at hheld
      cases hheld

/-- The response of a finished record is its holder's. -/
theorem gave_of_finished (h : Run P sha256 past w)
    (hbefore : History.Every (FinishedBefore P sha256) past) :
    ∀ k row outcome, w.table.get? k = some row → row.state = .finished outcome →
      ∃ j ∈ holder P sha256 k past, Gave P past j k outcome row.response := by
  obtain ⟨start, h⟩ := h
  induction h with
  | init =>
    intro k row outcome hrow
    simp at hrow
  | @step past w w' e run taken ih =>
    have inv := Run.inv ⟨start, run⟩
    have hold := ih hbefore.2
    -- what was said of the holder of another record, or of one that is not leased now, stays
    have later : ∀ {k row outcome}, holder P sha256 k ((w, e) :: past) = holder P sha256 k past →
        w.table.get? k = some row → row.state = .finished outcome →
          ∃ j ∈ holder P sha256 k ((w, e) :: past),
            Gave P ((w, e) :: past) j k outcome row.response := by
      intro k row outcome hsame hrow hstate
      obtain ⟨j, hj, step, hstep, hgave⟩ := hold k row outcome hrow hstate
      exact ⟨j, hsame ▸ hj, step, List.mem_cons_of_mem _ hstep, hgave⟩
    intro k row outcome hrow hstate
    cases step_writes inv.fits inv.normal taken with
    | kept table unleased => exact later (holder_unleased unleased) (table ▸ hrow) hstate
    | inserted j r here _ _ _ _ table =>
      rw [table, Record.get?_set] at hrow
      split_ifs at hrow with hk
      · cases hrow
        cases hstate
      · exact later (holder_of_ne here hk) hrow hstate
    | reclaimed j k' r row' here _ _ running _ table =>
      rw [table, Record.get?_set] at hrow
      split_ifs at hrow with hk
      · cases hrow
        simp only [running] at hstate
        cases hstate
      · exact later (holder_of_ne here hk) hrow hstate
    | finished j f now row' here unleased old running table =>
      rw [table, Record.get?_set] at hrow
      split_ifs at hrow with hk
      · subst hk
        cases hrow
        cases hstate
        refine ⟨j, ?_, (w, e), List.mem_cons_self, f.requestHash, here⟩
        rw [holder_unleased unleased]
        by_contra hholder
        have hheld := hbefore.1 _ here hholder
        rw [inv.held, old] at hheld
        simp [running] at hheld
      · exact later (holder_unleased unleased) hrow hstate

theorem AnswersHolders.of_before (h : Run P sha256 past w)
    (hbefore : History.Every (FinishedBefore P sha256) past) (hnext : next P sha256 w e = some w') :
    AnswersHolders P sha256 past w e := by
  intro w'' hw'' i hi request hrequest replayed hreplayed
  rw [Option.mem_def, hnext, Option.some.injEq] at hw''
  subst hw''
  have inv := h.inv
  have hphase : request.phase = .answered (.ok (.replay replayed.1 replayed.2.1 replayed.2.2)) := by
    unfold Request.replayed at hreplayed
    split at hreplayed
    · rename_i hphase
      cases hreplayed
      exact hphase
    · cases hreplayed
  rcases request_cases hnext hrequest with
    hold | hcalled | ⟨env, request₀, rfl, -, hi₀, -, hreserve⟩
  · -- a request that has its answer takes no step
    cases e with
    | tick => cases hi
    | call => cases hi
    | work i' env =>
      cases hi
      simp only [next, hold, reserveIdempotency, hphase] at hnext
      split_ifs at hnext
    | finish i' link now input =>
      cases hi
      simp only [next, hold, Request.acquired, hphase] at hnext
      split_ifs at hnext
  · rw [hphase] at hcalled
    cases hcalled
  · cases hi
    rw [hphase] at hreserve
    cases reserves hi₀ (inv.fits _ request₀ hi₀) hreserve with
    | read _ _ _ _ found =>
      obtain ⟨row, hrow, hstate, hresponse⟩ := found _ _ _ rfl
      rw [← hresponse]
      exact gave_of_finished h hbefore _ _ _ hrow hstate
    | inserted _ _ _ _ _ _ told =>
      rcases told with told | ⟨message, told⟩ <;> cases told
    | reclaimed _ _ _ _ _ _ _ _ _ _ told =>
      rcases told with told | ⟨message, told⟩ <;> cases told

/-- In every run, that reservations are fenced says that each request that comes to finish a record
it was taken from finds it finished. -/
theorem fenced_iff_finishedBefore (h : Run P sha256 past w) :
    OneHolder P sha256 w ∧ History.Every (Fenced P sha256) past
      ↔ History.Every (FinishedBefore P sha256) past := by
  rw [and_iff_right (OneHolder.of_inv h.inv)]
  obtain ⟨start, h⟩ := h
  refine h.every_iff_of fun {past w e w'} run hbefore taken => ?_
  have hrun : Run P sha256 past w := ⟨start, run⟩
  unfold Fenced
  rw [and_iff_right (OneHolder.of_inv hrun.inv),
    and_iff_left (AnswersHolders.of_before hrun hbefore taken), leavesAlone_iff hrun.inv taken]

/-! ## A request that comes late -/

/-- Of the key of the runs below. -/
def sha256Of (s : JsString) : JsString :=
  if s = js "browser-key" then
    js "82c971973ccbf22b209995e2c1505e04201d2a488e19d471feb69662b8fb93d0"
  else []

/-- A reservation until 15:06:40. -/
def reserveInput (idempotencyRef leaseExpiresAt : String) : ReserveInput where
  owner := .merchant (js "merchant-1")
  idempotencyRef := js idempotencyRef
  operation := js "shipment.create"
  idempotencyKey := js "browser-key"
  requestHash := List.replicate 64 48
  leaseExpiresAt := js leaseExpiresAt
  expiresAt := js "2025-06-15T16:06:40.000Z"

def reserveSteps (i n : ℕ) (now : Instant) : List Event :=
  List.replicate n (.work i ⟨now, .up, true⟩)

def finishOf (i : ℕ) (status : ℤ) : Event :=
  .finish i .up (ofMilliseconds 1750000000000) ⟨.completed, some status, none, none⟩

/-- A second request takes the reservation over when the lease of the first ends. -/
def takenOver : List Event :=
  .call (reserveInput "idem-1" "2025-06-15T15:06:40.000Z") :: reserveSteps 0 2 0
    ++ .tick (ofMilliseconds 1750000000000)
      :: .call (reserveInput "idem-2" "2025-06-15T16:06:40.000Z")
      :: reserveSteps 1 4 (ofMilliseconds 1750000000000)

def reserveRun (es : List Event) : Option (Past × World) :=
  History.play (next shipPlatform sha256Of) [] ⟨0, .empty, []⟩ es

theorem run_of_reserveRun {es : List Event} {v : Past × World} (h : reserveRun es = some v) :
    Run shipPlatform sha256Of v.1 v.2 := ⟨0, History.Run.play .init h⟩

/-- The second request has finished when the first comes; a third is answered by its response. -/
theorem fenced_iff_finishedBefore_replayed :
    ∃ past w, Run shipPlatform sha256Of past w
      ∧ w.requests[2]?.bind Request.replayed
        = some (js "idem-1", .completed, ⟨some 201, none, none⟩)
      ∧ (OneHolder shipPlatform sha256Of w ∧ History.Every (Fenced shipPlatform sha256Of) past
        ↔ History.Every (FinishedBefore shipPlatform sha256Of) past) := by
  have hplay : (reserveRun (takenOver ++ finishOf 1 201 :: finishOf 0 500
      :: .call (reserveInput "idem-3" "2025-06-15T16:06:40.000Z")
      :: reserveSteps 2 3 (ofMilliseconds 1750000000000))).map
        (fun v => v.2.requests[2]?.bind Request.replayed)
      = some (some (js "idem-1", .completed, ⟨some 201, none, none⟩)) := by
    decide
  obtain ⟨v, hv, hreplayed⟩ := Option.map_eq_some_iff.1 hplay
  exact ⟨v.1, v.2, run_of_reserveRun hv, hreplayed,
    fenced_iff_finishedBefore (run_of_reserveRun hv)⟩

/-- The first request finishes the record of the second. -/
theorem lateFinish_not_fenced : ¬ ∀ P sha256 past w, Run P sha256 past w →
    OneHolder P sha256 w ∧ History.Every (Fenced P sha256) past := by
  intro h
  have hplay : (reserveRun (takenOver ++ [finishOf 0 500])).map
      (fun v => decide (History.Every (LeavesAlone shipPlatform sha256Of) v.1)) = some false := by
    decide
  obtain ⟨v, hv, halone⟩ := Option.map_eq_some_iff.1 hplay
  exact of_decide_eq_false halone
    ((h _ _ _ _ (run_of_reserveRun hv)).2.mono fun _ _ _ hfenced => hfenced.2.1)

end Agid.VeygritShip.Idempotency
