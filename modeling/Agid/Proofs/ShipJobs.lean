import Agid.ShipRuns
import Agid.Proofs.SecurePos

/-!
# What a step does to a job

Every step leaves a job as it is, or inserts, claims, completes, fails or replays it, and which of
these it is can be read off the event and the state before it.
-/

namespace Agid.VeygritShip

/-! ## References -/

variable {P : Platform} {k : JsString}

/-- A reference of at most 100 units that `ref` leaves as it is. -/
def Normal (P : Platform) (k : JsString) : Prop :=
  trim (P.nfkc.normalize k) = k ∧ k ≠ [] ∧ k.length ≤ 100

theorem ref_eq_ok {value name k : JsString} {m : ℕ} : ref P value name m = .ok k ↔
    trim (P.nfkc.normalize value) = k ∧ k ≠ [] ∧ k.length ≤ m := by
  simp only [ref]
  split_ifs with h
  · simp only [false_iff]
    rintro ⟨rfl, hne, hle⟩
    rcases h with h | h
    · exact hne h
    · omega
  · rw [not_or, not_lt] at h
    simp only [Except.ok.injEq]
    constructor
    · rintro rfl
      exact ⟨rfl, h⟩
    · exact And.left

theorem Normal.ref (h : Normal P k) (name : JsString) : ref P k name 100 = .ok k :=
  ref_eq_ok.2 h

theorem normal_of_ref {value name : JsString} (h : VeygritShip.ref P value name 100 = .ok k) :
    Normal P k := by
  obtain ⟨rfl, hne, hle⟩ := ref_eq_ok.1 h
  exact ⟨by rw [P.normalize_trim, trim_trim], hne, hle⟩

theorem isHexUnit_plain {c : CodeUnit} (h : isHexUnit c = true) :
    c.val < 128 ∧ isWhiteSpace c = false := by
  simp only [isHexUnit, Bool.or_eq_true, Bool.and_eq_true, decide_eq_true_eq] at h
  refine ⟨by omega, ?_⟩
  simp only [isWhiteSpace, List.contains_eq_mem, List.mem_cons, List.not_mem_nil, or_false,
    Bool.or_eq_false_iff, Bool.and_eq_false_iff, decide_eq_false_iff_not]
  omega

theorem jobUnit_plain {fresh : FreshRef} {t : JobType} {row : JsString} {c : CodeUnit}
    (h : c ∈ jobRefOf fresh t row) : c.val < 128 ∧ isWhiteSpace c = false := by
  rcases List.mem_append.1 h with h | h
  · have hall : (js "job_").all (fun c => decide (c.val < 128) && !isWhiteSpace c) = true := rfl
    simpa using List.all_eq_true.1 hall c h
  · exact isHexUnit_plain (List.all_eq_true.1 (fresh t row).digits c h)

theorem normal_jobRefOf (P : Platform) (fresh : FreshRef) (t : JobType) (row : JsString) :
    Normal P (jobRefOf fresh t row) := by
  have hlength : (jobRefOf fresh t row).length = 36 := by
    rw [jobRefOf, List.length_append, (fresh t row).length]
    rfl
  refine ⟨?_, List.ne_nil_of_length_pos (by omega), by omega⟩
  rw [P.nfkc.ascii _ fun c hc => (jobUnit_plain hc).1,
    trim_eq_self fun c hc => (jobUnit_plain hc).2]

/-! ## Statements that leave the queue alone -/

theorem query_cases {α : Type} (link : Link) (db : Database)
    (statement : Database → Except JsString (α × Database)) :
    (query link db statement).2 = db ∨
      ∃ a, link.executes = true ∧ statement db = .ok (a, (query link db statement).2) := by
  cases link with
  | refused message => exact .inl rfl
  | up =>
    rcases h : statement db with message | ⟨a, db'⟩
    · exact .inl (by simp [query, h])
    · exact .inr ⟨a, rfl, by simp [query, h]⟩
  | lost message =>
    rcases h : statement db with message | ⟨a, db'⟩
    · exact .inl (by simp [query, h])
    · exact .inr ⟨a, rfl, by simp [query, h]⟩

theorem query_of_error {α : Type} {link : Link} {db : Database} {message : JsString}
    {statement : Database → Except JsString (α × Database)} (h : statement db = .error message) :
    (query link db statement).2 = db := by
  rcases query_cases link db statement with h' | ⟨a, -, h'⟩
  · exact h'
  · rw [h] at h'
    cases h'

theorem query_of_ok {α : Type} {link : Link} {db db' : Database} {a : α}
    {statement : Database → Except JsString (α × Database)} (h : statement db = .ok (a, db'))
    (hl : link.executes = true) : (query link db statement).2 = db' := by
  cases link with
  | refused message => cases hl
  | up => simp [query, h]
  | lost message => simp [query, h]

theorem query_of_refused {α : Type} {link : Link} {db : Database}
    {statement : Database → Except JsString (α × Database)} (hl : ¬ link.executes = true) :
    (query link db statement).2 = db :=
  (query_cases link db statement).elim id fun ⟨_, h, _⟩ => absurd h hl

/-- A statement that is answered has been done. -/
theorem query_answered {α : Type} {link : Link} {db : Database} {a : α}
    {statement : Database → Except JsString (α × Database)}
    (h : (query link db statement).1 = .ok a) :
    statement db = .ok (a, (query link db statement).2) := by
  cases link with
  | refused message => cases h
  | up =>
    rcases hs : statement db with message | ⟨a', db'⟩ <;> simp only [query, hs] at h ⊢
    · cases h
    · rw [Except.ok.inj h]
  | lost message =>
    rcases hs : statement db with message | ⟨a', db'⟩ <;> simp only [query, hs] at h <;> cases h

structure KeepsJobs (db db' : Database) : Prop where
  jobs : db'.jobs = db.jobs
  audit : db'.audit = db.audit

theorem KeepsJobs.refl (db : Database) : KeepsJobs db db := ⟨rfl, rfl⟩

theorem query_keeps {α : Type} {link : Link} {db : Database}
    {statement : Database → Except JsString (α × Database)}
    (h : ∀ a db', statement db = .ok (a, db') → KeepsJobs db db') :
    KeepsJobs db (query link db statement).2 := by
  rcases query_cases link db statement with h' | ⟨a, -, h'⟩
  · rw [h']
    exact .refl db
  · exact h a _ h'

section Keeps

variable {db db' : Database} {a : Unit}

theorem upsertCarrierConnection_keeps {r : JsString} {c : Carrier} {t : Option JsString}
    {st : Option ConnectionStatus} {now : Instant}
    (h : upsertCarrierConnection P r c t st now db = .ok (a, db')) : KeepsJobs db db' := by
  obtain ⟨_, -, h⟩ := bind_eq_ok.1 h
  obtain ⟨_, -, h⟩ := bind_eq_ok.1 h
  cases h
  exact ⟨rfl, rfl⟩

theorem createShipment_keeps {input : ShipmentInput}
    (h : createShipment P input db = .ok (a, db')) : KeepsJobs db db' := by
  unfold createShipment at h
  split_ifs at h
  obtain ⟨_, -, h⟩ := bind_eq_ok.1 h
  split at h
  · cases h
  · cases h
    exact ⟨rfl, rfl⟩

theorem selectRateQuote_keeps {r : JsString} (h : selectRateQuote P r db = .ok (a, db')) :
    KeepsJobs db db' := by
  obtain ⟨_, -, h⟩ := bind_eq_ok.1 h
  split at h
  · cases h
    exact ⟨rfl, rfl⟩
  · cases h

theorem saveLabel_keeps {now : Instant} {input : LabelInput}
    (h : saveLabel P now input db = .ok (a, db')) : KeepsJobs db db' := by
  obtain ⟨_, -, h⟩ := bind_eq_ok.1 h
  cases h
  exact ⟨rfl, rfl⟩

theorem saveManagedLabel_keeps {now : Instant} {input : ManagedLabelInput}
    (h : PostgresLabelMetadataStore.saveLabel P now input db = .ok (a, db')) :
    KeepsJobs db db' := by
  obtain ⟨_, -, h⟩ := bind_eq_ok.1 h
  obtain ⟨_, -, h⟩ := bind_eq_ok.1 h
  obtain ⟨_, -, h⟩ := bind_eq_ok.1 h
  obtain ⟨_, -, h⟩ := bind_eq_ok.1 h
  obtain ⟨_, -, h⟩ := bind_eq_ok.1 h
  obtain ⟨_, -, h⟩ := bind_eq_ok.1 h
  split at h
  · cases h
  split_ifs at h
  obtain ⟨_, -, h⟩ := bind_eq_ok.1 h
  split at h
  · cases h
  split_ifs at h
  cases h
  exact ⟨rfl, rfl⟩

theorem requestVoid_keeps {now : Instant} {l m : JsString}
    (h : PostgresLabelMetadataStore.requestVoid P now l m db = .ok (a, db')) :
    KeepsJobs db db' := by
  obtain ⟨_, -, h⟩ := bind_eq_ok.1 h
  split at h
  · cases h
  obtain ⟨_, -, h⟩ := bind_eq_ok.1 h
  split_ifs at h
  cases h
  exact ⟨rfl, rfl⟩

theorem finishVoid_keeps {now : Instant} {l m : JsString} {f : Option JsString}
    (h : PostgresLabelMetadataStore.finishVoid P now l m f db = .ok (a, db')) :
    KeepsJobs db db' := by
  obtain ⟨_, -, h⟩ := bind_eq_ok.1 h
  split at h
  · cases h
  · cases h
    exact ⟨rfl, rfl⟩

theorem markLabelReconciling_keeps {r : JsString}
    (h : markLabelReconciling P r db = .ok (a, db')) : KeepsJobs db db' := by
  obtain ⟨_, -, h⟩ := bind_eq_ok.1 h
  cases h
  exact ⟨rfl, rfl⟩

theorem recordConfirmed_keeps {label : LabelInput}
    (h : recordConfirmed P label db = .ok (a, db')) : KeepsJobs db db' := by
  obtain ⟨_, -, h⟩ := bind_eq_ok.1 h
  cases h
  exact ⟨rfl, rfl⟩

theorem recordLabelNotFound_keeps {r : JsString}
    (h : recordLabelNotFound P r db = .ok (a, db')) : KeepsJobs db db' := by
  obtain ⟨_, -, h⟩ := bind_eq_ok.1 h
  cases h
  exact ⟨rfl, rfl⟩

theorem recordTrackingSync_keeps {r : JsString} {st : Option CarrierStatus}
    {n m : Option JsString} {now : Instant}
    (h : recordTrackingSync P r st n m now db = .ok (a, db')) : KeepsJobs db db' := by
  obtain ⟨_, -, h⟩ := bind_eq_ok.1 h
  obtain ⟨_, -, h⟩ := bind_eq_ok.1 h
  obtain ⟨_, -, h⟩ := bind_eq_ok.1 h
  cases h
  exact ⟨rfl, rfl⟩

theorem recordCarrierReconciliation_keeps {r : JsString} {st : Option CarrierStatus}
    {n : Option JsString} {now : Instant}
    (h : recordCarrierReconciliation P r st n now db = .ok (a, db')) : KeepsJobs db db' := by
  obtain ⟨_, -, h⟩ := bind_eq_ok.1 h
  obtain ⟨_, -, h⟩ := bind_eq_ok.1 h
  cases h
  exact ⟨rfl, rfl⟩

theorem recordUpsTokenRefresh_keeps {r t : JsString} {now : Instant}
    (h : recordUpsTokenRefresh P r t now db = .ok (a, db')) : KeepsJobs db db' := by
  obtain ⟨_, -, h⟩ := bind_eq_ok.1 h
  obtain ⟨_, -, h⟩ := bind_eq_ok.1 h
  split at h
  · cases h
    exact ⟨rfl, rfl⟩
  · cases h

end Keeps

/-! ## Statements on the queue -/

section Queue

variable {db db' : Database}

theorem mem_candidates {now : Instant} {limit : ℚ} {jobs : Record JsString Job}
    (h : k ∈ candidates now limit jobs) : ∃ j, jobs.get? k = some j ∧ claimable now j = true := by
  obtain ⟨e, he, rfl⟩ := List.mem_map.1 h
  have he := List.mem_filter.1 ((List.mem_insertionSort _).1 (List.mem_of_mem_take he))
  exact ⟨e.2, Record.mem_entries.1 he.1, he.2⟩

theorem get?_claimRows {worker : JsString} {limit lease : ℚ} {now : Instant}
    {jobs : Record JsString Job} : (claimRows worker limit lease now jobs).get? k
      = (jobs.get? k).map fun j =>
        if k ∈ candidates now limit jobs then claimed worker lease now j else j := by
  simp [claimRows, Record.get?_updateWhere]

theorem get?_insertJob (jobs : Record JsString Job) (row : JsString × Job) :
    (insertJob jobs row).get? k = jobs.get? k
      ∨ (jobs.get? k = none ∧ row.1 = k ∧ (insertJob jobs row).get? k = some row.2) := by
  unfold insertJob
  split_ifs with h
  · exact .inl rfl
  · by_cases hk : row.1 = k
    · subst hk
      simp only [Bool.or_eq_true, not_or, Option.not_isSome_iff_eq_none] at h
      exact .inr ⟨h.1, rfl, Record.get?_set_self _ _ _⟩
    · exact .inl (Record.get?_set_of_ne _ _ hk)

theorem get?_foldl_insertJob : ∀ (rows : List (JsString × Job)) (jobs : Record JsString Job),
    (rows.foldl insertJob jobs).get? k = jobs.get? k
      ∨ (jobs.get? k = none ∧ ∃ row ∈ rows, row.1 = k
        ∧ (rows.foldl insertJob jobs).get? k = some row.2)
  | [], jobs => .inl rfl
  | row :: rows, jobs => by
    rw [List.foldl_cons]
    rcases get?_foldl_insertJob rows (insertJob jobs row) with
      h | ⟨hnone, row', hrow', hk, h⟩
    · rcases get?_insertJob (k := k) jobs row with h' | ⟨hnone, hk, h'⟩
      · exact .inl (h.trans h')
      · exact .inr ⟨hnone, row, List.mem_cons_self, hk, h.trans h'⟩
    · refine .inr ⟨?_, row', List.mem_cons_of_mem _ hrow', hk, h⟩
      rcases get?_insertJob (k := k) jobs row with h' | ⟨hnone', -, -⟩
      · rw [← h', hnone]
      · exact hnone'

theorem completeJob_cases (hk : Normal P k) (now : Instant) (db : Database) :
    (∃ j, db.jobs.get? k = some j ∧ isRunning j = true ∧ completeJob P k now db
        = .ok ((), { db with jobs := db.jobs.set k (completed now j) }))
      ∨ ((∀ j, db.jobs.get? k = some j → isRunning j = false)
        ∧ completeJob P k now db = .error notRunning) := by
  rcases hu : db.jobs.updateAt k isRunning (completed now) with _ | jobs
  · refine .inr ⟨Record.updateAt_eq_none.1 hu, ?_⟩
    simp only [completeJob, hk.ref, bind, Except.bind, hu]
  · obtain ⟨j, hj, hrun, rfl⟩ := Record.updateAt_eq_some.1 hu
    refine .inl ⟨j, hj, hrun, ?_⟩
    simp only [completeJob, hk.ref, bind, Except.bind, hu, pure, Except.pure]

/-- As a job is inserted. -/
structure New (j : Job) : Prop where
  status : j.status = .queued
  attemptCount : j.attemptCount = 0
  maxAttempts : 0 < j.maxAttempts

theorem new_newJob {t : JobType} {d : JsString} {s l c : Option JsString} {p m : ℕ} {now : Instant}
    (hm : 0 < m) : New (newJob t d s l c p m now) := ⟨rfl, rfl, hm⟩

theorem map_eq_ok {ε α β : Type} {f : α → β} {x : Except ε α} {b : β} (h : x.map f = .ok b) :
    ∃ a, x = .ok a ∧ f a = b := by
  cases x with
  | error e => cases h
  | ok a => exact ⟨a, rfl, Except.ok.inj h⟩

theorem toBool_eq_true {ε α : Type} {x : Except ε α} : x.toBool = true ↔ ∃ a, x = .ok a := by
  cases x <;> simp [Except.toBool]

/-- A failure whose texts `ref` has normalized. -/
def Normalizes (P : Platform) (f f' : Failure) : Prop :=
  ref P f.errorCode (js "errorCode") 100 = .ok f'.errorCode
    ∧ ref P f.errorMessage (js "errorMessage") 500 = .ok f'.errorMessage
    ∧ f'.retryable = f.retryable ∧ f'.nextRunAt = f.nextRunAt

theorem failJob_ok (hk : Normal P k) {f : Failure} {now : Instant} {st : JobStatus}
    (h : failJob P k f now db = .ok (st, db')) : ∃ j f', Normalizes P f f'
      ∧ db.jobs.get? k = some j ∧ isRunning j = true
      ∧ db'.jobs = db.jobs.set k (failed f' now j)
      ∧ db'.audit = db.audit ++ (if exhausted f.retryable j then
        [⟨k, j.jobType, f'.errorCode, j.attemptCount⟩] else []) := by
  obtain ⟨k', hk', h⟩ := bind_eq_ok.1 h
  cases (hk.ref _).symm.trans hk'
  obtain ⟨code, hcode, h⟩ := bind_eq_ok.1 h
  obtain ⟨message, hmessage, h⟩ := bind_eq_ok.1 h
  rcases hj : db.jobs.get? k with _ | j
  · rw [hj] at h
    cases h
  · rw [hj] at h
    simp only [] at h
    by_cases hrun : isRunning j = true
    · rw [if_pos hrun] at h
      cases h
      refine ⟨j, { f with errorCode := code, errorMessage := message },
        ⟨hcode, hmessage, rfl, rfl⟩, rfl, hrun, rfl, ?_⟩
      by_cases hexh : exhausted f.retryable j = true <;> simp [hexh]
    · rw [if_neg hrun] at h
      cases h

theorem failJob_of_running (hk : Normal P k) (f : Failure) (now : Instant) {j : Job}
    {code message : JsString} (hcode : ref P f.errorCode (js "errorCode") 100 = .ok code)
    (hmessage : ref P f.errorMessage (js "errorMessage") 500 = .ok message)
    (hj : db.jobs.get? k = some j) (hrun : isRunning j = true) :
    ∃ r, failJob P k f now db = .ok r := by
  simp only [failJob, bind, Except.bind, hk.ref, hcode, hmessage, hj, hrun, if_true]
  exact ⟨_, rfl⟩

theorem replayDeadLetter_ok {jobRef runAfter : JsString} {a : Unit}
    (h : replayDeadLetter P jobRef runAfter db = .ok (a, db')) :
    ∃ k t j, ref P jobRef (js "jobRef") 100 = .ok k ∧ date P runAfter (js "runAfter") = .ok t
      ∧ db.jobs.get? k = some j ∧ j.status = .deadLetter
      ∧ db' = { db with jobs := db.jobs.set k (replayed t j) } := by
  obtain ⟨k, hk, h⟩ := bind_eq_ok.1 h
  obtain ⟨t, ht, h⟩ := bind_eq_ok.1 h
  split at h
  · rename_i jobs hu
    cases h
    obtain ⟨j, hj, hdead, rfl⟩ := Record.updateAt_eq_some.1 hu
    exact ⟨k, t, j, hk, ht, hj, by simpa using hdead, rfl⟩
  · cases h

theorem markLabelOutcomeUnknown_ok {fresh : FreshRef} {now : Instant} {input : UnknownInput}
    {r : JsString} (h : markLabelOutcomeUnknown P fresh now input db = .ok (r, db')) :
    ∃ shipmentRef requestId deadlineAt s job,
      ref P input.shipmentRef (js "shipmentRef") 100 = .ok shipmentRef
      ∧ ref P input.carrierRequestId (js "carrierRequestId") 100 = .ok requestId
      ∧ date P input.deadlineAt (js "deadlineAt") = .ok deadlineAt
      ∧ db.shipments.get? shipmentRef = some s ∧ s.labelOutcome ≠ .confirmed ∧ New job
      ∧ job.shipmentRef = some shipmentRef
      ∧ db' = { db with
        shipments := db.shipments.set shipmentRef (markedUnknown requestId deadlineAt now s)
        jobs := insertJob db.jobs (jobRefOf fresh .labelOutcomeReconciliation shipmentRef, job) } := by
  obtain ⟨shipmentRef, hs, h⟩ := bind_eq_ok.1 h
  obtain ⟨requestId, hr, h⟩ := bind_eq_ok.1 h
  obtain ⟨deadlineAt, hd, h⟩ := bind_eq_ok.1 h
  rcases hu : db.shipments.updateAt shipmentRef unconfirmed
    (markedUnknown requestId deadlineAt now) with _ | shipments <;> rw [hu] at h
  · cases h
  obtain ⟨s, hget, hun, rfl⟩ := Record.updateAt_eq_some.1 hu
  refine ⟨shipmentRef, requestId, deadlineAt, s,
    newJob .labelOutcomeReconciliation input.shipmentRef (some shipmentRef) none s.connectionRef 10
      10 now, hs, hr, hd, hget, by simpa [unconfirmed] using hun, new_newJob (by decide),
    rfl, ?_⟩
  simp only [Record.get?_set_self] at h
  split_ifs at h
  · cases h
    rfl
  · split at h
    · cases h
      rfl
    · cases h

theorem scheduledRows_fresh {fresh : FreshRef} {now : Instant} {row : JsString × Job}
    (h : row ∈ scheduledRows fresh now db) :
    (∃ t text, row.1 = jobRefOf fresh t text) ∧ New row.2
      ∧ ∀ r, row.2.shipmentRef = some r → (db.shipments.get? r).isSome := by
  simp only [scheduledRows, trackingRows, reconciliationRows, labelOutcomeRows, tokenRows,
    List.mem_append, List.mem_flatMap, List.mem_map] at h
  have hkey : ∀ s ∈ db.shipments.entries, ∀ r, some s.1 = some r →
      (db.shipments.get? r).isSome := fun s hs r hr => by
    rw [← Option.some.inj hr, Record.mem_entries.1 (show (s.1, s.2) ∈ db.shipments.entries from hs)]
    rfl
  rcases h with ((⟨s, hs, h⟩ | ⟨s, hs, rfl⟩) | ⟨s, hs, rfl⟩) | ⟨c, -, rfl⟩
  · split_ifs at h
    · obtain ⟨l, -, rfl⟩ := List.mem_map.1 h
      exact ⟨⟨_, _, rfl⟩, new_newJob (by decide), hkey s hs⟩
    · cases h
  · exact ⟨⟨_, _, rfl⟩, new_newJob (by decide), hkey s (List.mem_of_mem_filter hs)⟩
  · exact ⟨⟨_, _, rfl⟩, new_newJob (by decide), hkey s (List.mem_of_mem_filter hs)⟩
  · exact ⟨⟨_, _, rfl⟩, new_newJob (by decide), nofun⟩

theorem claimJobs_ok {workerRef : JsString} {limit lease : ℚ} {now : Instant}
    {jobs : List ClaimedShipJob} (h : claimJobs P workerRef limit lease now db = .ok (jobs, db')) :
    ∃ worker, ref P workerRef (js "workerRef") 100 = .ok worker
      ∧ db' = { db with jobs := claimRows worker limit lease now db.jobs }
      ∧ ∀ c ∈ jobs, ∃ j, db'.jobs.get? c.jobRef = some j ∧ c = mapJob db (c.jobRef, j)
        ∧ c.jobRef ∈ candidates now limit db.jobs := by
  obtain ⟨worker, hw, h⟩ := bind_eq_ok.1 h
  cases h
  refine ⟨worker, hw, rfl, fun c hc => ?_⟩
  obtain ⟨e, he, rfl⟩ := List.mem_map.1 hc
  have he := List.mem_filter.1 ((List.mem_insertionSort _).1 he)
  exact ⟨e.2, Record.mem_entries.1 he.1, rfl, List.contains_iff_mem.1 he.2⟩

theorem claimJobs_of_ref {workerRef worker : JsString} (limit lease : ℚ) (now : Instant)
    (db : Database) (h : ref P workerRef (js "workerRef") 100 = .ok worker) :
    ∃ jobs, claimJobs P workerRef limit lease now db
      = .ok (jobs, { db with jobs := claimRows worker limit lease now db.jobs }) :=
  ⟨_, bind_eq_ok.2 ⟨worker, h, rfl⟩⟩

end Queue

/-! ## Steps -/

theorem advance_keeps {env : Env} {db db' : Database} {hand : Hand} {phase : Phase}
    (h : advance P env db hand = some (phase, db')) (hp : hand.phase ≠ .processed)
    (hf : ∀ error, hand.phase ≠ .failing error) : KeepsJobs db db' := by
  rcases hphase : hand.phase with _ | _ | label | label | _ | r | r | t | _ | error | st <;>
    simp only [advance, hphase] at h
  · split at h
    · cases h
      exact .refl db
    · split_ifs at h <;> cases h
      · exact query_keeps fun _ _ => markLabelReconciling_keeps
      · exact .refl db
  · obtain ⟨_, -, h⟩ := Option.map_eq_some_iff.1 h
    cases h
    exact .refl db
  · cases h
    exact query_keeps fun _ _ => saveLabel_keeps
  · cases h
    exact query_keeps fun _ _ => recordConfirmed_keeps
  · cases h
    exact query_keeps fun _ _ => recordLabelNotFound_keeps
  · cases h
    exact query_keeps fun _ _ => recordTrackingSync_keeps
  · cases h
    exact query_keeps fun _ _ => recordCarrierReconciliation_keeps
  · cases h
    exact query_keeps fun _ _ => recordUpsTokenRefresh_keeps
  · exact absurd hphase hp
  · exact absurd hphase (hf error)
  · cases h

theorem next_work {w w' : World} {i : ℕ} {env : Env} (h : next P w (.work i env) = some w') :
    ∃ hand phase, w.hands[i]? = some hand
      ∧ advance P env w.db hand = some (phase, w'.db)
      ∧ w'.hands = w.hands.set i { hand with phase := phase } := by
  simp only [next] at h
  rcases hi : w.hands[i]? with _ | hand <;> rw [hi] at h
  · cases h
  · simp only [] at h
    rcases ha : advance P env w.db hand with _ | ⟨phase, db'⟩ <;> rw [ha] at h
    · cases h
    · cases h
      exact ⟨hand, phase, rfl, ha, rfl⟩

/-- A claim that is answered puts its jobs into the worker's hands. -/
theorem next_claim {w w' : World} {link : Link} {workerRef : JsString} {limit lease : ℚ}
    {now : Instant} (h : next P w (.claim link workerRef limit lease now) = some w') :
    (w'.hands = w.hands ∧ w'.db = (query link w.db (claimJobs P workerRef limit lease now)).2)
      ∨ ∃ jobs, claimJobs P workerRef limit lease now w.db = .ok (jobs, w'.db)
        ∧ w'.hands = w.hands ++ jobs.map (handOf workerRef lease now) := by
  simp only [next] at h
  rcases hres : (query link w.db (claimJobs P workerRef limit lease now)).1 with message | jobs <;>
    rw [hres] at h <;> cases h
  · exact .inl ⟨rfl, rfl⟩
  · exact .inr ⟨jobs, query_answered hres, rfl⟩

/-- What a step does to the job `k`: the row before and after it. -/
inductive JobStep (P : Platform) (w : World) (e : Event) (k : JsString) :
    Option Job → Option Job → Prop
  | kept {o : Option Job} (unclaimed : k ∉ claimedRefs P w e) (unsettled : settledRef P w e ≠ some k)
      (unreplayed : replayedRef P w e ≠ some k) : JobStep P w e k o o
  | inserted {j : Job} (unclaimed : k ∉ claimedRefs P w e) (unsettled : settledRef P w e ≠ some k)
      (unreplayed : replayedRef P w e ≠ some k) (normal : Normal P k) (new : New j)
      (shipment : ∀ r, j.shipmentRef = some r → (w.db.shipments.get? r).isSome) :
      JobStep P w e k none (some j)
  | claimed {j : Job} {worker : JsString} {lease : ℚ} {now : Instant}
      (here : k ∈ claimedRefs P w e) (due : claimable now j = true) :
      JobStep P w e k (some j) (some (claimed worker lease now j))
  | missed {o : Option Job} (unclaimed : k ∉ claimedRefs P w e) (here : settledRef P w e = some k)
      (unreplayed : replayedRef P w e ≠ some k) (ended : ∀ j, o = some j → isRunning j = false) :
      JobStep P w e k o o
  | completed {j : Job} {now : Instant} (unclaimed : k ∉ claimedRefs P w e)
      (here : settledRef P w e = some k) (unreplayed : replayedRef P w e ≠ some k)
      (running : isRunning j = true) : JobStep P w e k (some j) (some (completed now j))
  | failed {j : Job} {f : Failure} {now : Instant} (unclaimed : k ∉ claimedRefs P w e)
      (here : settledRef P w e = some k) (unreplayed : replayedRef P w e ≠ some k)
      (running : isRunning j = true) : JobStep P w e k (some j) (some (failed f now j))
  | replayed {j : Job} {t : Instant} (unclaimed : k ∉ claimedRefs P w e)
      (unsettled : settledRef P w e ≠ some k) (here : replayedRef P w e = some k)
      (dead : j.status = .deadLetter) : JobStep P w e k (some j) (some (replayed t j))

section JobStep

variable {w w' : World}

theorem replayedRef_eq_some {link : Link} {jobRef runAfter : JsString} :
    replayedRef P w (.call link (.replayDeadLetter jobRef runAfter)) = some k ↔
      link.executes = true ∧ ref P jobRef (js "jobRef") 100 = .ok k
        ∧ (∃ t, date P runAfter (js "runAfter") = .ok t)
        ∧ ∃ j, w.db.jobs.get? k = some j ∧ j.status = .deadLetter := by
  simp only [replayedRef]
  rcases ref P jobRef (js "jobRef") 100 with _ | k' <;>
    rcases date P runAfter (js "runAfter") with _ | t
  · simp
  · simp
  · simp
  · simp only [Option.ite_none_right_eq_some, Bool.and_eq_true, Option.any_eq_true,
      decide_eq_true_eq, Option.some.injEq, Except.ok.injEq, exists_eq', true_and]
    constructor
    · rintro ⟨⟨hl, hj⟩, rfl⟩
      exact ⟨hl, rfl, hj⟩
    · rintro ⟨hl, rfl, hj⟩
      exact ⟨⟨hl, hj⟩, rfl⟩

theorem replayDeadLetter_of_dead {db : Database} {jobRef runAfter : JsString} {t : Instant} {j : Job}
    (hk : ref P jobRef (js "jobRef") 100 = .ok k) (ht : date P runAfter (js "runAfter") = .ok t)
    (hj : db.jobs.get? k = some j) (hdead : j.status = .deadLetter) :
    replayDeadLetter P jobRef runAfter db
      = .ok ((), { db with jobs := db.jobs.set k (replayed t j) }) := by
  have hu : db.jobs.updateAt k (fun j => j.status = .deadLetter) (replayed t)
      = some (db.jobs.set k (replayed t j)) :=
    Record.updateAt_eq_some.2 ⟨j, hj, by simpa using hdead, rfl⟩
  simp only [replayDeadLetter, bind, Except.bind, hk, ht, hu]
  rfl

theorem replay_job_step {link : Link} {jobRef runAfter : JsString} :
    JobStep P w (.call link (.replayDeadLetter jobRef runAfter)) k (w.db.jobs.get? k)
      ((query link w.db (replayDeadLetter P jobRef runAfter)).2.jobs.get? k) := by
  by_cases hr : replayedRef P w (.call link (.replayDeadLetter jobRef runAfter)) = some k
  · obtain ⟨hl, hk, ⟨t, ht⟩, j, hj, hdead⟩ := replayedRef_eq_some.1 hr
    rw [query_of_ok (replayDeadLetter_of_dead hk ht hj hdead) hl, hj]
    simp only [Record.get?_set_self]
    exact .replayed List.not_mem_nil nofun hr hdead
  · have hsame : (query link w.db (replayDeadLetter P jobRef runAfter)).2.jobs.get? k
        = w.db.jobs.get? k := by
      rcases query_cases link w.db (replayDeadLetter P jobRef runAfter) with hq | ⟨_, hl, hq⟩
      · rw [hq]
      · obtain ⟨k', t, j, hk, ht, hj, hdead, hdb⟩ := replayDeadLetter_ok hq
        rw [hdb]
        refine Record.get?_set_of_ne _ _ fun hkk => hr ?_
        subst hkk
        exact replayedRef_eq_some.2 ⟨hl, hk, ⟨t, ht⟩, j, hj, hdead⟩
    rw [hsame]
    exact .kept List.not_mem_nil nofun hr

theorem call_job_step {link : Link} {command : Command}
    (h : next P w (.call link command) = some w') :
    JobStep P w (.call link command) k (w.db.jobs.get? k) (w'.db.jobs.get? k) := by
  simp only [next, Option.some.injEq] at h
  subst h
  have hclaim : k ∉ claimedRefs P w (.call link command) := List.not_mem_nil
  have hsettle : settledRef P w (.call link command) ≠ some k := nofun
  have kept (hr : replayedRef P w (.call link command) ≠ some k)
      (hq : KeepsJobs w.db (query link w.db (command.run P)).2) :
      JobStep P w (.call link command) k (w.db.jobs.get? k)
        ((query link w.db (command.run P)).2.jobs.get? k) := by
    rw [hq.jobs]
    exact .kept hclaim hsettle hr
  cases command with
  | upsertCarrierConnection => exact kept nofun (query_keeps fun _ _ => upsertCarrierConnection_keeps)
  | createShipment => exact kept nofun (query_keeps fun _ _ => createShipment_keeps)
  | selectRateQuote => exact kept nofun (query_keeps fun _ _ => selectRateQuote_keeps)
  | saveLabel => exact kept nofun (query_keeps fun _ _ => saveLabel_keeps)
  | saveManagedLabel => exact kept nofun (query_keeps fun _ _ => saveManagedLabel_keeps)
  | requestVoid => exact kept nofun (query_keeps fun _ _ => requestVoid_keeps)
  | finishVoid => exact kept nofun (query_keeps fun _ _ => finishVoid_keeps)
  | scheduleDueJobs fresh now =>
    rcases query_cases link w.db (Command.run P (.scheduleDueJobs fresh now)) with hq | ⟨_, -, hq⟩
    · exact kept nofun ⟨by rw [hq], by rw [hq]⟩
    · have hjobs := congrArg Database.jobs (congrArg Prod.snd (Except.ok.inj hq)).symm
      simp only [] at hjobs
      rw [hjobs]
      rcases get?_foldl_insertJob (k := k) (scheduledRows fresh now w.db) w.db.jobs with
        h | ⟨hnone, row, hrow, rfl, h⟩
      · rw [h]
        exact .kept hclaim hsettle nofun
      · obtain ⟨⟨t, text, ht⟩, hnew, hship⟩ := scheduledRows_fresh hrow
        rw [h, hnone]
        exact .inserted hclaim hsettle nofun (ht ▸ normal_jobRefOf P fresh t text) hnew hship
  | replayDeadLetter jobRef runAfter => exact replay_job_step
  | markLabelOutcomeUnknown fresh now input =>
    rcases query_cases link w.db (Command.run P (.markLabelOutcomeUnknown fresh now input)) with
      hq | ⟨_, -, hq⟩
    · exact kept nofun ⟨by rw [hq], by rw [hq]⟩
    · obtain ⟨⟨r, db'⟩, hmark, hdb⟩ := map_eq_ok hq
      cases hdb
      obtain ⟨shipmentRef, _, _, _, job, -, -, -, hs, -, hnew, hship, hdb⟩ :=
        markLabelOutcomeUnknown_ok hmark
      simp only [hdb]
      rcases get?_insertJob (k := k) w.db.jobs
        (jobRefOf fresh .labelOutcomeReconciliation shipmentRef, job) with h | ⟨hnone, rfl, h⟩
      · simp only [h]
        exact .kept hclaim hsettle nofun
      · simp only [h, hnone]
        refine .inserted hclaim hsettle nofun (normal_jobRefOf P fresh _ _) hnew fun r hr => ?_
        rw [← Option.some.inj (hship.symm.trans hr), hs]
        rfl

theorem claim_job_step {link : Link} {workerRef : JsString} {limit lease : ℚ} {now : Instant}
    (h : next P w (.claim link workerRef limit lease now) = some w') :
    JobStep P w (.claim link workerRef limit lease now) k (w.db.jobs.get? k) (w'.db.jobs.get? k) := by
  have hdb : w'.db = (query link w.db (claimJobs P workerRef limit lease now)).2 := by
    simp only [next] at h
    split at h <;> cases h <;> rfl
  rw [hdb]
  by_cases hk : k ∈ claimedRefs P w (.claim link workerRef limit lease now)
  · have hk' := hk
    simp only [claimedRefs] at hk'
    split_ifs at hk' with hl
    · simp only [Bool.and_eq_true] at hl
      obtain ⟨worker, hw⟩ := toBool_eq_true.1 hl.2
      obtain ⟨jobs, hok⟩ := claimJobs_of_ref limit lease now w.db hw
      obtain ⟨j, hj, hdue⟩ := mem_candidates hk'
      rw [query_of_ok hok hl.1]
      simp only [get?_claimRows, hj, Option.map_some, if_pos hk']
      exact .claimed hk hdue
    · cases hk'
  · have hsame : (query link w.db (claimJobs P workerRef limit lease now)).2.jobs.get? k
        = w.db.jobs.get? k := by
      rcases query_cases link w.db (claimJobs P workerRef limit lease now) with hq | ⟨_, hl, hq⟩
      · rw [hq]
      · obtain ⟨worker, hw, hdb, -⟩ := claimJobs_ok hq
        rw [hdb]
        have hk' : k ∉ candidates now limit w.db.jobs := by
          simpa [claimedRefs, hl, hw, Except.toBool] using hk
        simp [get?_claimRows, hk']
    rw [hsame]
    exact .kept hk nofun nofun

theorem settledRef_processed {i : ℕ} {env : Env} {hand : Hand} (hi : w.hands[i]? = some hand)
    (hphase : hand.phase = .processed) : settledRef P w (.work i env) = some k ↔
      env.link.executes = true ∧ hand.job.jobRef = k := by
  simp [settledRef, hi, hphase]

theorem settledRef_failing {i : ℕ} {env : Env} {hand : Hand} {error : ShipWorkerError}
    (hi : w.hands[i]? = some hand) (hphase : hand.phase = .failing error) :
    settledRef P w (.work i env) = some k ↔ env.link.executes = true
      ∧ (∃ code, ref P error.code (js "errorCode") 100 = .ok code)
      ∧ (∃ message, ref P error.message (js "errorMessage") 500 = .ok message)
      ∧ hand.job.jobRef = k := by
  simp only [settledRef, hi, hphase, Option.ite_none_right_eq_some, Bool.and_eq_true,
    toBool_eq_true, Option.some.injEq, and_assoc]

theorem settledRef_hand {i : ℕ} {env : Env} {hand : Hand} (hi : w.hands[i]? = some hand)
    (hs : settledRef P w (.work i env) = some k) : k = hand.job.jobRef := by
  simp only [settledRef, hi] at hs
  split at hs
  · split_ifs at hs
    exact (Option.some.inj hs).symm
  · split_ifs at hs
    exact (Option.some.inj hs).symm
  · cases hs

/-- A worker's step ends the running job it is about, or leaves every job alone. -/
theorem work_cases {i : ℕ} {env : Env} (hn : ∀ hand ∈ w.hands, Normal P hand.job.jobRef)
    (h : next P w (.work i env) = some w') :
    (KeepsJobs w.db w'.db ∧ ∀ k, settledRef P w (.work i env) = some k →
        ∀ j, w.db.jobs.get? k = some j → isRunning j = false)
      ∨ ∃ k j j', settledRef P w (.work i env) = some k ∧ w.db.jobs.get? k = some j
        ∧ isRunning j = true ∧ w'.db.jobs = w.db.jobs.set k j'
        ∧ (j' = completed env.now j ∨ ∃ f, j' = failed f env.now j) := by
  obtain ⟨hand, phase, hi, ha, -⟩ := next_work h
  have hnormal := hn hand (List.mem_of_getElem? hi)
  rcases hphase : hand.phase with _ | _ | label | label | _ | r | r | t | _ | error | st
  case processed =>
    have hdb : (query env.link w.db (completeJob P hand.job.jobRef env.now)).2 = w'.db := by
      simp only [advance, hphase, Option.some.injEq, Prod.mk.injEq] at ha
      exact ha.2
    rw [← hdb]
    rcases completeJob_cases hnormal env.now w.db with ⟨j, hj, hrun, hres⟩ | ⟨hrun, hres⟩
    · by_cases hl : env.link.executes = true
      · rw [query_of_ok hres hl]
        exact .inr ⟨_, j, _, (settledRef_processed hi hphase).2 ⟨hl, rfl⟩, hj, hrun, rfl, .inl rfl⟩
      · rw [query_of_refused hl]
        exact .inl ⟨.refl _, fun k hs => absurd ((settledRef_processed hi hphase).1 hs).1 hl⟩
    · rw [query_of_error hres]
      refine .inl ⟨.refl _, fun k hs => ?_⟩
      obtain ⟨-, rfl⟩ := (settledRef_processed hi hphase).1 hs
      exact hrun
  case failing =>
    have hdb : (query env.link w.db
        (failJob P hand.job.jobRef (failureOf env hand.job error) env.now)).2 = w'.db := by
      simp only [advance, hphase, Option.some.injEq, Prod.mk.injEq] at ha
      exact ha.2
    rw [← hdb]
    rcases hres : failJob P hand.job.jobRef (failureOf env hand.job error) env.now w.db with
      message | ⟨st, db'⟩
    · rw [query_of_error hres]
      refine .inl ⟨.refl _, fun k hs j hj => Bool.eq_false_iff.2 fun hrun => ?_⟩
      obtain ⟨-, ⟨code, hcode⟩, ⟨message, hmessage⟩, rfl⟩ := (settledRef_failing hi hphase).1 hs
      obtain ⟨r, hok⟩ := failJob_of_running hnormal (failureOf env hand.job error) env.now hcode
        hmessage hj hrun
      rw [hres] at hok
      cases hok
    · by_cases hl : env.link.executes = true
      · obtain ⟨j, f, hf, hj, hrun, hjobs, -⟩ := failJob_ok hnormal hres
        rw [query_of_ok hres hl, hjobs]
        exact .inr ⟨_, j, _, (settledRef_failing hi hphase).2 ⟨hl, ⟨_, hf.1⟩, ⟨_, hf.2.1⟩, rfl⟩, hj,
          hrun, rfl, .inr ⟨f, rfl⟩⟩
      · rw [query_of_refused hl]
        exact .inl ⟨.refl _, fun k hs => absurd ((settledRef_failing hi hphase).1 hs).1 hl⟩
  case ended => simp [advance, hphase] at ha
  all_goals
    have hs : settledRef P w (.work i env) = none := by simp [settledRef, hi, hphase]
    exact .inl ⟨advance_keeps ha (by simp [hphase]) (by simp [hphase]), by simp [hs]⟩

theorem work_job_step {i : ℕ} {env : Env} (hn : ∀ hand ∈ w.hands, Normal P hand.job.jobRef)
    (h : next P w (.work i env) = some w') :
    JobStep P w (.work i env) k (w.db.jobs.get? k) (w'.db.jobs.get? k) := by
  have hclaim : k ∉ claimedRefs P w (.work i env) := List.not_mem_nil
  have hreplay : replayedRef P w (.work i env) ≠ some k := nofun
  rcases work_cases hn h with ⟨hkeeps, hended⟩ | ⟨k', j, j', hs, hj, hrun, hjobs, hj'⟩
  · rw [hkeeps.jobs]
    by_cases hs : settledRef P w (.work i env) = some k
    · exact .missed hclaim hs hreplay (hended k hs)
    · exact .kept hclaim hs hreplay
  · rw [hjobs]
    by_cases hk : k' = k
    · subst hk
      rw [hj, Record.get?_set_self]
      rcases hj' with rfl | ⟨f, rfl⟩
      · exact .completed hclaim hs hreplay hrun
      · exact .failed hclaim hs hreplay hrun
    · rw [Record.get?_set_of_ne _ _ hk]
      exact .kept hclaim (fun hs' => hk (Option.some.inj (hs.symm.trans hs'))) hreplay

theorem job_step {e : Event} (hn : ∀ hand ∈ w.hands, Normal P hand.job.jobRef)
    (h : next P w e = some w') :
    JobStep P w e k (w.db.jobs.get? k) (w'.db.jobs.get? k) := by
  cases e with
  | call link command => exact call_job_step h
  | claim link workerRef limit lease now => exact claim_job_step h
  | work i env => exact work_job_step hn h

end JobStep

/-- A hand after a step: one from before, one of a job just claimed, or one that went on. -/
theorem hands_step {w w' : World} {e : Event} (h : next P w e = some w') {hand : Hand}
    (hhand : hand ∈ w'.hands) : hand ∈ w.hands
      ∨ (hand.phase = .claimed ∧ ∃ j, w'.db.jobs.get? hand.job.jobRef = some j
        ∧ hand.job = mapJob w.db (hand.job.jobRef, j))
      ∨ ∃ old ∈ w.hands, ∃ env phase, hand = { old with phase := phase }
        ∧ advance P env w.db old = some (phase, w'.db) := by
  cases e with
  | call link command =>
    simp only [next, Option.some.injEq] at h
    subst h
    exact .inl hhand
  | claim link workerRef limit lease now =>
    rcases next_claim h with ⟨hhands, -⟩ | ⟨jobs, hok, hhands⟩
    · exact .inl (hhands ▸ hhand)
    · rw [hhands] at hhand
      rcases List.mem_append.1 hhand with hhand | hhand
      · exact .inl hhand
      · obtain ⟨c, hc, rfl⟩ := List.mem_map.1 hhand
        obtain ⟨-, -, -, hall⟩ := claimJobs_ok hok
        obtain ⟨j, hj, hmap, -⟩ := hall c hc
        exact .inr (.inl ⟨rfl, j, hj, hmap⟩)
  | work i env =>
    obtain ⟨old, phase, hi, ha, hhands⟩ := next_work h
    rw [hhands] at hhand
    rcases List.mem_or_eq_of_mem_set hhand with hhand | rfl
    · exact .inl hhand
    · exact .inr (.inr ⟨old, List.mem_of_getElem? hi, env, phase, rfl, ha⟩)

/-! ## References of a run -/

/-- Every reference of a job, in the queue and in the workers' hands, is one that `ref` keeps. -/
structure NormalRefs (P : Platform) (w : World) : Prop where
  jobs : ∀ k j, w.db.jobs.get? k = some j → Normal P k
  hands : ∀ hand ∈ w.hands, Normal P hand.job.jobRef

theorem NormalRefs.step {w w' : World} {e : Event} (hn : NormalRefs P w)
    (h : next P w e = some w') : NormalRefs P w' := by
  have hjobs : ∀ k j, w'.db.jobs.get? k = some j → Normal P k := by
    intro k j hj
    have hstep := job_step (k := k) hn.hands h
    rw [hj] at hstep
    generalize hold : w.db.jobs.get? k = old at hstep
    cases hstep with
    | inserted _ _ _ normal => exact normal
    | kept => exact hn.jobs k j hold
    | missed => exact hn.jobs k j hold
    | claimed => exact hn.jobs k _ hold
    | completed => exact hn.jobs k _ hold
    | failed => exact hn.jobs k _ hold
    | replayed => exact hn.jobs k _ hold
  refine ⟨hjobs, fun hand hhand => ?_⟩
  rcases hands_step h hhand with hold | ⟨-, j, hj, -⟩ | ⟨old, hold, env, phase, rfl, -⟩
  · exact hn.hands hand hold
  · exact hjobs _ j hj
  · exact hn.hands old hold

theorem Run.normalRefs {past : Past} {w : World} (h : Run P past w) : NormalRefs P w := by
  obtain ⟨merchants, connections, h⟩ := h
  induction h with
  | init =>
    refine ⟨fun k j hj => ?_, fun _ hhand => absurd hhand List.not_mem_nil⟩
    simp [Database.start] at hj
  | step _ taken ih => exact ih.step taken

theorem Run.step {past : Past} {w w' : World} {e : Event} (h : Run P past w)
    (hnext : next P w e = some w') : Run P ((w, e) :: past) w' := by
  obtain ⟨merchants, connections, h⟩ := h
  exact ⟨merchants, connections, h.step hnext⟩

/-! ## A merchant with one connection -/

def shipPlatform : Platform where
  nfkc := ⟨id, id_ascii⟩
  normalize_trim := id_trim
  dates := .ofTable ⟨[(1750000000000, js "2025-06-15T15:06:40.000Z"),
    (1750003600000, js "2025-06-15T16:06:40.000Z")], by decide⟩ (by decide) (by decide)

/-- An active UPS connection whose token is due. -/
def upsConnection : Connection where
  carrier := .ups
  status := .active
  tokenExpiresAt := none
  nextTokenRefreshAt := none
  tokenRefreshFailureCount := 0
  lastVerifiedAt := none

def shipStart : World := ⟨.start [] (Record.empty.set (js "conn") upsConnection), []⟩

def shipRun (es : List Event) : Option (Past × World) :=
  History.play (next shipPlatform) [] shipStart es

theorem run_of_shipRun {es : List Event} {v : Past × World} (h : shipRun es = some v) :
    Run shipPlatform v.1 v.2 := ⟨_, _, History.Run.play .init h⟩

def firstId : HexId := ⟨List.replicate 32 48, rfl, rfl⟩

def schedule : Event := .call .up (.scheduleDueJobs (fun _ _ => firstId) 0)

/-- A claim of one job for a minute, so many seconds after the start. -/
def claimAt (worker : String) (s : ℤ) : Event := .claim .up (js worker) 1 60 (ofSeconds s)

/-- The carrier answers with the time its new token expires, so many seconds after the start. -/
def tokenAt (s : ℤ) : Env :=
  ⟨ofSeconds s, 0, .up, .token (js "2025-06-15T16:06:40.000Z"), 0⟩

/-- All the steps of a refresh, and the job completed. -/
def refresh (i : ℕ) (s : ℤ) : List Event := List.replicate 4 (.work i (tokenAt s))

end Agid.VeygritShip
