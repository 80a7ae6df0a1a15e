import Agid.Proofs.LabelOutcomes

/-!
# Delivered and voided shipments

Every step writes the status of one shipment at most, and which it is does not depend on the status
there.  So a shipment that is delivered or voided stays so exactly as long as no step writes another
status over it.
-/

namespace Agid.VeygritShip

variable {P : Platform} {db db' : Database} {w w' : World} {e : Event} {r : JsString} {past : Past}

/-! ## Statements -/

/-- The status of every shipment stays as it is. -/
def KeepsStatus (db db' : Database) : Prop :=
  ∀ r, (db'.shipments.get? r).map Shipment.status = (db.shipments.get? r).map Shipment.status

/-- The shipment `r` has the new status, if it is there, and the others keep theirs. -/
def SetsStatus (r : JsString) (status : ShipmentStatus) (db db' : Database) : Prop :=
  ∀ r', (db'.shipments.get? r').map Shipment.status
    = (db.shipments.get? r').map fun s => if r = r' then status else s.status

theorem KeepsStatus.of_eq (h : db'.shipments = db.shipments) : KeepsStatus db db' :=
  fun r => by rw [h]

theorem KeepsStatus.of_update {f : Shipment → Shipment} {p : Shipment → Bool}
    (h : db'.shipments = (db.shipments.updateAt r p f).getD db.shipments)
    (hf : ∀ s, (f s).status = s.status) : KeepsStatus db db' :=
  fun r' => by rw [h, get?_updateAt_map hf]

theorem SetsStatus.of_update {f : Shipment → Shipment} {p : Shipment → Bool}
    {status : ShipmentStatus} (h : db'.shipments = (db.shipments.updateAt r p f).getD db.shipments)
    (hp : ∀ s, db.shipments.get? r = some s → p s = true) (hf : ∀ s, (f s).status = status) :
    SetsStatus r status db db' := by
  intro r'
  rw [h, Record.get?_updateAt_getD]
  by_cases hr : r = r'
  · subst hr
    rcases hs : db.shipments.get? r with _ | s
    · simp
    · simp [hp s hs, hf]
  · simp only [if_neg hr]

theorem SetsStatus.of_set {s : Shipment} {status : ShipmentStatus} {f : Shipment → Shipment}
    (hs : db.shipments.get? r = some s) (h : db'.shipments = db.shipments.set r (f s))
    (hf : ∀ s, (f s).status = status) : SetsStatus r status db db' := by
  intro r'
  rw [h, Record.get?_set]
  split_ifs with hr
  · subst hr
    simp [hs, hf]
  · rfl

/-- The status is written if the carrier told one, and the times of the next questions can be read
either way. -/
theorem recordTrackingSync_status {st : Option CarrierStatus} {n m : Option JsString}
    {now : Instant} {a : Unit} {k : JsString}
    (h : recordTrackingSync P k st n m now db = .ok (a, db')) :
    ∃ r, ref P k (js "shipmentRef") 100 = .ok r
      ∧ (optionalDate P (if st = some .delivered then none else n.bind nonEmpty)
        (js "nextPollAt")).toBool = true
      ∧ (optionalDate P (m.bind nonEmpty) (js "nextReconcileAt")).toBool = true
      ∧ (st = none ∧ KeepsStatus db db'
        ∨ ∃ status, st = some status ∧ SetsStatus r status.shipmentStatus db db') := by
  obtain ⟨r, hr, h⟩ := bind_eq_ok.1 h
  obtain ⟨_, hpoll, h⟩ := bind_eq_ok.1 h
  obtain ⟨_, hreconcile, h⟩ := bind_eq_ok.1 h
  cases h
  refine ⟨r, hr, toBool_eq_true.2 ⟨_, hpoll⟩, toBool_eq_true.2 ⟨_, hreconcile⟩, ?_⟩
  cases st with
  | none => exact .inl ⟨rfl, .of_update rfl fun _ => rfl⟩
  | some status => exact .inr ⟨status, rfl, .of_update rfl (fun _ _ => rfl) fun _ => rfl⟩

theorem recordCarrierReconciliation_status {st : Option CarrierStatus} {n : Option JsString}
    {now : Instant} {a : Unit} {k : JsString}
    (h : recordCarrierReconciliation P k st n now db = .ok (a, db')) :
    ∃ r, ref P k (js "shipmentRef") 100 = .ok r
      ∧ (optionalDate P (if st = some .delivered ∨ st = some .voided then none
        else n.bind nonEmpty) (js "nextReconcileAt")).toBool = true
      ∧ (st = none ∧ KeepsStatus db db'
        ∨ ∃ status, st = some status ∧ SetsStatus r status.shipmentStatus db db') := by
  obtain ⟨r, hr, h⟩ := bind_eq_ok.1 h
  obtain ⟨_, hreconcile, h⟩ := bind_eq_ok.1 h
  cases h
  refine ⟨r, hr, toBool_eq_true.2 ⟨_, hreconcile⟩, ?_⟩
  cases st with
  | none => exact .inl ⟨rfl, .of_update rfl fun _ => rfl⟩
  | some status => exact .inr ⟨status, rfl, .of_update rfl (fun _ _ => rfl) fun _ => rfl⟩

/-- What a step that writes the status `target` does, or one that writes none: all it may do is file
a draft. -/
def WritesStatus (target : Option (JsString × ShipmentStatus)) (db db' : Database) : Prop :=
  match target with
  | some (r, status) => SetsStatus r status db db'
  | none => ∀ r, (db'.shipments.get? r).map Shipment.status = (db.shipments.get? r).map Shipment.status
    ∨ db.shipments.get? r = none ∧ (db'.shipments.get? r).map Shipment.status = some .draft

theorem KeepsStatus.writes (h : KeepsStatus db db') : WritesStatus none db db' := fun r => .inl (h r)

theorem WritesStatus.query {α : Type} {link : Link} {target : Option (JsString × ShipmentStatus)}
    {statement : Database → Except JsString (α × Database)}
    (refused : ¬ link.executes = true → target = none)
    (error : ∀ message, statement db = .error message → WritesStatus target db db)
    (ok : link.executes = true → ∀ a db', statement db = .ok (a, db') → WritesStatus target db db') :
    WritesStatus target db (query link db statement).2 := by
  by_cases hl : link.executes = true
  · rcases h : statement db with message | ⟨a, db'⟩
    · rw [query_of_error h]
      exact error message h
    · rw [query_of_ok h hl]
      exact ok hl a db' h
  · rw [query_of_refused hl, refused hl]
    exact KeepsStatus.writes (.of_eq rfl)

theorem WritesStatus.query_none {α : Type} {link : Link}
    {statement : Database → Except JsString (α × Database)}
    (ok : ∀ a db', statement db = .ok (a, db') → WritesStatus none db db') :
    WritesStatus none db (VeygritShip.query link db statement).2 :=
  .query (fun _ => rfl) (fun _ _ => KeepsStatus.writes (.of_eq rfl)) fun _ => ok

theorem toBool_of_error {ε α : Type} {result : Except ε α} {message : ε}
    (h : result = .error message) : result.toBool = false := by
  rw [h]
  rfl

theorem toBool_saveLabel {now : Instant} {input : LabelInput} :
    (saveLabel P now input db).toBool = (insertLabel P now input db).toBool := by
  unfold saveLabel
  rcases insertLabel P now input db with message | labels <;> rfl

theorem saveLabel_sets {now : Instant} {input : LabelInput} {a : Unit}
    (h : saveLabel P now input db = .ok (a, db')) :
    SetsStatus input.shipmentRef .created db db' :=
  .of_update (saveLabel_ok h).2 (fun _ _ => rfl) fun _ => rfl

theorem call_writes {link : Link} {command : Command} :
    WritesStatus (statusWritten P w (.call link command)) w.db
      (query link w.db (command.run P)).2 := by
  cases command with
  | selectRateQuote shipmentRef =>
    rcases hr : ref P shipmentRef (js "shipmentRef") 100 with message | r
    · simp only [statusWritten, hr]
      refine .query_none fun a db' h => ?_
      simp [Command.run, selectRateQuote, bind, Except.bind, hr] at h
    · simp only [statusWritten, hr]
      refine .query (fun h => by simp [h]) (fun message h => ?_) fun hl a db' h => ?_
      · simp only [Command.run, selectRateQuote, bind, Except.bind, hr] at h
        split at h
        · cases h
        · rename_i hnone
          split_ifs
          · intro r'
            by_cases hrr : r = r'
            · subst hrr
              rcases hs : w.db.shipments.get? r with _ | s
              · rfl
              · simpa using Record.updateAt_eq_none.1 hnone s hs
            · simp [hrr]
          · exact KeepsStatus.writes (.of_eq rfl)
      · rw [if_pos hl]
        simp only [Command.run, selectRateQuote, bind, Except.bind, hr] at h
        split at h
        · rename_i shipments hu
          cases h
          exact SetsStatus.of_update (congrArg (Option.getD · w.db.shipments) hu).symm (fun _ _ => rfl)
            fun _ => rfl
        · cases h
  | saveLabel now input =>
    simp only [statusWritten, ← toBool_saveLabel]
    refine .query (fun h => by simp [h]) (fun message h => ?_) fun hl a db' h => ?_
    · have hfalse : (saveLabel P now input w.db).toBool = false := toBool_of_error h
      rw [hfalse, Bool.and_false, if_neg Bool.false_ne_true]
      exact KeepsStatus.writes (.of_eq rfl)
    · have htrue : (saveLabel P now input w.db).toBool = true := toBool_eq_true.2 ⟨_, h⟩
      rw [htrue, hl]
      exact saveLabel_sets h
  | saveManagedLabel now input =>
    rcases hr : safeRef P input.shipmentRef (js "shipmentRef") 100 with message | r
    · simp only [statusWritten, hr]
      refine .query_none fun a db' h => ?_
      obtain ⟨_, -, h⟩ := bind_eq_ok.1 h
      obtain ⟨_, hr', -⟩ := bind_eq_ok.1 h
      rw [hr] at hr'
      cases hr'
    · simp only [statusWritten, hr]
      refine .query (fun h => by simp [h]) (fun message h => ?_) fun hl a db' h => ?_
      · have hfalse : (PostgresLabelMetadataStore.saveLabel P now input w.db).toBool = false :=
          toBool_of_error h
        rw [hfalse, Bool.and_false, if_neg Bool.false_ne_true]
        exact KeepsStatus.writes (.of_eq rfl)
      · have htrue : (PostgresLabelMetadataStore.saveLabel P now input w.db).toBool = true :=
          toBool_eq_true.2 ⟨_, h⟩
        rw [htrue, hl]
        obtain ⟨r', s, _, _, hr', hs, hshipments, -⟩ := saveManagedLabel_ok h
        rw [hr] at hr'
        cases hr'
        exact SetsStatus.of_set hs hshipments fun _ => rfl
  | createShipment input =>
    refine .query_none fun a db' h => ?_
    obtain ⟨r, -, hnone, rfl⟩ := createShipment_ok h
    intro r'
    rw [Record.get?_set]
    split_ifs with hr
    · subst hr
      exact .inr ⟨hnone, rfl⟩
    · exact .inl rfl
  | upsertCarrierConnection =>
    exact .query_none fun _ _ h => (KeepsStatus.of_eq (upsertCarrierConnection_shipments h)).writes
  | requestVoid =>
    exact .query_none fun _ _ h => (KeepsStatus.of_eq (requestVoid_shipments h)).writes
  | finishVoid =>
    exact .query_none fun _ _ h => (KeepsStatus.of_eq (finishVoid_shipments h)).writes
  | scheduleDueJobs =>
    exact .query_none fun _ _ h => (KeepsStatus.of_eq (scheduleDueJobs_shipments h)).writes
  | replayDeadLetter =>
    exact .query_none fun _ _ h => (KeepsStatus.of_eq (replayDeadLetter_shipments h)).writes
  | markLabelOutcomeUnknown fresh now input =>
    refine .query_none fun a db' h => KeepsStatus.writes ?_
    obtain ⟨⟨id, db''⟩, hv, heq⟩ := map_eq_ok h
    cases heq
    obtain ⟨r, _, _, s, _, -, -, -, hs, -, -, -, rfl⟩ := markLabelOutcomeUnknown_ok hv
    intro r'
    rw [Record.get?_set]
    split_ifs with hr
    · subst hr
      rw [hs]
      rfl
    · rfl

theorem recordLabelNotFound_error {k message : JsString}
    (h : recordLabelNotFound P k db = .error message) :
    ref P k (js "shipmentRef") 100 = .error message := by
  unfold recordLabelNotFound at h
  rcases hr : ref P k (js "shipmentRef") 100 with message' | r <;> rw [hr] at h <;> cases h
  rfl

theorem recordLabelNotFound_ok {a : Unit} {k : JsString}
    (h : recordLabelNotFound P k db = .ok (a, db')) :
    ∃ r, ref P k (js "shipmentRef") 100 = .ok r
      ∧ db'.shipments = (db.shipments.updateAt r unconfirmed
        ({ · with
          labelOutcome := .notFound
          status := .failed
          labelReconciliationDeadlineAt := none })).getD db.shipments := by
  obtain ⟨r, hr, h⟩ := bind_eq_ok.1 h
  cases h
  exact ⟨r, hr, rfl⟩

theorem handWrites_syncing {hand : Hand} {result : TrackingWorkerResult} {now : Instant}
    (hphase : hand.phase = .syncing result)
    (hr : ref P (hand.job.shipmentRef.getD []) (js "shipmentRef") 100 = .ok r) :
    handWrites P now db hand
      = if (optionalDate P (if result.status = some .delivered then none
            else result.nextPollAt.bind nonEmpty) (js "nextPollAt")).toBool
          && (optionalDate P (result.nextReconcileAt.bind nonEmpty)
            (js "nextReconcileAt")).toBool then
        result.status.map fun status => (r, status.shipmentStatus)
      else none := by
  simp only [handWrites, hphase, hr]

theorem handWrites_reconciling {hand : Hand} {result : CarrierReconciliationResult} {now : Instant}
    (hphase : hand.phase = .reconciling result)
    (hr : ref P (hand.job.shipmentRef.getD []) (js "shipmentRef") 100 = .ok r) :
    handWrites P now db hand
      = if (optionalDate P (if result.status = some .delivered ∨ result.status = some .voided
            then none else result.nextReconcileAt.bind nonEmpty) (js "nextReconcileAt")).toBool then
        result.status.map fun status => (r, status.shipmentStatus)
      else none := by
  simp only [handWrites, hphase, hr]

/-- The statement of a claimed job writes the status that its phase tells, if it is done. -/
theorem advance_writes {env : Env} {hand : Hand} {phase : Phase}
    (h : advance P env db hand = some (phase, db')) :
    WritesStatus (if env.link.executes then handWrites P env.now db hand else none) db db' := by
  have stored {α : Type} {statement : Database → Except JsString (α × Database)}
      {target : Option (JsString × ShipmentStatus)}
      (hdb : (query env.link db statement).2 = db')
      (error : ∀ message, statement db = .error message → target = none)
      (ok : ∀ a db', statement db = .ok (a, db') → WritesStatus target db db') :
      WritesStatus (if env.link.executes then target else none) db db' := by
    subst hdb
    refine .query (fun hl => if_neg hl) (fun message h => ?_) fun hl a db' h => ?_
    · rw [error message h, ite_self]
      exact KeepsStatus.writes (.of_eq rfl)
    · rw [if_pos hl]
      exact ok a db' h
  have kept {α : Type} {statement : Database → Except JsString (α × Database)}
      (htarget : handWrites P env.now db hand = none)
      (hdb : (query env.link db statement).2 = db')
      (ok : ∀ a db', statement db = .ok (a, db') → KeepsStatus db db') :
      WritesStatus (if env.link.executes then handWrites P env.now db hand else none) db db' :=
    stored hdb (fun _ _ => htarget) fun a db' h => htarget ▸ (ok a db' h).writes
  have same (htarget : handWrites P env.now db hand = none) (hdb : db = db') :
      WritesStatus (if env.link.executes then handWrites P env.now db hand else none) db db' := by
    rw [htarget, ite_self, hdb]
    exact KeepsStatus.writes (.of_eq rfl)
  rcases hphase : hand.phase with _ | _ | label | label | _ | result | result | t | _ | error | st <;>
    simp only [advance, hphase] at h
  · have htarget : handWrites P env.now db hand = none := by simp [handWrites, hphase]
    split at h
    · exact same htarget (congrArg Prod.snd (Option.some.inj h))
    · split_ifs at h
      · refine kept htarget (congrArg Prod.snd (Option.some.inj h)) fun a db'' hok => ?_
        obtain ⟨r, hshipments⟩ := markLabelReconciling_ok hok
        exact .of_update hshipments fun _ => rfl
      · exact same htarget (congrArg Prod.snd (Option.some.inj h))
  · obtain ⟨_, -, h⟩ := Option.map_eq_some_iff.1 h
    exact same (by simp [handWrites, hphase]) (congrArg Prod.snd h)
  · refine stored (congrArg Prod.snd (Option.some.inj h)) (fun message hfail => ?_)
      fun a db'' hok => ?_
    · simp only [handWrites, hphase, ← toBool_saveLabel, toBool_of_error hfail]
      rfl
    · simp only [handWrites, hphase, ← toBool_saveLabel, toBool_eq_true.2 ⟨_, hok⟩]
      exact saveLabel_sets hok
  · refine kept (by simp [handWrites, hphase]) (congrArg Prod.snd (Option.some.inj h))
      fun a db'' hok => ?_
    obtain ⟨r, -, hok⟩ := bind_eq_ok.1 hok
    cases hok
    exact .of_update rfl fun _ => rfl
  · refine stored (congrArg Prod.snd (Option.some.inj h)) (fun message hfail => ?_)
      fun a db'' hok => ?_
    · simp only [handWrites, hphase, recordLabelNotFound_error hfail]
    · obtain ⟨r, hr, hshipments⟩ := recordLabelNotFound_ok hok
      simp only [handWrites, hphase, hr]
      split_ifs with hopen
      · exact .of_update hshipments (fun s hs => by simpa [hs] using hopen) fun _ => rfl
      · refine KeepsStatus.writes fun r' => ?_
        rw [hshipments, Record.get?_updateAt_getD]
        by_cases hr' : r = r'
        · subst hr'
          rcases hs : db.shipments.get? r with _ | s
          · rw [if_pos rfl]
            rfl
          · rw [hs, Option.any_some] at hopen
            rw [if_pos rfl, Option.map_some, if_neg hopen]
        · rw [if_neg hr']
  · refine stored (congrArg Prod.snd (Option.some.inj h)) (fun message hfail => ?_)
      fun a db'' hok => ?_
    · rcases hr : ref P (hand.job.shipmentRef.getD []) (js "shipmentRef") 100 with message' | r
      · simp only [handWrites, hphase, hr]
      · rw [handWrites_syncing hphase hr]
        refine if_neg fun hok => ?_
        simp only [Bool.and_eq_true, toBool_eq_true] at hok
        obtain ⟨⟨n, hn⟩, m, hm⟩ := hok
        simp only [recordTrackingSync, bind, Except.bind, hr, hn, hm] at hfail
        cases hfail
    · obtain ⟨r, hr, hpoll, hreconcile, hcases⟩ := recordTrackingSync_status hok
      rw [handWrites_syncing hphase hr, hpoll, hreconcile]
      rcases hcases with ⟨hnone, hkeeps⟩ | ⟨status, hsome, hsets⟩
      · simpa [hnone] using hkeeps.writes
      · rw [Bool.and_self, if_pos rfl, hsome]
        exact hsets
  · refine stored (congrArg Prod.snd (Option.some.inj h)) (fun message hfail => ?_)
      fun a db'' hok => ?_
    · rcases hr : ref P (hand.job.shipmentRef.getD []) (js "shipmentRef") 100 with message' | r
      · simp only [handWrites, hphase, hr]
      · rw [handWrites_reconciling hphase hr]
        refine if_neg fun hok => ?_
        obtain ⟨n, hn⟩ := toBool_eq_true.1 hok
        simp only [recordCarrierReconciliation, bind, Except.bind, hr, hn] at hfail
        cases hfail
    · obtain ⟨r, hr, hreconcile, hcases⟩ := recordCarrierReconciliation_status hok
      rw [handWrites_reconciling hphase hr, hreconcile]
      rcases hcases with ⟨hnone, hkeeps⟩ | ⟨status, hsome, hsets⟩
      · simpa [hnone] using hkeeps.writes
      · rw [if_pos rfl, hsome]
        exact hsets
  · exact kept (by simp [handWrites, hphase]) (congrArg Prod.snd (Option.some.inj h))
      fun a db'' hok => .of_eq (recordUpsTokenRefresh_shipments hok)
  · exact kept (by simp [handWrites, hphase]) (congrArg Prod.snd (Option.some.inj h))
      fun a db'' hok => .of_eq (completeJob_shipments hok)
  · exact kept (by simp [handWrites, hphase]) (congrArg Prod.snd (Option.some.inj h))
      fun a db'' hok => failJob_shipments (fun _ _ => rfl) hok
  · cases h

/-! ## Steps -/

theorem status_step (h : next P w e = some w') : WritesStatus (statusWritten P w e) w.db w'.db := by
  cases e with
  | call link command =>
    simp only [next, Option.some.injEq] at h
    subst h
    exact call_writes
  | claim link workerRef limit lease now =>
    refine KeepsStatus.writes ?_
    rcases next_claim h with ⟨-, hdb⟩ | ⟨jobs, hok, -⟩
    · rw [hdb]
      rcases query_cases link w.db (claimJobs P workerRef limit lease now) with hq | ⟨_, -, hq⟩
      · exact .of_eq (by rw [hq])
      · exact .of_eq (claimJobs_shipments hq)
    · exact .of_eq (claimJobs_shipments hok)
  | work i env =>
    obtain ⟨hand, phase, hi, ha, -⟩ := next_work h
    simp only [statusWritten, hi]
    exact advance_writes ha

theorem CarrierStatus.terminal_or_reopened (status : CarrierStatus) :
    status.shipmentStatus.terminal = true ∨ status.shipmentStatus.reopened = true := by
  cases status <;> decide

theorem handWrites_terminal_or_reopened {now : Instant} {hand : Hand}
    {wrote : JsString × ShipmentStatus} (h : handWrites P now db hand = some wrote) :
    wrote.2.terminal = true ∨ wrote.2.reopened = true := by
  simp only [handWrites] at h
  split at h
  · split_ifs at h
    cases h
    exact .inr rfl
  · split_ifs at h
    cases h
    exact .inr rfl
  · obtain ⟨-, h⟩ := Option.ite_none_right_eq_some.1 h
    obtain ⟨status, -, rfl⟩ := Option.map_eq_some_iff.1 h
    exact status.terminal_or_reopened
  · obtain ⟨-, h⟩ := Option.ite_none_right_eq_some.1 h
    obtain ⟨status, -, rfl⟩ := Option.map_eq_some_iff.1 h
    exact status.terminal_or_reopened
  · cases h

/-- Each status that is written ends the shipment or is one of those it must not go back to. -/
theorem statusWritten_terminal_or_reopened {wrote : JsString × ShipmentStatus}
    (h : statusWritten P w e = some wrote) :
    wrote.2.terminal = true ∨ wrote.2.reopened = true := by
  unfold statusWritten at h
  split at h
  · split at h
    · split_ifs at h
      cases h
      exact .inr rfl
    · cases h
  · split_ifs at h
    cases h
    exact .inr rfl
  · split at h
    · split_ifs at h
      cases h
      exact .inr rfl
    · cases h
  · split at h
    · split_ifs at h
      exact handWrites_terminal_or_reopened h
    · cases h
  · cases h

theorem not_reopened_of_terminal {status : ShipmentStatus} (h : status.terminal = true) :
    status.reopened = false := by
  cases status <;> first | rfl | cases h

/-- A shipment that has ended stays so over a step that writes no other status over it. -/
theorem statusOf_terminal_step (h : next P w e = some w') (hleaves : LeavesTerminal P past w e)
    (hr : (statusOf w r).any ShipmentStatus.terminal = true) :
    (statusOf w' r).any ShipmentStatus.terminal = true := by
  have hstep := status_step h
  rcases hwrote : statusWritten P w e with _ | ⟨r', status⟩ <;> rw [hwrote] at hstep
  · rcases hstep r with hsame | ⟨hnone, -⟩
    · rw [statusOf, hsame]
      exact hr
    · simp [statusOf, hnone] at hr
  · have hset := hstep r
    rw [statusOf, hset]
    by_cases hrr : r' = r
    · subst hrr
      have hopen := hleaves _ hwrote hr
      rcases statusWritten_terminal_or_reopened hwrote with hterminal | hreopened
      · rcases hs : w.db.shipments.get? r' with _ | s
        · simp [statusOf, hs] at hr
        · simpa using hterminal
      · rw [hopen] at hreopened
        cases hreopened
    · simp only [if_neg hrr]
      exact hr

/-! ## Every run -/

/-- A shipment that had ended before has ended, as long as no step wrote another status over it. -/
theorem Run.terminal_of_leaves (h : Run P past w) (hleaves : History.Every (LeavesTerminal P) past)
    (hr : ∃ step ∈ past, (statusOf step.1 r).any ShipmentStatus.terminal = true) :
    (statusOf w r).any ShipmentStatus.terminal = true := by
  obtain ⟨merchants, connections, h⟩ := h
  induction h with
  | init =>
    obtain ⟨_, hmem, -⟩ := hr
    cases hmem
  | step run taken ih =>
    refine statusOf_terminal_step taken hleaves.1 ?_
    obtain ⟨step, hmem, hstep⟩ := hr
    rcases List.mem_cons.1 hmem with rfl | hmem
    · exact hstep
    · exact ih hleaves.2 ⟨step, hmem, hstep⟩

theorem Run.staysTerminal (h : Run P past w) (hleaves : History.Every (LeavesTerminal P) past) :
    StaysTerminal past w := by
  obtain ⟨merchants, connections, h⟩ := h
  induction h with
  | init => trivial
  | @step past v w' e run taken ih =>
    refine ⟨fun r hr hreopened => ?_, ih hleaves.2⟩
    have hterminal :=
      Run.terminal_of_leaves ⟨merchants, connections, run.step taken⟩ hleaves hr
    rcases hs : statusOf w' r with _ | status <;> rw [hs] at hterminal hreopened
    · cases hterminal
    · rw [Option.any_some] at hterminal hreopened
      rw [not_reopened_of_terminal hterminal] at hreopened
      cases hreopened

theorem StaysTerminal.not_reopened (h : StaysTerminal past w)
    (hr : ∃ step ∈ past, (statusOf step.1 r).any ShipmentStatus.terminal = true) :
    ¬ (statusOf w r).any ShipmentStatus.reopened = true := by
  cases past with
  | nil =>
    obtain ⟨_, hmem, -⟩ := hr
    cases hmem
  | cons => exact h.1 r hr

/-- A step after which the shipments that had ended have not been opened again wrote no such status
over theirs. -/
theorem leavesTerminal_of_stays (h : next P w e = some w')
    (hstays : StaysTerminal ((w, e) :: past) w') : LeavesTerminal P past w e := by
  rintro ⟨r, status⟩ hwrote hr
  have hset := status_step h
  rw [hwrote] at hset
  have hnot := hstays.not_reopened ⟨(w, e), List.mem_cons_self, hr⟩
  rw [statusOf, hset r] at hnot
  rcases hs : w.db.shipments.get? r with _ | s
  · simp [statusOf, hs] at hr
  · simpa [hs] using hnot

/-- In every run, no shipment that was delivered or voided is rated, created, in transit or failed
again exactly if no step writes one of these over the status of such a shipment. -/
theorem staysTerminal_iff_leavesTerminal (h : Run P past w) :
    StaysTerminal past w ↔ History.Every (LeavesTerminal P) past := by
  refine ⟨fun hstays => ?_, h.staysTerminal⟩
  obtain ⟨merchants, connections, h⟩ := h
  induction h with
  | init => trivial
  | step run taken ih => exact ⟨leavesTerminal_of_stays taken hstays, ih hstays.2⟩

/-! ## A parcel that is delivered -/

def parcelLabel : LabelInput where
  labelRef := js "label"
  shipmentRef := js "ship"
  packageRef := none
  carrier := .ups
  carrierTrackingNumber := js "1Z"
  format := .pdf
  artifactKey := js "label.pdf"
  artifactSha256 := List.replicate 64 48
  artifactSizeBytes := none
  carrierShipmentId := none

/-- A label is stored, and the carrier tells the worker that asks for news that the parcel was
delivered. -/
def delivery : List Event :=
  [.call .up (.createShipment shipment), .call .up (.saveLabel 0 parcelLabel), schedule,
    claimAt "w1" 0] ++ List.replicate 4 (.work 0 ⟨ofSeconds 1, 0, .up,
      .tracking ⟨some .delivered, none, some (js "2025-06-15T16:06:40.000Z")⟩, 0⟩)

/-- The next schedule leaves a delivered parcel alone. -/
theorem staysTerminal_iff_leavesTerminal_delivered :
    ∃ past w, Run shipPlatform past w ∧ statusOf w (js "ship") = some .delivered
      ∧ (StaysTerminal past w ↔ History.Every (LeavesTerminal shipPlatform) past) := by
  have hplay : (shipRun (delivery ++ [schedule])).map (fun v => statusOf v.2 (js "ship"))
      = some (some .delivered) := by
    decide
  obtain ⟨v, hv, hstatus⟩ := Option.map_eq_some_iff.1 hplay
  exact ⟨v.1, v.2, run_of_shipRun hv, hstatus,
    staysTerminal_iff_leavesTerminal (run_of_shipRun hv)⟩

/-- The same label is saved once more after the parcel was delivered. -/
theorem savedAgain_not_staysTerminal : ¬ ∀ P past w, Run P past w → StaysTerminal past w := by
  intro h
  have hplay : (shipRun (delivery ++ [.call .up (.saveLabel 0 parcelLabel)])).map
      (fun v => (v.1.any fun step => (statusOf step.1 (js "ship")).any ShipmentStatus.terminal,
        (statusOf v.2 (js "ship")).any ShipmentStatus.reopened)) = some (true, true) := by
    decide
  obtain ⟨v, hv, hstatus⟩ := Option.map_eq_some_iff.1 hplay
  obtain ⟨hended, hreopened⟩ := Prod.mk.inj hstatus
  exact (h _ _ _ (run_of_shipRun hv)).not_reopened (List.any_eq_true.1 hended) hreopened

end Agid.VeygritShip
