import Agid.Proofs.ShipJobs

/-!
# Outcomes of labels

A step leaves the label outcome of a shipment as it is, or marks it, records an answer or stores a
label.  A confirmed outcome stays.  An absent label is recorded on the answer to the request that
the job was claimed with, and that is the shipment's as long as no other has been named since.
-/

namespace Agid.VeygritShip

variable {P : Platform} {db db' : Database} {r k : JsString}

/-! ## Statements that leave the outcomes alone -/

def Shipment.request (s : Shipment) : LabelOutcome × Option JsString :=
  (s.labelOutcome, s.labelRequestId)

/-- Every shipment keeps its outcome and its request. -/
def KeepsOutcomes (db db' : Database) : Prop :=
  ∀ r, (db'.shipments.get? r).map Shipment.request = (db.shipments.get? r).map Shipment.request

theorem get?_updateAt_map {γ : Type} {f : Shipment → Shipment} {p : Shipment → Bool}
    {c : Shipment → γ} (hf : ∀ s, c (f s) = c s) (shipments : Record JsString Shipment)
    (k r : JsString) :
    (((shipments.updateAt k p f).getD shipments).get? r).map c = (shipments.get? r).map c := by
  rw [Record.get?_updateAt_getD]
  split_ifs
  · rw [Option.map_map]
    refine congrArg (Option.map · _) (funext fun s => ?_)
    simp only [Function.comp_apply]
    split_ifs
    · exact hf s
    · rfl
  · rfl

theorem KeepsOutcomes.of_eq (h : db'.shipments = db.shipments) : KeepsOutcomes db db' :=
  fun r => by rw [h]

theorem KeepsOutcomes.of_update {f : Shipment → Shipment} {p : Shipment → Bool}
    (h : db'.shipments = (db.shipments.updateAt k p f).getD db.shipments)
    (hf : ∀ s, (f s).request = s.request) : KeepsOutcomes db db' :=
  fun r => by rw [h, get?_updateAt_map hf]

theorem query_keepsOutcomes {α : Type} {link : Link}
    {statement : Database → Except JsString (α × Database)}
    (h : ∀ a db', statement db = .ok (a, db') → KeepsOutcomes db db') :
    KeepsOutcomes db (query link db statement).2 := by
  rcases query_cases link db statement with h' | ⟨a, -, h'⟩
  · rw [h']
    exact .of_eq rfl
  · exact h a _ h'

section Keeps

variable {a : Unit}

theorem upsertCarrierConnection_shipments {c : Carrier} {t : Option JsString}
    {st : Option ConnectionStatus} {now : Instant}
    (h : upsertCarrierConnection P k c t st now db = .ok (a, db')) :
    db'.shipments = db.shipments := by
  obtain ⟨_, -, h⟩ := bind_eq_ok.1 h
  obtain ⟨_, -, h⟩ := bind_eq_ok.1 h
  cases h
  rfl

theorem requestVoid_shipments {now : Instant} {l m : JsString}
    (h : PostgresLabelMetadataStore.requestVoid P now l m db = .ok (a, db')) :
    db'.shipments = db.shipments := by
  obtain ⟨_, -, h⟩ := bind_eq_ok.1 h
  split at h
  · cases h
  obtain ⟨_, -, h⟩ := bind_eq_ok.1 h
  split_ifs at h
  cases h
  rfl

theorem finishVoid_shipments {now : Instant} {l m : JsString} {f : Option JsString}
    (h : PostgresLabelMetadataStore.finishVoid P now l m f db = .ok (a, db')) :
    db'.shipments = db.shipments := by
  obtain ⟨_, -, h⟩ := bind_eq_ok.1 h
  split at h
  · cases h
  · cases h
    rfl

theorem scheduleDueJobs_shipments {fresh : FreshRef} {now : Instant}
    (h : scheduleDueJobs fresh now db = .ok (a, db')) : db'.shipments = db.shipments := by
  cases h
  rfl

theorem replayDeadLetter_shipments {t : JsString}
    (h : replayDeadLetter P k t db = .ok (a, db')) : db'.shipments = db.shipments := by
  obtain ⟨_, _, _, -, -, -, -, rfl⟩ := replayDeadLetter_ok h
  rfl

theorem recordUpsTokenRefresh_shipments {t : JsString} {now : Instant}
    (h : recordUpsTokenRefresh P k t now db = .ok (a, db')) : db'.shipments = db.shipments := by
  obtain ⟨_, -, h⟩ := bind_eq_ok.1 h
  obtain ⟨_, -, h⟩ := bind_eq_ok.1 h
  split at h
  · cases h
    rfl
  · cases h

theorem completeJob_shipments {now : Instant}
    (h : completeJob P k now db = .ok (a, db')) : db'.shipments = db.shipments := by
  obtain ⟨_, -, h⟩ := bind_eq_ok.1 h
  split at h
  · cases h
    rfl
  · cases h

theorem claimJobs_shipments {limit lease : ℚ} {now : Instant} {jobs : List ClaimedShipJob}
    (h : claimJobs P k limit lease now db = .ok (jobs, db')) : db'.shipments = db.shipments := by
  obtain ⟨_, -, rfl, -⟩ := claimJobs_ok h
  rfl

/-- A job that fails leaves all of its shipment but the count of errors. -/
theorem failJob_shipments {f : Failure} {now : Instant} {st : JobStatus} {γ : Type}
    {c : Shipment → γ} (hc : ∀ s n, c { s with reconciliationErrorCount := n } = c s)
    (h : failJob P k f now db = .ok (st, db')) :
    ∀ r, (db'.shipments.get? r).map c = (db.shipments.get? r).map c := by
  intro r
  obtain ⟨_, -, h⟩ := bind_eq_ok.1 h
  obtain ⟨_, -, h⟩ := bind_eq_ok.1 h
  obtain ⟨_, -, h⟩ := bind_eq_ok.1 h
  split at h
  · cases h
  rename_i j _
  by_cases hrun : isRunning j = true
  · rw [if_pos hrun] at h
    cases h
    rcases j.shipmentRef with _ | s
    · rfl
    · exact get?_updateAt_map (fun s => hc s _) db.shipments s r
  · rw [if_neg hrun] at h
    cases h

theorem selectRateQuote_keepsOutcomes (h : selectRateQuote P k db = .ok (a, db')) :
    KeepsOutcomes db db' := by
  obtain ⟨k', -, h⟩ := bind_eq_ok.1 h
  split at h
  · rename_i shipments hu
    cases h
    exact .of_update (congrArg (Option.getD · db.shipments) hu).symm fun _ => rfl
  · cases h

theorem recordTrackingSync_keepsOutcomes {st : Option CarrierStatus} {n m : Option JsString}
    {now : Instant} (h : recordTrackingSync P k st n m now db = .ok (a, db')) :
    KeepsOutcomes db db' := by
  obtain ⟨_, -, h⟩ := bind_eq_ok.1 h
  obtain ⟨_, -, h⟩ := bind_eq_ok.1 h
  obtain ⟨_, -, h⟩ := bind_eq_ok.1 h
  cases h
  exact .of_update rfl fun _ => rfl

theorem recordCarrierReconciliation_keepsOutcomes {st : Option CarrierStatus}
    {n : Option JsString} {now : Instant}
    (h : recordCarrierReconciliation P k st n now db = .ok (a, db')) : KeepsOutcomes db db' := by
  obtain ⟨_, -, h⟩ := bind_eq_ok.1 h
  obtain ⟨_, -, h⟩ := bind_eq_ok.1 h
  cases h
  exact .of_update rfl fun _ => rfl

end Keeps

/-! ## Statements that change an outcome -/

theorem createShipment_ok {input : ShipmentInput} {a : Unit}
    (h : createShipment P input db = .ok (a, db')) : ∃ r, Normal P r ∧ db.shipments.get? r = none
      ∧ db' = { db with shipments := db.shipments.set r (newShipment input) } := by
  unfold createShipment at h
  split_ifs at h
  obtain ⟨r, hr, h⟩ := bind_eq_ok.1 h
  split at h
  · cases h
  · rename_i hnone
    cases h
    exact ⟨r, normal_of_ref hr, hnone, rfl⟩

/-- The insert puts in a new active label of the shipment, or finds the label stored. -/
theorem insertLabel_ok {now : Instant} {input : LabelInput} {labels : Record JsString Label}
    (h : insertLabel P now input db = .ok labels) :
    ∃ r, ref P input.shipmentRef (js "shipmentRef") 100 = .ok r
      ∧ (labels = db.labels ∨ ∃ labelRef l, labels = db.labels.set labelRef l
        ∧ l.shipmentRef = r ∧ l.status = .active) := by
  obtain ⟨labelRef, -, h⟩ := bind_eq_ok.1 h
  obtain ⟨r, hr, h⟩ := bind_eq_ok.1 h
  obtain ⟨tracking, -, h⟩ := bind_eq_ok.1 h
  obtain ⟨key, -, h⟩ := bind_eq_ok.1 h
  obtain ⟨sha, -, h⟩ := bind_eq_ok.1 h
  refine ⟨r, hr, ?_⟩
  split at h
  · cases h
  split_ifs at h
  obtain ⟨_, -, h⟩ := bind_eq_ok.1 h
  split at h
  · split_ifs at h
    cases h
    exact .inl rfl
  · split_ifs at h
    cases h
    exact .inr ⟨labelRef, _, rfl, rfl, rfl⟩

theorem saveLabel_ok {now : Instant} {input : LabelInput} {a : Unit}
    (h : saveLabel P now input db = .ok (a, db')) :
    insertLabel P now input db = .ok db'.labels
      ∧ db'.shipments = (db.shipments.updateAt input.shipmentRef (fun _ => true)
        (confirm input.carrier (trimmed input.carrierShipmentId) now)).getD db.shipments := by
  obtain ⟨labels, hl, h⟩ := bind_eq_ok.1 h
  cases h
  exact ⟨hl, rfl⟩

theorem saveManagedLabel_ok {now : Instant} {input : ManagedLabelInput} {a : Unit}
    (h : PostgresLabelMetadataStore.saveLabel P now input db = .ok (a, db')) :
    ∃ r s labelRef l, safeRef P input.shipmentRef (js "shipmentRef") 100 = .ok r
      ∧ db.shipments.get? r = some s
      ∧ db'.shipments = db.shipments.set r (confirm input.carrier none now s)
      ∧ db'.labels = db.labels.set labelRef l ∧ l.shipmentRef = r ∧ l.status = .active := by
  obtain ⟨labelRef, -, h⟩ := bind_eq_ok.1 h
  obtain ⟨r, hr, h⟩ := bind_eq_ok.1 h
  obtain ⟨_, -, h⟩ := bind_eq_ok.1 h
  obtain ⟨_, -, h⟩ := bind_eq_ok.1 h
  obtain ⟨_, -, h⟩ := bind_eq_ok.1 h
  obtain ⟨_, -, h⟩ := bind_eq_ok.1 h
  split at h
  · cases h
  rename_i s hs
  split_ifs at h
  obtain ⟨_, -, h⟩ := bind_eq_ok.1 h
  split at h
  · cases h
  split_ifs at h
  cases h
  exact ⟨r, s, labelRef, _, hr, hs, rfl, rfl, rfl, rfl⟩

theorem markLabelReconciling_ok {a : Unit} (h : markLabelReconciling P k db = .ok (a, db')) :
    ∃ r, db'.shipments = (db.shipments.updateAt r
      (fun s => s.labelOutcome = .unknown || s.labelOutcome = .reconciling)
      ({ · with labelOutcome := .reconciling })).getD db.shipments := by
  obtain ⟨r, -, h⟩ := bind_eq_ok.1 h
  cases h
  exact ⟨r, rfl⟩

theorem recordLabelNotFound_of_normal (hr : Normal P r) : recordLabelNotFound P r db
    = .ok ((), { db with shipments := (db.shipments.updateAt r unconfirmed
        ({ · with
          labelOutcome := .notFound
          status := .failed
          labelReconciliationDeadlineAt := none })).getD db.shipments }) := by
  simp only [recordLabelNotFound, bind, Except.bind, hr.ref]
  rfl

theorem recordLabelNotFound_none (db : Database) :
    ∃ message, recordLabelNotFound P [] db = .error message := by
  rcases h : recordLabelNotFound P [] db with message | ⟨a, db'⟩
  · exact ⟨message, rfl⟩
  · obtain ⟨r, hr, -⟩ := bind_eq_ok.1 h
    obtain ⟨rfl, hne, -⟩ := ref_eq_ok.1 hr
    rw [P.nfkc.ascii [] nofun] at hne
    exact absurd rfl hne

theorem recordConfirmed_of_normal {label : LabelInput} (hr : Normal P label.shipmentRef) :
    recordConfirmed P label db
      = .ok ((), { db with shipments := (db.shipments.updateAt label.shipmentRef (fun _ => true)
        ({ · with
          labelOutcome := .confirmed
          labelReconciliationDeadlineAt := none
          reconciliationErrorCount := 0 })).getD db.shipments }) := by
  simp only [recordConfirmed, bind, Except.bind, hr.ref]
  rfl

/-! ## Steps -/

variable {w w' : World} {e : Event}

/-- What a step does to the outcome of the shipment `r`: the row before and after it. -/
inductive OutcomeStep (P : Platform) (w : World) (e : Event) (r : JsString) (db' : Database) :
    Option Shipment → Option Shipment → Prop
  | kept {o o' : Option Shipment} (unmarked : (markedRequest P w e).filter (·.1 = r) = none)
      (same : o'.map Shipment.request = o.map Shipment.request) : OutcomeStep P w e r db' o o'
  | created {s : Shipment} (unmarked : markedRequest P w e = none) (normal : Normal P r)
      (new : s.request = (.notRequested, none)) : OutcomeStep P w e r db' none (some s)
  | marked {s s' : Shipment} {id : JsString} (here : markedRequest P w e = some (r, id))
      (unconfirmed : s.labelOutcome ≠ .confirmed) (new : s'.request = (.unknown, some id)) :
      OutcomeStep P w e r db' (some s) (some s')
  | reconciling {s s' : Shipment} (unmarked : markedRequest P w e = none)
      (unconfirmed : s.labelOutcome ≠ .confirmed)
      (new : s'.request = (.reconciling, s.labelRequestId)) :
      OutcomeStep P w e r db' (some s) (some s')
  | absent {s s' : Shipment} {i : ℕ} {env : Env} {hand : Hand} (event : e = .work i env)
      (here : w.hands[i]? = some hand) (phase : hand.phase = .absent)
      (link : env.link.executes = true) (job : hand.job.shipmentRef = some r)
      (unconfirmed : s.labelOutcome ≠ .confirmed) (new : s'.request = (.notFound, s.labelRequestId)) :
      OutcomeStep P w e r db' (some s) (some s')
  | stored {s s' : Shipment} (unmarked : markedRequest P w e = none)
      (new : s'.request = (.confirmed, s.labelRequestId))
      (label : s.labelOutcome ≠ .confirmed → HasActiveLabel db' r
        ∨ ∃ saved, savedLabel w e = some saved ∧ saved.2.shipmentRef = r
          ∧ insertLabel P saved.1 saved.2 w.db = .ok w.db.labels ∧ db'.labels = w.db.labels) :
      OutcomeStep P w e r db' (some s) (some s')

/-- What the rows and the hands of a run keep: shipments are filed under normal references, jobs and
hands name shipments there are, and a label that is being saved is of the hand's shipment. -/
structure Sound (P : Platform) (w : World) : Prop where
  shipments : ∀ r s, w.db.shipments.get? r = some s → Normal P r
  jobs : ∀ k j r, w.db.jobs.get? k = some j → j.shipmentRef = some r →
    (w.db.shipments.get? r).isSome
  hands : ∀ hand ∈ w.hands, ∀ r, hand.job.shipmentRef = some r → (w.db.shipments.get? r).isSome
  saving : ∀ hand ∈ w.hands, ∀ label, hand.phase = .saving label ∨ hand.phase = .confirming label →
    some label.shipmentRef = hand.job.shipmentRef
  confirming : ∀ hand ∈ w.hands, ∀ label, hand.phase = .confirming label →
    ∀ s, w.db.shipments.get? label.shipmentRef = some s → s.labelOutcome = .confirmed

theorem Sound.normal (h : Sound P w) {r : JsString} (hr : (w.db.shipments.get? r).isSome) :
    Normal P r := by
  obtain ⟨s, hs⟩ := Option.isSome_iff_exists.1 hr
  exact h.shipments r s hs

/-- A label stored under a new reference is active. -/
theorem hasActiveLabel_set {labelRef : JsString} {l : Label}
    (h : db'.labels = db.labels.set labelRef l) (hr : l.shipmentRef = r)
    (hactive : l.status = .active) : HasActiveLabel db' r :=
  ⟨l, Record.mem_values.2 ⟨labelRef, by rw [h, Record.get?_set_self]⟩, hr, hactive⟩

theorem saved_outcome_step (hsound : Sound P w) {now : Instant} {input : LabelInput} {a : Unit}
    (hun : markedRequest P w e = none) (hsaved : savedLabel w e = some (now, input))
    (h : saveLabel P now input w.db = .ok (a, db')) :
    OutcomeStep P w e r db' (w.db.shipments.get? r) (db'.shipments.get? r) := by
  obtain ⟨hlabels, hshipments⟩ := saveLabel_ok h
  rw [hshipments, Record.get?_updateAt_getD]
  by_cases hr : input.shipmentRef = r
  · rw [if_pos hr]
    subst hr
    rcases hs : w.db.shipments.get? input.shipmentRef with _ | s
    · exact .kept (by simp [hun]) rfl
    · refine .stored hun rfl fun _ => ?_
      obtain ⟨r', hr', hcases⟩ := insertLabel_ok hlabels
      rw [(hsound.shipments _ _ hs).ref] at hr'
      rcases hcases with hsame | ⟨labelRef, l, hset, hl, hactive⟩
      · exact .inr ⟨_, hsaved, rfl, hsame ▸ hlabels, hsame⟩
      · exact .inl (hasActiveLabel_set hset (hl.trans (Except.ok.inj hr').symm) hactive)
  · rw [if_neg hr]
    exact .kept (by simp [hun]) rfl

theorem markedRequest_of_ok {link : Link} {fresh : FreshRef} {now : Instant} {input : UnknownInput}
    {id : JsString} {v : JsString × Database} (hl : link.executes = true)
    (hr : ref P input.shipmentRef (js "shipmentRef") 100 = .ok r)
    (hid : ref P input.carrierRequestId (js "carrierRequestId") 100 = .ok id)
    (h : markLabelOutcomeUnknown P fresh now input w.db = .ok v) :
    markedRequest P w (.call link (.markLabelOutcomeUnknown fresh now input)) = some (r, id) := by
  simp [markedRequest, hr, hid, hl, h, Except.toBool]

theorem markedRequest_of_kept {link : Link} {fresh : FreshRef} {now : Instant}
    {input : UnknownInput} (h : ¬ (link.executes = true
      ∧ ∃ v, markLabelOutcomeUnknown P fresh now input w.db = .ok v)) :
    markedRequest P w (.call link (.markLabelOutcomeUnknown fresh now input)) = none := by
  simp only [markedRequest]
  split
  · rw [if_neg (by simpa [toBool_eq_true] using h)]
  · rfl

theorem call_outcome_step (hsound : Sound P w) {link : Link} {command : Command}
    (h : next P w (.call link command) = some w') :
    OutcomeStep P w (.call link command) r w'.db (w.db.shipments.get? r)
      (w'.db.shipments.get? r) := by
  simp only [next, Option.some.injEq] at h
  subst h
  have kept (hun : markedRequest P w (.call link command) = none)
      (hq : KeepsOutcomes w.db (query link w.db (command.run P)).2) :
      OutcomeStep P w (.call link command) r (query link w.db (command.run P)).2
        (w.db.shipments.get? r) ((query link w.db (command.run P)).2.shipments.get? r) :=
    .kept (by simp [hun]) (hq r)
  cases command with
  | upsertCarrierConnection =>
    exact kept rfl (query_keepsOutcomes fun _ _ h => .of_eq (upsertCarrierConnection_shipments h))
  | selectRateQuote => exact kept rfl (query_keepsOutcomes fun _ _ => selectRateQuote_keepsOutcomes)
  | requestVoid => exact kept rfl (query_keepsOutcomes fun _ _ h => .of_eq (requestVoid_shipments h))
  | finishVoid => exact kept rfl (query_keepsOutcomes fun _ _ h => .of_eq (finishVoid_shipments h))
  | replayDeadLetter =>
    exact kept rfl (query_keepsOutcomes fun _ _ h => .of_eq (replayDeadLetter_shipments h))
  | scheduleDueJobs =>
    exact kept rfl (query_keepsOutcomes fun _ _ h => .of_eq (scheduleDueJobs_shipments h))
  | createShipment input =>
    rcases query_cases link w.db (Command.run P (.createShipment input)) with hq | ⟨_, -, hq⟩
    · exact kept rfl (.of_eq (by rw [hq]))
    · obtain ⟨r', hnormal, hnone, hdb⟩ := createShipment_ok hq
      simp only [hdb]
      by_cases hr : r' = r
      · subst hr
        rw [hnone, Record.get?_set_self]
        exact .created rfl hnormal rfl
      · rw [Record.get?_set_of_ne _ _ hr]
        exact .kept rfl rfl
  | saveLabel now input =>
    rcases query_cases link w.db (Command.run P (.saveLabel now input)) with hq | ⟨_, hl, hq⟩
    · exact kept rfl (.of_eq (by rw [hq]))
    · exact saved_outcome_step hsound rfl (by simp [savedLabel, hl]) hq
  | saveManagedLabel now input =>
    rcases query_cases link w.db (Command.run P (.saveManagedLabel now input)) with hq | ⟨_, -, hq⟩
    · exact kept rfl (.of_eq (by rw [hq]))
    · obtain ⟨r', s, labelRef, l, -, hs, hshipments, hlabels, hl, hactive⟩ := saveManagedLabel_ok hq
      simp only [hshipments]
      by_cases hr : r' = r
      · subst hr
        rw [hs, Record.get?_set_self]
        exact .stored rfl rfl fun _ => .inl (hasActiveLabel_set hlabels hl hactive)
      · rw [Record.get?_set_of_ne _ _ hr]
        exact .kept rfl rfl
  | markLabelOutcomeUnknown fresh now input =>
    by_cases hok : link.executes = true ∧ ∃ v, markLabelOutcomeUnknown P fresh now input w.db = .ok v
    · obtain ⟨hl, ⟨id, db'⟩, hv⟩ := hok
      have hrun : Command.run P (.markLabelOutcomeUnknown fresh now input) w.db = .ok ((), db') := by
        simp [Command.run, hv, Except.map]
      obtain ⟨r', id, deadline, s, job, hr', hid, -, hs, hopen, -, -, hdb⟩ :=
        markLabelOutcomeUnknown_ok hv
      have hmarked := markedRequest_of_ok hl hr' hid hv
      simp only [query_of_ok hrun hl, hdb]
      by_cases hr : r' = r
      · subst hr
        rw [hs, Record.get?_set_self]
        exact .marked hmarked hopen rfl
      · rw [Record.get?_set_of_ne _ _ hr]
        exact .kept (by simp [hmarked, hr]) rfl
    · refine kept (markedRequest_of_kept hok) ?_
      rcases query_cases link w.db (Command.run P (.markLabelOutcomeUnknown fresh now input)) with
        hq | ⟨_, hl, hq⟩
      · exact .of_eq (by rw [hq])
      · obtain ⟨v, hv, -⟩ := map_eq_ok hq
        exact absurd ⟨hl, v, hv⟩ hok

theorem store_outcome_step {α : Type} {env : Env} {i : ℕ} {db' : Database}
    {statement : Database → Except JsString (α × Database)}
    (hdb : (query env.link w.db statement).2 = db')
    (h : ∀ a db'', env.link.executes = true → statement w.db = .ok (a, db'') →
      OutcomeStep P w (.work i env) r db'' (w.db.shipments.get? r) (db''.shipments.get? r)) :
    OutcomeStep P w (.work i env) r db' (w.db.shipments.get? r) (db'.shipments.get? r) := by
  subst hdb
  rcases query_cases env.link w.db statement with hq | ⟨a, hl, hq⟩
  · rw [hq]
    exact .kept rfl rfl
  · exact h a _ hl hq

theorem work_outcome_step (hsound : Sound P w) {i : ℕ} {env : Env}
    (h : next P w (.work i env) = some w') :
    OutcomeStep P w (.work i env) r w'.db (w.db.shipments.get? r) (w'.db.shipments.get? r) := by
  obtain ⟨hand, phase, hi, ha, -⟩ := next_work h
  have hmem := List.mem_of_getElem? hi
  have kept (hq : w.db = w'.db) :
      OutcomeStep P w (.work i env) r w'.db (w.db.shipments.get? r) (w'.db.shipments.get? r) := by
    rw [← hq]
    exact .kept rfl rfl
  rcases hphase : hand.phase with _ | _ | label | label | _ | result | result | t | _ | error | st <;>
    simp only [advance, hphase] at ha
  · split at ha
    · exact kept (congrArg Prod.snd (Option.some.inj ha))
    · split_ifs at ha
      · refine store_outcome_step (congrArg Prod.snd (Option.some.inj ha)) fun a db'' hl hok => ?_
        obtain ⟨r', hshipments⟩ := markLabelReconciling_ok hok
        rw [hshipments, Record.get?_updateAt_getD]
        by_cases hr : r' = r
        · rw [if_pos hr]
          rcases w.db.shipments.get? r with _ | s
          · exact .kept rfl rfl
          · rw [Option.map_some]
            split_ifs with hs
            · refine .reconciling rfl (fun hc => ?_) rfl
              simp [hc] at hs
            · exact .kept rfl rfl
        · rw [if_neg hr]
          exact .kept rfl rfl
      · exact kept (congrArg Prod.snd (Option.some.inj ha))
  · obtain ⟨_, -, ha⟩ := Option.map_eq_some_iff.1 ha
    exact kept (congrArg Prod.snd ha)
  · refine store_outcome_step (congrArg Prod.snd (Option.some.inj ha)) fun a db'' hl hok => ?_
    exact saved_outcome_step hsound rfl (by simp [savedLabel, hi, hphase, hl]) hok
  · refine store_outcome_step (congrArg Prod.snd (Option.some.inj ha)) fun a db'' hl hok => ?_
    have hjob := hsound.saving hand hmem label (.inr hphase)
    rw [recordConfirmed_of_normal
      (hsound.normal (hsound.hands hand hmem label.shipmentRef hjob.symm))] at hok
    cases hok
    simp only [Record.get?_updateAt_getD]
    by_cases hr : label.shipmentRef = r
    · rw [if_pos hr]
      subst hr
      rcases hs : w.db.shipments.get? label.shipmentRef with _ | s
      · exact .kept rfl rfl
      · exact .stored rfl rfl fun hopen => absurd (hsound.confirming hand hmem label hphase s hs) hopen
    · rw [if_neg hr]
      exact .kept rfl rfl
  · refine store_outcome_step (congrArg Prod.snd (Option.some.inj ha)) fun a db'' hl hok => ?_
    rcases hjob : hand.job.shipmentRef with _ | r'
    · rw [hjob, Option.getD_none] at hok
      obtain ⟨message, herror⟩ := recordLabelNotFound_none (P := P) w.db
      rw [herror] at hok
      cases hok
    · rw [hjob, Option.getD_some,
        recordLabelNotFound_of_normal (hsound.normal (hsound.hands hand hmem r' hjob))] at hok
      cases hok
      simp only [Record.get?_updateAt_getD]
      by_cases hr : r' = r
      · rw [if_pos hr]
        subst hr
        rcases w.db.shipments.get? r' with _ | s
        · exact .kept rfl rfl
        · rw [Option.map_some]
          split_ifs with hs
          · exact .absent rfl hi hphase hl hjob (by simpa [unconfirmed] using hs) rfl
          · exact .kept rfl rfl
      · rw [if_neg hr]
        exact .kept rfl rfl
  · refine store_outcome_step (congrArg Prod.snd (Option.some.inj ha)) fun a db'' hl hok => ?_
    exact .kept rfl (recordTrackingSync_keepsOutcomes hok r)
  · refine store_outcome_step (congrArg Prod.snd (Option.some.inj ha)) fun a db'' hl hok => ?_
    exact .kept rfl (recordCarrierReconciliation_keepsOutcomes hok r)
  · refine store_outcome_step (congrArg Prod.snd (Option.some.inj ha)) fun a db'' hl hok => ?_
    exact .kept rfl (KeepsOutcomes.of_eq (recordUpsTokenRefresh_shipments hok) r)
  · refine store_outcome_step (congrArg Prod.snd (Option.some.inj ha)) fun a db'' hl hok => ?_
    exact .kept rfl (KeepsOutcomes.of_eq (completeJob_shipments hok) r)
  · refine store_outcome_step (congrArg Prod.snd (Option.some.inj ha)) fun a db'' hl hok => ?_
    exact .kept rfl (failJob_shipments (fun _ _ => rfl) hok r)
  · cases ha

theorem claim_outcome_step {link : Link} {workerRef : JsString} {limit lease : ℚ} {now : Instant}
    (h : next P w (.claim link workerRef limit lease now) = some w') :
    OutcomeStep P w (.claim link workerRef limit lease now) r w'.db (w.db.shipments.get? r)
      (w'.db.shipments.get? r) := by
  refine .kept rfl ?_
  rcases next_claim h with ⟨-, hdb⟩ | ⟨jobs, hok, -⟩
  · rw [hdb]
    exact query_keepsOutcomes (fun _ _ h => .of_eq (claimJobs_shipments h)) r
  · exact KeepsOutcomes.of_eq (claimJobs_shipments hok) r

theorem outcome_step (hsound : Sound P w) (h : next P w e = some w') :
    OutcomeStep P w e r w'.db (w.db.shipments.get? r) (w'.db.shipments.get? r) := by
  cases e with
  | call link command => exact call_outcome_step hsound h
  | claim link workerRef limit lease now => exact claim_outcome_step h
  | work i env => exact work_outcome_step hsound h

/-! ## What every run keeps -/

theorem OutcomeStep.isSome {o o' : Option Shipment} (h : OutcomeStep P w e r db' o o')
    (ho : o.isSome) : o'.isSome := by
  cases h with
  | kept _ same => simpa using (congrArg Option.isSome same).trans (by simpa using ho)
  | created => rfl
  | marked => rfl
  | reconciling => rfl
  | absent => rfl
  | stored => rfl

theorem OutcomeStep.confirmed {s s' : Shipment} (h : OutcomeStep P w e r db' (some s) (some s'))
    (hs : s.labelOutcome = .confirmed) : s'.labelOutcome = .confirmed := by
  cases h with
  | kept _ same => exact (congrArg Prod.fst (Option.some.inj same)).trans hs
  | marked _ unconfirmed => exact absurd hs unconfirmed
  | reconciling _ unconfirmed => exact absurd hs unconfirmed
  | absent _ _ _ _ _ unconfirmed => exact absurd hs unconfirmed
  | stored _ new => exact congrArg Prod.fst new

theorem thenPhase_cases {α : Type} (result : Except JsString α) (phase : Phase) :
    (∃ a, result = .ok a ∧ thenPhase result phase = phase)
      ∨ ∃ error, thenPhase result phase = .failing error := by
  cases result with
  | ok a => exact .inl ⟨a, rfl, rfl⟩
  | error message => exact .inr ⟨_, rfl⟩

theorem answered_saving {env : Env} {job : ClaimedShipJob} {label : LabelInput}
    (h : answered P env job = some (.saving label)) : some label.shipmentRef = job.shipmentRef := by
  unfold answered at h
  split at h <;> simp only [Option.some.injEq, reduceCtorEq] at h
  split_ifs at h with hl
  cases h
  exact hl

theorem answered_confirming {env : Env} {job : ClaimedShipJob} {label : LabelInput} :
    answered P env job ≠ some (.confirming label) := by
  intro h
  unfold answered at h
  split at h <;> simp only [Option.some.injEq, reduceCtorEq] at h
  split_ifs at h

/-- Neither of the phases of a label that was found. -/
def Phase.IsOther (phase : Phase) : Prop :=
  (∀ label, phase ≠ .saving label) ∧ ∀ label, phase ≠ .confirming label

theorem isOther_thenPhase {α : Type} (result : Except JsString α) {phase : Phase}
    (h : phase.IsOther) : (thenPhase result phase).IsOther := by
  rcases thenPhase_cases result phase with ⟨_, -, hthen⟩ | ⟨error, hthen⟩ <;> rw [hthen]
  · exact h
  · exact ⟨nofun, nofun⟩

/-- The next phase is what an answer makes of it, or that of a label that has been saved, or
another. -/
theorem advance_cases {env : Env} {hand : Hand} {phase : Phase}
    (h : advance P env db hand = some (phase, db')) :
    answered P env hand.job = some phase
      ∨ (∃ label, hand.phase = .saving label ∧ phase = .confirming label
        ∧ ∃ a, saveLabel P env.now label db = .ok (a, db'))
      ∨ phase.IsOther := by
  rcases hphase : hand.phase with _ | _ | l | l | _ | result | result | t | _ | error | st <;>
    simp only [advance, hphase, Option.some.injEq, Prod.mk.injEq] at h
  · refine .inr (.inr ?_)
    split at h
    · cases h
      simp [Phase.IsOther]
    · split_ifs at h <;> simp only [Option.some.injEq, Prod.mk.injEq] at h
      · exact h.1 ▸ isOther_thenPhase _ (by simp [Phase.IsOther])
      · exact h.1 ▸ (by simp [Phase.IsOther])
  · obtain ⟨phase, hanswered, hpair⟩ := Option.map_eq_some_iff.1 h
    cases hpair
    exact .inl hanswered
  · refine .inr ?_
    obtain ⟨hthen, rfl⟩ := h
    rcases thenPhase_cases (query env.link db (saveLabel P env.now l)).1 (.confirming l) with
      ⟨a, hok, hthen'⟩ | ⟨error, hthen'⟩ <;> rw [hthen'] at hthen
    · exact .inl ⟨l, rfl, hthen.symm, a, query_answered hok⟩
    · exact .inr (hthen ▸ (by simp [Phase.IsOther]))
  · exact .inr (.inr (h.1 ▸ isOther_thenPhase _ (by simp [Phase.IsOther])))
  · exact .inr (.inr (h.1 ▸ isOther_thenPhase _ (by simp [Phase.IsOther])))
  · exact .inr (.inr (h.1 ▸ isOther_thenPhase _ (by simp [Phase.IsOther])))
  · exact .inr (.inr (h.1 ▸ isOther_thenPhase _ (by simp [Phase.IsOther])))
  · exact .inr (.inr (h.1 ▸ isOther_thenPhase _ (by simp [Phase.IsOther])))
  · exact .inr (.inr (h.1 ▸ isOther_thenPhase _ (by simp [Phase.IsOther])))
  · exact .inr (.inr (h.1 ▸ (by simp [Phase.IsOther])))
  · cases h

theorem saveLabel_confirms {now : Instant} {input : LabelInput} {a : Unit} {s : Shipment}
    (h : saveLabel P now input db = .ok (a, db'))
    (hs : db'.shipments.get? input.shipmentRef = some s) : s.labelOutcome = .confirmed := by
  rw [(saveLabel_ok h).2, Record.get?_updateAt_getD, if_pos rfl] at hs
  obtain ⟨s₀, -, rfl⟩ := Option.map_eq_some_iff.1 hs
  rfl

theorem Sound.step (hsound : Sound P w) (hn : NormalRefs P w) (h : next P w e = some w') :
    Sound P w' := by
  have keep {r : JsString} (hr : (w.db.shipments.get? r).isSome) :
      (w'.db.shipments.get? r).isSome := (outcome_step hsound h).isSome hr
  have hjobs : ∀ k j r, w'.db.jobs.get? k = some j → j.shipmentRef = some r →
      (w'.db.shipments.get? r).isSome := by
    intro k j r hj hr
    have hstep := job_step (k := k) hn.hands h
    rw [hj] at hstep
    generalize hold : w.db.jobs.get? k = old at hstep
    cases hstep with
    | inserted _ _ _ _ _ shipment => exact keep (shipment r hr)
    | kept => exact keep (hsound.jobs k j r hold hr)
    | missed => exact keep (hsound.jobs k j r hold hr)
    | claimed => exact keep (hsound.jobs k _ r hold hr)
    | completed => exact keep (hsound.jobs k _ r hold hr)
    | failed => exact keep (hsound.jobs k _ r hold hr)
    | replayed => exact keep (hsound.jobs k _ r hold hr)
  have hconfirming : ∀ hand ∈ w.hands, ∀ label, hand.phase = .confirming label →
      ∀ s, w'.db.shipments.get? label.shipmentRef = some s → s.labelOutcome = .confirmed := by
    intro hand hmem label hphase s hs
    have hjob := hsound.saving hand hmem label (.inr hphase)
    obtain ⟨s₀, hs₀⟩ := Option.isSome_iff_exists.1 (hsound.hands hand hmem _ hjob.symm)
    have hstep := outcome_step (r := label.shipmentRef) hsound h
    rw [hs₀, hs] at hstep
    exact hstep.confirmed (hsound.confirming hand hmem label hphase s₀ hs₀)
  refine ⟨fun r s hs => ?_, hjobs, fun hand hhand => ?_, fun hand hhand => ?_, fun hand hhand => ?_⟩
  · have hstep := outcome_step (r := r) hsound h
    rw [hs] at hstep
    generalize hold : w.db.shipments.get? r = old at hstep
    cases hstep with
    | created _ normal => exact normal
    | kept _ same =>
      rcases old with _ | s₀
      · cases same
      · exact hsound.shipments r s₀ hold
    | marked => exact hsound.shipments r _ hold
    | reconciling => exact hsound.shipments r _ hold
    | absent => exact hsound.shipments r _ hold
    | stored => exact hsound.shipments r _ hold
  · rcases hands_step h hhand with hold | ⟨-, j, hj, hmap⟩ | ⟨old, hold, env, phase, rfl, -⟩
    · exact fun r hr => keep (hsound.hands hand hold r hr)
    · exact fun r hr => hjobs _ j r hj ((congrArg ClaimedShipJob.shipmentRef hmap).symm.trans hr)
    · exact fun r hr => keep (hsound.hands old hold r hr)
  · rcases hands_step h hhand with hold | ⟨hphase, -⟩ | ⟨old, hold, env, phase, rfl, ha⟩
    · exact hsound.saving hand hold
    · intro label hlabel
      simp [hphase] at hlabel
    · intro label hlabel
      rcases advance_cases ha with hanswered | ⟨l, hsaving, rfl, -⟩ | hother
      · rcases hlabel with rfl | rfl
        · exact answered_saving hanswered
        · exact absurd hanswered answered_confirming
      · rcases hlabel with hlabel | hlabel <;> cases hlabel
        exact hsound.saving old hold label (.inl hsaving)
      · rcases hlabel with hlabel | hlabel
        · exact absurd hlabel (hother.1 label)
        · exact absurd hlabel (hother.2 label)
  · rcases hands_step h hhand with hold | ⟨hphase, -⟩ | ⟨old, hold, env, phase, rfl, ha⟩
    · exact hconfirming hand hold
    · intro label hlabel
      simp [hphase] at hlabel
    · rintro label rfl s hs
      rcases advance_cases ha with hanswered | ⟨l, -, hl, a, hok⟩ | hother
      · exact absurd hanswered answered_confirming
      · cases hl
        exact saveLabel_confirms hok hs
      · exact absurd rfl (hother.2 label)

theorem Run.sound {past : Past} (h : Run P past w) : Sound P w := by
  obtain ⟨merchants, connections, h⟩ := h
  induction h with
  | init =>
    refine ⟨fun r s hs => ?_, fun k j r hj => ?_, ?_, ?_, ?_⟩
    · simp [Database.start] at hs
    · simp [Database.start] at hj
    all_goals exact fun _ hhand => absurd hhand List.not_mem_nil
  | step run taken ih => exact ih.step (Run.normalRefs ⟨merchants, connections, run⟩) taken

/-! ## Requests -/

/-- A shipment carries the last request named for it. -/
theorem Run.lastRequest_eq {past : Past} (h : Run P past w) :
    ∀ r, lastRequest P r past = (w.db.shipments.get? r).bind Shipment.labelRequestId := by
  obtain ⟨merchants, connections, h⟩ := h
  induction h with
  | init => exact fun _ => rfl
  | @step past w w' e run taken ih =>
    intro r
    have hr := ih r
    have hstep := outcome_step (r := r) (Run.sound ⟨merchants, connections, run⟩) taken
    unfold lastRequest
    generalize w.db.shipments.get? r = old at hr hstep
    generalize w'.db.shipments.get? r = new at hstep
    cases hstep with
    | kept unmarked same =>
      rw [unmarked, hr]
      have hbind (o : Option Shipment) : o.bind Shipment.labelRequestId
          = (o.map Shipment.request).bind Prod.snd := by cases o <;> rfl
      rw [hbind old, hbind new, same]
    | created unmarked _ new =>
      simp only [unmarked, Option.filter_none, hr, Option.bind_none, Option.bind_some]
      exact (congrArg Prod.snd new).symm
    | marked here _ new =>
      simp only [here, Option.filter_some, decide_true, if_true, Option.bind_some]
      exact (congrArg Prod.snd new).symm
    | reconciling unmarked _ new =>
      simp only [unmarked, Option.filter_none, hr, Option.bind_some]
      exact (congrArg Prod.snd new).symm
    | absent event _ _ _ _ _ new =>
      subst event
      simp only [markedRequest, Option.filter_none, hr, Option.bind_some]
      exact (congrArg Prod.snd new).symm
    | stored unmarked new =>
      simp only [unmarked, Option.filter_none, hr, Option.bind_some]
      exact (congrArg Prod.snd new).symm

/-- A claimed job carries the last request named for its shipment before the claim. -/
theorem Run.requestWhenClaimed_eq {past : Past} (h : Run P past w) :
    ∀ i hand r, w.hands[i]? = some hand → hand.job.shipmentRef = some r →
      hand.job.labelRequestId = requestWhenClaimed P i r past := by
  obtain ⟨merchants, connections, h⟩ := h
  induction h with
  | init => exact fun i hand r hi => by simp at hi
  | @step past w w' e run taken ih =>
    intro i hand r hi hr
    have old {hand : Hand} (hi : w.hands[i]? = some hand) (hr : hand.job.shipmentRef = some r) :
        hand.job.labelRequestId = requestWhenClaimed P i r ((w, e) :: past) := by
      have hlt := (List.getElem?_eq_some_iff.1 hi).1
      rw [requestWhenClaimed, if_neg (by omega)]
      exact ih i hand r hi hr
    cases e with
    | call link command =>
      simp only [next, Option.some.injEq] at taken
      subst taken
      exact old hi hr
    | claim link workerRef limit lease now =>
      rcases next_claim taken with ⟨hhands, -⟩ | ⟨jobs, hok, hhands⟩
      · exact old (hhands ▸ hi) hr
      · rw [hhands] at hi
        rcases Nat.lt_or_ge i w.hands.length with hlt | hge
        · rw [List.getElem?_append_left hlt] at hi
          exact old hi hr
        · rw [List.getElem?_append_right hge] at hi
          obtain ⟨c, hc, rfl⟩ := List.mem_map.1 (List.mem_of_getElem? hi)
          obtain ⟨-, -, -, hall⟩ := claimJobs_ok hok
          obtain ⟨j, -, hmap, -⟩ := hall c hc
          rw [requestWhenClaimed, if_pos hge,
            Run.lastRequest_eq ⟨merchants, connections, run⟩]
          simp only [handOf] at hr ⊢
          rw [hmap] at hr ⊢
          simp only [mapJob] at hr ⊢
          rw [hr, Option.bind_some]
    | work i' env =>
      obtain ⟨hand', phase, hi', -, hhands⟩ := next_work taken
      rw [hhands, List.getElem?_set] at hi
      split_ifs at hi with hii
      · subst hii
        cases hi
        exact @old hand' hi' hr
      · exact old hi hr

/-! ## One step -/

section Step

variable {past : Past}

theorem LabelSafe.safe (h : LabelSafe P past w e) (hnext : next P w e = some w') {s s' : Shipment}
    (hs : w.db.shipments.get? r = some s) (hs' : w'.db.shipments.get? r = some s') :
    OutcomeSafe w e r s w'.db s' :=
  h w' hnext r (Record.mem_keys.2 ⟨s, hs⟩) s hs s' hs'

theorem work_absent (hsound : Sound P w) {i : ℕ} {env : Env} {hand : Hand} {s : Shipment}
    (hi : w.hands[i]? = some hand) (hphase : hand.phase = .absent)
    (hl : env.link.executes = true) (hr : hand.job.shipmentRef = some r)
    (hs : w.db.shipments.get? r = some s) (hopen : s.labelOutcome ≠ .confirmed)
    (h : next P w (.work i env) = some w') :
    ∃ s', w'.db.shipments.get? r = some s' ∧ s'.labelOutcome = .notFound := by
  obtain ⟨hand', phase, hi', ha, -⟩ := next_work h
  obtain rfl := Option.some.inj (hi.symm.trans hi')
  simp only [advance, hphase, hr, Option.getD_some, Option.some.injEq, Prod.mk.injEq] at ha
  have hnormal := hsound.normal (hsound.hands hand (List.mem_of_getElem? hi) r hr)
  refine ⟨{ s with
    labelOutcome := .notFound
    status := .failed
    labelReconciliationDeadlineAt := none }, ?_, rfl⟩
  rw [← ha.2, query_of_ok (recordLabelNotFound_of_normal hnormal) hl]
  simp only [Record.get?_updateAt_getD, if_pos, hs, Option.map_some]
  rw [if_pos (by simpa [unconfirmed] using hopen)]

/-- A step that saves a label again confirms its shipment and leaves the labels as they are. -/
theorem saved_again {saved : Instant × LabelInput} {s : Shipment}
    (hsaved : savedLabel w e = some saved)
    (hinsert : insertLabel P saved.1 saved.2 w.db = .ok w.db.labels)
    (hs : w.db.shipments.get? saved.2.shipmentRef = some s) (h : next P w e = some w') :
    w'.db.labels = w.db.labels
      ∧ ∃ s', w'.db.shipments.get? saved.2.shipmentRef = some s' ∧ s'.labelOutcome = .confirmed := by
  have hsave : saveLabel P saved.1 saved.2 w.db = .ok ((), { w.db with
      shipments := (w.db.shipments.updateAt saved.2.shipmentRef (fun _ => true)
        (confirm saved.2.carrier (trimmed saved.2.carrierShipmentId) saved.1)).getD
          w.db.shipments }) := by
    simp only [saveLabel, bind, Except.bind, hinsert]
    rfl
  have hdb : w'.db = { w.db with
      shipments := (w.db.shipments.updateAt saved.2.shipmentRef (fun _ => true)
        (confirm saved.2.carrier (trimmed saved.2.carrierShipmentId) saved.1)).getD
          w.db.shipments } := by
    cases e with
    | claim => cases hsaved
    | call link command =>
      cases command with
      | saveLabel now input =>
        simp only [savedLabel, Option.ite_none_right_eq_some, Option.some.injEq] at hsaved
        obtain ⟨hl, rfl⟩ := hsaved
        simp only [next, Option.some.injEq] at h
        rw [← h]
        exact query_of_ok hsave hl
      | _ => cases hsaved
    | work i env =>
      obtain ⟨hand, phase, hi, ha, -⟩ := next_work h
      simp only [savedLabel, hi, Option.map_some] at hsaved
      split at hsaved
      · rename_i label hphase
        simp only [Option.some.injEq] at hphase
        simp only [Option.ite_none_right_eq_some, Option.some.injEq] at hsaved
        obtain ⟨hl, rfl⟩ := hsaved
        simp only [advance, hphase, Option.some.injEq, Prod.mk.injEq] at ha
        rw [← ha.2]
        exact query_of_ok hsave hl
      · cases hsaved
  refine ⟨by rw [hdb], confirm saved.2.carrier (trimmed saved.2.carrierShipmentId) saved.1 s, ?_,
    rfl⟩
  rw [hdb]
  simp only [Record.get?_updateAt_getD, if_pos, hs, Option.map_some]

/-- What a step may make of an outcome, when it answers the last request and stores a label that is
active. -/
theorem OutcomeStep.safe {s s' : Shipment} (hrun : Run P past w) (hright : RightRequest P past w e)
    (hs : w.db.shipments.get? r = some s)
    (h : OutcomeStep P w e r w'.db (some s) (some s')) : OutcomeSafe w e r s w'.db s' := by
  refine ⟨fun hold hnew => ?_, h.confirmed, fun hold hnew => ?_⟩
  · have outcome {o : LabelOutcome} {id : Option JsString} (h : s'.request = (o, id)) :
        o = .notFound := (congrArg Prod.fst h).symm.trans hnew
    cases h with
    | kept _ same =>
      exact absurd (outcome (Option.some.inj same)) hold
    | marked _ _ new => cases outcome new
    | reconciling _ _ new => cases outcome new
    | stored _ new => cases outcome new
    | @absent _ _ i env hand event here phase link job unconfirmed =>
      subst event
      refine ⟨hand, here, phase, job, ?_⟩
      rw [hrun.requestWhenClaimed_eq i hand r here job,
        hright.1 hand here phase link r job s hs unconfirmed hold, hrun.lastRequest_eq, hs,
        Option.bind_some]
  · have outcome {o : LabelOutcome} {id : Option JsString} (h : s'.request = (o, id)) :
        o = .confirmed := (congrArg Prod.fst h).symm.trans hnew
    cases h with
    | kept _ same => exact absurd (outcome (Option.some.inj same)) hold
    | marked _ _ new => cases outcome new
    | reconciling _ _ new => cases outcome new
    | absent _ _ _ _ _ _ new => cases outcome new
    | stored _ _ label =>
      rcases label hold with hactive | ⟨saved, hsaved, rfl, hinsert, hlabels⟩
      · exact hactive
      · have hactive := hright.2 saved hsaved hinsert s hs hold
        unfold HasActiveLabel at hactive ⊢
        rwa [hlabels]

end Step

/-- In every run, that outcomes change as they may says that each absence is recorded on an answer to
the last request, and that no shipment is confirmed on a void label saved again. -/
theorem labelSafe_iff_rightRequest {past : Past} (h : Run P past w) :
    History.Every (LabelSafe P) past ↔ History.Every (RightRequest P) past := by
  obtain ⟨merchants, connections, h⟩ := h
  refine h.every_iff fun {past w e w'} run taken => ?_
  have hrun : Run P past w := ⟨merchants, connections, run⟩
  constructor
  · intro hsafe
    constructor
    · cases e with
      | call => trivial
      | claim => trivial
      | work i env =>
        intro hand hi hphase hl r hr s hs hopen hnot
        obtain ⟨s', hs', hnew⟩ := work_absent hrun.sound hi hphase hl hr hs hopen taken
        obtain ⟨hand', hi', -, -, hid⟩ := (hsafe.safe taken hs hs').1 hnot hnew
        obtain rfl := Option.some.inj (hi.symm.trans hi')
        rw [← hrun.requestWhenClaimed_eq i hand r hi hr, hid, hrun.lastRequest_eq, hs,
          Option.bind_some]
    · intro saved hsaved hinsert s hs hopen
      obtain ⟨hlabels, s', hs', hnew⟩ := saved_again hsaved hinsert hs taken
      have hactive := (hsafe.safe taken hs hs').2.2 hopen hnew
      unfold HasActiveLabel at hactive ⊢
      rwa [hlabels] at hactive
  · intro hright w'' htaken r _ s hs s' hs'
    obtain rfl := Option.some.inj (taken.symm.trans htaken)
    have hstep := outcome_step (r := r) hrun.sound taken
    rw [Option.mem_def.1 hs, Option.mem_def.1 hs'] at hstep
    exact hstep.safe hrun hright hs

def shipment : ShipmentInput := ⟨js "ship", none, [js "package"], none, none, none⟩

/-- A label request whose outcome is unknown. -/
def unknownAt (carrierRequestId : String) : Event :=
  .call .up (.markLabelOutcomeUnknown (fun _ _ => firstId) 0
    ⟨js "ship", js carrierRequestId, js "2025-06-15T16:06:40.000Z"⟩)

/-- The steps of a reconciliation that the carrier answers with no label. -/
def reconcileAbsent (n : ℕ) : List Event :=
  List.replicate n (.work 0 ⟨ofSeconds 1, 0, .up, .label .notFound, 0⟩)

/-- The job is claimed after the second request, and the carrier has no label for it. -/
theorem labelSafe_iff_rightRequest_second :
    ∃ past w, Run shipPlatform past w ∧ past.length = 8
      ∧ (History.Every (LabelSafe shipPlatform) past
        ↔ History.Every (RightRequest shipPlatform) past) := by
  have hplay : (shipRun ([.call .up (.createShipment shipment), unknownAt "request-1",
      unknownAt "request-2", claimAt "w1" 0] ++ reconcileAbsent 4)).map
      (fun v => v.1.length) = some 8 := by
    decide
  obtain ⟨v, hv, hlength⟩ := Option.map_eq_some_iff.1 hplay
  exact ⟨v.1, v.2, run_of_shipRun hv, hlength, labelSafe_iff_rightRequest (run_of_shipRun hv)⟩

/-- The job is claimed with the first request, and a second one is made before the carrier answers
that it has no label for the first. -/
theorem olderRequest_not_labelSafe :
    ¬ ∀ P past w, Run P past w → History.Every (LabelSafe P) past := by
  intro h
  have hplay : (shipRun ([.call .up (.createShipment shipment), unknownAt "request-1",
      claimAt "w1" 0, unknownAt "request-2"] ++ reconcileAbsent 3)).map
      (fun v => decide (History.Every (LabelSafe shipPlatform) v.1)) = some false := by
    decide
  obtain ⟨v, hv, hsafe⟩ := Option.map_eq_some_iff.1 hplay
  exact of_decide_eq_false hsafe (h _ _ _ (run_of_shipRun hv))

end Agid.VeygritShip
