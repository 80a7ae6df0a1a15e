import Agid.RegistryFailures
import Agid.Proofs.RegistryAdapters

/-!
# A call that throws has often changed the state

`mutate` changes the state in `apply`, then makes the audit event, which needs a time, then logs it
and only then writes the file.  So a revocation at a time that cannot be written stays in memory,
and so does every mutation whose file operation fails; a use is checked at its time before anything
changes.  A deferred sync throws with its first item that does, and looks at a hundred items.
-/

namespace Agid.RegistryFailures

open AgidSecurePos PosRegistry
open RegistryAdapters (syncItems syncResult skippedEvent Timely nowIso_error nowIso_eq_ok)

variable {platform : Platform} {env : Env} {state : StoredState}

theorem finish_eq_file (h : env.fails = false) (m : Mutation) (nowMs : JsNumber) (a : Applied) :
    finish platform env m nowMs a = RegistryAdapters.File.finish platform env m nowMs a := by
  unfold finish RegistryAdapters.File.finish
  rcases auditEvent platform env m.action.action m.input a.outcome a.errors nowMs with e | event
  · rfl
  · simp [h]

/-- With files that do not fail, the calls are those of the registry that is run one call after
another. -/
theorem mutate_eq_file (h : env.fails = false) (m : Mutation) :
    mutate platform env state m = RegistryAdapters.File.mutate platform env state m := by
  rcases happly : apply platform state m (m.input.now.getD (.finite env.now)) with e | a
  · simp only [mutate, RegistryAdapters.File.mutate, happly]
  · simp only [mutate, RegistryAdapters.File.mutate, happly]
    exact finish_eq_file h m _ a

/-! ## Times -/

theorem nowIso_ok_iff (dates : Dates) {n : JsNumber} :
    (∃ text, nowIso dates n = .ok text) ↔ timeClip n ≠ none := by
  refine ⟨fun ⟨text, htext⟩ h => ?_, nowIso_eq_ok dates⟩
  rw [nowIso_error h] at htext
  cases htext

theorem publicStatus_ok_iff (platform : Platform) (state : StoredState) {n : JsNumber} :
    (∃ status, publicStatus platform state n = .ok status) ↔ Timely n := by
  constructor
  · rintro ⟨status, h⟩
    obtain ⟨checkedAt, hnow, h⟩ := bind_eq_ok.1 h
    obtain ⟨fresh, hfresh, _⟩ := bind_eq_ok.1 h
    exact ⟨(nowIso_ok_iff _).1 ⟨_, hnow⟩, (nowIso_ok_iff _).1 ⟨_, hfresh⟩⟩
  · rintro ⟨hnow, hfresh⟩
    obtain ⟨checkedAt, hnow⟩ := nowIso_eq_ok platform.dates hnow
    obtain ⟨fresh, hfresh⟩ := nowIso_eq_ok platform.dates hfresh
    exact ⟨_, bind_eq_ok.2 ⟨_, hnow, bind_eq_ok.2 ⟨_, hfresh, rfl⟩⟩⟩

theorem snapshot_ok_iff {n : JsNumber} :
    (∃ registry, snapshotFromState platform state n = .ok registry) ↔ Timely n := by
  constructor
  · rintro ⟨registry, h⟩
    obtain ⟨checkedAt, hnow, h⟩ := bind_eq_ok.1 h
    obtain ⟨fresh, hfresh, _⟩ := bind_eq_ok.1 h
    exact ⟨(nowIso_ok_iff _).1 ⟨_, hnow⟩, (nowIso_ok_iff _).1 ⟨_, hfresh⟩⟩
  · rintro ⟨hnow, hfresh⟩
    obtain ⟨checkedAt, hnow⟩ := nowIso_eq_ok platform.dates hnow
    obtain ⟨fresh, hfresh⟩ := nowIso_eq_ok platform.dates hfresh
    exact ⟨_, bind_eq_ok.2 ⟨_, hnow, bind_eq_ok.2 ⟨_, hfresh, rfl⟩⟩⟩

theorem verify_ok {dates : Dates} {registry : RegistrySnapshot} {keyId jti : Option JsString}
    {exp : Option ℚ} {n : JsNumber} (h : timeClip n ≠ none) :
    ∃ decision, verifyAgidSecurePosRegistry dates (some registry) keyId jti exp n
      = .ok decision := by
  obtain ⟨checkedAt, hnow⟩ := nowIso_eq_ok dates h
  exact ⟨_, bind_eq_ok.2 ⟨_, hnow, rfl⟩⟩

theorem timely_getD {given : Option JsNumber} (hclock : Timely (.finite env.now)) :
    Timely (given.getD (.finite env.now)) ↔ ∀ n, given = some n → Timely n := by
  cases given with
  | none => simp [hclock]
  | some n => simp

/-! ## One mutation -/

variable {m : Mutation} {n : JsNumber}

theorem apply_markUsed_ok_iff (haction : m.action = .markUsed) :
    (∃ a, apply platform state m n = .ok a) ↔ Timely n := by
  unfold apply
  rw [haction]
  constructor
  · rintro ⟨a, h⟩
    obtain ⟨registry, hregistry, _⟩ := bind_eq_ok.1 h
    exact snapshot_ok_iff.1 ⟨_, hregistry⟩
  · intro h
    obtain ⟨registry, hregistry⟩ := snapshot_ok_iff.2 h
    have hdecision : ∃ decision, verifyAgidSecurePosRegistry platform.dates (some registry)
        (some (cleanKeyId m.input.keyId)) (some (cleanJti platform m.input.jti)) none n
        = .ok decision := verify_ok h.1
    obtain ⟨decision, hdecision⟩ := hdecision
    exact ⟨_, bind_eq_ok.2 ⟨_, hregistry, bind_eq_ok.2 ⟨_, hdecision, rfl⟩⟩⟩

theorem apply_revoke_ok (platform : Platform) (state : StoredState) (n : JsNumber)
    (haction : m.action ≠ .markUsed) :
    ∃ a, apply platform state m n = .ok a := by
  unfold apply
  split
  · exact absurd ‹_› haction
  · exact ⟨_, rfl⟩
  · exact ⟨_, rfl⟩

theorem apply_audit {a : Applied} (h : apply platform state m n = .ok a) :
    a.state.audit = state.audit := by
  unfold apply at h
  split at h
  · rw [(markUsed_checked h).state]
    split_ifs <;> rfl
  · cases h
    unfold revokeToken
    dsimp only
    split_ifs <;> rfl
  · cases h
    unfold revokeKey
    dsimp only
    split_ifs <;> rfl

theorem auditEvent_ok_iff (platform : Platform) (env : Env) (action : Action)
    (input : MutationInput) (outcome : Outcome) (errors : List JsString) :
    (∃ event, auditEvent platform env action input outcome errors n = .ok event)
      ↔ timeClip n ≠ none := by
  constructor
  · rintro ⟨event, h⟩
    obtain ⟨createdAt, hnow, _⟩ := bind_eq_ok.1 h
    exact (nowIso_ok_iff _).1 ⟨_, hnow⟩
  · intro h
    obtain ⟨createdAt, hnow⟩ := nowIso_eq_ok platform.dates h
    exact ⟨_, bind_eq_ok.2 ⟨_, hnow, rfl⟩⟩

theorem auditEvent_id {action : Action} {input : MutationInput} {outcome : Outcome}
    {errors : List JsString} {event : AuditEvent}
    (h : auditEvent platform env action input outcome errors n = .ok event) :
    event.eventId = env.uuid 0 := by
  obtain ⟨createdAt, _, h⟩ := bind_eq_ok.1 h
  cases h
  rfl

/-- A log whose event is new is another state. -/
theorem logged_ne {a : StoredState} {event : AuditEvent} (haudit : a.audit = state.audit)
    (hnew : event ∉ state.audit) : a.logged event ≠ state := by
  intro h
  have hlog : (a.logged event).audit = state.audit := by rw [h]
  simp only [StoredState.logged, haudit] at hlog
  apply hnew
  rw [← hlog]
  unfold lastEvents
  rw [List.drop_append_of_le_length]
  · exact List.mem_append_right _ List.mem_cons_self
  · rw [List.length_append, List.length_singleton, MAX_AUDIT_EVENTS]
    omega

theorem not_ok_iff {α : Type} {x : Except JsString α} : (¬ ∃ a, x = .ok a) ↔ ∃ e, x = .error e := by
  cases x <;> simp

/-- What a mutation has done when it ends: it threw before it changed anything, or a revocation was
not logged, or it was. -/
inductive Ends (platform : Platform) (env : Env) (state : StoredState) (m : Mutation)
    (n : JsNumber) (answer : StoredState × Except JsString MutationResult) : Prop
  | first (action : m.action = .markUsed) (time : ¬ Timely n) (kept : answer.1 = state)
      (throws : ∃ e, answer.2 = .error e)
  | unlogged {a : Applied} (action : m.action ≠ .markUsed) (time : timeClip n = none)
      (applied : apply platform state m n = .ok a) (kept : answer.1 = a.state)
      (throws : ∃ e, answer.2 = .error e)
  | logged {a : Applied} {event : AuditEvent} (time : timeClip n ≠ none)
      (checked : m.action = .markUsed → Timely n) (applied : apply platform state m n = .ok a)
      (id : event.eventId = env.uuid 0) (kept : answer.1 = a.state.logged event)
      (returns : (∃ r, answer.2 = .ok r) ↔ Timely n ∧ env.fails = false)

theorem mutate_ends (platform : Platform) (env : Env) (state : StoredState) (m : Mutation) :
    Ends platform env state m (m.input.now.getD (.finite env.now))
      (mutate platform env state m) := by
  unfold mutate
  dsimp only
  generalize m.input.now.getD (.finite env.now) = n
  rcases happly : apply platform state m n with e | a
  · have haction : m.action = .markUsed := by
      by_contra hne
      obtain ⟨a, ha⟩ := apply_revoke_ok platform state n hne
      rw [ha] at happly
      cases happly
    refine .first haction (fun htime => ?_) rfl ⟨e, rfl⟩
    obtain ⟨a, ha⟩ := (apply_markUsed_ok_iff haction).2 htime
    rw [ha] at happly
    cases happly
  · have hchecked : m.action = .markUsed → Timely n := fun haction =>
      (apply_markUsed_ok_iff haction).1 ⟨a, happly⟩
    simp only [finish]
    rcases hevent : auditEvent platform env m.action.action m.input a.outcome a.errors n
      with e | event
    · have htime : timeClip n = none := by
        by_contra hne
        obtain ⟨event, h⟩ := (auditEvent_ok_iff platform env m.action.action m.input a.outcome
          a.errors).2 hne
        rw [h] at hevent
        cases hevent
      exact .unlogged (fun haction => (hchecked haction).1 htime) htime happly rfl ⟨e, rfl⟩
    · refine .logged ((auditEvent_ok_iff _ _ _ _ _ _).1 ⟨event, hevent⟩) hchecked happly
        (auditEvent_id hevent) rfl ?_
      dsimp only
      split_ifs with hfails
      · simp [hfails]
      · rw [← publicStatus_ok_iff platform (a.state.logged event)]
        rcases publicStatus platform (a.state.logged event) n with e | status <;>
          simp [Except.map, hfails]

theorem mutate_ok_iff (platform : Platform) (state : StoredState) (m : Mutation)
    (hclock : Timely (.finite env.now)) :
    (∃ r, (mutate platform env state m).2 = .ok r) ↔ Succeeds env m := by
  unfold Succeeds
  rw [← timely_getD hclock]
  cases mutate_ends platform env state m with
  | first _ time _ throws => exact iff_of_false (not_ok_iff.2 throws) fun h => time h.1
  | unlogged _ time _ _ throws =>
    exact iff_of_false (not_ok_iff.2 throws) fun h => h.1.1 time
  | logged _ _ _ _ _ returns => exact returns

theorem keepsState_iff {α : Type} {answer : StoredState × Except JsString α}
    (h : ∃ e, answer.2 = .error e) : KeepsState state answer ↔ answer.1 = state := by
  obtain ⟨e, he⟩ := h
  exact ⟨fun hkeeps => hkeeps e he, fun hstate _ _ => hstate⟩

theorem apply_state_eq_iff {a : Applied} (haction : m.action ≠ .markUsed)
    (htime : timeClip n = none) (h : apply platform state m n = .ok a) :
    a.state = state ↔ ThrowsFirst platform state m n := by
  unfold apply at h
  unfold ThrowsFirst
  split at h
  · exact absurd ‹_› haction
  · cases h
    simp only [*, true_and]
  · cases h
    simp only [*, true_and]

theorem not_throwsFirst (htime : timeClip n ≠ none) (hchecked : m.action = .markUsed → Timely n) :
    ¬ ThrowsFirst platform state m n := by
  unfold ThrowsFirst
  split
  · rename_i haction
    exact not_not_intro (hchecked haction)
  · exact fun h => htime h.1
  · exact fun h => htime h.1

theorem mutate_keeps_iff (hclock : Timely (.finite env.now))
    (hnew : ∀ event ∈ state.audit, event.eventId ≠ env.uuid 0) :
    KeepsState state (mutate platform env state m)
      ↔ Succeeds env m ∨ ThrowsFirst platform state m (m.input.now.getD (.finite env.now)) := by
  have hok := mutate_ok_iff platform state m hclock
  cases mutate_ends platform env state m with
  | first action time kept throws =>
    refine iff_of_true (fun _ _ => kept) (.inr ?_)
    unfold ThrowsFirst
    rw [action]
    exact time
  | unlogged action time applied kept throws =>
    rw [keepsState_iff throws, kept, apply_state_eq_iff action time applied,
      or_iff_right (hok.not.1 (not_ok_iff.2 throws))]
  | logged time checked applied id kept _ =>
    by_cases hreturns : ∃ r, (mutate platform env state m).2 = .ok r
    · obtain ⟨r, hr⟩ := hreturns
      refine iff_of_true (fun e he => ?_) (.inl (hok.1 ⟨r, hr⟩))
      rw [hr] at he
      cases he
    · have hne := logged_ne (apply_audit applied) fun hmem => hnew _ hmem id
      rw [keepsState_iff (not_ok_iff.1 hreturns), kept]
      exact iff_of_false hne (not_or.2 ⟨hok.not.1 hreturns, not_throwsFirst time checked⟩)

/-! ## A deferred sync -/

/-- A loop whose answers throw or not whatever the state is: it ends well when none of them
throws. -/
theorem syncItems_ends {S : Type}
    (answer : Env → S → Option Mutation → S × Except JsString AuditEvent)
    (good : Env → Option Mutation → Prop) :
    ∀ (items : List (Option Mutation)) {envs : ℕ → Env},
      (∀ i s item, (∃ event, (answer (envs i) s item).2 = .ok event) ↔ good (envs i) item) →
      ∀ s, ((∃ events, (syncItems answer envs s items).2 = .ok events
            ∧ events.length = items.length)
          ∧ ∀ i item, items[i]? = some item → good (envs i) item)
        ∨ ((∃ e, (syncItems answer envs s items).2 = .error e)
          ∧ ¬ ∀ i item, items[i]? = some item → good (envs i) item)
  | [], envs, _, s => .inl ⟨⟨[], rfl, rfl⟩, fun i item h => by simp at h⟩
  | item :: items, envs, h, s => by
    have h0 := h 0 s item
    simp only [syncItems]
    rcases ha : answer (envs 0) s item with ⟨s', e | event⟩
    · rw [ha] at h0
      refine .inr ⟨⟨e, rfl⟩, fun hall => ?_⟩
      obtain ⟨event, hevent⟩ := h0.2 (hall 0 item rfl)
      cases hevent
    · rw [ha] at h0
      have hgood : good (envs 0) item := h0.1 ⟨event, rfl⟩
      have ih := syncItems_ends answer good items (fun i => h (i + 1)) s'
      dsimp only
      rcases hrest : syncItems answer (envs <| · + 1) s' items with ⟨s'', e | events⟩
      · rw [hrest] at ih
        obtain ⟨⟨_, hok, _⟩, _⟩ | ⟨_, hbad⟩ := ih
        · cases hok
        · exact .inr ⟨⟨e, rfl⟩, fun hall => hbad fun i item' hi => hall (i + 1) item' hi⟩
      · rw [hrest] at ih
        obtain ⟨⟨events', hok, hlength⟩, hall⟩ | ⟨⟨e, herror⟩, _⟩ := ih
        · obtain rfl := Except.ok.inj hok
          refine .inl ⟨⟨event :: events, rfl, by simp [hlength]⟩, fun i item' hi => ?_⟩
          cases i with
          | zero =>
            obtain rfl := Option.some.inj hi
            exact hgood
          | succ i => exact hall i item' hi
        · cases herror

theorem outcomes_length (events : List AuditEvent) :
    events.countP (·.outcome = .accepted) + events.countP (·.outcome = .rejected)
      + events.countP (·.outcome = .conflict) = events.length := by
  induction events with
  | nil => rfl
  | cons event events ih =>
    simp only [List.countP_cons, List.length_cons]
    rcases event.outcome with _ | _ | _ <;> simp <;> omega

/-- An item is answered with an event. -/
def Answered (input : DeferredSyncInput) (env : Env) : Option Mutation → Prop
  | none => timeClip (input.now.getD (.finite env.now)) ≠ none
  | some m => Succeeds env m

theorem answerItem_ok_iff {input : DeferredSyncInput} (hclock : Timely (.finite env.now))
    (state : StoredState) (item : Option Mutation) :
    (∃ event, (answerItem platform input env state item).2 = .ok event)
      ↔ Answered input env item := by
  rcases item with _ | m
  · exact auditEvent_ok_iff _ _ _ _ _ _
  · rw [Answered, ← mutate_ok_iff platform state m hclock]
    simp only [answerItem]
    rcases (mutate platform env state m).2 with e | r <;> simp [Except.map]

variable {envs : ℕ → Env} {input : DeferredSyncInput}

/-- A sync returns when each item is answered and its own time can be written. -/
theorem applyDeferredSync_ends (platform : Platform) (state : StoredState)
    (input : DeferredSyncInput) (hclock : ∀ i, Timely (.finite (envs i).now)) :
    ((∃ events status, (applyDeferredSync platform envs state input).2
          = .ok (syncResult events status)
          ∧ events.length = (syncedItems platform input).length)
        ∧ (∀ i item, (syncedItems platform input)[i]? = some item → Answered input (envs i) item)
        ∧ ∀ n, input.now = some n → Timely n)
      ∨ ((∃ e, (applyDeferredSync platform envs state input).2 = .error e)
        ∧ ¬ ((∀ i item, (syncedItems platform input)[i]? = some item →
            Answered input (envs i) item)
          ∧ ∀ n, input.now = some n → Timely n)) := by
  have h := syncItems_ends (answerItem platform input) (Answered input) (syncedItems platform input)
    (fun i s item => answerItem_ok_iff (hclock i) s item) state
  unfold applyDeferredSync
  rcases hitems : syncItems (answerItem platform input) envs state (syncedItems platform input)
    with ⟨state', e | events⟩
  · rw [hitems] at h
    obtain ⟨⟨_, hok, _⟩, _⟩ | ⟨_, hbad⟩ := h
    · cases hok
    · exact .inr ⟨⟨e, rfl⟩, fun hall => hbad hall.1⟩
  · rw [hitems] at h
    obtain ⟨⟨events', hok, hlength⟩, hall⟩ | ⟨⟨e, herror⟩, _⟩ := h
    · obtain rfl := Except.ok.inj hok
      dsimp only
      rw [← timely_getD (hclock (syncedItems platform input).length),
        ← publicStatus_ok_iff platform state']
      rcases publicStatus platform state' _ with e | status
      · exact .inr ⟨⟨e, rfl⟩, fun hstatus => by simpa using hstatus.2⟩
      · exact .inl ⟨⟨events, status, rfl, hlength⟩, hall, status, rfl⟩
    · cases herror

theorem syncedItems_length (platform : Platform) (input : DeferredSyncInput) :
    (syncedItems platform input).length = min 100 input.items.length := by
  rw [syncedItems, List.length_map, List.length_take]

theorem lawful_of_no_items (hitems : input.items = []) :
    Lawful platform envs state (.applyDeferredSync input) := by
  have hsynced : syncedItems platform input = [] := by
    rw [syncedItems, hitems]
    rfl
  unfold Lawful applyDeferredSync
  simp only [hsynced, syncItems]
  refine ⟨fun _ _ => rfl, ?_⟩
  rcases publicStatus platform state _ with e | status
  · exact hitems
  · simp [Accounts, Except.map, syncResult, hitems]

theorem answered_of_succeeds (hclock : ∀ i, Timely (.finite (envs i).now))
    (hnow : ∀ n, input.now = some n → Timely n)
    (h : ∀ i m, (syncedItems platform input)[i]? = some (some m) → Succeeds (envs i) m) :
    ∀ i item, (syncedItems platform input)[i]? = some item → Answered input (envs i) item := by
  intro i item hi
  rcases item with _ | m
  · exact ((timely_getD (hclock i)).2 hnow).1
  · exact h i m hi

theorem lawful_sync_iff (hclock : ∀ i, Timely (.finite (envs i).now)) :
    Lawful platform envs state (.applyDeferredSync input)
      ↔ HoldsWhen platform envs state (.applyDeferredSync input) := by
  by_cases hitems : input.items = []
  · exact iff_of_true (lawful_of_no_items hitems) (.inl hitems)
  rcases applyDeferredSync_ends platform state input hclock
    with ⟨⟨events, status, hanswer, hlength⟩, hanswered, hnow⟩ | ⟨⟨e, he⟩, hbad⟩
  · rw [syncedItems_length] at hlength
    have hcounts := outcomes_length events
    have haccounts : Accounts input (applyDeferredSync platform envs state input).2
        ↔ input.items.length ≤ 100 := by
      rw [hanswer]
      simp only [Accounts, syncResult]
      omega
    have hkeeps : KeepsState state (applyDeferredSync platform envs state input) := by
      intro e he
      rw [hanswer] at he
      cases he
    simp only [Lawful, HoldsWhen]
    rw [haccounts, or_iff_right hitems]
    exact ⟨fun h => ⟨h.2, hnow, fun i m hi => hanswered i (some m) hi⟩, fun h => ⟨hkeeps, h.1⟩⟩
  · refine iff_of_false (fun h => hitems ?_) fun h => ?_
    · have haccounts := h.2
      rw [he] at haccounts
      exact haccounts
    · obtain ⟨_, hnow, hsucceeds⟩ := h.resolve_left hitems
      exact hbad ⟨answered_of_succeeds hclock hnow hsucceeds, hnow⟩

/-- A registry without a token. -/
def emptyState : StoredState := ⟨POS_AGID_SECURE_REGISTRY_ID, 0, [], [], [], [], []⟩

/-- A receipt that revokes a token, and one whose action is not known. -/
def batch (createdAt : Option JsString) : DeferredSyncInput where
  items := [⟨some .revokeToken, none, some tokenA, none, none, none, createdAt⟩,
    ⟨none, none, none, none, none, none, none⟩]
  terminalId := none
  operatorId := none
  requestId := none
  now := some (.finite 1750000000000)

theorem timely_batch : Timely (.finite 1750000000000) := by
  constructor <;> norm_num [JsNumber.plus, timeClip, AGID_SECURE_POS_REGISTRY_FRESHNESS_SECONDS]
    <;> exact Option.some_ne_none _

theorem ordinary_batch : Ordinary (fun _ => envAt 0) emptyState := fun _ =>
  ⟨timely_batch, fun _ h => by cases h⟩

end Agid.RegistryFailures
