import Agid.LabelManagement
import Agid.Proofs.ShipJobs

/-!
# One void at a time

A void that is at the carrier, or has its answer, holds the label in `void_pending`, and it is the
last request in the events.  While no request is recorded for a label that is pending, there is one
such void at most, so its result follows its own request.  The checks of the table keep a request
from a label that is voided.
-/

namespace Agid.LabelManagement

open VeygritShip (Platform Instant LabelStatus LabelFormat Link safeRef)

variable {P : Platform}

/-! ## One step -/

/-- The id of a void that a call has drawn. -/
def Phase.root : Phase → Option ℕ
  | .requesting root _ | .atCarrier root _ | .answered root _ _ | .finishing root _ _ => some root
  | _ => none

/-- The void that a call has brought to the carrier and has still to finish. -/
def Phase.flying : Phase → Option ℕ
  | .atCarrier root _ | .answered root _ _ | .finishing root _ _ => some root
  | _ => none

/-- The answer that a call has heard and has still to record. -/
def Phase.heard : Phase → Option (ℕ × Answer)
  | .answered root _ answer | .finishing root _ answer => some (root, answer)
  | _ => none

/-- The steps of a call, each with what it finds. -/
inductive Effect (P : Platform) (store : Store) (call : Call) : Store → Call → Prop
  | rest {store' : Store} {phase' : Phase} (same : store' = store ∨ store' = store.draw)
      (root : phase'.root = none) : Effect P store call store' (call.to phase')
  | begin {labelRef : JsString} :
      Effect P store call store.draw (call.to (.requesting store.uuids labelRef))
  | access {label : Label} {event : AccessEvent} {action : AccessAction} {phase' : Phase}
      (status : label.status = store.label.status) (isAccess : event.action = .access action)
      (root : phase'.root = none) :
      Effect P store call { store with label := label, events := store.events ++ [event] }
        (call.to phase')
  | request {label : Label} {event : AccessEvent} {root : ℕ} {labelRef : JsString} {now : Instant}
      {phase' : Phase} (phase : call.phase = .requesting root labelRef)
      (row : label.toRow = store.label.toRow.requested now)
      (isRequest : event.action = .voidRequested) (eventRef : event.eventRef = .voidRequest root)
      (next : phase' = .atCarrier root labelRef ∨ ∃ error, phase' = .failed error) :
      Effect P store call { store with label := label, events := store.events ++ [event] }
        (call.to phase')
  | hear {root : ℕ} {labelRef : JsString} (answer : Answer)
      (phase : call.phase = .atCarrier root labelRef) :
      Effect P store call { store with answers := store.answers.set root answer }
        (call.to (.answered root labelRef answer))
  | take {root : ℕ} {labelRef : JsString} {answer : Answer}
      (phase : call.phase = .answered root labelRef answer) :
      Effect P store call store (call.to (.finishing root labelRef answer))
  | finish {label : Label} {event : AccessEvent} {root : ℕ} {labelRef : JsString}
      {answer : Answer} {phase' : Phase} (phase : call.phase = .finishing root labelRef answer)
      (eventRef : event.eventRef = .voidResult root)
      (action : event.action = answer.outcome.action)
      (failure : event.failureCode = answer.failure P) (none : phase'.root = none) :
      Effect P store call { store with label := label, events := store.events ++ [event] }
        (call.to phase')

section Step

variable {env : Env} {store store' : Store} {call call' other : Call}

theorem after_error (call : Call) (e : JsString) : call.after (.error e) = call.to (.failed e) :=
  rfl

/-- An update is refused, or writes the row and its event. -/
theorem update_cases (env : Env) (store : Store) (row : Row) (event : AccessEvent) :
    (∃ e, update env store row event = (store, .error e))
      ∨ ∃ label : Label, label.toRow = row
        ∧ (update env store row event).1
          = { store with label := label, events := store.events ++ [event] }
        ∧ ((update env store row event).2 = .ok ()
          ∨ ∃ e, (update env store row event).2 = .error e) := by
  unfold update
  rcases env.link with _ | message | message
  · by_cases h : row.Checked
    · exact .inr ⟨⟨row, h⟩, rfl, by simp [h], .inl (by simp [h])⟩
    · exact .inl ⟨checkError, by simp [h]⟩
  · exact .inl ⟨message, rfl⟩
  · by_cases h : row.Checked
    · exact .inr ⟨⟨row, h⟩, rfl, by simp [h], .inr ⟨message, by simp [h]⟩⟩
    · exact .inl ⟨checkError, by simp [h]⟩

theorem describe_root {input : DownloadInput} {phase : Phase}
    (h : describe P env store input = .ok phase) : phase.root = none := by
  obtain ⟨labelRef, -, h⟩ := bind_eq_ok.1 h
  obtain ⟨merchantRef, -, h⟩ := bind_eq_ok.1 h
  obtain ⟨found, -, h⟩ := bind_eq_ok.1 h
  split at h
  · cases h
  · cases h
  · cases h
  · split_ifs at h
    · cases h
      rfl

theorem begin_effect :
    Effect P store call (begin P env store call).1 (begin P env store call).2 := by
  unfold begin
  split
  · rename_i input hrequest
    rcases hphase : describe P env store input with e | phase
    · exact .rest (.inl rfl) rfl
    · exact .rest (.inl rfl) (describe_root hphase)
  · rename_i actor labelRef hrequest
    rcases hphase : beginVoid P env store actor labelRef with e | phase
    · exact .rest (.inr rfl) rfl
    · obtain ⟨labelRef', -, hphase⟩ := bind_eq_ok.1 hphase
      obtain ⟨-, -, hphase⟩ := bind_eq_ok.1 hphase
      cases hphase
      exact .begin

theorem beginAccess_effect {labelRef : JsString} {format : LabelFormat} {ttl : Option ℕ}
    {nowMs : ℕ} {url : JsString} :
    Effect P store call (beginAccess P env store call labelRef format ttl nowMs url).1
      (beginAccess P env store call labelRef format ttl nowMs url).2 := by
  unfold beginAccess
  rcases ttl with _ | ttl
  · exact .rest (.inr rfl) rfl
  · dsimp only
    rcases snapshot P env store labelRef call.request.actor (fun s => decide (s = .active))
      (js "Active label was not found.") with e | _
    · exact .rest (.inr rfl) rfl
    · exact .rest (.inr rfl) rfl

theorem recordAccess_effect {uuid : ℕ} {labelRef : JsString} {format : LabelFormat} {ttl nowMs : ℕ}
    {url : JsString} :
    Effect P store call (recordAccess P env store call uuid labelRef format ttl nowMs url).1
      (recordAccess P env store call uuid labelRef format ttl nowMs url).2 := by
  unfold recordAccess
  dsimp only
  rcases update_cases env store (store.label.toRow.accessed (purposeOf call.request) env.now)
    ⟨.access uuid, normalRef P call.request.actor.actorRef, .access (purposeOf call.request),
      some ttl, none⟩ with ⟨e, he⟩ | ⟨label, hrow, hstore, hok | ⟨e, he⟩⟩
  · rw [he]
    exact .rest (.inl rfl) rfl
  · rw [hstore, hok]
    exact .access (by rw [hrow]; rfl) rfl rfl
  · rw [hstore, he]
    exact .access (by rw [hrow]; rfl) rfl rfl

theorem requestVoid_effect {root : ℕ} {labelRef : JsString}
    (hphase : call.phase = .requesting root labelRef) :
    Effect P store call (requestVoid P env store call root labelRef).1
      (requestVoid P env store call root labelRef).2 := by
  unfold requestVoid
  dsimp only
  rcases update_cases env store (store.label.toRow.requested env.now)
    ⟨.voidRequest root, normalRef P call.request.actor.actorRef, .voidRequested, none, none⟩
    with ⟨e, he⟩ | ⟨label, hrow, hstore, hok | ⟨e, he⟩⟩
  · rw [he]
    exact .rest (.inl rfl) rfl
  · rw [hstore, hok]
    exact .request hphase hrow rfl rfl (.inl rfl)
  · rw [hstore, he]
    exact .request hphase hrow rfl rfl (.inr ⟨e, rfl⟩)

theorem beginFinish_effect {root : ℕ} {labelRef : JsString} {answer : Answer}
    (hphase : call.phase = .answered root labelRef answer) :
    Effect P store call store (beginFinish P env store call root labelRef answer) := by
  unfold beginFinish
  rcases snapshot P env store labelRef call.request.actor (fun s => decide (s = .voidPending))
    (js "Pending Void label was not found.") with e | _
  · exact .rest (.inl rfl) rfl
  · exact .take hphase

theorem finishVoid_effect {root : ℕ} {labelRef : JsString} {answer : Answer}
    (hphase : call.phase = .finishing root labelRef answer) :
    Effect P store call (finishVoid P env store call root answer).1
      (finishVoid P env store call root answer).2 := by
  unfold finishVoid
  dsimp only
  rcases update_cases env store
    (store.label.toRow.finished answer.outcome (answer.failure P) env.now)
    ⟨.voidResult root, normalRef P call.request.actor.actorRef, answer.outcome.action, none,
      answer.failure P⟩ with ⟨e, he⟩ | ⟨label, hrow, hstore, hok | ⟨e, he⟩⟩
  · rw [he]
    exact .rest (.inl rfl) rfl
  · rw [hstore, hok]
    exact .finish hphase rfl rfl rfl rfl
  · rw [hstore, he]
    exact .finish hphase rfl rfl rfl rfl

theorem advance_effect (h : advance P env store call = some (store', call')) :
    Effect P store call store' call' := by
  have hpair : ∀ {p : Store × Call}, some p = some (store', call') →
      Effect P store call p.1 p.2 → Effect P store call store' call' := by
    intro p hp he
    rw [Option.some.inj hp] at he
    exact he
  unfold advance at h
  split at h
  · exact hpair h begin_effect
  · refine hpair h ?_
    unfold sign
    split
    · exact .rest (.inl rfl) rfl
    · split_ifs
      · exact .rest (.inl rfl) rfl
      · exact .rest (.inl rfl) rfl
  · exact hpair h beginAccess_effect
  · exact hpair h recordAccess_effect
  · rename_i root labelRef hphase
    exact hpair h (requestVoid_effect hphase)
  · rename_i root labelRef hphase
    exact hpair h (.hear env.answer hphase)
  · rename_i root labelRef answer hphase
    exact hpair h (beginFinish_effect hphase)
  · rename_i root labelRef answer hphase
    exact hpair h (finishVoid_effect hphase)
  all_goals cases h

/-! ## What a step keeps -/

/-- What each result was, and which ids were drawn. -/
structure Sound (P : Platform) (store : Store) : Prop where
  recorded : Recorded P store
  drawn : ∀ root answer, store.answers.get? root = some answer → root < store.uuids

structure Own (store : Store) (call : Call) : Prop where
  drawn : ∀ root, call.phase.root = some root → root < store.uuids
  pending : ∀ root, call.phase.flying = some root →
    store.label.status = .voidPending ∧ lastRequest store.events = some (.voidRequest root)
  heard : ∀ root answer, call.phase.heard = some (root, answer) →
    store.answers.get? root = some answer
  unheard : ∀ root, call.phase.root = some root → call.phase.heard = none →
    store.answers.get? root = none

structure Apart (call other : Call) : Prop where
  roots : ∀ root, call.phase.root = some root → other.phase.root ≠ some root
  single : call.phase.flying = none ∨ other.phase.flying = none

theorem Phase.flying_eq_none {phase : Phase} (h : phase.root = none) : phase.flying = none := by
  cases phase <;> first | rfl | cases h

theorem Phase.heard_eq_none {phase : Phase} (h : phase.root = none) : phase.heard = none := by
  cases phase <;> first | rfl | cases h

theorem Phase.root_of_flying {phase : Phase} {root : ℕ} (h : phase.flying = some root) :
    phase.root = some root := by
  cases phase <;> first | exact h | cases h

theorem lastRequest_append (events : List AccessEvent) (event : AccessEvent) :
    lastRequest (events ++ [event])
      = if event.action = .voidRequested then some event.eventRef else lastRequest events := by
  unfold lastRequest
  rw [List.filter_append]
  split_ifs with h
  · simp [h]
  · simp [h]

/-- A call with no void in hand says nothing. -/
theorem own_of_root_none (store : Store) (call : Call) {phase : Phase} (h : phase.root = none) :
    Own store (call.to phase) := by
  refine ⟨fun root hr => ?_, fun root hr => ?_, fun root answer hr => ?_, fun root hr => ?_⟩
  · rw [Call.to, h] at hr
    cases hr
  · rw [Call.to, Phase.flying_eq_none h] at hr
    cases hr
  · rw [Call.to, Phase.heard_eq_none h] at hr
    cases hr
  · rw [Call.to, h] at hr
    cases hr

/-- The checks of the table keep a request from a label that is voided. -/
theorem not_voided_of_requested {label : Label} {now : Instant}
    (row : label.toRow = store.label.toRow.requested now) : store.label.status ≠ .voided := by
  intro hvoided
  have hstatus : label.status = .voidPending := by rw [row]; rfl
  have hsome := store.label.checked.voided.1 hvoided
  have hlabel := label.checked.voided.2 (by rw [row]; exact hsome)
  rw [hstatus] at hlabel
  cases hlabel

theorem Own.step (h : Own store call) (hi : Sound P store)
    (he : Effect P store call store' call') : Own store' call' := by
  cases he with
  | rest same root => exact own_of_root_none _ call root
  | begin =>
    refine ⟨fun root hr => ?_, fun root hr => ?_, fun root answer hr => ?_, fun root hr _ => ?_⟩
    · cases hr
      exact Nat.lt_succ_self _
    · cases hr
    · cases hr
    · cases hr
      rcases hget : store.answers.get? store.uuids with _ | answer
      · exact hget
      · exact absurd (hi.drawn _ _ hget) (Nat.lt_irrefl _)
  | access status isAccess root => exact own_of_root_none _ call root
  | @request label event root labelRef now phase' phase row isRequest eventRef next =>
    rcases next with rfl | ⟨error, rfl⟩
    · refine ⟨fun root' hr => ?_, fun root' hr => ?_, fun root' answer hr => ?_,
        fun root' hr _ => ?_⟩
      · cases hr
        exact h.drawn root (by rw [phase]; rfl)
      · cases hr
        refine ⟨by dsimp only; rw [row]; rfl, ?_⟩
        rw [lastRequest_append, if_pos isRequest, eventRef]
      · cases hr
      · cases hr
        exact h.unheard root (by rw [phase]; rfl) (by rw [phase]; rfl)
    · exact own_of_root_none _ call rfl
  | @hear root labelRef answer phase =>
    refine ⟨fun root' hr => ?_, fun root' hr => ?_, fun root' answer' hr => ?_,
      fun root' hr hnone => ?_⟩
    · cases hr
      exact h.drawn root (by rw [phase]; rfl)
    · cases hr
      exact h.pending root (by rw [phase]; rfl)
    · cases hr
      exact Record.get?_set_self _ _ _
    · cases hnone
  | @take root labelRef answer phase =>
    refine ⟨fun root' hr => ?_, fun root' hr => ?_, fun root' answer' hr => ?_,
      fun root' hr hnone => ?_⟩
    · cases hr
      exact h.drawn root (by rw [phase]; rfl)
    · cases hr
      exact h.pending root (by rw [phase]; rfl)
    · cases hr
      exact h.heard root answer (by rw [phase]; rfl)
    · cases hnone
  | finish phase eventRef action failure root => exact own_of_root_none _ call root

/-- The last request and the status stay, but for a request or the end of the void itself. -/
theorem Own.frame (h : Own store call) (ho : Own store other) (ha : Apart call other)
    (he : Effect P store call store' call') (hkeeps : Guarded store store') :
    Own store' other := by
  cases he with
  | rest same root =>
    rcases same with rfl | rfl
    · exact ho
    · exact ⟨fun root hr => (ho.drawn root hr).trans (Nat.lt_succ_self _), ho.pending, ho.heard,
        ho.unheard⟩
  | begin =>
    exact ⟨fun root hr => (ho.drawn root hr).trans (Nat.lt_succ_self _), ho.pending, ho.heard,
      ho.unheard⟩
  | access status isAccess root =>
    refine ⟨ho.drawn, fun root hr => ?_, ho.heard, ho.unheard⟩
    obtain ⟨hstatus, hlast⟩ := ho.pending root hr
    refine ⟨status.trans hstatus, ?_⟩
    rw [lastRequest_append, if_neg (by simp [isAccess]), hlast]
  | request phase row isRequest eventRef next =>
    refine ⟨ho.drawn, fun root hr => ?_, ho.heard, ho.unheard⟩
    exact absurd (ho.pending root hr).1 (hkeeps _ rfl isRequest)
  | @hear root labelRef answer phase =>
    have hother : ∀ root', other.phase.root = some root' → root ≠ root' := by
      rintro root' hr rfl
      exact ha.roots root (by rw [phase]; rfl) hr
    refine ⟨ho.drawn, ho.pending, fun root' answer' hr => ?_, fun root' hr hnone => ?_⟩
    · have hroot : other.phase.root = some root' := by
        unfold Phase.heard at hr
        split at hr <;> cases hr <;> rename_i hphase <;> rw [hphase] <;> rfl
      exact (Record.get?_set_of_ne _ _ (hother root' hroot)).trans (ho.heard root' answer' hr)
    · exact (Record.get?_set_of_ne _ _ (hother root' hr)).trans (ho.unheard root' hr hnone)
  | take phase => exact ho
  | @finish label event root labelRef answer phase' phase eventRef action failure none =>
    refine ⟨ho.drawn, fun root' hr => ?_, ho.heard, ho.unheard⟩
    rcases ha.single with hnone | hnone
    · rw [phase] at hnone
      cases hnone
    · rw [hnone] at hr
      cases hr

theorem Apart.symm (h : Apart call other) : Apart other call :=
  ⟨fun root hr hr' => h.roots root hr' hr, h.single.symm⟩

theorem Apart.step (ho : Own store other) (ha : Apart call other)
    (he : Effect P store call store' call') (hkeeps : Guarded store store') :
    Apart call' other := by
  -- a phase with the same root, flying only where it was
  have hkeep : ∀ phase' : Phase, phase'.root = call.phase.root →
      (call.phase.flying = none → phase'.flying = none) → Apart (call.to phase') other := by
    intro phase' hroot hflying
    refine ⟨fun root hr => ha.roots root (hroot ▸ hr), ?_⟩
    rcases ha.single with h | h
    · exact .inl (hflying h)
    · exact .inr h
  have hrest : ∀ phase' : Phase, phase'.root = none → Apart (call.to phase') other := by
    intro phase' hroot
    refine ⟨fun root hr => ?_, .inl (Phase.flying_eq_none hroot)⟩
    rw [Call.to, hroot] at hr
    cases hr
  cases he with
  | rest same root => exact hrest _ root
  | begin =>
    refine ⟨fun root hr hr' => ?_, .inl rfl⟩
    cases hr
    exact Nat.lt_irrefl _ (ho.drawn _ hr')
  | access status isAccess root => exact hrest _ root
  | @request label event root labelRef now phase' phase row isRequest eventRef next =>
    rcases next with rfl | ⟨error, rfl⟩
    · refine ⟨fun root' hr => ha.roots root' (by rw [phase]; exact hr), .inr ?_⟩
      rcases hflying : other.phase.flying with _ | root'
      · rfl
      · exact absurd (ho.pending root' hflying).1 (hkeeps _ rfl isRequest)
    · exact hrest _ rfl
  | hear answer phase =>
    exact hkeep _ (by rw [phase]; rfl) fun h => by rw [phase] at h; cases h
  | take phase => exact hkeep _ (by rw [phase]; rfl) fun h => by rw [phase] at h; cases h
  | finish phase eventRef action failure root => exact hrest _ root

/-- Results stay what they were, under later events and later answers. -/
theorem Recorded.mono {store : Store} (h : Recorded P store) {label : Label}
    {events : List AccessEvent} {uuids : ℕ} {answers : Record ℕ Answer}
    (hanswers : ∀ root answer, store.answers.get? root = some answer →
      answers.get? root = some answer)
    (hevents : ∀ before event after, events = before ++ event :: after → event.isResult →
      (∃ after', store.events = before ++ event :: after')
        ∨ ∃ root answer, event.eventRef = .voidResult root
          ∧ lastRequest before = some (.voidRequest root) ∧ answers.get? root = some answer
          ∧ event.action = answer.outcome.action ∧ event.failureCode = answer.failure P) :
    Recorded P ⟨label, events, uuids, answers⟩ := by
  intro before event after heq hresult
  rcases hevents before event after heq hresult with ⟨after', heq'⟩ | hnew
  · obtain ⟨root, answer, href, hlast, hget, haction, hfailure⟩ :=
      h before event after' heq' hresult
    exact ⟨root, answer, href, hlast, hanswers root answer hget, haction, hfailure⟩
  · exact hnew

/-- An event of a longer list is an earlier one, or the last. -/
theorem append_singleton_split {events before after : List AccessEvent}
    {event last : AccessEvent} (h : events ++ [last] = before ++ event :: after) :
    (∃ after', events = before ++ event :: after') ∨ (before = events ∧ event = last) := by
  rcases List.eq_nil_or_concat after with rfl | ⟨after', a, rfl⟩
  · obtain ⟨hbefore, hlast⟩ := List.append_inj' h rfl
    exact .inr ⟨hbefore.symm, (List.cons.inj hlast).1.symm⟩
  · left
    rw [List.concat_eq_append, ← List.cons_append, ← List.append_assoc] at h
    exact ⟨after', (List.append_inj' h rfl).1⟩

theorem Sound.step (hi : Sound P store) (h : Own store call)
    (he : Effect P store call store' call') : Sound P store' := by
  have hold : ∀ {label : Label} {event : AccessEvent}, event.isResult = false →
      Recorded P { store with label := label, events := store.events ++ [event] } := by
    intro label event hresult
    refine hi.recorded.mono (fun _ _ h => h) fun before event' after heq hresult' => ?_
    rcases append_singleton_split heq with hbefore | ⟨-, rfl⟩
    · exact .inl hbefore
    · rw [hresult] at hresult'
      cases hresult'
  cases he with
  | rest same root =>
    rcases same with rfl | rfl
    · exact hi
    · exact ⟨hi.recorded, fun root answer h => (hi.drawn root answer h).trans (Nat.lt_succ_self _)⟩
  | begin =>
    exact ⟨hi.recorded, fun root answer h => (hi.drawn root answer h).trans (Nat.lt_succ_self _)⟩
  | access status isAccess root =>
    exact ⟨hold (by simp [AccessEvent.isResult, isAccess]), hi.drawn⟩
  | request phase row isRequest eventRef next =>
    exact ⟨hold (by simp [AccessEvent.isResult, isRequest]), hi.drawn⟩
  | @hear root labelRef answer phase =>
    have hunheard := h.unheard root (by rw [phase]; rfl) (by rw [phase]; rfl)
    refine ⟨hi.recorded.mono (fun root' answer' hget => ?_) fun before event after heq _ =>
      .inl ⟨after, heq⟩, fun root' answer' hget => ?_⟩
    · have hne : root ≠ root' := by
        rintro rfl
        rw [hunheard] at hget
        cases hget
      rw [Record.get?_set_of_ne _ _ hne, hget]
    · rw [Record.get?_set] at hget
      split_ifs at hget with heq
      · exact heq ▸ h.drawn root (by rw [phase]; rfl)
      · exact hi.drawn root' answer' hget
  | take phase => exact hi
  | @finish label event root labelRef answer phase' phase eventRef action failure none =>
    refine ⟨hi.recorded.mono (fun _ _ h => h) fun before event' after heq _ => ?_, hi.drawn⟩
    rcases append_singleton_split heq with hbefore | ⟨rfl, rfl⟩
    · exact .inl hbefore
    · exact .inr ⟨root, answer, eventRef, (h.pending root (by rw [phase]; rfl)).2,
        h.heard root answer (by rw [phase]; rfl), action, failure⟩

theorem Effect.final (h : Own store call) (he : Effect P store call store' call')
    (hvoided : store.label.status = .voided) :
    store'.label.status = .voided := by
  cases he with
  | rest same root =>
    rcases same with rfl | rfl
    · exact hvoided
    · exact hvoided
  | access status isAccess root => exact status.trans hvoided
  | request phase row isRequest eventRef next =>
    exact absurd hvoided (not_voided_of_requested row)
  | finish phase eventRef action failure root =>
    obtain ⟨hpending, -⟩ := h.pending _ (by rw [phase]; rfl)
    rw [hvoided] at hpending
    cases hpending
  | begin | hear | take => exact hvoided

end Step

/-! ## Every run -/

def voidRule (P : Platform) : Tasks.Rule (system P) guarded where
  inv := Sound P
  own := Own
  apart := Apart
  symm := Apart.symm
  start _ _ := own_of_root_none _ (start _) rfl
  start_apart _ _ _ _ := ⟨fun root hr => (by cases hr), .inl rfl⟩
  advance hi h hnext _ :=
    have he := advance_effect hnext
    ⟨hi.step h he, h.step hi he⟩
  frame _ h ho ha hnext hkeeps _ :=
    have he := advance_effect hnext
    ⟨h.frame ho ha he hkeeps, ha.step ho he hkeeps⟩

theorem sound_init (label : Label) : Sound P (.init label) where
  recorded before event after h := by
    rcases before with _ | _ <;> cases h
  drawn root answer h := by cases h

theorem final_of_guarded {w : Tasks.World Store Call} (hw : (voidRule P).Holds w) :
    Final P guarded w := by
  intro w' hsteps hvoided
  suffices h : (voidRule P).Holds w' ∧ w'.store.label.status = .voided from h.2
  induction hsteps with
  | refl => exact ⟨hw, hvoided⟩
  | tail _ hstep ih =>
    obtain ⟨hmid, hmidVoided⟩ := ih
    refine ⟨hmid.step (voidRule P) hstep, ?_⟩
    cases hstep with
    | start => exact hmidVoided
    | advance e task next keeps =>
      exact (advance_effect next).final (hmid.own _ (List.mem_of_getElem? task)) hmidVoided

theorem voidsOnce_of_guarded (label : Label) {w : Tasks.World Store Call}
    (h : Tasks.Run (system P) guarded (.init label) w) : VoidsOnce P guarded w := by
  have hw := (voidRule P).holds (sound_init label) h
  refine ⟨hw.apart.imp ?_, final_of_guarded hw, hw.inv.recorded⟩
  rintro call other (hapart : Apart call other) ⟨hcall, hother⟩
  have hflying : ∀ {call : Call}, call.isAtCarrier → call.phase.flying ≠ none := by
    intro call h
    unfold Call.isAtCarrier at h
    split at h
    · rename_i hphase
      rw [hphase]
      simp [Phase.flying]
    · cases h
  rcases hapart.single with hnone | hnone
  · exact hflying hcall hnone
  · exact hflying hother hnone

/-! ## Two voids -/

def activeLabel : Label where
  labelRef := js "label_1"
  merchantRef := js "merchant_1"
  format := .pdf
  status := .active
  downloadCount := 0
  printCount := 0
  reprintCount := 0
  lastDownloadedAt := none
  lastPrintedAt := none
  voidRequestedAt := none
  voidedAt := none
  voidFailureCode := none
  checked := by decide

def voiding : Request := .voidLabel ⟨js "merchant_1", js "user_1"⟩ (js "label_1")

/-- A step that comes back, with this answer of the carrier. -/
def envWith (answer : Answer) : Env :=
  ⟨.up, true, 1750000000000000, 1750000000000, none, answer, none⟩

theorem twoVoids_run {c : Tasks.Condition Store Call Request} (haccepts : ∀ r, c.accepts r)
    (hmeet : ∀ t u, c.meet t u) :
    Tasks.Run (system VeygritShip.shipPlatform) c (.init activeLabel)
      ⟨.init activeLabel, [start voiding, start voiding]⟩ :=
  .tail (.single (.start (haccepts _) fun _ _ => hmeet _ _))
    (.start (haccepts _) fun _ _ => hmeet _ _)

/-- Which calls are at the carrier, the status, and the actions of the events. -/
structure Report where
  atCarrier : List Bool
  status : LabelStatus
  actions : List EventAction
deriving DecidableEq

def report (w : Tasks.World Store Call) : Report :=
  ⟨w.tasks.map Call.isAtCarrier, w.store.label.status, w.store.events.map (·.action)⟩

instance : DecidableRel Guarded := fun store store' =>
  decidable_of_iff (store.label.status = .voidPending →
      ((store'.events.drop store.events.length).all (·.action ≠ .voidRequested)
        ∨ ¬ store.events <+: store'.events ∨ store'.events.length ≠ store.events.length + 1))
    ⟨fun h event heq haction hstatus => by
      rcases h hstatus with h | h | h
      · rw [heq, List.drop_left] at h
        simp [haction] at h
      · exact h ⟨[event], heq.symm⟩
      · rw [heq] at h
        simp at h,
    fun h hstatus => by
      by_cases hprefix : store.events <+: store'.events
      · obtain ⟨more, hmore⟩ := hprefix
        rcases more with _ | ⟨event, _ | ⟨event', more⟩⟩
        · left
          simp [← hmore]
        · left
          have := h event hmore.symm
          rw [← hmore, List.drop_left]
          simpa using fun haction => this haction hstatus
        · right
          right
          rw [← hmore]
          simp
      · exact .inr (.inl hprefix)⟩

/-- The second void takes its snapshot when the first has its answer; it fails, and the first is
recorded. -/
theorem voidsOnce_of_guarded_twice : ∃ w, VoidsOnce VeygritShip.shipPlatform guarded w
    ∧ report w = ⟨[false, false], .voided, [.voidRequested, .voidSucceeded]⟩ := by
  let : DecidablePred guarded.accepts := fun _ => .isTrue trivial
  let : DecidableRel guarded.keeps := inferInstanceAs (DecidableRel Guarded)
  let : DecidableRel guarded.meet := fun _ _ => .isTrue trivial
  obtain ⟨w, hw, hreport⟩ := (twoVoids_run (c := guarded) (fun _ => trivial)
    fun _ _ => trivial).play report
    (a := ⟨[false, false], .voided, [.voidRequested, .voidSucceeded]⟩)
    (List.replicate 3 (.advance 0 (envWith .ok)) ++ [.advance 1 (envWith .ok)]
      ++ List.replicate 2 (.advance 0 (envWith .ok))) (by decide)
  exact ⟨w, voidsOnce_of_guarded _ hw, hreport⟩

/-- Both voids take their snapshot of the active label before either has its lock. -/
theorem overlapping_requests_not_single :
    ¬ ∀ label w, Tasks.Run (system VeygritShip.shipPlatform) Tasks.Condition.free (.init label) w →
      VoidsOnce VeygritShip.shipPlatform Tasks.Condition.free w := by
  intro h
  obtain ⟨w, hw, hreport⟩ := (twoVoids_run (c := .free) (fun _ => trivial)
    fun _ _ => trivial).play report
    (a := ⟨[true, true], .voidPending, [.voidRequested, .voidRequested]⟩)
    [.advance 0 (envWith .ok), .advance 1 (envWith .ok), .advance 0 (envWith .ok),
      .advance 1 (envWith .ok)] (by decide)
  have hcarrier : w.tasks.map Call.isAtCarrier = [true, true] := congrArg Report.atCarrier hreport
  have hsingle : (w.tasks.map Call.isAtCarrier).Pairwise fun (a b : Bool) =>
      ¬ (a ∧ b) := by
    rw [List.pairwise_map]
    exact (h activeLabel w hw).single
  rw [hcarrier] at hsingle
  simp at hsingle

end Agid.LabelManagement
