import Agid.Proofs.VeygritId

/-!
# One code for one request

`approveAuthorization` reads that a request is pending, saves a code and then marks the request as
approved.  A request gets one code just when no code is saved while another call stands between its
code and its mark, or after such a mark.
-/

namespace Agid.VeygritId

variable {S : Service} {past : Past} {w w' : World} {e : Event} {env : Env} {s : Store} {i : ℕ}
  {task task' : Task} {write : Write} {r : JsString}

/-- A code of the request has been issued. -/
def Issued (S : Service) (r : JsString) (past : Past) : Prop :=
  ∃ code ∈ issuedCodes S past, code.requestRef = r

theorem issuedCodes_cons (past : Past) (w : World) (e : Event) :
    issuedCodes S ((w, e) :: past) = (issued S w e).toList ++ issuedCodes S past := by
  rw [issuedCodes, List.filterMap_cons]
  cases issued S w e <;> rfl

theorem issued_cons (past : Past) (w : World) (e : Event) (r : JsString) :
    Issued S r ((w, e) :: past) ↔ (∃ code ∈ issued S w e, code.requestRef = r) ∨ Issued S r past := by
  simp only [Issued, issuedCodes_cons, List.mem_append, Option.mem_toList, Option.mem_def, or_and_right,
    exists_or]

def Approved (s : Store) (r : JsString) : Prop :=
  ∃ request, s.requests.get? r = some request ∧ request.status = .approved

/-- A call has issued a code that it has not recorded yet. -/
def Unrecorded (w : World) (r : JsString) : Prop := ∃ task ∈ w.tasks, task.unrecorded = some r

/-- The request that a call has read. -/
def ApprovePhase.request : ApprovePhase → Option AuthorizationRequest
  | .called => none
  | .requestRead request => request
  | .sessionRead request _ => some request
  | .clientRead request _ _ => some request
  | .pairwiseRead request _ _ _ => some request
  | .codeSaved request _ => some request

structure Requests (S : Service) (past : Past) (w : World) : Prop where
  keyed : ∀ r request, w.store.requests.get? r = some request → request.requestRef = r
    ∧ (request.status = .pending ∨ request.status = .approved)
  read : ∀ task ∈ w.tasks, ∀ input phase request,
    task = .approveAuthorization input (.running phase) → phase.request = some request →
      (w.store.requests.get? request.requestRef).isSome
  counted : ∀ r, Issued S r past ↔ Approved w.store r ∨ Unrecorded w r

/-- Only these two write requests. -/
theorem requests_apply (s : Store) (write : Write) :
    (s.apply write).requests = match write with
      | .saveAuthorizationRequest request => s.requests.set request.requestRef request
      | .updateAuthorizationRequest request => s.requests.set request.requestRef request
      | _ => s.requests := by
  cases write <;> simp only [Store.apply] <;> split <;> rfl

/-! ## Steps -/

theorem unrecorded_set (hi : w.tasks[i]? = some task) (s' : Store) (task' : Task) (r : JsString) :
    (Unrecorded w r ↔ task.unrecorded = some r
        ∨ ∃ (j : ℕ) (b : Task), j ≠ i ∧ w.tasks[j]? = some b ∧ b.unrecorded = some r)
      ∧ (Unrecorded ⟨s', w.tasks.set i task'⟩ r ↔ task'.unrecorded = some r
        ∨ ∃ (j : ℕ) (b : Task), j ≠ i ∧ w.tasks[j]? = some b ∧ b.unrecorded = some r) :=
  exists_mem_set hi task' fun task => task.unrecorded = some r

theorem unrecorded_eq_none (hother : ∀ input p, task ≠ .approveAuthorization input p) :
    task.unrecorded = none := by
  unfold Task.unrecorded
  split
  · exact absurd rfl (hother _ _)
  · rfl

theorem Task.Same.approve {input : ApproveInput} {p : Progress ApprovePhase}
    (h : task.Same (.approveAuthorization input p)) : ∃ p, task = .approveAuthorization input p := by
  cases task with
  | approveAuthorization input' p' =>
    cases h
    exact ⟨p', rfl⟩
  | _ => cases h

theorem Task.Allows.pending {request : AuthorizationRequest}
    (h : task.Allows (.saveAuthorizationRequest request)) : request.status = .pending := by
  cases task with
  | startAuthorization => exact h
  | _ => cases h

theorem Task.Allows.update {request : AuthorizationRequest}
    (h : task.Allows (.updateAuthorizationRequest request)) :
    ∃ input p, task = .approveAuthorization input p := by
  cases task with
  | approveAuthorization input p => exact ⟨input, p, rfl⟩
  | _ => cases h

theorem Task.Allows.code {code : AuthorizationCodeRecord}
    (h : task.Allows (.saveAuthorizationCode code)) :
    ∃ input p, task = .approveAuthorization input p := by
  cases task with
  | approveAuthorization input p => exact ⟨input, p, rfl⟩
  | _ => cases h

/-- A step of another call: it may save a new request. -/
theorem other_step (h : task.advance S env s = some (write, task'))
    (hother : ∀ input p, task ≠ .approveAuthorization input p) :
    (∀ input p, task' ≠ .approveAuthorization input p)
      ∧ (∀ code, write ≠ .saveAuthorizationCode code)
      ∧ ((s.apply write).requests = s.requests ∨ ∃ request : AuthorizationRequest,
        write = .saveAuthorizationRequest request ∧ request.status = .pending) := by
  obtain ⟨hsame, hallows⟩ := advance_allows h
  refine ⟨?_, ?_, ?_⟩
  · rintro input p rfl
    obtain ⟨p', rfl⟩ := hsame.approve
    exact hother input p' rfl
  · rintro code rfl
    obtain ⟨input, p, rfl⟩ := hallows.code
    exact hother input p rfl
  · rw [requests_apply]
    cases write with
    | saveAuthorizationRequest request => exact .inr ⟨request, rfl, hallows.pending⟩
    | updateAuthorizationRequest request =>
      obtain ⟨input, p, rfl⟩ := hallows.update
      exact absurd rfl (hother input p)
    | _ => exact .inl rfl

theorem issued_eq_none (h : written S w e = write) (hother : ∀ code, write ≠ .saveAuthorizationCode code) :
    issued S w e = none := by
  unfold issued
  rw [h]
  cases write with
  | saveAuthorizationCode code => exact absurd rfl (hother code)
  | _ => rfl

/-- Where the table of requests stays as it is. -/
theorem Requests.frame (h : Requests S past w) (hi : w.tasks[i]? = some task)
    (hw : w' = ⟨w.store.apply write, w.tasks.set i task'⟩)
    (hrequests : (w.store.apply write).requests = w.store.requests)
    (hissued : issued S w e = none) (hunrecorded : task'.unrecorded = task.unrecorded)
    (hread : ∀ input phase request, task' = .approveAuthorization input (.running phase) →
      phase.request = some request → (w.store.requests.get? request.requestRef).isSome) :
    Requests S ((w, e) :: past) w' := by
  subst hw
  refine ⟨fun r request hrequest => h.keyed r request (hrequests ▸ hrequest), ?_, fun r => ?_⟩
  · intro other hother input phase request heq hphase
    simp only [hrequests]
    rcases List.mem_or_eq_of_mem_set hother with hmem | rfl
    · exact h.read other hmem input phase request heq hphase
    · exact hread input phase request heq hphase
  · obtain ⟨hbefore, hafter⟩ := unrecorded_set hi (w.store.apply write) task' r
    rw [issued_cons, hissued, h.counted, hbefore, hafter, hunrecorded, Approved, Approved, hrequests]
    simp

/-- A step of `approveAuthorization` itself. -/
theorem Requests.approve_step (h : Requests S past w) {input : ApproveInput} {phase : ApprovePhase}
    {p' : Progress ApprovePhase}
    (hi : w.tasks[i]? = some (.approveAuthorization input (.running phase)))
    (hstep : Approves S env w.store input phase write p') (hw : written S w e = write)
    (hw' : w' = ⟨w.store.apply write, w.tasks.set i (.approveAuthorization input p')⟩) :
    Requests S ((w, e) :: past) w' := by
  have hread := fun request => h.read _ (List.mem_of_getElem? hi) input phase request rfl
  cases hstep with
  | called =>
    refine h.frame hi hw' rfl (issued_eq_none hw nofun) rfl fun _ phase request heq hphase => ?_
    cases heq
    rw [ApprovePhase.request] at hphase
    rw [(h.keyed _ request hphase).1, hphase]
    rfl
  | refused message unissued =>
    refine h.frame hi hw' rfl (issued_eq_none hw nofun) ?_ fun _ _ _ heq => by cases heq
    cases phase with
    | codeSaved request code => exact absurd rfl (unissued request code)
    | _ => rfl
  | request request =>
    refine h.frame hi hw' rfl (issued_eq_none hw nofun) rfl fun _ _ request' heq hphase => ?_
    cases heq
    exact hread request' hphase
  | session request session =>
    refine h.frame hi hw' rfl (issued_eq_none hw nofun) rfl fun _ _ request' heq hphase => ?_
    cases heq
    exact hread request' hphase
  | client request session client pairwiseSubjectAlias pairwise =>
    refine h.frame hi hw' ?_ (issued_eq_none hw ?_) rfl fun _ _ request' heq hphase => ?_
    · rcases pairwise with rfl | ⟨key, rfl⟩ <;> rfl
    · rcases pairwise with rfl | ⟨key, rfl⟩ <;> exact nofun
    · cases heq
      exact hread request' hphase
  | code request session client pairwiseSubjectAlias =>
    -- the call goes on with an unrecorded code of the request
    subst hw'
    refine ⟨h.keyed, fun other hmem input' phase' request' heq hphase => ?_, fun r => ?_⟩
    · rcases List.mem_or_eq_of_mem_set hmem with hmem | rfl
      · exact h.read other hmem input' phase' request' heq hphase
      · cases heq
        exact hread request' hphase
    · obtain ⟨hbefore, hafter⟩ := unrecorded_set hi (w.store.apply (.saveAuthorizationCode
        (codeRecord S env input request session client pairwiseSubjectAlias)))
        (.approveAuthorization input (.running (.codeSaved request
          (opaqueToken S env "vey_code" 0)))) r
      have hissued : issued S w e
          = some (codeRecord S env input request session client pairwiseSubjectAlias) := by
        rw [issued, hw]
      rw [issued_cons, hissued, h.counted, hbefore, hafter]
      simp only [Option.mem_def, Option.some.injEq, exists_eq_left', codeRecord, Task.unrecorded,
        reduceCtorEq, false_or, Store.apply]
      tauto
  | @recorded answer request code =>
    -- the code that was unrecorded is what the request is approved for
    subst hw'
    have hkept : ∀ r, (w.store.requests.get? r).isSome →
        ((w.store.requests.set request.requestRef { request with status := .approved }).get?
          r).isSome := by
      intro r hr
      rw [Record.get?_set]
      split_ifs
      · rfl
      · exact hr
    refine ⟨fun r request' hrequest => ?_, fun other hmem input' phase' request' heq hphase => ?_,
      fun r => ?_⟩
    · simp only [requests_apply, Record.get?_set] at hrequest
      split_ifs at hrequest with hr
      · cases hrequest
        exact ⟨hr, .inr rfl⟩
      · exact h.keyed r request' hrequest
    · rcases List.mem_or_eq_of_mem_set hmem with hmem | rfl
      · exact hkept _ (h.read other hmem input' phase' request' heq hphase)
      · cases heq
    · obtain ⟨hbefore, hafter⟩ := unrecorded_set hi (w.store.apply (.updateAuthorizationRequest
        { request with status := .approved }))
        (.approveAuthorization input (.returning (.ok answer))) r
      have happroved : Approved (w.store.apply (.updateAuthorizationRequest
          { request with status := .approved })) r
            ↔ request.requestRef = r ∨ Approved w.store r := by
        simp only [Approved, requests_apply, Record.get?_set]
        split_ifs with hr
        · simp [hr]
        · simp [hr]
      have hissued := issued_eq_none hw fun _ h => by cases h
      rw [issued_cons, hissued, h.counted, hbefore, hafter, happroved]
      simp only [Option.mem_def, reduceCtorEq, false_and, exists_false, false_or, Task.unrecorded,
        Option.some.injEq]
      rw [or_left_comm, or_assoc]

theorem Requests.step (h : Requests S past w) (hnext : next S w e = some w')
    (drawn : Drawn S past w e) : Requests S ((w, e) :: past) w' := by
  rcases next_cases hnext with ⟨call, rfl, rfl⟩ | ⟨i, env, task, write, task', rfl, hi, ha, hw, rfl⟩
  · refine ⟨h.keyed, fun task htask input phase request heq hphase => ?_, fun r => ?_⟩
    · rcases List.mem_append.1 htask with htask | htask
      · exact h.read task htask input phase request heq hphase
      · rw [List.mem_singleton.1 htask] at heq
        cases call <;> cases heq
        cases hphase
    · have hcall : call.task.unrecorded = none := by cases call <;> rfl
      rw [issued_cons, h.counted r]
      simp [issued, written, Unrecorded, or_and_right, exists_or, hcall]
  by_cases happrove : ∀ input p, task ≠ .approveAuthorization input p
  · obtain ⟨hother, hcode, htable⟩ := other_step ha happrove
    have hnone := unrecorded_eq_none happrove
    have hnone' := unrecorded_eq_none hother
    have hissued := issued_eq_none hw hcode
    rcases htable with htable | ⟨request, rfl, hpending⟩
    · exact h.frame hi rfl htable hissued (hnone'.trans hnone.symm)
        fun input phase request heq => absurd heq (hother input _)
    · -- a new request is pending, and has a reference of its own
      have hnew : w.store.requests.get? request.requestRef = none := by
        rw [Drawn, hw] at drawn
        exact drawn
      refine ⟨fun r request' hrequest => ?_, fun other hmem input phase request' heq hphase => ?_,
        fun r => ?_⟩
      · simp only [requests_apply, Record.get?_set] at hrequest
        split_ifs at hrequest with hr
        · cases hrequest
          exact ⟨hr, .inl hpending⟩
        · exact h.keyed r request' hrequest
      · rcases List.mem_or_eq_of_mem_set hmem with hmem | rfl
        · have hsome := h.read other hmem input phase request' heq hphase
          simp only [requests_apply, Record.get?_set]
          split_ifs
          · rfl
          · exact hsome
        · exact absurd heq (hother input _)
      · obtain ⟨hbefore, hafter⟩ :=
          unrecorded_set hi (w.store.apply (.saveAuthorizationRequest request)) task' r
        rw [issued_cons, hissued, h.counted, hbefore, hafter, hnone, hnone', Approved, Approved,
          requests_apply, Record.get?_set]
        split_ifs with hr
        · subst hr
          simp [hnew, hpending]
        · simp
  · simp only [not_forall, not_not] at happrove
    obtain ⟨input, p, rfl⟩ := happrove
    obtain ⟨⟨write, p'⟩, hp, heq⟩ := Option.map_eq_some_iff.1 ha
    cases heq
    rcases Progress.advance_cases hp with ⟨phase, rfl, hstep⟩ | ⟨result, rfl, rfl, rfl⟩
    · exact h.approve_step hi (approves hstep) hw rfl
    · exact h.frame hi rfl rfl (issued_eq_none hw fun _ h => by cases h) rfl
        fun _ _ _ h => by cases h

theorem Run.requests (h : Run S past w) (drawn : History.Every (Drawn S) past) :
    Requests S past w := by
  induction h with
  | init =>
    refine ⟨fun r request h => ?_, fun task h => absurd h List.not_mem_nil, fun r => ?_⟩
    · simp [Store.empty] at h
    · simp [Issued, issuedCodes, Approved, Unrecorded, Store.empty]
  | step run taken ih => exact (ih drawn.2).step taken drawn.1

/-! ## One code -/

theorem oneCode_iff : ∀ past : Past, OneCode S past
    ↔ History.Every (fun past w e => ∀ code ∈ issued S w e, ¬ Issued S code.requestRef past) past
  | [] => by simp [OneCode, issuedCodes, History.Every]
  | (w, e) :: past => by
    rw [History.Every, ← oneCode_iff past, OneCode, OneCode, issuedCodes_cons]
    cases issued S w e with
    | none => simp
    | some code =>
      simp only [Option.toList_some, List.singleton_append, List.map_cons, List.nodup_cons,
        List.mem_map, Issued, Option.mem_def, Option.some.injEq, forall_eq']

/-- A code comes from a request that the store still has. -/
theorem Requests.issues {code : AuthorizationCodeRecord} (h : Requests S past w)
    (hcode : issued S w e = some code) :
    ∃ request, w.store.requests.get? code.requestRef = some request := by
  cases e with
  | call => cases hcode
  | work i env =>
    rcases hadvance : w.tasks[i]?.bind (Task.advance S env w.store) with _ | ⟨write, task'⟩
    · simp [issued, written, hadvance] at hcode
    · obtain ⟨task, hi, ha⟩ := Option.bind_eq_some_iff.1 hadvance
      have hw : write = .saveAuthorizationCode code := by
        simp only [issued, written, hadvance] at hcode
        split at hcode
        · cases hcode
          rfl
        · cases hcode
      subst hw
      obtain ⟨input, p, rfl⟩ := (advance_allows ha).2.code
      obtain ⟨⟨write, p'⟩, hp, heq⟩ := Option.map_eq_some_iff.1 ha
      cases heq
      rcases Progress.advance_cases hp with ⟨phase, rfl, hstep⟩ | ⟨result, rfl, hw, -⟩
      · cases approves hstep with
        | client _ _ _ _ pairwise => rcases pairwise with h | ⟨_, h⟩ <;> cases h
        | code request session client pairwiseSubjectAlias =>
          exact Option.isSome_iff_exists.1
            (h.read _ (List.mem_of_getElem? hi) input _ request rfl rfl)
      · cases hw

/-- In every run, that no request has two codes says that each code is issued for a request that is
still pending in the store, while no other call has a code to record. -/
theorem oneCode_iff_unraced (h : Run S past w) (drawn : History.Every (Drawn S) past) :
    OneCode S past ↔ History.Every (Unraced S) past := by
  rw [oneCode_iff]
  suffices hsuff : ∀ {past w}, Run S past w → History.Every (Drawn S) past →
      (History.Every (fun past w e => ∀ code ∈ issued S w e, ¬ Issued S code.requestRef past) past
        ↔ History.Every (Unraced S) past) from hsuff h drawn
  intro past w h drawn
  induction h with
  | init => exact Iff.rfl
  | @step past w w' e run taken ih =>
    rw [History.Every, History.Every, ih drawn.2]
    refine and_congr_left fun _ => forall₂_congr fun code hcode => ?_
    have hrequests := Run.requests run drawn.2
    obtain ⟨request, hrequest⟩ := hrequests.issues hcode
    rw [hrequests.counted, not_or, hrequest]
    refine and_congr ?_ ?_
    · rcases (hrequests.keyed _ request hrequest).2 with hstatus | hstatus <;>
        simp [Approved, hrequest, hstatus]
    · simp [Unrecorded]

/-- A call approves, and a second one comes too late. -/
theorem oneCode_iff_unraced_inTurn : ∃ past w, Run idService past w
    ∧ History.Every (Drawn idService) past ∧ (issuedCodes idService past).length = 1
    ∧ (OneCode idService past ↔ History.Every (Unraced idService) past) := by
  have hplay : (idRun (asked ++ approve :: (List.replicate 6 (workOn 3 69)
      ++ approve :: List.replicate 2 (workOn 4 71)))).map
        (fun v => decide (History.Every (Drawn idService) v.1
          ∧ (issuedCodes idService v.1).length = 1)) = some true := by
    decide +kernel
  obtain ⟨v, hv, hdecide⟩ := Option.map_eq_some_iff.1 hplay
  obtain ⟨drawn, hlength⟩ := of_decide_eq_true hdecide
  exact ⟨v.1, v.2, run_of_idRun hv, drawn, hlength, oneCode_iff_unraced (run_of_idRun hv) drawn⟩

/-- Two calls read the request before either has marked it. -/
theorem race_not_oneCode :
    ¬ ∀ S past w, Run S past w → History.Every (Drawn S) past → OneCode S past := by
  intro h
  have hplay : (idRun (asked ++ approve :: approve :: (List.replicate 4 (workOn 3 0)
      ++ List.replicate 4 (workOn 4 0) ++ [workOn 3 69, workOn 4 71]))).map
        (fun v => decide (History.Every (Drawn idService) v.1 ∧ ¬ OneCode idService v.1))
      = some true := by
    decide +kernel
  obtain ⟨v, hv, hdecide⟩ := Option.map_eq_some_iff.1 hplay
  obtain ⟨drawn, htwo⟩ := of_decide_eq_true hdecide
  exact htwo (h _ _ _ (run_of_idRun hv) drawn)

end Agid.VeygritId
