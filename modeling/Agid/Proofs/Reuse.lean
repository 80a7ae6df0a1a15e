import Agid.Proofs.Rotation

/-!
# A refresh token that is used twice

Once a family has ended, a call that starts reads it as ended.  What it would answer of a token of
the family it therefore does not: it finds an access token inactive, and refuses a refresh token.
-/

namespace Agid.VeygritId

variable {S : Service} {past newer : Past} {w w' : World} {e : Event} {env : Env} {s s' : Store}
  {i j : ℕ} {task task' : Task} {write : Write} {h familyRef : JsString}

/-! ## Calls that start after the end -/

/-- An introspection that reads the family as ended, if it reads it. -/
def ShutIntrospection (s : Store) (familyRef h : JsString) :
    Progress (ForClient IntrospectPhase) → Prop
  | .running (.within (.tokenRead (some token))) => s.access.get? h = some token
  | .running (.within (.familyRead token (some family))) =>
    s.access.get? h = some token ∧ (token.familyRef = familyRef → family.status ≠ .active)
  | .returning (.ok (.active ..)) => ∃ token, s.access.get? h = some token ∧ token.familyRef ≠ familyRef
  | .answered (.ok (.active ..)) => ∃ token, s.access.get? h = some token ∧ token.familyRef ≠ familyRef
  | _ => True

structure ShutRefresh (s : Store) (familyRef h : JsString)
    (p : Progress (ForClient RefreshPhase)) : Prop where
  family : ∀ existing family, p = .running (.within (.familyRead existing (some family))) →
    existing.familyRef = familyRef → family.status ≠ .active
  rotated : Rotated p →
    ∃ token, s.refreshTokens.get? h = some token ∧ token.familyRef ≠ familyRef

def Task.Shut (S : Service) (s : Store) (familyRef : JsString) : Task → Prop
  | .introspect accessToken p => ShutIntrospection s familyRef (S.sha256 accessToken) p
  | .introspectForClient input p => ShutIntrospection s familyRef (S.sha256 input.token) p
  | .refresh input p => ShutRefresh s familyRef (S.sha256 input.refreshToken) p
  | _ => True

theorem ShutIntrospection.grows {p : Progress (ForClient IntrospectPhase)}
    (hshut : ShutIntrospection s familyRef h p) (hgrows : Grows s s') :
    ShutIntrospection s' familyRef h p := by
  unfold ShutIntrospection at hshut ⊢
  split at hshut
  · exact hgrows.access _ _ hshut
  · exact ⟨hgrows.access _ _ hshut.1, hshut.2⟩
  · obtain ⟨token, htoken, href⟩ := hshut
    exact ⟨token, hgrows.access _ _ htoken, href⟩
  · obtain ⟨token, htoken, href⟩ := hshut
    exact ⟨token, hgrows.access _ _ htoken, href⟩
  · trivial

theorem ShutRefresh.grows {p : Progress (ForClient RefreshPhase)}
    (hshut : ShutRefresh s familyRef h p) (hgrows : Grows s s') : ShutRefresh s' familyRef h p where
  family := hshut.family
  rotated hp := by
    obtain ⟨token, htoken, href⟩ := hshut.rotated hp
    obtain ⟨token', htoken', href', -⟩ := hgrows.refresh h token htoken
    exact ⟨token', htoken', href' ▸ href⟩

theorem Task.Shut.grows (hshut : task.Shut S s familyRef) (hgrows : Grows s s') :
    task.Shut S s' familyRef := by
  cases task with
  | refresh => exact ShutRefresh.grows hshut hgrows
  | introspect => exact ShutIntrospection.grows hshut hgrows
  | introspectForClient => exact ShutIntrospection.grows hshut hgrows
  | _ => trivial

theorem Task.Shut.of_call (S : Service) (s : Store) (familyRef : JsString) (call : Call) :
    call.task.Shut S s familyRef := by
  cases call with
  | refresh => exact ⟨fun _ _ h => (by cases h), fun h => h.elim⟩
  | _ => trivial

/-- The steps of an introspection from the token on. -/
theorem introspected {clientId : Option JsString} {phase : IntrospectPhase}
    {p' : Progress (ForClient IntrospectPhase)}
    (hstep : introspectToken env s clientId phase = (write, p')) :
    p' = .answered (.ok .inactive)
      ∨ (∃ token, phase = .tokenRead (some token)
        ∧ p' = .running (.within (.familyRead token (s.families.get? token.familyRef))))
      ∨ ∃ token family answer, phase = .familyRead token (some family) ∧ family.status = .active
        ∧ p' = .answered (.ok answer) := by
  cases phase with
  | tokenRead token =>
    simp only [introspectToken] at hstep
    split at hstep
    · cases hstep
      exact .inl rfl
    · rename_i token' hfound
      cases hstep
      obtain ⟨rfl, -⟩ := Option.filter_eq_some_iff.1 hfound
      exact .inr (.inl ⟨token', rfl, rfl⟩)
  | familyRead token family =>
    simp only [introspectToken] at hstep
    split at hstep
    · cases hstep
      exact .inl rfl
    · rename_i family' hfound
      obtain ⟨rfl, hactive⟩ := Option.filter_eq_some_iff.1 hfound
      split_ifs at hstep
      · cases hstep
        exact .inl rfl
      · cases hstep
        exact .inr (.inr ⟨token, family', _, rfl, of_decide_eq_true hactive, rfl⟩)

theorem ShutIntrospection.step {clientId : Option JsString} {phase : IntrospectPhase}
    {p' : Progress (ForClient IntrospectPhase)} (hdead : Dead s familyRef)
    (hshut : ShutIntrospection s familyRef h (.running (.within phase)))
    (hstep : introspectToken env s clientId phase = (write, p')) :
    ShutIntrospection s familyRef h p' := by
  rcases introspected hstep with rfl | ⟨token, rfl, rfl⟩ | ⟨token, family, answer, rfl, hactive, rfl⟩
  · trivial
  · rcases hfamily : s.families.get? token.familyRef with _ | family
    · trivial
    · refine ⟨hshut, ?_⟩
      rintro rfl
      obtain ⟨family', hfamily', hended⟩ := hdead
      rw [hfamily] at hfamily'
      cases hfamily'
      exact hended
  · cases answer with
    | active => exact ⟨token, hshut.1, fun href => hshut.2 href hactive⟩
    | _ => trivial

/-- An introspection, for a client or not, is called, reads the token and goes on from there. -/
theorem ShutIntrospection.advance {step : ForClient IntrospectPhase →
      Write × Progress (ForClient IntrospectPhase)} {clientId : Option JsString}
    {p p' : Progress (ForClient IntrospectPhase)} (hdead : Dead s familyRef)
    (hshut : ShutIntrospection s familyRef h p) (ha : p.advance step = some (write, p'))
    (early : ∀ phase, (∀ q, phase ≠ .within q) → ∀ write p', step phase = (write, p') →
      (∃ message, p' = .answered (.error message)) ∨ (∃ client, p' = .running (.clientRead client))
        ∨ p' = .running (.within (.tokenRead (s.access.get? h))))
    (within : ∀ phase, step (.within phase) = introspectToken env s clientId phase) :
    ShutIntrospection s familyRef h p' := by
  rcases Progress.advance_cases ha with ⟨phase, rfl, hstep⟩ | ⟨result, rfl, -, rfl⟩
  · by_cases hphase : ∃ q, phase = .within q
    · obtain ⟨q, rfl⟩ := hphase
      rw [within] at hstep
      exact hshut.step hdead hstep
    · rcases early phase (fun q hq => hphase ⟨q, hq⟩) write p' hstep with
        ⟨message, rfl⟩ | ⟨client, rfl⟩ | rfl
      · trivial
      · trivial
      · rcases htoken : s.access.get? h with _ | token
        · trivial
        · exact htoken
  · cases result with
    | ok answer => cases answer <;> exact hshut
    | error => trivial

theorem ShutRefresh.advance {input : RefreshInput} {p : Progress (ForClient RefreshPhase)}
    (hdead : Dead s familyRef) (hsound : Sound S s (.refresh input p))
    (hshut : ShutRefresh s familyRef (S.sha256 input.refreshToken) p)
    (ha : (Task.refresh input p).advance S env s = some (write, task')) :
    ∃ p', task' = .refresh input p' ∧ ShutRefresh s familyRef (S.sha256 input.refreshToken) p' := by
  obtain ⟨p', rfl, ⟨phase, rfl, hstep⟩ | ⟨result, rfl, rfl, rfl⟩⟩ := refresh_cases ha
  · refine ⟨p', rfl, ?_⟩
    cases hstep with
    | token existing =>
      refine ⟨fun existing' family hp href => ?_, fun hp => hp.elim⟩
      injection hp with hp
      injection hp with hp
      injection hp with hexisting hfamily
      subst hexisting
      obtain ⟨family', hfamily', hended⟩ := hdead
      rw [href, hfamily'] at hfamily
      cases hfamily
      exact hended
    | rotated existing found family checked unconsumed =>
      refine ⟨fun _ _ hp => (by cases hp), fun _ => ?_⟩
      obtain ⟨rfl, hchecked⟩ := Option.filter_eq_some_iff.1 checked
      obtain ⟨⟨token, htoken, href, -⟩, -⟩ := hsound.family input existing _ rfl
      refine ⟨token, htoken, fun hfamily => hshut.family existing family rfl ?_ ?_⟩
      · rw [← href, hfamily]
      · exact (of_decide_eq_true hchecked).2.1
    | access => exact ⟨fun _ _ hp => (by cases hp), fun _ => hshut.rotated trivial⟩
    | saved => exact ⟨fun _ _ hp => (by cases hp), fun _ => hshut.rotated trivial⟩
    | _ => exact ⟨fun _ _ hp => (by cases hp), fun hp => hp.elim⟩
  · refine ⟨_, rfl, fun _ _ hp => (by cases hp), fun hp => ?_⟩
    cases result with
    | ok => exact hshut.rotated trivial
    | error => exact hp.elim

theorem Task.Shut.advance (hdead : Dead s familyRef) (hsound : Sound S s task)
    (hshut : task.Shut S s familyRef) (ha : task.advance S env s = some (write, task')) :
    task'.Shut S s familyRef := by
  cases task with
  | refresh input p =>
    obtain ⟨p', rfl, hshut'⟩ := ShutRefresh.advance hdead hsound hshut ha
    exact hshut'
  | introspect accessToken p =>
    obtain ⟨⟨write, p'⟩, hp, heq⟩ := Option.map_eq_some_iff.1 ha
    cases heq
    refine ShutIntrospection.advance hdead hshut hp (fun phase hphase write p' hstep => ?_)
      fun _ => rfl
    cases phase with
    | called =>
      cases hstep
      exact .inr (.inr rfl)
    | clientRead =>
      cases hstep
      exact .inl ⟨_, rfl⟩
    | within q => exact absurd rfl (hphase q)
  | introspectForClient input p =>
    obtain ⟨⟨write, p'⟩, hp, heq⟩ := Option.map_eq_some_iff.1 ha
    cases heq
    refine ShutIntrospection.advance hdead hshut hp (fun phase hphase write p' hstep => ?_)
      fun _ => rfl
    cases phase with
    | called =>
      cases hstep
      exact .inr (.inl ⟨_, rfl⟩)
    | clientRead client =>
      rcases forClient_cases hstep with ⟨client', hstep⟩ | ⟨-, message, rfl⟩
      · cases hstep
        exact .inr (.inr rfl)
      · exact .inl ⟨message, rfl⟩
    | within q => exact absurd rfl (hphase q)
  | _ =>
    obtain ⟨hsame, -⟩ := advance_allows ha
    cases task' <;> trivial

theorem Task.Shut.refuses (hshut : task.Shut S s familyRef) : task.Refuses S s familyRef := by
  unfold Task.Refuses
  split
  · obtain ⟨token, htoken, href⟩ := hshut
    rintro token' htoken'
    rw [htoken] at htoken'
    cases htoken'
    exact href
  · obtain ⟨token, htoken, href⟩ := hshut
    rintro token' htoken'
    rw [htoken] at htoken'
    cases htoken'
    exact href
  · obtain ⟨token, htoken, href⟩ := hshut.rotated trivial
    rintro token' htoken'
    rw [htoken] at htoken'
    cases htoken'
    exact href
  · trivial

/-! ## Runs -/

/-- A family that has ended stays so, and the calls that start from then on are shut. -/
theorem shut_later (run : Run S past w) (drawn : History.Every (Drawn S) past)
    (hdead : Dead w.store familyRef) (hnewer : History.Run (next S) w newer w')
    (hdrawn : History.Every (Drawn S) newer) :
    Dead w'.store familyRef ∧ ∀ (k : ℕ) task, w.tasks.length ≤ k → w'.tasks[k]? = some task →
      task.Shut S w'.store familyRef := by
  induction hnewer with
  | init =>
    refine ⟨hdead, fun k task hk htask => ?_⟩
    rw [List.getElem?_eq_none hk] at htask
    cases htask
  | @step newer v v' e hrun taken ih =>
    obtain ⟨hdead', hshut⟩ := ih hdrawn.2
    have hgrows := next_grows taken hdrawn.1
    have inv := Run.rotation (History.Run.append run hrun)
      (drawn.append (fun _ _ _ _ => id) hdrawn.2)
    refine ⟨hdead'.grows hgrows, fun k task hk htask => ?_⟩
    rcases next_cases taken with ⟨call, rfl, rfl⟩ | ⟨i, env, was, write, task', rfl, hi, ha, hw, rfl⟩
    · rcases lt_or_ge k v.tasks.length with hlt | hge
      · rw [List.getElem?_append_left hlt] at htask
        exact hshut k task hk htask
      · rw [List.getElem?_append_right hge] at htask
        rw [List.mem_singleton.1 (List.mem_of_getElem? htask)]
        exact .of_call S _ familyRef call
    · by_cases hki : k = i
      · subst hki
        rw [List.getElem?_set_self (List.getElem?_eq_some_iff.1 hi).1] at htask
        cases htask
        exact ((hshut k was hk hi).advance hdead' (inv.sound was (List.mem_of_getElem? hi)) ha).grows
          hgrows
      · rw [List.getElem?_set_ne (Ne.symm hki)] at htask
        exact (hshut k task hk htask).grows hgrows

theorem Run.ended (run : Run S past w) (drawn : History.Every (Drawn S) past)
    (hdead : Dead w.store familyRef) : Ended S past w familyRef := by
  obtain ⟨family, hfamily, hended⟩ := hdead
  refine ⟨family, hfamily, ?_⟩
  rcases hstatus : family.status with _ | _ | _
  · exact absurd hstatus hended
  · exact .inr ⟨rfl, (run.rotation drawn).revoked familyRef family hfamily hstatus⟩
  · exact .inl rfl

theorem two_le_length_of_mem {α : Type} {l : List α} {a b : α} (hab : a ≠ b) (ha : a ∈ l)
    (hb : b ∈ l) : 2 ≤ l.length := by
  match l with
  | [] => cases ha
  | [c] => exact absurd ((List.mem_singleton.1 ha).trans (List.mem_singleton.1 hb).symm) hab
  | _ :: _ :: _ => simp

/-- Of two refreshes with one token of the client's own that has not expired, one succeeds at most,
and its family is at an end. -/
theorem reuse_endsFamily (run : Run S past w) (drawn : History.Every (Drawn S) past) (hij : i ≠ j)
    (hi : i ∈ presentations S h past) (hj : j ∈ presentations S h past) :
    ¬ (Succeeded w i ∧ Succeeded w j) ∧ EndsFamily S past w h := by
  have inv := run.rotation drawn
  constructor
  · rintro ⟨⟨inputᵢ, answerᵢ, hi'⟩, inputⱼ, answerⱼ, hj'⟩
    obtain ⟨_, _, hi'', hhashᵢ⟩ := inv.presenters h i hi
    obtain ⟨_, _, hj'', hhashⱼ⟩ := inv.presenters h j hj
    rw [hi'] at hi''
    rw [hj'] at hj''
    cases hi''
    cases hj''
    exact hij (inv.single i j _ _ _ _ hi' hj' trivial trivial (hhashᵢ.trans hhashⱼ.symm))
  · obtain ⟨token, htoken, hdead⟩ := inv.dead h (two_le_length_of_mem hij hi hj)
    refine ⟨token, htoken, fun newer w' hnewer hdrawn => ?_⟩
    obtain ⟨hdead', hshut⟩ := shut_later run drawn hdead hnewer hdrawn
    exact ⟨Run.ended (History.Run.append run hnewer) (drawn.append (fun _ _ _ _ => id) hdrawn) hdead',
      fun k task hk htask => (hshut k task hk htask).refuses⟩

def rotate (letter : ℕ) : Event := .call (.refresh {
  refreshToken := secretOf "vey_refresh" letter
  clientId := js "store-one"
  clientSecret := none })

def exchanged : List Event :=
  asked ++ approve :: (List.replicate 6 (workOn 3 69) ++ exchange :: List.replicate 6 (workOn 4 73))

/-- A token is exchanged for another, and presented again meanwhile. -/
theorem reuse_endsFamily_raced : ∃ past w i j h, Run idService past w
    ∧ History.Every (Drawn idService) past ∧ i ≠ j ∧ i ∈ presentations idService h past
    ∧ j ∈ presentations idService h past ∧ w.store.access.entries.length = 2
    ∧ ¬ (Succeeded w i ∧ Succeeded w j) ∧ EndsFamily idService past w h := by
  have hplay : (idRun (exchanged ++ rotate 76 :: rotate 76 :: (List.replicate 3 (workOn 5 0)
      ++ List.replicate 3 (workOn 6 0) ++ workOn 5 78 :: workOn 6 82 :: workOn 6 0
        :: List.replicate 3 (workOn 5 80)))).map
        (fun v => decide (History.Every (Drawn idService) v.1
          ∧ 5 ∈ presentations idService (idService.sha256 (secretOf "vey_refresh" 76)) v.1
          ∧ 6 ∈ presentations idService (idService.sha256 (secretOf "vey_refresh" 76)) v.1
          ∧ v.2.store.access.entries.length = 2))
      = some true := by
    decide +kernel
  obtain ⟨v, hv, hdecide⟩ := Option.map_eq_some_iff.1 hplay
  obtain ⟨drawn, hfive, hsix, hlength⟩ := of_decide_eq_true hdecide
  exact ⟨v.1, v.2, 5, 6, _, run_of_idRun hv, drawn, by decide, hfive, hsix, hlength,
    reuse_endsFamily (run_of_idRun hv) drawn (by decide) hfive hsix⟩

/-- A family that is revoked between two presentations of a token is not compromised by the second. -/
theorem revoked_between_not_compromised :
    ¬ ∀ S past w i j h, Run S past w → History.Every (Drawn S) past → i ≠ j →
      i ∈ presentations S h past → j ∈ presentations S h past →
      (w.tasks[i]?.any Task.answeredRefresh ∧ w.tasks[j]?.any Task.answeredRefresh) →
      ∃ token ∈ w.store.refreshTokens.get? h, ∃ family ∈ w.store.families.get? token.familyRef,
        family.status = .compromised := by
  intro hall
  have hplay : (idRun (exchanged ++ rotate 76 :: (List.replicate 3 (workOn 5 0)
      ++ workOn 5 78 :: List.replicate 3 (workOn 5 80)
      ++ .call (.revoke (secretOf "vey_refresh" 76)) :: List.replicate 4 (workOn 6 0)
      ++ rotate 76 :: List.replicate 4 (workOn 7 0)))).map
        (fun v => decide (History.Every (Drawn idService) v.1
          ∧ 5 ∈ presentations idService (idService.sha256 (secretOf "vey_refresh" 76)) v.1
          ∧ 7 ∈ presentations idService (idService.sha256 (secretOf "vey_refresh" 76)) v.1
          ∧ (v.2.tasks[5]?.any Task.answeredRefresh ∧ v.2.tasks[7]?.any Task.answeredRefresh)
          ∧ ∀ family ∈ v.2.store.families.values, family.status ≠ .compromised))
      = some true := by
    decide +kernel
  obtain ⟨v, hv, hdecide⟩ := Option.map_eq_some_iff.1 hplay
  obtain ⟨drawn, hfive, hseven, hanswered, hstatus⟩ := of_decide_eq_true hdecide
  obtain ⟨token, -, family, hfamily, hcompromised⟩ :=
    hall _ _ _ 5 7 _ (run_of_idRun hv) drawn (by decide) hfive hseven hanswered
  exact hstatus family (Record.mem_values.2 ⟨_, hfamily⟩) hcompromised

end Agid.VeygritId
