import Agid.VeygritIdRuns
import Agid.Proofs.SecurePos

/-!
# What a step of Veygrit ID does

A step starts a call or takes one from an `await` to the next.  Which tables it can write is said
once for each kind of call.
-/

namespace Agid.VeygritId

variable {S : Service} {past : Past} {w w' : World} {e : Event} {env : Env} {s : Store} {i : ℕ}
  {task task' : Task} {write : Write}

theorem next_cases (h : next S w e = some w') :
    (∃ call, e = .call call ∧ w' = { w with tasks := w.tasks ++ [call.task] })
      ∨ ∃ i env task write task', e = .work i env ∧ w.tasks[i]? = some task
        ∧ task.advance S env w.store = some (write, task') ∧ written S w e = write
        ∧ w' = ⟨w.store.apply write, w.tasks.set i task'⟩ := by
  cases e with
  | call call =>
    simp only [next, Option.some.injEq] at h
    exact .inl ⟨call, rfl, h.symm⟩
  | work i env =>
    simp only [next] at h
    split at h
    · rename_i write task' hadvance
      cases h
      obtain ⟨task, htask, hadvance'⟩ := Option.bind_eq_some_iff.1 hadvance
      exact .inr ⟨i, env, task, write, task', rfl, htask, hadvance', by simp [written, hadvance],
        rfl⟩
    · cases h

/-- A list of calls after one of them has gone on. -/
theorem exists_mem_set {α : Type} {l : List α} {i : ℕ} {a : α} (hi : l[i]? = some a) (a' : α)
    (p : α → Prop) :
    ((∃ b ∈ l, p b) ↔ p a ∨ ∃ (j : ℕ) (b : α), j ≠ i ∧ l[j]? = some b ∧ p b)
      ∧ ((∃ b ∈ l.set i a', p b) ↔ p a' ∨ ∃ (j : ℕ) (b : α), j ≠ i ∧ l[j]? = some b ∧ p b) := by
  obtain ⟨hlt, rfl⟩ := List.getElem?_eq_some_iff.1 hi
  constructor
  · constructor
    · rintro ⟨b, hb, hp⟩
      obtain ⟨j, hj⟩ := List.mem_iff_getElem?.1 hb
      by_cases hji : j = i
      · subst hji
        rw [hi] at hj
        cases hj
        exact .inl hp
      · exact .inr ⟨j, b, hji, hj, hp⟩
    · rintro (hp | ⟨j, b, -, hj, hp⟩)
      · exact ⟨_, List.mem_of_getElem? hi, hp⟩
      · exact ⟨b, List.mem_of_getElem? hj, hp⟩
  · constructor
    · rintro ⟨b, hb, hp⟩
      obtain ⟨j, hj⟩ := List.mem_iff_getElem?.1 hb
      rw [List.getElem?_set] at hj
      split_ifs at hj with hij
      · cases hj
        exact .inl hp
      · exact .inr ⟨j, b, Ne.symm hij, hj, hp⟩
    · rintro (hp | ⟨j, b, hji, hj, hp⟩)
      · exact ⟨a', List.mem_iff_getElem?.2 ⟨i, by rw [List.getElem?_set_self hlt]⟩, hp⟩
      · exact ⟨b, List.mem_iff_getElem?.2 ⟨j, by rw [List.getElem?_set_ne (Ne.symm hji), hj]⟩, hp⟩

/-- The same call, however far it has come. -/
def Task.Same : Task → Task → Prop
  | .registerClient a _, .registerClient b _ => a = b
  | .establishSocialSession a _, .establishSocialSession b _ => a = b
  | .startAuthorization a _, .startAuthorization b _ => a = b
  | .approveAuthorization a _, .approveAuthorization b _ => a = b
  | .exchangeAuthorizationCode a _, .exchangeAuthorizationCode b _ => a = b
  | .refresh a _, .refresh b _ => a = b
  | .introspect a _, .introspect b _ => a = b
  | .introspectForClient a _, .introspectForClient b _ => a = b
  | .revoke a _, .revoke b _ => a = b
  | .revokeForClient a _, .revokeForClient b _ => a = b
  | _, _ => False

/-- What each kind of call writes. -/
def Task.Allows : Task → Write → Prop
  | _, .nothing => True
  | .registerClient .., .saveClient _ => True
  | .establishSocialSession .., .createSubject .. => True
  | .establishSocialSession .., .saveSession _ => True
  | .startAuthorization .., .saveAuthorizationRequest request => request.status = .pending
  | .approveAuthorization .., .createPairwiseSubject .. => True
  | .approveAuthorization .., .saveAuthorizationCode _ => True
  | .approveAuthorization .., .updateAuthorizationRequest _ => True
  | .exchangeAuthorizationCode .., .consumeAuthorizationCode .. => True
  | .exchangeAuthorizationCode .., .saveTokenFamily family => family.status = .active
  | .exchangeAuthorizationCode .., .saveAccessToken _ => True
  | .exchangeAuthorizationCode .., .saveRefreshToken _ => True
  | .refresh .., .revokeFamily _ status => status = .compromised
  | .refresh .., .consumeRefreshToken .. => True
  | .refresh .., .saveAccessToken _ => True
  | .refresh .., .saveRefreshToken _ => True
  | .revoke .., .revokeFamily _ status => status = .revoked
  | .revokeForClient .., .revokeFamily _ status => status = .revoked
  | _, _ => False

/-- What is asked of a step of a call holds of it, if it holds of its steps from phase to phase. -/
theorem Progress.advance_cases {α : Type} {step : α → Write × Progress α} {p p' : Progress α}
    (h : p.advance step = some (write, p')) :
    (∃ phase, p = .running phase ∧ step phase = (write, p'))
      ∨ ∃ result, p = .returning result ∧ write = .nothing ∧ p' = .answered result := by
  cases p with
  | running phase => exact .inl ⟨phase, rfl, Option.some.inj h⟩
  | returning result =>
    cases h
    exact .inr ⟨result, rfl, rfl, rfl⟩
  | answered => cases h

theorem forClient_cases {α : Type} {client : Option OAuthClient} {clientSecret : Option JsString}
    {k : OAuthClient → Write × Progress (ForClient α)} {p' : Progress (ForClient α)}
    (h : forClient S client clientSecret k = (write, p')) :
    (∃ client, k client = (write, p'))
      ∨ write = .nothing ∧ ∃ message, p' = .answered (.error message) := by
  unfold forClient at h
  split at h
  · exact .inl ⟨_, h⟩
  · cases h
    exact .inr ⟨rfl, _, rfl⟩

/-! ## Authorization -/

/-- The steps of `startAuthorization`. -/
inductive Starts (S : Service) (env : Env) (s : Store) (input : StartInput) :
    StartPhase → Write → Progress StartPhase → Prop
  | called : Starts S env s input .called .nothing
      (.running (.clientRead (s.clients.get? input.clientId)))
  | refused {phase : StartPhase} (message : JsString) :
      Starts S env s input phase .nothing (.answered (.error message))
  | saved {client : Option OAuthClient} {answer : Answer} (request : AuthorizationRequest)
      (pending : request.status = .pending) : Starts S env s input (.clientRead client)
        (.saveAuthorizationRequest request) (.returning (.ok answer))

theorem startedRequest_pending {client : OAuthClient} {input : StartInput}
    {request : AuthorizationRequest} (h : startedRequest S env client input = .ok request) :
    request.status = .pending := by
  obtain ⟨redirectUri, -, h⟩ := bind_eq_ok.1 h
  by_cases huri : redirectUri ∉ client.redirectUris
  · rw [if_pos huri] at h
    cases h
  rw [if_neg huri] at h
  obtain ⟨origin, -, h⟩ := bind_eq_ok.1 h
  obtain ⟨scopes, -, h⟩ := bind_eq_ok.1 h
  split_ifs at h
  cases h
  rfl

theorem starts {input : StartInput} {phase : StartPhase} {p' : Progress StartPhase}
    (h : startAuthorization S env s input phase = (write, p')) :
    Starts S env s input phase write p' := by
  cases phase with
  | called =>
    cases h
    exact .called
  | clientRead client =>
    simp only [startAuthorization] at h
    split at h
    · cases h
      exact .refused _
    · split at h
      · cases h
        exact .refused _
      · rename_i request hrequest
        cases h
        exact .saved request (startedRequest_pending hrequest)

/-- The steps of `approveAuthorization`. -/
inductive Approves (S : Service) (env : Env) (s : Store) (input : ApproveInput) :
    ApprovePhase → Write → Progress ApprovePhase → Prop
  | called : Approves S env s input .called .nothing
      (.running (.requestRead (s.requests.get? input.requestRef)))
  | refused {phase : ApprovePhase} (message : JsString)
      (unissued : ∀ request code, phase ≠ .codeSaved request code) :
      Approves S env s input phase .nothing (.answered (.error message))
  | request (request : AuthorizationRequest) : Approves S env s input
      (.requestRead (some request)) .nothing
      (.running (.sessionRead request (s.sessions.get? (S.sha256 input.sessionToken))))
  | session (request : AuthorizationRequest) (session : IdentitySession) : Approves S env s input
      (.sessionRead request (some session)) .nothing
      (.running (.clientRead request session (s.clients.get? request.clientId)))
  | client {write : Write} (request : AuthorizationRequest) (session : IdentitySession)
      (client : OAuthClient) (pairwiseSubjectAlias : JsString)
      (pairwise : write = .nothing ∨ ∃ key, write = .createPairwiseSubject key pairwiseSubjectAlias) :
      Approves S env s input (.clientRead request session (some client)) write
        (.running (.pairwiseRead request session client pairwiseSubjectAlias))
  | code (request : AuthorizationRequest) (session : IdentitySession) (client : OAuthClient)
      (pairwiseSubjectAlias : JsString) :
      Approves S env s input (.pairwiseRead request session client pairwiseSubjectAlias)
        (.saveAuthorizationCode (codeRecord S env input request session client pairwiseSubjectAlias))
        (.running (.codeSaved request (opaqueToken S env "vey_code" 0)))
  | recorded {answer : Answer} (request : AuthorizationRequest) (code : OpaqueToken) :
      Approves S env s input (.codeSaved request code)
        (.updateAuthorizationRequest { request with status := .approved }) (.returning (.ok answer))

theorem checkRequest_eq_ok {input : ApproveInput} {found : Option AuthorizationRequest}
    {request : AuthorizationRequest} (h : checkRequest S env input found = .ok request) :
    found = some request := by
  unfold checkRequest at h
  split at h
  · cases h
  · rename_i request' hfound
    split_ifs at h
    cases h
    exact (Option.filter_eq_some_iff.1 hfound).1

theorem approves {input : ApproveInput} {phase : ApprovePhase} {p' : Progress ApprovePhase}
    (h : approveAuthorization S env s input phase = (write, p')) :
    Approves S env s input phase write p' := by
  cases phase with
  | called =>
    cases h
    exact .called
  | requestRead found =>
    simp only [approveAuthorization] at h
    split at h
    · cases h
      exact .refused _ fun _ _ h => by cases h
    · rename_i request hrequest
      cases h
      rw [checkRequest_eq_ok hrequest]
      exact .request request
  | sessionRead request found =>
    simp only [approveAuthorization] at h
    split at h
    · cases h
      exact .refused _ fun _ _ h => by cases h
    · rename_i session hsession
      cases h
      rw [(Option.filter_eq_some_iff.1 hsession).1]
      exact .session request session
  | clientRead request session found =>
    simp only [approveAuthorization] at h
    split at h
    · cases h
      exact .refused _ fun _ _ h => by cases h
    · rename_i client
      split_ifs at h
      · cases h
        exact .refused _ fun _ _ h => by cases h
      · cases h
        refine .client request session client _ ?_
        unfold getOrCreatePairwiseSubject
        split
        · exact .inl rfl
        · exact .inr ⟨_, rfl⟩
  | pairwiseRead request session client pairwiseSubjectAlias =>
    cases h
    exact .code request session client pairwiseSubjectAlias
  | codeSaved request code =>
    cases h
    exact .recorded request code

/-! ## Tokens -/

/-- The steps of `exchangeAuthorizationCode`. -/
inductive Exchanges (S : Service) (env : Env) (s : Store) (input : ExchangeInput) :
    ForClient ExchangePhase → Write → Progress (ForClient ExchangePhase) → Prop
  | called : Exchanges S env s input .called .nothing
      (.running (.clientRead (s.clients.get? input.clientId)))
  | refused {phase : ForClient ExchangePhase} (message : JsString)
      (early : ∀ record issue, phase ≠ .within (.familySaved record issue)
        ∧ phase ≠ .within (.accessSaved record issue)) :
      Exchanges S env s input phase .nothing (.answered (.error message))
  | consumed (client : Option OAuthClient) : Exchanges S env s input (.clientRead client)
      (.consumeAuthorizationCode (S.sha256 input.code) env.now)
      (.running (.within (.consumed ((s.openCode (S.sha256 input.code)).map (·.consume env.now)))))
  | unbound (record : AuthorizationCodeRecord) (message : JsString) :
      Exchanges S env s input (.within (.consumed (some record))) .nothing
        (.returning (.error message))
  | issued (record : AuthorizationCodeRecord) (bound : checkBinding S env input record = .ok ()) :
      Exchanges S env s input (.within (.consumed (some record)))
        (.saveTokenFamily (issueTokenFamily S env record).family)
        (.running (.within (.familySaved record (issueTokenFamily S env record))))
  | access (record : AuthorizationCodeRecord) (issue : Issue) :
      Exchanges S env s input (.within (.familySaved record issue))
        (.saveAccessToken (issue.accessRecord S)) (.running (.within (.accessSaved record issue)))
  | refresh {answer : Answer} (record : AuthorizationCodeRecord) (issue : Issue) :
      Exchanges S env s input (.within (.accessSaved record issue))
        (.saveRefreshToken (issue.refreshRecord S)) (.returning (.ok answer))

theorem exchanges {input : ExchangeInput} {phase : ForClient ExchangePhase}
    {p' : Progress (ForClient ExchangePhase)}
    (h : exchangeAuthorizationCode S env s input phase = (write, p')) :
    Exchanges S env s input phase write p' := by
  cases phase with
  | called =>
    cases h
    exact .called
  | clientRead client =>
    simp only [exchangeAuthorizationCode] at h
    rcases forClient_cases h with ⟨client', h⟩ | ⟨rfl, message, rfl⟩
    · split_ifs at h
      · cases h
        exact .consumed client
      · cases h
        exact .refused _ fun _ _ => ⟨nofun, nofun⟩
    · exact .refused _ fun _ _ => ⟨nofun, nofun⟩
  | within phase =>
    cases phase with
    | consumed record =>
      cases record with
      | none =>
        cases h
        exact .refused _ fun _ _ => ⟨nofun, nofun⟩
      | some record =>
        simp only [exchangeAuthorizationCode] at h
        split at h
        · cases h
          exact .unbound record _
        · rename_i bound
          cases h
          exact .issued record bound
    | familySaved record issue =>
      cases h
      exact .access record issue
    | accessSaved record issue =>
      cases h
      exact .refresh record issue

/-- The steps of `refresh`. -/
inductive Refreshes (S : Service) (env : Env) (s : Store) (input : RefreshInput) :
    ForClient RefreshPhase → Write → Progress (ForClient RefreshPhase) → Prop
  | called : Refreshes S env s input .called .nothing
      (.running (.clientRead (s.clients.get? input.clientId)))
  | client (client : Option OAuthClient) : Refreshes S env s input (.clientRead client) .nothing
      (.running (.within (.tokenRead (s.refreshTokens.get? (S.sha256 input.refreshToken)))))
  | refused {phase : ForClient RefreshPhase} (message : JsString)
      (early : phase ≠ .called ∧ ∀ existing family, phase ≠ .within (.familyRead existing family)) :
      Refreshes S env s input phase .nothing (.answered (.error message))
  | token (existing : RefreshTokenRecord) : Refreshes S env s input
      (.within (.tokenRead (some existing))) .nothing
      (.running (.within (.familyRead existing (s.families.get? existing.familyRef))))
  | inactive {message : JsString} (existing : RefreshTokenRecord) (found : Option TokenFamily)
      (unchecked : checkFamily env input existing found = none) : Refreshes S env s input
        (.within (.familyRead existing found)) .nothing (.answered (.error message))
  | reused {message : JsString} (existing : RefreshTokenRecord) (found : Option TokenFamily)
      (family : TokenFamily) (checked : checkFamily env input existing found = some family)
      (consumed : (s.refreshTokens.get? (S.sha256 input.refreshToken)).any (·.consumedAt ≠ none)) :
      Refreshes S env s input (.within (.familyRead existing found))
        (.revokeFamily family.familyRef .compromised) (.returning (.error message))
  | rotated (existing : RefreshTokenRecord) (found : Option TokenFamily) (family : TokenFamily)
      (checked : checkFamily env input existing found = some family)
      (unconsumed : ¬ (s.refreshTokens.get? (S.sha256 input.refreshToken)).any
        (·.consumedAt ≠ none)) : Refreshes S env s input (.within (.familyRead existing found))
        (.consumeRefreshToken (S.sha256 input.refreshToken) env.now
          (opaqueToken S env "vey_refresh" 0).ref)
        (.running (.within (.consumed family ((s.openRefreshToken (S.sha256 input.refreshToken)).map
          (·.consume env.now (opaqueToken S env "vey_refresh" 0).ref))
          (opaqueToken S env "vey_refresh" 0))))
  | raced {message : JsString} (family : TokenFamily) (replacement : OpaqueToken) :
      Refreshes S env s input (.within (.consumed family none replacement))
        (.revokeFamily family.familyRef .compromised) (.returning (.error message))
  | access (family : TokenFamily) (consumed : RefreshTokenRecord) (replacement : OpaqueToken)
      (issue : Issue) (same : issue.family = family) : Refreshes S env s input
        (.within (.consumed family (some consumed) replacement))
        (.saveAccessToken (issue.accessRecord S)) (.running (.within (.accessSaved issue)))
  | saved {answer : Answer} (issue : Issue) : Refreshes S env s input (.within (.accessSaved issue))
      (.saveRefreshToken (issue.refreshRecord S)) (.returning (.ok answer))

theorem refreshes {input : RefreshInput} {phase : ForClient RefreshPhase}
    {p' : Progress (ForClient RefreshPhase)} (h : refresh S env s input phase = (write, p')) :
    Refreshes S env s input phase write p' := by
  cases phase with
  | called =>
    cases h
    exact .called
  | clientRead client =>
    simp only [refresh] at h
    rcases forClient_cases h with ⟨client', h⟩ | ⟨rfl, message, rfl⟩
    · cases h
      exact .client client
    · exact .refused _ ⟨nofun, nofun⟩
  | within phase =>
    cases phase with
    | tokenRead existing =>
      cases existing with
      | none =>
        cases h
        exact .refused _ ⟨nofun, nofun⟩
      | some existing =>
        cases h
        exact .token existing
    | familyRead existing found =>
      simp only [refresh] at h
      split at h
      · rename_i unchecked
        cases h
        exact .inactive existing found unchecked
      · rename_i family checked
        split_ifs at h with hconsumed
        · cases h
          exact .reused existing found family checked hconsumed
        · cases h
          exact .rotated existing found family checked hconsumed
    | consumed family consumed replacement =>
      cases consumed with
      | none =>
        cases h
        exact .raced family replacement
      | some consumed =>
        cases h
        exact .access family consumed replacement _ rfl
    | accessSaved issue =>
      cases h
      exact .saved issue

theorem introspectToken_writes {clientId : Option JsString} {phase : IntrospectPhase}
    {p' : Progress (ForClient IntrospectPhase)}
    (h : introspectToken env s clientId phase = (write, p')) : write = .nothing := by
  cases phase with
  | tokenRead token =>
    simp only [introspectToken] at h
    split at h <;> cases h <;> rfl
  | familyRead token family =>
    simp only [introspectToken] at h
    split at h
    · cases h
      rfl
    · split_ifs at h <;> cases h <;> rfl

theorem revokeKnown_writes {α : Type} {familyRef : Option JsString} {p' : Progress α}
    (h : revokeKnown familyRef = (write, p')) :
    write = .nothing ∨ ∃ familyRef, write = .revokeFamily familyRef .revoked := by
  unfold revokeKnown at h
  split at h <;> cases h
  · exact .inr ⟨_, rfl⟩
  · exact .inl rfl

theorem revoke_writes {token : JsString} {phase : RevokePhase} {p' : Progress RevokePhase}
    (h : revoke S s token phase = (write, p')) :
    write = .nothing ∨ ∃ familyRef, write = .revokeFamily familyRef .revoked := by
  cases phase with
  | called =>
    cases h
    exact .inl rfl
  | accessRead access =>
    cases access with
    | none =>
      cases h
      exact .inl rfl
    | some access => exact revokeKnown_writes h
  | refreshRead refresh => exact revokeKnown_writes h

theorem readFamily_writes {familyRef : Option JsString} {p' : Progress (ForClient ClientRevokePhase)}
    (h : readFamily s familyRef = (write, p')) : write = .nothing := by
  unfold readFamily at h
  split at h <;> cases h <;> rfl

theorem revokeForClient_writes {input : ClientTokenInput} {phase : ForClient ClientRevokePhase}
    {p' : Progress (ForClient ClientRevokePhase)}
    (h : revokeForClient S s input phase = (write, p')) :
    write = .nothing ∨ ∃ familyRef, write = .revokeFamily familyRef .revoked := by
  cases phase with
  | called =>
    cases h
    exact .inl rfl
  | clientRead client =>
    simp only [revokeForClient] at h
    rcases forClient_cases h with ⟨client', h⟩ | ⟨rfl, -⟩
    · cases h
      exact .inl rfl
    · exact .inl rfl
  | within phase =>
    cases phase with
    | accessRead access =>
      cases access with
      | none =>
        cases h
        exact .inl rfl
      | some access => exact .inl (readFamily_writes h)
    | refreshRead refresh => exact .inl (readFamily_writes h)
    | familyRead familyRef family =>
      simp only [revokeForClient] at h
      split_ifs at h <;> cases h
      · exact .inr ⟨_, rfl⟩
      · exact .inl rfl

/-! ## Any call -/

theorem findOrCreateSubject_writes {key subjectRef : JsString} {found : Option IdentitySubject}
    (h : findOrCreateSubject s key subjectRef = (write, found)) :
    write = .nothing ∨ ∃ key subject, write = .createSubject key subject := by
  unfold findOrCreateSubject at h
  split at h <;> cases h
  · exact .inl rfl
  · exact .inr ⟨_, _, rfl⟩

theorem Progress.writes {α : Type} {step : α → Write × Progress α} {allows : Write → Prop}
    (nothing : allows .nothing) (hstep : ∀ phase write p', step phase = (write, p') → allows write)
    {p p' : Progress α} (h : p.advance step = some (write, p')) : allows write := by
  rcases Progress.advance_cases h with ⟨phase, -, h⟩ | ⟨result, -, rfl, -⟩
  · exact hstep phase write p' h
  · exact nothing

/-- A step goes on with the same call and writes what such a call may. -/
theorem advance_allows (h : task.advance S env s = some (write, task')) :
    task.Same task' ∧ task.Allows write := by
  cases task with
  | registerClient input p =>
    obtain ⟨⟨write, p'⟩, hp, h⟩ := Option.map_eq_some_iff.1 h
    cases h
    refine ⟨rfl, Progress.writes trivial (fun phase write p' h => ?_) hp⟩
    unfold registerClient at h
    split at h <;> cases h <;> trivial
  | establishSocialSession identity p =>
    obtain ⟨⟨write, p'⟩, hp, h⟩ := Option.map_eq_some_iff.1 h
    cases h
    refine ⟨rfl, Progress.writes trivial (fun phase write p' h => ?_) hp⟩
    cases phase with
    | called =>
      simp only [establishSocialSession] at h
      split at h
      · split at h
        · rename_i hfound
          cases h
          rcases findOrCreateSubject_writes hfound with rfl | ⟨key, subject, rfl⟩ <;> trivial
        · cases h
          trivial
      · cases h
        trivial
    | subjectRead authTime subject =>
      simp only [establishSocialSession] at h
      split_ifs at h <;> cases h <;> trivial
  | startAuthorization input p =>
    obtain ⟨⟨write, p'⟩, hp, h⟩ := Option.map_eq_some_iff.1 h
    cases h
    refine ⟨rfl, Progress.writes trivial (fun phase write p' h => ?_) hp⟩
    cases starts h with
    | called => trivial
    | refused => trivial
    | saved request pending => exact pending
  | approveAuthorization input p =>
    obtain ⟨⟨write, p'⟩, hp, h⟩ := Option.map_eq_some_iff.1 h
    cases h
    refine ⟨rfl, Progress.writes trivial (fun phase write p' h => ?_) hp⟩
    cases approves h with
    | client _ _ _ _ pairwise => rcases pairwise with rfl | ⟨key, rfl⟩ <;> trivial
    | _ => trivial
  | exchangeAuthorizationCode input p =>
    obtain ⟨⟨write, p'⟩, hp, h⟩ := Option.map_eq_some_iff.1 h
    cases h
    refine ⟨rfl, Progress.writes trivial (fun phase write p' h => ?_) hp⟩
    cases exchanges h with
    | issued => exact rfl
    | _ => trivial
  | refresh input p =>
    obtain ⟨⟨write, p'⟩, hp, h⟩ := Option.map_eq_some_iff.1 h
    cases h
    refine ⟨rfl, Progress.writes trivial (fun phase write p' h => ?_) hp⟩
    cases refreshes h <;> trivial
  | introspect accessToken p =>
    obtain ⟨⟨write, p'⟩, hp, h⟩ := Option.map_eq_some_iff.1 h
    cases h
    refine ⟨rfl, Progress.writes trivial (fun phase write p' h => ?_) hp⟩
    cases phase with
    | within phase =>
      obtain rfl := introspectToken_writes h
      trivial
    | _ =>
      cases h
      trivial
  | introspectForClient input p =>
    obtain ⟨⟨write, p'⟩, hp, h⟩ := Option.map_eq_some_iff.1 h
    cases h
    refine ⟨rfl, Progress.writes trivial (fun phase write p' h => ?_) hp⟩
    cases phase with
    | called =>
      cases h
      trivial
    | clientRead client =>
      simp only [introspectForClient] at h
      rcases forClient_cases h with ⟨client', h⟩ | ⟨rfl, -⟩
      · cases h
        trivial
      · trivial
    | within phase =>
      obtain rfl := introspectToken_writes h
      trivial
  | revoke token p =>
    obtain ⟨⟨write, p'⟩, hp, h⟩ := Option.map_eq_some_iff.1 h
    cases h
    refine ⟨rfl, Progress.writes trivial (fun phase write p' h => ?_) hp⟩
    rcases revoke_writes h with rfl | ⟨familyRef, rfl⟩ <;> trivial
  | revokeForClient input p =>
    obtain ⟨⟨write, p'⟩, hp, h⟩ := Option.map_eq_some_iff.1 h
    cases h
    refine ⟨rfl, Progress.writes trivial (fun phase write p' h => ?_) hp⟩
    rcases revokeForClient_writes h with rfl | ⟨familyRef, rfl⟩ <;> trivial

/-! ## A client and an account -/

/-- `vey_session` and the others, each followed by the text of 32 bytes. -/
def secretOf (name : String) (letter : ℕ) : JsString :=
  js name ++ js "_" ++ List.replicate 43 (Fin.ofNat _ letter)

/-- The digests of the texts below. -/
def idDigests : List (JsString × JsString) := [
  (js "state-value-1234567890",
    js "3c5518af8ffc5921714a700439a62049aa7349a1bb9b529dfdcc6a5279880a44"),
  (js "nonce-value-1234567890",
    js "ff948bfb164b8046b0c9a9877efa83308669f06a54d354da645f88b204be1ab4"),
  (secretOf "vey_session" 66,
    js "8f1ecb780d8d3b58d5f6dc85c6919394b5e86122cfc534bb790b2503f6dc3281"),
  (secretOf "vey_code" 69,
    js "afeec185a801dddcabcfca67a4a1fcd4122271d6d6eeb1a15322652a6892fc2c"),
  (secretOf "vey_code" 71,
    js "a6b8270f40f390a989e6abbcce6134d64e1b974c380bf441e66d6335a5a3522c"),
  (secretOf "vey_access" 74,
    js "323b7584e28cc28e5ff2d6f0b0a7e3a70e7dfc9446be39d271e347987f324faa"),
  (secretOf "vey_refresh" 76,
    js "b06066bb35a5f4dcb12514a1b7123848c7e84c639565a17699f2cfad42d8a6f5"),
  (secretOf "vey_refresh" 78,
    js "069af7ce9d2d23351584be1c37722e6b018d1ba89113fe59ddfcce4bac0a9535"),
  (secretOf "vey_access" 80,
    js "90c52aaf3057f139d96a005f286350a5404a059fe7221239453850ef86f3a992")]

def storeOne : Url where
  protocol := js "https:"
  hostname := js "store-one.example"
  origin := js "https://store-one.example"
  hashless := js "https://store-one.example/callback"

def idService : Service where
  issuer := js "https://id.veygrit.test"
  sha256 s := ((idDigests.find? (·.1 = s)).map (·.2)).getD []
  sha256Base64url s :=
    if s = List.replicate 64 118 then js "w1TpKUdYE9hUAcNSeeSRFioHDxfUxuHho_JHAfZ_vDM" else []
  pairwiseHmac _ := js "Wni6nHb7rmQK1jCF3gd5fMiURtpu9PTq7uWfb_bSndk"
  providerHmac _ := js "defd5c06b6c3071c05845416e8dde7d51ae1e839668b9b06e43698a256257db4"
  parseUrl s := if s = storeOne.hashless then some storeOne else none
  callback uri code state := uri ++ js "?code=" ++ code ++ js "&state=" ++ state
  sign _ := js "header.claims.signature"
  dates := .ofTable ⟨[(1784347200000, js "2026-07-18T04:00:00.000Z")], by decide⟩ (by decide)
    (by decide)
  authorizationRequestTtlSeconds := none
  authorizationCodeTtlSeconds := none
  sessionTtlSeconds := none
  accessTokenTtlSeconds := none
  refreshTokenTtlSeconds := none

/-- A step of a call at the time of the sign-in; what it draws is written in one letter each. -/
def workOn (i : ℕ) (letter : ℕ) : Event :=
  .work i ⟨1784347200000, fun draw => List.replicate 43 (Fin.ofNat _ (letter + draw))⟩

/-- A public client registers, an account signs in and the client asks to be authorized. -/
def asked : List Event := [
  .call (.registerClient {
    clientId := js "store-one"
    displayName := js "Store One"
    clientType := .publicClient
    sectorIdentifier := js "store-one.example"
    redirectUris := [storeOne.hashless]
    allowedOrigins := []
    allowedScopes := [js "openid"]
    clientSecretHash := none
    status := none }),
  workOn 0 0,
  .call (.establishSocialSession ⟨.google, js "google-subject-private", js "2026-07-18T04:00:00.000Z"⟩),
  workOn 1 65, workOn 1 66,
  .call (.startAuthorization {
    clientId := js "store-one"
    redirectUri := storeOne.hashless
    origin := none
    scope := .text (js "openid")
    state := js "state-value-1234567890"
    nonce := js "nonce-value-1234567890"
    codeChallenge := js "w1TpKUdYE9hUAcNSeeSRFioHDxfUxuHho_JHAfZ_vDM" }),
  workOn 2 0, workOn 2 68]

def approve : Event := .call (.approveAuthorization {
  requestRef := js "vey_auth_req_" ++ List.replicate 43 68
  sessionToken := secretOf "vey_session" 66
  state := js "state-value-1234567890"
  walletConsentRef := none })

def exchange : Event := .call (.exchangeAuthorizationCode {
  code := secretOf "vey_code" 69
  clientId := js "store-one"
  redirectUri := storeOne.hashless
  codeVerifier := List.replicate 64 118
  clientSecret := none })

def idRun (es : List Event) : Option (Past × World) :=
  History.play (next idService) [] ⟨.empty, []⟩ es

theorem run_of_idRun {es : List Event} {v : Past × World} (h : idRun es = some v) :
    Run idService v.1 v.2 := History.Run.play .init h

end Agid.VeygritId
