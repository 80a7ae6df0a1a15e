import Agid.VeygritId
import Agid.Lib.History

/-!
# Runs of Veygrit ID

Any number of calls on one store, each going on by itself between its `await`s.  A run keeps what
was done, so that codes that were issued, consumed and redeemed can be read off it.
-/

namespace Agid.VeygritId

inductive Task where
  | registerClient (input : ClientInput) (progress : Progress Unit)
  | establishSocialSession (identity : VerifiedSocialIdentity) (progress : Progress SessionPhase)
  | startAuthorization (input : StartInput) (progress : Progress StartPhase)
  | approveAuthorization (input : ApproveInput) (progress : Progress ApprovePhase)
  | exchangeAuthorizationCode (input : ExchangeInput)
      (progress : Progress (ForClient ExchangePhase))
  | refresh (input : RefreshInput) (progress : Progress (ForClient RefreshPhase))
  | introspect (accessToken : JsString) (progress : Progress (ForClient IntrospectPhase))
  | introspectForClient (input : ClientTokenInput) (progress : Progress (ForClient IntrospectPhase))
  | revoke (token : JsString) (progress : Progress RevokePhase)
  | revokeForClient (input : ClientTokenInput) (progress : Progress (ForClient ClientRevokePhase))

inductive Call where
  | registerClient (input : ClientInput)
  | establishSocialSession (identity : VerifiedSocialIdentity)
  | startAuthorization (input : StartInput)
  | approveAuthorization (input : ApproveInput)
  | exchangeAuthorizationCode (input : ExchangeInput)
  | refresh (input : RefreshInput)
  | introspect (accessToken : JsString)
  | introspectForClient (input : ClientTokenInput)
  | revoke (token : JsString)
  | revokeForClient (input : ClientTokenInput)

def Call.task : Call → Task
  | .registerClient input => .registerClient input (.running ())
  | .establishSocialSession identity => .establishSocialSession identity (.running .called)
  | .startAuthorization input => .startAuthorization input (.running .called)
  | .approveAuthorization input => .approveAuthorization input (.running .called)
  | .exchangeAuthorizationCode input => .exchangeAuthorizationCode input (.running .called)
  | .refresh input => .refresh input (.running .called)
  | .introspect accessToken => .introspect accessToken (.running .called)
  | .introspectForClient input => .introspectForClient input (.running .called)
  | .revoke token => .revoke token (.running .called)
  | .revokeForClient input => .revokeForClient input (.running .called)

/-- The next step of a call; none once it has answered. -/
def Progress.advance {α : Type} (step : α → Write × Progress α) :
    Progress α → Option (Write × Progress α)
  | .running phase => some (step phase)
  | .returning result => some (.nothing, .answered result)
  | .answered _ => none

section Next

variable (S : Service)

def Task.advance (env : Env) (s : Store) : Task → Option (Write × Task)
  | .registerClient input progress =>
    (progress.advance (VeygritId.registerClient S input)).map
      (Prod.map id (.registerClient input))
  | .establishSocialSession identity progress =>
    (progress.advance (VeygritId.establishSocialSession S env s identity)).map
      (Prod.map id (.establishSocialSession identity))
  | .startAuthorization input progress =>
    (progress.advance (VeygritId.startAuthorization S env s input)).map
      (Prod.map id (.startAuthorization input))
  | .approveAuthorization input progress =>
    (progress.advance (VeygritId.approveAuthorization S env s input)).map
      (Prod.map id (.approveAuthorization input))
  | .exchangeAuthorizationCode input progress =>
    (progress.advance (VeygritId.exchangeAuthorizationCode S env s input)).map
      (Prod.map id (.exchangeAuthorizationCode input))
  | .refresh input progress =>
    (progress.advance (VeygritId.refresh S env s input)).map (Prod.map id (.refresh input))
  | .introspect accessToken progress =>
    (progress.advance (VeygritId.introspect S env s accessToken)).map
      (Prod.map id (.introspect accessToken))
  | .introspectForClient input progress =>
    (progress.advance (VeygritId.introspectForClient S env s input)).map
      (Prod.map id (.introspectForClient input))
  | .revoke token progress =>
    (progress.advance (VeygritId.revoke S s token)).map (Prod.map id (.revoke token))
  | .revokeForClient input progress =>
    (progress.advance (VeygritId.revokeForClient S s input)).map
      (Prod.map id (.revokeForClient input))

structure World where
  store : Store
  tasks : List Task

inductive Event where
  | call (call : Call)
  | work (i : ℕ) (env : Env)

/-- What a step writes. -/
def written (w : World) : Event → Write
  | .call _ => .nothing
  | .work i env =>
    match w.tasks[i]?.bind (Task.advance S env w.store) with
    | some (write, _) => write
    | none => .nothing

def next (w : World) : Event → Option World
  | .call call => some { w with tasks := w.tasks ++ [call.task] }
  | .work i env =>
    match w.tasks[i]?.bind (Task.advance S env w.store) with
    | some (write, task) => some ⟨w.store.apply write, w.tasks.set i task⟩
    | none => none

abbrev Past := History.Past World Event

/-- A run from an empty store. -/
def Run (past : Past) (w : World) : Prop := History.Run (next S) ⟨.empty, []⟩ past w

/-- Random bytes do not come twice: no reference or secret that is drawn has been drawn before. -/
def Drawn (_past : Past) (w : World) (e : Event) : Prop := (written S w e).Fresh w.store

instance (past : Past) (w : World) (e : Event) : Decidable (Drawn S past w e) :=
  inferInstanceAs (Decidable (Write.Fresh _ _))

end Next

/-! ## Codes -/

section Codes

variable (S : Service)

/-- The code that a step issues. -/
def issued (w : World) (e : Event) : Option AuthorizationCodeRecord :=
  match written S w e with
  | .saveAuthorizationCode code => some code
  | _ => none

def issuedCodes (past : Past) : List AuthorizationCodeRecord :=
  past.filterMap fun step => issued S step.1 step.2

/-- No request has two codes. -/
def OneCode (past : Past) : Prop := ((issuedCodes S past).map (·.requestRef)).Nodup

instance (past : Past) : Decidable (OneCode S past) := inferInstanceAs (Decidable (List.Nodup _))

/-- The request that a call has issued a code of and not marked as approved yet. -/
def Task.unrecorded : Task → Option JsString
  | .approveAuthorization _ (.running (.codeSaved request _)) => some request.requestRef
  | _ => none

/-- When a code of a request is issued the store has the request as pending, and no other call has
issued one that it has not recorded yet. -/
def Unraced (_past : Past) (w : World) (e : Event) : Prop :=
  ∀ code ∈ issued S w e,
    (w.store.requests.get? code.requestRef).any (·.status = .pending) = true
      ∧ ∀ task ∈ w.tasks, task.unrecorded ≠ some code.requestRef

end Codes

/-! ## Token families -/

section Families

variable (S : Service)

/-- The exchange that a step consumes an open code for, and the code's digest. -/
def consumes (w : World) : Event → Option (ℕ × JsString)
  | .work i env =>
    match written S w (.work i env) with
    | .consumeAuthorizationCode codeHash _ =>
      if (w.store.openCode codeHash).isSome then some (i, codeHash) else none
    | _ => none
  | .call _ => none

/-- The exchanges that have consumed a code. -/
def consumers (codeHash : JsString) (past : Past) : List ℕ :=
  past.filterMap fun step => ((consumes S step.1 step.2).filter (·.2 = codeHash)).map (·.1)

/-- An exchange that creates a family, and when. -/
structure Creation where
  task : ℕ
  input : ExchangeInput
  record : AuthorizationCodeRecord
  family : TokenFamily
  now : ℤ
deriving DecidableEq

def created (w : World) : Event → Option Creation
  | .work i env =>
    match w.tasks[i]?, written S w (.work i env) with
    | some (.exchangeAuthorizationCode input (.running (.within (.consumed (some record))))),
      .saveTokenFamily family => some ⟨i, input, record, family, env.now⟩
    | _, _ => none
  | .call _ => none

def creations (past : Past) : List Creation := past.filterMap fun step => created S step.1 step.2

/-- The code that a family was created for: it was issued for the client and the redirect URI of the
exchange, had not expired, was consumed by this exchange alone and is bound to its verifier. -/
structure Redeems (past : Past) (c : Creation) : Prop where
  issued : { c.record with consumedAt := none } ∈ issuedCodes S past
  code : c.record.codeHash = S.sha256 c.input.code
  client : c.record.clientId = c.input.clientId
  redirectUri : normalizeUrl S c.input.redirectUri = .ok c.record.redirectUri
  challenge : c.record.pkceChallenge = S.sha256Base64url c.input.codeVerifier
  unexpired : c.now < c.record.expiresAt
  consumed : consumers S c.record.codeHash past = [c.task]
  family : c.family.clientId = c.record.clientId

/-- Each family was created by one exchange, of a code of its own, and no exchange that fails has
created one. -/
structure Stems (past : Past) (w : World) : Prop where
  families : ∀ familyRef, (w.store.families.get? familyRef).isSome →
    ∃ c ∈ creations S past, c.family.familyRef = familyRef ∧ Redeems S past c
  one : ((creations S past).map (·.family.familyRef)).Nodup
  distinct : ((creations S past).map (·.record.codeHash)).Nodup
  failed : ∀ (i : ℕ) input message,
    w.tasks[i]? = some (.exchangeAuthorizationCode input (.answered (.error message))) →
      ∀ c ∈ creations S past, c.task ≠ i

end Families

/-! ## Refresh tokens -/

section Refresh

variable (S : Service)

/-- The refresh in which a client presents a token of its own that has not expired, and the token's
digest. -/
def presented (w : World) : Event → Option (ℕ × JsString)
  | .work i env =>
    match w.tasks[i]? with
    | some (.refresh input (.running (.within (.familyRead existing (some family))))) =>
      if family.clientId = input.clientId ∧ env.now < existing.expiresAt then
        some (i, S.sha256 input.refreshToken)
      else none
    | _ => none
  | .call _ => none

def presentations (tokenHash : JsString) (past : Past) : List ℕ :=
  past.filterMap fun step => ((presented S step.1 step.2).filter (·.2 = tokenHash)).map (·.1)

/-- The families that were revoked by a call of `revoke` or `revokeForClient`. -/
def revocations (past : Past) : List JsString :=
  past.filterMap fun step =>
    match written S step.1 step.2 with
    | .revokeFamily familyRef .revoked => some familyRef
    | _ => none

def Task.answeredRefresh : Task → Bool
  | .refresh _ (.answered _) => true
  | _ => false

def Succeeded (w : World) (i : ℕ) : Prop :=
  ∃ input answer, w.tasks[i]? = some (.refresh input (.answered (.ok answer)))

/-- The family is compromised, or revoked because it was asked to be. -/
def Ended (past : Past) (w : World) (familyRef : JsString) : Prop :=
  ∃ family, w.store.families.get? familyRef = some family
    ∧ (family.status = .compromised
      ∨ family.status = .revoked ∧ familyRef ∈ revocations S past)

/-- No call finds a token of the family active or exchanges one for another. -/
def Task.Refuses (s : Store) (familyRef : JsString) : Task → Prop
  | .introspect accessToken (.answered (.ok (.active ..))) =>
    ∀ token ∈ s.access.get? (S.sha256 accessToken), token.familyRef ≠ familyRef
  | .introspectForClient input (.answered (.ok (.active ..))) =>
    ∀ token ∈ s.access.get? (S.sha256 input.token), token.familyRef ≠ familyRef
  | .refresh input (.answered (.ok _)) =>
    ∀ token ∈ s.refreshTokens.get? (S.sha256 input.refreshToken), token.familyRef ≠ familyRef
  | _ => True

/-- The family of a token is at an end, whatever comes, and so are its tokens for every call that
starts from now on. -/
def EndsFamily (past : Past) (w : World) (tokenHash : JsString) : Prop :=
  ∃ token, w.store.refreshTokens.get? tokenHash = some token
    ∧ ∀ newer w', History.Run (next S) w newer w' → History.Every (Drawn S) newer →
      Ended S (newer ++ past) w' token.familyRef
        ∧ ∀ (k : ℕ) task, w.tasks.length ≤ k → w'.tasks[k]? = some task →
          task.Refuses S w'.store token.familyRef

end Refresh

end Agid.VeygritId
