import Agid.ShipStore

/-!
# The store of Veygrit ID

The records of `src/server/auth/veygritIdService.ts` and its `InMemoryVeygritIdStore`.  Times are in
milliseconds.  The emails of identities and the audit trail are left out: no call reads them.
-/

namespace Agid.VeygritId

/-! ## Records -/

inductive SocialProvider where
  | google
  | apple
deriving DecidableEq

def SocialProvider.text : SocialProvider → JsString
  | .google => js "google"
  | .apple => js "apple"

inductive ClientType where
  | publicClient
  | confidential
deriving DecidableEq

inductive ClientStatus where
  | active
  | disabled
deriving DecidableEq

structure OAuthClient where
  clientId : JsString
  displayName : JsString
  clientType : ClientType
  sectorIdentifier : JsString
  redirectUris : List JsString
  allowedOrigins : List JsString
  allowedScopes : List JsString
  clientSecretHash : Option JsString
  status : ClientStatus
deriving DecidableEq

inductive SubjectStatus where
  | active
  | locked
  | closed
deriving DecidableEq

structure IdentitySubject where
  subjectRef : JsString
  status : SubjectStatus
deriving DecidableEq

structure IdentitySession where
  sessionRef : JsString
  sessionTokenHash : JsString
  subjectRef : JsString
  provider : SocialProvider
  authTime : ℤ
  expiresAt : ℤ
  revokedAt : Option ℤ
deriving DecidableEq

inductive RequestStatus where
  | pending
  | approved
  | denied
  | expired
deriving DecidableEq

structure AuthorizationRequest where
  requestRef : JsString
  clientId : JsString
  redirectUri : JsString
  origin : Option JsString
  scopes : List JsString
  stateHash : JsString
  nonceHash : JsString
  nonce : JsString
  pkceChallenge : JsString
  status : RequestStatus
  createdAt : ℤ
  expiresAt : ℤ
deriving DecidableEq

structure AuthorizationCodeRecord where
  codeRef : JsString
  codeHash : JsString
  requestRef : JsString
  clientId : JsString
  pairwiseSubjectAlias : JsString
  subjectRef : JsString
  sessionRef : JsString
  authTime : ℤ
  redirectUri : JsString
  scopes : List JsString
  nonce : JsString
  pkceChallenge : JsString
  walletConsentRef : Option JsString
  expiresAt : ℤ
  consumedAt : Option ℤ
deriving DecidableEq

inductive FamilyStatus where
  | active
  | revoked
  | compromised
deriving DecidableEq

structure TokenFamily where
  familyRef : JsString
  clientId : JsString
  pairwiseSubjectAlias : JsString
  subjectRef : JsString
  scopes : List JsString
  status : FamilyStatus
deriving DecidableEq

structure AccessTokenRecord where
  tokenRef : JsString
  tokenHash : JsString
  familyRef : JsString
  issuedAt : ℤ
  expiresAt : ℤ
  revokedAt : Option ℤ
deriving DecidableEq

structure RefreshTokenRecord where
  tokenRef : JsString
  tokenHash : JsString
  familyRef : JsString
  rotationCounter : ℕ
  issuedAt : ℤ
  expiresAt : ℤ
  consumedAt : Option ℤ
  replacedByRef : Option JsString
deriving DecidableEq

/-! ## The store -/

/-- `InMemoryVeygritIdStore`. -/
structure Store where
  clients : Record JsString OAuthClient
  requests : Record JsString AuthorizationRequest
  subjects : Record JsString IdentitySubject
  identities : Record JsString JsString
  sessions : Record JsString IdentitySession
  pairwise : Record JsString JsString
  codes : Record JsString AuthorizationCodeRecord
  families : Record JsString TokenFamily
  access : Record JsString AccessTokenRecord
  refreshTokens : Record JsString RefreshTokenRecord

def Store.empty : Store :=
  ⟨.empty, .empty, .empty, .empty, .empty, .empty, .empty, .empty, .empty, .empty⟩

/-- What a call of the store writes. -/
inductive Write where
  | nothing
  | saveClient (client : OAuthClient)
  | saveAuthorizationRequest (request : AuthorizationRequest)
  | updateAuthorizationRequest (request : AuthorizationRequest)
  | createSubject (key : JsString) (subject : IdentitySubject)
  | saveSession (session : IdentitySession)
  | createPairwiseSubject (key subjectAlias : JsString)
  | saveAuthorizationCode (code : AuthorizationCodeRecord)
  | consumeAuthorizationCode (codeHash : JsString) (consumedAt : ℤ)
  | saveTokenFamily (family : TokenFamily)
  | revokeFamily (familyRef : JsString) (status : FamilyStatus)
  | saveAccessToken (token : AccessTokenRecord)
  | saveRefreshToken (token : RefreshTokenRecord)
  | consumeRefreshToken (tokenHash : JsString) (consumedAt : ℤ) (replacementRef : JsString)
deriving DecidableEq

def AuthorizationCodeRecord.consume (code : AuthorizationCodeRecord) (consumedAt : ℤ) :
    AuthorizationCodeRecord := { code with consumedAt := some consumedAt }

def RefreshTokenRecord.consume (token : RefreshTokenRecord) (consumedAt : ℤ)
    (replacementRef : JsString) : RefreshTokenRecord :=
  { token with consumedAt := some consumedAt, replacedByRef := some replacementRef }

/-- A code or a token that is there and not consumed yet. -/
def Store.openCode (s : Store) (codeHash : JsString) : Option AuthorizationCodeRecord :=
  (s.codes.get? codeHash).filter (·.consumedAt = none)

def Store.openRefreshToken (s : Store) (tokenHash : JsString) : Option RefreshTokenRecord :=
  (s.refreshTokens.get? tokenHash).filter (·.consumedAt = none)

def Store.apply (s : Store) : Write → Store
  | .nothing => s
  | .saveClient client => { s with clients := s.clients.set client.clientId client }
  | .saveAuthorizationRequest request =>
    { s with requests := s.requests.set request.requestRef request }
  | .updateAuthorizationRequest request =>
    { s with requests := s.requests.set request.requestRef request }
  | .createSubject key subject =>
    { s with
      subjects := s.subjects.set subject.subjectRef subject
      identities := s.identities.set key subject.subjectRef }
  | .saveSession session => { s with sessions := s.sessions.set session.sessionTokenHash session }
  | .createPairwiseSubject key subjectAlias =>
    { s with pairwise := s.pairwise.set key subjectAlias }
  | .saveAuthorizationCode code => { s with codes := s.codes.set code.codeHash code }
  | .consumeAuthorizationCode codeHash consumedAt =>
    match s.openCode codeHash with
    | some code => { s with codes := s.codes.set codeHash (code.consume consumedAt) }
    | none => s
  | .saveTokenFamily family => { s with families := s.families.set family.familyRef family }
  | .revokeFamily familyRef status =>
    match s.families.get? familyRef with
    | some family => { s with families := s.families.set familyRef { family with status := status } }
    | none => s
  | .saveAccessToken token => { s with access := s.access.set token.tokenHash token }
  | .saveRefreshToken token =>
    { s with refreshTokens := s.refreshTokens.set token.tokenHash token }
  | .consumeRefreshToken tokenHash consumedAt replacementRef =>
    match s.openRefreshToken tokenHash with
    | some token =>
      { s with
        refreshTokens := s.refreshTokens.set tokenHash (token.consume consumedAt replacementRef) }
    | none => s

/-- Nothing is there yet under the key of what is saved. -/
def Write.Fresh (s : Store) : Write → Prop
  | .saveAuthorizationRequest request => s.requests.get? request.requestRef = none
  | .saveAuthorizationCode code => s.codes.get? code.codeHash = none
  | .saveTokenFamily family => s.families.get? family.familyRef = none
  | .saveAccessToken token => s.access.get? token.tokenHash = none
  | .saveRefreshToken token => s.refreshTokens.get? token.tokenHash = none
  | _ => True

instance (s : Store) : DecidablePred (Write.Fresh s) := fun write => by
  cases write <;> unfold Write.Fresh <;> infer_instance

end Agid.VeygritId
