import Agid.VeygritIdStore

/-!
# Veygrit ID

The calls of `VeygritIdService` of `src/server/auth/veygritIdService.ts` that authorization codes and
tokens depend on.  A call goes on from one `await` to the next: it goes by what the last call of the
store found, and makes the next one.  Random bytes come from outside, as the text they are encoded
in.
-/

namespace Agid.VeygritId

open VeygritShip (isHexUnit isSafeUnit)

/-! ## The service -/

/-- `new URL(text)`; `hashless` is its text without the fragment. -/
structure Url where
  protocol : JsString
  hostname : JsString
  origin : JsString
  hashless : JsString
deriving DecidableEq

structure IdTokenClaims where
  iss : JsString
  sub : JsString
  aud : JsString
  iat : ℤ
  exp : ℤ
  authTime : ℤ
  nonce : JsString
  sid : JsString
  addressWalletLinked : Bool
deriving DecidableEq

/-- The options of the service, and what it uses of the platform: `sha256` in hexadecimal and in
base64url, and the two `createHmac` under the secrets of the options. -/
structure Service where
  issuer : JsString
  sha256 : JsString → JsString
  sha256Base64url : JsString → JsString
  pairwiseHmac : JsString → JsString
  providerHmac : JsString → JsString
  parseUrl : JsString → Option Url
  callback : (uri code state : JsString) → JsString
  sign : IdTokenClaims → JsString
  dates : Dates
  authorizationRequestTtlSeconds : Option ℤ
  authorizationCodeTtlSeconds : Option ℤ
  sessionTtlSeconds : Option ℤ
  accessTokenTtlSeconds : Option ℤ
  refreshTokenTtlSeconds : Option ℤ

/-- What a call reads from outside between two `await`s; the clock stands still meanwhile. -/
structure Env where
  now : ℤ
  random : ℕ → JsString

structure OpaqueToken where
  ref : JsString
  secret : JsString
  hash : JsString
deriving DecidableEq

/-- `/^[a-f0-9]{64}$/` on both. -/
def safeEqualHex (a b : JsString) : Bool :=
  a.all isHexUnit && a.length = 64 && b.all isHexUnit && b.length = 64 && a = b

/-- `value.split(/\s+/)` less its empty parts. -/
def words (value : JsString) : List JsString :=
  (value.splitOnP isWhiteSpace).filter (· ≠ [])

inductive ScopeInput where
  | text (value : JsString)
  | list (values : List JsString)

def uniqueScopes (value : ScopeInput) : Except JsString (List JsString) :=
  let scopes := match value with
    | .text value => (words value).eraseDups
    | .list values => (values.filter (· ≠ [])).eraseDups
  if js "openid" ∈ scopes then .ok scopes else .error (js "openid_scope_required")

def joinScopes (scopes : List JsString) : JsString := (js " ").intercalate scopes

def epochSeconds (ms : ℤ) : ℤ := ms / 1000

/-- `/^[A-Za-z0-9_-]{43,128}$/`. -/
def isCodeChallenge (s : JsString) : Bool :=
  s.all isSafeUnit && 43 ≤ s.length && s.length ≤ 128

/-- `/^[A-Za-z0-9._~-]{43,128}$/`. -/
def isCodeVerifier (s : JsString) : Bool :=
  s.all (fun c => isSafeUnit c || c.val = 46 || c.val = 126) && 43 ≤ s.length && s.length ≤ 128

section Service

variable (S : Service)

def opaqueToken (env : Env) (name : String) (draw : ℕ) : OpaqueToken :=
  let secret := js name ++ js "_" ++ env.random draw
  ⟨js name ++ js "_ref_" ++ env.random (draw + 1), secret, S.sha256 secret⟩

def urlOf (value : JsString) : Except JsString Url :=
  match S.parseUrl value with
  | some url => .ok url
  | none => .error (js "Invalid URL")

def normalizeUrl (value : JsString) : Except JsString JsString := do
  let url ← urlOf S value
  if url.protocol ≠ js "https:" ∧ url.hostname ∉ [js "localhost", js "127.0.0.1"] then
    .error (js "https_required")
  else return url.hashless

def normalizeOrigin (value : JsString) : Except JsString JsString := do
  return (← urlOf S (← normalizeUrl S value)).origin

def authenticateClient (client : Option OAuthClient) (clientSecret : Option JsString) :
    Except JsString OAuthClient :=
  match client with
  | none => .error (js "invalid_client")
  | some client =>
    if client.status ≠ .active then .error (js "invalid_client")
    else match client.clientType with
    | .publicClient => .ok client
    | .confidential =>
      match clientSecret.bind nonEmpty, client.clientSecretHash.bind nonEmpty with
      | some secret, some hash =>
        if safeEqualHex hash (S.sha256 secret) then .ok client
        else .error (js "client_authentication_failed")
      | _, _ => .error (js "client_authentication_failed")

end Service

/-! ## Calls -/

inductive Answer where
  | registered
  | started (requestRef continueUrl : JsString) (expiresAt : ℤ)
  | session (sessionRef sessionToken : JsString) (expiresAt : ℤ) (provider : SocialProvider)
  | approved (redirectUri authorizationCode : JsString) (expiresIn : ℤ)
  | tokens (accessToken : JsString) (expiresIn : ℤ) (refreshToken : JsString)
      (refreshExpiresIn : ℤ) (idToken : Option JsString) (scope : JsString)
  | active (clientId sub scope : JsString) (exp : ℤ)
  | inactive
  | revoked
deriving DecidableEq

/-- How far a call has come; once it `returns` it has nothing left to read or write. -/
inductive Progress (α : Type) where
  | running (phase : α)
  | returning (result : Except JsString Answer)
  | answered (result : Except JsString Answer)

/-- A call that authenticates its client first. -/
inductive ForClient (α : Type) where
  | called
  | clientRead (client : Option OAuthClient)
  | within (phase : α)

section Calls

variable (S : Service) (env : Env) (s : Store)

/-- The end of a call that throws. -/
def throws {α : Type} (message : JsString) : Write × Progress α :=
  (.nothing, .answered (.error message))

/-- `authenticateClient`, then a call of the store. -/
def forClient {α : Type} (client : Option OAuthClient) (clientSecret : Option JsString)
    (then_ : OAuthClient → Write × Progress (ForClient α)) : Write × Progress (ForClient α) :=
  match authenticateClient S client clientSecret with
  | .ok client => then_ client
  | .error message => throws message

/-! ### Registration and sessions -/

structure ClientInput where
  clientId : JsString
  displayName : JsString
  clientType : ClientType
  sectorIdentifier : JsString
  redirectUris : List JsString
  allowedOrigins : List JsString
  allowedScopes : List JsString
  clientSecretHash : Option JsString
  status : Option ClientStatus

def clientOf (input : ClientInput) : Except JsString OAuthClient := do
  let redirectUris ← input.redirectUris.mapM (normalizeUrl S)
  let allowedOrigins ← input.allowedOrigins.mapM (normalizeOrigin S)
  if input.clientId = [] ∨ input.displayName = [] ∨ input.sectorIdentifier = []
      ∨ redirectUris = [] then
    .error (js "invalid_client_registration")
  else if input.clientType = .confidential ∧ input.clientSecretHash.bind nonEmpty = none then
    .error (js "confidential_client_secret_hash_required")
  else return {
    clientId := input.clientId
    displayName := input.displayName
    clientType := input.clientType
    sectorIdentifier := input.sectorIdentifier
    redirectUris := redirectUris
    allowedOrigins := allowedOrigins
    allowedScopes := input.allowedScopes.eraseDups
    clientSecretHash := input.clientSecretHash
    status := input.status.getD .active }

def registerClient (input : ClientInput) (_ : Unit) : Write × Progress Unit :=
  match clientOf S input with
  | .ok client => (.saveClient client, .returning (.ok .registered))
  | .error message => throws message

structure VerifiedSocialIdentity where
  provider : SocialProvider
  providerSubject : JsString
  authenticatedAt : JsString

inductive SessionPhase where
  | called
  | subjectRead (authTime : ℤ) (subject : IdentitySubject)

/-- The subject of `findOrCreateSubject`, and what it writes. -/
def findOrCreateSubject (key subjectRef : JsString) : Write × Option IdentitySubject :=
  match s.identities.get? key with
  | some found => (.nothing, s.subjects.get? found)
  | none =>
    let subject : IdentitySubject := ⟨subjectRef, .active⟩
    (.createSubject key subject, some subject)

def establishSocialSession (identity : VerifiedSocialIdentity) :
    SessionPhase → Write × Progress SessionPhase
  | .called =>
    match nonEmpty identity.providerSubject, S.dates.parse identity.authenticatedAt with
    | some subject, some authTime =>
      let hash := S.providerHmac (identity.provider.text ++ [0] ++ subject)
      match findOrCreateSubject s (identity.provider.text ++ js ":" ++ hash)
          (js "vey_subject_" ++ env.random 0) with
      | (write, some subject) => (write, .running (.subjectRead authTime subject))
      | (_, none) => throws (js "Cannot read properties of undefined (reading 'status')")
    | _, _ => throws (js "invalid_social_identity")
  | .subjectRead authTime subject =>
    if subject.status ≠ .active then throws (js "subject_not_active")
    else
      let token := opaqueToken S env "vey_session" 0
      -- the token's reference without its first `_ref`
      let session : IdentitySession := {
        sessionRef := js "vey_session_" ++ env.random 1
        sessionTokenHash := token.hash
        subjectRef := subject.subjectRef
        provider := identity.provider
        authTime := authTime
        expiresAt := env.now + S.sessionTtlSeconds.getD 43200 * 1000
        revokedAt := none }
      (.saveSession session, .returning (.ok
        (.session session.sessionRef token.secret session.expiresAt identity.provider)))

/-! ### Authorization -/

structure StartInput where
  clientId : JsString
  redirectUri : JsString
  origin : Option JsString
  scope : ScopeInput
  state : JsString
  nonce : JsString
  codeChallenge : JsString

inductive StartPhase where
  | called
  | clientRead (client : Option OAuthClient)

/-- The origin that is checked is that of the normalized text, and the one that is kept that of the
text itself. -/
def checkOrigin (client : OAuthClient) (origin : Option JsString) :
    Except JsString (Option JsString) :=
  match origin.bind nonEmpty with
  | none => .ok none
  | some text => do
    let origin ← normalizeOrigin S text
    if origin ∈ client.allowedOrigins then return some (← urlOf S text).origin
    else .error (js "origin_not_allowed")

def startedRequest (client : OAuthClient) (input : StartInput) :
    Except JsString AuthorizationRequest := do
  let redirectUri ← normalizeUrl S input.redirectUri
  if redirectUri ∉ client.redirectUris then .error (js "redirect_uri_not_allowed")
  else
    let origin ← checkOrigin S client input.origin
    let scopes ← uniqueScopes input.scope
    if scopes.any (· ∉ client.allowedScopes) then .error (js "scope_not_allowed")
    else if input.state.length < 16 ∨ input.nonce.length < 16 then
      .error (js "state_and_nonce_too_short")
    else if ¬ isCodeChallenge input.codeChallenge then .error (js "pkce_s256_required")
    else return {
      requestRef := js "vey_auth_req_" ++ env.random 0
      clientId := client.clientId
      redirectUri := redirectUri
      origin := origin
      scopes := scopes
      stateHash := S.sha256 input.state
      nonceHash := S.sha256 input.nonce
      nonce := input.nonce
      pkceChallenge := input.codeChallenge
      status := .pending
      createdAt := env.now
      expiresAt := env.now + S.authorizationRequestTtlSeconds.getD 600 * 1000 }

def startAuthorization (input : StartInput) : StartPhase → Write × Progress StartPhase
  | .called => (.nothing, .running (.clientRead (s.clients.get? input.clientId)))
  | .clientRead client =>
    match client.filter (·.status = .active) with
    | none => throws (js "invalid_client")
    | some client =>
      match startedRequest S env client input with
      | .error message => throws message
      | .ok request =>
        (.saveAuthorizationRequest request, .returning (.ok (.started request.requestRef
          (S.issuer ++ js "/veygrit/login?request_ref=" ++ request.requestRef)
          request.expiresAt)))

structure ApproveInput where
  requestRef : JsString
  sessionToken : JsString
  state : JsString
  walletConsentRef : Option JsString

inductive ApprovePhase where
  | called
  | requestRead (request : Option AuthorizationRequest)
  | sessionRead (request : AuthorizationRequest) (session : Option IdentitySession)
  | clientRead (request : AuthorizationRequest) (session : IdentitySession)
      (client : Option OAuthClient)
  | pairwiseRead (request : AuthorizationRequest) (session : IdentitySession)
      (client : OAuthClient) (pairwiseSubjectAlias : JsString)
  | codeSaved (request : AuthorizationRequest) (code : OpaqueToken)

def checkRequest (input : ApproveInput) (request : Option AuthorizationRequest) :
    Except JsString AuthorizationRequest :=
  match request.filter (·.status = .pending) with
  | none => .error (js "authorization_request_not_pending")
  | some request =>
    if request.expiresAt ≤ env.now then .error (js "authorization_request_expired")
    else if ¬ safeEqualHex request.stateHash (S.sha256 input.state) then
      .error (js "state_mismatch")
    else .ok request

def needsConsent (scopes : List JsString) : Bool :=
  scopes.any fun scope => scope = js "address_wallet" || scope = js "friend_delivery:request"

def codeRecord (input : ApproveInput) (request : AuthorizationRequest) (session : IdentitySession)
    (client : OAuthClient) (pairwiseSubjectAlias : JsString) : AuthorizationCodeRecord where
  codeRef := (opaqueToken S env "vey_code" 0).ref
  codeHash := (opaqueToken S env "vey_code" 0).hash
  requestRef := request.requestRef
  clientId := client.clientId
  pairwiseSubjectAlias := pairwiseSubjectAlias
  subjectRef := session.subjectRef
  sessionRef := session.sessionRef
  authTime := session.authTime
  redirectUri := request.redirectUri
  scopes := request.scopes
  nonce := request.nonce
  pkceChallenge := request.pkceChallenge
  walletConsentRef := input.walletConsentRef
  expiresAt := env.now + S.authorizationCodeTtlSeconds.getD 120 * 1000
  consumedAt := none

/-- The alias of `getOrCreatePairwiseSubject`, and what it writes. -/
def getOrCreatePairwiseSubject (key subjectAlias : JsString) : Write × JsString :=
  match (s.pairwise.get? key).bind nonEmpty with
  | some found => (.nothing, found)
  | none => (.createPairwiseSubject key subjectAlias, subjectAlias)

def approveAuthorization (input : ApproveInput) : ApprovePhase → Write × Progress ApprovePhase
  | .called => (.nothing, .running (.requestRead (s.requests.get? input.requestRef)))
  | .requestRead request =>
    match checkRequest S env input request with
    | .error message => throws message
    | .ok request =>
      (.nothing, .running (.sessionRead request (s.sessions.get? (S.sha256 input.sessionToken))))
  | .sessionRead request session =>
    match session.filter fun session => session.revokedAt = none ∧ env.now < session.expiresAt with
    | none => throws (js "session_invalid")
    | some session =>
      (.nothing, .running (.clientRead request session (s.clients.get? request.clientId)))
  | .clientRead request session client =>
    match client with
    | none => throws (js "client_not_found")
    | some client =>
      if needsConsent request.scopes ∧ input.walletConsentRef.bind nonEmpty = none then
        throws (js "wallet_consent_required")
      else
        let digest := S.pairwiseHmac (session.subjectRef ++ [0] ++ client.sectorIdentifier)
        let (write, pairwiseSubjectAlias) := getOrCreatePairwiseSubject s
          (session.subjectRef ++ js ":" ++ client.clientId) (js "pairwise_" ++ digest)
        (write, .running (.pairwiseRead request session client pairwiseSubjectAlias))
  | .pairwiseRead request session client pairwiseSubjectAlias =>
    (.saveAuthorizationCode (codeRecord S env input request session client pairwiseSubjectAlias),
      .running (.codeSaved request (opaqueToken S env "vey_code" 0)))
  | .codeSaved request code =>
    (.updateAuthorizationRequest { request with status := .approved }, .returning (.ok
      (.approved (S.callback request.redirectUri code.secret input.state) code.secret
        (S.authorizationCodeTtlSeconds.getD 120))))

/-! ### Tokens -/

structure ExchangeInput where
  code : JsString
  clientId : JsString
  redirectUri : JsString
  codeVerifier : JsString
  clientSecret : Option JsString
deriving DecidableEq

/-- Tokens on their way into the store. -/
structure Issue where
  family : TokenFamily
  access : OpaqueToken
  refresh : OpaqueToken
  rotationCounter : ℕ
  now : ℤ

inductive ExchangePhase where
  | consumed (record : Option AuthorizationCodeRecord)
  | familySaved (record : AuthorizationCodeRecord) (issue : Issue)
  | accessSaved (record : AuthorizationCodeRecord) (issue : Issue)

def Issue.accessExpiresAt (issue : Issue) : ℤ :=
  issue.now + S.accessTokenTtlSeconds.getD 900 * 1000

def Issue.accessRecord (issue : Issue) : AccessTokenRecord where
  tokenRef := issue.access.ref
  tokenHash := issue.access.hash
  familyRef := issue.family.familyRef
  issuedAt := issue.now
  expiresAt := issue.accessExpiresAt S
  revokedAt := none

def Issue.refreshRecord (issue : Issue) : RefreshTokenRecord where
  tokenRef := issue.refresh.ref
  tokenHash := issue.refresh.hash
  familyRef := issue.family.familyRef
  rotationCounter := issue.rotationCounter
  issuedAt := issue.now
  expiresAt := issue.now + S.refreshTokenTtlSeconds.getD 2592000 * 1000
  consumedAt := none
  replacedByRef := none

def Issue.answer (issue : Issue) (idToken : Option JsString) : Answer :=
  .tokens issue.access.secret (S.accessTokenTtlSeconds.getD 900) issue.refresh.secret
    (S.refreshTokenTtlSeconds.getD 2592000) idToken (joinScopes issue.family.scopes)

def idToken (record : AuthorizationCodeRecord) (issue : Issue) : JsString :=
  S.sign {
    iss := S.issuer
    sub := issue.family.pairwiseSubjectAlias
    aud := issue.family.clientId
    iat := epochSeconds issue.now
    exp := epochSeconds (issue.accessExpiresAt S)
    authTime := epochSeconds record.authTime
    nonce := record.nonce
    sid := record.sessionRef
    addressWalletLinked := (record.walletConsentRef.bind nonEmpty).isSome }

/-- The comparisons from left to right; the text of the URI is normalized only if the client is
right. -/
def checkBinding (input : ExchangeInput) (record : AuthorizationCodeRecord) : Except JsString Unit :=
  if record.clientId ≠ input.clientId then .error (js "authorization_code_binding_failed")
  else do
    let redirectUri ← normalizeUrl S input.redirectUri
    if record.redirectUri ≠ redirectUri
        ∨ record.pkceChallenge ≠ S.sha256Base64url input.codeVerifier
        ∨ record.expiresAt ≤ env.now then
      .error (js "authorization_code_binding_failed")
    else return ()

/-- The family and the tokens that `issueTokenFamily` makes. -/
def issueTokenFamily (record : AuthorizationCodeRecord) : Issue where
  family := {
    familyRef := js "vey_token_family_" ++ env.random 0
    clientId := record.clientId
    pairwiseSubjectAlias := record.pairwiseSubjectAlias
    subjectRef := record.subjectRef
    scopes := record.scopes
    status := .active }
  access := opaqueToken S env "vey_access" 1
  refresh := opaqueToken S env "vey_refresh" 3
  rotationCounter := 0
  now := env.now

def exchangeAuthorizationCode (input : ExchangeInput) :
    ForClient ExchangePhase → Write × Progress (ForClient ExchangePhase)
  | .called => (.nothing, .running (.clientRead (s.clients.get? input.clientId)))
  | .clientRead client =>
    forClient S client input.clientSecret fun _ =>
      if ¬ isCodeVerifier input.codeVerifier then throws (js "invalid_code_verifier")
      else (.consumeAuthorizationCode (S.sha256 input.code) env.now,
        .running (.within (.consumed ((s.openCode (S.sha256 input.code)).map (·.consume env.now)))))
  | .within (.consumed none) => throws (js "invalid_or_replayed_authorization_code")
  | .within (.consumed (some record)) =>
    match checkBinding S env input record with
    | .error message => (.nothing, .returning (.error message))
    | .ok _ =>
      let issue := issueTokenFamily S env record
      (.saveTokenFamily issue.family, .running (.within (.familySaved record issue)))
  | .within (.familySaved record issue) =>
    (.saveAccessToken (issue.accessRecord S), .running (.within (.accessSaved record issue)))
  | .within (.accessSaved record issue) =>
    (.saveRefreshToken (issue.refreshRecord S),
      .returning (.ok (issue.answer S (some (idToken S record issue)))))

structure RefreshInput where
  refreshToken : JsString
  clientId : JsString
  clientSecret : Option JsString
deriving DecidableEq

inductive RefreshPhase where
  | tokenRead (existing : Option RefreshTokenRecord)
  | familyRead (existing : RefreshTokenRecord) (family : Option TokenFamily)
  | consumed (family : TokenFamily) (consumed : Option RefreshTokenRecord)
      (replacement : OpaqueToken)
  | accessSaved (issue : Issue)

/-- The family, if the token may be used by the client. -/
def checkFamily (input : RefreshInput) (existing : RefreshTokenRecord)
    (family : Option TokenFamily) : Option TokenFamily :=
  family.filter fun family => family.clientId = input.clientId ∧ family.status = .active
    ∧ env.now < existing.expiresAt

def refresh (input : RefreshInput) :
    ForClient RefreshPhase → Write × Progress (ForClient RefreshPhase)
  | .called => (.nothing, .running (.clientRead (s.clients.get? input.clientId)))
  | .clientRead client =>
    forClient S client input.clientSecret fun _ =>
      (.nothing, .running (.within (.tokenRead (s.refreshTokens.get? (S.sha256 input.refreshToken)))))
  | .within (.tokenRead none) => throws (js "invalid_refresh_token")
  | .within (.tokenRead (some existing)) =>
    (.nothing, .running (.within (.familyRead existing (s.families.get? existing.familyRef))))
  | .within (.familyRead existing family) =>
    match checkFamily env input existing family with
    | none => throws (js "refresh_token_inactive")
    | some family =>
      let tokenHash := S.sha256 input.refreshToken
      -- `existing` is the store's own object: its `consumedAt` is that of now
      if (s.refreshTokens.get? tokenHash).any (·.consumedAt ≠ none) then
        (.revokeFamily family.familyRef .compromised,
          .returning (.error (js "refresh_token_reuse_detected")))
      else
        let replacement := opaqueToken S env "vey_refresh" 0
        (.consumeRefreshToken tokenHash env.now replacement.ref,
          .running (.within (.consumed family
            ((s.openRefreshToken tokenHash).map (·.consume env.now replacement.ref))
            replacement)))
  | .within (.consumed family none _) =>
    (.revokeFamily family.familyRef .compromised,
      .returning (.error (js "refresh_token_replay_race")))
  | .within (.consumed family (some consumed) replacement) =>
    let issue : Issue := {
      family := family
      access := opaqueToken S env "vey_access" 0
      refresh := replacement
      rotationCounter := consumed.rotationCounter + 1
      now := env.now }
    (.saveAccessToken (issue.accessRecord S), .running (.within (.accessSaved issue)))
  | .within (.accessSaved issue) =>
    (.saveRefreshToken (issue.refreshRecord S), .returning (.ok (issue.answer S none)))

inductive IntrospectPhase where
  | tokenRead (token : Option AccessTokenRecord)
  | familyRead (token : AccessTokenRecord) (family : Option TokenFamily)

/-- From the token on; `clientId` is the client that must be the family's, if any. -/
def introspectToken (clientId : Option JsString) :
    IntrospectPhase → Write × Progress (ForClient IntrospectPhase)
  | .tokenRead token =>
    match token.filter fun token => token.revokedAt = none ∧ env.now < token.expiresAt with
    | none => (.nothing, .answered (.ok .inactive))
    | some token =>
      (.nothing, .running (.within (.familyRead token (s.families.get? token.familyRef))))
  | .familyRead token family =>
    match family.filter (·.status = .active) with
    | none => (.nothing, .answered (.ok .inactive))
    | some family =>
      if clientId.any (· ≠ family.clientId) then (.nothing, .answered (.ok .inactive))
      else (.nothing, .answered (.ok (.active family.clientId family.pairwiseSubjectAlias
        (joinScopes family.scopes) (epochSeconds token.expiresAt))))

def introspect (accessToken : JsString) :
    ForClient IntrospectPhase → Write × Progress (ForClient IntrospectPhase)
  | .called =>
    (.nothing, .running (.within (.tokenRead (s.access.get? (S.sha256 accessToken)))))
  -- no client is asked for
  | .clientRead _ => throws []
  | .within phase => introspectToken env s none phase

structure ClientTokenInput where
  token : JsString
  clientId : JsString
  clientSecret : Option JsString
deriving DecidableEq

def introspectForClient (input : ClientTokenInput) :
    ForClient IntrospectPhase → Write × Progress (ForClient IntrospectPhase)
  | .called => (.nothing, .running (.clientRead (s.clients.get? input.clientId)))
  | .clientRead client =>
    forClient S client input.clientSecret fun _ =>
      (.nothing, .running (.within (.tokenRead (s.access.get? (S.sha256 input.token)))))
  | .within phase => introspectToken env s (some input.clientId) phase

inductive RevokePhase where
  | called
  | accessRead (access : Option AccessTokenRecord)
  | refreshRead (refresh : Option RefreshTokenRecord)

def revokeKnown {α : Type} (familyRef : Option JsString) : Write × Progress α :=
  match familyRef.bind nonEmpty with
  | some familyRef => (.revokeFamily familyRef .revoked, .returning (.ok .revoked))
  | none => (.nothing, .returning (.ok .revoked))

def revoke (token : JsString) : RevokePhase → Write × Progress RevokePhase
  | .called => (.nothing, .running (.accessRead (s.access.get? (S.sha256 token))))
  | .accessRead (some access) => revokeKnown (some access.familyRef)
  | .accessRead none =>
    (.nothing, .running (.refreshRead (s.refreshTokens.get? (S.sha256 token))))
  | .refreshRead refresh => revokeKnown (refresh.map (·.familyRef))

inductive ClientRevokePhase where
  | accessRead (access : Option AccessTokenRecord)
  | refreshRead (refresh : Option RefreshTokenRecord)
  | familyRead (familyRef : JsString) (family : Option TokenFamily)

/-- The family is read, if the token is known. -/
def readFamily (familyRef : Option JsString) : Write × Progress (ForClient ClientRevokePhase) :=
  match familyRef.bind nonEmpty with
  | some familyRef =>
    (.nothing, .running (.within (.familyRead familyRef (s.families.get? familyRef))))
  | none => (.nothing, .returning (.ok .revoked))

def revokeForClient (input : ClientTokenInput) :
    ForClient ClientRevokePhase → Write × Progress (ForClient ClientRevokePhase)
  | .called => (.nothing, .running (.clientRead (s.clients.get? input.clientId)))
  | .clientRead client =>
    forClient S client input.clientSecret fun _ =>
      (.nothing, .running (.within (.accessRead (s.access.get? (S.sha256 input.token)))))
  | .within (.accessRead (some access)) => readFamily s (some access.familyRef)
  | .within (.accessRead none) =>
    (.nothing, .running (.within (.refreshRead (s.refreshTokens.get? (S.sha256 input.token)))))
  | .within (.refreshRead refresh) => readFamily s (refresh.map (·.familyRef))
  | .within (.familyRead familyRef family) =>
    if family.any (·.clientId = input.clientId) then
      (.revokeFamily familyRef .revoked, .returning (.ok .revoked))
    else (.nothing, .returning (.ok .revoked))

end Calls

end Agid.VeygritId
