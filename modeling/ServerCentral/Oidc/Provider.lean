import ServerCentral.Auth.Machine
import ServerCentral.Oidc.Device
import ServerCentral.Oidc.Refresh

/-!
# The OpenID provider

The handlers that turn one credential into another: a session into an authorization
code (`completeAuthorize`) or an approved device request (`approveDevice`), and a code,
an approved device or a refresh token into tokens (the three grants of
`POST /oidc/token`). `serverMachine` runs them together with the methods of
`AuthStore`; resetting a password and deleting an account call `revokeForUser` through
`onCredentialsRevoked`.

A handler is cut at its awaits like the methods of `AuthStore`. What a segment reads
from stores that are not part of this model comes with its step: the verdict of
`assertMayAccess`, which depends on roles and linked apps, and the configured primary
URL. The registered clients do not change.
-/

open Framework ServerCentral.Auth

namespace ServerCentral.Oidc

/-- 60 seconds. -/
def codeTtlMs : ℕ := 60 * 1000

structure OidcClientRecord where
  id : String
  name : String
  redirectUris : List String
  secretHash : String
  deriving DecidableEq, Repr

/-- The `data` of `completeAuthorize`. -/
structure OidcAuthorizeParams where
  clientId : String
  redirectUri : String
  scope : String
  codeChallenge : String
  codeChallengeMethod : String
  nonce : Option String
  deriving DecidableEq, Repr

structure AuthCodeRecord where
  userId : String
  clientId : String
  redirectUri : String
  scope : String
  codeChallenge : String
  nonce : Option String
  issuedAt : ℕ
  expiresAt : ℕ
  deriving DecidableEq, Repr

/-- `Bun.password.verify` for client secrets, the SHA-256 comparison of PKCE, and the
digest of refresh tokens. -/
structure OidcEnv extends AuthEnv where
  verifyPkce : String → String → Bool
  digest : String → String

/-! ### Clients and codes -/

structure OidcStore where
  apps : Table String OidcClientRecord
  codes : Table String AuthCodeRecord

namespace OidcStore

/-- The client an authorization request is for, or the message of the error. Reading
`redirectUris` of an inherited property throws as well. -/
def validateRequest (s : OidcStore) (params : OidcAuthorizeParams) :
    Except String OidcClientRecord :=
  match s.apps.get? params.clientId with
  | none => .error "Unknown client"
  | some rec =>
    if rec.redirectUris.isEmpty then
      .error "This client has no redirect URIs registered yet — add the app's callback URL under Settings → SSO Clients"
    else if !rec.redirectUris.contains params.redirectUri then
      .error "redirect_uri does not match a registered URI for this client"
    else if params.codeChallengeMethod ≠ "S256" ∨ params.codeChallenge = "" then
      .error "PKCE (S256 code_challenge) is required"
    else .ok rec

/-- Mint a code bound to a request. -/
def issueCode (s : OidcStore) (userId : String) (client : OidcClientRecord)
    (params : OidcAuthorizeParams) (code : String) (now : ℕ) : OidcStore :=
  { s with
    codes := s.codes.set code
      { userId, clientId := client.id, redirectUri := params.redirectUri, scope := params.scope
        codeChallenge := params.codeChallenge, nonce := params.nonce
        issuedAt := now, expiresAt := now + codeTtlMs } }

/-- Consume a code: it is gone in any case, and returned when it has not expired. -/
def consumeCode (s : OidcStore) (code : String) (now : ℕ) : OidcStore × Option AuthCodeRecord :=
  ({ s with codes := s.codes.erase code },
    (s.codes.get? code).filter fun rec => !decide (rec.expiresAt < now))

end OidcStore

/-- Whether a scope earns a refresh token. -/
def hasOfflineAccess (scope : String) : Bool :=
  (scope.toList.splitOnP isSpace).contains "offline_access".toList

/-! ### Handlers -/

/-- The `error` of a failed poll. -/
def DevicePollError.text : DevicePollError → String
  | .authorizationPending => "authorization_pending"
  | .slowDown => "slow_down"
  | .accessDenied => "access_denied"
  | .expiredToken => "expired_token"
  | .invalidGrant => "invalid_grant"

/-- The operations of the browser half. -/
inductive FrontOp where
  | completeAuthorize (params : OidcAuthorizeParams)
  | approveDevice (userCode : List Char)
  deriving DecidableEq, Repr

/-- What a client presents at the token endpoint. -/
inductive GrantRequest where
  | authorizationCode (code redirectUri codeVerifier : String)
  | deviceCode (deviceCode : String)
  | refreshToken (token : String)
  deriving DecidableEq, Repr

/-- The await positions of the handlers, with the local variables used after them. -/
inductive OidcTask where
  /-- An authenticated operation waits for its body. -/
  | requested (op : FrontOp) (user : UserInfo)
  /-- A grant awaits the verification of the client secret. -/
  | verifyingClient (grant : GrantRequest) (client : OidcClientRecord) (secret : String)
  /-- A code or device grant has passed its checks and awaits the configuration. -/
  | configuring (userId clientId scope : String)
  /-- A refresh grant awaits `rotate`. -/
  | rotating (clientId : String) (outcome : RotateOutcome)
  /-- A refresh grant has passed its checks and awaits the configuration. -/
  | reading (next : String)
  /-- A code or device grant awaits the write of its refresh token before it responds. -/
  | responding (refreshToken : Option String)
  deriving DecidableEq, Repr

/-- What a segment of a handler takes from outside. -/
structure OidcInput where
  /-- The message of `assertMayAccess`, if it throws. -/
  accessError : Option String
  /-- Whether a primary URL is configured. -/
  hasPrimaryUrl : Bool
  /-- The drawn code or refresh token, and the drawn family id. -/
  token : String
  familyId : String
  /-- The clock readings, in order. -/
  t₁ : ℕ
  t₂ : ℕ
  t₃ : ℕ
  t₄ : ℕ
  deriving DecidableEq, Repr

/-- How a handler goes on after a segment. -/
inductive OidcNext where
  | await (task : OidcTask)
  | redirect (code : String)
  | approved
  | tokens (refreshToken : Option String)
  | refused (error : String)
  deriving DecidableEq, Repr

/-- The stores, the suspended handlers, and the number of handlers so far. The clock and
the draws are those of `auth`. -/
structure ServerState where
  auth : AuthState
  oidc : OidcStore
  devices : DeviceCodeStore
  refresh : RefreshTokenStore
  tasks : Table ℕ OidcTask
  calls : ℕ

namespace ServerState

variable (env : OidcEnv)

/-- `completeAuthorize` for the user the request was authenticated as. -/
def completeAuthorize (s : ServerState) (user : UserInfo) (params : OidcAuthorizeParams)
    (i : OidcInput) : ServerState × OidcNext :=
  match s.oidc.validateRequest params with
  | .error message => (s, .refused message)
  | .ok client =>
    match i.accessError with
    | some message => (s, .refused message)
    | none =>
      ({ s with oidc := s.oidc.issueCode user.id client params i.token i.t₁ }, .redirect i.token)

/-- `approveDevice` for the user the request was authenticated as. -/
def approveDevice (s : ServerState) (user : UserInfo) (userCode : List Char) (i : OidcInput) :
    ServerState × OidcNext :=
  let (devices, found) := s.devices.findPending userCode i.t₁
  let pruned := { s with devices := devices }
  match found with
  | none => (pruned,
      .refused "That code is no longer valid. Check the code on your device, or start again there.")
  | some rec =>
    match s.oidc.apps.get? rec.clientId with
    | none => (pruned, .refused "The app that requested this code is no longer registered.")
    | some _ =>
      match i.accessError with
      | some message => (pruned, .refused message)
      | none =>
        ({ pruned with
            devices := (pruned.devices.resolve userCode .approved user.id i.t₂ i.t₃).1 },
          .approved)

/-- The authorization-code grant, once its client is verified. -/
def codeGrant (s : ServerState) (client : OidcClientRecord) (code redirectUri codeVerifier : String)
    (i : OidcInput) : ServerState × OidcNext :=
  let (oidc, found) := s.oidc.consumeCode code i.t₁
  let consumed := { s with oidc := oidc }
  match found with
  | none => (consumed, .refused "invalid_grant")
  | some grant =>
    if grant.clientId ≠ client.id ∨ grant.redirectUri ≠ redirectUri then
      (consumed, .refused "invalid_grant")
    else if !env.verifyPkce codeVerifier grant.codeChallenge then
      (consumed, .refused "invalid_grant")
    else
      match s.auth.store.getUserById grant.userId with
      | none => (consumed, .refused "invalid_grant")
      | some user => (consumed, .await (.configuring user.id client.id grant.scope))

/-- The device grant, once its client is verified. -/
def deviceGrant (s : ServerState) (client : OidcClientRecord) (deviceCode : String)
    (i : OidcInput) : ServerState × OidcNext :=
  match s.devices.poll deviceCode client.id i.t₁ i.t₂ i.t₃ with
  | (devices, .error error) => ({ s with devices := devices }, .refused error.text)
  | (devices, .ok grant) =>
    match s.auth.store.getUserById grant.userId with
    | none => ({ s with devices := devices }, .refused "invalid_grant")
    | some user =>
      ({ s with devices := devices }, .await (.configuring user.id client.id grant.record.scope))

/-- The refresh grant, once its client is verified. -/
def refreshGrant (s : ServerState) (client : OidcClientRecord) (token : String) (i : OidcInput) :
    ServerState × OidcNext :=
  let c := s.refresh.rotate env.digest token i.token i.t₁ i.t₂ i.t₃ i.t₄
  ({ s with refresh := c.store }, .await (.rotating client.id c.result))

/-- The end of the code and device grants. -/
def issueTokens (s : ServerState) (userId clientId scope : String) (i : OidcInput) :
    ServerState × OidcNext :=
  if !i.hasPrimaryUrl then (s, .refused "server_error")
  else if hasOfflineAccess scope then
    ({ s with
        refresh := (s.refresh.issue env.digest ⟨userId, clientId, scope⟩ i.familyId i.token
          i.t₁ i.t₂).store },
      .await (.responding (some i.token)))
  else (s, .tokens none)

/-- The end of the refresh grant: a rotation for another client or for a missing account
revokes the family. -/
def finishRotation (s : ServerState) (clientId : String) (outcome : RotateOutcome) :
    ServerState × OidcNext :=
  match outcome with
  | .rejected => (s, .refused "invalid_grant")
  | .reused => (s, .refused "invalid_grant")
  | .rotated grant next =>
    if grant.clientId ≠ clientId ∨ s.auth.store.getUserById grant.userId = none then
      ({ s with refresh := (s.refresh.revokeFamily grant.familyId).store },
        .refused "invalid_grant")
    else (s, .await (.reading next))

/-- The segment of a handler after an await. -/
def continuation (s : ServerState) (i : OidcInput) : OidcTask → ServerState × OidcNext
  | .requested (.completeAuthorize params) user => s.completeAuthorize user params i
  | .requested (.approveDevice userCode) user => s.approveDevice user userCode i
  | .verifyingClient grant client secret =>
    if !env.verify secret client.secretHash then (s, .refused "invalid_client")
    else
      match grant with
      | .authorizationCode code redirectUri codeVerifier =>
        s.codeGrant env client code redirectUri codeVerifier i
      | .deviceCode deviceCode => s.deviceGrant client deviceCode i
      | .refreshToken token => s.refreshGrant env client token i
  | .configuring userId clientId scope => s.issueTokens env userId clientId scope i
  | .rotating clientId outcome => s.finishRotation clientId outcome
  | .reading next =>
    if i.hasPrimaryUrl then (s, .tokens (some next)) else (s, .refused "server_error")
  | .responding refreshToken => (s, .tokens refreshToken)

end ServerState

/-! ### The server under concurrent requests -/

inductive ServerLabel where
  /-- A step of `AuthStore` that creates no account. -/
  | auth (l : AuthLabel)
  /-- A browser operation arrives: it is authenticated, and its handler waits. -/
  | front (op : FrontOp) (token : Option String) (checkedAt seenAt : ℕ)
  /-- A device whose client is verified asks for a code. -/
  | openDevice (params : DeviceParams) (deviceCode : String)
      (draws : ℕ → Fin userCodeLength → Fin 20) (prunedAt now : ℕ)
  /-- A grant request arrives at the token endpoint. -/
  | token (grant : GrantRequest) (clientId secret : String)
  /-- A suspended handler goes on. -/
  | resume (task : ℕ) (i : OidcInput)

/-- What a step does: a segment of a method of `AuthStore`, or of a handler. -/
inductive ServerOut where
  | auth (o : AuthOut)
  | handler (task : ℕ) (next : OidcNext)
  | device (result : Except String DeviceRequestRecord)

/-- The steps of `AuthStore` the server takes: every method but the two that create
accounts. -/
def createsAccount : AuthLabel → Bool
  | .call (.setupOwner _ _ _ _ _) => true
  | .call (.addUser _ _ _ _ _) => true
  | _ => false

namespace ServerState

variable (env : OidcEnv)

/-- The handlers' clock and draws are those of the account store. -/
def tick (s : ServerState) (now : ℕ) (draws : List String) : ServerState :=
  { s with auth := { s.auth with clock := now, minted := draws ++ s.auth.minted } }

/-- A handler after a segment. -/
def after (s : ServerState) (task : ℕ) (next : OidcNext) : ServerState :=
  { s with
    tasks := match next with
      | .await t => s.tasks.set task t
      | _ => s.tasks.erase task }

/-- `onCredentialsRevoked`, which `deleteSessionsForUser` awaits as its last step. -/
def notified (s : ServerState) (o : AuthOut) : ServerState :=
  match o.next with
  | .await (.notifying userId) => { s with refresh := (s.refresh.revokeForUser userId).store }
  | _ => s

/-- A step of `AuthStore` inside the server. -/
def authStep (s : ServerState) (l : AuthLabel) : Option (ServerState × AuthOut) :=
  (s.auth.step env.toAuthEnv l).map fun (auth, o) => (({ s with auth := auth }).notified o, o)

/-- The clock never runs backwards, and the random source never repeats itself. -/
def Fresh (s : ServerState) (readings : List ℕ) (draws : List String) : Prop :=
  (s.auth.clock :: readings).Pairwise (· ≤ ·) ∧ ∀ x ∈ draws, x ∉ s.auth.minted

instance (s : ServerState) (readings : List ℕ) (draws : List String) :
    Decidable (s.Fresh readings draws) := by
  unfold Fresh
  infer_instance

def step (s : ServerState) : ServerLabel → Option (ServerState × ServerOut)
  | .auth l =>
    if createsAccount l then none
    else (s.authStep env l).map fun (s', o) => (s', .auth o)
  | .front op token checkedAt seenAt =>
    (s.authStep env (.call (.authenticate token checkedAt seenAt))).map fun (s', o) =>
      match o.next with
      | .return (.identity (some user)) =>
        ({ s' with tasks := s'.tasks.set s.calls (.requested op user), calls := s.calls + 1 },
          .handler s.calls (.await (.requested op user)))
      | _ => (s', .auth o)
  | .openDevice params deviceCode draws prunedAt now =>
    if s.Fresh [prunedAt, now] [deviceCode] then
      let (devices, result) := s.devices.request params deviceCode draws prunedAt now
      some (({ s with devices := devices }).tick now [deviceCode], .device result)
    else none
  | .token grant clientId secret =>
    some <|
      match s.oidc.apps.get? clientId with
      | none => (s, .handler s.calls (.refused "invalid_client"))
      | some client =>
        ({ s with
            tasks := s.tasks.set s.calls (.verifyingClient grant client secret)
            calls := s.calls + 1 },
          .handler s.calls (.await (.verifyingClient grant client secret)))
  | .resume task i =>
    if s.Fresh [i.t₁, i.t₂, i.t₃, i.t₄] [i.token, i.familyId] then
      (s.tasks.get? task).map fun t =>
        let (s', next) := s.continuation env i t
        ((s'.after task next).tick i.t₄ [i.token, i.familyId], .handler task next)
    else none

/-- The state after start-up. -/
def loaded (auth : AuthStore) (apps : Table String OidcClientRecord) (refresh : RefreshTokenStore) :
    ServerState :=
  ⟨.loaded auth, ⟨apps, .empty⟩, ⟨.empty⟩, refresh, .empty, 0⟩

end ServerState

/-- **The server**, started on what the files hold. -/
def serverMachine (env : OidcEnv) (auth : AuthStore) (apps : Table String OidcClientRecord)
    (refresh : RefreshTokenStore) : Machine ServerState ServerLabel ServerOut where
  init := .loaded auth apps refresh
  step s l := s.step env l

end ServerCentral.Oidc
