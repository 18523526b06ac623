import ServerCentral.Oidc.RefreshSafety
import ServerCentral.Oidc.Provider

/-!
# Deleting a registration and replacing its secret

`deleteClient` removes the registration, awaits the write of the file and then drops the
refresh tokens issued to the client. `regenerateSecret` draws a secret, awaits its hash
and then stores the hash. `registrationMachine` runs both with the server, cut at their
awaits.

A token request captures the record of its client before it awaits the verification of
the secret: that is the `OidcClientRecord` of `OidcTask.verifyingClient`.
-/

open Framework

namespace ServerCentral.Oidc

/-- `Bun.password.hash`, with the salt it draws. -/
structure SecretEnv extends OidcEnv where
  hash : ℕ → String → String

/-- What is relied on of `Bun.password`: a hash verifies the secret it was made from and no
other. -/
def SecretEnv.Verifies (env : SecretEnv) : Prop :=
  ∀ x salt y, env.verify x (env.hash salt y) = true ↔ x = y

namespace OidcStore

def deleteClient (s : OidcStore) (clientId : String) : OidcStore :=
  { s with apps := s.apps.erase clientId }

/-- The assignment to `rec.secretHash`. A record that was deleted meanwhile is out of the
store. -/
def storeSecret (s : OidcStore) (clientId secretHash : String) : OidcStore :=
  { s with apps := s.apps.modify clientId fun rec => { rec with secretHash } }

end OidcStore

/-! ### The two operations -/

/-- The await positions, with the local variables used after them. -/
inductive AdminTask where
  /-- `deleteClient` awaits the write of the registrations, if there was one to delete. -/
  | deleting (clientId : String) (persists : Bool)
  /-- `deleteClient` awaits the end of `revokeForClient`. -/
  | sweeping (clientId : String) (persists : Bool)
  /-- `regenerateSecret` awaits the hash of the drawn secret. -/
  | hashing (clientId secret : String)
  /-- `regenerateSecret` awaits the write of the registrations. -/
  | savingSecret (clientId secret : String)
  deriving DecidableEq, Repr

/-- Whether the awaited promise can reject: there is nothing to write when nothing changed. -/
def AdminTask.canFail : AdminTask → Bool
  | .deleting _ persists => persists
  | .sweeping _ persists => persists
  | .hashing _ _ => true
  | .savingSecret _ _ => true

/-- How an operation goes on after a segment. -/
inductive AdminNext where
  | await (task : AdminTask)
  | deleted (clientId : String)
  | regenerated (clientId clientSecret : String)
  | failed (message : String)
  deriving DecidableEq, Repr

/-- What an awaited promise brings: the message of its error, and the salt of a hash. -/
structure Settled where
  error : Option String
  salt : ℕ
  deriving DecidableEq, Repr

/-- The server with the suspended operations and their number so far. The history keeps
the client every token request names, the secrets drawn and the hashes stored. -/
structure RegistrationState where
  server : ServerState
  admin : Table ℕ AdminTask
  calls : ℕ
  clientOf : Table ℕ String
  secrets : List String
  hashes : List String

inductive RegistrationLabel where
  | server (l : ServerLabel)
  | deleteClient (clientId : String)
  | regenerateSecret (clientId clientSecret : String)
  /-- What a suspended operation waits for has settled. -/
  | settle (call : ℕ) (r : Settled)

inductive RegistrationOut where
  | server (o : ServerOut)
  | admin (call : ℕ) (next : AdminNext)

namespace RegistrationState

variable (env : SecretEnv)

/-- The random source never repeats a secret, nor draws one that is in use. -/
def Fresh (s : RegistrationState) (clientSecret : String) : Prop :=
  clientSecret ∉ s.secrets ∧ ∀ h ∈ s.hashes, env.verify clientSecret h = false

instance (s : RegistrationState) (clientSecret : String) : Decidable (s.Fresh env clientSecret) := by
  unfold Fresh
  infer_instance

/-- An operation after a segment. -/
def after (s : RegistrationState) (call : ℕ) (next : AdminNext) : RegistrationState :=
  { s with
    admin := match next with
      | .await task => s.admin.set call task
      | _ => s.admin.erase call }

/-- The segment of an operation after an await that succeeded. -/
def continuation (s : RegistrationState) (salt : ℕ) : AdminTask → RegistrationState × AdminNext
  | .deleting clientId _ =>
    let revoked := s.server.refresh.revokeForClient clientId
    ({ s with server := { s.server with refresh := revoked.store } },
      .await (.sweeping clientId revoked.persists))
  | .sweeping clientId _ => (s, .deleted clientId)
  | .hashing clientId secret =>
    let secretHash := env.hash salt secret
    ({ s with
        server := { s.server with oidc := s.server.oidc.storeSecret clientId secretHash }
        hashes := secretHash :: s.hashes },
      .await (.savingSecret clientId secret))
  | .savingSecret clientId secret => (s, .regenerated clientId secret)

/-- The history of the token requests: which client each of them names. -/
def named (s : RegistrationState) : ServerLabel → ServerOut → Table ℕ String
  | .token _ clientId _, .handler task (.await _) => s.clientOf.set task clientId
  | _, _ => s.clientOf

def step (s : RegistrationState) :
    RegistrationLabel → Option (RegistrationState × RegistrationOut)
  | .server l =>
    (s.server.step env.toOidcEnv l).map fun (server, o) =>
      ({ s with server := server, clientOf := s.named l o }, .server o)
  | .deleteClient clientId =>
    let task := AdminTask.deleting clientId (s.server.oidc.apps.has clientId)
    some
      ({ s with
          server := { s.server with oidc := s.server.oidc.deleteClient clientId }
          admin := s.admin.set s.calls task
          calls := s.calls + 1 },
        .admin s.calls (.await task))
  | .regenerateSecret clientId clientSecret =>
    if !s.server.oidc.apps.has clientId then
      some ({ s with calls := s.calls + 1 }, .admin s.calls (.failed "Unknown client"))
    else if s.Fresh env clientSecret then
      some
        ({ s with
            admin := s.admin.set s.calls (.hashing clientId clientSecret)
            calls := s.calls + 1
            secrets := clientSecret :: s.secrets },
          .admin s.calls (.await (.hashing clientId clientSecret)))
    else none
  | .settle call r =>
    (s.admin.get? call).bind fun task =>
      match r.error with
      | some message =>
        if task.canFail then
          some (s.after call (.failed message), .admin call (.failed message))
        else none
      | none =>
        let (s', next) := s.continuation env r.salt task
        some (s'.after call next, .admin call next)

end RegistrationState

/-- What the files hold at start-up. `createClient` files a registration under its id. -/
structure RegistrationStart where
  auth : Auth.AuthStore
  apps : Table String OidcClientRecord
  refresh : RefreshTokenStore
  ids : ∀ k rec, apps.get? k = some rec → rec.id = k

/-- **The server with the operations on registrations.** -/
def registrationMachine (env : SecretEnv) (start : RegistrationStart) :
    Machine RegistrationState RegistrationLabel RegistrationOut where
  init :=
    { server := .loaded start.auth start.apps start.refresh
      admin := .empty
      calls := 0
      clientOf := .empty
      secrets := []
      hashes := start.apps.values.map OidcClientRecord.secretHash }
  step s l := s.step env l

/-! ### What is asked of it -/

/-- Whether a handler is about to refuse its client. -/
def wrongSecret (env : SecretEnv) : OidcTask → Bool
  | .verifyingClient _ client secret => !env.verify secret client.secretHash
  | _ => false

/-- The client of a token request is still registered whenever the handler goes on, unless
it goes on to refuse the secret. -/
def ClientStands (env : SecretEnv) (s : RegistrationState) : RegistrationLabel → Prop
  | .server (.resume task _) =>
    ∀ clientId ∈ s.clientOf.get? task,
      s.server.oidc.apps.has clientId = true ∨
        (s.server.tasks.get? task).any (wrongSecret env) = true
  | _ => True

instance (env : SecretEnv) (s : RegistrationState) (l : RegistrationLabel) :
    Decidable (ClientStands env s l) := by
  unfold ClientStands
  split <;> infer_instance

abbrev RegistrationTrace := List (RegistrationLabel × RegistrationOut)

/-- A deletion of a client has completed. -/
def DeletedIn (tr : RegistrationTrace) (clientId : String) : Prop :=
  ∃ l call, (l, RegistrationOut.admin call (.deleted clientId)) ∈ tr

/-- Handler `task` serves a token request that names a client. -/
def RequestedIn (tr : RegistrationTrace) (task : ℕ) (clientId : String) : Prop :=
  ∃ grant secret w,
    (RegistrationLabel.server (.token grant clientId secret),
      RegistrationOut.server (.handler task (.await w))) ∈ tr

/-- A secret that was valid before `regenerateSecret` stored another one, in a call that has
completed. -/
def ReplacedIn (env : SecretEnv) (start : RegistrationStart) (tr : RegistrationTrace)
    (clientId secret : String) : Prop :=
  ∃ pre call clientSecret l post,
    tr = pre ++ (l, .admin call (.await (.savingSecret clientId clientSecret))) :: post ∧
      (∃ l', (l', RegistrationOut.admin call (.regenerated clientId clientSecret)) ∈ post) ∧
      ∃ before m rec, before <+: pre ∧ (registrationMachine env start).Run before m ∧
        m.server.oidc.apps.get? clientId = some rec ∧ env.verify secret rec.secretHash = true

/-- In the steps `post`, the answer of a handler is the refusal of its client. -/
def OnlyRefuses (post : RegistrationTrace) (task : ℕ) : Prop :=
  ∀ l next, (l, RegistrationOut.server (.handler task next)) ∈ post →
    next = .refused "invalid_client"

/-- **What the deletion of a client means** for its tokens. -/
structure DeletionsSafe (tr : RegistrationTrace) (s : RegistrationState) : Prop where
  /-- Once a client is deleted, the store holds no token for it. -/
  swept : ∀ clientId, DeletedIn tr clientId →
    ∀ k rec, s.server.refresh.tokens.get? k = some rec → rec.clientId ≠ clientId
  /-- No response gives tokens to a request of a deleted client. -/
  silent : ∀ pre l task refreshToken post clientId,
    tr = pre ++ (l, .server (.handler task (.tokens refreshToken))) :: post →
      RequestedIn pre task clientId → ¬DeletedIn pre clientId

/-- **What the replacement of a secret means**: a request that presents the old one is
refused, at once or after the check. -/
def ReplacementsSafe (env : SecretEnv) (start : RegistrationStart) (tr : RegistrationTrace) :
    Prop :=
  ∀ pre grant clientId secret task next post,
    tr = pre ++ (.server (.token grant clientId secret), .server (.handler task next)) :: post →
      ReplacedIn env start pre clientId secret →
        next = .refused "invalid_client" ∨ (∃ w, next = .await w) ∧ OnlyRefuses post task

end ServerCentral.Oidc
