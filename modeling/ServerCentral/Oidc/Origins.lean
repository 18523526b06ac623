import ServerCentral.Auth.Steps
import ServerCentral.Oidc.Provider

/-!
# Where credentials come from

A reset of an account is a call of `adminSetPassword` or `deleteUser` that has passed
its checks; the resets of one account are numbered from 1 in the order in which they
start. The origin of a credential is the number of resets of its account that had
started when the password behind it was verified: what was there at start-up has the
origin 0, a session has the origin of its login, a code or an approved device that of
the session it was granted with, and a refresh token that of the code, the device or
the refresh token it was exchanged for. So a credential was issued, or its password
verified, before reset `n` started exactly when its origin is below `n`.

`trackedMachine` carries the origins along with the server. They are history variables:
no step of the server reads them.
-/

open Framework ServerCentral.Auth

namespace ServerCentral.Oidc

/-- The history variables. -/
structure Origins where
  /-- The number of resets of an account that have started. -/
  resets : String → ℕ
  /-- The number of the reset that a task of `AuthStore` carries out. -/
  number : ℕ → ℕ
  /-- The origin of a login, by its task. -/
  login : ℕ → ℕ
  /-- The origin of a session, by its token. -/
  session : String → ℕ
  /-- The origin of what a handler works for, by its task. -/
  handler : ℕ → ℕ
  /-- The origin of an authorization code. -/
  code : String → ℕ
  /-- The origin of an approved device request, by its device code. -/
  device : String → ℕ
  /-- The origin of a refresh token, by its digest. -/
  row : String → ℕ
  /-- The latest reset of an account that has swept its sessions. -/
  sweptSessions : String → ℕ
  /-- The latest reset of an account that has swept its refresh tokens. -/
  sweptRows : String → ℕ
  /-- The latest reset of an account that has completed. -/
  completed : String → ℕ

namespace Origins

/-- Nothing has been reset, and everything is as old as the start. -/
def start : Origins :=
  ⟨fun _ => 0, fun _ => 0, fun _ => 0, fun _ => 0, fun _ => 0, fun _ => 0, fun _ => 0, fun _ => 0,
    fun _ => 0, fun _ => 0, fun _ => 0⟩

/-- Raise the value at `u` to `n`. -/
def raise (f : String → ℕ) (u : String) (n : ℕ) : String → ℕ :=
  Function.update f u (max (f u) n)

/-- A reset of `u` starts in the task `t`. -/
def startReset (g : Origins) (u : String) (t : ℕ) : Origins :=
  { g with
    resets := Function.update g.resets u (g.resets u + 1)
    number := Function.update g.number t (g.resets u + 1) }

/-- A segment of a method of `AuthStore`; `before` is the await it resumes from. -/
def afterAuth (g : Origins) (before : Option AuthTask) (o : AuthOut) : Origins :=
  match before, o.next with
  | none, .await (.verifying attempt) =>
    { g with login := Function.update g.login o.task (attempt.userId.elim 0 g.resets) }
  | none, .await (.hashingPassword u) => g.startReset u o.task
  | none, .await (.savingReset u) => g.startReset u o.task
  | some (.verifying _), .await (.openingSession token _) =>
    { g with session := Function.update g.session token (g.login o.task) }
  | some (.savingReset u), .await (.sweepingSessions _) =>
    { g with sweptSessions := raise g.sweptSessions u (g.number o.task) }
  | some (.savingReset u), .await (.notifying _) =>
    { g with
      sweptSessions := raise g.sweptSessions u (g.number o.task)
      sweptRows := raise g.sweptRows u (g.number o.task) }
  | some (.sweepingSessions u), .await (.notifying _) =>
    { g with sweptRows := raise g.sweptRows u (g.number o.task) }
  | some (.notifying u), .return .done =>
    { g with completed := raise g.completed u (g.number o.task) }
  | _, _ => g

/-- A method that ends in its first segment leaves no trace. -/
theorem afterAuth_of_not_await (g : Origins) {o : AuthOut} (h : ∀ task, o.next ≠ .await task) :
    g.afterAuth none o = g := by
  cases h_next : o.next with
  | await task => exact absurd h_next (h task)
  | «return» result => simp only [afterAuth, h_next]
  | throw message => simp only [afterAuth, h_next]

/-- A segment of the handler `task`, from the await `before`, between the states `s` and
`s'`. -/
def afterHandler (digest : String → String) (g : Origins) (task : ℕ) (before : OidcTask)
    (next : OidcNext) (s s' : ServerState) : Origins :=
  match before, next with
  | .requested (.completeAuthorize _) _, .redirect code =>
    { g with code := Function.update g.code code (g.handler task) }
  | .requested (.approveDevice _) _, .approved =>
    { g with
      device := fun d =>
        if (s'.devices.requests.get? d).any (·.status = .approved) &&
            !(s.devices.requests.get? d).any (·.status = .approved) then g.handler task
        else g.device d }
  | .verifyingClient (.authorizationCode code _ _) _ _, .await (.configuring _ _ _) =>
    { g with handler := Function.update g.handler task (g.code code) }
  | .verifyingClient (.deviceCode d) _ _, .await (.configuring _ _ _) =>
    { g with handler := Function.update g.handler task (g.device d) }
  | .verifyingClient (.refreshToken token) _ _, .await (.rotating _ (.rotated _ replacement)) =>
    { g with row := Function.update g.row (digest replacement) (g.row (digest token)) }
  | .configuring _ _ _, .await (.responding (some token)) =>
    { g with row := Function.update g.row (digest token) (g.handler task) }
  | _, _ => g

/-- A step of the server. -/
def after (env : OidcEnv) (g : Origins) (s : ServerState) (l : ServerLabel) (s' : ServerState)
    (o : ServerOut) : Origins :=
  match l, o with
  | .auth (.call _), .auth o => g.afterAuth none o
  | .auth (.resume t _), .auth o => g.afterAuth (s.auth.tasks.get? t) o
  | .front _ (some token) _ _, .handler task _ =>
    { g with handler := Function.update g.handler task (g.session token) }
  | .resume t _, .handler _ next =>
    match s.tasks.get? t with
    | some before => g.afterHandler env.digest t before next s s'
    | none => g
  | _, _ => g

end Origins

/-- **The server with its history variables.** -/
def trackedMachine (env : OidcEnv) (auth : AuthStore) (apps : Table String OidcClientRecord)
    (refresh : RefreshTokenStore) : Machine (ServerState × Origins) ServerLabel ServerOut where
  init := (.loaded auth apps refresh, .start)
  step s l := ((serverMachine env auth apps refresh).step s.1 l).map fun (s', o) =>
    ((s', s.2.after env s.1 l s' o), o)

/-- The tracked machine takes the steps of the server. -/
theorem trackedMachine_step {env : OidcEnv} {auth : AuthStore}
    {apps : Table String OidcClientRecord} {refresh : RefreshTokenStore}
    (s : ServerState × Origins) (l : ServerLabel) :
    ((trackedMachine env auth apps refresh).step s l).map (fun p => (p.1.1, p.2)) =
      (serverMachine env auth apps refresh).step s.1 l := by
  simp only [trackedMachine, Option.map_map]
  cases (serverMachine env auth apps refresh).step s.1 l <;> rfl

/-! ### The condition -/

/-- No login of `u` that began before reset `n` is about to succeed. -/
def LoginsDone (env : OidcEnv) (s : ServerState) (g : Origins) (u : String) (n : ℕ) : Prop :=
  ∀ e ∈ s.auth.tasks.entries,
    match e.2 with
    | .verifying attempt => attempt.userId = some u →
      env.verify attempt.password attempt.hash = true → n ≤ g.login e.1
    | _ => True

/-- No grant of a refresh token of `u` with an origin before reset `n` is past its
checks. -/
def GrantsDone (s : ServerState) (g : Origins) (u : String) (n : ℕ) : Prop :=
  ∀ e ∈ s.tasks.entries,
    match e.2 with
    | .configuring userId _ scope => userId = u → hasOfflineAccess scope = true → n ≤ g.handler e.1
    | _ => True

/-- Whether what an operation grants may earn a refresh token. An approved device has the
scope of its own request. -/
def FrontOp.offline : FrontOp → Bool
  | .completeAuthorize params => hasOfflineAccess params.scope
  | .approveDevice _ => true

/-- No operation that grants such a code or device is under way for `u` with an origin
before reset `n`. -/
def RequestsDone (s : ServerState) (g : Origins) (u : String) (n : ℕ) : Prop :=
  ∀ e ∈ s.tasks.entries,
    match e.2 with
    | .requested op user => user.id = u → op.offline = true → n ≤ g.handler e.1
    | _ => True

/-- No code of `u` with an origin before reset `n` is unexpired and earns a refresh
token. -/
def CodesDone (s : ServerState) (g : Origins) (u : String) (n now : ℕ) : Prop :=
  ∀ e ∈ s.oidc.codes.entries,
    e.2.userId = u → hasOfflineAccess e.2.scope = true → now ≤ e.2.expiresAt → n ≤ g.code e.1

/-- No approved device of `u` with an origin before reset `n` is unexpired and earns a
refresh token. -/
def DevicesDone (s : ServerState) (g : Origins) (u : String) (n now : ℕ) : Prop :=
  ∀ e ∈ s.devices.requests.entries,
    e.2.status = .approved → e.2.userId = some u → hasOfflineAccess e.2.scope = true →
      now ≤ e.2.expiresAt → n ≤ g.device e.1

/-- Nothing older than reset `n` can still be exchanged for tokens of `u`. Codes, devices
and operations are of no use once the account is gone. -/
def ExchangesDone (s : ServerState) (g : Origins) (u : String) (n now : ℕ) : Prop :=
  GrantsDone s g u n ∧
    (s.auth.store.users.has u = true →
      RequestsDone s g u n ∧ CodesDone s g u n now ∧ DevicesDone s g u n now)

/-- **The condition of the guarantee**, read at the two steps at which a reset sweeps the
sessions and the refresh tokens. The two are one step when there is no session to
delete. -/
def SweepsComplete (env : OidcEnv) (s : ServerState × Origins) : ServerLabel → Prop
  | .auth (.resume t r) =>
    r.error = none →
      match s.1.auth.tasks.get? t with
      | some (.savingReset u) =>
        LoginsDone env s.1 s.2 u (s.2.number t) ∧
          ((∀ session ∈ s.1.auth.store.sessions.values, session.userId ≠ u) →
            ExchangesDone s.1 s.2 u (s.2.number t) r.now)
      | some (.sweepingSessions u) => ExchangesDone s.1 s.2 u (s.2.number t) r.now
      | _ => True
  | _ => True

section

variable (env : OidcEnv) (s : ServerState) (g : Origins) (u : String) (n now : ℕ)

instance : Decidable (LoginsDone env s g u n) := by
  have h_one : ∀ e : ℕ × AuthTask, Decidable (match e.2 with
      | .verifying attempt => attempt.userId = some u →
        env.verify attempt.password attempt.hash = true → n ≤ g.login e.1
      | _ => True) := fun e => by split <;> infer_instance
  unfold LoginsDone
  infer_instance

instance : Decidable (GrantsDone s g u n) := by
  have h_one : ∀ e : ℕ × OidcTask, Decidable (match e.2 with
      | .configuring userId _ scope =>
        userId = u → hasOfflineAccess scope = true → n ≤ g.handler e.1
      | _ => True) := fun e => by split <;> infer_instance
  unfold GrantsDone
  infer_instance

instance : Decidable (RequestsDone s g u n) := by
  have h_one : ∀ e : ℕ × OidcTask, Decidable (match e.2 with
      | .requested op user => user.id = u → op.offline = true → n ≤ g.handler e.1
      | _ => True) := fun e => by split <;> infer_instance
  unfold RequestsDone
  infer_instance

instance : Decidable (CodesDone s g u n now) := by
  unfold CodesDone
  infer_instance

instance : Decidable (DevicesDone s g u n now) := by
  unfold DevicesDone
  infer_instance

instance : Decidable (ExchangesDone s g u n now) := by
  unfold ExchangesDone
  infer_instance

end

instance (env : OidcEnv) (s : ServerState × Origins) (l : ServerLabel) :
    Decidable (SweepsComplete env s l) := by
  unfold SweepsComplete
  split
  · refine @instDecidableForall _ _ _ ?_
    split <;> infer_instance
  · infer_instance

end ServerCentral.Oidc
