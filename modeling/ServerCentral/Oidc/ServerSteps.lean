import ServerCentral.Oidc.RefreshSafety
import ServerCentral.Oidc.Provider

/-!
# The steps of the server, and the client a handler serves

What one step of the server does to the registrations, the handlers and the rows of the
refresh-token store (`ServerShape`). The argument about rows follows the client through a
handler (`OidcTask.client?`): a row comes from an older row of the same client, or from a
handler of that client that has read the configuration (`Serves.rows`).
-/

open Framework ServerCentral.Auth

namespace ServerCentral.Oidc

/-! ### The client a handler serves -/

/-- The client whose tokens a suspended handler is about to issue. -/
def OidcTask.client? : OidcTask → Option String
  | .requested _ _ => none
  | .verifyingClient _ client _ => some client.id
  | .configuring _ clientId _ => some clientId
  | .rotating clientId _ => some clientId
  | .reading _ => none
  | .responding _ => none

/-- The rows of a store stem from those of another, or are issued to a client. -/
def RowsFrom (r r' : RefreshTokenStore) (issued : String → Prop) : Prop :=
  ∀ k rec, r'.tokens.get? k = some rec →
    (∃ k' rec', r.tokens.get? k' = some rec' ∧ rec'.clientId = rec.clientId) ∨ issued rec.clientId

theorem RowsFrom.of_sub {r r' : RefreshTokenStore} {issued : String → Prop}
    (h : ∀ k rec, r'.tokens.get? k = some rec → r.tokens.get? k = some rec) :
    RowsFrom r r' issued :=
  fun k rec h_get => .inl ⟨k, rec, h k rec h_get, rfl⟩

theorem RowsFrom.refl (r : RefreshTokenStore) {issued : String → Prop} : RowsFrom r r issued :=
  .of_sub fun _ _ h => h

/-- What a segment of a handler does: it keeps the registrations and the other handlers, it
adds rows for the client it serves only, and it goes on serving that client. -/
structure Serves (s : ServerState) (task : OidcTask) (s' : ServerState) (next : OidcNext) :
    Prop where
  apps : s'.oidc.apps = s.oidc.apps
  tasks : s'.tasks = s.tasks
  calls : s'.calls = s.calls
  rows : RowsFrom s.refresh s'.refresh fun c => ∃ userId scope, task = .configuring userId c scope
  client : ∀ task' c, next = .await task' → task'.client? = some c → task.client? = some c

variable {env : OidcEnv} {s s' : ServerState} {task : OidcTask} {next : OidcNext} {i : OidcInput}

/-- A segment that leaves the refresh tokens alone and does not go on. -/
theorem Serves.ends (h_apps : s'.oidc.apps = s.oidc.apps) (h_tasks : s'.tasks = s.tasks)
    (h_calls : s'.calls = s.calls) (h_refresh : s'.refresh = s.refresh)
    (h_next : ∀ task', next ≠ .await task') : Serves s task s' next where
  apps := h_apps
  tasks := h_tasks
  calls := h_calls
  rows := h_refresh ▸ .refl _
  client task' _ h := absurd h (h_next task')

theorem completeAuthorize_serves (user : UserInfo) (params : OidcAuthorizeParams) :
    Serves s task (s.completeAuthorize user params i).1 (s.completeAuthorize user params i).2 := by
  unfold ServerState.completeAuthorize
  split
  · exact .ends rfl rfl rfl rfl (by simp)
  · split
    · exact .ends rfl rfl rfl rfl (by simp)
    · exact .ends rfl rfl rfl rfl (by simp)

theorem approveDevice_serves (user : UserInfo) (userCode : List Char) :
    Serves s task (s.approveDevice user userCode i).1 (s.approveDevice user userCode i).2 := by
  unfold ServerState.approveDevice
  dsimp only
  split
  · exact .ends rfl rfl rfl rfl (by simp)
  · split
    · exact .ends rfl rfl rfl rfl (by simp)
    · split
      · exact .ends rfl rfl rfl rfl (by simp)
      · exact .ends rfl rfl rfl rfl (by simp)

/-- A segment that has passed its checks awaits the configuration for its client. -/
theorem Serves.configures {client : OidcClientRecord} {userId scope : String}
    (h_task : task.client? = some client.id) (h_apps : s'.oidc.apps = s.oidc.apps)
    (h_tasks : s'.tasks = s.tasks) (h_calls : s'.calls = s.calls)
    (h_refresh : s'.refresh = s.refresh) :
    Serves s task s' (.await (.configuring userId client.id scope)) where
  apps := h_apps
  tasks := h_tasks
  calls := h_calls
  rows := h_refresh ▸ .refl _
  client task' c h h_client := by
    obtain ⟨⟩ := h
    rw [h_task]
    exact h_client

theorem codeGrant_serves {client : OidcClientRecord} (h_task : task.client? = some client.id)
    (code redirectUri codeVerifier : String) :
    Serves s task (s.codeGrant env client code redirectUri codeVerifier i).1
      (s.codeGrant env client code redirectUri codeVerifier i).2 := by
  unfold ServerState.codeGrant
  dsimp only
  split
  · exact .ends rfl rfl rfl rfl (by simp)
  · split
    · exact .ends rfl rfl rfl rfl (by simp)
    · split
      · exact .ends rfl rfl rfl rfl (by simp)
      · split
        · exact .ends rfl rfl rfl rfl (by simp)
        · exact .configures h_task rfl rfl rfl rfl

theorem deviceGrant_serves {client : OidcClientRecord} (h_task : task.client? = some client.id)
    (deviceCode : String) :
    Serves s task (s.deviceGrant client deviceCode i).1 (s.deviceGrant client deviceCode i).2 := by
  unfold ServerState.deviceGrant
  split
  · exact .ends rfl rfl rfl rfl (by simp)
  · split
    · exact .ends rfl rfl rfl rfl (by simp)
    · exact .configures h_task rfl rfl rfl rfl

/-- A rotation appends a row for the client of the row it spends. -/
theorem refreshGrant_serves {client : OidcClientRecord} (h_task : task.client? = some client.id)
    (token : String) :
    Serves s task (s.refreshGrant env client token i).1 (s.refreshGrant env client token i).2 where
  apps := rfl
  tasks := rfl
  calls := rfl
  rows := by
    intro k rec h_get
    refine .inl ?_
    rcases RefreshTokenStore.rotate_cases env.digest s.refresh token i.token i.t₁ i.t₂ i.t₃ i.t₄
      with ⟨-, h_sub⟩ | ⟨spent, h_spent, -, -, h_rows⟩
    · exact ⟨k, rec, h_sub k rec h_get, rfl⟩
    · rcases h_rows k rec h_get with ⟨-, -, h_params, -⟩ | ⟨-, -, rfl⟩ | ⟨-, -, h_old⟩
      · have h_client : rec.clientId = spent.clientId := congrArg RefreshParams.clientId h_params
        exact ⟨_, spent, h_spent, h_client.symm⟩
      · exact ⟨_, spent, h_spent, rfl⟩
      · exact ⟨k, rec, h_old, rfl⟩
  client task' c h h_client := by
    obtain ⟨⟩ := h
    rw [h_task]
    exact h_client

theorem issueTokens_serves (userId clientId scope : String) :
    Serves s (.configuring userId clientId scope) (s.issueTokens env userId clientId scope i).1
      (s.issueTokens env userId clientId scope i).2 := by
  unfold ServerState.issueTokens
  split
  · exact .ends rfl rfl rfl rfl (by simp)
  · split
    · refine ⟨rfl, rfl, rfl, fun k rec h_get => ?_, fun task' c h h_client => ?_⟩
      · rcases RefreshTokenStore.get?_append h_get with ⟨-, -, h_params, -⟩ | ⟨-, h_old⟩
        · have h_client : rec.clientId = clientId := congrArg RefreshParams.clientId h_params
          exact .inr ⟨userId, scope, by rw [h_client]⟩
        · exact .inl ⟨k, rec, h_old, rfl⟩
      · obtain ⟨⟩ := h
        exact absurd h_client (by simp [OidcTask.client?])
    · exact .ends rfl rfl rfl rfl (by simp)

theorem finishRotation_serves (clientId : String) (outcome : RotateOutcome) :
    Serves s (.rotating clientId outcome) (s.finishRotation clientId outcome).1
      (s.finishRotation clientId outcome).2 := by
  unfold ServerState.finishRotation
  split
  · exact .ends rfl rfl rfl rfl (by simp)
  · exact .ends rfl rfl rfl rfl (by simp)
  · split
    · exact ⟨rfl, rfl, rfl,
        .of_sub fun k rec h => (RefreshTokenStore.get?_revokeWhere.mp h).1, by simp⟩
    · refine ⟨rfl, rfl, rfl, .refl _, fun task' c h h_client => ?_⟩
      obtain ⟨⟩ := h
      exact absurd h_client (by simp [OidcTask.client?])

/-- **One segment**, whatever it belongs to. -/
theorem continuation_serves (h : s.continuation env i task = (s', next)) :
    Serves s task s' next := by
  have h_pair : Serves s task (s.continuation env i task).1 (s.continuation env i task).2 := by
    cases task with
    | requested op user =>
      cases op with
      | completeAuthorize params => exact completeAuthorize_serves user params
      | approveDevice userCode => exact approveDevice_serves user userCode
    | verifyingClient grant client secret =>
      simp only [ServerState.continuation]
      split
      · exact .ends rfl rfl rfl rfl (by simp)
      · cases grant with
        | authorizationCode code redirectUri codeVerifier =>
          exact codeGrant_serves rfl code redirectUri codeVerifier
        | deviceCode deviceCode => exact deviceGrant_serves rfl deviceCode
        | refreshToken token => exact refreshGrant_serves rfl token
    | configuring userId clientId scope => exact issueTokens_serves userId clientId scope
    | rotating clientId outcome => exact finishRotation_serves clientId outcome
    | reading next =>
      simp only [ServerState.continuation]
      split
      · exact .ends rfl rfl rfl rfl (by simp)
      · exact .ends rfl rfl rfl rfl (by simp)
    | responding refreshToken => exact .ends rfl rfl rfl rfl (by simp [ServerState.continuation])
  rwa [h] at h_pair

/-- A handler whose client presented a wrong secret refuses it. -/
theorem continuation_wrong_secret {grant : GrantRequest} {client : OidcClientRecord}
    {secret : String} (h_wrong : env.verify secret client.secretHash = false) :
    s.continuation env i (.verifyingClient grant client secret) =
      (s, .refused "invalid_client") := by
  simp [ServerState.continuation, h_wrong]

/-! ### Steps of the server -/

/-- What a step of the server means for the registrations, the handlers and the rows. -/
inductive ServerShape (env : OidcEnv) (s : ServerState) :
    ServerLabel → ServerState → ServerOut → Prop
  /-- A step of the account store, or one that opens a device request. -/
  | aside {l : ServerLabel} {s' : ServerState} {o : ServerOut} (h_apps : s'.oidc.apps = s.oidc.apps)
      (h_tasks : s'.tasks = s.tasks) (h_calls : s'.calls = s.calls)
      (h_rows : ∀ k rec, s'.refresh.tokens.get? k = some rec → s.refresh.tokens.get? k = some rec)
      (h_out : ∀ t next, o ≠ .handler t next)
      (h_label : ∀ grant c secret, l ≠ .token grant c secret) :
      ServerShape env s l s' o
  /-- A browser operation arrives. -/
  | opens {op : FrontOp} {token : Option String} {checkedAt seenAt : ℕ} {user : UserInfo}
      {s' : ServerState} (h_apps : s'.oidc.apps = s.oidc.apps)
      (h_tasks : s'.tasks = s.tasks.set s.calls (.requested op user))
      (h_calls : s'.calls = s.calls + 1)
      (h_rows : ∀ k rec, s'.refresh.tokens.get? k = some rec → s.refresh.tokens.get? k = some rec) :
      ServerShape env s (.front op token checkedAt seenAt) s'
        (.handler s.calls (.await (.requested op user)))
  /-- A token request names a client that is not registered. -/
  | unknown {grant : GrantRequest} {clientId secret : String}
      (h_none : s.oidc.apps.get? clientId = none) :
      ServerShape env s (.token grant clientId secret) s
        (.handler s.calls (.refused "invalid_client"))
  /-- A token request captures the record of its client. -/
  | arrives {grant : GrantRequest} {clientId secret : String} {client : OidcClientRecord}
      (h_client : s.oidc.apps.get? clientId = some client) :
      ServerShape env s (.token grant clientId secret)
        { s with
          tasks := s.tasks.set s.calls (.verifyingClient grant client secret)
          calls := s.calls + 1 }
        (.handler s.calls (.await (.verifyingClient grant client secret)))
  /-- A handler goes on. -/
  | resumes {t : ℕ} {i : OidcInput} {task : OidcTask} {s₁ s' : ServerState} {next : OidcNext}
      (h_at : s.tasks.get? t = some task) (h_segment : s.continuation env i task = (s₁, next))
      (h_apps : s'.oidc.apps = s₁.oidc.apps) (h_refresh : s'.refresh = s₁.refresh)
      (h_calls : s'.calls = s₁.calls) (h_tasks : s'.tasks = (s₁.after t next).tasks) :
      ServerShape env s (.resume t i) s' (.handler t next)

/-- The account store inside the server touches nothing but sessions and rows. -/
theorem authStep_keeps {l : AuthLabel} {o : AuthOut} (hs : s.authStep env l = some (s', o)) :
    s'.oidc.apps = s.oidc.apps ∧ s'.tasks = s.tasks ∧ s'.calls = s.calls ∧
      ∀ k rec, s'.refresh.tokens.get? k = some rec → s.refresh.tokens.get? k = some rec := by
  obtain ⟨⟨auth, o'⟩, -, h_eq⟩ := Option.map_eq_some_iff.mp hs
  obtain ⟨rfl, rfl⟩ := Prod.mk.inj h_eq
  unfold ServerState.notified
  split
  · exact ⟨rfl, rfl, rfl, fun k rec h => (RefreshTokenStore.get?_revokeWhere.mp h).1⟩
  · exact ⟨rfl, rfl, rfl, fun _ _ h => h⟩

/-- **One step of the server.** -/
theorem server_step_shape {l : ServerLabel} {o : ServerOut} (hs : s.step env l = some (s', o)) :
    ServerShape env s l s' o := by
  cases l with
  | auth l =>
    simp only [ServerState.step] at hs
    split at hs
    · exact absurd hs (by simp)
    · obtain ⟨⟨s₁, o₁⟩, h_auth, h_eq⟩ := Option.map_eq_some_iff.mp hs
      obtain ⟨rfl, rfl⟩ := Prod.mk.inj h_eq
      obtain ⟨h_apps, h_tasks, h_calls, h_rows⟩ := authStep_keeps h_auth
      exact .aside h_apps h_tasks h_calls h_rows (by simp) (by simp)
  | front op token checkedAt seenAt =>
    obtain ⟨⟨s₁, o₁⟩, h_auth, h_eq⟩ := Option.map_eq_some_iff.mp hs
    obtain ⟨h_apps, h_tasks, h_calls, h_rows⟩ := authStep_keeps h_auth
    dsimp only at h_eq
    split at h_eq
    · obtain ⟨rfl, rfl⟩ := Prod.mk.inj h_eq
      exact .opens h_apps (by rw [h_tasks]) rfl h_rows
    · obtain ⟨rfl, rfl⟩ := Prod.mk.inj h_eq
      exact .aside h_apps h_tasks h_calls h_rows (by simp) (by simp)
  | openDevice params deviceCode draws prunedAt now =>
    simp only [ServerState.step] at hs
    split at hs
    · obtain ⟨rfl, rfl⟩ := Prod.mk.inj (Option.some.inj hs)
      exact .aside rfl rfl rfl (fun _ _ h => h) (by simp) (by simp)
    · exact absurd hs (by simp)
  | token grant clientId secret =>
    simp only [ServerState.step, Option.some.injEq] at hs
    cases h_client : s.oidc.apps.get? clientId with
    | none =>
      rw [h_client] at hs
      obtain ⟨rfl, rfl⟩ := Prod.mk.inj hs
      exact .unknown h_client
    | some client =>
      rw [h_client] at hs
      obtain ⟨rfl, rfl⟩ := Prod.mk.inj hs
      exact .arrives h_client
  | resume t i =>
    simp only [ServerState.step] at hs
    split at hs
    · obtain ⟨task, h_at, h_eq⟩ := Option.map_eq_some_iff.mp hs
      cases h_segment : s.continuation env i task with
      | mk s₁ next =>
        rw [h_segment] at h_eq
        obtain ⟨rfl, rfl⟩ := Prod.mk.inj h_eq
        exact .resumes h_at h_segment rfl rfl rfl rfl
    · exact absurd hs (by simp)

/-- The server keeps the registrations. -/
theorem ServerShape.apps {l : ServerLabel} {o : ServerOut}
    (h : ServerShape env s l s' o) : s'.oidc.apps = s.oidc.apps := by
  cases h with
  | aside h_apps => exact h_apps
  | opens h_apps => exact h_apps
  | unknown => rfl
  | arrives => rfl
  | resumes _ h_segment h_apps => rw [h_apps, (continuation_serves h_segment).apps]

/-- The handlers after a segment of one of them. -/
theorem get?_after {t t' : ℕ}
    (h : (s.after t next).tasks.get? t' = some task) :
    t' = t ∧ next = .await task ∨ t' ≠ t ∧ s.tasks.get? t' = some task := by
  unfold ServerState.after at h
  split at h
  · rcases Table.get?_set_eq_some h with ⟨rfl, rfl⟩ | ⟨h_ne, h_old⟩
    · exact .inl ⟨rfl, rfl⟩
    · exact .inr ⟨h_ne, h_old⟩
  · obtain ⟨h_old, h_ne⟩ := Table.get?_erase.mp h
    exact .inr ⟨h_ne, h_old⟩

end ServerCentral.Oidc
