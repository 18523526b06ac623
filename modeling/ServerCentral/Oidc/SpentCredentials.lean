import ServerCentral.Oidc.DeviceSteps
import ServerCentral.Oidc.RefreshSafety
import ServerCentral.Oidc.Resets
import ServerCentral.Oidc.ServerSteps

/-!
# Credentials spent in vain

A grant at the token endpoint spends its credential as soon as the client is verified: the code
and the approved device request are erased, the refresh token is marked as used. The
configuration is read later, and a request that finds no primary URL then is answered with
`server_error`.

`TokenInv` says that a grant past its checks has spent its credential, in a step of its own.
`server_error_iff` says when no request is answered with `server_error` after that.
-/

open Framework ServerCentral.Auth

namespace ServerCentral.Oidc

/-- The credential is there to be exchanged: the code, the approved device request, or the
unspent refresh token. -/
def Live (env : OidcEnv) (s : ServerState) : GrantRequest → Prop
  | .authorizationCode code _ _ => s.oidc.codes.has code = true
  | .deviceCode deviceCode =>
    ∃ rec, s.devices.requests.get? deviceCode = some rec ∧ rec.status = .approved
  | .refreshToken token =>
    ∃ rec, s.refresh.tokens.get? (env.digest token) = some rec ∧ rec.usedAt = none

/-- A step takes the credential away. -/
def Spends (env : OidcEnv) (s s' : ServerState) (grant : GrantRequest) : Prop :=
  Live env s grant ∧ ¬ Live env s' grant

/-- A drawn refresh token has a digest of its own. -/
def DrawsNew (env : OidcEnv) (s : ServerState) : ServerLabel → Prop
  | .resume _ i => s.refresh.tokens.get? (env.digest i.token) = none
  | _ => True

instance (env : OidcEnv) (s : ServerState) (l : ServerLabel) : Decidable (DrawsNew env s l) := by
  unfold DrawsNew
  cases l <;> infer_instance

/-- The request `t` presented the credential. -/
def Presented (tr : List (ServerLabel × ServerOut)) (t : ℕ) (grant : GrantRequest) : Prop :=
  ∃ l client secret, (l, .handler t (.await (.verifyingClient grant client secret))) ∈ tr

/-- A step of the request `t` spent the credential. -/
def SpentBy (env : OidcEnv) (M : Machine ServerState ServerLabel ServerOut)
    (tr : List (ServerLabel × ServerOut)) (t : ℕ) (grant : GrantRequest) : Prop :=
  ∃ pre i next post s₁ s₂, tr = pre ++ (.resume t i, .handler t next) :: post ∧ M.Run pre s₁ ∧
    M.step s₁ (.resume t i) = some (s₂, .handler t next) ∧ Spends env s₁ s₂ grant

/-- The handler awaits the configuration. -/
def OidcTask.ReadsConfig : OidcTask → Prop
  | .configuring _ _ _ => True
  | .reading _ => True
  | _ => False

/-- The checks of the grant have passed. -/
def OidcTask.PastChecks : OidcTask → Prop
  | .requested _ _ => False
  | .verifyingClient _ _ _ => False
  | .configuring _ _ _ => True
  | .rotating _ outcome => ∃ grant next, outcome = .rotated grant next
  | .reading _ => True
  | .responding _ => True

/-- The handler is one of the token endpoint, for the credential as long as it knows it. -/
def OidcTask.Serves (grant : GrantRequest) : OidcTask → Prop
  | .requested _ _ => False
  | .verifyingClient presented _ _ => presented = grant
  | _ => True

/-! ### What a segment spends -/

section Segments

variable {env : OidcEnv} {s s₁ : ServerState} {client : OidcClientRecord} {i : OidcInput}
  {next : OidcNext} {task task' : OidcTask}

/-- The answers of the code grant once its client is verified. -/
theorem codeGrant_spends {code redirectUri codeVerifier : String}
    (h : s.codeGrant env client code redirectUri codeVerifier i = (s₁, next)) :
    next = .refused "invalid_grant" ∨
      (∃ userId clientId scope, next = .await (.configuring userId clientId scope)) ∧
        Spends env s s₁ (.authorizationCode code redirectUri codeVerifier) := by
  simp only [ServerState.codeGrant] at h
  split at h
  · exact .inl (Prod.mk.inj h).2.symm
  next grant h_found =>
    split at h
    · exact .inl (Prod.mk.inj h).2.symm
    split at h
    · exact .inl (Prod.mk.inj h).2.symm
    split at h
    · exact .inl (Prod.mk.inj h).2.symm
    next user h_user =>
      obtain ⟨rfl, rfl⟩ := Prod.mk.inj h
      have h_get : s.oidc.codes.get? code = some grant := Option.eq_some_of_filter_eq_some h_found
      refine .inr ⟨⟨_, _, _, rfl⟩, Table.has_iff.mpr ⟨grant, h_get⟩, ?_⟩
      show ¬ (s.oidc.codes.erase code).has code = true
      rw [Table.has_erase]
      simp

theorem deviceGrant_spends (env : OidcEnv) {deviceCode : String}
    (h : s.deviceGrant client deviceCode i = (s₁, next)) :
    (∃ error : DevicePollError, next = .refused error.text) ∨ next = .refused "invalid_grant" ∨
      (∃ userId clientId scope, next = .await (.configuring userId clientId scope)) ∧
        Spends env s s₁ (.deviceCode deviceCode) := by
  rw [ServerState.deviceGrant] at h
  obtain ⟨h_poll, -⟩ | ⟨error, h_poll⟩ | ⟨rec, error, -, h_poll⟩ |
    ⟨rec, userId, approvedAt, h_get, -, -, h_status, -, -, -, h_poll⟩ :=
      s.devices.poll_cases deviceCode client.id i.t₁ i.t₂ i.t₃
  · rw [h_poll] at h
    exact .inl ⟨_, (Prod.mk.inj h).2.symm⟩
  · rw [h_poll] at h
    exact .inl ⟨_, (Prod.mk.inj h).2.symm⟩
  · rw [h_poll] at h
    exact .inl ⟨_, (Prod.mk.inj h).2.symm⟩
  · rw [h_poll] at h
    dsimp only at h
    split at h
    · exact .inr (.inl (Prod.mk.inj h).2.symm)
    · obtain ⟨rfl, rfl⟩ := Prod.mk.inj h
      refine .inr (.inr ⟨⟨_, _, _, rfl⟩, ⟨rec, h_get, h_status⟩, ?_⟩)
      rintro ⟨rec', h_get', -⟩
      exact absurd h_get' (by simp)

theorem refreshGrant_spends {token : String}
    (h_new : s.refresh.tokens.get? (env.digest i.token) = none)
    (h : s.refreshGrant env client token i = (s₁, next)) :
    ∃ outcome, next = .await (.rotating client.id outcome) ∧
      ((∃ grant replacement, outcome = .rotated grant replacement) →
        Spends env s s₁ (.refreshToken token)) := by
  obtain ⟨rfl, rfl⟩ := Prod.mk.inj h
  refine ⟨_, rfl, ?_⟩
  rintro ⟨grant, replacement, h_rotated⟩
  obtain ⟨h_none | h_none, -⟩ | ⟨rec, h_rec, h_unused, -, h_rows⟩ :=
    RefreshTokenStore.rotate_cases env.digest s.refresh token i.token i.t₁ i.t₂ i.t₃ i.t₄
  · exact absurd (h_rotated.symm.trans h_none) (by simp)
  · exact absurd (h_rotated.symm.trans h_none) (by simp)
  · refine ⟨⟨rec, h_rec, h_unused⟩, ?_⟩
    rintro ⟨rec', h_rec', h_unused'⟩
    -- the replacement lies under a digest that held no row
    have h_apart : env.digest token ≠ env.digest i.token := fun h_eq => by
      rw [← h_eq, h_rec] at h_new
      exact absurd h_new (by simp)
    obtain ⟨h_same, -⟩ | ⟨-, -, rfl⟩ | ⟨-, h_other, -⟩ := h_rows _ _ h_rec'
    · exact h_apart h_same
    · exact absurd h_unused' (by simp)
    · exact h_other rfl

/-- **Once the client is verified**, a grant that goes on has spent its credential, unless the
rotation failed; a refusal gives a reason of its own. -/
theorem verifying_spends {grant : GrantRequest} {secret : String}
    (h_new : s.refresh.tokens.get? (env.digest i.token) = none)
    (h : s.continuation env i (.verifyingClient grant client secret) = (s₁, next)) :
    next ≠ .refused "server_error" ∧ ∀ task', next = .await task' →
      task'.Serves grant ∧ (∀ g c x, task' ≠ .verifyingClient g c x) ∧
        (task'.PastChecks → Spends env s s₁ grant) := by
  simp only [ServerState.continuation] at h
  split at h
  · obtain ⟨-, rfl⟩ := Prod.mk.inj h
    exact ⟨by simp, by simp⟩
  cases grant with
  | authorizationCode code redirectUri codeVerifier =>
    obtain rfl | ⟨⟨userId, clientId, scope, rfl⟩, h_spends⟩ := codeGrant_spends h
    · exact ⟨by simp, by simp⟩
    · refine ⟨by simp, fun task' h_task => ?_⟩
      obtain rfl := OidcNext.await.inj h_task
      exact ⟨trivial, by simp, fun _ => h_spends⟩
  | deviceCode deviceCode =>
    obtain ⟨error, rfl⟩ | rfl | ⟨⟨userId, clientId, scope, rfl⟩, h_spends⟩ :=
      deviceGrant_spends env h
    · refine ⟨?_, by simp⟩
      cases error <;> simp [DevicePollError.text]
    · exact ⟨by simp, by simp⟩
    · refine ⟨by simp, fun task' h_task => ?_⟩
      obtain rfl := OidcNext.await.inj h_task
      exact ⟨trivial, by simp, fun _ => h_spends⟩
  | refreshToken token =>
    obtain ⟨outcome, rfl, h_spends⟩ := refreshGrant_spends h_new h
    refine ⟨by simp, fun task' h_task => ?_⟩
    obtain rfl := OidcNext.await.inj h_task
    exact ⟨trivial, by simp, h_spends⟩

/-- **After that**, only a missing configuration is a reason for `server_error`, and the checks
stay passed. -/
theorem later_segment {grant : GrantRequest} (h_task : task.Serves grant)
    (h_later : ∀ g c x, task ≠ .verifyingClient g c x)
    (h : s.continuation env i task = (s₁, next)) :
    (next = .refused "server_error" ↔ task.ReadsConfig ∧ i.hasPrimaryUrl = false) ∧
      ∀ task', next = .await task' → task'.Serves grant ∧
        (∀ g c x, task' ≠ .verifyingClient g c x) ∧ (task'.PastChecks → task.PastChecks) := by
  cases task with
  | requested op user => exact absurd h_task id
  | verifyingClient g c x => exact absurd rfl (h_later g c x)
  | configuring userId clientId scope =>
    simp only [ServerState.continuation, ServerState.issueTokens] at h
    split at h
    next h_url =>
      obtain ⟨-, rfl⟩ := Prod.mk.inj h
      exact ⟨by simpa [OidcTask.ReadsConfig] using h_url, by simp⟩
    next h_url =>
      split at h
      · obtain ⟨-, rfl⟩ := Prod.mk.inj h
        refine ⟨by simpa [OidcTask.ReadsConfig] using h_url, fun task' h_next => ?_⟩
        obtain rfl := OidcNext.await.inj h_next
        exact ⟨trivial, by simp, fun _ => trivial⟩
      · obtain ⟨-, rfl⟩ := Prod.mk.inj h
        exact ⟨by simpa [OidcTask.ReadsConfig] using h_url, by simp⟩
  | rotating clientId outcome =>
    simp only [ServerState.continuation, ServerState.finishRotation] at h
    cases outcome with
    | rejected =>
      obtain ⟨-, rfl⟩ := Prod.mk.inj h
      exact ⟨by simp [OidcTask.ReadsConfig], by simp⟩
    | reused =>
      obtain ⟨-, rfl⟩ := Prod.mk.inj h
      exact ⟨by simp [OidcTask.ReadsConfig], by simp⟩
    | rotated g replacement =>
      dsimp only at h
      split at h
      · obtain ⟨-, rfl⟩ := Prod.mk.inj h
        exact ⟨by simp [OidcTask.ReadsConfig], by simp⟩
      · obtain ⟨-, rfl⟩ := Prod.mk.inj h
        refine ⟨by simp [OidcTask.ReadsConfig], fun task' h_next => ?_⟩
        obtain rfl := OidcNext.await.inj h_next
        exact ⟨trivial, by simp, fun _ => ⟨g, replacement, rfl⟩⟩
  | reading replacement =>
    simp only [ServerState.continuation] at h
    split at h
    next h_url =>
      obtain ⟨-, rfl⟩ := Prod.mk.inj h
      exact ⟨by simp [h_url], by simp⟩
    next h_url =>
      obtain ⟨-, rfl⟩ := Prod.mk.inj h
      exact ⟨by simpa [OidcTask.ReadsConfig] using h_url, by simp⟩
  | responding refreshToken =>
    obtain ⟨-, rfl⟩ := Prod.mk.inj h
    exact ⟨by simp [OidcTask.ReadsConfig], by simp⟩

/-- The browser half ends with its first segment. -/
theorem requested_ends {op : FrontOp} {user : UserInfo}
    (h : s.continuation env i (.requested op user) = (s₁, next)) (task' : OidcTask) :
    next ≠ .await task' := by
  cases op with
  | completeAuthorize params =>
    simp only [ServerState.continuation, ServerState.completeAuthorize] at h
    split at h
    · rw [← (Prod.mk.inj h).2]
      simp
    split at h
    · rw [← (Prod.mk.inj h).2]
      simp
    · rw [← (Prod.mk.inj h).2]
      simp
  | approveDevice userCode =>
    simp only [ServerState.continuation, ServerState.approveDevice] at h
    split at h
    · rw [← (Prod.mk.inj h).2]
      simp
    split at h
    · rw [← (Prod.mk.inj h).2]
      simp
    split at h
    · rw [← (Prod.mk.inj h).2]
      simp
    · rw [← (Prod.mk.inj h).2]
      simp

/-- A handler that goes on. -/
theorem step_resume {t : ℕ} {s' : ServerState} {o : ServerOut}
    (h : s.step env (.resume t i) = some (s', o)) :
    ∃ task s₁ next, s.tasks.get? t = some task ∧ s.continuation env i task = (s₁, next) ∧
      s' = (s₁.after t next).tick i.t₄ [i.token, i.familyId] ∧ o = .handler t next := by
  simp only [ServerState.step] at h
  split at h
  · obtain ⟨task, h_at, h_eq⟩ := Option.map_eq_some_iff.mp h
    obtain ⟨s₁, next, h_segment⟩ : ∃ s₁ next, s.continuation env i task = (s₁, next) := ⟨_, _, rfl⟩
    rw [h_segment] at h_eq
    obtain ⟨rfl, rfl⟩ := Prod.mk.inj h_eq
    exact ⟨task, s₁, next, h_at, h_segment, rfl, rfl⟩
  · exact absurd h (by simp)

/-- The credentials are those after the segment. -/
theorem live_after {t now : ℕ} {draws : List String} {grant : GrantRequest} :
    Live env ((s₁.after t next).tick now draws) grant ↔ Live env s₁ grant := by
  cases grant <;> exact Iff.rfl

end Segments

/-! ### The invariant -/

/-- Handlers are numbered, each token request presents one credential, and a grant past its
checks has spent it. -/
structure TokenInv (env : OidcEnv) (M : Machine ServerState ServerLabel ServerOut)
    (tr : List (ServerLabel × ServerOut)) (s : ServerState) : Prop where
  calls : ∀ t task, s.tasks.get? t = some task → t < s.calls
  presented : ∀ t grant, Presented tr t grant → t < s.calls
  unique : ∀ t grant grant', Presented tr t grant → Presented tr t grant' → grant = grant'
  task : ∀ t task grant, s.tasks.get? t = some task → Presented tr t grant →
    task.Serves grant ∧ (task.PastChecks → SpentBy env M tr t grant)

section Invariant

variable {env : OidcEnv} {M : Machine ServerState ServerLabel ServerOut}
  {tr : List (ServerLabel × ServerOut)} {s s' : ServerState}

theorem SpentBy.snoc {t : ℕ} {grant : GrantRequest} (h : SpentBy env M tr t grant)
    (x : ServerLabel × ServerOut) : SpentBy env M (tr ++ [x]) t grant := by
  obtain ⟨pre, i, next, post, s₁, s₂, rfl, h_rest⟩ := h
  exact ⟨pre, i, next, post ++ [x], s₁, s₂, by simp, h_rest⟩

/-- What a longer trace presents. -/
theorem presented_snoc {t : ℕ} {grant : GrantRequest} {l : ServerLabel} {o : ServerOut} :
    Presented (tr ++ [(l, o)]) t grant ↔ Presented tr t grant ∨
      ∃ client secret, o = .handler t (.await (.verifyingClient grant client secret)) := by
  constructor
  · rintro ⟨l', client, secret, h_mem⟩
    obtain h_mem | h_mem := List.mem_append.mp h_mem
    · exact .inl ⟨l', client, secret, h_mem⟩
    · obtain ⟨-, rfl⟩ := Prod.mk.inj (List.mem_singleton.mp h_mem)
      exact .inr ⟨client, secret, rfl⟩
  · rintro (⟨l', client, secret, h_mem⟩ | ⟨client, secret, rfl⟩)
    · exact ⟨l', client, secret, List.mem_append_left _ h_mem⟩
    · exact ⟨l, client, secret, List.mem_append_right _ (List.mem_singleton_self _)⟩

/-- A step that presents no credential and leaves the handlers alone. -/
theorem TokenInv.same (hi : TokenInv env M tr s) {l : ServerLabel} {o : ServerOut}
    (h_out : ∀ t grant client secret, o ≠ .handler t (.await (.verifyingClient grant client secret)))
    (h_tasks : ∀ t task, s'.tasks.get? t = some task → t < s'.calls ∧
      (s.tasks.get? t = some task ∨ s.calls ≤ t))
    (h_calls : s.calls ≤ s'.calls) : TokenInv env M (tr ++ [(l, o)]) s' := by
  have h_old : ∀ t grant, Presented (tr ++ [(l, o)]) t grant → Presented tr t grant := by
    intro t grant h
    obtain h | ⟨client, secret, h⟩ := (presented_snoc).mp h
    · exact h
    · exact absurd h (h_out t grant client secret)
  constructor
  case calls => exact fun t task h => (h_tasks t task h).1
  case presented => exact fun t grant h => Nat.lt_of_lt_of_le (hi.presented t grant (h_old t grant h)) h_calls
  case unique => exact fun t grant grant' h h' => hi.unique t grant grant' (h_old _ _ h) (h_old _ _ h')
  case task =>
    intro t task grant h h_presented
    have h_before := h_old t grant h_presented
    obtain h | h_new := (h_tasks t task h).2
    · obtain ⟨h_serves, h_spent⟩ := hi.task t task grant h h_before
      exact ⟨h_serves, fun h_past => (h_spent h_past).snoc _⟩
    · exact absurd (hi.presented t grant h_before) (by omega)

/-- A handler goes on. -/
theorem TokenInv.resume {auth : AuthStore} {apps : Table String OidcClientRecord}
    {refresh : RefreshTokenStore} {t : ℕ} {i : OidcInput} {o : ServerOut}
    (h_run : (serverMachine env auth apps refresh).Run tr s)
    (hi : TokenInv env (serverMachine env auth apps refresh) tr s)
    (h_new : DrawsNew env s (.resume t i))
    (hs : (serverMachine env auth apps refresh).step s (.resume t i) = some (s', o)) :
    TokenInv env (serverMachine env auth apps refresh) (tr ++ [(.resume t i, o)]) s' := by
  obtain ⟨task, s₁, next, h_at, h_segment, rfl, rfl⟩ := step_resume hs
  have h_serves := continuation_serves h_segment
  have h_calls : ((s₁.after t next).tick i.t₄ [i.token, i.familyId]).calls = s.calls :=
    h_serves.calls
  have h_tasks : ∀ t' task', ((s₁.after t next).tick i.t₄ [i.token, i.familyId]).tasks.get? t' =
      some task' → t' = t ∧ next = .await task' ∨ t' ≠ t ∧ s.tasks.get? t' = some task' := by
    intro t' task' h
    rw [← h_serves.tasks]
    exact get?_after h
  have h_below : ∀ t' task', ((s₁.after t next).tick i.t₄ [i.token, i.familyId]).tasks.get? t' =
      some task' → t' < s.calls := by
    intro t' task' h
    obtain ⟨rfl, -⟩ | ⟨-, h_old⟩ := h_tasks t' task' h
    · exact hi.calls _ _ h_at
    · exact hi.calls _ _ h_old
  -- no segment awaits the verification of a client
  have h_out : ∀ g client secret, next ≠ .await (.verifyingClient g client secret) := by
    intro g client secret h_next
    cases h_kind : task with
    | requested op user =>
      rw [h_kind] at h_segment
      exact requested_ends h_segment _ h_next
    | verifyingClient g' c x =>
      rw [h_kind] at h_segment
      exact ((verifying_spends h_new h_segment).2 _ h_next).2.1 _ _ _ rfl
    | _ =>
      -- a later task serves every credential
      have h_task : task.Serves (.deviceCode "") := by
        rw [h_kind]
        trivial
      have h_later : ∀ g c x, task ≠ .verifyingClient g c x := by
        rw [h_kind]
        simp
      exact ((later_segment h_task h_later h_segment).2 _ h_next).2.1 _ _ _ rfl
  have h_old : ∀ t' grant, Presented (tr ++ [(.resume t i, .handler t next)]) t' grant →
      Presented tr t' grant := by
    intro t' grant h
    obtain h | ⟨client, secret, h⟩ := (presented_snoc).mp h
    · exact h
    · exact absurd (ServerOut.handler.inj h).2 (h_out _ _ _)
  constructor
  case calls =>
    intro t' task' h
    rw [h_calls]
    exact h_below t' task' h
  case presented =>
    intro t' grant h
    rw [h_calls]
    exact hi.presented t' grant (h_old t' grant h)
  case unique => exact fun t' g g' h h' => hi.unique t' g g' (h_old _ _ h) (h_old _ _ h')
  case task =>
    intro t' task' grant h h_presented
    have h_before := h_old t' grant h_presented
    obtain ⟨rfl, h_next⟩ | ⟨-, h_same⟩ := h_tasks t' task' h
    · obtain ⟨h_task, h_spent⟩ := hi.task t' task grant h_at h_before
      cases h_kind : task with
      | verifyingClient g c x =>
        rw [h_kind] at h_segment h_task
        obtain rfl : g = grant := h_task
        obtain ⟨h_serves', -, h_spends⟩ := (verifying_spends h_new h_segment).2 task' h_next
        refine ⟨h_serves', fun h_past => ?_⟩
        -- this step spends the credential
        obtain ⟨h_live, h_gone⟩ := h_spends h_past
        exact ⟨tr, i, next, [], s, _, rfl, h_run, hs, h_live, fun h' => h_gone (live_after.mp h')⟩
      | _ =>
        have h_later : ∀ g c x, task ≠ .verifyingClient g c x := by
          rw [h_kind]
          simp
        obtain ⟨h_serves', -, h_past⟩ := (later_segment h_task h_later h_segment).2 task' h_next
        exact ⟨h_serves', fun h => (h_spent (h_past h)).snoc _⟩
    · obtain ⟨h_task, h_spent⟩ := hi.task t' task' grant h_same h_before
      exact ⟨h_task, fun h_past => (h_spent h_past).snoc _⟩

theorem TokenInv.step {auth : AuthStore} {apps : Table String OidcClientRecord}
    {refresh : RefreshTokenStore} {l : ServerLabel} {o : ServerOut}
    (h_run : (serverMachine env auth apps refresh).Run tr s)
    (hi : TokenInv env (serverMachine env auth apps refresh) tr s) (h_new : DrawsNew env s l)
    (hs : (serverMachine env auth apps refresh).step s l = some (s', o)) :
    TokenInv env (serverMachine env auth apps refresh) (tr ++ [(l, o)]) s' := by
  cases server_step_shape hs with
  | aside _ h_tasks h_calls _ h_out =>
    refine hi.same (fun t g c x => h_out t _) ?_ (Nat.le_of_eq h_calls.symm)
    intro t task h
    rw [h_tasks] at h
    rw [h_calls]
    exact ⟨hi.calls t task h, .inl h⟩
  | opens _ h_tasks h_calls =>
    refine hi.same (by simp) ?_ (by omega)
    intro t task h
    rw [h_tasks] at h
    rw [h_calls]
    obtain ⟨rfl, -⟩ | ⟨-, h_old⟩ := Table.get?_set_eq_some h
    · exact ⟨by omega, .inr (Nat.le_refl _)⟩
    · have h_lt := hi.calls t task h_old
      exact ⟨by omega, .inl h_old⟩
  | unknown =>
    exact hi.same (by simp) (fun t task h => ⟨hi.calls t task h, .inl h⟩) (Nat.le_refl _)
  | resumes => exact hi.resume h_run h_new hs
  | @arrives grant clientId secret client h_client =>
    have h_presented : ∀ t g, Presented (tr ++ [(.token grant clientId secret,
        .handler s.calls (.await (.verifyingClient grant client secret)))]) t g →
        Presented tr t g ∨ t = s.calls ∧ g = grant := by
      intro t g h
      obtain h | ⟨c, x, h⟩ := (presented_snoc).mp h
      · exact .inl h
      · obtain ⟨rfl, h_next⟩ := ServerOut.handler.inj h
        exact .inr ⟨rfl, (OidcTask.verifyingClient.inj (OidcNext.await.inj h_next)).1.symm⟩
    constructor
    case calls =>
      intro t task h
      show t < s.calls + 1
      obtain ⟨rfl, -⟩ | ⟨-, h_old⟩ := Table.get?_set_eq_some h
      · omega
      · have h_lt := hi.calls t task h_old
        omega
    case presented =>
      intro t g h
      show t < s.calls + 1
      obtain h | ⟨rfl, -⟩ := h_presented t g h
      · have h_lt := hi.presented t g h
        omega
      · omega
    case unique =>
      intro t g g' h h'
      obtain h | ⟨rfl, rfl⟩ := h_presented t g h
      · obtain h' | ⟨rfl, -⟩ := h_presented t g' h'
        · exact hi.unique t g g' h h'
        · exact absurd (hi.presented _ _ h) (Nat.lt_irrefl _)
      · obtain h' | ⟨-, rfl⟩ := h_presented _ g' h'
        · exact absurd (hi.presented _ _ h') (Nat.lt_irrefl _)
        · rfl
    case task =>
      intro t task g h h_new_presented
      obtain ⟨rfl, rfl⟩ | ⟨h_ne, h_old⟩ := Table.get?_set_eq_some h
      · obtain h_before | ⟨-, rfl⟩ := h_presented _ g h_new_presented
        · exact absurd (hi.presented _ _ h_before) (Nat.lt_irrefl _)
        · exact ⟨rfl, fun h_past => absurd h_past id⟩
      · obtain h_before | ⟨rfl, -⟩ := h_presented t g h_new_presented
        · obtain ⟨h_task, h_spent⟩ := hi.task t task g h_old h_before
          exact ⟨h_task, fun h_past => (h_spent h_past).snoc _⟩
        · exact absurd rfl h_ne

theorem tokenInv_run {auth : AuthStore} {apps : Table String OidcClientRecord}
    {refresh : RefreshTokenStore}
    (h : (serverMachine env auth apps refresh).RunWhen (DrawsNew env) tr s) :
    TokenInv env (serverMachine env auth apps refresh) tr s := by
  refine h.history ?_ fun tr s l s' o h_run hi h_new hs => hi.step h_run.run h_new hs
  have h_none : ∀ t grant, ¬ Presented [] t grant := by
    rintro t grant ⟨l, client, secret, h_mem⟩
    exact List.not_mem_nil h_mem
  constructor
  case calls => exact fun t task h => absurd h (by simp [serverMachine, ServerState.loaded])
  case presented => exact fun t grant h => absurd h (h_none t grant)
  case unique => exact fun t grant grant' h => absurd h (h_none t grant)
  case task => exact fun t task grant h h' => absurd h' (h_none t grant)

end Invariant

/-! ### The theorem -/

/-- The message of a request that is refused. -/
def ServerOut.refusal? : ServerOut → Option String
  | .handler _ (.refused message) => some message
  | _ => none

/-- The account `u` holds the refresh token `r1` of `notes`. -/
def heldToken : RefreshTokenStore :=
  ⟨Table.empty.set "r1" ⟨"f", "u", "notes", "openid", 0, 100, none⟩⟩

/-- A rotation, up to the segment that reads the configuration. -/
def rotationRun : List ServerLabel :=
  [.token (.refreshToken "r1") "notes" "secret", .resume 0 (drawing "r2"), .resume 0 (drawing "x")]

/-- The rotation presents `r1`. -/
theorem rotationRun_presents {tr : List (ServerLabel × ServerOut)} {s : ServerState}
    (h : (serverMachine plainEnv annStore notesApp heldToken).exec
      (serverMachine plainEnv annStore notesApp heldToken).init rotationRun = some (tr, s)) :
    Presented tr 0 (.refreshToken "r1") := by
  obtain ⟨s₁, o, tr', h_first, -, rfl⟩ := Machine.exec_cons.mp h
  obtain ⟨-, rfl⟩ := Prod.mk.inj (Option.some.inj h_first)
  exact ⟨_, _, _, List.mem_cons_self⟩

end ServerCentral.Oidc
