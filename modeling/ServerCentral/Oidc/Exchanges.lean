import Mathlib.Data.Nat.Basic
import Mathlib.Order.Basic
import ServerCentral.Oidc.DeviceSteps
import ServerCentral.Oidc.RefreshSafety
import ServerCentral.Oidc.SessionSweep

/-!
# What can be exchanged for a refresh token

Refresh tokens, and whatever can still be exchanged for one (grants past their checks,
codes, approved devices, authenticated operations), are no older than the last sweep of
the refresh tokens of their account (`ExchangesInv`). A handler hands the origin of what
it was given on to what it makes of it, one lemma for each handler.
-/

open Framework ServerCentral.Auth

namespace ServerCentral.Oidc

variable {env : OidcEnv}

/-! ### The invariant of exchanges -/

/-- What holds of a suspended handler. -/
def HandlerInv (users : Table String UserRecord) (g : Origins) (t : ℕ) : OidcTask → Prop
  | .requested op user =>
    op.offline = true → users.has user.id = true → g.sweptRows user.id ≤ g.handler t
  | .configuring userId _ scope => hasOfflineAccess scope = true → g.sweptRows userId ≤ g.handler t
  | _ => True

theorem HandlerInv.congr {users : Table String UserRecord} {g g' : Origins} {t : ℕ}
    {task : OidcTask} (h : HandlerInv users g t task) (h_swept : g'.sweptRows = g.sweptRows)
    (h_handler : g'.handler t = g.handler t) : HandlerInv users g' t task := by
  cases task with
  | requested op user => simpa only [HandlerInv, h_swept, h_handler] using h
  | configuring userId clientId scope => simpa only [HandlerInv, h_swept, h_handler] using h
  | _ => trivial

theorem HandlerInv.of_has {users users' : Table String UserRecord} {g : Origins} {t : ℕ}
    {task : OidcTask} (h : HandlerInv users g t task)
    (h_has : ∀ u, users'.has u = true → users.has u = true) : HandlerInv users' g t task := by
  cases task with
  | requested op user => exact fun h_op h_user => h h_op (h_has _ h_user)
  | configuring => exact h
  | _ => trivial

/-- **The invariant of exchanges.** -/
structure ExchangesInv (s : ServerState) (g : Origins) : Prop where
  row : ∀ k rec, s.refresh.tokens.get? k = some rec → g.sweptRows rec.userId ≤ g.row k
  task : ∀ t task, s.tasks.get? t = some task → HandlerInv s.auth.store.users g t task
  code : ∀ k rec, s.oidc.codes.get? k = some rec → hasOfflineAccess rec.scope = true →
    s.auth.clock ≤ rec.expiresAt → s.auth.store.users.has rec.userId = true →
      g.sweptRows rec.userId ≤ g.code k
  device : ∀ k rec u, s.devices.requests.get? k = some rec → rec.status = .approved →
    rec.userId = some u → hasOfflineAccess rec.scope = true → s.auth.clock ≤ rec.expiresAt →
      s.auth.store.users.has u = true → g.sweptRows u ≤ g.device k

/-- The invariant reads the sweeps and the origins of what can be exchanged. -/
theorem ExchangesInv.congr {s : ServerState} {g g' : Origins} (hi : ExchangesInv s g)
    (h_swept : g'.sweptRows = g.sweptRows) (h_row : g'.row = g.row)
    (h_handler : g'.handler = g.handler) (h_code : g'.code = g.code)
    (h_device : g'.device = g.device) : ExchangesInv s g' where
  row := h_swept ▸ h_row ▸ hi.row
  task t task h := (hi.task t task h).congr h_swept (congrFun h_handler t)
  code := h_swept ▸ h_code ▸ hi.code
  device := h_swept ▸ h_device ▸ hi.device

/-- Devices that differ in the time of a poll only. -/
def SameDevice (rec rec' : DeviceRequestRecord) : Prop :=
  rec'.status = rec.status ∧ rec'.userId = rec.userId ∧ rec'.scope = rec.scope ∧
    rec'.expiresAt = rec.expiresAt

/-- Whatever only goes away keeps the invariant, and so does the passing of time. -/
theorem ExchangesInv.of_sub {s s' : ServerState} {g : Origins} (hi : ExchangesInv s g)
    (h_rows : ∀ k rec, s'.refresh.tokens.get? k = some rec → s.refresh.tokens.get? k = some rec)
    (h_tasks : ∀ t task, s'.tasks.get? t = some task → s.tasks.get? t = some task)
    (h_codes : ∀ k rec, s'.oidc.codes.get? k = some rec → s.oidc.codes.get? k = some rec)
    (h_devices : ∀ k rec', s'.devices.requests.get? k = some rec' → rec'.status = .approved →
      ∃ rec, s.devices.requests.get? k = some rec ∧ SameDevice rec rec')
    (h_has : ∀ u, s'.auth.store.users.has u = true → s.auth.store.users.has u = true)
    (h_clock : s.auth.clock ≤ s'.auth.clock) : ExchangesInv s' g where
  row k rec h := hi.row k rec (h_rows k rec h)
  task t task h := (hi.task t task (h_tasks t task h)).of_has h_has
  code k rec h h_scope h_live h_user :=
    hi.code k rec (h_codes k rec h) h_scope (h_clock.trans h_live) (h_has _ h_user)
  device k rec' u h h_status h_user h_scope h_live h_u := by
    obtain ⟨rec, h_get, h_eq_status, h_eq_user, h_eq_scope, h_eq_exp⟩ := h_devices k rec' h h_status
    exact hi.device k rec u h_get (h_eq_status ▸ h_status) (h_eq_user ▸ h_user)
      (h_eq_scope ▸ h_scope) (h_clock.trans (h_eq_exp ▸ h_live)) (h_has u h_u)

/-- A sweep of the refresh tokens of `u` keeps the invariant, when nothing older can still
be exchanged. -/
theorem ExchangesInv.raise {s : ServerState} {g g' : Origins} {u : String} {n : ℕ}
    (hi : ExchangesInv s g) (h_swept : g'.sweptRows = Origins.raise g.sweptRows u n)
    (h_row : g'.row = g.row) (h_handler : g'.handler = g.handler) (h_code : g'.code = g.code)
    (h_device : g'.device = g.device)
    (h_rows : ∀ k rec, s.refresh.tokens.get? k = some rec → rec.userId ≠ u)
    (h_done : ExchangesDone s g u n s.auth.clock) : ExchangesInv s g' := by
  obtain ⟨h_grants, h_account⟩ := h_done
  refine ⟨fun k rec h => ?_, fun t task h => ?_, fun k rec h h_scope h_live h_user => ?_,
    fun k rec v h h_status h_v h_scope h_live h_user => ?_⟩
  · rw [h_swept, h_row]
    exact Origins.raise_le (hi.row k rec h) fun h_u => absurd h_u (h_rows k rec h)
  · have h_old := hi.task t task h
    have h_mem := Table.get?_eq_some_iff.mp h
    cases task with
    | requested op user =>
      intro h_op h_user
      rw [h_swept, h_handler]
      refine Origins.raise_le (h_old h_op h_user) fun h_u => ?_
      exact (h_account (h_u ▸ h_user)).1 _ h_mem h_u h_op
    | configuring userId clientId scope =>
      intro h_scope
      rw [h_swept, h_handler]
      exact Origins.raise_le (h_old h_scope) fun h_u => h_grants _ h_mem h_u h_scope
    | _ => trivial
  · rw [h_swept, h_code]
    refine Origins.raise_le (hi.code k rec h h_scope h_live h_user) fun h_u => ?_
    exact (h_account (h_u ▸ h_user)).2.1 _ (Table.get?_eq_some_iff.mp h) h_u h_scope h_live
  · rw [h_swept, h_device]
    refine Origins.raise_le (hi.device k rec v h h_status h_v h_scope h_live h_user) fun h_u => ?_
    exact (h_account (h_u ▸ h_user)).2.2 _ (Table.get?_eq_some_iff.mp h) h_status (h_u ▸ h_v)
      h_scope h_live

/-- A new task, or the next await of one, keeps the invariant. -/
theorem ExchangesInv.setTask {s : ServerState} {g g' : Origins} {t calls : ℕ} {task : OidcTask}
    (hi : ExchangesInv s g) (h_swept : g'.sweptRows = g.sweptRows) (h_row : g'.row = g.row)
    (h_handler : ∀ t', t' ≠ t → g'.handler t' = g.handler t') (h_code : g'.code = g.code)
    (h_device : g'.device = g.device) (h_task : HandlerInv s.auth.store.users g' t task) :
    ExchangesInv { s with tasks := s.tasks.set t task, calls := calls } g' where
  row := h_swept ▸ h_row ▸ hi.row
  task t' task' h := by
    rcases Table.get?_set_eq_some h with ⟨rfl, rfl⟩ | ⟨h_ne, h_old⟩
    · exact h_task
    · exact (hi.task t' task' h_old).congr h_swept (h_handler t' h_ne)
  code := h_swept ▸ h_code ▸ hi.code
  device := h_swept ▸ h_device ▸ hi.device

/-! ### Steps of the handlers -/

/-- The end of a segment of a handler keeps the invariant. -/
theorem ExchangesInv.after {s : ServerState} {g g' : Origins} {t : ℕ} {next : OidcNext}
    (hi : ExchangesInv s g) (h_swept : g'.sweptRows = g.sweptRows) (h_row : g'.row = g.row)
    (h_handler : ∀ t', t' ≠ t → g'.handler t' = g.handler t') (h_code : g'.code = g.code)
    (h_device : g'.device = g.device)
    (h_next : ∀ task, next = .await task → HandlerInv s.auth.store.users g' t task) :
    ExchangesInv (s.after t next) g' := by
  have h_erased : (∀ task, next ≠ .await task) → ExchangesInv (s.after t next) g' := by
    intro h_not
    have h_tasks : (s.after t next).tasks = s.tasks.erase t := by
      unfold ServerState.after
      split
      · next task => exact absurd rfl (h_not task)
      · rfl
    refine ⟨h_swept ▸ h_row ▸ hi.row, fun t' task h => ?_, h_swept ▸ h_code ▸ hi.code,
      h_swept ▸ h_device ▸ hi.device⟩
    rw [h_tasks] at h
    obtain ⟨h_old, h_ne⟩ := Table.get?_erase.mp h
    show HandlerInv s.auth.store.users g' t' task
    exact (hi.task t' task h_old).congr h_swept (h_handler t' h_ne)
  cases next with
  | await task =>
    have h_set : ExchangesInv { s with tasks := s.tasks.set t task, calls := s.calls } g' :=
      hi.setTask h_swept h_row h_handler h_code h_device (h_next task rfl)
    exact h_set
  | redirect code => exact h_erased (by simp)
  | approved => exact h_erased (by simp)
  | tokens refreshToken => exact h_erased (by simp)
  | refused error => exact h_erased (by simp)

/-- A segment after which the history variables are the same. -/
theorem ExchangesInv.after_same {s : ServerState} {g : Origins} {t : ℕ} {next : OidcNext}
    (hi : ExchangesInv s g)
    (h_next : ∀ task, next = .await task → HandlerInv s.auth.store.users g t task) :
    ExchangesInv (s.after t next) g :=
  hi.after rfl rfl (fun _ _ => rfl) rfl rfl h_next

/-- A code that is issued has the origin of its request. -/
theorem ExchangesInv.issueCode {s : ServerState} {g : Origins} {t now : ℕ} {code : String}
    {user : UserInfo} {client : OidcClientRecord} {params : OidcAuthorizeParams}
    (hi : ExchangesInv s g)
    (h_task : HandlerInv s.auth.store.users g t (.requested (.completeAuthorize params) user)) :
    ExchangesInv { s with oidc := s.oidc.issueCode user.id client params code now }
      { g with code := Function.update g.code code (g.handler t) } where
  row := hi.row
  task := hi.task
  code k rec h h_scope h_live h_user := by
    rcases Table.get?_set_eq_some h with ⟨rfl, rfl⟩ | ⟨h_ne, h_old⟩
    · simp only [Function.update_self]
      exact h_task h_scope h_user
    · simp only [Function.update_of_ne h_ne]
      exact hi.code k rec h_old h_scope h_live h_user
  device := hi.device

/-- `completeAuthorize` keeps the invariant. -/
theorem ExchangesInv.completeAuthorize {s s' : ServerState} {g : Origins} {t : ℕ}
    {user : UserInfo} {params : OidcAuthorizeParams} {i : OidcInput} {next : OidcNext}
    (hi : ExchangesInv s g) (h_eq : s.completeAuthorize user params i = (s', next))
    (h_task : HandlerInv s.auth.store.users g t (.requested (.completeAuthorize params) user)) :
    ExchangesInv (s'.after t next)
      (g.afterHandler env.digest t (.requested (.completeAuthorize params) user) next s s') := by
  unfold ServerState.completeAuthorize at h_eq
  split at h_eq
  · obtain ⟨rfl, rfl⟩ := Prod.mk.inj h_eq
    exact hi.after_same (by simp)
  · split at h_eq
    · obtain ⟨rfl, rfl⟩ := Prod.mk.inj h_eq
      exact hi.after_same (by simp)
    · obtain ⟨rfl, rfl⟩ := Prod.mk.inj h_eq
      exact (hi.issueCode h_task).after_same (by simp)

/-- The records after an answer. -/
theorem get?_resolve {s : DeviceCodeStore} {input : List Char} {userId : String}
    {prunedAt approvedAt : ℕ} {k : String} {rec : DeviceRequestRecord}
    (h : (s.resolve input .approved userId prunedAt approvedAt).1.requests.get? k = some rec) :
    s.requests.get? k = some rec ∨
      rec.userId = some userId ∧ ∃ old, s.requests.get? k = some old ∧ old.status = .pending := by
  unfold DeviceCodeStore.resolve at h
  dsimp only at h
  split at h
  · exact .inl (DeviceCodeStore.get?_prune.mp h).1
  · next key found h_entry =>
    rw [Table.get?_modify] at h
    obtain ⟨old, h_old, rfl⟩ := Option.map_eq_some_iff.mp h
    have h_before := (DeviceCodeStore.get?_prune.mp h_old).1
    by_cases h_key : k = key
    · subst h_key
      obtain ⟨h_found, -, h_pending, -⟩ := DeviceCodeStore.pendingEntry_eq_some h_entry
      obtain rfl := Option.some.inj (h_old.symm.trans h_found)
      rw [if_pos rfl]
      exact .inr ⟨rfl, old, h_before, h_pending⟩
    · rw [if_neg h_key]
      exact .inl h_before

/-- `approveDevice` keeps the invariant: a device it approves has the origin of its
request. -/
theorem ExchangesInv.approveDevice {s s' : ServerState} {g : Origins} {t : ℕ}
    {user : UserInfo} {userCode : List Char} {i : OidcInput} {next : OidcNext}
    (hi : ExchangesInv s g) (h_eq : s.approveDevice user userCode i = (s', next))
    (h_task : HandlerInv s.auth.store.users g t (.requested (.approveDevice userCode) user)) :
    ExchangesInv (s'.after t next)
      (g.afterHandler env.digest t (.requested (.approveDevice userCode) user) next s s') := by
  have h_pruned : ExchangesInv { s with devices := s.devices.prune i.t₁ } g :=
    hi.of_sub (fun _ _ h => h) (fun _ _ h => h) (fun _ _ h => h)
      (fun k rec h _ => ⟨rec, (DeviceCodeStore.get?_prune.mp h).1, rfl, rfl, rfl, rfl⟩)
      (fun _ h => h) (Nat.le_refl _)
  simp only [ServerState.approveDevice, DeviceCodeStore.findPending] at h_eq
  split at h_eq
  · obtain ⟨rfl, rfl⟩ := Prod.mk.inj h_eq
    exact h_pruned.after_same (by simp)
  · split at h_eq
    · obtain ⟨rfl, rfl⟩ := Prod.mk.inj h_eq
      exact h_pruned.after_same (by simp)
    · split at h_eq
      · obtain ⟨rfl, rfl⟩ := Prod.mk.inj h_eq
        exact h_pruned.after_same (by simp)
      · obtain ⟨rfl, rfl⟩ := Prod.mk.inj h_eq
        refine ExchangesInv.after_same ⟨hi.row, hi.task, hi.code,
          fun k rec u h h_status h_user h_scope h_live h_has => ?_⟩ (by simp)
        have h_approved : (DeviceRequestRecord.status rec = .approved) := h_status
        simp only [Origins.afterHandler]
        rcases get?_resolve h with h_old | ⟨h_new, old, h_old, h_pending⟩
        · have h_before := (DeviceCodeStore.get?_prune.mp h_old).1
          rw [if_neg (by simp [h_before, h_approved])]
          exact hi.device k rec u h_before h_status h_user h_scope h_live h_has
        · have h_before := (DeviceCodeStore.get?_prune.mp h_old).1
          rw [if_pos (by simp [h_before, h_pending, h, h_approved])]
          obtain rfl : user.id = u := Option.some.inj (h_new.symm.trans h_user)
          exact h_task rfl h_has

/-- A grant past its checks has the origin of the code it consumed. -/
theorem ExchangesInv.codeGrant {s s' : ServerState} {g : Origins} {t : ℕ}
    {client : OidcClientRecord} {code redirectUri codeVerifier secret : String} {i : OidcInput}
    {next : OidcNext} (hi : ExchangesInv s g)
    (h_key : ∀ k rec, s.auth.store.users.get? k = some rec → rec.id = k)
    (h_clock : s.auth.clock ≤ i.t₁)
    (h_eq : s.codeGrant env client code redirectUri codeVerifier i = (s', next)) :
    ExchangesInv (s'.after t next)
      (g.afterHandler env.digest t
        (.verifyingClient (.authorizationCode code redirectUri codeVerifier) client secret) next
        s s') := by
  have h_consumed : ExchangesInv { s with oidc := (s.oidc.consumeCode code i.t₁).1 } g :=
    hi.of_sub (fun _ _ h => h) (fun _ _ h => h) (fun _ _ h => (Table.get?_erase.mp h).1)
      (fun k rec h _ => ⟨rec, h, rfl, rfl, rfl, rfl⟩) (fun _ h => h) (Nat.le_refl _)
  simp only [ServerState.codeGrant] at h_eq
  split at h_eq
  · obtain ⟨rfl, rfl⟩ := Prod.mk.inj h_eq
    exact h_consumed.after_same (by simp)
  · next grant h_found =>
    split at h_eq
    · obtain ⟨rfl, rfl⟩ := Prod.mk.inj h_eq
      exact h_consumed.after_same (by simp)
    · split at h_eq
      · obtain ⟨rfl, rfl⟩ := Prod.mk.inj h_eq
        exact h_consumed.after_same (by simp)
      · split at h_eq
        · obtain ⟨rfl, rfl⟩ := Prod.mk.inj h_eq
          exact h_consumed.after_same (by simp)
        · next user h_user =>
          obtain ⟨rfl, rfl⟩ := Prod.mk.inj h_eq
          refine h_consumed.after rfl rfl (fun t' h_ne => Function.update_of_ne h_ne _ _) rfl rfl
            fun task h_await => ?_
          obtain rfl := OidcNext.await.inj h_await
          intro h_scope
          obtain ⟨rec, h_rec, rfl⟩ := Option.map_eq_some_iff.mp h_user
          obtain ⟨h_code, h_live⟩ := Option.filter_eq_some_iff.mp h_found
          have h_id : (s.auth.store.toUserInfo rec).id = grant.userId := h_key _ rec h_rec
          have h_unexpired : i.t₁ ≤ grant.expiresAt := by simpa using h_live
          simp only [Origins.afterHandler, Function.update_self, h_id]
          exact hi.code code grant h_code h_scope (h_clock.trans h_unexpired)
            (Option.isSome_iff_exists.mpr ⟨rec, h_rec⟩)

/-- A grant past its checks has the origin of the device it collected. -/
theorem ExchangesInv.deviceGrant {s s' : ServerState} {g : Origins} {t : ℕ}
    {client : OidcClientRecord} {deviceCode secret : String} {i : OidcInput}
    {next : OidcNext} (hi : ExchangesInv s g)
    (h_key : ∀ k rec, s.auth.store.users.get? k = some rec → rec.id = k)
    (h_clock : s.auth.clock ≤ i.t₁) (h_eq : s.deviceGrant client deviceCode i = (s', next)) :
    ExchangesInv (s'.after t next)
      (g.afterHandler env.digest t (.verifyingClient (.deviceCode deviceCode) client secret) next
        s s') := by
  have h_polled : ∀ devices : DeviceCodeStore,
      (∀ k rec', devices.requests.get? k = some rec' →
        ∃ rec, s.devices.requests.get? k = some rec ∧ SameDevice rec rec') →
      ExchangesInv { s with devices := devices } g := fun devices h =>
    hi.of_sub (fun _ _ h => h) (fun _ _ h => h) (fun _ _ h => h) (fun k rec h_get _ => h k rec h_get)
      (fun _ h => h) (Nat.le_refl _)
  have h_dropped : ExchangesInv { s with devices := ⟨s.devices.requests.erase deviceCode⟩ } g :=
    h_polled _ fun k rec h => ⟨rec, (Table.get?_erase.mp h).1, rfl, rfl, rfl, rfl⟩
  unfold ServerState.deviceGrant at h_eq
  rcases s.devices.poll_cases deviceCode client.id i.t₁ i.t₂ i.t₃ with ⟨h_poll, -⟩ |
    ⟨error, h_poll⟩ | ⟨rec, error, h_get, h_poll⟩ |
    ⟨rec, userId, approvedAt, h_get, -, h_live, h_status, h_user, -, -, h_poll⟩
  · rw [h_poll] at h_eq
    obtain ⟨rfl, rfl⟩ := Prod.mk.inj h_eq
    exact hi.after_same (by simp)
  · rw [h_poll] at h_eq
    obtain ⟨rfl, rfl⟩ := Prod.mk.inj h_eq
    exact h_dropped.after_same (by simp)
  · rw [h_poll] at h_eq
    obtain ⟨rfl, rfl⟩ := Prod.mk.inj h_eq
    refine (h_polled _ fun k rec' h => ?_).after_same (by simp)
    rw [Table.get?_modify] at h
    obtain ⟨old, h_old, rfl⟩ := Option.map_eq_some_iff.mp h
    refine ⟨old, h_old, ?_⟩
    split <;> exact ⟨rfl, rfl, rfl, rfl⟩
  · rw [h_poll] at h_eq
    dsimp only at h_eq
    split at h_eq
    · obtain ⟨rfl, rfl⟩ := Prod.mk.inj h_eq
      exact h_dropped.after_same (by simp)
    · next info h_info =>
      obtain ⟨rfl, rfl⟩ := Prod.mk.inj h_eq
      refine h_dropped.after rfl rfl (fun t' h_ne => Function.update_of_ne h_ne _ _) rfl rfl
        fun task h_await => ?_
      obtain rfl := OidcNext.await.inj h_await
      intro h_scope
      obtain ⟨account, h_account, rfl⟩ := Option.map_eq_some_iff.mp h_info
      have h_id : (s.auth.store.toUserInfo account).id = userId := h_key _ account h_account
      simp only [Origins.afterHandler, Function.update_self, h_id]
      exact hi.device deviceCode rec userId h_get h_status h_user h_scope (h_clock.trans h_live)
        (Option.isSome_iff_exists.mpr ⟨account, h_account⟩)

/-- A rotation hands the origin of the token on to its replacement. -/
theorem ExchangesInv.refreshGrant {s s' : ServerState} {g : Origins} {t : ℕ}
    {client : OidcClientRecord} {token secret : String} {i : OidcInput} {next : OidcNext}
    (hi : ExchangesInv s g) (h_eq : s.refreshGrant env client token i = (s', next)) :
    ExchangesInv (s'.after t next)
      (g.afterHandler env.digest t (.verifyingClient (.refreshToken token) client secret) next
        s s') := by
  have h_task : ∀ (users : Table String UserRecord) (g : Origins) (outcome : RotateOutcome)
      (task : OidcTask), OidcNext.await (.rotating client.id outcome) = .await task →
      HandlerInv users g t task := by
    rintro users g outcome task h_await
    obtain rfl := OidcNext.await.inj h_await
    trivial
  simp only [ServerState.refreshGrant] at h_eq
  obtain ⟨rfl, rfl⟩ := Prod.mk.inj h_eq
  rcases RefreshTokenStore.rotate_cases env.digest s.refresh token i.token i.t₁ i.t₂ i.t₃ i.t₄ with
    ⟨h_result, h_rows⟩ | ⟨rec, h_rec, -, h_result, h_rows⟩
  · have h_same : ExchangesInv { s with
        refresh := (s.refresh.rotate env.digest token i.token i.t₁ i.t₂ i.t₃ i.t₄).store } g :=
      hi.of_sub h_rows (fun _ _ h => h) (fun _ _ h => h)
        (fun k rec h _ => ⟨rec, h, rfl, rfl, rfl, rfl⟩) (fun _ h => h) (Nat.le_refl _)
    rcases h_result with h_result | h_result
    · rw [h_result]
      exact h_same.after_same (h_task _ _ _)
    · rw [h_result]
      exact h_same.after_same (h_task _ _ _)
  · rw [h_result]
    refine ExchangesInv.after_same ⟨fun k r h => ?_, hi.task, hi.code, hi.device⟩ (h_task _ _ _)
    have h_origin := hi.row _ rec h_rec
    simp only [Origins.afterHandler]
    rcases h_rows k r h with ⟨rfl, -, h_params, -⟩ | ⟨h_ne, rfl, rfl⟩ | ⟨h_ne, -, h_old⟩
    · have h_user : r.userId = rec.userId := congrArg RefreshParams.userId h_params
      rw [h_user, Function.update_self]
      exact h_origin
    · rw [Function.update_of_ne h_ne]
      exact h_origin
    · rw [Function.update_of_ne h_ne]
      exact hi.row k r h_old

/-- A refresh token that is issued has the origin of its grant. -/
theorem ExchangesInv.issueTokens {s s' : ServerState} {g : Origins} {t : ℕ}
    {userId clientId scope : String} {i : OidcInput} {next : OidcNext} (hi : ExchangesInv s g)
    (h_task : HandlerInv s.auth.store.users g t (.configuring userId clientId scope))
    (h_eq : s.issueTokens env userId clientId scope i = (s', next)) :
    ExchangesInv (s'.after t next)
      (g.afterHandler env.digest t (.configuring userId clientId scope) next s s') := by
  unfold ServerState.issueTokens at h_eq
  split at h_eq
  · obtain ⟨rfl, rfl⟩ := Prod.mk.inj h_eq
    exact hi.after_same (by simp)
  · split at h_eq
    · next h_scope =>
      obtain ⟨rfl, rfl⟩ := Prod.mk.inj h_eq
      refine ExchangesInv.after_same ⟨fun k r h => ?_, hi.task, hi.code, hi.device⟩ ?_
      · simp only [Origins.afterHandler]
        rcases RefreshTokenStore.get?_append h with ⟨rfl, -, h_params, -⟩ | ⟨h_ne, h_old⟩
        · have h_user : r.userId = userId := congrArg RefreshParams.userId h_params
          rw [h_user, Function.update_self]
          exact h_task h_scope
        · rw [Function.update_of_ne h_ne]
          exact hi.row k r h_old
      · rintro task h_await
        obtain rfl := OidcNext.await.inj h_await
        trivial
    · obtain ⟨rfl, rfl⟩ := Prod.mk.inj h_eq
      exact hi.after_same (by simp)

/-- The end of a rotation keeps the invariant. -/
theorem ExchangesInv.finishRotation {s s' : ServerState} {g : Origins} {t : ℕ}
    {clientId : String} {outcome : RotateOutcome} {next : OidcNext} (hi : ExchangesInv s g)
    (h_eq : s.finishRotation clientId outcome = (s', next)) :
    ExchangesInv (s'.after t next)
      (g.afterHandler env.digest t (.rotating clientId outcome) next s s') := by
  unfold ServerState.finishRotation at h_eq
  split at h_eq
  · obtain ⟨rfl, rfl⟩ := Prod.mk.inj h_eq
    exact hi.after_same (by simp)
  · obtain ⟨rfl, rfl⟩ := Prod.mk.inj h_eq
    exact hi.after_same (by simp)
  · next grant replacement =>
    split at h_eq
    · obtain ⟨rfl, rfl⟩ := Prod.mk.inj h_eq
      have h_fewer : ExchangesInv
          { s with refresh := (s.refresh.revokeFamily grant.familyId).store } g :=
        hi.of_sub (fun k rec h => (RefreshTokenStore.get?_revokeWhere.mp h).1) (fun _ _ h => h)
          (fun _ _ h => h) (fun k rec h _ => ⟨rec, h, rfl, rfl, rfl, rfl⟩) (fun _ h => h)
          (Nat.le_refl _)
      exact h_fewer.after_same (by simp)
    · obtain ⟨rfl, rfl⟩ := Prod.mk.inj h_eq
      refine hi.after_same fun task h_await => ?_
      obtain rfl := OidcNext.await.inj h_await
      trivial

/-- **Steps of the handlers** keep the invariant. -/
theorem ExchangesInv.resumed {s s' : ServerState} {g : Origins} {t : ℕ} {task : OidcTask}
    {i : OidcInput} {next : OidcNext} (hi : ExchangesInv s g)
    (h_key : ∀ k rec, s.auth.store.users.get? k = some rec → rec.id = k)
    (h_clock : s.auth.clock ≤ i.t₁) (h_get : s.tasks.get? t = some task)
    (h_eq : s.continuation env i task = (s', next)) :
    ExchangesInv (s'.after t next) (g.afterHandler env.digest t task next s s') := by
  have h_task := hi.task t task h_get
  cases task with
  | requested op user =>
    cases op with
    | completeAuthorize params => exact hi.completeAuthorize h_eq h_task
    | approveDevice userCode => exact hi.approveDevice h_eq h_task
  | verifyingClient grant client secret =>
    simp only [ServerState.continuation] at h_eq
    split at h_eq
    · obtain ⟨rfl, rfl⟩ := Prod.mk.inj h_eq
      have h_same : g.afterHandler env.digest t (.verifyingClient grant client secret)
          (.refused "invalid_client") s s = g := by
        cases grant <;> rfl
      rw [h_same]
      exact hi.after_same (by simp)
    · cases grant with
      | authorizationCode code redirectUri codeVerifier => exact hi.codeGrant h_key h_clock h_eq
      | deviceCode deviceCode => exact hi.deviceGrant h_key h_clock h_eq
      | refreshToken token => exact hi.refreshGrant h_eq
  | configuring userId clientId scope => exact hi.issueTokens h_task h_eq
  | rotating clientId outcome => exact hi.finishRotation h_eq
  | reading next =>
    simp only [ServerState.continuation] at h_eq
    split at h_eq
    · obtain ⟨rfl, rfl⟩ := Prod.mk.inj h_eq
      exact hi.after_same (by simp)
    · obtain ⟨rfl, rfl⟩ := Prod.mk.inj h_eq
      exact hi.after_same (by simp)
  | responding refreshToken =>
    obtain ⟨rfl, rfl⟩ := Prod.mk.inj h_eq
    exact hi.after_same (by simp)

end ServerCentral.Oidc
