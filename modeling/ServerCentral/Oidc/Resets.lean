import ServerCentral.Oidc.Exchanges

/-!
# What a reset revokes

Once a reset of an account has completed, no session, no refresh token, no login about
to succeed and nothing that can be exchanged for a refresh token has an origin from
before the reset (`reset_revokes`), along every run in which a reset that sweeps finds
nothing else outstanding (`SweepsComplete`).

`deleteSessionsForUser` sweeps two of the five kinds of credential, sessions and refresh
tokens. The condition is needed for the others: an authorization code that is
outstanding when the password is reset can still be exchanged afterwards, and a login
that was being verified opens its session (`reset_misses`).
-/

open Framework ServerCentral.Auth

namespace ServerCentral.Oidc

variable {env : OidcEnv}

/-! ### The account store inside the server -/

/-- A segment of the server creates no account. -/
theorem has_of_shape {a : AuthState} {l : AuthLabel} {t : ℕ} {seg : Auth.Segment}
    (h : AuthShape env.toAuthEnv a l t seg)
    (h_task : ∀ kind draft, a.tasks.get? t ≠ some (.hashingAccount kind draft)) {u : String}
    (h_has : seg.store.users.has u = true) : a.store.users.has u = true := by
  obtain ⟨rec, h_rec⟩ := Option.isSome_iff_exists.mp h_has
  have h_modify : ∀ (k : String) (f : UserRecord → UserRecord),
      (a.store.users.modify k f).get? u = some rec → a.store.users.has u = true := by
    intro k f h_get
    rw [Table.get?_modify] at h_get
    obtain ⟨old, h_old, -⟩ := Option.map_eq_some_iff.mp h_get
    exact Option.isSome_iff_exists.mpr ⟨old, h_old⟩
  cases h with
  | keeps h_users => exact h_users ▸ h_has
  | defaults => exact h_has
  | edits userId change => exact h_modify userId change h_rec
  | emails userId => exact h_modify userId _ h_rec
  | deletes => exact Option.isSome_iff_exists.mpr ⟨rec, (Table.get?_erase.mp h_rec).1⟩
  | inserts r kind draft h_at => exact absurd h_at (h_task kind draft)
  | drops => exact h_has
  | opens r task userId seg h_at h_ok h_from h_users => exact h_users ▸ h_has
  | touches => exact h_has

/-- A reset comes to its last step from the sweep of the sessions. -/
theorem notifying_cases {a a' : AuthState} {l : AuthLabel} {o : AuthOut} {u : String}
    (hs : a.step env.toAuthEnv l = some (a', o)) (h_creates : createsAccount l = false)
    (h_next : o.next = .await (.notifying u)) :
    ∃ r, l = .resume o.task r ∧ r.error = none ∧
      (a.tasks.get? o.task = some (.savingReset u) ∧
          (∀ session ∈ a.store.sessions.values, session.userId ≠ u) ∨
        a.tasks.get? o.task = some (.sweepingSessions u)) := by
  have h_machine : (authMachine env.toAuthEnv a.store).step a l = some (a', o) := hs
  obtain ⟨seg, -, h_segment, -, -, h_seg, -⟩ := AuthState.segment_shape h_machine
  rw [h_seg] at h_next
  cases l with
  | call op =>
    obtain ⟨-, rfl⟩ := Prod.mk.inj (Option.some.inj h_segment)
    have h_call : CallNext (AuthState.call env.toAuthEnv a.store op).next :=
      .of_call a.store op h_creates
    rcases h_call with h | h | ⟨_, h⟩ | ⟨_, h⟩ | ⟨_, h⟩
    · exact absurd h_next (h _)
    all_goals
      rw [h] at h_next
      exact absurd h_next (by simp)
  | resume t r =>
    obtain ⟨task, h_get, h_pair⟩ := Option.map_eq_some_iff.mp h_segment
    obtain ⟨rfl, rfl⟩ := Prod.mk.inj h_pair
    refine ⟨r, rfl, ?_⟩
    unfold AuthState.resumed at h_next
    split at h_next
    · exact absurd h_next (by simp [AuthStore.fail])
    · next h_error =>
      refine ⟨h_error, ?_⟩
      cases task with
      | savingReset v =>
        simp only [AuthState.continuation, AuthStore.deleteSessionsForUser] at h_next
        split at h_next
        · exact absurd h_next (by simp)
        · next h_any =>
          obtain ⟨⟩ := h_next
          refine .inl ⟨h_get, fun session h_mem h_user => h_any ?_⟩
          exact List.any_eq_true.mpr ⟨session, h_mem, by simpa using h_user⟩
      | sweepingSessions v =>
        obtain ⟨⟩ := h_next
        exact .inr h_get
      | savingAccount kind v =>
        cases kind <;> exact absurd h_next (by simp [AuthState.continuation, AuthStore.createSession])
      | verifying attempt =>
        simp only [AuthState.continuation, AuthStore.verified, AuthStore.createSession] at h_next
        split at h_next
        · split at h_next <;> exact absurd h_next (by simp)
        · exact absurd h_next (by simp)
      | hashingAccount => exact absurd h_next (by simp [AuthState.continuation])
      | openingSession => exact absurd h_next (by simp [AuthState.continuation])
      | hashingPassword => exact absurd h_next (by simp [AuthState.continuation])
      | notifying => exact absurd h_next (by simp [AuthState.continuation])
      | saving => exact absurd h_next (by simp [AuthState.continuation])

/-- What `authenticate` identifies. -/
theorem authenticate_identity {s : AuthStore} {token : Option String} {checkedAt seenAt : ℕ}
    {user : UserInfo}
    (h : (s.authenticate token checkedAt seenAt).next = .return (.identity (some user))) :
    ∃ t session rec, token = some t ∧ s.sessions.get? t = some session ∧
      s.users.get? session.userId = some rec ∧ user = s.toUserInfo rec := by
  unfold AuthStore.authenticate at h
  split at h
  · exact absurd h (by simp)
  · next t session h_found =>
    obtain ⟨_, h_token, h_map⟩ := Option.bind_eq_some_iff.mp h_found
    obtain ⟨_, h_session, h_pair⟩ := Option.map_eq_some_iff.mp h_map
    obtain ⟨rfl, rfl⟩ := Prod.mk.inj h_pair
    split at h
    · exact absurd h (by simp)
    · split at h
      · exact absurd h (by simp)
      · next rec h_user =>
        obtain ⟨⟩ := h
        exact ⟨_, _, rec, (Option.filter_eq_some_iff.mp h_token).1, h_session, h_user, rfl⟩

/-! ### Steps of the account store -/

/-- The account store does not know the origins of what can be exchanged. -/
theorem Origins.afterAuth_exchanges (g : Origins) (at? : Option AuthTask) (o : AuthOut) :
    (g.afterAuth at? o).row = g.row ∧ (g.afterAuth at? o).handler = g.handler ∧
      (g.afterAuth at? o).code = g.code ∧ (g.afterAuth at? o).device = g.device := by
  unfold afterAuth
  split <;> exact ⟨rfl, rfl, rfl, rfl⟩

theorem Origins.afterAuth_sweptRows (g : Origins) (at? : Option AuthTask) {o : AuthOut}
    (h : ∀ u, o.next ≠ .await (.notifying u)) : (g.afterAuth at? o).sweptRows = g.sweptRows := by
  unfold afterAuth
  split
  case h_6 h_next => exact absurd h_next (h _)
  case h_7 h_next => exact absurd h_next (h _)
  all_goals rfl

/-- **Steps of the account store** keep the invariant, when a reset that sweeps the
refresh tokens finds nothing older that can be exchanged. -/
theorem ExchangesInv.auth {s s' : ServerState} {g : Origins} {l : AuthLabel} {o : AuthOut}
    (hi : ExchangesInv s g) (h_sessions : SessionsInv env s.auth g)
    (hs : s.authStep env l = some (s', o)) (h_creates : createsAccount l = false)
    (h_done : ∀ r u, l = .resume o.task r → r.error = none →
      (s.auth.tasks.get? o.task = some (.savingReset u) ∧
          (∀ session ∈ s.auth.store.sessions.values, session.userId ≠ u) ∨
        s.auth.tasks.get? o.task = some (.sweepingSessions u)) →
      ExchangesDone s g u (g.number o.task) r.now) :
    ExchangesInv s' (g.afterAuth (before s.auth l) o) := by
  obtain ⟨⟨a', o'⟩, h_auth, h_eq⟩ := Option.map_eq_some_iff.mp hs
  obtain ⟨rfl, rfl⟩ := Prod.mk.inj h_eq
  have h_machine : (authMachine env.toAuthEnv s.auth.store).step s.auth l = some (a', o') := h_auth
  obtain ⟨seg, h_fresh, -, rfl, -, -, h_shape⟩ := AuthState.segment_shape h_machine
  have h_has : ∀ u, seg.store.users.has u = true → s.auth.store.users.has u = true := fun u =>
    has_of_shape h_shape fun kind draft h => h_sessions.task _ _ h
  have h_clock : s.auth.clock ≤ (s.auth.after l o'.task seg).clock := by
    rcases List.mem_cons.mp (List.getLastD_mem_cons (l := l.readings) (a := s.auth.clock)) with
      h_eq | h_mem
    · exact h_eq.ge
    · exact (List.pairwise_cons.mp h_fresh.1).1 _ h_mem
  obtain ⟨h_row, h_handler, h_code, h_device⟩ := g.afterAuth_exchanges (before s.auth l) o'
  have h_sub : ∀ refresh : RefreshTokenStore,
      (∀ k rec, refresh.tokens.get? k = some rec → s.refresh.tokens.get? k = some rec) →
      ExchangesInv { s with auth := s.auth.after l o'.task seg, refresh := refresh } g :=
    fun refresh h_rows => hi.of_sub h_rows (fun _ _ h => h) (fun _ _ h => h)
      (fun k rec h _ => ⟨rec, h, rfl, rfl, rfl, rfl⟩) h_has h_clock
  by_cases h_notify : ∃ u, o'.next = .await (.notifying u)
  · obtain ⟨u, h_next⟩ := h_notify
    obtain ⟨r, rfl, h_error, h_from⟩ := notifying_cases h_auth h_creates h_next
    have h_swept : (g.afterAuth (before s.auth (.resume o'.task r)) o').sweptRows =
        Origins.raise g.sweptRows u (g.number o'.task) := by
      rcases h_from with ⟨h_get, -⟩ | h_get
      · simp only [before, h_get, Origins.afterAuth, h_next]
      · simp only [before, h_get, Origins.afterAuth, h_next]
    have h_state : ({ s with auth := s.auth.after (.resume o'.task r) o'.task seg }).notified o' =
        { s with
          auth := s.auth.after (.resume o'.task r) o'.task seg
          refresh := (s.refresh.revokeForUser u).store } := by
      simp only [ServerState.notified, h_next]
    rw [h_state]
    refine (h_sub _ fun k rec h => (RefreshTokenStore.get?_revokeWhere.mp h).1).raise h_swept h_row
      h_handler h_code h_device (fun k rec h => ?_) ?_
    · simpa using (RefreshTokenStore.get?_revokeWhere.mp h).2
    · obtain ⟨h_grants, h_account⟩ := h_done r u rfl h_error h_from
      exact ⟨h_grants, fun h_u => h_account (h_has u h_u)⟩
  · have h_state : ({ s with auth := s.auth.after l o'.task seg }).notified o' =
        { s with auth := s.auth.after l o'.task seg } := by
      unfold ServerState.notified
      split
      · next h_next => exact absurd ⟨_, h_next⟩ h_notify
      · rfl
    rw [h_state]
    exact (h_sub s.refresh fun _ _ h => h).congr
      (g.afterAuth_sweptRows _ fun u h => h_notify ⟨u, h⟩) h_row h_handler h_code h_device

/-! ### Steps of the server -/

/-- Both invariants. -/
structure ResetsInv (env : OidcEnv) (s : ServerState) (g : Origins) : Prop where
  sessions : SessionsInv env s.auth g
  exchanges : ExchangesInv s g

/-- Handlers read the clock and the random source. -/
theorem ResetsInv.tick {s : ServerState} {g : Origins} {now : ℕ} {draws : List String}
    (hi : ResetsInv env s g) (h_clock : s.auth.clock ≤ now) :
    ResetsInv env (s.tick now draws) g where
  sessions := ⟨hi.sessions.completed, hi.sessions.rows, hi.sessions.sessions, hi.sessions.task,
    hi.sessions.key, hi.sessions.session⟩
  exchanges := hi.exchanges.of_sub (fun _ _ h => h) (fun _ _ h => h) (fun _ _ h => h)
    (fun _ rec h _ => ⟨rec, h, rfl, rfl, rfl, rfl⟩) (fun _ h => h) h_clock

/-- Handlers have no part in logins, sessions and resets. -/
theorem SessionsInv.afterHandler {s s' : ServerState} {g : Origins} {t : ℕ} {task : OidcTask}
    {next : OidcNext} {digest : String → String} (hi : SessionsInv env s.auth g) :
    SessionsInv env s.auth (g.afterHandler digest t task next s s') := by
  unfold Origins.afterHandler
  split <;> exact hi.congr rfl rfl rfl rfl rfl rfl rfl

/-- A handler leaves the account store as it is. -/
theorem continuation_auth {s s' : ServerState} {task : OidcTask} {i : OidcInput} {next : OidcNext}
    (h : s.continuation env i task = (s', next)) : s'.auth = s.auth := by
  have h_fst : (s.continuation env i task).1.auth = s.auth := by
    cases task with
    | requested op user =>
      cases op with
      | completeAuthorize params =>
        simp only [ServerState.continuation, ServerState.completeAuthorize]
        split
        · rfl
        · split <;> rfl
      | approveDevice userCode =>
        simp only [ServerState.continuation, ServerState.approveDevice]
        split
        · rfl
        · split
          · rfl
          · split <;> rfl
    | verifyingClient grant client secret =>
      simp only [ServerState.continuation]
      split
      · rfl
      · cases grant with
        | authorizationCode code redirectUri codeVerifier =>
          simp only [ServerState.codeGrant]
          split
          · rfl
          · split
            · rfl
            · split
              · rfl
              · split <;> rfl
        | deviceCode deviceCode =>
          simp only [ServerState.deviceGrant]
          split
          · rfl
          · split <;> rfl
        | refreshToken token => rfl
    | configuring userId clientId scope =>
      simp only [ServerState.continuation, ServerState.issueTokens]
      split
      · rfl
      · split <;> rfl
    | rotating clientId outcome =>
      simp only [ServerState.continuation, ServerState.finishRotation]
      split
      · rfl
      · rfl
      · split <;> rfl
    | reading next =>
      simp only [ServerState.continuation]
      split <;> rfl
    | responding refreshToken => rfl
  rw [← h_fst, h]

/-- A device request that is opened is not approved. -/
theorem ExchangesInv.openDevice {s : ServerState} {g : Origins} {params : DeviceParams}
    {deviceCode : String} {draws : ℕ → Fin userCodeLength → Fin 20} {prunedAt now : ℕ}
    (hi : ExchangesInv s g) :
    ExchangesInv
      { s with devices := (s.devices.request params deviceCode draws prunedAt now).1 } g := by
  refine hi.of_sub (fun _ _ h => h) (fun _ _ h => h) (fun _ _ h => h) (fun k rec h h_status => ?_)
    (fun _ h => h) (Nat.le_refl _)
  rcases s.devices.request_cases params deviceCode draws prunedAt now with
    ⟨message, h_eq⟩ | ⟨opened, h_eq, -, -, -, -, -, -, h_pending, -⟩
  · simp only [h_eq] at h
    exact ⟨rec, (DeviceCodeStore.get?_prune.mp h).1, rfl, rfl, rfl, rfl⟩
  · simp only [h_eq] at h
    rcases Table.get?_set_eq_some h with ⟨rfl, rfl⟩ | ⟨-, h_old⟩
    · exact absurd (h_pending.symm.trans h_status) (by simp)
    · exact ⟨rec, (DeviceCodeStore.get?_prune.mp h_old).1, rfl, rfl, rfl, rfl⟩

/-- A step of the account store inside the server. -/
theorem ResetsInv.auth {s s' : ServerState} {g : Origins} {l : AuthLabel} {o : AuthOut}
    (hi : ResetsInv env s g) (hs : s.authStep env l = some (s', o))
    (h_creates : createsAccount l = false) (h_ok : SweepsComplete env (s, g) (.auth l)) :
    ResetsInv env s' (g.afterAuth (before s.auth l) o) := by
  obtain ⟨⟨a', o'⟩, h_auth, h_eq⟩ := Option.map_eq_some_iff.mp hs
  obtain ⟨h_state, rfl⟩ := Prod.mk.inj h_eq
  have h_store : s'.auth = a' := by
    rw [← h_state]
    unfold ServerState.notified
    split <;> rfl
  refine ⟨?_, hi.exchanges.auth hi.sessions hs h_creates fun r u h_l h_error h_from => ?_⟩
  · rw [h_store]
    refine hi.sessions.step h_auth h_creates fun t r u h_l h_error h_get t' attempt h_at => ?_
    subst h_l
    have h_sweep := h_ok h_error
    simp only [h_get] at h_sweep
    exact h_sweep.1 _ (Table.get?_eq_some_iff.mp h_at)
  · subst h_l
    have h_sweep := h_ok h_error
    rcases h_from with ⟨h_get, h_none⟩ | h_get
    · simp only [h_get] at h_sweep
      exact h_sweep.2 h_none
    · simpa only [h_get] using h_sweep

/-- An operation of the browser has the origin of its session. -/
theorem ResetsInv.front {s s' : ServerState} {g : Origins} {op : FrontOp} {token : Option String}
    {checkedAt seenAt : ℕ} {o : ServerOut} (hi : ResetsInv env s g)
    (hs : s.step env (.front op token checkedAt seenAt) = some (s', o)) :
    ResetsInv env s' (g.after env s (.front op token checkedAt seenAt) s' o) := by
  obtain ⟨⟨s₁, o₁⟩, h_auth, h_eq⟩ := Option.map_eq_some_iff.mp hs
  have h_next : o₁.next = (s.auth.store.authenticate token checkedAt seenAt).next := by
    obtain ⟨⟨a', o'⟩, h_step, h_pair⟩ := Option.map_eq_some_iff.mp h_auth
    obtain ⟨-, rfl⟩ := Prod.mk.inj h_pair
    have h_machine : (authMachine env.toAuthEnv s.auth.store).step s.auth
        (.call (.authenticate token checkedAt seenAt)) = some (a', o') := h_step
    obtain ⟨seg, -, h_segment, -, -, h_seg, -⟩ := AuthState.segment_shape h_machine
    obtain ⟨-, rfl⟩ := Prod.mk.inj (Option.some.inj h_segment)
    exact h_seg
  have h_same : g.afterAuth none o₁ = g := by
    unfold AuthStore.authenticate at h_next
    split at h_next
    · simp only [Origins.afterAuth, h_next]
    · split at h_next
      · simp only [Origins.afterAuth, h_next]
      · split at h_next <;> simp only [Origins.afterAuth, h_next]
  have h_auth_inv : ResetsInv env s₁ g := h_same ▸ hi.auth h_auth rfl trivial
  dsimp only at h_eq
  split at h_eq
  · next user h_user =>
    obtain ⟨rfl, rfl⟩ := Prod.mk.inj h_eq
    obtain ⟨t, session, rec, rfl, h_session, h_rec, rfl⟩ :=
      authenticate_identity (h_next.symm.trans h_user)
    have h_id : (s.auth.store.toUserInfo rec).id = session.userId := hi.sessions.key _ rec h_rec
    refine ⟨h_auth_inv.sessions.congr rfl rfl rfl rfl rfl rfl rfl,
      h_auth_inv.exchanges.setTask rfl rfl (fun t' h_ne => Function.update_of_ne h_ne _ _) rfl rfl
        fun _ _ => ?_⟩
    simp only [Origins.after, Function.update_self, h_id]
    exact (hi.sessions.rows _).trans (hi.sessions.session t session h_session)
  · obtain ⟨rfl, rfl⟩ := Prod.mk.inj h_eq
    have h_origins : g.after env s (.front op token checkedAt seenAt) s₁ (.auth o₁) = g := by
      cases token <;> rfl
    rw [h_origins]
    exact h_auth_inv

/-- **Step lemma.** -/
theorem ResetsInv.step {s s' : ServerState} {g : Origins} {l : ServerLabel} {o : ServerOut}
    (hi : ResetsInv env s g) (h_ok : SweepsComplete env (s, g) l)
    (hs : s.step env l = some (s', o)) : ResetsInv env s' (g.after env s l s' o) := by
  cases l with
  | auth l =>
    simp only [ServerState.step] at hs
    split at hs
    · exact absurd hs (by simp)
    · next h_creates =>
      obtain ⟨⟨s₁, o₁⟩, h_auth, h_eq⟩ := Option.map_eq_some_iff.mp hs
      obtain ⟨rfl, rfl⟩ := Prod.mk.inj h_eq
      have h_after := hi.auth h_auth (by simpa using h_creates) h_ok
      cases l with
      | call op => exact h_after
      | resume t r => exact h_after
  | front op token checkedAt seenAt => exact hi.front hs
  | openDevice params deviceCode draws prunedAt now =>
    simp only [ServerState.step] at hs
    split at hs
    case isFalse => exact absurd hs (by simp)
    case isTrue h_fresh =>
    obtain ⟨rfl, rfl⟩ := Prod.mk.inj (Option.some.inj hs)
    have h_clock := (List.pairwise_cons.mp h_fresh.1).1 now (by simp)
    have h_opened : ResetsInv env
        { s with devices := (s.devices.request params deviceCode draws prunedAt now).1 } g :=
      ⟨hi.sessions, hi.exchanges.openDevice⟩
    exact h_opened.tick h_clock
  | token grant clientId secret =>
    simp only [ServerState.step, Option.some.injEq] at hs
    split at hs
    · obtain ⟨rfl, rfl⟩ := Prod.mk.inj hs
      exact hi
    · obtain ⟨rfl, rfl⟩ := Prod.mk.inj hs
      exact ⟨hi.sessions, hi.exchanges.setTask rfl rfl (fun _ _ => rfl) rfl rfl trivial⟩
  | resume t i =>
    simp only [ServerState.step] at hs
    split at hs
    case isFalse => exact absurd hs (by simp)
    case isTrue h_fresh =>
    obtain ⟨task, h_get, h_eq⟩ := Option.map_eq_some_iff.mp hs
    obtain ⟨rfl, rfl⟩ := Prod.mk.inj h_eq
    obtain ⟨h_first, -⟩ := List.pairwise_cons.mp h_fresh.1
    cases h_cont : s.continuation env i task with
    | mk s₁ next =>
      have h_auth := continuation_auth h_cont
      have h_origins : g.after env s (.resume t i) ((s₁.after t next).tick i.t₄ [i.token, i.familyId])
          (.handler t next) = g.afterHandler env.digest t task next s
            ((s₁.after t next).tick i.t₄ [i.token, i.familyId]) := by
        simp only [Origins.after, h_get]
      have h_devices : g.afterHandler env.digest t task next s
            ((s₁.after t next).tick i.t₄ [i.token, i.familyId]) =
          g.afterHandler env.digest t task next s s₁ := rfl
      rw [h_origins, h_devices]
      have h_inv : ResetsInv env (s₁.after t next) (g.afterHandler env.digest t task next s s₁) := by
        refine ⟨?_, hi.exchanges.resumed hi.sessions.key (h_first i.t₁ (by simp)) h_get h_cont⟩
        show SessionsInv env s₁.auth _
        rw [h_auth]
        exact hi.sessions.afterHandler
      refine h_inv.tick ?_
      show s₁.auth.clock ≤ i.t₄
      rw [h_auth]
      exact h_first i.t₄ (by simp)

/-- **Run lemma.** -/
theorem ResetsInv.of_run {auth : AuthStore} {apps : Table String OidcClientRecord}
    {refresh : RefreshTokenStore} {tr : List (ServerLabel × ServerOut)}
    {p : ServerState × Origins} (h_keys : ∀ k rec, auth.users.get? k = some rec → rec.id = k)
    (h : (trackedMachine env auth apps refresh).RunWhen (SweepsComplete env) tr p) :
    ResetsInv env p.1 p.2 := by
  refine h.invariant (P := fun p => ResetsInv env p.1 p.2) ?_ fun p l p' o hi h_ok hs => ?_
  · exact ⟨⟨fun _ => Nat.le_refl _, fun _ => Nat.le_refl _, fun _ => Nat.le_refl _,
      fun _ _ h => absurd h (by simp [trackedMachine, ServerState.loaded, AuthState.loaded]),
      h_keys, fun _ _ _ => Nat.le_refl _⟩,
      ⟨fun _ _ _ => Nat.le_refl _,
      fun _ _ h => absurd h (by simp [trackedMachine, ServerState.loaded]),
      fun _ _ _ _ _ _ => Nat.le_refl _, fun _ _ _ _ _ _ _ _ _ => Nat.le_refl _⟩⟩
  · obtain ⟨⟨s', o'⟩, h_step, h_eq⟩ := Option.map_eq_some_iff.mp hs
    obtain ⟨rfl, rfl⟩ := Prod.mk.inj h_eq
    exact hi.step h_ok h_step

/-! ### The guarantee -/

/-- Nothing of `u` has an origin before reset `n`: no session and no refresh token, no
login about to succeed, and nothing that can still be exchanged for a refresh token. -/
structure NothingOlder (env : OidcEnv) (s : ServerState) (g : Origins) (u : String) (n : ℕ) :
    Prop where
  session : ∀ k session, s.auth.store.sessions.get? k = some session → session.userId = u →
    n ≤ g.session k
  row : ∀ k rec, s.refresh.tokens.get? k = some rec → rec.userId = u → n ≤ g.row k
  logins : LoginsDone env s g u n
  exchanges : ExchangesDone s g u n s.auth.clock

/-- What the invariants say about a reset that has completed. -/
theorem ResetsInv.nothingOlder {s : ServerState} {g : Origins} (hi : ResetsInv env s g)
    (u : String) : NothingOlder env s g u (g.completed u) := by
  have h_rows : g.completed u ≤ g.sweptRows u := hi.sessions.completed u
  have h_sessions : g.completed u ≤ g.sweptSessions u := h_rows.trans (hi.sessions.rows u)
  refine ⟨fun k session h h_u => ?_, fun k rec h h_u => ?_, fun e h_e => ?_, fun e h_e => ?_,
    fun h_has => ⟨fun e h_e => ?_, fun e h_e h_u h_scope h_live => ?_,
      fun e h_e h_status h_u h_scope h_live => ?_⟩⟩
  · exact h_sessions.trans (h_u ▸ hi.sessions.session k session h)
  · exact h_rows.trans (h_u ▸ hi.exchanges.row k rec h)
  · have h_task := hi.sessions.task e.1 e.2 (Table.get?_eq_some_iff.mpr h_e)
    split
    · next attempt h_eq =>
      rw [h_eq] at h_task
      exact fun h_u h_ok => h_sessions.trans (h_task u h_u h_ok)
    · trivial
  · have h_task := hi.exchanges.task e.1 e.2 (Table.get?_eq_some_iff.mpr h_e)
    split
    · next userId clientId scope h_eq =>
      rw [h_eq] at h_task
      rintro rfl h_scope
      exact h_rows.trans (h_task h_scope)
    · trivial
  · have h_task := hi.exchanges.task e.1 e.2 (Table.get?_eq_some_iff.mpr h_e)
    split
    · next op user h_eq =>
      rw [h_eq] at h_task
      rintro rfl h_op
      exact h_rows.trans (h_task h_op h_has)
    · trivial
  · have h_code := hi.exchanges.code e.1 e.2 (Table.get?_eq_some_iff.mpr h_e) h_scope h_live
    exact h_rows.trans (h_u ▸ h_code (h_u ▸ h_has))
  · exact h_rows.trans (hi.exchanges.device e.1 e.2 u (Table.get?_eq_some_iff.mpr h_e) h_status h_u
      h_scope h_live h_has)

/-- **A completed reset revokes what came before it**, in every run in which each reset
that sweeps finds nothing else outstanding. -/
theorem reset_revokes {auth : AuthStore} {apps : Table String OidcClientRecord}
    {refresh : RefreshTokenStore} {tr : List (ServerLabel × ServerOut)}
    {p : ServerState × Origins} (h_keys : ∀ k rec, auth.users.get? k = some rec → rec.id = k)
    (h : (trackedMachine env auth apps refresh).RunWhen (SweepsComplete env) tr p) (u : String) :
    NothingOlder env p.1 p.2 u (p.2.completed u) :=
  (ResetsInv.of_run h_keys h).nothingOlder u

/-! ### Two runs -/

/-- An environment in which secrets and challenges are their own hashes. -/
def plainEnv : OidcEnv where
  toLowerCase := id
  verify secret hash := secret == hash
  roleExists _ := false
  verifyPkce verifier challenge := verifier == challenge
  digest := id

/-- The account `u` of `ann`. -/
def annStore : AuthStore where
  users := Table.empty.set "u"
    { id := "u", username := "ann", passwordHash := "password", isOwner := false, roleIds := none
      createdAt := 0, systemUser := none, extraPermissions := none, email := none }
  sessions := .empty
  defaults := ⟨none, none, none, none⟩
  dummyHash := ""
  loginFailures := .empty

theorem annStore_keys (k : String) (rec : UserRecord) (h : annStore.users.get? k = some rec) :
    rec.id = k := by
  rcases Table.get?_set_eq_some h with ⟨rfl, rfl⟩ | ⟨-, h_empty⟩
  · rfl
  · exact absurd h_empty (by simp)

/-- The client `notes`. -/
def notesApp : Table String OidcClientRecord :=
  Table.empty.set "notes" ⟨"notes", "Notes", ["https://notes"], "secret"⟩

/-- The server on which `ann` has an account and `notes` is registered. -/
def annMachine : Machine (ServerState × Origins) ServerLabel ServerOut :=
  trackedMachine plainEnv annStore notesApp ⟨.empty⟩

/-- What a segment of a handler takes from outside, with the drawn token. -/
def drawing (token : String) : OidcInput := ⟨none, true, token, "family of " ++ token, 0, 0, 0, 0⟩

/-- A fulfilled await, with the drawn token. -/
def fulfilled (task : ℕ) (token : String) : ServerLabel :=
  .auth (.resume task ⟨none, "new password", token, "id of " ++ token, 0⟩)

def logIn : ServerLabel := .auth (.call (.login "ann" "password" none none 0))

def resetPassword : ServerLabel := .auth (.call (.adminSetPassword "u" "new password"))

def authorize : ServerLabel :=
  .front (.completeAuthorize ⟨"notes", "https://notes", "openid offline_access", "v", "S256", none⟩)
    (some "session") 0 0

/-- A login whose session is swept by a reset. -/
def sweptRun : List ServerLabel :=
  [logIn, fulfilled 0 "session", fulfilled 0 "a", resetPassword, fulfilled 1 "b", fulfilled 1 "c",
    fulfilled 1 "d", fulfilled 1 "e"]

theorem reset_revokes_session : ∃ tr p, annMachine.exec annMachine.init sweptRun = some (tr, p) ∧
    p.2.completed "u" = 1 ∧ NothingOlder plainEnv p.1 p.2 "u" 1 := by
  obtain ⟨tr, p, h_exec, h_completed⟩ :=
    annMachine.exec_reads annMachine.init sweptRun (fun p => p.2.completed "u") 1
      (by decide +kernel)
  have h_run : annMachine.RunWhen (SweepsComplete plainEnv) tr p :=
    Machine.runWhen_of_exec sweptRun h_exec (by decide +kernel)
  have h_revoked := reset_revokes annStore_keys h_run "u"
  rw [h_completed] at h_revoked
  exact ⟨tr, p, h_exec, h_completed, h_revoked⟩

/-- A reset while a code is outstanding, which is exchanged afterwards. -/
def codeRun : List ServerLabel :=
  [logIn, fulfilled 0 "session", authorize, .resume 0 (drawing "code"), resetPassword,
    fulfilled 2 "a", fulfilled 2 "b", fulfilled 2 "c", fulfilled 2 "d",
    .token (.authorizationCode "code" "https://notes" "v") "notes" "secret",
    .resume 1 (drawing "e"), .resume 1 (drawing "token")]

/-- A reset while the old password is being verified. -/
def loginRun : List ServerLabel :=
  [logIn, resetPassword, fulfilled 1 "a", fulfilled 1 "b", fulfilled 1 "c", fulfilled 0 "session"]

/-- After a completed reset, a code from before it is exchanged for a refresh token, and a
login that verified the old password opens a session. -/
theorem reset_misses :
    (∃ tr p, annMachine.Run tr p ∧ p.2.completed "u" = 1 ∧
      ∃ rec, p.1.refresh.tokens.get? "token" = some rec ∧ rec.userId = "u" ∧ rec.usedAt = none ∧
        p.2.row "token" = 0) ∧
    ∃ tr p, annMachine.Run tr p ∧ p.2.completed "u" = 1 ∧
      ∃ session, p.1.auth.store.sessions.get? "session" = some session ∧ session.userId = "u" ∧
        p.2.session "session" = 0 := by
  constructor
  · obtain ⟨tr, p, h_exec, h_read⟩ :=
      annMachine.exec_reads annMachine.init codeRun
        (fun p => (p.2.completed "u", (p.1.refresh.tokens.get? "token").map fun rec =>
          (rec.userId, rec.usedAt), p.2.row "token"))
        (1, some ("u", none), 0) (by decide +kernel)
    simp only [Prod.mk.injEq, Option.map_eq_some_iff] at h_read
    obtain ⟨h_completed, ⟨rec, h_get, h_user, h_unused⟩, h_row⟩ := h_read
    exact ⟨tr, p, Machine.run_of_exec codeRun h_exec, h_completed, rec, h_get, h_user, h_unused,
      h_row⟩
  · obtain ⟨tr, p, h_exec, h_read⟩ :=
      annMachine.exec_reads annMachine.init loginRun
        (fun p => (p.2.completed "u", (p.1.auth.store.sessions.get? "session").map fun session =>
          session.userId, p.2.session "session"))
        (1, some "u", 0) (by decide +kernel)
    simp only [Prod.mk.injEq, Option.map_eq_some_iff] at h_read
    obtain ⟨h_completed, ⟨session, h_get, h_user⟩, h_origin⟩ := h_read
    exact ⟨tr, p, Machine.run_of_exec loginRun h_exec, h_completed, session, h_get, h_user,
      h_origin⟩

end ServerCentral.Oidc
