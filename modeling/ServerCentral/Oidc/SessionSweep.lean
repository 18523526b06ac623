import Mathlib.Data.Nat.Basic
import Mathlib.Order.Basic
import ServerCentral.Oidc.Origins

/-!
# Sessions and resets

Sessions, and logins that are about to succeed, are no older than the last reset of
their account that has swept its sessions (`SessionsInv`). A reset sweeps the sessions
in one step and cannot see the logins whose password is still being verified, so the
step is asked to find no older one of its account (`LoginsDone`).

The counters of an account are ordered: what has completed has swept the refresh
tokens, what has swept those has swept the sessions, and what has swept those has
started.
-/

open Framework ServerCentral.Auth

namespace ServerCentral.Oidc

variable {env : OidcEnv}

/-! ### The account store -/

/-- What holds of a suspended method of `AuthStore`. -/
def TaskInv (env : OidcEnv) (g : Origins) (t : ℕ) : AuthTask → Prop
  | .hashingAccount _ _ => False
  | .savingAccount _ _ => False
  | .verifying attempt => ∀ u, attempt.userId = some u →
    env.verify attempt.password attempt.hash = true → g.sweptSessions u ≤ g.login t
  | .hashingPassword u => g.number t ≤ g.resets u
  | .savingReset u => g.number t ≤ g.resets u
  | .sweepingSessions u => g.number t ≤ g.sweptSessions u
  | .notifying u => g.number t ≤ g.sweptRows u
  | _ => True

/-- **The invariant of sessions and resets.** -/
structure SessionsInv (env : OidcEnv) (a : AuthState) (g : Origins) : Prop where
  completed : ∀ u, g.completed u ≤ g.sweptRows u
  rows : ∀ u, g.sweptRows u ≤ g.sweptSessions u
  sessions : ∀ u, g.sweptSessions u ≤ g.resets u
  task : ∀ t task, a.tasks.get? t = some task → TaskInv env g t task
  key : ∀ k rec, a.store.users.get? k = some rec → rec.id = k
  session : ∀ k session, a.store.sessions.get? k = some session →
    g.sweptSessions session.userId ≤ g.session k

theorem Origins.le_raise (f : String → ℕ) (u v : String) (n : ℕ) : f v ≤ Origins.raise f u n v := by
  unfold Origins.raise
  by_cases h : v = u
  · subst h
    rw [Function.update_self]
    exact Nat.le_max_left _ _
  · exact (Function.update_of_ne h _ _).ge

theorem Origins.raise_self_le (f : String → ℕ) (u : String) (n : ℕ) : n ≤ Origins.raise f u n u := by
  rw [Origins.raise, Function.update_self]
  exact Nat.le_max_right _ _

/-- A bound on the raised value. -/
theorem Origins.raise_le {f : String → ℕ} {u v : String} {n m : ℕ} (h : f v ≤ m)
    (h_u : v = u → n ≤ m) : Origins.raise f u n v ≤ m := by
  unfold Origins.raise
  by_cases h_v : v = u
  · subst h_v
    rw [Function.update_self]
    exact Nat.max_le.mpr ⟨h, h_u rfl⟩
  · rwa [Function.update_of_ne h_v]

/-- A suspended method keeps its invariant while the counters grow. -/
theorem TaskInv.mono {g g' : Origins} {t : ℕ} {task : AuthTask} (h : TaskInv env g t task)
    (h_resets : ∀ u, g.resets u ≤ g'.resets u)
    (h_sessions : ∀ u, g.sweptSessions u ≤ g'.sweptSessions u)
    (h_rows : ∀ u, g.sweptRows u ≤ g'.sweptRows u) (h_number : g'.number t = g.number t)
    (h_login : ∀ attempt u, task = .verifying attempt → attempt.userId = some u →
      env.verify attempt.password attempt.hash = true → g'.sweptSessions u ≤ g'.login t) :
    TaskInv env g' t task := by
  cases task with
  | verifying attempt => exact fun u h_u h_verify => h_login attempt u rfl h_u h_verify
  | hashingPassword u => exact (h_number.trans_le h).trans (h_resets u)
  | savingReset u => exact (h_number.trans_le h).trans (h_resets u)
  | sweepingSessions u => exact (h_number.trans_le h).trans (h_sessions u)
  | notifying u => exact (h_number.trans_le h).trans (h_rows u)
  | hashingAccount => exact h
  | savingAccount => exact h
  | openingSession => exact h
  | saving => exact h

/-- The store changes of a segment that neither inserts an account nor opens a session:
accounts keep their ids and sessions their owners, and none is added. -/
structure StoreShrinks (s s' : AuthStore) : Prop where
  users : ∀ k rec', s'.users.get? k = some rec' →
    ∃ rec, s.users.get? k = some rec ∧ rec'.id = rec.id
  sessions : ∀ k session', s'.sessions.get? k = some session' →
    ∃ session, s.sessions.get? k = some session ∧ session'.userId = session.userId

theorem StoreShrinks.of_eq {s s' : AuthStore} (h_users : s'.users = s.users)
    (h_sessions : s'.sessions = s.sessions) : StoreShrinks s s' :=
  ⟨fun _ rec h => ⟨rec, h_users ▸ h, rfl⟩, fun _ session h => ⟨session, h_sessions ▸ h, rfl⟩⟩

/-- What an ordinary segment does to accounts and sessions. -/
theorem StoreShrinks.of_shape {a : AuthState} {l : AuthLabel} {t : ℕ} {seg : Auth.Segment}
    (h : AuthShape env.toAuthEnv a l t seg)
    (h_task : ∀ r, l = .resume t r → ∀ task, a.tasks.get? t = some task →
      (∀ kind draft, task ≠ .hashingAccount kind draft) ∧
        (∀ kind u, task ≠ .savingAccount kind u) ∧ ∀ attempt, task ≠ .verifying attempt) :
    StoreShrinks a.store seg.store := by
  have h_refl : StoreShrinks a.store a.store := .of_eq rfl rfl
  cases h with
  | keeps h_users h_sessions h_defaults => exact .of_eq h_users h_sessions
  | defaults d h_email => exact ⟨h_refl.users, h_refl.sessions⟩
  | edits userId change next h_change =>
    refine ⟨fun k rec' h => ?_, h_refl.sessions⟩
    rw [Table.get?_modify] at h
    obtain ⟨rec, h_old, rfl⟩ := Option.map_eq_some_iff.mp h
    refine ⟨rec, h_old, ?_⟩
    split
    · exact (h_change rec).1
    · rfl
  | emails userId email h_free =>
    refine ⟨fun k rec' h => ?_, h_refl.sessions⟩
    rw [Table.get?_modify] at h
    obtain ⟨rec, h_old, rfl⟩ := Option.map_eq_some_iff.mp h
    exact ⟨rec, h_old, by split <;> rfl⟩
  | deletes userId callerId h_owner =>
    exact ⟨fun k rec h => ⟨rec, (Table.get?_erase.mp h).1, rfl⟩, h_refl.sessions⟩
  | inserts r kind draft h_at h_ok => exact absurd rfl ((h_task r rfl _ h_at).1 kind draft)
  | drops sessions next h_rows =>
    exact ⟨h_refl.users, fun k session h => ⟨session, h_rows k session h, rfl⟩⟩
  | opens r task userId seg h_at h_ok h_from =>
    rcases h_from with ⟨ip, userAgent, rfl⟩ | ⟨attempt, rfl, -⟩
    · exact absurd rfl ((h_task r rfl _ h_at).2.1 _ _)
    · exact absurd rfl ((h_task r rfl _ h_at).2.2 attempt)
  | touches token session rec checkedAt seenAt h_session h_user =>
    refine ⟨h_refl.users, fun k session' h => ?_⟩
    rw [Table.get?_modify] at h
    obtain ⟨old, h_old, rfl⟩ := Option.map_eq_some_iff.mp h
    exact ⟨old, h_old, by split <;> rfl⟩

/-- The ways a first segment goes on, when it creates no account. -/
def CallNext (next : AuthNext) : Prop :=
  (∀ task, next ≠ .await task) ∨ next = .await .saving ∨
    (∃ attempt, next = .await (.verifying attempt)) ∨
    (∃ u, next = .await (.hashingPassword u)) ∨ ∃ u, next = .await (.savingReset u)

theorem CallNext.fail (a : AuthStore) (message : String) : CallNext (a.fail message).next :=
  .inl (by simp [AuthStore.fail])

theorem CallNext.setFields (a : AuthStore) (userId : String) (change : UserRecord → UserRecord)
    (changeDefaults : UserDefaults → UserDefaults) :
    CallNext (a.setFields userId change changeDefaults).next := by
  unfold AuthStore.setFields
  split
  · exact .fail a _
  · exact .inr (.inl rfl)
  · exact .inr (.inl rfl)

theorem CallNext.of_call (a : AuthStore) (op : AuthOp) (h : createsAccount (.call op) = false) :
    CallNext (AuthState.call env.toAuthEnv a op).next := by
  have h_return : ∀ result, CallNext (.return result) := fun _ => .inl (by simp)
  have h_saving : CallNext (.await .saving) := .inr (.inl rfl)
  cases op with
  | setupOwner => exact absurd h (by simp [createsAccount])
  | addUser => exact absurd h (by simp [createsAccount])
  | deleteUser userId callerId =>
    unfold AuthState.call AuthStore.deleteUser
    dsimp only
    split
    · exact h_return _
    · split
      · exact .fail a _
      · split
        · exact .fail a _
        · exact .inr (.inr (.inr (.inr ⟨userId, rfl⟩)))
  | setUserRoles userId roleIds =>
    unfold AuthState.call AuthStore.setUserRoles
    dsimp only
    split
    · exact .fail a _
    · split
      · exact .fail a _
      · split
        · exact .fail a _
        · exact .setFields a _ _ _
  | setPermissions userId permissions =>
    unfold AuthState.call AuthStore.setPermissions
    dsimp only
    split
    · exact .fail a _
    · split
      · exact .fail a _
      · exact .setFields a _ _ _
  | setSystemUser userId systemUser =>
    unfold AuthState.call AuthStore.setSystemUser
    dsimp only
    split
    · exact .fail a _
    · split
      · exact .fail a _
      · exact .setFields a _ _ _
  | setEmail userId email =>
    unfold AuthState.call AuthStore.setEmail
    dsimp only
    split
    · exact .fail a _
    · split
      · exact .fail a _
      · exact .setFields a _ _ _
  | adminSetPassword userId password =>
    unfold AuthState.call AuthStore.adminSetPassword
    dsimp only
    split
    · exact .fail a _
    · split
      · exact .fail a _
      · exact .inr (.inr (.inr (.inl ⟨userId, rfl⟩)))
  | login username password ip userAgent now =>
    unfold AuthState.call AuthStore.login
    dsimp only
    split
    · exact .fail a _
    · exact .inr (.inr (.inl ⟨_, rfl⟩))
  | logout token =>
    unfold AuthState.call AuthStore.logout
    dsimp only
    split
    · exact h_return _
    · split
      · exact h_return _
      · exact h_saving
  | revokeSession userId sessionId currentToken =>
    unfold AuthState.call AuthStore.revokeSession
    dsimp only
    split
    · exact .fail a _
    · split
      · exact .fail a _
      · exact h_saving
  | authenticate token checkedAt seenAt =>
    unfold AuthState.call AuthStore.authenticate
    dsimp only
    split
    · exact h_return _
    · split
      · exact h_saving
      · split
        · exact h_return _
        · exact h_return _

/-! ### Steps of the account store -/

/-- The await a step resumes from. -/
def before (a : AuthState) : AuthLabel → Option AuthTask
  | .call _ => none
  | .resume t _ => a.tasks.get? t

/-- An ordinary segment keeps the invariant when the history variables do not change, or
only start a reset or a login. -/
theorem SessionsInv.of_shrinks {a : AuthState} {g g' : Origins} {l : AuthLabel} {t : ℕ}
    {seg : Auth.Segment} (hi : SessionsInv env a g) (h : StoreShrinks a.store seg.store)
    (h_completed : g'.completed = g.completed) (h_rows : g'.sweptRows = g.sweptRows)
    (h_sessions : g'.sweptSessions = g.sweptSessions) (h_session : g'.session = g.session)
    (h_resets : ∀ u, g.resets u ≤ g'.resets u)
    (h_other : ∀ t', t' ≠ t → g'.number t' = g.number t' ∧ g'.login t' = g.login t')
    (h_task : ∀ task, seg.next = .await task → TaskInv env g' t task) :
    SessionsInv env (a.after l t seg) g' where
  completed u := by
    rw [h_completed, h_rows]
    exact hi.completed u
  rows u := by
    rw [h_rows, h_sessions]
    exact hi.rows u
  sessions u := by
    rw [h_sessions]
    exact (hi.sessions u).trans (h_resets u)
  task t' task h_get := by
    rcases AuthState.get?_after h_get with ⟨h_ne, h_get⟩ | ⟨rfl, h_next⟩
    · have h_old := hi.task t' task h_get
      refine h_old.mono h_resets (fun u => (congrFun h_sessions u).ge) (fun u => (congrFun h_rows u).ge)
        (h_other t' h_ne).1 fun attempt u h_eq h_u h_verify => ?_
      subst h_eq
      rw [h_sessions, (h_other t' h_ne).2]
      exact h_old u h_u h_verify
    · exact h_task task h_next
  key k rec h_get := by
    obtain ⟨old, h_old, h_id⟩ := h.users k rec h_get
    rw [h_id, hi.key k old h_old]
  session k session h_get := by
    obtain ⟨old, h_old, h_user⟩ := h.sessions k session h_get
    rw [h_sessions, h_session, h_user]
    exact hi.session k old h_old

/-- A first segment keeps the invariant. -/
theorem SessionsInv.call {a : AuthState} {g : Origins} {op : AuthOp} {o : AuthOut} {seg : Auth.Segment}
    (hi : SessionsInv env a g) (h_creates : createsAccount (.call op) = false)
    (h_seg : seg = AuthState.call env.toAuthEnv a.store op) (h_next : o.next = seg.next)
    (h_shape : AuthShape env.toAuthEnv a (.call op) o.task seg) :
    SessionsInv env (a.after (.call op) o.task seg) (g.afterAuth none o) := by
  have h_shrinks : StoreShrinks a.store seg.store := .of_shape h_shape (by simp)
  have h_le : ∀ u, g.sweptSessions u ≤ g.resets u := hi.sessions
  rcases h_seg ▸ CallNext.of_call a.store op h_creates with
    h_await | h_saving | ⟨attempt, h_login⟩ | ⟨u, h_reset⟩ | ⟨u, h_reset⟩
  · rw [g.afterAuth_of_not_await fun task => h_next ▸ h_await task]
    exact hi.of_shrinks h_shrinks rfl rfl rfl rfl (fun _ => Nat.le_refl _) (fun _ _ => ⟨rfl, rfl⟩)
      fun task h => absurd h (h_await task)
  · have h_same : g.afterAuth none o = g := by simp only [Origins.afterAuth, h_next, h_saving]
    rw [h_same]
    refine hi.of_shrinks h_shrinks rfl rfl rfl rfl (fun _ => Nat.le_refl _) (fun _ _ => ⟨rfl, rfl⟩)
      fun task h => ?_
    obtain rfl := AuthNext.await.inj (h_saving.symm.trans h)
    trivial
  · have h_after : g.afterAuth none o =
        { g with login := Function.update g.login o.task (attempt.userId.elim 0 g.resets) } := by
      simp only [Origins.afterAuth, h_next, h_login]
    rw [h_after]
    refine hi.of_shrinks h_shrinks rfl rfl rfl rfl (fun _ => Nat.le_refl _)
      (fun t' h_ne => ⟨rfl, Function.update_of_ne h_ne _ _⟩) fun task h => ?_
    obtain rfl := AuthNext.await.inj (h_login.symm.trans h)
    -- a new login is as young as the latest reset
    intro u h_u _
    simp only [Function.update_self, h_u]
    exact h_le u
  all_goals
    have h_after : g.afterAuth none o = g.startReset u o.task := by
      simp only [Origins.afterAuth, h_next, h_reset]
    rw [h_after]
    refine hi.of_shrinks h_shrinks rfl rfl rfl rfl (fun v => ?_)
      (fun t' h_ne => ⟨Function.update_of_ne h_ne _ _, rfl⟩) fun task h => ?_
    · simp only [Origins.startReset]
      by_cases h_v : v = u
      · subst h_v
        rw [Function.update_self]
        exact Nat.le_succ _
      · exact (Function.update_of_ne h_v _ _).ge
    · obtain rfl := AuthNext.await.inj (h_reset.symm.trans h)
      simp only [TaskInv, Origins.startReset, Function.update_self, Nat.le_refl]

/-- A login that resumes keeps the invariant: the session it opens has its origin. -/
theorem SessionsInv.verified {a : AuthState} {g : Origins} {t : ℕ} {r : Resumption}
    {attempt : LoginAttempt} {o : AuthOut} (hi : SessionsInv env a g)
    (h_get : a.tasks.get? t = some (.verifying attempt)) (h_task : o.task = t)
    (h_next : o.next = (a.store.verified env.toAuthEnv attempt r.token r.sessionId r.now).next) :
    SessionsInv env
      (a.after (.resume t r) t (a.store.verified env.toAuthEnv attempt r.token r.sessionId r.now))
      (g.afterAuth (some (.verifying attempt)) o) := by
  have h_fails : ∀ seg : Auth.Segment,
      seg = ⟨a.store.recordLoginFailure attempt.key r.now, [], .throw "Invalid username or password"⟩ →
      o.next = seg.next →
      SessionsInv env (a.after (.resume t r) t seg) (g.afterAuth (some (.verifying attempt)) o) := by
    rintro seg rfl h_throw
    have h_same : g.afterAuth (some (.verifying attempt)) o = g := by
      simp only [Origins.afterAuth, h_throw]
    rw [h_same]
    exact hi.of_shrinks (.of_eq rfl rfl) rfl rfl rfl rfl (fun _ => Nat.le_refl _)
      (fun _ _ => ⟨rfl, rfl⟩) (by simp)
  unfold AuthStore.verified at h_next ⊢
  split at h_next
  · next userId h_user =>
    split at h_next
    · next h_verify =>
      have h_after : g.afterAuth (some (.verifying attempt)) o =
          { g with session := Function.update g.session r.token (g.login t) } := by
        simp only [Origins.afterAuth, h_next, AuthStore.createSession, h_task]
      rw [h_after, if_pos h_verify]
      have h_origin := hi.task t _ h_get userId h_user h_verify
      refine ⟨hi.completed, hi.rows, hi.sessions, fun t' task h_t' => ?_, hi.key,
        fun k session h_k => ?_⟩
      · rcases AuthState.get?_after h_t' with ⟨-, h_t'⟩ | ⟨-, h_await⟩
        · have h_old := hi.task t' task h_t'
          refine h_old.mono (fun _ => Nat.le_refl _) (fun _ => Nat.le_refl _)
            (fun _ => Nat.le_refl _) rfl fun attempt' u h_eq h_u h_ok => ?_
          subst h_eq
          exact h_old u h_u h_ok
        · obtain rfl := AuthNext.await.inj h_await
          trivial
      · by_cases h_token : k = r.token
        · subst h_token
          have h_self : session.userId = userId := by
            have h_set : (a.store.sessions.set r.token _).get? r.token = some session := h_k
            rw [Table.get?_set_self] at h_set
            rw [← Option.some.inj h_set]
          simp only [Function.update_self, h_self]
          exact h_origin
        · have h_old : (a.store.sessions.set r.token _).get? k = some session := h_k
          rw [Table.get?_set_of_ne _ _ h_token] at h_old
          simp only [Function.update_of_ne h_token]
          exact hi.session k session h_old
    · next h_verify =>
      rw [if_neg h_verify]
      exact h_fails _ rfl h_next
  · exact h_fails _ rfl h_next

/-- A reset that sweeps the sessions keeps the invariant, when no older login is about to
succeed. -/
theorem SessionsInv.sweeps {a : AuthState} {g : Origins} {t : ℕ} {r : Resumption} {u : String}
    {o : AuthOut} (hi : SessionsInv env a g) (h_get : a.tasks.get? t = some (.savingReset u))
    (h_task : o.task = t) (h_next : o.next = (a.store.deleteSessionsForUser u).next)
    (h_logins : ∀ t' attempt, a.tasks.get? t' = some (.verifying attempt) →
      attempt.userId = some u → env.verify attempt.password attempt.hash = true →
        g.number t ≤ g.login t') :
    SessionsInv env (a.after (.resume t r) t (a.store.deleteSessionsForUser u))
      (g.afterAuth (some (.savingReset u)) o) := by
  have h_number : g.number t ≤ g.resets u := hi.task t _ h_get
  -- what both branches have in common: the session counter is raised, `rows` is below it
  have h_swept : ∀ (seg : Auth.Segment) (rows : String → ℕ), seg.store.users = a.store.users →
      (∀ k session, seg.store.sessions.get? k = some session →
        a.store.sessions.get? k = some session ∧ session.userId ≠ u) →
      (∀ v, g.sweptRows v ≤ rows v) →
      (∀ v, rows v ≤ Origins.raise g.sweptSessions u (g.number t) v) →
      (∀ task, seg.next = .await task → TaskInv env
        { g with sweptSessions := Origins.raise g.sweptSessions u (g.number t), sweptRows := rows }
        t task) →
      SessionsInv env (a.after (.resume t r) t seg)
        { g with
          sweptSessions := Origins.raise g.sweptSessions u (g.number t)
          sweptRows := rows } := by
    intro seg rows h_users h_sessions h_le h_rows h_await
    refine ⟨fun v => (hi.completed v).trans (h_le v), h_rows, fun v => ?_, fun t' task h_t' => ?_,
      fun k rec h_k => hi.key k rec (h_users ▸ h_k), fun k session h_k => ?_⟩
    · exact Origins.raise_le (hi.sessions v) fun h_v => h_v ▸ h_number
    · rcases AuthState.get?_after h_t' with ⟨-, h_t'⟩ | ⟨rfl, h_next⟩
      · have h_old := hi.task t' task h_t'
        refine h_old.mono (fun _ => Nat.le_refl _) (Origins.le_raise _ u · _) h_le rfl
          fun attempt v h_eq h_v h_ok => ?_
        subst h_eq
        exact Origins.raise_le (h_old v h_v h_ok)
          fun h_vu => h_logins t' attempt h_t' (h_vu ▸ h_v) h_ok
      · exact h_await task h_next
    · obtain ⟨h_old, h_ne⟩ := h_sessions k session h_k
      exact Origins.raise_le (hi.session k session h_old) fun h_u => absurd h_u h_ne
  unfold AuthStore.deleteSessionsForUser at h_next ⊢
  split at h_next
  · next h_any =>
    have h_after : g.afterAuth (some (.savingReset u)) o =
        { g with sweptSessions := Origins.raise g.sweptSessions u (g.number t) } := by
      simp only [Origins.afterAuth, h_next, h_task]
    rw [h_after, if_pos h_any]
    refine h_swept _ g.sweptRows rfl (fun k session h_k => ?_) (fun _ => Nat.le_refl _)
      (fun v => (hi.rows v).trans (Origins.le_raise _ u v _)) fun task h_await => ?_
    · simpa using Table.get?_filter.mp h_k
    · obtain rfl := AuthNext.await.inj h_await
      exact Origins.raise_self_le _ _ _
  · next h_any =>
    have h_after : g.afterAuth (some (.savingReset u)) o =
        { g with
          sweptSessions := Origins.raise g.sweptSessions u (g.number t)
          sweptRows := Origins.raise g.sweptRows u (g.number t) } := by
      simp only [Origins.afterAuth, h_next, h_task]
    rw [h_after, if_neg h_any]
    refine h_swept _ _ rfl (fun k session h_k => ⟨h_k, ?_⟩) (Origins.le_raise _ u · _)
      (fun v => ?_) fun task h_await => ?_
    · have h_mem : session ∈ a.store.sessions.values := Table.get?_of_mem_values.mpr ⟨k, h_k⟩
      simp only [List.any_eq_true, not_exists, not_and, decide_eq_true_eq] at h_any
      exact h_any session h_mem
    · refine Origins.raise_le ((hi.rows v).trans (Origins.le_raise _ u v _)) fun h_v => ?_
      subst h_v
      exact Origins.raise_self_le _ _ _
    · obtain rfl := AuthNext.await.inj h_await
      exact Origins.raise_self_le _ _ _

/-- A method that resumes keeps the invariant. -/
theorem SessionsInv.resumed {a : AuthState} {g : Origins} {t : ℕ} {r : Resumption}
    {task : AuthTask} {o : AuthOut} {seg : Auth.Segment} (hi : SessionsInv env a g)
    (h_get : a.tasks.get? t = some task) (h_task : o.task = t)
    (h_seg : seg = AuthState.resumed env.toAuthEnv a.store r task) (h_next : o.next = seg.next)
    (h_logins : r.error = none → ∀ u, task = .savingReset u → ∀ t' attempt,
      a.tasks.get? t' = some (.verifying attempt) → attempt.userId = some u →
        env.verify attempt.password attempt.hash = true → g.number t ≤ g.login t') :
    SessionsInv env (a.after (.resume t r) t seg) (g.afterAuth (some task) o) := by
  have h_inv := hi.task t task h_get
  have h_shape : AuthShape env.toAuthEnv a (.resume t r) t seg :=
    h_seg ▸ AuthState.resumed_shape r h_get
  have h_same : StoreShrinks a.store seg.store →
      (∀ task', seg.next = .await task' → TaskInv env g t task') →
      SessionsInv env (a.after (.resume t r) t seg) g := fun h h_await =>
    hi.of_shrinks h rfl rfl rfl rfl (fun _ => Nat.le_refl _) (fun _ _ => ⟨rfl, rfl⟩) h_await
  cases h_error : r.error with
  | some message =>
    have h_fail : seg = a.store.fail message := by
      rw [h_seg, AuthState.resumed, h_error]
    subst h_fail
    have h_after : g.afterAuth (some task) o = g := by
      simp only [Origins.afterAuth, h_next, AuthStore.fail]
    rw [h_after]
    exact h_same (.of_eq rfl rfl) (by simp [AuthStore.fail])
  | none =>
    have h_cont : seg = AuthState.continuation env.toAuthEnv a.store r task := by
      rw [h_seg, AuthState.resumed, h_error]
    subst h_cont
    cases task with
    | hashingAccount => exact h_inv.elim
    | savingAccount => exact h_inv.elim
    | verifying attempt => exact hi.verified h_get h_task h_next
    | openingSession token userId =>
      have h_after : g.afterAuth (some (.openingSession token userId)) o = g := by
        simp only [Origins.afterAuth]
      rw [h_after]
      exact h_same (.of_eq rfl rfl) (by simp [AuthState.continuation])
    | hashingPassword u =>
      have h_after : g.afterAuth (some (.hashingPassword u)) o = g := by
        simp only [Origins.afterAuth]
      rw [h_after]
      refine h_same (.of_shape h_shape fun r' h_r task h_t => ?_) fun task' h_await => ?_
      · obtain rfl := Option.some.inj (h_t.symm.trans h_get)
        exact ⟨by simp, by simp, by simp⟩
      · obtain rfl := AuthNext.await.inj h_await
        exact h_inv
    | savingReset u => exact hi.sweeps h_get h_task h_next (h_logins h_error u rfl)
    | sweepingSessions u =>
      have h_after : g.afterAuth (some (.sweepingSessions u)) o =
          { g with sweptRows := Origins.raise g.sweptRows u (g.number t) } := by
        simp only [Origins.afterAuth, h_next, AuthState.continuation, h_task]
      rw [h_after]
      refine ⟨fun v => (hi.completed v).trans (Origins.le_raise _ u v _), fun v => ?_, hi.sessions,
        fun t' task' h_t' => ?_, hi.key, hi.session⟩
      · exact Origins.raise_le (hi.rows v) fun h_v => h_v ▸ h_inv
      · rcases AuthState.get?_after h_t' with ⟨-, h_t'⟩ | ⟨rfl, h_await⟩
        · have h_old := hi.task t' task' h_t'
          refine h_old.mono (fun _ => Nat.le_refl _) (fun _ => Nat.le_refl _)
            (Origins.le_raise _ u · _) rfl fun attempt v h_eq h_v h_ok => ?_
          subst h_eq
          exact h_old v h_v h_ok
        · obtain rfl := AuthNext.await.inj h_await
          exact Origins.raise_self_le _ _ _
    | notifying u =>
      have h_after : g.afterAuth (some (.notifying u)) o =
          { g with completed := Origins.raise g.completed u (g.number t) } := by
        simp only [Origins.afterAuth, h_next, AuthState.continuation, h_task]
      rw [h_after]
      refine ⟨fun v => ?_, hi.rows, hi.sessions, fun t' task' h_t' => ?_, hi.key, hi.session⟩
      · exact Origins.raise_le (hi.completed v) fun h_v => h_v ▸ h_inv
      · rcases AuthState.get?_after h_t' with ⟨-, h_t'⟩ | ⟨-, h_await⟩
        · exact (hi.task t' task' h_t').mono (fun _ => Nat.le_refl _) (fun _ => Nat.le_refl _)
            (fun _ => Nat.le_refl _) rfl fun attempt v h_eq h_v h_ok =>
              hi.task t' task' h_t' |> fun h_old => by subst h_eq; exact h_old v h_v h_ok
        · exact absurd h_await (by simp [AuthState.continuation])
    | saving =>
      have h_after : g.afterAuth (some .saving) o = g := by simp only [Origins.afterAuth]
      rw [h_after]
      exact h_same (.of_eq rfl rfl) (by simp [AuthState.continuation])

/-- **Steps of the account store** keep the invariant, when a reset that sweeps the
sessions finds no older login of its account about to succeed. -/
theorem SessionsInv.step {a a' : AuthState} {g : Origins} {l : AuthLabel} {o : AuthOut}
    (hi : SessionsInv env a g) (hs : a.step env.toAuthEnv l = some (a', o))
    (h_creates : createsAccount l = false)
    (h_logins : ∀ t r u, l = .resume t r → r.error = none →
      a.tasks.get? t = some (.savingReset u) → ∀ t' attempt,
        a.tasks.get? t' = some (.verifying attempt) → attempt.userId = some u →
          env.verify attempt.password attempt.hash = true → g.number t ≤ g.login t') :
    SessionsInv env a' (g.afterAuth (before a l) o) := by
  have h_machine : (authMachine env.toAuthEnv a.store).step a l = some (a', o) := hs
  obtain ⟨seg, -, h_segment, rfl, -, h_next, h_shape⟩ := AuthState.segment_shape h_machine
  cases l with
  | call op =>
    obtain ⟨-, rfl⟩ := Prod.mk.inj (Option.some.inj h_segment)
    exact hi.call h_creates rfl h_next h_shape
  | resume t r =>
    obtain ⟨task, h_get, h_pair⟩ := Option.map_eq_some_iff.mp h_segment
    obtain ⟨h_task, rfl⟩ := Prod.mk.inj h_pair
    rw [← h_task]
    simp only [before, h_get]
    refine hi.resumed h_get h_task.symm rfl h_next fun h_error u h_eq => ?_
    exact h_logins t r u rfl h_error (h_eq ▸ h_get)

/-- The invariant reads the counters and the origins of logins and sessions only. -/
theorem SessionsInv.congr {a : AuthState} {g g' : Origins} (hi : SessionsInv env a g)
    (h_resets : g'.resets = g.resets) (h_number : g'.number = g.number)
    (h_login : g'.login = g.login) (h_session : g'.session = g.session)
    (h_sessions : g'.sweptSessions = g.sweptSessions) (h_rows : g'.sweptRows = g.sweptRows)
    (h_completed : g'.completed = g.completed) : SessionsInv env a g' where
  completed := h_completed ▸ h_rows ▸ hi.completed
  rows := h_rows ▸ h_sessions ▸ hi.rows
  sessions := h_sessions ▸ h_resets ▸ hi.sessions
  task t task h := by
    refine (hi.task t task h).mono (fun u => (congrFun h_resets u).ge)
      (fun u => (congrFun h_sessions u).ge) (fun u => (congrFun h_rows u).ge)
      (congrFun h_number t) fun attempt u h_eq h_u h_ok => ?_
    subst h_eq
    rw [h_sessions, h_login]
    exact hi.task t _ h u h_u h_ok
  key := hi.key
  session := h_sessions ▸ h_session ▸ hi.session

end ServerCentral.Oidc
