import ServerCentral.Auth.Machine

/-!
# The segments of the account store

What one segment can do to the accounts, the sessions and the inherited defaults, as one
inversion lemma (`AuthState.segment_shape`). Each shape names what changes and says
that the rest does not; the shapes that create an account or a session also name the
task they resume.
-/

open Framework

namespace ServerCentral.Auth

variable {env : AuthEnv}

/-- What a segment does to the store `s.store`. -/
inductive AuthShape (env : AuthEnv) (s : AuthState) : AuthLabel → ℕ → Segment → Prop
  /-- Accounts, sessions and defaults stay. -/
  | keeps {l : AuthLabel} {t : ℕ} {seg : Segment}
      (h_users : seg.store.users = s.store.users) (h_sessions : seg.store.sessions = s.store.sessions)
      (h_defaults : seg.store.defaults = s.store.defaults) : AuthShape env s l t seg
  /-- Only the inherited defaults change, and the address among them only through
  `setEmail`. -/
  | defaults {l : AuthLabel} {t : ℕ} (d : UserDefaults)
      (h_email : (∀ email, l ≠ .call (.setEmail "__proto__" email)) →
        d.email = s.store.defaults.email) :
      AuthShape env s l t ⟨{ s.store with defaults := d }, [.users], .await .saving⟩
  /-- One account changes, in a field that is not its name, flag or address. -/
  | edits {l : AuthLabel} {t : ℕ} (userId : String) (change : UserRecord → UserRecord)
      (next : AuthNext)
      (h_change : ∀ rec, (change rec).id = rec.id ∧ (change rec).username = rec.username ∧
        (change rec).isOwner = rec.isOwner ∧ (change rec).email = rec.email) :
      AuthShape env s l t
        ⟨{ s.store with users := s.store.users.modify userId change }, [.users], next⟩
  /-- One account gets or loses its address. -/
  | emails {t : ℕ} (userId : String) (email : Option String)
      (h_free : ∀ e, AuthStore.normalizeEmail env email = some e →
        s.store.assertEmailAvailable e (some userId) = none) :
      AuthShape env s (.call (.setEmail userId email)) t
        ⟨{ s.store with
            users := s.store.users.modify userId fun rec =>
              { rec with email := AuthStore.normalizeEmail env email } },
          [.users], .await .saving⟩
  /-- An account that is not the owner's goes. -/
  | deletes {t : ℕ} (userId callerId : String)
      (h_owner : ∀ rec, s.store.users.get? userId = some rec → rec.isOwner = false) :
      AuthShape env s (.call (.deleteUser userId callerId)) t
        ⟨{ s.store with users := s.store.users.erase userId }, [.users],
          .await (.savingReset userId)⟩
  /-- A `createUser` resumes from its hash. -/
  | inserts {t : ℕ} (r : Resumption) (kind : AccountKind) (draft : AccountDraft)
      (h_task : s.tasks.get? t = some (.hashingAccount kind draft)) (h_ok : r.error = none) :
      AuthShape env s (.resume t r) t ⟨s.store.insertUser draft r.passwordHash r.now, [.users],
        .await (.savingAccount kind draft.id)⟩
  /-- Sessions go. -/
  | drops {l : AuthLabel} {t : ℕ} (sessions : Table String SessionRecord) (next : AuthNext)
      (h_rows : ∀ k session, sessions.get? k = some session →
        s.store.sessions.get? k = some session) :
      AuthShape env s l t ⟨{ s.store with sessions := sessions }, [.sessions], next⟩
  /-- `setupOwner` or a verified `login` opens a session. -/
  | opens {t : ℕ} (r : Resumption) (task : AuthTask) (userId : String) (seg : Segment)
      (h_task : s.tasks.get? t = some task) (h_ok : r.error = none)
      (h_from : (∃ ip userAgent, task = .savingAccount (.owner ip userAgent) userId) ∨
        ∃ attempt, task = .verifying attempt ∧ attempt.userId = some userId ∧
          env.verify attempt.password attempt.hash = true)
      (h_users : seg.store.users = s.store.users) (h_defaults : seg.store.defaults = s.store.defaults)
      (h_sessions : ∃ session : SessionRecord, session.userId = userId ∧
        seg.store.sessions = s.store.sessions.set r.token session)
      (h_writes : seg.writes = [.sessions]) (h_next : seg.next = .await (.openingSession r.token userId)) :
      AuthShape env s (.resume t r) t seg
  /-- `authenticate` notes the time. -/
  | touches {t : ℕ} (token : String) (session : SessionRecord) (rec : UserRecord)
      (checkedAt seenAt : ℕ) (h_session : s.store.sessions.get? token = some session)
      (h_user : s.store.users.get? session.userId = some rec) :
      AuthShape env s (.call (.authenticate (some token) checkedAt seenAt)) t
        ⟨{ s.store with
            sessions := s.store.sessions.modify token fun session =>
              { session with lastSeenAt := seenAt } },
          [.sessions], .return (.identity (some (s.store.toUserInfo rec)))⟩

theorem AuthShape.fail {s : AuthState} {l : AuthLabel} {t : ℕ} (message : String) :
    AuthShape env s l t (s.store.fail message) :=
  .keeps rfl rfl rfl

/-- The field setters edit one account or the defaults. -/
theorem AuthShape.setFields {s : AuthState} {l : AuthLabel} {t : ℕ} (userId : String)
    {change : UserRecord → UserRecord} {changeDefaults : UserDefaults → UserDefaults}
    (h_change : ∀ rec, (change rec).id = rec.id ∧ (change rec).username = rec.username ∧
      (change rec).isOwner = rec.isOwner ∧ (change rec).email = rec.email)
    (h_defaults : ∀ d, (changeDefaults d).email = d.email) :
    AuthShape env s l t (s.store.setFields userId change changeDefaults) := by
  unfold AuthStore.setFields
  split
  · exact .fail _
  · exact .edits userId change _ h_change
  · split
    · exact .defaults _ fun _ => h_defaults _
    · exact .defaults s.store.defaults fun _ => rfl

theorem AuthShape.setEmail {s : AuthState} {t : ℕ} (userId : String) (email : Option String) :
    AuthShape env s (.call (.setEmail userId email)) t (s.store.setEmail env userId email) := by
  unfold AuthStore.setEmail
  split
  · exact .fail _
  · dsimp only
    split
    · exact .fail _
    · next h_free =>
      unfold AuthStore.setFields
      split
      · exact .fail _
      · refine .emails userId email fun e h_e => ?_
        simpa [h_e] using h_free
      · split
        · next h_proto => exact .defaults _ fun h_not => absurd (h_proto ▸ rfl) (h_not email)
        · exact .defaults s.store.defaults fun _ => rfl

theorem AuthShape.deleteUser {s : AuthState} {t : ℕ} (userId callerId : String) :
    AuthShape env s (.call (.deleteUser userId callerId)) t
      (s.store.deleteUser userId callerId) := by
  unfold AuthStore.deleteUser
  split
  · exact .keeps rfl rfl rfl
  · split
    · exact .fail _
    · next h_owner =>
      split
      · exact .fail _
      · refine .deletes userId callerId fun rec h_get => ?_
        simpa [lookup, h_get, Slot.isOwner] using h_owner

theorem AuthShape.authenticate {s : AuthState} {t : ℕ} (token : Option String)
    (checkedAt seenAt : ℕ) :
    AuthShape env s (.call (.authenticate token checkedAt seenAt)) t
      (s.store.authenticate token checkedAt seenAt) := by
  unfold AuthStore.authenticate
  split
  · exact .keeps rfl rfl rfl
  · next token' session h_found =>
    obtain ⟨_, h_token, h_map⟩ := Option.bind_eq_some_iff.mp h_found
    obtain ⟨_, h_session, h_pair⟩ := Option.map_eq_some_iff.mp h_map
    obtain ⟨rfl, rfl⟩ := Prod.mk.inj h_pair
    obtain rfl := (Option.filter_eq_some_iff.mp h_token).1
    split
    · exact .drops _ _ fun k session h => (Table.get?_erase.mp h).1
    · split
      · exact .keeps rfl rfl rfl
      · next rec h_user => exact .touches _ _ rec checkedAt seenAt h_session h_user

/-- **First segments.** -/
theorem AuthState.call_shape {s : AuthState} {t : ℕ} (op : AuthOp) :
    AuthShape env s (.call op) t (AuthState.call env s.store op) := by
  cases op with
  | setupOwner id username password ip userAgent =>
    unfold AuthState.call AuthStore.setupOwner
    dsimp only
    split
    · exact .fail _
    · split
      · exact .fail _
      · exact .keeps rfl rfl rfl
  | addUser id username password roleIds email =>
    unfold AuthState.call AuthStore.addUser
    dsimp only
    split
    · exact .fail _
    · split
      · exact .fail _
      · exact .keeps rfl rfl rfl
  | deleteUser userId callerId => exact .deleteUser userId callerId
  | setUserRoles userId roleIds =>
    unfold AuthState.call AuthStore.setUserRoles
    dsimp only
    split
    · exact .fail _
    · split
      · exact .fail _
      · split
        · exact .fail _
        · exact .setFields userId (fun _ => ⟨rfl, rfl, rfl, rfl⟩) fun _ => rfl
  | setPermissions userId permissions =>
    unfold AuthState.call AuthStore.setPermissions
    dsimp only
    split
    · exact .fail _
    · split
      · exact .fail _
      · exact .setFields userId (fun _ => ⟨rfl, rfl, rfl, rfl⟩) fun _ => rfl
  | setSystemUser userId systemUser =>
    unfold AuthState.call AuthStore.setSystemUser
    dsimp only
    split
    · exact .fail _
    · split
      · exact .fail _
      · exact .setFields userId (fun _ => ⟨rfl, rfl, rfl, rfl⟩) fun _ => rfl
  | setEmail userId email => exact .setEmail userId email
  | adminSetPassword userId password =>
    unfold AuthState.call AuthStore.adminSetPassword
    dsimp only
    split
    · exact .fail _
    · split
      · exact .fail _
      · exact .keeps rfl rfl rfl
  | login username password ip userAgent now =>
    unfold AuthState.call AuthStore.login
    dsimp only
    split
    · exact .fail _
    · exact .keeps rfl rfl rfl
  | logout token =>
    unfold AuthState.call AuthStore.logout
    dsimp only
    split
    · exact .keeps rfl rfl rfl
    · split
      · exact .keeps rfl rfl rfl
      · exact .drops _ _ fun k session h => (Table.get?_erase.mp h).1
  | revokeSession userId sessionId currentToken =>
    unfold AuthState.call AuthStore.revokeSession
    dsimp only
    split
    · exact .fail _
    · split
      · exact .fail _
      · exact .drops _ _ fun k session h => (Table.get?_erase.mp h).1
  | authenticate token checkedAt seenAt => exact .authenticate token checkedAt seenAt

/-- A verified login opens a session, any other one only counts the failure. -/
theorem AuthShape.verified {s : AuthState} {t : ℕ} {r : Resumption} {attempt : LoginAttempt}
    (h_task : s.tasks.get? t = some (.verifying attempt)) (h_ok : r.error = none) :
    AuthShape env s (.resume t r) t
      (s.store.verified env attempt r.token r.sessionId r.now) := by
  unfold AuthStore.verified
  split
  · next userId h_user =>
    split
    · next h_verify =>
      exact .opens r _ userId _ h_task h_ok (.inr ⟨attempt, rfl, h_user, h_verify⟩) rfl rfl
        ⟨_, rfl, rfl⟩ rfl rfl
    · exact .keeps rfl rfl rfl
  · exact .keeps rfl rfl rfl

theorem AuthShape.deleteSessionsForUser {s : AuthState} {l : AuthLabel} {t : ℕ}
    (userId : String) : AuthShape env s l t (s.store.deleteSessionsForUser userId) := by
  unfold AuthStore.deleteSessionsForUser
  split
  · exact .drops _ _ fun k session h => (Table.get?_filter.mp h).1
  · exact .keeps rfl rfl rfl

/-- **Later segments.** -/
theorem AuthState.resumed_shape {s : AuthState} {t : ℕ} {task : AuthTask} (r : Resumption)
    (h_task : s.tasks.get? t = some task) :
    AuthShape env s (.resume t r) t (AuthState.resumed env s.store r task) := by
  unfold AuthState.resumed
  split
  · exact .fail _
  · next h_ok =>
    cases task with
    | hashingAccount kind draft => exact .inserts r kind draft h_task h_ok
    | savingAccount kind userId =>
      cases kind with
      | owner ip userAgent =>
        exact .opens r _ userId _ h_task h_ok (.inl ⟨ip, userAgent, rfl⟩) rfl rfl ⟨_, rfl, rfl⟩
          rfl rfl
      | additional => exact .keeps rfl rfl rfl
    | verifying attempt => exact .verified h_task h_ok
    | openingSession token userId => exact .keeps rfl rfl rfl
    | hashingPassword userId => exact .edits userId _ _ fun _ => ⟨rfl, rfl, rfl, rfl⟩
    | savingReset userId => exact .deleteSessionsForUser userId
    | sweepingSessions userId => exact .keeps rfl rfl rfl
    | notifying userId => exact .keeps rfl rfl rfl
    | saving => exact .keeps rfl rfl rfl

/-- **Step inversion.** A step runs a segment of one of the shapes. -/
theorem AuthState.segment_shape {s₀ : AuthStore} {s s' : AuthState} {l : AuthLabel} {o : AuthOut}
    (h : (authMachine env s₀).step s l = some (s', o)) :
    ∃ seg, s.Fresh l ∧ s.segment env l = some (o.task, seg) ∧ s' = s.after l o.task seg ∧
      o.writes = seg.writes ∧ o.next = seg.next ∧ AuthShape env s l o.task seg := by
  simp only [authMachine, AuthState.step] at h
  split at h
  case isFalse => exact absurd h (by simp)
  case isTrue h_fresh =>
  obtain ⟨⟨t, seg⟩, h_seg, h_eq⟩ := Option.map_eq_some_iff.mp h
  obtain ⟨rfl, rfl⟩ := Prod.mk.inj h_eq
  refine ⟨seg, h_fresh, h_seg, rfl, rfl, rfl, ?_⟩
  cases l with
  | call op =>
    obtain ⟨rfl, rfl⟩ := Prod.mk.inj (Option.some.inj h_seg)
    exact AuthState.call_shape op
  | resume task r =>
    obtain ⟨t', h_task, h_pair⟩ := Option.map_eq_some_iff.mp h_seg
    obtain ⟨rfl, rfl⟩ := Prod.mk.inj h_pair
    exact AuthState.resumed_shape r h_task

end ServerCentral.Auth
