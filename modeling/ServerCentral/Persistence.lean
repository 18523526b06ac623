import ServerCentral.Framework.WriteBehind
import ServerCentral.Auth.Steps
import ServerCentral.Oidc.Refresh

/-!
# What the files hold

`AuthStore` and `RefreshTokenStore` change memory first and then call `writeJson`, which
makes the directory, takes the snapshot, and replaces the file through
`writeFileAtomic`. Nothing orders the writes of one file. `authFiles` and `refreshFiles`
are the two stores with their files.

`settled_files_current`: when no rename puts an older snapshot over a newer one, a file
without outstanding writes is what the memory says. Every method that changes memory
also starts a write (`auth_dirty`, `refresh_dirty`). The condition is needed: the write
of an earlier `authenticate` that is renamed after the one of a `logout` brings the
session back (`logout_undone`).
-/

open Framework

namespace ServerCentral

/-! ### The account store -/

namespace Auth

/-- The content of one of the two files, as `readJson` reads it back. -/
inductive AuthImage where
  | users (users : Table String UserRecord)
  | sessions (sessions : Table String SessionRecord)

def authImage (s : AuthState) : AuthFile → AuthImage
  | .users => .users s.store.users
  | .sessions => .sessions s.store.sessions

variable {env : AuthEnv} {s₀ : AuthStore}

/-- A method that changes the accounts or the sessions writes their file. -/
theorem auth_dirty (s : AuthState) (l : AuthLabel) (s' : AuthState) (o : AuthOut) (f : AuthFile)
    (hs : (authMachine env s₀).step s l = some (s', o)) (h : authImage s' f ≠ authImage s f) :
    f ∈ o.writes := by
  obtain ⟨seg, -, -, rfl, h_writes, -, h_shape⟩ := AuthState.segment_shape hs
  rw [h_writes]
  have h_image : ∀ f, authImage (s.after l o.task seg) f =
      match f with
      | .users => .users seg.store.users
      | .sessions => .sessions seg.store.sessions := by
    intro f
    cases f <;> rfl
  rw [h_image] at h
  cases h_shape with
  | keeps h_users h_sessions _ => cases f <;> simp [authImage, h_users, h_sessions] at h
  | opens r task userId seg h_task h_ok h_from h_users h_defaults h_sessions h_writes' h_next =>
    cases f with
    | users => simp [authImage, h_users] at h
    | sessions => simp [h_writes']
  | defaults => cases f <;> simp [authImage] at h
  | edits => cases f <;> simp [authImage] at h ⊢
  | emails => cases f <;> simp [authImage] at h ⊢
  | deletes => cases f <;> simp [authImage] at h ⊢
  | inserts => cases f <;> simp [authImage, AuthStore.insertUser] at h ⊢
  | drops => cases f <;> simp [authImage] at h ⊢
  | touches => cases f <;> simp [authImage] at h ⊢

/-- The account store with its files. -/
def authFiles (env : AuthEnv) (s₀ : AuthStore) :
    Machine (WriteBehind AuthState AuthFile AuthImage) (WriteLabel AuthLabel) (Option AuthOut) :=
  writeBehind (authMachine env s₀) AuthOut.writes authImage

end Auth

/-! ### The refresh-token store -/

namespace Oidc

variable {digest : String → String}

/-- A revocation that does not persist has changed nothing. -/
theorem RefreshTokenStore.revokeWhere_of_not_persists {s : RefreshTokenStore}
    {p : RefreshRecord → Bool} (h : (s.revokeWhere p).persists = false) :
    (s.revokeWhere p).store = s := by
  have h_none : ∀ rec ∈ s.tokens.values, (!p rec) = true := by
    simpa [revokeWhere] using h
  rw [revokeWhere, Table.filter_eq_self h_none]

theorem RefreshTokenStore.rotate_of_not_persists {s : RefreshTokenStore} {token next : String}
    {checkedAt usedAt cutoffAt issuedAt : ℕ}
    (h : (s.rotate digest token next checkedAt usedAt cutoffAt issuedAt).persists = false) :
    (s.rotate digest token next checkedAt usedAt cutoffAt issuedAt).store = s := by
  cases h_get : s.tokens.get? (digest token) with
  | none => simp [rotate, h_get]
  | some rec =>
    cases h_used : rec.usedAt with
    | some t =>
      simp only [rotate, h_get, h_used, Option.isSome_some, if_true] at h ⊢
      exact revokeWhere_of_not_persists h
    | none =>
      by_cases h_exp : rec.expiresAt < checkedAt <;> simp [rotate, h_get, h_used, h_exp] at h

theorem RefreshTokenStore.revoke_of_not_persists {s : RefreshTokenStore} {token : String}
    (h : (s.revoke digest token).persists = false) : (s.revoke digest token).store = s := by
  cases h_get : s.tokens.get? (digest token) with
  | none => simp [revoke, h_get]
  | some rec =>
    simp only [revoke, h_get] at h ⊢
    exact revokeWhere_of_not_persists h

/-- The calls of the refresh-token store, each with the writes it starts: one when it goes
on to await `persist`. -/
def refreshCalls (digest : String → String) :
    Machine RefreshState RefreshOp (RefreshEvent × List Unit) where
  init := .initial
  step s op := ((refreshMachine digest).step s op).map fun (s', e) =>
    (s', e, if s.persisting.length < s'.persisting.length then [()] else [])

def refreshImage (s : RefreshState) (_ : Unit) : Table String RefreshRecord := s.store.tokens

/-- A call whose result does not wait for `persist` has not changed the rows. -/
theorem commit_dirty {α : Type} (s : RefreshState) (op : RefreshOp) (c : RefreshCall α)
    (result : α → RefreshResult) (h_same : c.persists = false → c.store = s.store)
    (h : (s.commit digest op c result).1.store ≠ s.store) :
    s.persisting.length < (s.commit digest op c result).1.persisting.length := by
  cases h_p : c.persists with
  | false => exact absurd (h_same h_p) h
  | true => simp [RefreshState.commit, h_p]

/-- A method that changes the rows writes the file. -/
theorem refresh_dirty (s : RefreshState) (op : RefreshOp) (s' : RefreshState)
    (o : RefreshEvent × List Unit) (f : Unit)
    (hs : (refreshCalls digest).step s op = some (s', o))
    (h : refreshImage s' f ≠ refreshImage s f) : f ∈ o.2 := by
  obtain ⟨⟨s₁, e⟩, h_step, h_eq⟩ := Option.map_eq_some_iff.mp hs
  obtain ⟨rfl, rfl⟩ := Prod.mk.inj h_eq
  have h_store : s₁.store ≠ s.store := fun h_same => h (congrArg RefreshTokenStore.tokens h_same)
  suffices h_lt : s.persisting.length < s₁.persisting.length by simp [h_lt]
  simp only [refreshMachine] at h_step
  split at h_step
  case isFalse => exact absurd h_step (by simp)
  case isTrue h_fresh =>
  have h_commit : ∀ {α : Type} (c : RefreshCall α) (result : α → RefreshResult),
      (c.persists = false → c.store = s.store) →
      s.commit digest op c result = (s₁, e) → s.persisting.length < s₁.persisting.length := by
    intro α c result h_same h_eq
    have h_fst : (s.commit digest op c result).1 = s₁ := congrArg Prod.fst h_eq
    rw [← h_fst] at h_store ⊢
    exact commit_dirty s op c result h_same h_store
  cases op with
  | issue params familyId token cutoffAt issuedAt =>
    exact h_commit _ _ (by simp [RefreshTokenStore.issue]) (Option.some.inj h_step)
  | rotate token next checkedAt usedAt cutoffAt issuedAt =>
    exact h_commit _ _ RefreshTokenStore.rotate_of_not_persists (Option.some.inj h_step)
  | revoke token =>
    exact h_commit _ _ RefreshTokenStore.revoke_of_not_persists (Option.some.inj h_step)
  | revokeFamily familyId =>
    exact h_commit _ _ RefreshTokenStore.revokeWhere_of_not_persists (Option.some.inj h_step)
  | revokeForUser userId =>
    exact h_commit _ _ RefreshTokenStore.revokeWhere_of_not_persists (Option.some.inj h_step)
  | revokeForClient clientId =>
    exact h_commit _ _ RefreshTokenStore.revokeWhere_of_not_persists (Option.some.inj h_step)
  | pruneExpired now =>
    exact h_commit _ _ RefreshTokenStore.revokeWhere_of_not_persists (Option.some.inj h_step)
  | written i =>
    obtain ⟨result, -, h_pair⟩ := Option.map_eq_some_iff.mp h_step
    obtain ⟨rfl, -⟩ := Prod.mk.inj h_pair
    exact absurd rfl h_store

/-- The refresh-token store with its file. -/
def refreshFiles (digest : String → String) :
    Machine (WriteBehind RefreshState Unit (Table String RefreshRecord)) (WriteLabel RefreshOp)
      (Option (RefreshEvent × List Unit)) :=
  writeBehind (refreshCalls digest) Prod.snd refreshImage

end Oidc

/-! ### Disk and memory -/

/-- **Settled files are current.** Along every run of either store in which no rename puts
an older snapshot over a newer one, a file without outstanding writes holds what is in
memory. -/
theorem settled_files_current (env : Auth.AuthEnv) (s₀ : Auth.AuthStore)
    (digest : String → String) :
    (∀ tr s f, (Auth.authFiles env s₀).RunWhen WriteBehind.InOrder tr s → s.Settled f →
      s.disk f = Auth.authImage s.memory f) ∧
    (∀ tr s f, (Oidc.refreshFiles digest).RunWhen WriteBehind.InOrder tr s → s.Settled f →
      s.disk f = Oidc.refreshImage s.memory f) :=
  ⟨fun _ _ _ h h_settled => WriteBehind.disk_eq_image Auth.auth_dirty h h_settled,
    fun _ _ _ h h_settled => WriteBehind.disk_eq_image Oidc.refresh_dirty h h_settled⟩

/-! ### A write renamed too late -/

section Runs

open Auth

def anyEnv : AuthEnv := ⟨id, fun _ _ => true, fun _ => false⟩

/-- One account with one session. -/
def oneSession : AuthStore where
  users := .set .empty "a" ⟨"a", "ann", "hash", false, some [], 0, none, none, none⟩
  sessions := .set .empty "t" ⟨"s", "a", 0, 0, none, none⟩
  defaults := ⟨none, none, none, none⟩
  dummyHash := "dummy"
  loginFailures := .empty

/-- A logout, written to the end. -/
def logoutWritten : List (WriteLabel AuthLabel) :=
  [.run (.call (.logout (some "t"))), .made 0, .written 0, .renamed 0]

/-- An `authenticate` takes its snapshot, a `logout` is written to the end, and only then
the snapshot of the `authenticate` is renamed. -/
def lateRename : List (WriteLabel AuthLabel) :=
  [.run (.call (.authenticate (some "t") 1 1)), .made 0, .run (.call (.logout (some "t"))),
    .made 1, .written 1, .renamed 1, .written 0, .renamed 0]

theorem settled_files_current_logout : ∃ tr s,
    (authFiles anyEnv oneSession).exec (authFiles anyEnv oneSession).init logoutWritten =
      some (tr, s) ∧ s.jobs = [] ∧ s.disk .sessions = authImage s.memory .sessions :=
  ⟨_, _, rfl, rfl, (settled_files_current anyEnv oneSession id).1 _ _ .sessions
    (Machine.runWhen_of_exec logoutWritten rfl (by decide)) (.of_nil rfl _)⟩

/-- After both writes are done the session is gone from memory and back on disk. -/
theorem logout_undone : ∃ tr s, (authFiles anyEnv oneSession).Run tr s ∧ s.jobs = [] ∧
    (∃ sessions session, s.disk .sessions = .sessions sessions ∧
      sessions.get? "t" = some session) ∧
    s.memory.store.sessions.get? "t" = none :=
  ⟨_, _, Machine.run_of_exec lateRename rfl, rfl, ⟨_, _, rfl, rfl⟩, rfl⟩

end Runs

end ServerCentral
