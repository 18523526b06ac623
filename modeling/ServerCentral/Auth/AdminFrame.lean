import ServerCentral.Auth.Machine
import ServerCentral.Auth.Roles

/-!
# The frame of the administration calls

`setUserRoles`, `setPermissions`, `setSystemUser`, `setEmail` and `adminSetPassword` take
the id of an account from the request and read `this.users[userId]`, a plain object. An id
that every object inherits is found there, and a write through `__proto__` reaches every
account without a field of its own, present or to come.

`AdminFrame` is what such a call may do, over its first segment and over every segment that
follows it, on whatever store the other calls have left by then. `admin_frame` says for
which ids it holds.
-/

open Framework

namespace ServerCentral.Auth

/-- The administration calls, up to the id of the account. -/
inductive AdminOp where
  | setUserRoles (roleIds : List String)
  | setPermissions (permissions : List String)
  | setSystemUser (systemUser : Option String)
  | setEmail (email : Option String)
  | adminSetPassword (password : String)
  deriving DecidableEq, Repr

/-- The call for an account. -/
def AdminOp.on (userId : String) : AdminOp → AuthOp
  | .setUserRoles roleIds => .setUserRoles userId roleIds
  | .setPermissions permissions => .setPermissions userId permissions
  | .setSystemUser systemUser => .setSystemUser userId systemUser
  | .setEmail email => .setEmail userId email
  | .adminSetPassword password => .adminSetPassword userId password

/-- Another store, as the accounts other than `userId` see it. -/
structure Frame (userId : String) (s s' : AuthStore) : Prop where
  accounts : ∀ k, k ≠ userId → s'.users.get? k = s.users.get? k
  /-- Any record reads the same, also one that is stored later. -/
  views : ∀ roles rec, s'.toAuthUser roles rec = s.toAuthUser roles rec
  sessions : ∀ token session, session.userId ≠ userId →
    (s'.sessions.get? token = some session ↔ s.sessions.get? token = some session)
  logins : s'.loginFailures = s.loginFailures ∧ s'.dummyHash = s.dummyHash

/-- The tasks a call may get to, whatever the store is when it goes on. -/
inductive Follows (env : AuthEnv) (first : AuthNext) : AuthTask → Prop
  | first {task : AuthTask} (h : first = .await task) : Follows env first task
  | next {task task' : AuthTask} (h : Follows env first task) (s : AuthStore) (r : Resumption)
      (h_next : (AuthState.resumed env s r task).next = .await task') : Follows env first task'

/-- **What an administration call may do.** -/
structure AdminFrame (env : AuthEnv) (s : AuthStore) (userId : String) (op : AdminOp) : Prop where
  /-- Without the account, the call fails and changes nothing. -/
  unknown : s.users.get? userId = none →
    AuthState.call env s (op.on userId) = s.fail "User not found"
  call : ∀ rec, s.users.get? userId = some rec →
    Frame userId s (AuthState.call env s (op.on userId)).store
  resumed : ∀ rec, s.users.get? userId = some rec → ∀ task,
    Follows env (AuthState.call env s (op.on userId)).next task →
      ∀ later r, Frame userId later (AuthState.resumed env later r task).store

variable {env : AuthEnv} {s : AuthStore} {userId : String}

/-- A text that begins otherwise. -/
theorem append_ne_of_start {start text rest : String} (h : ¬ start.toList <+: text.toList) :
    start ++ rest ≠ text := by
  rintro rfl
  exact h ⟨rest.toList, (String.toList_append ..).symm⟩

/-! ### Frames -/

namespace Frame

theorem refl (userId : String) (s : AuthStore) : Frame userId s s :=
  ⟨fun _ _ => rfl, fun _ _ => rfl, fun _ _ _ => Iff.rfl, rfl, rfl⟩

/-- A change of the account itself. -/
theorem modify (userId : String) (s : AuthStore) (change : UserRecord → UserRecord) :
    Frame userId s { s with users := s.users.modify userId change } := by
  refine ⟨fun k h_k => ?_, fun _ _ => rfl, fun _ _ _ => Iff.rfl, rfl, rfl⟩
  show (s.users.modify userId change).get? k = s.users.get? k
  rw [Table.get?_modify]
  simp only [h_k, if_false, Option.map_id']

/-- The account loses its sessions. -/
theorem deleteSessionsForUser (userId : String) (s : AuthStore) :
    Frame userId s (s.deleteSessionsForUser userId).store := by
  unfold AuthStore.deleteSessionsForUser
  split
  · refine ⟨fun _ _ => rfl, fun _ _ => rfl, fun token session h_other => ?_, rfl, rfl⟩
    show (s.sessions.filter _).get? token = some session ↔ _
    rw [Table.get?_filter]
    simp [h_other]
  · exact refl userId s

theorem setFields {rec : UserRecord} (h : s.users.get? userId = some rec)
    (change : UserRecord → UserRecord) (changeDefaults : UserDefaults → UserDefaults) :
    Frame userId s (s.setFields userId change changeDefaults).store := by
  rw [AuthStore.setFields, lookup_own h]
  exact modify userId s change

end Frame

/-! ### What the calls do -/

/-- A first segment that has found something under the id. -/
inductive AdminShape (s : AuthStore) (userId : String) : Segment → Prop
  | refuses (message : String) (h : message ≠ "User not found") :
      AdminShape s userId (s.fail message)
  | sets (change : UserRecord → UserRecord) (changeDefaults : UserDefaults → UserDefaults) :
      AdminShape s userId (s.setFields userId change changeDefaults)
  | hashes : AdminShape s userId ⟨s, [], .await (.hashingPassword userId)⟩

theorem knownRoleIds_error {ids : List String} {message : String}
    (h : AuthStore.knownRoleIds env ids = .error message) : message ≠ "User not found" := by
  unfold AuthStore.knownRoleIds at h
  split at h
  · rw [← Except.error.inj h]
    exact append_ne_of_start (by decide)
  · cases h

theorem cleanPermissions_error {permissions : List String} {message : String}
    (h : AuthStore.cleanPermissions permissions = .error message) :
    message ≠ "User not found" := by
  unfold AuthStore.cleanPermissions at h
  dsimp only at h
  split at h
  · rw [← Except.error.inj h]
    exact append_ne_of_start (by decide)
  · cases h

theorem assertEmailAvailable_error {email : String} {except : Option String} {message : String}
    (h : s.assertEmailAvailable email except = some message) : message ≠ "User not found" := by
  unfold AuthStore.assertEmailAvailable at h
  split at h
  · rw [← Option.some.inj h]
    exact append_ne_of_start (by decide)
  · split at h
    · rw [← Option.some.inj h]
      decide
    · cases h

/-- **First segments** of the administration calls. -/
theorem adminShape (op : AdminOp) (h : lookup s.users userId ≠ .absent) :
    AdminShape s userId (AuthState.call env s (op.on userId)) := by
  cases op with
  | setUserRoles roleIds =>
    show AdminShape s userId (s.setUserRoles env userId roleIds)
    unfold AuthStore.setUserRoles
    split
    · next h_absent => exact absurd h_absent h
    · split
      · exact .refuses _ (by decide)
      · split
        · next h_error => exact .refuses _ (knownRoleIds_error h_error)
        · exact .sets _ _
  | setPermissions permissions =>
    show AdminShape s userId (s.setPermissions userId permissions)
    unfold AuthStore.setPermissions
    split
    · next h_absent => exact absurd h_absent h
    · split
      · next h_error => exact .refuses _ (cleanPermissions_error h_error)
      · exact .sets _ _
  | setSystemUser systemUser =>
    show AdminShape s userId (s.setSystemUser userId systemUser)
    unfold AuthStore.setSystemUser
    split
    · next h_absent => exact absurd h_absent h
    · dsimp only
      split
      · exact .refuses _ (append_ne_of_start (by decide))
      · exact .sets _ _
  | setEmail email =>
    show AdminShape s userId (s.setEmail env userId email)
    unfold AuthStore.setEmail
    split
    · next h_absent => exact absurd h_absent h
    · dsimp only
      split
      · next h_error =>
        obtain ⟨e, -, h_taken⟩ := Option.bind_eq_some_iff.mp h_error
        exact .refuses _ (assertEmailAvailable_error h_taken)
      · exact .sets _ _
  | adminSetPassword password =>
    show AdminShape s userId (s.adminSetPassword userId password)
    unfold AuthStore.adminSetPassword
    split
    · next h_absent => exact absurd h_absent h
    · split
      · exact .refuses _ (by decide)
      · exact .hashes

/-- Without the account under an own name, every call fails at its first check. -/
theorem call_absent (op : AdminOp) (h : lookup s.users userId = .absent) :
    AuthState.call env s (op.on userId) = s.fail "User not found" := by
  cases op with
  | setUserRoles roleIds =>
    show s.setUserRoles env userId roleIds = _
    rw [AuthStore.setUserRoles, h]
  | setPermissions permissions =>
    show s.setPermissions userId permissions = _
    rw [AuthStore.setPermissions, h]
  | setSystemUser systemUser =>
    show s.setSystemUser userId systemUser = _
    rw [AuthStore.setSystemUser, h]
  | setEmail email =>
    show s.setEmail env userId email = _
    rw [AuthStore.setEmail, h]
  | adminSetPassword password =>
    show s.adminSetPassword userId password = _
    rw [AuthStore.adminSetPassword, h]

namespace AdminShape

variable {seg : Segment}

theorem frame {rec : UserRecord} (h_seg : AdminShape s userId seg)
    (h : s.users.get? userId = some rec) : Frame userId s seg.store := by
  cases h_seg with
  | refuses message h_message => exact .refl userId s
  | sets change changeDefaults => exact .setFields h change changeDefaults
  | hashes => exact .refl userId s

/-- An inherited name is not reported as unknown. -/
theorem not_unknown (h_seg : AdminShape s userId seg)
    (h : lookup s.users userId = .inherited) : seg.next ≠ .throw "User not found" := by
  cases h_seg with
  | refuses message h_message =>
    intro h_throw
    exact h_message (AuthNext.throw.inj h_throw)
  | sets change changeDefaults =>
    rw [AuthStore.setFields, h]
    exact nofun
  | hashes => exact nofun

end AdminShape

/-! ### The segments that follow -/

/-- The tasks of an administration call. -/
inductive AdminTask (userId : String) : AuthTask → Prop
  | hashing : AdminTask userId (.hashingPassword userId)
  | savingReset : AdminTask userId (.savingReset userId)
  | sweeping : AdminTask userId (.sweepingSessions userId)
  | notifying : AdminTask userId (.notifying userId)
  | saving : AdminTask userId .saving

theorem AdminShape.task {seg : Segment} (h_seg : AdminShape s userId seg) {task : AuthTask}
    (h : seg.next = .await task) : AdminTask userId task := by
  cases h_seg with
  | refuses message h_message => cases h
  | sets change changeDefaults =>
    unfold AuthStore.setFields at h
    split at h
    · cases h
    · obtain rfl := AuthNext.await.inj h
      exact .saving
    · obtain rfl := AuthNext.await.inj h
      exact .saving
  | hashes =>
    obtain rfl := AuthNext.await.inj h
    exact .hashing

namespace AdminTask

variable {task : AuthTask}

theorem frame (h : AdminTask userId task) (later : AuthStore) (r : Resumption) :
    Frame userId later (AuthState.resumed env later r task).store := by
  unfold AuthState.resumed
  split
  · exact .refl userId later
  · cases h with
    | hashing => exact .modify userId later _
    | savingReset => exact .deleteSessionsForUser userId later
    | sweeping => exact .refl userId later
    | notifying => exact .refl userId later
    | saving => exact .refl userId later

theorem next (h : AdminTask userId task) {later : AuthStore} {r : Resumption}
    {task' : AuthTask} (h_next : (AuthState.resumed env later r task).next = .await task') :
    AdminTask userId task' := by
  unfold AuthState.resumed at h_next
  split at h_next
  · cases h_next
  · cases h with
    | hashing =>
      obtain rfl := AuthNext.await.inj h_next
      exact .savingReset
    | savingReset =>
      unfold AuthState.continuation AuthStore.deleteSessionsForUser at h_next
      dsimp only at h_next
      split at h_next
      · obtain rfl := AuthNext.await.inj h_next
        exact .sweeping
      · obtain rfl := AuthNext.await.inj h_next
        exact .notifying
    | sweeping =>
      obtain rfl := AuthNext.await.inj h_next
      exact .notifying
    | notifying => cases h_next
    | saving => cases h_next

/-- A call that begins with such a task stays with them. -/
theorem of_follows {first : AuthNext}
    (h_first : ∀ task, first = .await task → AdminTask userId task) (h : Follows env first task) : AdminTask userId task := by
  induction h with
  | first h => exact h_first _ h
  | next _ later r h_next ih => exact ih.next h_next

end AdminTask

/-- Two accounts, neither with grants. -/
def twoAccounts : AuthStore where
  users := (Table.empty.set "1" ⟨"1", "ada", "h1", true, some [], 0, none, none, none⟩).set "2"
    ⟨"2", "bob", "h2", false, some [], 0, none, none, none⟩
  sessions := .empty
  defaults := ⟨none, none, none, none⟩
  dummyHash := ""
  loginFailures := .empty

end ServerCentral.Auth
