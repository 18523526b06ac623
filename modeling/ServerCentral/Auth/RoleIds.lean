import ServerCentral.Auth.Machine
import ServerCentral.Auth.Roles

/-!
# Role ids that are names of roles

`knownRoleIds` asks whether `this.roles[id]` is truthy, and `this.users[userId]` is not
checked at all for being a record. Both are true of the names every object inherits, so
that a call that passes such a name stores a role id that is no role, or writes the
grants of all accounts at once.

`OwnNames` are the calls that pass none, and `RoleIdsInv` is what then holds of the
accounts, of the inherited defaults and of the accounts that are being created.
-/

open Framework

namespace ServerCentral.Auth

/-- Role ids none of which an object inherits. -/
def OwnIds (ids : List String) : Prop := ∀ id ∈ ids, id ∉ inheritedNames

instance (ids : List String) : Decidable (OwnIds ids) := by
  unfold OwnIds
  infer_instance

/-- A call that passes no inherited name where a role is named, and not `__proto__` where
the grants of an account are written. -/
def AuthOp.OwnNames : AuthOp → Prop
  | .addUser _ _ _ roleIds _ => OwnIds roleIds
  | .setUserRoles userId roleIds => userId ≠ "__proto__" ∧ OwnIds roleIds
  | .setPermissions userId _ => userId ≠ "__proto__"
  | _ => True

def AuthLabel.OwnNames : AuthLabel → Prop
  | .call op => op.OwnNames
  | .resume _ _ => True

instance (op : AuthOp) : Decidable op.OwnNames := by
  unfold AuthOp.OwnNames
  cases op <;> infer_instance

instance (l : AuthLabel) : Decidable l.OwnNames := by
  unfold AuthLabel.OwnNames
  cases l <;> infer_instance

/-- The accounts hold ids of roles only, and inherit no roles and no grants. -/
structure OwnRoleIds (s : AuthStore) : Prop where
  users : ∀ k rec, s.users.get? k = some rec → OwnIds (rec.roleIds.getD [])
  roles_default : s.defaults.roleIds = none
  grants_default : s.defaults.extraPermissions = none

/-- An account that is being created gets ids of roles only. -/
def AuthTask.OwnIds : AuthTask → Prop
  | .hashingAccount _ draft => Auth.OwnIds draft.roleIds
  | _ => True

def AuthNext.OwnIds : AuthNext → Prop
  | .await task => task.OwnIds
  | _ => True

/-- What a segment may leave behind. -/
structure Segment.OwnIds (seg : Segment) : Prop where
  store : OwnRoleIds seg.store
  next : seg.next.OwnIds

variable {env : AuthEnv} {s : AuthStore}

namespace OwnRoleIds

/-- A store with other sessions, attempts or addresses. -/
theorem congr {s' : AuthStore} (h : OwnRoleIds s) (h_users : s'.users = s.users)
    (h_roles : s'.defaults.roleIds = s.defaults.roleIds)
    (h_grants : s'.defaults.extraPermissions = s.defaults.extraPermissions) : OwnRoleIds s' := by
  constructor
  case users => exact h_users ▸ h.users
  case roles_default => exact h_roles.trans h.roles_default
  case grants_default => exact h_grants.trans h.grants_default

theorem keeps (h : OwnRoleIds s) {seg : Segment} (h_users : seg.store.users = s.users)
    (h_defaults : seg.store.defaults = s.defaults) (h_next : seg.next.OwnIds) : seg.OwnIds :=
  ⟨h.congr h_users (by rw [h_defaults]) (by rw [h_defaults]), h_next⟩

theorem fail (h : OwnRoleIds s) (message : String) : (s.fail message).OwnIds :=
  h.keeps rfl rfl trivial

/-- A change of one account that keeps its role ids, or sets ids of roles. -/
theorem modify (h : OwnRoleIds s) (userId : String) {change : UserRecord → UserRecord}
    (h_change : ∀ rec, OwnIds (rec.roleIds.getD []) → OwnIds ((change rec).roleIds.getD [])) :
    OwnRoleIds { s with users := s.users.modify userId change } := by
  constructor
  case users =>
    intro k rec h_get
    have h_get : (s.users.modify userId change).get? k = some rec := h_get
    rw [Table.get?_modify] at h_get
    obtain ⟨rec₀, h_rec₀, h_eq⟩ := Option.map_eq_some_iff.mp h_get
    rw [← h_eq]
    split
    · exact h_change rec₀ (h.users k rec₀ h_rec₀)
    · exact h.users k rec₀ h_rec₀
  case roles_default => exact h.roles_default
  case grants_default => exact h.grants_default

theorem setFields (h : OwnRoleIds s) {userId : String} {change : UserRecord → UserRecord}
    {changeDefaults : UserDefaults → UserDefaults}
    (h_change : ∀ rec, OwnIds (rec.roleIds.getD []) → OwnIds ((change rec).roleIds.getD []))
    (h_defaults : userId = "__proto__" → ∀ d, (changeDefaults d).roleIds = d.roleIds ∧
      (changeDefaults d).extraPermissions = d.extraPermissions) :
    (s.setFields userId change changeDefaults).OwnIds := by
  unfold AuthStore.setFields
  split
  · exact h.fail _
  · exact ⟨h.modify userId h_change, trivial⟩
  · refine ⟨?_, trivial⟩
    dsimp only
    split
    case isTrue h_proto =>
      obtain ⟨h_roles, h_grants⟩ := h_defaults h_proto s.defaults
      exact h.congr rfl h_roles h_grants
    case isFalse => exact h

/-- `createUser` passes the role ids on. -/
theorem createUser_roleIds {id username password : String} {roleIds : List String}
    {isOwner : Bool} {email : Option String} {draft : AccountDraft}
    (h : s.createUser env id username password roleIds isOwner email = .ok draft) :
    draft.roleIds = roleIds := by
  unfold AuthStore.createUser at h
  dsimp only at h
  split at h
  · exact absurd h (by simp)
  split at h
  · exact absurd h (by simp)
  split at h
  · exact absurd h (by simp)
  split at h
  · rw [← Except.ok.inj h]
  · split at h
    · exact absurd h (by simp)
    · rw [← Except.ok.inj h]

theorem knownRoleIds_own {ids ids' : List String} (h : AuthStore.knownRoleIds env ids = .ok ids')
    (h_own : OwnIds ids) : OwnIds ids' := by
  unfold AuthStore.knownRoleIds at h
  split at h
  · exact absurd h (by simp)
  · obtain rfl := Except.ok.inj h
    intro id h_id
    obtain h_nil | h_mem := mem_appendDistinct.mp h_id
    · exact absurd h_nil List.not_mem_nil
    · exact h_own id h_mem

theorem insertUser (h : OwnRoleIds s) {draft : AccountDraft} (h_draft : OwnIds draft.roleIds)
    (passwordHash : String) (createdAt : ℕ) :
    OwnRoleIds (s.insertUser draft passwordHash createdAt) := by
  constructor
  case users =>
    intro k rec h_get
    obtain ⟨-, rfl⟩ | ⟨-, h_old⟩ := Table.get?_set_eq_some h_get
    · exact h_draft
    · exact h.users k rec h_old
  case roles_default => exact h.roles_default
  case grants_default => exact h.grants_default

/-- **First segments** that pass no inherited name. -/
theorem call (h : OwnRoleIds s) {op : AuthOp} (h_op : op.OwnNames) :
    (AuthState.call env s op).OwnIds := by
  cases op with
  | setupOwner id username password ip userAgent =>
    unfold AuthState.call AuthStore.setupOwner
    dsimp only
    split
    · exact h.fail _
    · split
      · exact h.fail _
      · next draft h_draft =>
        refine h.keeps rfl rfl ?_
        show OwnIds draft.roleIds
        rw [createUser_roleIds h_draft]
        exact fun id h_id => absurd h_id List.not_mem_nil
  | addUser id username password roleIds email =>
    unfold AuthState.call AuthStore.addUser
    dsimp only
    split
    · exact h.fail _
    · next roleIds' h_known =>
      split
      · exact h.fail _
      · next draft h_draft =>
        refine h.keeps rfl rfl ?_
        show OwnIds draft.roleIds
        rw [createUser_roleIds h_draft]
        exact knownRoleIds_own h_known h_op
  | deleteUser userId callerId =>
    unfold AuthState.call AuthStore.deleteUser
    dsimp only
    split
    · exact h.keeps rfl rfl trivial
    · split
      · exact h.fail _
      · split
        · exact h.fail _
        · refine ⟨⟨fun k rec h_get => ?_, h.roles_default, h.grants_default⟩, trivial⟩
          exact h.users k rec (Table.get?_erase.mp h_get).1
  | setUserRoles userId roleIds =>
    obtain ⟨h_user, h_ids⟩ := h_op
    unfold AuthState.call AuthStore.setUserRoles
    dsimp only
    split
    · exact h.fail _
    · split
      · exact h.fail _
      · split
        · exact h.fail _
        · next roleIds' h_known =>
          exact h.setFields (fun _ _ => knownRoleIds_own h_known h_ids)
            fun h_proto => absurd h_proto h_user
  | setPermissions userId permissions =>
    unfold AuthState.call AuthStore.setPermissions
    dsimp only
    split
    · exact h.fail _
    · split
      · exact h.fail _
      · exact h.setFields (fun _ h_rec => h_rec) fun h_proto => absurd h_proto h_op
  | setSystemUser userId systemUser =>
    unfold AuthState.call AuthStore.setSystemUser
    dsimp only
    split
    · exact h.fail _
    · split
      · exact h.fail _
      · exact h.setFields (fun _ h_rec => h_rec) fun _ _ => ⟨rfl, rfl⟩
  | setEmail userId email =>
    unfold AuthState.call AuthStore.setEmail
    dsimp only
    split
    · exact h.fail _
    · split
      · exact h.fail _
      · exact h.setFields (fun _ h_rec => h_rec) fun _ _ => ⟨rfl, rfl⟩
  | adminSetPassword userId password =>
    unfold AuthState.call AuthStore.adminSetPassword
    dsimp only
    split
    · exact h.fail _
    · split
      · exact h.fail _
      · exact h.keeps rfl rfl trivial
  | login username password ip userAgent now =>
    unfold AuthState.call AuthStore.login
    dsimp only
    split
    · exact h.fail _
    · exact h.keeps rfl rfl trivial
  | logout token =>
    unfold AuthState.call AuthStore.logout
    dsimp only
    split
    · exact h.keeps rfl rfl trivial
    · split
      · exact h.keeps rfl rfl trivial
      · exact h.keeps rfl rfl trivial
  | revokeSession userId sessionId currentToken =>
    unfold AuthState.call AuthStore.revokeSession
    dsimp only
    split
    · exact h.fail _
    · split
      · exact h.fail _
      · exact h.keeps rfl rfl trivial
  | authenticate token checkedAt seenAt =>
    unfold AuthState.call AuthStore.authenticate
    dsimp only
    split
    · exact h.keeps rfl rfl trivial
    · split
      · exact h.keeps rfl rfl trivial
      · split
        · exact h.keeps rfl rfl trivial
        · exact h.keeps rfl rfl trivial

/-- **Later segments.** -/
theorem resumed (h : OwnRoleIds s) (r : Resumption) {task : AuthTask} (h_task : task.OwnIds) :
    (AuthState.resumed env s r task).OwnIds := by
  unfold AuthState.resumed
  split
  · exact h.fail _
  · cases task with
    | hashingAccount kind draft => exact ⟨h.insertUser h_task _ _, trivial⟩
    | savingAccount kind userId =>
      cases kind with
      | owner ip userAgent => exact h.keeps rfl rfl trivial
      | additional => exact h.keeps rfl rfl trivial
    | verifying attempt =>
      unfold AuthState.continuation AuthStore.verified
      dsimp only
      split
      · split
        · exact h.keeps rfl rfl trivial
        · exact h.keeps rfl rfl trivial
      · exact h.keeps rfl rfl trivial
    | openingSession token userId => exact h.keeps rfl rfl trivial
    | hashingPassword userId => exact ⟨h.modify userId fun _ h_rec => h_rec, trivial⟩
    | savingReset userId =>
      unfold AuthState.continuation AuthStore.deleteSessionsForUser
      dsimp only
      split
      · exact h.keeps rfl rfl trivial
      · exact h.keeps rfl rfl trivial
    | sweepingSessions userId => exact h.keeps rfl rfl trivial
    | notifying userId => exact h.keeps rfl rfl trivial
    | saving => exact h.keeps rfl rfl trivial

end OwnRoleIds

/-- The accounts and the suspended calls hold ids of roles only. -/
structure RoleIdsInv (s : AuthState) : Prop where
  store : OwnRoleIds s.store
  tasks : ∀ t task, s.tasks.get? t = some task → task.OwnIds

/-- **Every step** that passes no inherited name keeps the invariant. -/
theorem RoleIdsInv.step {s s' : AuthState} {l : AuthLabel} {o : AuthOut} (hi : RoleIdsInv s)
    (h_l : l.OwnNames) (hs : s.step env l = some (s', o)) : RoleIdsInv s' := by
  rw [AuthState.step] at hs
  split at hs
  case isFalse => exact absurd hs (by simp)
  case isTrue =>
  obtain ⟨⟨t, seg⟩, h_seg, h_eq⟩ := Option.map_eq_some_iff.mp hs
  obtain rfl := (Prod.mk.inj h_eq).1
  have h_own : seg.OwnIds := by
    cases l with
    | call op =>
      obtain ⟨-, rfl⟩ := Prod.mk.inj (Option.some.inj h_seg)
      exact hi.store.call h_l
    | resume task r =>
      obtain ⟨t', h_task, h_pair⟩ := Option.map_eq_some_iff.mp h_seg
      obtain ⟨-, rfl⟩ := Prod.mk.inj h_pair
      exact hi.store.resumed r (hi.tasks task t' h_task)
  refine ⟨h_own.store, fun t' task h_task => ?_⟩
  obtain ⟨-, h_old⟩ | ⟨-, h_next⟩ := AuthState.get?_after h_task
  · exact hi.tasks t' task h_old
  · have h_await := h_own.next
    rw [h_next] at h_await
    exact h_await

end ServerCentral.Auth
