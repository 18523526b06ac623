import ServerCentral.Auth.GateSafety
import ServerCentral.Framework.References
import ServerCentral.Oidc.Claims

/-!
# The roles an account refers to

An account holds the ids of its roles, and the role store is edited on its own.
`RoleStore.delete` refuses while an account holds the role, and `knownRoleIds` refuses ids
that are unknown. Two ways around remain. `addUser` checks the ids before it awaits the
hash of the password and stores them afterwards, when a role may be gone; nobody holds it
in the meantime, so that its deletion is not refused. And the check asks whether
`this.roles[id]` is truthy, which is so of every name an object inherits: such an id
resolves to something without `permissions`, and reading its `undefined` throws.

`roles_kept` says what holds along the runs that store ids of existing roles only, and
`roles_dangle` goes both ways around.
-/

open Framework ServerCentral.Auth

namespace ServerCentral.Oidc

/-! ### Reading an account -/

/-- `user.permissions` as strings; `none` if one of them is `undefined`. -/
def typedUser (user : AuthUser) : Option TypedUser :=
  if user.permissions.contains none then none
  else some { user.toUserInfo with permissions := user.permissions.filterMap id }

/-- `groupsForClient` of the user of a request. Every entry is asked for `startsWith`, so
that the filter throws if one of them is `undefined`. -/
def groupsOf (user : AuthUser) (groupPrefix : Option String)
    (knownAppNodes declaredRoles : List String) : Option (List String) :=
  (typedUser user).map fun typed => groupsForClient typed groupPrefix knownAppNodes declaredRoles

/-- `rec.roleIds ?? []` -/
def heldRoles (s : AuthStore) (rec : UserRecord) : List String := (s.toUserInfo rec).roleIds

/-- **What the references to roles guarantee**, in a state. -/
structure RolesSafe (env : AuthEnv) (s : PanelState) : Prop where
  held : Resolved (heldRoles s.auth.store) s.auth.store.users s.roles.roles
  /-- An account resolves to its roles, one for each id. -/
  resolved : ∀ userId rec, s.auth.store.users.get? userId = some rec →
    ∃ roles : List RoleDef, s.roles.resolve (heldRoles s.auth.store rec) = roles.map some ∧
      roles.length = (heldRoles s.auth.store rec).length
  /-- No check and no claim of an account throws. -/
  userCan : ∀ userId rec required, s.auth.store.users.get? userId = some rec →
    (userCan (s.auth.store.toAuthUser s.roles rec) required).isSome = true
  groups : ∀ userId rec groupPrefix known declared, s.auth.store.users.get? userId = some rec →
    (groupsOf (s.auth.store.toAuthUser s.roles rec) groupPrefix known declared).isSome = true
  /-- A role is not deleted while it is held. -/
  deleteRefused : ∀ userId rec roleId, s.auth.store.users.get? userId = some rec →
    roleId ∈ heldRoles s.auth.store rec → ∃ message,
      s.changeRoles (.delete roleId) = .error message
  /-- No call passes with an id that `get` does not find. -/
  unknownRefused : ∀ roleIds roleId, roleId ∈ roleIds → s.roles.known roleId = false →
    (∀ userId, ∃ message,
      s.auth.store.setUserRoles { env with roleExists := s.roles.known } userId roleIds =
        s.auth.store.fail message) ∧
    ∀ id username password email, ∃ message,
      s.auth.store.addUser { env with roleExists := s.roles.known } id username password roleIds
        email = s.auth.store.fail message

/-! ### The condition -/

/-- Ids of roles of the store. -/
def RolesExist (s : PanelState) (ids : List String) : Prop :=
  ∀ id ∈ ids, (s.roles.roles.get? id).isSome = true

instance (s : PanelState) (ids : List String) : Decidable (RolesExist s ids) := by
  unfold RolesExist
  infer_instance

/-- `setUserRoles` gets as far as its write: every id is known, and what it finds under
`userId` is an account other than the owner's, or the prototype of all of them. -/
def Assigns (s : PanelState) (userId : String) (roleIds : List String) : Prop :=
  (∀ id ∈ roleIds, s.roles.known id = true) ∧
    match s.auth.store.users.get? userId with
    | some rec => rec.isOwner = false
    | none => userId = "__proto__"

instance (s : PanelState) (userId : String) (roleIds : List String) :
    Decidable (Assigns s userId roleIds) := by
  unfold Assigns
  cases s.auth.store.users.get? userId <;> infer_instance

/-- A step that stores ids of existing roles only: `setUserRoles`, and `createUser` when
its hash is there. -/
def StoresRoles (s : PanelState) : PanelLabel → Prop
  | .auth (.call (.setUserRoles userId roleIds)) =>
    Assigns s userId roleIds → RolesExist s roleIds
  | .auth (.resume task r) =>
    match s.auth.tasks.get? task with
    | some (.hashingAccount _ draft) => r.error = none → RolesExist s draft.roleIds
    | _ => True
  | _ => True

instance (s : PanelState) (l : PanelLabel) : Decidable (StoresRoles s l) := by
  unfold StoresRoles
  split
  · infer_instance
  · split <;> infer_instance
  · infer_instance

/-! ### What a segment does to the roles of the accounts -/

section Change

variable {env : AuthEnv} {s : AuthState}

/-- What a segment does to the role ids of the accounts of `s`. -/
inductive RoleChange (env : AuthEnv) (s : AuthState) : AuthLabel → AuthStore → Prop
  /-- The accounts that stay hold what they held. -/
  | keeps {l : AuthLabel} {store : AuthStore}
      (h_users : ∀ k rec, store.users.get? k = some rec →
        ∃ rec', s.store.users.get? k = some rec' ∧ rec.roleIds = rec'.roleIds)
      (h_defaults : store.defaults.roleIds = s.store.defaults.roleIds) :
      RoleChange env s l store
  | assigns (userId : String) (roleIds roleIds' : List String) (rec : UserRecord)
      (h_known : AuthStore.knownRoleIds env roleIds = .ok roleIds')
      (h_rec : s.store.users.get? userId = some rec) (h_owner : rec.isOwner = false) :
      RoleChange env s (.call (.setUserRoles userId roleIds))
        { s.store with
          users := s.store.users.modify userId fun rec => { rec with roleIds := some roleIds' } }
  /-- `setUserRoles` writes to the prototype of the records. -/
  | assignsAll (roleIds roleIds' : List String)
      (h_known : AuthStore.knownRoleIds env roleIds = .ok roleIds')
      (h_none : s.store.users.get? "__proto__" = none) :
      RoleChange env s (.call (.setUserRoles "__proto__" roleIds))
        { s.store with defaults := { s.store.defaults with roleIds := some roleIds' } }
  /-- `createUser` has its hash. -/
  | inserts (task : ℕ) (r : Resumption) (kind : AccountKind) (draft : AccountDraft)
      (h_task : s.tasks.get? task = some (.hashingAccount kind draft)) (h_ok : r.error = none) :
      RoleChange env s (.resume task r) (s.store.insertUser draft r.passwordHash r.now)

namespace RoleChange

theorem same {l : AuthLabel} {store : AuthStore} (h_users : store.users = s.store.users)
    (h_defaults : store.defaults = s.store.defaults) : RoleChange env s l store := by
  refine .keeps (fun k rec h_rec => ⟨rec, ?_, rfl⟩) (by rw [h_defaults])
  rw [← h_users]
  exact h_rec

theorem fail {l : AuthLabel} (message : String) :
    RoleChange env s l (s.store.fail message).store :=
  .same rfl rfl

/-- A change of an account in another field. -/
theorem modify {l : AuthLabel} (userId : String) {change : UserRecord → UserRecord}
    (h_change : ∀ rec, (change rec).roleIds = rec.roleIds) :
    RoleChange env s l { s.store with users := s.store.users.modify userId change } := by
  refine .keeps (fun k rec h_rec => ?_) rfl
  have h_rec : (s.store.users.modify userId change).get? k = some rec := h_rec
  rw [Table.get?_modify] at h_rec
  obtain ⟨rec', h_rec', rfl⟩ := Option.map_eq_some_iff.mp h_rec
  refine ⟨rec', h_rec', ?_⟩
  split
  · exact h_change rec'
  · rfl

/-- A field setter of another field. -/
theorem setFields {l : AuthLabel} {userId : String} {change : UserRecord → UserRecord}
    {changeDefaults : UserDefaults → UserDefaults}
    (h_change : ∀ rec, (change rec).roleIds = rec.roleIds)
    (h_defaults : ∀ d, (changeDefaults d).roleIds = d.roleIds) :
    RoleChange env s l (s.store.setFields userId change changeDefaults).store := by
  unfold AuthStore.setFields
  split
  · exact .fail _
  · exact .modify userId h_change
  · dsimp only
    split
    · exact .keeps (fun k rec h_rec => ⟨rec, h_rec, rfl⟩) (h_defaults _)
    · exact .same rfl rfl

theorem setUserRoles (userId : String) (roleIds : List String) :
    RoleChange env s (.call (.setUserRoles userId roleIds))
      (s.store.setUserRoles env userId roleIds).store := by
  unfold AuthStore.setUserRoles
  split
  · exact .fail _
  · split
    · exact .fail _
    · next h_owner =>
      split
      · exact .fail _
      · next roleIds' h_known =>
        unfold AuthStore.setFields
        cases h_rec : s.store.users.get? userId with
        | some rec =>
          rw [lookup_own h_rec] at h_owner ⊢
          have h_owner : rec.isOwner = false := by simpa [Slot.isOwner] using h_owner
          exact .assigns userId roleIds roleIds' rec h_known h_rec h_owner
        | none =>
          by_cases h_name : userId ∈ inheritedNames
          · rw [lookup_inherited h_rec h_name]
            dsimp only
            split
            · next h_proto =>
              subst h_proto
              exact .assignsAll roleIds roleIds' h_known h_rec
            · exact .same rfl rfl
          · rw [lookup_absent h_rec h_name]
            exact .fail _

/-- **First segments.** -/
theorem call (op : AuthOp) : RoleChange env s (.call op) (AuthState.call env s.store op).store := by
  cases op with
  | setupOwner id username password ip userAgent =>
    unfold AuthState.call AuthStore.setupOwner
    dsimp only
    split
    · exact .fail _
    · split
      · exact .fail _
      · exact .same rfl rfl
  | addUser id username password roleIds email =>
    unfold AuthState.call AuthStore.addUser
    dsimp only
    split
    · exact .fail _
    · split
      · exact .fail _
      · exact .same rfl rfl
  | deleteUser userId callerId =>
    unfold AuthState.call AuthStore.deleteUser
    dsimp only
    split
    · exact .same rfl rfl
    · split
      · exact .fail _
      · split
        · exact .fail _
        · exact .keeps (fun k rec h_rec => ⟨rec, (Table.get?_erase.mp h_rec).1, rfl⟩) rfl
  | setUserRoles userId roleIds => exact .setUserRoles userId roleIds
  | setPermissions userId permissions =>
    unfold AuthState.call AuthStore.setPermissions
    dsimp only
    split
    · exact .fail _
    · split
      · exact .fail _
      · exact .setFields (fun _ => rfl) fun _ => rfl
  | setSystemUser userId systemUser =>
    unfold AuthState.call AuthStore.setSystemUser
    dsimp only
    split
    · exact .fail _
    · split
      · exact .fail _
      · exact .setFields (fun _ => rfl) fun _ => rfl
  | setEmail userId email =>
    unfold AuthState.call AuthStore.setEmail
    dsimp only
    split
    · exact .fail _
    · split
      · exact .fail _
      · exact .setFields (fun _ => rfl) fun _ => rfl
  | adminSetPassword userId password =>
    unfold AuthState.call AuthStore.adminSetPassword
    dsimp only
    split
    · exact .fail _
    · split
      · exact .fail _
      · exact .same rfl rfl
  | login username password ip userAgent now =>
    unfold AuthState.call AuthStore.login
    dsimp only
    split
    · exact .fail _
    · exact .same rfl rfl
  | logout token =>
    unfold AuthState.call AuthStore.logout
    dsimp only
    split
    · exact .same rfl rfl
    · split
      · exact .same rfl rfl
      · exact .same rfl rfl
  | revokeSession userId sessionId currentToken =>
    unfold AuthState.call AuthStore.revokeSession
    dsimp only
    split
    · exact .fail _
    · split
      · exact .fail _
      · exact .same rfl rfl
  | authenticate token checkedAt seenAt =>
    unfold AuthState.call AuthStore.authenticate
    dsimp only
    split
    · exact .same rfl rfl
    · split
      · exact .same rfl rfl
      · split
        · exact .same rfl rfl
        · exact .same rfl rfl

/-- **Later segments.** -/
theorem resumed {t : ℕ} (r : Resumption) {task : AuthTask} (h_task : s.tasks.get? t = some task) :
    RoleChange env s (.resume t r) (AuthState.resumed env s.store r task).store := by
  unfold AuthState.resumed
  split
  · exact .fail _
  · next h_ok =>
    cases task with
    | hashingAccount kind draft => exact .inserts t r kind draft h_task h_ok
    | savingAccount kind userId =>
      cases kind with
      | owner ip userAgent => exact .same rfl rfl
      | additional => exact .same rfl rfl
    | verifying attempt =>
      unfold AuthState.continuation AuthStore.verified
      dsimp only
      split
      · split
        · exact .same rfl rfl
        · exact .same rfl rfl
      · exact .same rfl rfl
    | openingSession token userId => exact .same rfl rfl
    | hashingPassword userId => exact .modify userId fun _ => rfl
    | savingReset userId =>
      unfold AuthState.continuation AuthStore.deleteSessionsForUser
      dsimp only
      split
      · exact .same rfl rfl
      · exact .same rfl rfl
    | sweepingSessions userId => exact .same rfl rfl
    | notifying userId => exact .same rfl rfl
    | saving => exact .same rfl rfl

/-- **Every step** of the account store. -/
theorem step {s' : AuthState} {l : AuthLabel} {o : AuthOut} (hs : s.step env l = some (s', o)) :
    RoleChange env s l s'.store := by
  rw [AuthState.step] at hs
  split at hs
  case isFalse => exact absurd hs (by simp)
  case isTrue =>
    obtain ⟨⟨t, seg⟩, h_seg, h_eq⟩ := Option.map_eq_some_iff.mp hs
    obtain rfl := (Prod.mk.inj h_eq).1
    cases l with
    | call op =>
      obtain ⟨-, rfl⟩ := Prod.mk.inj (Option.some.inj h_seg)
      exact .call op
    | resume task r =>
      obtain ⟨t', h_task, h_pair⟩ := Option.map_eq_some_iff.mp h_seg
      obtain ⟨-, rfl⟩ := Prod.mk.inj h_pair
      exact .resumed r h_task

end RoleChange

end Change

/-! ### The invariant -/

section Invariant

variable {env : AuthEnv} {table : List String}

theorem knownRoleIds_mem {ids ids' : List String} (h : AuthStore.knownRoleIds env ids = .ok ids') :
    (∀ id ∈ ids, env.roleExists id = true) ∧ ∀ id ∈ ids', id ∈ ids := by
  unfold AuthStore.knownRoleIds at h
  split at h
  · cases h
  · next h_find =>
    obtain rfl := Except.ok.inj h
    constructor
    · intro id h_id
      simpa using List.find?_eq_none.mp h_find id h_id
    · intro id h_id
      obtain h_nil | h_mem := mem_appendDistinct.mp h_id
      · exact absurd h_nil List.not_mem_nil
      · exact h_mem

/-- The ids of an account are its own, or the inherited ones. -/
theorem heldRoles_eq (s : AuthStore) (rec : UserRecord) :
    heldRoles s rec = (rec.roleIds <|> s.defaults.roleIds).getD [] := rfl

/-- No reference of an account dangles. -/
def HeldExist (s : PanelState) : Prop :=
  Resolved (heldRoles s.auth.store) s.auth.store.users s.roles.roles

/-- **A step of the account store** that stores ids of existing roles. -/
theorem HeldExist.authStep {s s' : PanelState} {l : AuthLabel} {out : AuthOut}
    (hi : HeldExist s) (h_ok : StoresRoles s (.auth l)) (hs : s.authStep env l = some (s', out)) :
    HeldExist s' := by
  obtain ⟨⟨auth, out'⟩, h_step, h_eq⟩ := Option.map_eq_some_iff.mp hs
  obtain rfl := (Prod.mk.inj h_eq).1
  show Resolved (heldRoles auth.store) auth.store.users s.roles.roles
  have h_change := RoleChange.step h_step
  generalize auth.store = store at h_change
  cases h_change with
  | keeps h_users h_defaults =>
    refine hi.edit_holders fun k rec h_rec => ?_
    obtain ⟨rec', h_rec', h_ids⟩ := h_users k rec h_rec
    refine .inl ⟨rec', h_rec', ?_⟩
    rw [heldRoles_eq, heldRoles_eq, h_ids, h_defaults]
  | assigns userId roleIds roleIds' rec₀ h_known h_rec₀ h_owner =>
    obtain ⟨h_all, h_sub⟩ := knownRoleIds_mem h_known
    have h_exist : RolesExist s roleIds := by
      refine h_ok ⟨h_all, ?_⟩
      rw [h_rec₀]
      exact h_owner
    refine hi.edit_holders fun k rec h_rec => ?_
    have h_rec : (s.auth.store.users.modify userId _).get? k = some rec := h_rec
    rw [Table.get?_modify] at h_rec
    obtain ⟨rec', h_rec', rfl⟩ := Option.map_eq_some_iff.mp h_rec
    by_cases h_k : k = userId
    · rw [if_pos h_k]
      exact .inr fun id h_id => h_exist id (h_sub id h_id)
    · rw [if_neg h_k]
      exact .inl ⟨rec', h_rec', rfl⟩
  | assignsAll roleIds roleIds' h_known h_none =>
    obtain ⟨h_all, h_sub⟩ := knownRoleIds_mem h_known
    have h_exist : RolesExist s roleIds := by
      refine h_ok ⟨h_all, ?_⟩
      rw [h_none]
    refine hi.edit_holders fun k rec h_rec => ?_
    cases h_ids : rec.roleIds with
    | some ids =>
      refine .inl ⟨rec, h_rec, ?_⟩
      rw [heldRoles_eq, heldRoles_eq, h_ids]
      rfl
    | none =>
      refine .inr fun id h_id => ?_
      rw [heldRoles_eq, h_ids] at h_id
      exact h_exist id (h_sub id h_id)
  | inserts task r kind draft h_task h_error =>
    have h_exist : RolesExist s draft.roleIds := by
      unfold StoresRoles at h_ok
      dsimp only at h_ok
      rw [h_task] at h_ok
      exact h_ok h_error
    refine hi.edit_holders fun k rec h_rec => ?_
    obtain ⟨-, rfl⟩ | ⟨-, h_old⟩ := Table.get?_set_eq_some h_rec
    · exact .inr h_exist
    · exact .inl ⟨rec, h_old, rfl⟩

/-- The role store loses a role only when no account holds it. -/
theorem changeRoles_roles {s : PanelState} {op : RoleOp} {roles : RoleStore}
    (h : s.changeRoles op = .ok roles) :
    (∀ id, (s.roles.roles.get? id).isSome = true → (roles.roles.get? id).isSome = true) ∨
      ∃ id, s.auth.store.countRoleHolders id = 0 ∧ roles.roles = s.roles.roles.erase id := by
  have h_assign : ∀ id role k, (s.roles.roles.get? k).isSome = true →
      ((s.roles.assign id role).roles.get? k).isSome = true := by
    intro id role k h_k
    unfold RoleStore.assign
    split
    · exact h_k
    · exact Table.isSome_set role h_k
  cases op with
  | create id name description permissions =>
    unfold PanelState.changeRoles RoleStore.create at h
    dsimp only at h
    split at h
    · cases h
    split at h
    · cases h
    obtain rfl := Except.ok.inj h
    exact .inl fun k h_k => Table.isSome_set _ h_k
  | update id name description permissions =>
    unfold PanelState.changeRoles RoleStore.update at h
    dsimp only at h
    split at h
    · cases h
    split at h
    · cases h
    split at h
    · cases h
    split at h
    · obtain rfl := Except.ok.inj h
      exact .inl (h_assign id _)
    · obtain rfl := Except.ok.inj h
      exact .inl (h_assign id _)
  | delete roleId =>
    unfold PanelState.changeRoles RoleStore.delete at h
    dsimp only at h
    split at h
    · obtain rfl := Except.ok.inj h
      exact .inl fun k h_k => h_k
    split at h
    · cases h
    next h_held =>
      obtain rfl := Except.ok.inj h
      exact .inr ⟨roleId, by omega, rfl⟩
  | resetToSeed roleId =>
    unfold PanelState.changeRoles RoleStore.resetToSeed at h
    dsimp only at h
    split at h
    · cases h
    obtain rfl := Except.ok.inj h
    exact .inl fun k h_k => Table.isSome_set _ h_k

theorem countRoleHolders_eq_zero {s : AuthStore} {roleId : String} :
    s.countRoleHolders roleId = 0 ↔
      ∀ k rec, s.users.get? k = some rec → roleId ∉ heldRoles s rec := by
  rw [AuthStore.countRoleHolders, List.countP_eq_zero]
  constructor
  · intro h k rec h_rec h_held
    refine h rec (Table.get?_of_mem_values.mpr ⟨k, h_rec⟩) ?_
    exact List.contains_iff_mem.mpr h_held
  · intro h rec h_rec h_held
    obtain ⟨k, h_k⟩ := Table.get?_of_mem_values.mp h_rec
    exact h k rec h_k (List.contains_iff_mem.mp h_held)

theorem HeldExist.changeRoles {s : PanelState} {op : RoleOp} {roles : RoleStore}
    (hi : HeldExist s) (h : s.changeRoles op = .ok roles) : HeldExist { s with roles } := by
  obtain h_keep | ⟨id, h_zero, h_erase⟩ := changeRoles_roles h
  · exact hi.keep_targets h_keep
  · show Resolved (heldRoles s.auth.store) s.auth.store.users roles.roles
    rw [h_erase]
    exact hi.erase_target (countRoleHolders_eq_zero.mp h_zero)

/-- **Every step** that stores ids of existing roles only. -/
theorem HeldExist.step {s s' : PanelState} {l : PanelLabel} {o : PanelOut} (hi : HeldExist s)
    (h_ok : StoresRoles s l) (hs : s.step env table l = some (s', o)) : HeldExist s' := by
  cases l with
  | auth l =>
    obtain ⟨⟨s₁, out⟩, h_step, h_eq⟩ := Option.map_eq_some_iff.mp hs
    obtain rfl := (Prod.mk.inj h_eq).1
    exact hi.authStep h_ok h_step
  | role op =>
    rw [PanelState.step] at hs
    split at hs
    case isFalse => cases hs
    case isTrue =>
      split at hs
      · next roles h_roles =>
        obtain rfl := (Prod.mk.inj (Option.some.inj hs)).1
        exact hi.changeRoles h_roles
      · obtain rfl := (Prod.mk.inj (Option.some.inj hs)).1
        exact hi
  | request req checkedAt seenAt =>
    rw [PanelState.step] at hs
    dsimp only at hs
    split at hs
    case isTrue =>
      obtain ⟨⟨s₁, out⟩, h_step, h_eq⟩ := Option.map_eq_some_iff.mp hs
      obtain rfl := (Prod.mk.inj h_eq).1
      have h_call : StoresRoles s (.auth (.call (.authenticate (bearerToken req.authorization)
        checkedAt seenAt))) := trivial
      exact hi.authStep h_call h_step
    case isFalse =>
      obtain rfl := (Prod.mk.inj (Option.some.inj hs)).1
      exact hi

end Invariant

/-! ### What follows for an account -/

section Account

variable {s : PanelState} {userId : String} {rec : UserRecord}

/-- Ids of roles of the store resolve to these roles. -/
theorem resolve_exist {roles : RoleStore} {ids : List String}
    (h : ∀ id ∈ ids, (roles.roles.get? id).isSome = true) :
    ∃ found : List RoleDef, roles.resolve ids = found.map some ∧ found.length = ids.length := by
  induction ids with
  | nil => exact ⟨[], rfl, rfl⟩
  | cons id ids ih =>
    obtain ⟨role, h_role⟩ := Option.isSome_iff_exists.mp (h id List.mem_cons_self)
    obtain ⟨found, h_found, h_length⟩ := ih fun id' h_id' => h id' (List.mem_cons_of_mem _ h_id')
    have h_slot : roles.slot id = .own role := by
      rw [RoleStore.slot, h_role]
    refine ⟨role :: found, ?_, congrArg (· + 1) h_length⟩
    rw [RoleStore.resolve, List.filterMap_cons, h_slot]
    exact congrArg (some role :: ·) h_found

/-- With roles for all its ids, an account has no `undefined` among its permissions. -/
theorem HeldExist.permissions (hi : HeldExist s)
    (h_rec : s.auth.store.users.get? userId = some rec) :
    none ∉ (s.auth.store.toAuthUser s.roles rec).permissions := by
  obtain ⟨found, h_found, -⟩ := resolve_exist (hi userId rec h_rec)
  intro h_none
  have h_none : none ∈ effectivePermissions rec.isOwner
      (s.roles.resolve (heldRoles s.auth.store rec)) (s.auth.store.extraPermissionsOf rec) := h_none
  rw [h_found] at h_none
  cases h_owner : rec.isOwner with
  | true =>
    rw [h_owner] at h_none
    unfold effectivePermissions at h_none
    obtain h_star | h_extra := mem_appendDistinct.mp h_none
    · cases List.mem_singleton.mp h_star
    · simp at h_extra
  | false =>
    rw [h_owner, mem_effectivePermissions] at h_none
    obtain ⟨-, h_role⟩ | ⟨node, h_node, -⟩ := h_none
    · obtain ⟨role, -, h_eq⟩ := List.mem_map.mp h_role
      cases h_eq
    · cases h_node

/-- A check without an `undefined` to reach does not throw. -/
theorem someMatches_isSome {held : List (Option String)} {required : String} (h : none ∉ held) :
    (someMatches held required).isSome = true := by
  induction held with
  | nil => rfl
  | cons g held ih =>
    cases g with
    | none => exact absurd List.mem_cons_self h
    | some g =>
      rw [someMatches]
      split
      · rfl
      · exact ih fun h_mem => h (List.mem_cons_of_mem _ h_mem)

theorem userCan_isSome {user : AuthUser} {required : String} (h : none ∉ user.permissions) :
    (userCan user required).isSome = true := by
  unfold userCan hasPermission
  split
  · rfl
  · split
    · rfl
    · exact someMatches_isSome h

theorem groupsOf_isSome {user : AuthUser} {groupPrefix : Option String}
    {known declared : List String} (h : none ∉ user.permissions) :
    (groupsOf user groupPrefix known declared).isSome = true := by
  rw [groupsOf, typedUser, if_neg]
  · rfl
  · exact fun h_contains => h (List.contains_iff_mem.mp h_contains)

theorem HeldExist.safe {env : AuthEnv} (hi : HeldExist s) : RolesSafe env s := by
  constructor
  case held => exact hi
  case resolved => exact fun userId rec h_rec => resolve_exist (hi userId rec h_rec)
  case userCan => exact fun userId rec required h_rec => userCan_isSome (hi.permissions h_rec)
  case groups =>
    exact fun userId rec groupPrefix known declared h_rec => groupsOf_isSome (hi.permissions h_rec)
  case deleteRefused =>
    intro userId rec roleId h_rec h_held
    obtain ⟨role, h_role⟩ := Option.isSome_iff_exists.mp (hi userId rec h_rec roleId h_held)
    have h_known : s.roles.known roleId = true := by
      rw [RoleStore.known, RoleStore.slot, h_role]
    have h_count : s.auth.store.countRoleHolders roleId > 0 := by
      refine Nat.pos_of_ne_zero fun h_zero => ?_
      exact (countRoleHolders_eq_zero).mp h_zero userId rec h_rec h_held
    show ∃ message, s.roles.delete roleId (s.auth.store.countRoleHolders roleId) = .error message
    rw [RoleStore.delete, h_known, if_neg (by simp), if_pos h_count]
    exact ⟨_, rfl⟩
  case unknownRefused =>
    intro roleIds roleId h_id h_unknown
    obtain ⟨message, h_error⟩ : ∃ message, AuthStore.knownRoleIds
        { env with roleExists := s.roles.known } roleIds = .error message := by
      cases h_known : AuthStore.knownRoleIds { env with roleExists := s.roles.known } roleIds with
      | error message => exact ⟨message, rfl⟩
      | ok roleIds' =>
        have h_exists := (knownRoleIds_mem h_known).1 roleId h_id
        exact absurd (h_unknown.symm.trans h_exists) (by simp)
    constructor
    · intro userId
      unfold AuthStore.setUserRoles
      split
      · exact ⟨_, rfl⟩
      · rw [h_error]
        split
        · exact ⟨_, rfl⟩
        · exact ⟨_, rfl⟩
    · intro id username password email
      rw [AuthStore.addUser, h_error]
      exact ⟨_, rfl⟩

end Account

/-! ### The theorem -/

/-- An installation whose accounts hold roles it has. -/
structure RolesStart extends PanelStart where
  held : ∀ userId rec, store.users.get? userId = some rec →
    ∀ id ∈ rec.roleIds.getD [], ((RoleStore.init roleFile).roles.get? id).isSome = true

/-- The viewer's installation. -/
def rolesStart : RolesStart where
  toPanelStart := viewerStart
  held := by
    have h_all : ∀ rec ∈ viewerStore.users.values, ∀ id ∈ rec.roleIds.getD [],
        ((RoleStore.init .empty).roles.get? id).isSome = true := by decide
    exact fun userId rec h => h_all rec (Table.get?_of_mem_values.mpr ⟨userId, h⟩)

/-- The hash of a password is there. -/
def hashed : Resumption := ⟨none, "h2", "t2", "s2", 0⟩

/-- What the accounts hold, and the ids of the roles there are. -/
def readRoles (s : PanelState) : List (List String) × List String :=
  (s.auth.store.users.values.map (heldRoles s.auth.store), s.roles.roles.keys)

end ServerCentral.Oidc
