import ServerCentral.Auth.Authorization

/-!
# What the gate admits

The requirements of the registry against the stores of a run. The invariant says that the
accounts hold ids of roles only, and that no record has become the prototype of the roles;
under it the set the gate searches is the union of the existing roles and the ad-hoc
grants, without an `undefined` among them.
-/

open Framework

namespace ServerCentral.Auth

variable {env : AuthEnv} {table : List String} {start : PanelStart}

/-- The accounts hold ids of roles, and the roles have no other prototype. -/
structure PanelInv (s : PanelState) : Prop where
  auth : RoleIdsInv s.auth
  proto : s.roles.proto = none

theorem panelInv_init : PanelInv (panelMachine env table start).init := by
  constructor
  case auth =>
    refine ⟨start.own, fun t task h => ?_⟩
    exact absurd h (by simp [panelMachine, AuthState.loaded])
  case proto => rfl

/-- A method of the role store that does not assign `__proto__` keeps the prototype. -/
theorem changeRoles_proto {s : PanelState} {op : RoleOp} {roles : RoleStore}
    (h_op : PassesOwnNames s (.role op)) (h : s.changeRoles op = .ok roles) :
    roles.proto = s.roles.proto := by
  cases op with
  | create id name description permissions =>
    unfold PanelState.changeRoles RoleStore.create at h
    dsimp only at h
    split at h
    · exact absurd h (by simp)
    split at h
    · exact absurd h (by simp)
    · rw [← Except.ok.inj h]
  | update id name description permissions =>
    have h_id : id ≠ "__proto__" := h_op
    have h_assign : ∀ role, (s.roles.assign id role).proto = s.roles.proto := fun role => by
      rw [RoleStore.assign, if_neg h_id]
    unfold PanelState.changeRoles RoleStore.update at h
    dsimp only at h
    split at h
    · exact absurd h (by simp)
    split at h
    · exact absurd h (by simp)
    split at h
    · exact absurd h (by simp)
    split at h
    · rw [← Except.ok.inj h]
      exact h_assign _
    · rw [← Except.ok.inj h]
      exact h_assign _
  | delete roleId =>
    unfold PanelState.changeRoles RoleStore.delete at h
    dsimp only at h
    split at h
    · rw [← Except.ok.inj h]
    split at h
    · exact absurd h (by simp)
    · rw [← Except.ok.inj h]
  | resetToSeed roleId =>
    unfold PanelState.changeRoles RoleStore.resetToSeed at h
    dsimp only at h
    split at h
    · exact absurd h (by simp)
    · rw [← Except.ok.inj h]

theorem PanelInv.authStep {s s' : PanelState} {l : AuthLabel} {out : AuthOut} (hi : PanelInv s)
    (h_l : l.OwnNames) (hs : s.authStep env l = some (s', out)) : PanelInv s' := by
  obtain ⟨⟨auth, out'⟩, h_step, h_eq⟩ := Option.map_eq_some_iff.mp hs
  obtain rfl := (Prod.mk.inj h_eq).1
  exact ⟨hi.auth.step h_l h_step, hi.proto⟩

theorem PanelInv.step {s s' : PanelState} {l : PanelLabel} {o : PanelOut} (hi : PanelInv s)
    (h_ok : PassesOwnNames s l) (hs : s.step env table l = some (s', o)) : PanelInv s' := by
  cases l with
  | auth l =>
    obtain ⟨⟨s₁, out⟩, h_step, h_eq⟩ := Option.map_eq_some_iff.mp hs
    obtain rfl := (Prod.mk.inj h_eq).1
    exact hi.authStep h_ok h_step
  | role op =>
    rw [PanelState.step] at hs
    split at hs
    case isFalse => exact absurd hs (by simp)
    case isTrue =>
      split at hs
      · next roles h_roles =>
        obtain rfl := (Prod.mk.inj (Option.some.inj hs)).1
        exact ⟨hi.auth, (changeRoles_proto h_ok h_roles).trans hi.proto⟩
      · obtain rfl := (Prod.mk.inj (Option.some.inj hs)).1
        exact hi
  | request req checkedAt seenAt =>
    have hs : (if req.routed table then
      (s.authStep env (.call (.authenticate (bearerToken req.authorization) checkedAt seenAt))).map
        fun r => (r.1, PanelOut.rpc (handleRpc table s.auth.store s.roles req checkedAt))
      else some (s, .rpc (handleRpc table s.auth.store s.roles req checkedAt))) = some (s', o) := hs
    split at hs
    case isTrue =>
      obtain ⟨⟨s₁, out⟩, h_step, h_eq⟩ := Option.map_eq_some_iff.mp hs
      obtain rfl := (Prod.mk.inj h_eq).1
      have h_own : (AuthLabel.call (.authenticate (bearerToken req.authorization) checkedAt
        seenAt)).OwnNames := trivial
      exact hi.authStep h_own h_step
    case isFalse =>
      obtain rfl := (Prod.mk.inj (Option.some.inj hs)).1
      exact hi

theorem panelInv_run {tr : List (PanelLabel × PanelOut)} {s : PanelState}
    (h : (panelMachine env table start).RunWhen PassesOwnNames tr s) : PanelInv s :=
  h.invariant panelInv_init fun _ _ _ _ hi h_ok hs => hi.step h_ok hs

/-! ### What the gate searches -/

section Held

variable {s : PanelState}

/-- An id that no object inherits finds a role of the store or nothing. -/
theorem PanelInv.slot (hi : PanelInv s) {id : String} (h_id : id ∉ inheritedNames) :
    s.roles.slot id = match s.roles.roles.get? id with
      | some role => .own role
      | none => .absent := by
  rw [RoleStore.slot, hi.proto]
  cases h_get : s.roles.roles.get? id with
  | some role => rfl
  | none =>
    show lookup s.roles.roles id = .absent
    rw [lookup, h_get]
    exact if_neg fun h_mem => h_id (List.contains_iff_mem.mp h_mem)

theorem PanelInv.mem_resolve (hi : PanelInv s) {ids : List String} (h_ids : OwnIds ids)
    {r : Option RoleDef} :
    r ∈ s.roles.resolve ids ↔
      ∃ id ∈ ids, ∃ role, s.roles.roles.get? id = some role ∧ r = some role := by
  rw [RoleStore.resolve, List.mem_filterMap]
  constructor
  · rintro ⟨id, h_id, h_r⟩
    rw [hi.slot (h_ids id h_id)] at h_r
    cases h_get : s.roles.roles.get? id with
    | none =>
      rw [h_get] at h_r
      exact absurd h_r (by simp)
    | some role =>
      rw [h_get] at h_r
      exact ⟨id, h_id, role, h_get, (Option.some.inj h_r).symm⟩
  · rintro ⟨id, h_id, role, h_get, rfl⟩
    refine ⟨id, h_id, ?_⟩
    rw [hi.slot (h_ids id h_id), h_get]

variable {userId : String} {rec : UserRecord}

theorem PanelInv.roleIds (hi : PanelInv s) :
    (s.auth.store.toUserInfo rec).roleIds = rec.roleIds.getD [] := by
  show (rec.roleIds <|> s.auth.store.defaults.roleIds).getD [] = rec.roleIds.getD []
  rw [hi.auth.store.roles_default]
  cases rec.roleIds <;> rfl

theorem PanelInv.extraPermissions (hi : PanelInv s) :
    s.auth.store.extraPermissionsOf rec = rec.extraPermissions.getD [] := by
  rw [AuthStore.extraPermissionsOf, hi.auth.store.grants_default]
  cases rec.extraPermissions <;> rfl

/-- **The searched set** of an account that is not the owner. -/
theorem PanelInv.permissions (hi : PanelInv s)
    (h_rec : s.auth.store.users.get? userId = some rec) (h_owner : rec.isOwner = false) :
    none ∉ (s.auth.store.toAuthUser s.roles rec).permissions ∧
      {p | some p ∈ (s.auth.store.toAuthUser s.roles rec).permissions} = Holds s.roles rec := by
  have h_ids := hi.auth.store.users userId rec h_rec
  have h_perms : (s.auth.store.toAuthUser s.roles rec).permissions =
      effectivePermissions false (s.roles.resolve (rec.roleIds.getD []))
        (rec.extraPermissions.getD []) := by
    show effectivePermissions rec.isOwner (s.roles.resolve (s.auth.store.toUserInfo rec).roleIds)
      (s.auth.store.extraPermissionsOf rec) = _
    rw [h_owner, hi.roleIds, hi.extraPermissions]
  rw [h_perms]
  constructor
  · intro h_none
    obtain ⟨-, h_mem⟩ | ⟨node, h_node, -⟩ := mem_effectivePermissions.mp h_none
    · obtain ⟨id, -, role, -, h_eq⟩ := (hi.mem_resolve h_ids).mp h_mem
      exact absurd h_eq (by simp)
    · exact absurd h_node (by simp)
  · ext p
    constructor
    · intro h_p
      obtain ⟨h_none, -⟩ | ⟨node, h_node, h_from⟩ := mem_effectivePermissions.mp h_p
      · exact absurd h_none (by simp)
      · obtain rfl := Option.some.inj h_node
        obtain ⟨role, h_role, h_perm⟩ | h_extra := h_from
        · obtain ⟨id, h_id, role', h_get, h_eq⟩ := (hi.mem_resolve h_ids).mp h_role
          obtain rfl := Option.some.inj h_eq
          exact .inl ⟨id, h_id, role, h_get, h_perm⟩
        · exact .inr h_extra
    · intro h_p
      refine mem_effectivePermissions.mpr (.inr ⟨p, rfl, ?_⟩)
      obtain ⟨id, h_id, role, h_get, h_perm⟩ | h_extra := h_p
      · exact .inl ⟨role, (hi.mem_resolve h_ids).mpr ⟨id, h_id, role, h_get, rfl⟩, h_perm⟩
      · exact .inr h_extra

/-- **The check of a node** against what the account holds. -/
theorem PanelInv.userCan (hi : PanelInv s) (h_rec : s.auth.store.users.get? userId = some rec)
    {permission : String} :
    userCan (s.auth.store.toAuthUser s.roles rec) permission = some true ↔
      rec.isOwner = true ∨ Grants (Holds s.roles rec) permission := by
  have h_flag : (s.auth.store.toAuthUser s.roles rec).isOwner = rec.isOwner := rfl
  rw [Auth.userCan, h_flag]
  cases h_owner : rec.isOwner with
  | true => simp
  | false =>
    obtain ⟨h_none, h_held⟩ := hi.permissions h_rec h_owner
    rw [if_neg (by simp), ← h_held]
    constructor
    · exact fun h => .inr (hasPermission_sound h)
    · rintro (h | h)
      · exact absurd h (by simp)
      · exact hasPermission_complete h_none h

end Held

/-! ### The gate -/

theorem bearerMatch_ne_nil {header captured : List Char}
    (h : bearerMatch header = some captured) : captured ≠ [] := by
  unfold bearerMatch at h
  split at h
  · exact absurd h (by simp)
  split at h
  · exact absurd h (by simp)
  split at h
  · exact absurd h (by simp)
  next h_some =>
  split at h
  · exact absurd h (by simp)
  · rintro rfl
    rw [Option.some.inj h] at h_some
    exact h_some rfl

theorem bearerToken_ne_empty {authorization : Option String} {token : String}
    (h : bearerToken authorization = some token) : token ≠ "" := by
  obtain ⟨header, -, h_map⟩ := Option.bind_eq_some_iff.mp h
  obtain ⟨captured, h_match, rfl⟩ := Option.map_eq_some_iff.mp h_map
  intro h_empty
  refine bearerMatch_ne_nil h_match ?_
  rw [← String.toList_ofList (l := captured), h_empty]
  rfl

section Gate

variable {s : PanelState} {req : RpcRequest} {checkedAt : ℕ}

/-- Whom a request is authenticated as. -/
theorem authenticateUser_eq_some {user : AuthUser} :
    s.auth.store.authenticateUser s.roles (bearerToken req.authorization) checkedAt = some user ↔
      ∃ userId rec, Bears s req checkedAt userId rec ∧
        user = s.auth.store.toAuthUser s.roles rec := by
  rw [AuthStore.authenticateUser]
  constructor
  · intro h
    split at h
    · exact absurd h (by simp)
    next session h_session =>
    obtain ⟨token, h_token, h_get⟩ := Option.bind_eq_some_iff.mp h_session
    split at h
    · exact absurd h (by simp)
    next h_live =>
    obtain ⟨rec, h_rec, h_user⟩ := Option.map_eq_some_iff.mp h
    have h_bearer := (Option.filter_eq_some_iff.mp h_token).1
    exact ⟨session.userId, rec,
      ⟨⟨token, session, h_bearer, h_get, rfl, Nat.le_of_not_lt h_live⟩, h_rec⟩, h_user.symm⟩
  · rintro ⟨userId, rec, ⟨⟨token, session, h_bearer, h_get, rfl, h_live⟩, h_rec⟩, rfl⟩
    have h_token : (bearerToken req.authorization).filter (· ≠ "") = some token :=
      Option.filter_eq_some_iff.mpr ⟨h_bearer, by simpa using bearerToken_ne_empty h_bearer⟩
    rw [h_token, Option.bind_some, h_get]
    dsimp only
    rw [if_neg (Nat.not_lt.mpr h_live), h_rec]
    rfl

/-- A request names one account. -/
theorem Bears.unique {userId userId' : String} {rec rec' : UserRecord}
    (h : Bears s req checkedAt userId rec) (h' : Bears s req checkedAt userId' rec') :
    rec = rec' := by
  obtain ⟨⟨token, session, h_token, h_get, rfl, -⟩, h_rec⟩ := h
  obtain ⟨⟨token', session', h_token', h_get', rfl, -⟩, h_rec'⟩ := h'
  rw [h_token] at h_token'
  obtain rfl := Option.some.inj h_token'
  rw [h_get] at h_get'
  obtain rfl := Option.some.inj h_get'
  exact Option.some.inj (h_rec.symm.trans h_rec')

/-- **The verdict.** -/
theorem PanelInv.authorize (hi : PanelInv s) {command : String} :
    authorize command
        (s.auth.store.authenticateUser s.roles (bearerToken req.authorization) checkedAt) =
      some .ok ↔
    ∃ requirement, opRequirements.get? command = some requirement ∧
      Meets s req checkedAt requirement := by
  rw [authorize_def]
  beta_reduce
  cases h_req : opRequirements.get? command with
  | none => simp
  | some requirement =>
    simp only [Option.some.injEq, exists_eq_left']
    cases h_user : s.auth.store.authenticateUser s.roles (bearerToken req.authorization) checkedAt with
    | none =>
      -- nobody is authenticated: only a public operation passes
      have h_nobody : ∀ userId rec, ¬Bears s req checkedAt userId rec := by
        intro userId rec h
        have h_some := (authenticateUser_eq_some).mpr ⟨userId, rec, h, rfl⟩
        exact absurd (h_user.symm.trans h_some) (by simp)
      cases requirement with
      | publicOp => exact ⟨fun _ => .publicOp, fun _ => rfl⟩
      | authenticated =>
        refine ⟨fun h => absurd h (by simp), fun h => ?_⟩
        cases h with
        | authenticated h => exact absurd h (h_nobody _ _)
      | node permission =>
        refine ⟨fun h => absurd h (by simp), fun h => ?_⟩
        cases h with
        | owner h => exact absurd h (h_nobody _ _)
        | grants h => exact absurd h (h_nobody _ _)
    | some user =>
      obtain ⟨userId, rec, h_bears, rfl⟩ := (authenticateUser_eq_some).mp h_user
      cases requirement with
      | publicOp => exact ⟨fun _ => .publicOp, fun _ => rfl⟩
      | authenticated => exact ⟨fun _ => .authenticated h_bears, fun _ => rfl⟩
      | node permission =>
        have h_can : Auth.userCan (s.auth.store.toAuthUser s.roles rec) permission = some true ↔
            rec.isOwner = true ∨ Grants (Holds s.roles rec) permission :=
          hi.userCan h_bears.account
        have h_meets : Meets s req checkedAt (.node permission) ↔
            rec.isOwner = true ∨ Grants (Holds s.roles rec) permission := by
          constructor
          · intro h
            cases h with
            | owner h h_owner => exact .inl (h_bears.unique h ▸ h_owner)
            | grants h h_grants => exact .inr (h_bears.unique h ▸ h_grants)
          · rintro (h_owner | h_grants)
            · exact .owner h_bears h_owner permission
            · exact .grants h_bears h_grants
        rw [h_meets, ← h_can]
        dsimp only
        cases Auth.userCan (s.auth.store.toAuthUser s.roles rec) permission with
        | none => simp
        | some can => cases can <;> simp

/-- **When a handler runs.** -/
theorem handled_iff {auth : AuthStore} {roles : RoleStore} {user : Option AuthUser} :
    handleRpc table auth roles req checkedAt = .handled user ↔
      req.routed table = true ∧ req.frameError = none ∧
        user = auth.authenticateUser roles (bearerToken req.authorization) checkedAt ∧
        authorize (commandOf req.pathname) user = some .ok := by
  rw [handleRpc, RpcRequest.routed]
  by_cases h_method : req.method = "POST"
  · cases h_origin : req.originAllowed with
    | false => simp [h_method]
    | true =>
      cases h_table : table.contains (commandOf req.pathname) with
      | false => simp [h_method]
      | true =>
        simp only [h_method, ne_eq, not_true, if_false, Bool.not_true, Bool.false_eq_true,
          decide_true, Bool.and_true, true_and]
        cases h_verdict : Auth.authorize (commandOf req.pathname)
          (auth.authenticateUser roles (bearerToken req.authorization) checkedAt) with
        | none =>
          refine ⟨fun h => absurd h (by simp), ?_⟩
          rintro ⟨-, rfl, h⟩
          exact absurd (h_verdict.symm.trans h) (by simp)
        | some verdict =>
          cases verdict with
          | refused status error =>
            refine ⟨fun h => absurd h (by simp), ?_⟩
            rintro ⟨-, rfl, h⟩
            exact absurd (h_verdict.symm.trans h) (by simp)
          | ok =>
            cases req.frameError with
            | some message => simp
            | none =>
              constructor
              · intro h
                obtain rfl := RpcOutcome.handled.inj h
                exact ⟨rfl, rfl, h_verdict⟩
              · rintro ⟨-, rfl, -⟩
                rfl
  · simp [h_method]

/-- **The gate** runs the handler exactly when the requirement is met. -/
theorem PanelInv.handled_iff (hi : PanelInv s) :
    (∃ user, handleRpc table s.auth.store s.roles req checkedAt = .handled user) ↔
      req.routed table = true ∧ req.frameError = none ∧
        ∃ requirement, opRequirements.get? (commandOf req.pathname) = some requirement ∧
          Meets s req checkedAt requirement := by
  rw [← hi.authorize]
  constructor
  · rintro ⟨user, h⟩
    obtain ⟨h_routed, h_frame, rfl, h_ok⟩ := Auth.handled_iff.mp h
    exact ⟨h_routed, h_frame, h_ok⟩
  · rintro ⟨h_routed, h_frame, h_ok⟩
    exact ⟨_, Auth.handled_iff.mpr ⟨h_routed, h_frame, rfl, h_ok⟩⟩

end Gate

/-! ### More roles and grants -/

/-- Holding more roles and grants. -/
theorem Holds.mono {roles : RoleStore} {rec rec' : UserRecord}
    (h_ids : rec.roleIds.getD [] ⊆ rec'.roleIds.getD [])
    (h_extra : rec.extraPermissions.getD [] ⊆ rec'.extraPermissions.getD []) :
    Holds roles rec ⊆ Holds roles rec' := by
  rintro p (⟨id, h_id, h_role⟩ | h_p)
  · exact .inl ⟨id, h_ids h_id, h_role⟩
  · exact .inr (h_extra h_p)

theorem setFields_sessions (s : AuthStore) (userId : String) (change : UserRecord → UserRecord)
    (changeDefaults : UserDefaults → UserDefaults) :
    (s.setFields userId change changeDefaults).store.sessions = s.sessions := by
  unfold AuthStore.setFields
  split
  · rfl
  · rfl
  · dsimp only
    split <;> rfl

/-- Setting roles or grants leaves the sessions alone. -/
theorem SetsGrants.sessions {userId : String} {op : AuthOp} (h : SetsGrants userId op)
    (s : AuthStore) : (AuthState.call env s op).store.sessions = s.sessions := by
  cases h with
  | roles roleIds =>
    unfold AuthState.call AuthStore.setUserRoles
    dsimp only
    split
    · rfl
    split
    · rfl
    split
    · rfl
    · exact setFields_sessions s userId _ _
  | permissions permissions =>
    unfold AuthState.call AuthStore.setPermissions
    dsimp only
    split
    · rfl
    split
    · rfl
    · exact setFields_sessions s userId _ _

/-- What a call that sets roles or grants leaves as it is. -/
theorem SetsGrants.frame {userId : String} {op : AuthOp} (h : SetsGrants userId op)
    {s s' : PanelState} {out : PanelOut} (hs : s.step env table (.auth (.call op)) = some (s', out)) :
    s'.roles = s.roles ∧ s'.auth.store.sessions = s.auth.store.sessions := by
  obtain ⟨⟨s₁, o₁⟩, h_step, h_eq⟩ := Option.map_eq_some_iff.mp hs
  obtain rfl := (Prod.mk.inj h_eq).1
  obtain ⟨⟨auth, o₂⟩, h_auth, h_eq⟩ := Option.map_eq_some_iff.mp h_step
  obtain rfl := (Prod.mk.inj h_eq).1
  rw [AuthState.step] at h_auth
  split at h_auth
  case isFalse => exact absurd h_auth (by simp)
  case isTrue =>
    obtain ⟨⟨t, seg⟩, h_seg, h_eq⟩ := Option.map_eq_some_iff.mp h_auth
    obtain ⟨-, rfl⟩ := Prod.mk.inj (Option.some.inj h_seg)
    obtain rfl := (Prod.mk.inj h_eq).1
    exact ⟨rfl, h.sessions s.auth.store⟩

theorem PanelInv.monotone {s s' : PanelState} (hi : PanelInv s) (hi' : PanelInv s')
    (h_roles : s'.roles = s.roles) (h_sessions : s'.auth.store.sessions = s.auth.store.sessions)
    {userId : String} {rec rec' : UserRecord} (h_owner : rec.isOwner = false)
    (h_rec' : s'.auth.store.users.get? userId = some rec')
    (h_ids : rec.roleIds.getD [] ⊆ rec'.roleIds.getD [])
    (h_extra : rec.extraPermissions.getD [] ⊆ rec'.extraPermissions.getD [])
    {req : RpcRequest} {checkedAt : ℕ} {user : Option AuthUser}
    (h_bears : Bears s req checkedAt userId rec)
    (h : handleRpc table s.auth.store s.roles req checkedAt = .handled user) :
    ∃ user', handleRpc table s'.auth.store s'.roles req checkedAt = .handled user' := by
  have h_bears' : Bears s' req checkedAt userId rec' := ⟨h_sessions ▸ h_bears.session, h_rec'⟩
  obtain ⟨h_routed, h_frame, requirement, h_req, h_meets⟩ := hi.handled_iff.mp ⟨user, h⟩
  refine hi'.handled_iff.mpr ⟨h_routed, h_frame, requirement, h_req, ?_⟩
  cases h_meets with
  | publicOp => exact .publicOp
  | authenticated => exact .authenticated h_bears'
  | owner h_other h_flag =>
    rw [← h_bears.unique h_other, h_owner] at h_flag
    exact absurd h_flag (by simp)
  | grants h_other h_grants =>
    rw [← h_bears.unique h_other] at h_grants
    exact .grants h_bears' (h_roles ▸ h_grants.mono (Holds.mono h_ids h_extra))

/-! ### The theorem -/

theorem PanelInv.safe {s : PanelState} (hi : PanelInv s) :
    GateSafe env table PassesOwnNames s := by
  constructor
  case admitted =>
    intro req checkedAt user h
    obtain ⟨h_routed, -, h_meets⟩ := hi.handled_iff.mp ⟨user, h⟩
    rw [RpcRequest.routed, Bool.and_eq_true] at h_routed
    exact ⟨List.contains_iff_mem.mp h_routed.2, h_meets⟩
  case sensitive =>
    intro req checkedAt user permission userId rec h h_req h_sensitive h_bears h_owner
    obtain ⟨-, -, requirement, h_req', h_meets⟩ := hi.handled_iff.mp ⟨user, h⟩
    obtain rfl := Option.some.inj (h_req.symm.trans h_req')
    cases h_meets with
    | owner h_other h_flag =>
      rw [← h_bears.unique h_other, h_owner] at h_flag
      exact absurd h_flag (by simp)
    | grants h_other h_grants =>
      rw [← h_bears.unique h_other] at h_grants
      exact (grants_sensitive h_sensitive).mp h_grants
  case monotone =>
    intro userId op s' out rec rec' h_op h_ok hs _ h_owner h_rec' h_ids h_extra req checkedAt user
      h_bears h
    have hi' : PanelInv s' := hi.step h_ok hs
    obtain ⟨h_roles, h_sessions⟩ := h_op.frame hs
    exact hi.monotone hi' h_roles h_sessions h_owner h_rec' h_ids h_extra h_bears h

/-- An owner and a viewer, with a session of the viewer. -/
def viewerStore : AuthStore where
  users := ⟨[("u0", ⟨"u0", "ada", "h0", true, some [], 0, none, none, none⟩),
    ("u1", ⟨"u1", "bob", "h1", false, some ["viewer"], 0, none, none, none⟩)], by decide⟩
  sessions := ⟨[("t1", ⟨"s1", "u1", 0, 0, none, none⟩)], by decide⟩
  defaults := ⟨none, none, none, none⟩
  dummyHash := ""
  loginFailures := .empty

def viewerStart : PanelStart where
  store := viewerStore
  roleFile := .empty
  own := by
    have h_all : ∀ rec ∈ viewerStore.users.values, OwnIds (rec.roleIds.getD []) := by decide
    exact ⟨fun k rec h => h_all rec (Table.get?_of_mem_values.mpr ⟨k, h⟩), rfl, rfl⟩

def viewerEnv : AuthEnv := ⟨id, fun _ _ => false, fun _ => false⟩

def viewerTable : List String := flattenApiHandlers [("servers", ["list"])]

/-- The viewer lists the hosts. -/
def listHosts : RpcRequest := ⟨"POST", true, "/api/servers/list", some "Bearer t1", none⟩

theorem listHosts_gated :
    opRequirements.get? (commandOf listHosts.pathname) = some (.node "panel.servers.read") :=
  opRequirements_gates (d := panelPermissions.head (by decide)) (by decide) (by decide)

/-- The viewer's record, with other roles. -/
def viewerRecord (roleIds : List String) : UserRecord :=
  ⟨"u1", "bob", "h1", false, some roleIds, 0, none, none, none⟩

theorem viewer_bears (s : PanelState) (h_sessions : s.auth.store.sessions = viewerStore.sessions)
    {rec : UserRecord} (h_rec : s.auth.store.users.get? "u1" = some rec) :
    Bears s listHosts 0 "u1" rec := by
  refine ⟨⟨"t1", ⟨"s1", "u1", 0, 0, none, none⟩, by decide, ?_, rfl, by decide⟩, h_rec⟩
  rw [h_sessions]
  rfl

/-- The viewer may list the hosts. -/
theorem viewer_lists : ∃ user, handleRpc viewerTable viewerStore (.init .empty) listHosts 0 =
    .handled user := by
  have hi : PanelInv (panelMachine viewerEnv viewerTable viewerStart).init := panelInv_init
  refine hi.handled_iff.mpr ⟨by decide, rfl, _, listHosts_gated, ?_⟩
  refine .grants (viewer_bears _ rfl rfl) (.inl (.inl ⟨"viewer", by decide, ?_⟩))
  exact ⟨seedRoles.head (by decide), by decide, by decide⟩

/-- What the viewer holds after a call that sets the roles, and whether the check of the
node throws. -/
def readViewer (p : PanelState × PanelOut) : Option UserRecord × Option (Option Bool) :=
  (p.1.auth.store.users.get? "u1",
    (p.1.auth.store.authenticateUser p.1.roles (bearerToken listHosts.authorization) 0).map
      fun user => userCan user "panel.servers.read")

end ServerCentral.Auth
