import ServerCentral.Auth.Permissions
import ServerCentral.Auth.Store

/-!
# Roles

`RoleStore` keeps the named bundles of permission nodes, seeded on first run and edited by
the installation from then on. The methods change the roles in memory and await the write
of the file last, so that each of them is one step.

`this.roles` is a plain object: the ids that every object inherits from
`Object.prototype` resolve to something that is not a role and has no `permissions`
(`RoleStore.slot`).
-/

open Framework

namespace ServerCentral.Auth

/-- A role definition. The `id` is `undefined` when `update` made the record from an
inherited property. -/
structure RoleDef where
  id : Option String
  name : String
  description : String
  permissions : List String
  seeded : Bool
  deriving DecidableEq, Repr

/-- `SEED_ROLES` -/
def seedRoles : List RoleDef :=
  [ { id := some "viewer", name := "Control panel viewer"
      description :=
        "Read-only across the fleet. Can look at anything, change nothing."
      permissions :=
        ["panel.compose.read", "panel.dashboard.read", "panel.docker.read", "panel.mounts.read",
          "panel.network.read", "panel.processes.read", "panel.servers.read",
          "panel.systemd.read", "panel.tasks.read", "panel.zfs.read"]
      seeded := true },
    { id := some "operator", name := "Control panel operator"
      description :=
        "Day-to-day operations: start and stop things, edit files, manage snapshots. No shell, no host enrolment, no settings."
      permissions :=
        ["panel.compose.read", "panel.compose.write", "panel.dashboard.read",
          "panel.dashboard.write", "panel.docker.control", "panel.docker.deploy",
          "panel.docker.prune", "panel.docker.read", "panel.files.read", "panel.files.write",
          "panel.mounts.read", "panel.network.read", "panel.processes.read",
          "panel.servers.read", "panel.systemd.read", "panel.systemd.write", "panel.tasks.read",
          "panel.tasks.run", "panel.zfs.read", "panel.zfs.write"]
      seeded := true },
    { id := some "admin", name := "Control panel admin"
      description :=
        "Everything an operator can do, plus shells, host enrolment and settings. Not account or role management — that stays with the owner."
      permissions :=
        ["panel.compose.read", "panel.compose.write", "panel.dashboard.read",
          "panel.dashboard.write", "panel.docker.control", "panel.docker.deploy",
          "panel.docker.exec", "panel.docker.prune", "panel.docker.read", "panel.exec",
          "panel.files.read", "panel.files.write", "panel.mounts.read", "panel.network.read",
          "panel.apps.admin", "panel.apps.read", "panel.oidc.admin", "panel.oidc.read",
          "panel.processes.read", "panel.proxy.admin", "panel.proxy.read", "panel.roles.read",
          "panel.servers.admin", "panel.servers.read", "panel.settings.admin",
          "panel.settings.read", "panel.systemUsers.admin", "panel.systemUsers.read",
          "panel.systemd.read", "panel.systemd.write", "panel.tasks.read", "panel.tasks.run",
          "panel.terminal", "panel.users.read", "panel.zfs.read", "panel.zfs.write"]
      seeded := true }
  ]

def seedRoleFor (id : String) : Option RoleDef := seedRoles.find? fun r => r.id = some id

def requireName (name : String) : Except String String :=
  if trim name = "" then .error "Role name is required" else .ok (trim name)

/-- The trimmed, non-empty, distinct nodes. A `panel.` node that is not a wildcard must be
in the registry. -/
def validatePermissions (permissions : List String) : Except String (List String) :=
  ((permissions.map trim).filter (· ≠ "")).foldlM (fun out node =>
    if !isValidPermission node then .error ("Invalid permission node: " ++ node)
    else if "panel.".toList.isPrefixOf node.toList && !isWildcard node &&
        !panelPermissionIds.contains node then
      .error ("Unknown permission node: " ++ node)
    else .ok (if out.contains node then out else out ++ [node])) []

/-! ### The store -/

/-- The roles, and the record that `update` under the id `__proto__` has made their
prototype. -/
structure RoleStore where
  roles : Table String RoleDef
  proto : Option RoleDef

namespace RoleStore

/-- `init`: the roles of the file, or the seeds when it has none. -/
def init (file : Table String RoleDef) : RoleStore where
  roles :=
    if file.entries.isEmpty then seedRoles.foldl (fun t r => t.set (r.id.getD "") r) .empty
    else file
  proto := none

/-- `this.roles[id]` -/
def slot (s : RoleStore) (id : String) : Slot RoleDef :=
  match s.roles.get? id with
  | some role => .own role
  | none =>
    match s.proto with
    | none => lookup s.roles id
    | some proto =>
      if id = "__proto__" then .own proto
      else if ["name", "description", "permissions"].contains id then .inherited
      else lookup s.roles id

/-- Whether `get` finds anything truthy. -/
def known (s : RoleStore) (id : String) : Bool :=
  match s.slot id with
  | .own _ => true
  | .inherited => id ≠ "description" || s.proto.any fun proto => proto.description ≠ ""
  | .absent => false

/-- What the role ids resolve to: a role, or (`none`) an object without `permissions`. Ids
that do not exist are skipped. -/
def resolve (s : RoleStore) (roleIds : List String) : List (Option RoleDef) :=
  roleIds.filterMap fun id =>
    match s.slot id with
    | .own role => some (some role)
    | .inherited => some none
    | .absent => none

def create (s : RoleStore) (id name description : String) (permissions : List String) :
    Except String RoleStore :=
  match requireName name with
  | .error message => .error message
  | .ok name =>
    match validatePermissions permissions with
    | .error message => .error message
    | .ok permissions =>
      .ok { s with
        roles := s.roles.set id ⟨some id, name, trim description, permissions, false⟩ }

/-- `this.roles[id] = role` -/
def assign (s : RoleStore) (id : String) (role : RoleDef) : RoleStore :=
  if id = "__proto__" then { s with proto := some role }
  else { s with roles := s.roles.set id role }

def update (s : RoleStore) (id name description : String) (permissions : List String) :
    Except String RoleStore :=
  if !s.known id then .error "Role not found"
  else
    match requireName name with
    | .error message => .error message
    | .ok name =>
      match validatePermissions permissions with
      | .error message => .error message
      | .ok permissions =>
        match s.slot id with
        | .own role =>
          .ok (s.assign id { role with name, description := trim description, permissions })
        | _ => .ok (s.assign id ⟨none, name, trim description, permissions, false⟩)

def delete (s : RoleStore) (roleId : String) (heldBy : ℕ) : Except String RoleStore :=
  if !s.known roleId then .ok s
  else if heldBy > 0 then
    let plural := if heldBy = 1 then "" else "s"
    .error s!"{heldBy} account{plural} still hold this role — remove it from them first"
  else .ok { s with roles := s.roles.erase roleId }

def resetToSeed (s : RoleStore) (roleId : String) : Except String RoleStore :=
  match seedRoleFor roleId with
  | none => .error "Only the roles Server Central ships have a default to reset to"
  | some seed => .ok { s with roles := s.roles.set (seed.id.getD "") seed }

end RoleStore

/-! ### Effective permissions -/

/-- Everything a user effectively holds; an entry is `undefined` (`none`) where a role has
no `permissions`. -/
def effectivePermissions (isOwner : Bool) (roles : List (Option RoleDef)) (extra : List String) :
    List (Option String) :=
  let fromRoles :=
    if isOwner then []
    else roles.flatMap fun
      | some role => role.permissions.map some
      | none => [none]
  appendDistinct (if isOwner then [some "*"] else []) (fromRoles ++ extra.map some)

/-- A user as the permission system sees them. -/
structure AuthUser extends UserInfo where
  permissions : List (Option String)
  deriving DecidableEq, Repr

/-- The authorization check; `none` if it throws. -/
def userCan (user : AuthUser) (required : String) : Option Bool :=
  if user.isOwner then some true else hasPermission user.permissions required

namespace AuthStore

/-- `rec.extraPermissions ?? []` -/
def extraPermissionsOf (s : AuthStore) (rec : UserRecord) : List String :=
  (rec.extraPermissions <|> s.defaults.extraPermissions).getD []

/-- `toUserInfo`, with the permissions. -/
def toAuthUser (s : AuthStore) (roles : RoleStore) (rec : UserRecord) : AuthUser :=
  { s.toUserInfo rec with
    permissions :=
      effectivePermissions rec.isOwner (roles.resolve (s.toUserInfo rec).roleIds)
        (s.extraPermissionsOf rec) }

/-- The user `authenticate` resolves a bearer token to. -/
def authenticateUser (s : AuthStore) (roles : RoleStore) (token : Option String)
    (checkedAt : ℕ) : Option AuthUser :=
  match (token.filter (· ≠ "")).bind fun t => s.sessions.get? t with
  | none => none
  | some session =>
    if checkedAt - session.lastSeenAt > sessionTtlMs then none
    else (s.users.get? session.userId).map (s.toAuthUser roles)

/-- How many accounts hold a role. -/
def countRoleHolders (s : AuthStore) (roleId : String) : ℕ :=
  s.users.values.countP fun rec => (s.toUserInfo rec).roleIds.contains roleId

/-- The user is the one `authenticate` returns. -/
theorem authenticate_eq (s : AuthStore) (roles : RoleStore) (token : Option String)
    (checkedAt seenAt : ℕ) {info : UserInfo} :
    (s.authenticate token checkedAt seenAt).next = .return (.identity (some info)) ↔
      ∃ user, s.authenticateUser roles token checkedAt = some user ∧ user.toUserInfo = info := by
  rw [AuthStore.authenticate, authenticateUser]
  cases h_token : token.filter (· ≠ "") with
  | none => simp
  | some t =>
    cases h_session : s.sessions.get? t with
    | none => simp [h_session]
    | some session =>
      simp only [Option.bind_some, h_session, Option.map_some]
      by_cases h_old : checkedAt - session.lastSeenAt > sessionTtlMs
      · simp [h_old]
      · cases h_user : s.users.get? session.userId with
        | none => simp [h_old]
        | some rec => simp [h_old, toAuthUser]

end AuthStore

/-! ### What an account holds -/

/-- The nodes an account holds: those of its existing roles, and its ad-hoc grants. -/
def Holds (roles : RoleStore) (rec : UserRecord) : Set String :=
  {p | (∃ id ∈ rec.roleIds.getD [], ∃ role, roles.roles.get? id = some role ∧
    p ∈ role.permissions) ∨ p ∈ rec.extraPermissions.getD []}

theorem mem_effectivePermissions {roles : List (Option RoleDef)} {extra : List String}
    {p : Option String} :
    p ∈ effectivePermissions false roles extra ↔
      (p = none ∧ none ∈ roles) ∨
        ∃ node, p = some node ∧ ((∃ role, some role ∈ roles ∧ node ∈ role.permissions) ∨
          node ∈ extra) := by
  simp only [effectivePermissions, Bool.false_eq_true, if_false, mem_appendDistinct,
    List.not_mem_nil, false_or, List.mem_append, List.mem_flatMap, List.mem_map]
  constructor
  · rintro (⟨r, h_r, h_p⟩ | ⟨node, h_node, rfl⟩)
    · cases r with
      | none => exact .inl ⟨List.mem_singleton.mp h_p, h_r⟩
      | some role =>
        obtain ⟨node, h_node, rfl⟩ := List.mem_map.mp h_p
        exact .inr ⟨node, rfl, .inl ⟨role, h_r, h_node⟩⟩
    · exact .inr ⟨node, rfl, .inr h_node⟩
  · rintro (⟨rfl, h_none⟩ | ⟨node, rfl, ⟨role, h_role, h_node⟩ | h_node⟩)
    · exact .inl ⟨none, h_none, List.mem_singleton_self _⟩
    · exact .inl ⟨some role, h_role, List.mem_map_of_mem h_node⟩
    · exact .inr ⟨node, h_node, rfl⟩

end ServerCentral.Auth
