import ServerCentral.Auth.RoleIds

/-!
# The authorization gate

`handleRpc` is the one place every operation passes through: it resolves the bearer token
to an account, computes what the account effectively holds, and runs the handler of the
operation only when the registry's requirement is met.

`panelMachine` runs the account store and the role store side by side under every
interleaving of their methods, together with the requests that pass the gate. What the
operations do is left to the environment: any method may be called at any time.

`authorization_sound` says what the gate admits along the runs in which no call passes
a name that every object inherits; `inherited_role_locks_out` is a run of one step in
which such a name is assigned as a role, and the account loses what it could do before.
-/

open Framework

namespace ServerCentral.Auth

/-! ### The gate -/

/-- `API_PREFIX` -/
def apiPrefix : String := "/api"

/-- What the gate reads of a request, whether its origin is allowed, and the error of
framing its body, if it is a multipart one that has none. -/
structure RpcRequest where
  method : String
  originAllowed : Bool
  pathname : String
  authorization : Option String
  frameError : Option String
  deriving DecidableEq, Repr

/-- The characters `.` does not match. -/
def isLineTerminator (c : Char) : Bool := c.val ∈ [0x0a, 0x0d, 0x2028, 0x2029]

/-- What `\s+(.+)` captures: the white space is taken greedily, down to a last character of
it when nothing else follows. -/
def bearerCapture (header : List Char) : List Char :=
  if (header.dropWhile isSpace).isEmpty then header.drop (max 1 (header.length - 1))
  else header.dropWhile isSpace

/-- What `/^Bearer\s+(.+)$/i` captures. -/
def bearerMatch (header : List Char) : Option (List Char) :=
  if (header.take 6).map Char.toLower ≠ "bearer".toList then none
  else if !(header.drop 6).head?.any isSpace then none
  else if (bearerCapture (header.drop 6)).isEmpty then none
  else if (bearerCapture (header.drop 6)).any isLineTerminator then none
  else some (bearerCapture (header.drop 6))

def bearerToken (authorization : Option String) : Option String :=
  authorization.bind fun header => (bearerMatch header.toList).map String.ofList

/-- `url.pathname.slice(API_PREFIX.length + 1)` -/
def commandOf (pathname : String) : String :=
  .ofList (pathname.toList.drop (apiPrefix.toList.length + 1))

/-- The names of the dispatch table, from the operations of every namespace. -/
def flattenApiHandlers (handlers : List (String × List String)) : List String :=
  handlers.flatMap fun slice => slice.2.map fun op => slice.1 ++ "/" ++ op

inductive Verdict where
  | ok
  | refused (status : ℕ) (error : String)
  deriving DecidableEq, Repr

/-- Resolve a caller's right to run an operation; `none` if the check throws. A registered
operation contains a slash, so that the object lookup finds no inherited property. -/
def authorize (command : String) (user : Option AuthUser) : Option Verdict :=
  match opRequirements.get? command with
  | none => some (.refused 403 "Forbidden")
  | some .publicOp => some .ok
  | some required =>
    match user with
    | none => some (.refused 401 "Unauthorized")
    | some user =>
      match required with
      | .node permission =>
        (userCan user permission).map fun can =>
          if can then .ok else .refused 403 s!"Requires the \"{permission}\" permission"
      | _ => some .ok

/-- The definition as an equation between functions. Its body matches on the table, which the
kernel evaluates when it unfolds `authorize` at an argument. -/
theorem authorize_def : authorize = fun command user =>
    match opRequirements.get? command with
    | none => some (.refused 403 "Forbidden")
    | some .publicOp => some .ok
    | some required =>
      match user with
      | none => some (.refused 401 "Unauthorized")
      | some user =>
        match required with
        | .node permission =>
          (userCan user permission).map fun can =>
            if can then .ok else .refused 403 s!"Requires the \"{permission}\" permission"
        | _ => some .ok := rfl

/-- A gated operation asks for its node. -/
theorem authorize_node {command permission : String} {user : AuthUser}
    (h : opRequirements.get? command = some (.node permission)) :
    authorize command (some user) = (userCan user permission).map fun can =>
      if can then .ok else .refused 403 s!"Requires the \"{permission}\" permission" := by
  rw [authorize_def]
  beta_reduce
  rw [h]

/-- How a request ends, up to the call of the handler. -/
inductive RpcOutcome where
  | refused (status : ℕ) (error : String)
  /-- `authorize` throws. -/
  | threw
  /-- The handler runs, for the user. -/
  | handled (user : Option AuthUser)
  deriving DecidableEq, Repr

/-- Whether a request gets as far as `authenticate`. -/
def RpcRequest.routed (table : List String) (req : RpcRequest) : Bool :=
  req.method = "POST" && req.originAllowed && table.contains (commandOf req.pathname)

/-- The request against the stores as they are when its token is resolved. -/
def handleRpc (table : List String) (auth : AuthStore) (roles : RoleStore) (req : RpcRequest)
    (checkedAt : ℕ) : RpcOutcome :=
  if req.method ≠ "POST" then .refused 405 "Use POST"
  else if !req.originAllowed then .refused 403 "Cross-origin request refused"
  else if !table.contains (commandOf req.pathname) then
    .refused 404 ("Unknown command: " ++ commandOf req.pathname)
  else
    let user := auth.authenticateUser roles (bearerToken req.authorization) checkedAt
    match authorize (commandOf req.pathname) user with
    | none => .threw
    | some (.refused status error) => .refused status error
    | some .ok =>
      match req.frameError with
      | some message => .refused 400 message
      | none => .handled user

/-! ### The machine -/

/-- A method call on the role store, with the id the random source draws. -/
inductive RoleOp where
  | create (id name description : String) (permissions : List String)
  | update (id name description : String) (permissions : List String)
  | delete (roleId : String)
  | resetToSeed (roleId : String)
  deriving DecidableEq, Repr

structure PanelState where
  auth : AuthState
  roles : RoleStore

inductive PanelLabel where
  | auth (l : AuthLabel)
  | role (op : RoleOp)
  | request (req : RpcRequest) (checkedAt seenAt : ℕ)
  deriving DecidableEq, Repr

inductive PanelOut where
  | auth (out : AuthOut)
  | role (error : Option String)
  | rpc (outcome : RpcOutcome)

namespace PanelState

def changeRoles (s : PanelState) : RoleOp → Except String RoleStore
  | .create id name description permissions => s.roles.create id name description permissions
  | .update id name description permissions => s.roles.update id name description permissions
  | .delete roleId => s.roles.delete roleId (s.auth.store.countRoleHolders roleId)
  | .resetToSeed roleId => s.roles.resetToSeed roleId

/-- The random source draws no id that is in use. -/
def FreshRole (s : PanelState) : RoleOp → Prop
  | .create id _ _ _ => id ∉ inheritedNames ∧ id ∉ s.roles.roles.keys
  | _ => True

instance (s : PanelState) (op : RoleOp) : Decidable (s.FreshRole op) := by
  unfold FreshRole
  cases op <;> infer_instance

variable (env : AuthEnv) (table : List String)

def authStep (s : PanelState) (l : AuthLabel) : Option (PanelState × AuthOut) :=
  (s.auth.step { env with roleExists := s.roles.known } l).map fun (auth, out) =>
    ({ s with auth }, out)

def step (s : PanelState) : PanelLabel → Option (PanelState × PanelOut)
  | .auth l => (s.authStep env l).map fun (s', out) => (s', .auth out)
  | .role op =>
    if s.FreshRole op then
      match s.changeRoles op with
      | .ok roles => some ({ s with roles }, .role none)
      | .error message => some (s, .role (some message))
    else none
  | .request req checkedAt seenAt =>
    let outcome := handleRpc table s.auth.store s.roles req checkedAt
    if req.routed table then
      (s.authStep env (.call (.authenticate (bearerToken req.authorization) checkedAt seenAt))).map
        fun (s', _) => (s', .rpc outcome)
    else some (s, .rpc outcome)

end PanelState

/-- What the files of an installation hold: accounts with ids of roles, and no inherited
fields. -/
structure PanelStart where
  store : AuthStore
  roleFile : Table String RoleDef
  own : OwnRoleIds store

/-- **Accounts, roles and requests under every interleaving.** -/
def panelMachine (env : AuthEnv) (table : List String) (start : PanelStart) :
    Machine PanelState PanelLabel PanelOut where
  init := ⟨.loaded start.store, .init start.roleFile⟩
  step s l := s.step env table l

/-- A step that passes no inherited name where a role is named, and not `__proto__` where
the grants of an account or a role are written. -/
def PassesOwnNames (_ : PanelState) : PanelLabel → Prop
  | .auth l => l.OwnNames
  | .role (.update id _ _ _) => id ≠ "__proto__"
  | .role _ => True
  | .request _ _ _ => True

instance (s : PanelState) (l : PanelLabel) : Decidable (PassesOwnNames s l) := by
  unfold PassesOwnNames
  split <;> infer_instance

/-! ### What the gate may admit -/

/-- The bearer token names a live session of an existing account. -/
structure Bears (s : PanelState) (req : RpcRequest) (checkedAt : ℕ) (userId : String)
    (rec : UserRecord) : Prop where
  session : ∃ token session, bearerToken req.authorization = some token ∧
    s.auth.store.sessions.get? token = some session ∧ session.userId = userId ∧
    checkedAt - session.lastSeenAt ≤ sessionTtlMs
  account : s.auth.store.users.get? userId = some rec

/-- Whether a requirement is met by a request. -/
inductive Meets (s : PanelState) (req : RpcRequest) (checkedAt : ℕ) : OpRequirement → Prop
  | publicOp : Meets s req checkedAt .publicOp
  | authenticated {userId : String} {rec : UserRecord} (h : Bears s req checkedAt userId rec) :
      Meets s req checkedAt .authenticated
  | owner {userId : String} {rec : UserRecord} (h : Bears s req checkedAt userId rec)
      (h_owner : rec.isOwner = true) (permission : String) :
      Meets s req checkedAt (.node permission)
  | grants {userId : String} {rec : UserRecord} (h : Bears s req checkedAt userId rec)
      {permission : String} (h_grants : Grants (Holds s.roles rec) permission) :
      Meets s req checkedAt (.node permission)

/-- A call that replaces the roles or the grants of an account. -/
inductive SetsGrants (userId : String) : AuthOp → Prop
  | roles (roleIds : List String) : SetsGrants userId (.setUserRoles userId roleIds)
  | permissions (permissions : List String) :
      SetsGrants userId (.setPermissions userId permissions)

/-- **What the gate guarantees in a state**, with the steps that follow it taken under
`ok`. -/
structure GateSafe (env : AuthEnv) (table : List String) (ok : PanelState → PanelLabel → Prop)
    (s : PanelState) : Prop where
  /-- A handler runs only for a registered operation whose requirement is met. -/
  admitted : ∀ req checkedAt user,
    handleRpc table s.auth.store s.roles req checkedAt = .handled user →
      commandOf req.pathname ∈ table ∧ ∃ requirement,
        opRequirements.get? (commandOf req.pathname) = some requirement ∧
          Meets s req checkedAt requirement
  /-- Of a non-owner, a sensitive node is asked for by name. -/
  sensitive : ∀ req checkedAt user permission userId rec,
    handleRpc table s.auth.store s.roles req checkedAt = .handled user →
      opRequirements.get? (commandOf req.pathname) = some (.node permission) →
      permission ∈ sensitivePermissions → Bears s req checkedAt userId rec →
      rec.isOwner = false → permission ∈ Holds s.roles rec
  /-- An account whose roles and grants become more may do what it could do before. -/
  monotone : ∀ userId op s' out rec rec', SetsGrants userId op → ok s (.auth (.call op)) →
    s.step env table (.auth (.call op)) = some (s', out) →
    s.auth.store.users.get? userId = some rec → rec.isOwner = false →
    s'.auth.store.users.get? userId = some rec' →
    rec.roleIds.getD [] ⊆ rec'.roleIds.getD [] →
    rec.extraPermissions.getD [] ⊆ rec'.extraPermissions.getD [] →
    ∀ req checkedAt user, Bears s req checkedAt userId rec →
      handleRpc table s.auth.store s.roles req checkedAt = .handled user →
        ∃ user', handleRpc table s'.auth.store s'.roles req checkedAt = .handled user'

end ServerCentral.Auth
