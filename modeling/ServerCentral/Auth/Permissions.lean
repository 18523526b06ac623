import Mathlib.Data.Set.Basic
import ServerCentral.Framework.FirstMatch
import ServerCentral.Framework.Table

/-!
# The authorization registry

`PANEL_PERMISSIONS` lists the permission nodes with the operations each one gates, and
`OP_REQUIREMENTS` inverts the list. A held node is a node or a prefix wildcard, and a
*sensitive* node ignores wildcards.

`Grants` says what a set of held nodes is worth: it is stated over sets and prefixes, and
`hasPermission_sound` and `hasPermission_eq` connect the search of the code to it.

Of a definition in the registry only what the gate of the operations reads is kept: the
id, the operations and the mark of the sensitive ones.
-/

open Framework

namespace ServerCentral.Auth

/-! ### The registry -/

structure PermissionDef where
  id : String
  ops : List String
  sensitive : Bool
  deriving DecidableEq, Repr

/-- `PANEL_PERMISSIONS` -/
def panelPermissions : List PermissionDef :=
  [⟨"panel.servers.read", ["servers/list", "servers/getMetricsHistory",
      "servers/redetectCapabilities", "servers/getAgentConfig"], false⟩,
    ⟨"panel.servers.admin", ["servers/delete", "servers/generateInstallCommand",
      "servers/probeInstallPath", "servers/installService"], false⟩,
    ⟨"panel.files.read", ["files/listDir", "files/read"], false⟩,
    ⟨"panel.mounts.read", ["files/getMounts", "files/listDevices"], false⟩,
    ⟨"panel.files.write", ["files/write", "files/upload", "files/createDir", "files/delete",
      "files/rename"], false⟩,
    ⟨"panel.docker.read", ["docker/list", "docker/containerLogs", "docker/overview",
      "docker/containerInspect", "docker/volumeInspect", "docker/imageDefaults"], false⟩,
    ⟨"panel.docker.control", [], false⟩,
    ⟨"panel.docker.deploy", [], false⟩,
    ⟨"panel.docker.prune", ["docker/volumeRemove", "docker/imageAction"], false⟩,
    ⟨"panel.docker.exec", ["docker/containerExec"], true⟩,
    ⟨"panel.compose.read", ["compose/list", "compose/listForHost", "compose/readForHost",
      "compose/getStatus", "compose/getLogs", "compose/validateContent", "compose/detect",
      "compose/getDefaultDir"], false⟩,
    ⟨"panel.compose.write", ["compose/create", "compose/import", "compose/delete",
      "compose/setDefaultDir"], false⟩,
    ⟨"panel.systemd.read", ["systemd/list", "systemd/serviceLogs", "systemd/unitFile"], false⟩,
    ⟨"panel.systemd.write", [], false⟩,
    ⟨"panel.zfs.read", ["zfs/getState", "zfs/getDatasets", "zfs/getSnapshots",
      "zfs/getBlockDevices"], false⟩,
    ⟨"panel.zfs.write", ["zfs/setDatasetProperty"], false⟩,
    ⟨"panel.zfs.admin", [], false⟩,
    ⟨"panel.network.read", ["network/getInfo"], false⟩,
    ⟨"panel.processes.read", ["processes/list"], false⟩,
    ⟨"panel.terminal", [], true⟩,
    ⟨"panel.exec", [], true⟩,
    ⟨"panel.systemUsers.read", ["system-users/list", "system-users/hostStatus"], false⟩,
    ⟨"panel.systemUsers.admin", ["system-users/create", "system-users/setGroups"], true⟩,
    ⟨"panel.tasks.read", ["tasks/list", "tasks/get", "tasks/getLogs"], false⟩,
    ⟨"panel.tasks.run", ["tasks/run"], false⟩,
    ⟨"panel.dashboard.read", ["dashboard/get", "dashboard/fleetSummary"], false⟩,
    ⟨"panel.dashboard.write", ["dashboard/set", "dashboard/reset"], false⟩,
    ⟨"panel.proxy.read", ["proxy/getState"], false⟩,
    ⟨"panel.proxy.admin", ["proxy/setConfig", "proxy/deploy", "proxy/remove",
      "proxy/createRoute", "proxy/updateRoute", "proxy/deleteRoute", "proxy/applyConfig"], false⟩,
    ⟨"panel.settings.read", ["settings/getConfig", "settings/getControlPlaneStatus"], false⟩,
    ⟨"panel.settings.admin", ["settings/setDomain", "settings/setPrimaryUrl",
      "settings/setAllowedOrigins", "settings/setTrustedProxies"], false⟩,
    ⟨"panel.apps.read", ["apps/list"], false⟩,
    ⟨"panel.apps.admin", ["apps/create", "apps/update", "apps/delete"], false⟩,
    ⟨"panel.oidc.read", ["oidc/listClients", "oidc/getProviderInfo"], false⟩,
    ⟨"panel.oidc.admin", ["oidc/createClient", "oidc/updateClient", "oidc/deleteClient",
      "oidc/regenerateSecret"], false⟩,
    ⟨"panel.roles.read", ["auth/listRoles"], false⟩,
    ⟨"panel.roles.admin", ["auth/createRole", "auth/updateRole", "auth/deleteRole",
      "auth/resetRole"], true⟩,
    ⟨"panel.users.read", ["auth/listUsers", "auth/getUserDetail", "oidc/listGrants"], false⟩,
    ⟨"panel.users.admin", ["auth/createUser", "auth/deleteUser", "auth/setUserRoles",
      "auth/revokeUserSession", "auth/adminSetPassword", "auth/setUserSystemUser",
      "auth/setUserPermissions", "auth/setUserEmail", "oidc/revokeGrant"], true⟩
  ]

/-- `PANEL_PERMISSION_IDS` -/
def panelPermissionIds : List String := panelPermissions.map PermissionDef.id

/-- `SENSITIVE_PERMISSIONS` -/
def sensitivePermissions : List String :=
  (panelPermissions.filter PermissionDef.sensitive).map PermissionDef.id

/-- `PUBLIC_OPS` -/
def publicOps : List String := ["auth/getState", "auth/setupOwner", "auth/login"]

/-- `SESSION_OPS` -/
def sessionOps : List String :=
  ["auth/logout", "auth/me", "oidc/getAuthorizeRequest", "oidc/completeAuthorize",
    "oidc/getDeviceRequest", "oidc/approveDevice", "oidc/denyDevice"]

/-- What one operation requires. -/
inductive OpRequirement where
  | publicOp
  | authenticated
  | node (permission : String)
  deriving DecidableEq, Repr

/-- How a requirement is spelled in a message. -/
def OpRequirement.text : OpRequirement → String
  | .publicOp => "public"
  | .authenticated => "authenticated"
  | .node permission => permission

/-- One assignment of the last loop, which throws for an operation that has a requirement. -/
def classify (id : String) (out : Table String OpRequirement) (op : String) :
    Except String (Table String OpRequirement) :=
  match out.get? op with
  | some other => .error s!"Operation \"{op}\" is classified twice: \"{other.text}\" and \"{id}\""
  | none => .ok (out.set op (.node id))

def buildOpRequirements : Except String (Table String OpRequirement) :=
  let unguarded := publicOps.foldl (fun out op => out.set op .publicOp) .empty
  let session := sessionOps.foldl (fun out op => out.set op .authenticated) unguarded
  panelPermissions.foldlM (fun out d => d.ops.foldlM (classify d.id) out) session

/-- `OP_REQUIREMENTS`. No operation is classified twice (`buildOpRequirements_ok`). -/
@[irreducible] def opRequirements : Table String OpRequirement :=
  buildOpRequirements.toOption.getD .empty

theorem buildOpRequirements_ok : buildOpRequirements = .ok opRequirements := by
  have h : buildOpRequirements.toOption.isSome = true := by decide +kernel
  unfold opRequirements
  cases h_build : buildOpRequirements with
  | ok out => rfl
  | error message =>
    rw [h_build] at h
    exact absurd h (by simp [Except.toOption])

/-- The requirements that name a node name one of `ids`. -/
def Declares (ids : List String) (out : Table String OpRequirement) : Prop :=
  ∀ op permission, out.get? op = some (.node permission) → permission ∈ ids

theorem Declares.classify {ids ops : List String} {id : String}
    {out out' : Table String OpRequirement} (h_out : Declares ids out) (h_id : id ∈ ids)
    (h : ops.foldlM (classify id) out = .ok out') : Declares ids out' := by
  induction ops generalizing out with
  | nil =>
    obtain rfl := Except.ok.inj h
    exact h_out
  | cons op ops ih =>
    rw [List.foldlM_cons, ServerCentral.Auth.classify] at h
    cases h_get : out.get? op with
    | some other =>
      rw [h_get] at h
      exact absurd h (by simp [bind, Except.bind])
    | none =>
      rw [h_get] at h
      refine ih (fun op' permission h_op => ?_) h
      obtain ⟨-, h_node⟩ | ⟨-, h_op⟩ := Table.get?_set_eq_some h_op
      · obtain rfl := OpRequirement.node.inj h_node
        exact h_id
      · exact h_out op' permission h_op

theorem Declares.build {ids : List String} {defs : List PermissionDef}
    {out out' : Table String OpRequirement} (h_out : Declares ids out)
    (h_ids : ∀ d ∈ defs, d.id ∈ ids)
    (h : defs.foldlM (fun out d => d.ops.foldlM (ServerCentral.Auth.classify d.id) out) out =
      .ok out') : Declares ids out' := by
  induction defs generalizing out with
  | nil =>
    obtain rfl := Except.ok.inj h
    exact h_out
  | cons d defs ih =>
    rw [List.foldlM_cons] at h
    cases h_d : d.ops.foldlM (ServerCentral.Auth.classify d.id) out with
    | error message =>
      rw [h_d] at h
      exact absurd h (by simp [bind, Except.bind])
    | ok out₁ =>
      rw [h_d] at h
      exact ih (h_out.classify (h_ids d List.mem_cons_self) h_d)
        (fun d' h_d' => h_ids d' (List.mem_cons_of_mem _ h_d')) h

/-- Every requirement is a declared node or one of the two rungs below. -/
theorem opRequirements_declared : Declares panelPermissionIds opRequirements := by
  have h_unguarded : ∀ (ops : List String) (r : OpRequirement) (out : Table String OpRequirement),
      (∀ p, r ≠ .node p) → Declares panelPermissionIds out →
        Declares panelPermissionIds (ops.foldl (fun out op => out.set op r) out) := by
    intro ops r out h_r h_out
    induction ops generalizing out with
    | nil => exact h_out
    | cons op ops ih =>
      refine ih (out.set op r) fun op' permission h_op => ?_
      obtain ⟨-, h_node⟩ | ⟨-, h_op⟩ := Table.get?_set_eq_some h_op
      · exact absurd h_node.symm (h_r permission)
      · exact h_out op' permission h_op
  refine Declares.build ?_ (fun d h_d => List.mem_map_of_mem h_d) buildOpRequirements_ok
  refine h_unguarded _ _ _ (fun p => by simp) (h_unguarded _ _ _ (fun p => by simp) ?_)
  intro op permission h_op
  exact absurd h_op (by simp)

/-- A requirement is not replaced. -/
theorem classify_keeps {ops : List String} {id op : String} {r : OpRequirement}
    {out out' : Table String OpRequirement} (h : ops.foldlM (classify id) out = .ok out')
    (h_op : out.get? op = some r) : out'.get? op = some r := by
  induction ops generalizing out with
  | nil =>
    obtain rfl := Except.ok.inj h
    exact h_op
  | cons op' ops ih =>
    rw [List.foldlM_cons, classify] at h
    cases h_get : out.get? op' with
    | some other =>
      rw [h_get] at h
      exact absurd h (by simp [bind, Except.bind])
    | none =>
      rw [h_get] at h
      refine ih h ?_
      rw [Table.get?_set_of_ne]
      · exact h_op
      · rintro rfl
        exact absurd (h_get.symm.trans h_op) (by simp)

theorem classify_gates {ops : List String} {id op : String}
    {out out' : Table String OpRequirement} (h : ops.foldlM (classify id) out = .ok out')
    (h_op : op ∈ ops) : out'.get? op = some (.node id) := by
  induction ops generalizing out with
  | nil => exact absurd h_op List.not_mem_nil
  | cons op' ops ih =>
    rw [List.foldlM_cons, classify] at h
    cases h_get : out.get? op' with
    | some other =>
      rw [h_get] at h
      exact absurd h (by simp [bind, Except.bind])
    | none =>
      rw [h_get] at h
      obtain rfl | h_op := List.mem_cons.mp h_op
      · exact classify_keeps h (Table.get?_set_self out op (.node id))
      · exact ih h h_op

/-- The last loop keeps every requirement, and gives each node its operations. -/
theorem build_spec {defs : List PermissionDef} {out out' : Table String OpRequirement}
    (h : defs.foldlM (fun out d => d.ops.foldlM (classify d.id) out) out = .ok out')
    {op : String} :
    (∀ r, out.get? op = some r → out'.get? op = some r) ∧
      ∀ d ∈ defs, op ∈ d.ops → out'.get? op = some (.node d.id) := by
  induction defs generalizing out with
  | nil =>
    obtain rfl := Except.ok.inj h
    exact ⟨fun r h_r => h_r, fun d h_mem => absurd h_mem List.not_mem_nil⟩
  | cons d' defs ih =>
    rw [List.foldlM_cons] at h
    cases h_d' : d'.ops.foldlM (classify d'.id) out with
    | error message =>
      rw [h_d'] at h
      exact absurd h (by simp [bind, Except.bind])
    | ok out₁ =>
      rw [h_d'] at h
      obtain ⟨h_keeps, h_gates⟩ := ih h
      refine ⟨fun r h_r => h_keeps r (classify_keeps h_d' h_r), fun d h_mem h_op => ?_⟩
      obtain rfl | h_mem := List.mem_cons.mp h_mem
      · exact h_keeps _ (classify_gates h_d' h_op)
      · exact h_gates d h_mem h_op

/-- **Each node gates its operations.** -/
theorem opRequirements_gates {d : PermissionDef} (h_d : d ∈ panelPermissions) {op : String}
    (h_op : op ∈ d.ops) : opRequirements.get? op = some (.node d.id) :=
  (build_spec buildOpRequirements_ok).2 d h_d h_op

/-! ### Matching -/

/-- `held.endsWith(".*")` -/
def isWildcard (held : String) : Bool := ['.', '*'].isSuffixOf held.toList

/-- Whether one held node satisfies one required node. -/
def permissionMatches (held required : String) : Bool :=
  if held = required then true
  else if held = "*" then true
  else isWildcard held && held.toList.dropLast.isPrefixOf required.toList

/-- The search of `hasPermission`. An entry that is `undefined` has no `endsWith`: reaching
it throws a `TypeError`. -/
def someMatches : List (Option String) → String → Option Bool
  | [], _ => some false
  | none :: _, _ => none
  | some h :: held, required =>
    if permissionMatches h required then some true else someMatches held required

/-- Whether a permission set satisfies a required node; `none` if it throws. -/
def hasPermission (held : List (Option String)) (required : String) : Option Bool :=
  if sensitivePermissions.contains required then some (held.contains (some required))
  else someMatches held required

/-! ### What a set of nodes grants -/

/-- What a held node stands for: itself, everything, or everything below its prefix. -/
inductive Covers : String → String → Prop
  | exact (node : String) : Covers node node
  | all (node : String) : Covers "*" node
  | below (pre rest : String) : Covers (pre ++ ".*") (pre ++ "." ++ rest)

/-- **What a set of held nodes grants**: a sensitive node by name, any other node through
whatever covers it. -/
def Grants (held : Set String) (node : String) : Prop :=
  node ∈ held ∨ node ∉ sensitivePermissions ∧ ∃ h ∈ held, Covers h node

/-- Holding more never grants less. -/
theorem Grants.mono {held held' : Set String} {node : String} (h : Grants held node)
    (h_sub : held ⊆ held') : Grants held' node := by
  obtain h_mem | ⟨h_plain, g, h_g, h_covers⟩ := h
  · exact .inl (h_sub h_mem)
  · exact .inr ⟨h_plain, g, h_sub h_g, h_covers⟩

/-- No wildcard reaches a sensitive node. -/
theorem grants_sensitive {held : Set String} {node : String} (h : node ∈ sensitivePermissions) :
    Grants held node ↔ node ∈ held := by
  constructor
  · rintro (h_mem | ⟨h_plain, -⟩)
    · exact h_mem
    · exact absurd h h_plain
  · exact .inl

theorem covers_below_iff {held node : String} :
    (∃ pre rest, held = pre ++ ".*" ∧ node = pre ++ "." ++ rest) ↔
      isWildcard held = true ∧ held.toList.dropLast.isPrefixOf node.toList = true := by
  rw [isWildcard, List.isSuffixOf_iff_suffix, List.isPrefixOf_iff_prefix]
  constructor
  · rintro ⟨pre, rest, rfl, rfl⟩
    have h_drop : (pre ++ ".*").toList.dropLast = pre.toList ++ ['.'] := by
      rw [String.toList_append, show ".*".toList = ['.'] ++ ['*'] from rfl, ← List.append_assoc,
        List.dropLast_concat]
    refine ⟨⟨pre.toList, by rw [String.toList_append]; rfl⟩, rest.toList, ?_⟩
    rw [h_drop, String.toList_append, String.toList_append]
    rfl
  · rintro ⟨⟨pre, h_pre⟩, rest, h_rest⟩
    have h_drop : held.toList.dropLast = pre ++ ['.'] := by
      rw [← h_pre, show ['.', '*'] = ['.'] ++ ['*'] from rfl, ← List.append_assoc,
        List.dropLast_concat]
    refine ⟨.ofList pre, .ofList rest, String.toList_inj.mp ?_, String.toList_inj.mp ?_⟩
    · rw [String.toList_append, String.toList_ofList, ← h_pre]
      rfl
    · rw [← h_rest, h_drop, String.toList_append, String.toList_append, String.toList_ofList]
      exact congrArg (pre ++ ['.'] ++ ·) String.toList_ofList.symm

/-- **The matcher** decides what a held node stands for. -/
theorem permissionMatches_iff {held required : String} :
    permissionMatches held required = true ↔ Covers held required := by
  rw [permissionMatches]
  split
  case isTrue h_eq =>
    exact ⟨fun _ => h_eq ▸ .exact held, fun _ => rfl⟩
  case isFalse h_ne =>
    split
    case isTrue h_star =>
      exact ⟨fun _ => h_star ▸ .all required, fun _ => rfl⟩
    case isFalse h_star =>
      rw [Bool.and_eq_true, ← covers_below_iff]
      constructor
      · rintro ⟨pre, rest, rfl, rfl⟩
        exact .below pre rest
      · intro h
        cases h with
        | exact => exact absurd rfl h_ne
        | all => exact absurd rfl h_star
        | below pre rest => exact ⟨pre, rest, rfl, rfl⟩

theorem someMatches_sound {held : List (Option String)} {required : String}
    (h : someMatches held required = some true) : ∃ g, some g ∈ held ∧ Covers g required := by
  induction held with
  | nil => exact absurd h (by simp [someMatches])
  | cons g held ih =>
    cases g with
    | none => exact absurd h (by simp [someMatches])
    | some g =>
      rw [someMatches] at h
      split at h
      case isTrue h_match =>
        exact ⟨g, List.mem_cons_self, (permissionMatches_iff).mp h_match⟩
      case isFalse =>
        obtain ⟨g', h_mem, h_covers⟩ := ih h
        exact ⟨g', List.mem_cons_of_mem _ h_mem, h_covers⟩

/-- Without an `undefined` entry the search finds every match. -/
theorem someMatches_complete {held : List (Option String)} {required g : String}
    (h_own : none ∉ held) (h_g : some g ∈ held) (h_covers : Covers g required) :
    someMatches held required = some true := by
  induction held with
  | nil => exact absurd h_g List.not_mem_nil
  | cons h held ih =>
    have h_head : none ≠ h := fun h_eq => h_own (h_eq ▸ List.mem_cons_self)
    have h_tail : none ∉ held := fun h_mem => h_own (List.mem_cons_of_mem _ h_mem)
    cases h with
    | none => exact absurd rfl h_head
    | some h =>
      rw [someMatches]
      by_cases h_match : permissionMatches h required = true
      · rw [if_pos h_match]
      · rw [if_neg h_match]
        refine ih h_tail ?_
        obtain h_eq | h_mem := List.mem_cons.mp h_g
        · obtain rfl := Option.some.inj h_eq
          exact absurd (permissionMatches_iff.mpr h_covers) h_match
        · exact h_mem

/-- **A satisfied check** is backed by what is held, whether or not an entry is
`undefined`. -/
theorem hasPermission_sound {held : List (Option String)} {required : String}
    (h : hasPermission held required = some true) : Grants {p | some p ∈ held} required := by
  rw [hasPermission] at h
  split at h
  case isTrue =>
    have h_mem := Option.some.inj h
    exact .inl (List.contains_iff_mem.mp h_mem)
  case isFalse h_plain =>
    obtain ⟨g, h_g, h_covers⟩ := someMatches_sound h
    exact .inr ⟨fun h_s => h_plain (List.contains_iff_mem.mpr h_s), g, h_g, h_covers⟩

/-- **The check decides what is granted** as long as no entry is `undefined`. -/
theorem hasPermission_complete {held : List (Option String)} {required : String}
    (h_own : none ∉ held) (h : Grants {p | some p ∈ held} required) :
    hasPermission held required = some true := by
  rw [hasPermission]
  split
  case isTrue h_sensitive =>
    have h_mem := (grants_sensitive (List.contains_iff_mem.mp h_sensitive)).mp h
    exact congrArg some (List.contains_iff_mem.mpr h_mem)
  case isFalse =>
    obtain h_mem | ⟨-, g, h_g, h_covers⟩ := h
    · exact someMatches_complete h_own h_mem (.exact required)
    · exact someMatches_complete h_own h_g h_covers

end ServerCentral.Auth
