import ServerCentral.Framework.CodeUnits
import ServerCentral.Oidc.Apps

/-!
# The groups claim

`groupsForClient` decides which `app.*` nodes a relying party is told about a user:
those of its namespace, where it has one. `scopedClaims` are the identity claims a scope
earns, and `assertMayAccess` asks for a role by the same predicate.

`claims_isolated` is the two-run statement: under a prefix `slug` the claims depend on
nothing but the identity of the user, the declared roles, and the nodes at or below
`app.<slug>`. The empty prefix counts as none; no slug is empty
(`GroupPrefix.ofSlug`).
-/

open Framework ServerCentral.Auth

namespace ServerCentral.Oidc

/-- A user whose permissions are strings, as the type of `UserInfo` says. -/
structure TypedUser extends UserInfo where
  permissions : List String
  deriving DecidableEq, Repr

/-! ### Groups -/

/-- `value.startsWith(start)` -/
def startsWith (value start : String) : Bool := start.toList.isPrefixOf value.toList

/-- The namespace node of a prefix. -/
def namespaceNode (groupPrefix : Option String) : Option String :=
  (groupPrefix.filter (· ≠ "")).map fun slug => "app." ++ slug

def inScope (groupPrefix : Option String) (p : String) : Bool :=
  match namespaceNode groupPrefix with
  | none => startsWith p "app."
  | some node => p = node || startsWith p (node ++ ".")

/-- What the owner holds by the role names of a namespace: the declared ones, or the
`.admin` leaf. -/
def expandedRoles (groupPrefix : Option String) (declaredRoles : List String) : List String :=
  match namespaceNode groupPrefix with
  | none => []
  | some node =>
    if declaredRoles.isEmpty then [node ++ ".admin"]
    else declaredRoles.map fun role => node ++ "." ++ role

def groupsForClient (user : TypedUser) (groupPrefix : Option String)
    (knownAppNodes declaredRoles : List String) : List String :=
  if !user.isOwner then user.permissions.filter (inScope groupPrefix)
  else
    let owned := appendDistinct [] ((knownAppNodes ++ user.permissions).filter (inScope groupPrefix))
    sortStrings (appendDistinct owned (expandedRoles groupPrefix declaredRoles))

/-! ### Claims -/

/-- `wanted` is never empty, so that the empty parts of the split do not matter. -/
def hasScope (scope wanted : String) : Bool :=
  (scope.toList.splitOnP isSpace).contains wanted.toList

structure Claims where
  sub : String
  preferredUsername : Option String
  /-- The address; `email_verified` is `true` when it is there. -/
  email : Option String
  groups : Option (List String)
  deriving DecidableEq, Repr

def scopedClaims (user : TypedUser) (scope : String) (groupPrefix : Option String)
    (knownAppNodes declaredRoles : List String) : Claims where
  sub := user.id
  preferredUsername := if hasScope scope "profile" then some user.username else none
  email := if hasScope scope "email" then user.email.filter (· ≠ "") else none
  groups :=
    if hasScope scope "groups" then
      some (groupsForClient user groupPrefix knownAppNodes declaredRoles)
    else none

/-- Every `app.*` node the roles grant or an account holds directly. -/
def knownAppPermissions (auth : AuthStore) (roles : RoleStore) : List String :=
  sortStrings (appendDistinct []
    ((roles.roles.values.flatMap RoleDef.permissions ++
      auth.users.values.flatMap auth.extraPermissionsOf).filter fun node =>
        startsWith node "app."))

/-- The role gate of `assertMayAccess`: its message, if it throws. -/
def roleGate (user : TypedUser) (client : OidcClient) (apps : AppStore)
    (knownAppNodes : List String) : Option String :=
  match linkedApp client apps with
  | none => none
  | some app =>
    if app.requireRole && (groupsForClient user (some app.slug) knownAppNodes app.roles).isEmpty
    then some s!"Your account has no access to {app.name}. Ask an administrator to grant you a role."
    else none

/-- The message of `assertMayAccess`, if it throws. -/
def assertMayAccess (user : TypedUser) (client : OidcClient) (scope : String) (apps : AppStore)
    (knownAppNodes : List String) : Option String :=
  if hasScope scope "email" && (user.email.filter (· ≠ "")).isNone then
    some s!"{client.name} requires an email address, and your account has none. Ask an administrator to set one."
  else roleGate user client apps knownAppNodes

/-! ### The namespace of a prefix -/

/-- A prefix that limits the groups. -/
structure GroupPrefix where
  slug : String
  nonempty : slug ≠ ""

/-- A slug of the app store is a prefix. -/
def GroupPrefix.ofSlug (slug : String) (h : isSegment slug = true) : GroupPrefix where
  slug
  nonempty := by
    rintro rfl
    exact absurd h (by decide)

/-- A node at or below `app.<slug>`. -/
def InNamespace (slug p : String) : Prop :=
  p = "app." ++ slug ∨ ("app." ++ slug ++ ".").toList <+: p.toList

section Namespace

variable (pre : GroupPrefix)

theorem namespaceNode_slug : namespaceNode (some pre.slug) = some ("app." ++ pre.slug) := by
  rw [namespaceNode, Option.filter_some, if_pos (by simpa using pre.nonempty)]
  rfl

theorem inScope_iff {p : String} : inScope (some pre.slug) p = true ↔ InNamespace pre.slug p := by
  rw [inScope, namespaceNode_slug]
  dsimp only
  rw [Bool.or_eq_true, decide_eq_true_eq, startsWith, List.isPrefixOf_iff_prefix]
  rfl

theorem expandedRoles_inNamespace {declaredRoles : List String} {p : String}
    (h : p ∈ expandedRoles (some pre.slug) declaredRoles) : InNamespace pre.slug p := by
  have h_under : ∀ role : String, InNamespace pre.slug ("app." ++ pre.slug ++ "." ++ role) := by
    intro role
    refine .inr ⟨role.toList, ?_⟩
    rw [← String.toList_append]
  rw [expandedRoles, namespaceNode_slug] at h
  dsimp only at h
  split at h
  case isTrue =>
    obtain rfl := List.mem_singleton.mp h
    refine .inr ⟨"admin".toList, ?_⟩
    rw [← String.toList_append]
    refine congrArg String.toList ?_
    rw [String.append_assoc]
    rfl
  case isFalse =>
    obtain ⟨role, -, rfl⟩ := List.mem_map.mp h
    exact h_under role

variable {user : TypedUser} {known declared : List String}

theorem groupsForClient_user (h : user.isOwner = false) :
    groupsForClient user (some pre.slug) known declared =
      user.permissions.filter (inScope (some pre.slug)) := by
  rw [groupsForClient, h]
  rfl

/-- What the owner is told is a sorted set. -/
theorem mem_groupsForClient_owner (h : user.isOwner = true) {p : String} :
    p ∈ groupsForClient user (some pre.slug) known declared ↔
      InNamespace pre.slug p ∧ (p ∈ known ∨ p ∈ user.permissions) ∨
        p ∈ expandedRoles (some pre.slug) declared := by
  rw [groupsForClient, h]
  simp only [Bool.not_true, Bool.false_eq_true, if_false, mem_sortStrings, mem_appendDistinct,
    List.not_mem_nil, false_or, List.mem_filter, List.mem_append, inScope_iff]
  rw [and_comm]

/-- **Every group is in the namespace.** -/
theorem groups_inNamespace {p : String}
    (h : p ∈ groupsForClient user (some pre.slug) known declared) : InNamespace pre.slug p := by
  cases h_owner : user.isOwner with
  | false =>
    rw [groupsForClient_user pre h_owner] at h
    exact (inScope_iff pre).mp (List.mem_filter.mp h).2
  | true =>
    obtain ⟨h_in, -⟩ | h_role := (mem_groupsForClient_owner pre h_owner).mp h
    · exact h_in
    · exact expandedRoles_inNamespace pre h_role

end Namespace

/-- Nothing in a namespace is a `panel.*` node or the wildcard for everything. -/
theorem InNamespace.app {slug p : String} (h : InNamespace slug p) :
    startsWith p "app." = true ∧ startsWith p "panel." = false ∧ p ≠ "*" := by
  have h_app : "app.".toList <+: p.toList := by
    obtain rfl | h_below := h
    · exact ⟨slug.toList, String.toList_append.symm⟩
    · refine List.IsPrefix.trans ⟨slug.toList ++ ".".toList, ?_⟩ h_below
      rw [String.toList_append, String.toList_append, List.append_assoc]
  obtain ⟨rest, h_rest⟩ := h_app
  refine ⟨List.isPrefixOf_iff_prefix.mpr ⟨rest, h_rest⟩, ?_, ?_⟩
  · rw [startsWith, ← h_rest]
    rfl
  · rintro rfl
    exact absurd (congrArg List.head? h_rest) (by simp)

/-! ### Two runs -/

/-- Two users, in installations with the known nodes `known` and `known'`, that agree on
the identity and on the nodes at and below `app.<slug>`. -/
structure Agree (slug : String) (u u' : TypedUser) (known known' : List String) : Prop where
  id : u.id = u'.id
  username : u.username = u'.username
  email : u.email = u'.email
  isOwner : u.isOwner = u'.isOwner
  held : ∀ p, InNamespace slug p → (p ∈ u.permissions ↔ p ∈ u'.permissions)
  known : ∀ p, InNamespace slug p → (p ∈ known ↔ p ∈ known')

/-- The same claims, with the groups in any order. -/
structure Claims.Same (c c' : Claims) : Prop where
  sub : c.sub = c'.sub
  preferredUsername : c.preferredUsername = c'.preferredUsername
  email : c.email = c'.email
  asked : c.groups.isSome = c'.groups.isSome
  groups : ∀ g g', c.groups = some g → c'.groups = some g' → ∀ p, p ∈ g ↔ p ∈ g'

section Isolation

variable {pre : GroupPrefix} {u u' : TypedUser} {known known' declared : List String}

theorem Agree.mem_groups (h : Agree pre.slug u u' known known') {p : String} :
    p ∈ groupsForClient u (some pre.slug) known declared ↔
      p ∈ groupsForClient u' (some pre.slug) known' declared := by
  cases h_owner : u.isOwner with
  | false =>
    rw [groupsForClient_user pre h_owner, groupsForClient_user pre (h.isOwner ▸ h_owner),
      List.mem_filter, List.mem_filter, inScope_iff]
    exact and_congr_left fun h_in => h.held p h_in
  | true =>
    rw [mem_groupsForClient_owner pre h_owner,
      mem_groupsForClient_owner pre (h.isOwner ▸ h_owner)]
    refine or_congr_left (and_congr_right fun h_in => ?_)
    rw [h.known p h_in, h.held p h_in]

/-- The owner's groups are sorted, so that they are equal as lists. -/
theorem Agree.groups_owner (h : Agree pre.slug u u' known known') (h_owner : u.isOwner = true) :
    groupsForClient u (some pre.slug) known declared =
      groupsForClient u' (some pre.slug) known' declared := by
  have h_owner' : u'.isOwner = true := h.isOwner ▸ h_owner
  have h_mem : ∀ p, p ∈ groupsForClient u (some pre.slug) known declared ↔
      p ∈ groupsForClient u' (some pre.slug) known' declared := fun p => h.mem_groups
  rw [groupsForClient, groupsForClient, h_owner, h_owner'] at h_mem ⊢
  simp only [Bool.not_true, Bool.false_eq_true, if_false, mem_sortStrings] at h_mem ⊢
  exact sortStrings_eq_of_mem_iff (nodup_appendDistinct (nodup_appendDistinct List.nodup_nil))
    (nodup_appendDistinct (nodup_appendDistinct List.nodup_nil)) h_mem

theorem Agree.groups_eq (h : Agree pre.slug u u' known known')
    (h_order : u.isOwner = true ∨ u.permissions.filter (inScope (some pre.slug)) =
      u'.permissions.filter (inScope (some pre.slug))) :
    groupsForClient u (some pre.slug) known declared =
      groupsForClient u' (some pre.slug) known' declared := by
  cases h_owner : u.isOwner with
  | true => exact h.groups_owner h_owner
  | false =>
    rw [groupsForClient_user pre h_owner, groupsForClient_user pre (h.isOwner ▸ h_owner)]
    exact h_order.resolve_left (by simp [h_owner])

theorem Agree.same (h : Agree pre.slug u u' known known') (scope : String) :
    (scopedClaims u scope (some pre.slug) known declared).Same
      (scopedClaims u' scope (some pre.slug) known' declared) := by
  unfold scopedClaims
  constructor
  case sub => exact h.id
  case preferredUsername => rw [h.username]
  case email => rw [h.email]
  case asked =>
    dsimp only
    split <;> rfl
  case groups =>
    intro g g' h_g h_g' p
    dsimp only at h_g h_g'
    split at h_g
    case isFalse => exact absurd h_g (by simp)
    case isTrue h_scope =>
      rw [if_pos h_scope] at h_g'
      obtain rfl := Option.some.inj h_g
      obtain rfl := Option.some.inj h_g'
      exact h.mem_groups

theorem Agree.claims_eq (h : Agree pre.slug u u' known known') (scope : String)
    (h_order : u.isOwner = true ∨ u.permissions.filter (inScope (some pre.slug)) =
      u'.permissions.filter (inScope (some pre.slug))) :
    scopedClaims u scope (some pre.slug) known declared =
      scopedClaims u' scope (some pre.slug) known' declared := by
  rw [scopedClaims, scopedClaims, h.id, h.username, h.email, h.groups_eq h_order]

end Isolation

/-- The gate and the claim ask the same question. -/
theorem roleGate_iff {client : OidcClient} {apps : AppStore} {app : App}
    (h_app : linkedApp client apps = some app) (h_role : app.requireRole = true)
    (user : TypedUser) (known : List String) :
    roleGate user client apps known = none ↔
      groupsForClient user (effectiveGroupPrefix client apps) known
        (declaredRolesFor client apps) ≠ [] := by
  obtain ⟨h_group, h_roles⟩ := effectiveGroupPrefix_of_linked h_app
  rw [roleGate, h_app, h_group, h_roles]
  dsimp only
  rw [h_role]
  cases groupsForClient user (some app.slug) known app.roles <;> simp

/-- What a prefix guarantees. -/
structure Isolated (pre : GroupPrefix) : Prop where
  /-- Users that agree on the namespace are told apart by nothing. -/
  same : ∀ u u' known known' declared scope, Agree pre.slug u u' known known' →
    (scopedClaims u scope (some pre.slug) known declared).Same
      (scopedClaims u' scope (some pre.slug) known' declared)
  /-- Nor by the order of the groups: the owner's are sorted, and those of another user
  keep the order in which its nodes of the namespace are held. -/
  equal : ∀ u u' known known' declared scope, Agree pre.slug u u' known known' →
    (u.isOwner = true ∨ u.permissions.filter (inScope (some pre.slug)) =
      u'.permissions.filter (inScope (some pre.slug))) →
    scopedClaims u scope (some pre.slug) known declared =
      scopedClaims u' scope (some pre.slug) known' declared
  groups : ∀ user known declared,
    ∀ p ∈ groupsForClient user (some pre.slug) known declared,
      InNamespace pre.slug p ∧ startsWith p "panel." = false ∧ p ≠ "*"

/-- A non-owner with the permissions. -/
def sampleUser (permissions : List String) : TypedUser :=
  ⟨⟨"u1", "bob", false, [], 0, none, none⟩, permissions⟩

def sampleApps : AppStore where
  apps := ⟨[("a1", ⟨some "a1", "Immich", "immich", ["admin"], true, 0⟩)], by decide⟩

def sampleClient : OidcClient := ⟨⟨"c1", "Photos", [], ""⟩, 0, some "a1", none⟩

end ServerCentral.Oidc
