import ServerCentral.Oidc.AppLinks

/-!
# App names as permission nodes

The slug of an app and its roles become the permission nodes `app.<slug>`, `app.<slug>.*` and
`app.<slug>.<role>`. `AppStore` checks the names by one pattern; whoever grants a node checks
it by another, `isValidPermission`. A name may begin with a digit and hold `-` and `_`, a
segment of a node may not.

`usable_iff` says of every app the store accepts when its nodes are worth anything: when they
can be granted, and the user who is granted one is told about it and let in.
-/

open Framework ServerCentral.Auth

namespace ServerCentral.Oidc

/-! ### Nodes -/

def appRoleNode (app : App) (role : String) : String := "app." ++ app.slug ++ "." ++ role

/-- The nodes an app and its roles stand for. -/
def appNodes (app : App) : List String :=
  ["app." ++ app.slug, "app." ++ app.slug ++ ".*"] ++ app.roles.map (appRoleNode app)

/-- An app that `create` or `update` has stored. -/
inductive Accepted (toLowerCase : String → String) (app : App) : Prop where
  | created {s s' : AppStore} {id : String} {draft : AppDraft} {now : ℕ}
      (h_create : s.create toLowerCase id draft now = .ok s') (h_get : s'.get id = some app)
  | updated {s s' : AppStore} {id : String} {draft : AppDraft}
      (h_update : s.update toLowerCase id draft = .ok s') (h_get : s'.get id = some app)

theorem Accepted.segments {toLowerCase : String → String} {app : App}
    (h : Accepted toLowerCase app) : App.Segments app := by
  have h_set : ∀ {s : AppStore} {id : String} {app' : App}, App.Segments app' →
      (⟨s.apps.set id app'⟩ : AppStore).get id = some app → App.Segments app := by
    intro s id app' h_named h_get
    rw [AppStore.get, Table.get?_set_self] at h_get
    exact Option.some.inj h_get ▸ h_named
  cases h with
  | created h_create h_get =>
    obtain ⟨app', h_named, rfl⟩ := AppStore.create_ok h_create
    exact h_set h_named h_get
  | updated h_update h_get =>
    obtain ⟨rfl, h_none⟩ | ⟨-, app', h_named, rfl⟩ := AppStore.update_ok h_update
    · exact absurd (h_none.symm.trans h_get) (by simp)
    · exact h_set h_named h_get

/-! ### The two patterns -/

/-- A name that is also a segment of a node: it begins with no digit, and holds neither of the
two separators. -/
structure Plain (name : String) : Prop where
  digit : ∀ c ∈ name.toList.head?, c.isDigit = false
  hyphen : '-' ∉ name.toList
  underscore : '_' ∉ name.toList

/-- What `isValidPermission` asks of a segment. -/
def isWord : List Char → Bool
  | [] => false
  | c :: cs => c.isAlpha && cs.all Char.isAlphanum

theorem isWord_iff {name : String} (h : isSegment name = true) :
    isWord name.toList = true ↔ Plain name := by
  obtain ⟨c, cs, h_name⟩ : ∃ c cs, name.toList = c :: cs := by
    rw [isSegment] at h
    cases h_name : name.toList with
    | nil => rw [h_name] at h; exact absurd h (by simp)
    | cons c cs => exact ⟨c, cs, rfl⟩
  rw [isSegment, h_name] at h
  simp only [Bool.and_eq_true, Bool.or_eq_true, List.all_eq_true, decide_eq_true_eq] at h
  obtain ⟨h_head, h_tail⟩ := h
  rw [h_name, isWord, Bool.and_eq_true, List.all_eq_true]
  have h_letter : ∀ d : Char, d.isAlpha = true → d.isDigit = false := by
    intro d h_d
    delta Char.isAlpha Char.isUpper Char.isLower at h_d
    delta Char.isDigit
    grind
  constructor
  · rintro ⟨h_alpha, h_rest⟩
    have h_not : ∀ d : Char, d.isAlphanum = false → d ∉ name.toList := by
      intro d h_d h_mem
      rw [h_name] at h_mem
      obtain rfl | h_mem := List.mem_cons.mp h_mem
      · simp [Char.isAlphanum, h_alpha] at h_d
      · simp [h_rest d h_mem] at h_d
    constructor
    case digit =>
      intro d h_d
      rw [h_name, List.head?_cons, Option.mem_some_iff] at h_d
      exact h_d ▸ h_letter c h_alpha
    case hyphen => exact h_not '-' (by decide)
    case underscore => exact h_not '_' (by decide)
  · rintro ⟨h_digit, h_hyphen, h_underscore⟩
    rw [h_name] at h_digit h_hyphen h_underscore
    have h_lower : c.isLower = true := h_head.resolve_right (by simp [h_digit c rfl])
    have h_alpha : ∀ d : Char, d.isLower = true → d.isAlpha = true := by
      intro d h_d
      show (d.isUpper || d.isLower) = true
      rw [h_d, Bool.or_true]
    refine ⟨h_alpha c h_lower, fun d h_d => ?_⟩
    have h_ne : d ≠ '_' ∧ d ≠ '-' := by
      constructor
      · rintro rfl
        exact h_underscore (List.mem_cons_of_mem _ h_d)
      · rintro rfl
        exact h_hyphen (List.mem_cons_of_mem _ h_d)
    have h_kind := h_tail d h_d
    simp only [h_ne.1, h_ne.2, or_false] at h_kind
    obtain h_lower | h_digit := h_kind
    · simp [Char.isAlphanum, h_alpha d h_lower]
    · simp [Char.isAlphanum, h_digit]

/-- A segment is visible, and holds none of the characters a node gives a meaning. -/
theorem isSegment_char {name : String} (h : isSegment name = true) :
    ∀ c ∈ name.toList, isSpace c = false ∧ c ≠ '.' ∧ c ≠ '*' := by
  have h_char : ∀ c : Char, c.isLower = true ∨ c.isDigit = true ∨ c = '_' ∨ c = '-' →
      isSpace c = false ∧ c ≠ '.' ∧ c ≠ '*' := by
    rintro c (h_c | h_c | rfl | rfl)
    · delta Char.isLower at h_c
      simp only [Bool.and_eq_true, decide_eq_true_eq, ge_iff_le,
        UInt32.le_iff_toNat_le] at h_c
      change 97 ≤ c.val.toNat ∧ c.val.toNat ≤ 122 at h_c
      refine ⟨isSpace_visible (by omega) (by omega), ?_, ?_⟩
      · rintro rfl
        exact absurd h_c (by decide)
      · rintro rfl
        exact absurd h_c (by decide)
    · simp only [Char.isDigit, Bool.and_eq_true, decide_eq_true_eq, ge_iff_le,
        UInt32.le_iff_toNat_le] at h_c
      change 48 ≤ c.val.toNat ∧ c.val.toNat ≤ 57 at h_c
      refine ⟨isSpace_visible (by omega) (by omega), ?_, ?_⟩
      · rintro rfl
        exact absurd h_c (by decide)
      · rintro rfl
        exact absurd h_c (by decide)
    · decide
    · decide
  rw [isSegment] at h
  cases h_name : name.toList with
  | nil => simp
  | cons d ds =>
    rw [h_name] at h
    simp only [Bool.and_eq_true, Bool.or_eq_true, List.all_eq_true, decide_eq_true_eq] at h
    intro c h_c
    apply h_char
    obtain rfl | h_c := List.mem_cons.mp h_c
    · exact h.1.imp_right .inl
    · have h_kind := h.2 c h_c
      simpa only [or_assoc] using h_kind

/-! ### Segments of a node -/

/-- `isValidPermission` of a node that is given by its segments. -/
theorem isValidPermission_words {node : String} {words : List (List Char)}
    (h_node : node.toList = ['.'].intercalate words) (h_words : ∀ w ∈ words, '.' ∉ w)
    (h_some : words ≠ []) :
    isValidPermission node =
      (node = "*" || words.all isWord ||
        (words.getLast? = some ['*'] && words.length ≠ 1 && words.dropLast.all isWord)) := by
  have h_split : node.toList.splitOn '.' = words := by
    rw [h_node]
    exact List.splitOn_intercalate '.' h_words h_some
  unfold isValidPermission
  rw [h_split]
  rfl

/-- The segments of a node below `app`. -/
theorem isValidPermission_app {node : String} {words : List (List Char)}
    (h_node : node.toList = ['.'].intercalate ("app".toList :: words))
    (h_words : ∀ w ∈ words, '.' ∉ w) (h_some : words ≠ []) :
    isValidPermission node =
      (words.all isWord || (words.getLast? = some ['*'] && words.dropLast.all isWord)) := by
  have h_star : decide (node = "*") = false := by
    refine decide_eq_false ?_
    rintro rfl
    obtain ⟨w, words, rfl⟩ := List.exists_cons_of_ne_nil h_some
    have h_head := congrArg List.head? h_node
    simp [List.intercalate, List.intersperse] at h_head
  rw [isValidPermission_words h_node (by simpa using h_words) (by simp), h_star]
  obtain ⟨w, words, rfl⟩ := List.exists_cons_of_ne_nil h_some
  have h_app : isWord "app".toList = true := by decide
  have h_many : decide (("app".toList :: w :: words).length ≠ 1) = true := by simp
  rw [h_many, List.getLast?_cons_cons, List.dropLast_cons_cons]
  simp only [List.all_cons, h_app, Bool.true_and, Bool.false_or, Bool.and_true]

section Nodes

variable {app : App}

theorem isSegment_word {name : String} (h : isSegment name = true) :
    '.' ∉ name.toList ∧ name.toList ≠ ['*'] := by
  have h_char := isSegment_char h
  refine ⟨fun h_dot => (h_char _ h_dot).2.1 rfl, fun h_star => ?_⟩
  exact (h_char '*' (h_star ▸ List.mem_singleton_self _)).2.2 rfl

theorem valid_namespace (h : isSegment app.slug = true) :
    isValidPermission ("app." ++ app.slug) = true ↔ Plain app.slug := by
  obtain ⟨h_dot, h_star⟩ := isSegment_word h
  rw [@isValidPermission_app _ [app.slug.toList] (by simp [List.intercalate])
    (by simpa using h_dot) (by simp), ← isWord_iff h]
  simp [h_star]

theorem valid_wildcard (h : isSegment app.slug = true) :
    isValidPermission ("app." ++ app.slug ++ ".*") = true ↔ Plain app.slug := by
  obtain ⟨h_dot, -⟩ := isSegment_word h
  rw [@isValidPermission_app _ [app.slug.toList, ['*']] (by simp [List.intercalate])
    (by simpa using h_dot) (by simp), ← isWord_iff h]
  have h_not : isWord ['*'] = false := by decide
  simp [h_not]

theorem valid_role {role : String} (h : isSegment app.slug = true) (h_role : isSegment role = true) :
    isValidPermission (appRoleNode app role) = true ↔ Plain app.slug ∧ Plain role := by
  obtain ⟨h_dot, -⟩ := isSegment_word h
  obtain ⟨h_dot', h_star⟩ := isSegment_word h_role
  rw [@isValidPermission_app _ [app.slug.toList, role.toList]
    (by simp [appRoleNode, List.intercalate]) (by simpa using ⟨h_dot, h_dot'⟩) (by simp),
    ← isWord_iff h, ← isWord_iff h_role]
  simp [h_star]

/-- The nodes of an app are valid exactly if its names are plain. -/
theorem valid_appNodes (h : App.Segments app) :
    (∀ node ∈ appNodes app, isValidPermission node = true) ↔
      Plain app.slug ∧ ∀ role ∈ app.roles, Plain role := by
  constructor
  · intro h_valid
    have h_slug : Plain app.slug := (valid_namespace h.slug).mp (h_valid _ (by simp [appNodes]))
    refine ⟨h_slug, fun role h_role => ?_⟩
    have h_node : appRoleNode app role ∈ appNodes app :=
      List.mem_append_right _ (List.mem_map_of_mem h_role)
    exact ((valid_role h.slug (h.roles role h_role)).mp (h_valid _ h_node)).2
  · rintro ⟨h_slug, h_roles⟩ node h_node
    obtain h_node | h_node := List.mem_append.mp h_node
    · obtain rfl | h_node := List.mem_cons.mp h_node
      · exact (valid_namespace h.slug).mpr h_slug
      · obtain rfl := List.mem_singleton.mp h_node
        exact (valid_wildcard h.slug).mpr h_slug
    · obtain ⟨role, h_role, rfl⟩ := List.mem_map.mp h_node
      exact (valid_role h.slug (h.roles role h_role)).mpr ⟨h_slug, h_roles role h_role⟩

/-- Nothing is trimmed off a node of an app, and it is no node of the panel. -/
theorem appNodes_trim (h : App.Segments app) {node : String} (h_node : node ∈ appNodes app) :
    trim node = node ∧ node ≠ "" ∧ "panel.".toList.isPrefixOf node.toList = false := by
  have h_all : ∃ rest : List Char, node.toList = "app.".toList ++ rest ∧
      ∀ c ∈ rest, isSpace c = false := by
    have h_slug : ∀ c ∈ app.slug.toList, isSpace c = false := fun c h_c =>
      (isSegment_char h.slug c h_c).1
    obtain h_node | h_node := List.mem_append.mp h_node
    · obtain rfl | h_node := List.mem_cons.mp h_node
      · exact ⟨_, String.toList_append, h_slug⟩
      · obtain rfl := List.mem_singleton.mp h_node
        refine ⟨app.slug.toList ++ ".*".toList, by simp, fun c h_c => ?_⟩
        obtain h_c | h_c := List.mem_append.mp h_c
        · exact h_slug c h_c
        · have h_wild : ".*".toList.all fun c => !isSpace c := by decide
          simpa using List.all_eq_true.mp h_wild c h_c
    · obtain ⟨role, h_role, rfl⟩ := List.mem_map.mp h_node
      refine ⟨app.slug.toList ++ ".".toList ++ role.toList, by simp [appRoleNode],
        fun c h_c => ?_⟩
      obtain h_c | h_c := List.mem_append.mp h_c
      · obtain h_c | h_c := List.mem_append.mp h_c
        · exact h_slug c h_c
        · obtain rfl : c = '.' := List.mem_singleton.mp h_c
          decide
      · exact (isSegment_char (h.roles role h_role) c h_c).1
  obtain ⟨rest, h_list, h_rest⟩ := h_all
  have h_visible : ∀ c ∈ node.toList, isSpace c = false := by
    intro c h_c
    rw [h_list] at h_c
    obtain h_c | h_c := List.mem_append.mp h_c
    · have h_app : "app.".toList.all fun c => !isSpace c := by decide
      simpa using List.all_eq_true.mp h_app c h_c
    · exact h_rest c h_c
  refine ⟨trim_visible h_visible, ?_, ?_⟩
  · rintro rfl
    exact absurd (congrArg List.length h_list) (by simp)
  · rw [h_list]
    rfl

end Nodes

/-! ### Granting -/

/-- The nodes can be put on every account and in every role. -/
structure Grantable (nodes : List String) : Prop where
  account : ∀ (s : AuthStore) (userId : String) (rec : UserRecord),
    s.users.get? userId = some rec →
    ∃ rec', (s.setPermissions userId nodes).next = .await .saving ∧
      (s.setPermissions userId nodes).store.users.get? userId = some rec' ∧
      ∀ node ∈ nodes, node ∈ s.extraPermissionsOf rec'
  create : ∀ (s : RoleStore) (id name description : String), trim name ≠ "" →
    ∃ s' role, s.create id name description nodes = .ok s' ∧ s'.slot id = .own role ∧
      ∀ node ∈ nodes, node ∈ role.permissions
  /-- No role has the id `__proto__`. -/
  update : ∀ (s : RoleStore) (id name description : String) (role : RoleDef),
    s.slot id = .own role → id ≠ "__proto__" → trim name ≠ "" →
    ∃ s' role', s.update id name description nodes = .ok s' ∧ s'.slot id = .own role' ∧
      ∀ node ∈ nodes, node ∈ role'.permissions

section Granting

variable {nodes : List String}

/-- The two checks let through what is valid and has nothing to trim. -/
theorem checks_ok (h_valid : ∀ node ∈ nodes, isValidPermission node = true)
    (h_trim : ∀ node ∈ nodes, trim node = node ∧ node ≠ "" ∧
      "panel.".toList.isPrefixOf node.toList = false) :
    AuthStore.cleanPermissions nodes = .ok (appendDistinct [] nodes) ∧
      validatePermissions nodes = .ok (appendDistinct [] nodes) := by
  have h_same : (nodes.map trim).filter (· ≠ "") = nodes := by
    rw [List.map_congr_left (fun node h_node => (h_trim node h_node).1), List.map_id']
    exact List.filter_eq_self.mpr fun node h_node => decide_eq_true (h_trim node h_node).2.1
  constructor
  · have h_none : nodes.find? (fun node => !isValidPermission node) = none := by
      refine List.find?_eq_none.mpr fun node h_node => ?_
      simp [h_valid node h_node]
    unfold AuthStore.cleanPermissions
    rw [h_same]
    dsimp only
    rw [h_none]
    rfl
  · rw [validatePermissions, h_same]
    refine foldlM_eq_ok (fun out node h_node => ?_) []
    rw [h_valid node h_node, (h_trim node h_node).2.2]
    rfl

theorem grantable_of_checks (h_clean : AuthStore.cleanPermissions nodes = .ok (appendDistinct [] nodes))
    (h_validate : validatePermissions nodes = .ok (appendDistinct [] nodes)) : Grantable nodes := by
  have h_mem : ∀ node ∈ nodes, node ∈ appendDistinct [] nodes := fun node h_node =>
    mem_appendDistinct.mpr (.inr h_node)
  constructor
  case account =>
    intro s userId rec h_rec
    have h_own := lookup_own h_rec
    refine ⟨{ rec with extraPermissions := some (appendDistinct [] nodes) }, ?_, ?_, h_mem⟩
    · rw [AuthStore.setPermissions, h_own, h_clean]
      dsimp only
      rw [AuthStore.setFields, h_own]
    · rw [AuthStore.setPermissions, h_own, h_clean]
      dsimp only
      rw [AuthStore.setFields, h_own]
      dsimp only
      rw [Table.get?_modify, h_rec]
      simp
  case create =>
    intro s id name description h_name
    have h_require : requireName name = .ok (trim name) := if_neg h_name
    let role : RoleDef := ⟨some id, trim name, trim description, appendDistinct [] nodes, false⟩
    refine ⟨{ s with roles := s.roles.set id role }, role, ?_, ?_, h_mem⟩
    · rw [RoleStore.create, h_require, h_validate]
    · rw [RoleStore.slot, Table.get?_set_self]
  case update =>
    intro s id name description role h_role h_id h_name
    have h_require : requireName name = .ok (trim name) := if_neg h_name
    have h_known : s.known id = true := by
      rw [RoleStore.known, h_role]
    let role' : RoleDef :=
      { role with
        name := trim name, description := trim description, permissions := appendDistinct [] nodes }
    refine ⟨s.assign id role', role', ?_, ?_, h_mem⟩
    · rw [RoleStore.update, h_known, h_require, h_validate, h_role]
      rfl
    · rw [RoleStore.assign, if_neg h_id, RoleStore.slot, Table.get?_set_self]

end Granting

/-! ### What a grant is worth -/

/-- An account holds a node directly or by a role. -/
def Granted (s : AuthStore) (roles : RoleStore) (rec : UserRecord) (node : String) : Prop :=
  node ∈ s.extraPermissionsOf rec ∨
    ∃ role, some role ∈ roles.resolve (s.toUserInfo rec).roleIds ∧ node ∈ role.permissions

/-- The user is told to a client of an app to have a role of it, and passes its gate. -/
structure Admitted (app : App) (role : String) (user : TypedUser) : Prop where
  told : ∀ apps client known, linkedApp client apps = some app →
    appRoleNode app role ∈ groupsForClient user (effectiveGroupPrefix client apps) known
      (declaredRolesFor client apps)
  gate : ∀ apps client known, linkedApp client apps = some app →
    roleGate user client apps known = none

/-- The user as the clients see an account. -/
structure IsUser (s : AuthStore) (roles : RoleStore) (rec : UserRecord) (user : TypedUser) :
    Prop where
  info : user.toUserInfo = s.toUserInfo rec
  permissions : user.permissions.map some = (s.toAuthUser roles rec).permissions

theorem granted_admitted {app : App} (h_app : App.Segments app) {role : String}
    (h_role : role ∈ app.roles) {s : AuthStore} {roles : RoleStore} {rec : UserRecord}
    {user : TypedUser} (h_user : IsUser s roles rec user)
    (h_granted : Granted s roles rec (appRoleNode app role)) : Admitted app role user := by
  have h_owner_eq : user.isOwner = rec.isOwner := by
    rw [h_user.info]
    rfl
  obtain ⟨pre, h_pre⟩ : ∃ pre : GroupPrefix, pre.slug = app.slug :=
    ⟨.ofSlug app.slug h_app.slug, rfl⟩
  have h_expanded : appRoleNode app role ∈ expandedRoles (some app.slug) app.roles := by
    rw [← h_pre, expandedRoles, namespaceNode_slug pre]
    dsimp only
    rw [if_neg (by simpa using List.ne_nil_of_mem h_role), h_pre]
    exact List.mem_map_of_mem h_role
  have h_in : InNamespace pre.slug (appRoleNode app role) :=
    expandedRoles_inNamespace pre (h_pre ▸ h_expanded)
  have h_told : ∀ known,
      appRoleNode app role ∈ groupsForClient user (some app.slug) known app.roles := by
    intro known
    cases h_owner : user.isOwner with
    | true =>
      -- The owner's groups hold the declared roles, whatever else the account was granted.
      rw [← h_pre] at h_expanded ⊢
      exact (mem_groupsForClient_owner pre h_owner).mpr (.inr h_expanded)
    | false =>
      have h_held : some (appRoleNode app role) ∈ user.permissions.map some := by
        rw [h_user.permissions]
        show _ ∈ effectivePermissions rec.isOwner _ _
        rw [← h_owner_eq, h_owner]
        refine mem_effectivePermissions.mpr (.inr ⟨_, rfl, ?_⟩)
        exact h_granted.symm
      obtain ⟨node, h_node, h_eq⟩ := List.mem_map.mp h_held
      obtain rfl := Option.some.inj h_eq
      rw [← h_pre, groupsForClient_user pre h_owner]
      exact List.mem_filter.mpr ⟨h_node, (inScope_iff pre).mpr h_in⟩
  constructor
  case told =>
    intro apps client known h_link
    obtain ⟨h_lead, h_roles⟩ := effectiveGroupPrefix_of_linked h_link
    rw [h_lead, h_roles]
    exact h_told known
  case gate =>
    intro apps client known h_link
    have h_some : (groupsForClient user (some app.slug) known app.roles).isEmpty = false := by
      simpa using List.ne_nil_of_mem (h_told known)
    rw [roleGate, h_link]
    dsimp only
    rw [h_some, Bool.and_false]
    rfl

/-- What the names of an app are good for, at every grantor and every reader. -/
structure Usable (app : App) : Prop where
  valid : ∀ node ∈ appNodes app, isValidPermission node = true
  grantable : ∀ nodes ⊆ appNodes app, Grantable nodes
  admitted : ∀ role ∈ app.roles, ∀ s roles rec user, IsUser s roles rec user →
    Granted s roles rec (appRoleNode app role) → Admitted app role user

/-- **App names.** The nodes of an app the store has accepted are usable exactly if its slug
and its roles are plain. -/
theorem usable_iff (toLowerCase : String → String) (app : App) (h : Accepted toLowerCase app) :
    Usable app ↔ Plain app.slug ∧ ∀ role ∈ app.roles, Plain role := by
  have h_segments := h.segments
  rw [← valid_appNodes h_segments]
  constructor
  · exact Usable.valid
  · intro h_valid
    constructor
    case valid => exact h_valid
    case grantable =>
      intro nodes h_nodes
      obtain ⟨h_clean, h_validate⟩ := checks_ok (fun node h_node => h_valid node (h_nodes h_node))
        fun node h_node => appNodes_trim h_segments (h_nodes h_node)
      exact grantable_of_checks h_clean h_validate
    case admitted =>
      intro role h_role s roles rec user h_user h_granted
      exact granted_admitted h_segments h_role h_user h_granted

/-- The draft of an app with one role. -/
def sampleDraft (slug : String) : AppDraft := ⟨"Home", slug, ["admin"], true⟩

theorem usable_iff_sample :
    Accepted id ⟨some "a1", "Home", "immich", ["admin"], true, 0⟩ ∧
      (Usable ⟨some "a1", "Home", "immich", ["admin"], true, 0⟩ ↔
        Plain "immich" ∧ ∀ role ∈ ["admin"], Plain role) := by
  have h_accepted : Accepted id ⟨some "a1", "Home", "immich", ["admin"], true, 0⟩ :=
    @Accepted.created _ _ ⟨.empty⟩ _ "a1" (sampleDraft "immich") 0 rfl rfl
  exact ⟨h_accepted, usable_iff id _ h_accepted⟩

/-- A slug with a hyphen is accepted. None of its nodes is valid, and neither an account nor
a role can be given the one of its role. -/
theorem hyphen_not_grantable :
    (∃ app : App, Accepted id app ∧ app.slug = "home-assistant" ∧ app.roles = ["admin"] ∧
      (∀ node ∈ appNodes app, isValidPermission node = false) ∧ ¬ Usable app) ∧
    AuthStore.cleanPermissions ["app.home-assistant.admin"] =
      .error "Invalid permission node: app.home-assistant.admin" ∧
    validatePermissions ["app.home-assistant.admin"] =
      .error "Invalid permission node: app.home-assistant.admin" := by
  refine ⟨⟨⟨some "a1", "Home", "home-assistant", ["admin"], true, 0⟩, ?_, rfl, rfl, ?_⟩, ?_, ?_⟩
  · exact @Accepted.created _ _ ⟨.empty⟩ _ "a1" (sampleDraft "home-assistant") 0 rfl rfl
  · have h_invalid : ∀ node ∈ appNodes ⟨some "a1", "Home", "home-assistant", ["admin"], true, 0⟩,
        isValidPermission node = false := by
      decide +kernel
    refine ⟨h_invalid, fun h_usable => ?_⟩
    have h_valid := h_usable.valid "app.home-assistant" (by decide +kernel)
    rw [h_invalid "app.home-assistant" (by decide +kernel)] at h_valid
    exact absurd h_valid (by simp)
  · decide +kernel
  · decide +kernel

end ServerCentral.Oidc
