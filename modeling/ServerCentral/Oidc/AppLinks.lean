import ServerCentral.Framework.Failing
import ServerCentral.Oidc.Claims

/-!
# The link from a client to its app

Apps and client registrations are edited by independent operations. Deleting an app is
refused while a client points at it, since a client without its app is told every
`app.*` node of a user and skips the role gate. The other end of the link is not checked:
`createClient` awaits the hash of the secret between reading the `appId` and storing the
client, and neither it nor `updateClient` looks the app up.

`linkMachine` runs the operations in every order, cut at that await; `links_kept` is what
holds along the runs that store existing links only, and `link_dangles` a run in which
an app is deleted while a client of it is being created.
-/

open Framework ServerCentral.Auth

namespace ServerCentral.Oidc

/-- The lower-casing of names, and which texts `new URL` accepts. -/
structure LinkEnv where
  toLowerCase : String → String
  isUrl : String → Bool

def assertClientName (name : String) : Except String String :=
  if trim name = "" then .error "Client name is required" else .ok (trim name)

/-- The trimmed, non-empty URIs, or the message about one that is none. -/
def assertRedirectUris (isUrl : String → Bool) (redirectUris : List String) :
    Except String (List String) :=
  let uris := (redirectUris.map trim).filter (· ≠ "")
  match uris.find? fun uri => !isUrl uri with
  | some uri => .error s!"Invalid redirect URI: {uri}"
  | none => .ok uris

/-- What `createClient` has of the record before it awaits the hash. -/
structure ClientDraft where
  id : String
  name : String
  redirectUris : List String
  appId : Option String
  deriving DecidableEq, Repr

/-- The two stores, the calls of `createClient` that await the hash, the number of calls
so far, and the ids in use. -/
structure LinkState where
  apps : AppStore
  clients : Table String OidcClient
  tasks : Table ℕ ClientDraft
  calls : ℕ
  minted : List String

inductive LinkLabel where
  | createApp (id : String) (draft : AppDraft) (now : ℕ)
  | updateApp (id : String) (draft : AppDraft)
  | deleteApp (appId : String)
  | createClient (id name : String) (redirectUris : List String) (appId : Option String)
  /-- The hash of a secret is there, or its promise has rejected. -/
  | hashed (task : ℕ) (secretHash : Except String String) (now : ℕ)
  | updateClient (id name : String) (redirectUris : List String) (appId : Option String)
  | deleteClient (clientId : String)
  /-- The two operations of the browser half. What the account store knows at that moment
  comes with the label. -/
  | completeAuthorize (user : TypedUser) (params : OidcAuthorizeParams) (known : List String)
  | approveDevice (user : TypedUser) (clientId scope : String) (known : List String)

namespace LinkState

variable (env : LinkEnv)

/-! ### Operations -/

/-- How many clients point at an app. -/
def referencing (s : LinkState) (appId : String) : ℕ :=
  s.clients.values.countP fun c => c.appId = some appId

/-- `createClient` up to its await of the hash. An empty id is no id. -/
def createClient (s : LinkState) (id name : String) (redirectUris : List String)
    (appId : Option String) : Except String LinkState := do
  let name ← assertClientName name
  let redirectUris ← assertRedirectUris env.isUrl redirectUris
  .ok { s with
    tasks := s.tasks.set s.calls ⟨id, name, redirectUris, appId.filter (· ≠ "")⟩
    calls := s.calls + 1 }

/-- The rest of `createClient`. -/
def storeClient (s : LinkState) (draft : ClientDraft) (secretHash : String) (createdAt : ℕ) :
    LinkState :=
  { s with
    clients := s.clients.set draft.id
      ⟨⟨draft.id, draft.name, draft.redirectUris, secretHash⟩, createdAt, draft.appId, none⟩ }

/-- Edit a registration in place. A record made from an inherited property has no id, no
secret and no date, which are empty here; under `__proto__` no record is written. -/
def updateClient (s : LinkState) (id name : String) (redirectUris : List String)
    (appId : Option String) : Except String LinkState :=
  match lookup s.clients id with
  | .absent => .error "Unknown client"
  | slot => do
    let name ← assertClientName name
    let redirectUris ← assertRedirectUris env.isUrl redirectUris
    match slot with
    | .own client =>
      .ok { s with clients := s.clients.set id { client with name, redirectUris, appId } }
    | _ =>
      .ok (if id = "__proto__" then s
        else { s with clients := s.clients.set id ⟨⟨"", name, redirectUris, ""⟩, 0, appId, none⟩ })

def deleteClient (s : LinkState) (clientId : String) : LinkState :=
  { s with clients := s.clients.erase clientId }

/-- `completeAuthorize` up to the code it issues for the client. -/
def completeAuthorize (s : LinkState) (user : TypedUser) (params : OidcAuthorizeParams)
    (known : List String) : Except String OidcClient :=
  match (OidcStore.mk (s.clients.map OidcClient.toOidcClientRecord) .empty).validateRequest params
  with
  | .error message => .error message
  | .ok _ =>
    match s.clients.get? params.clientId with
    | none => .error "Unknown client"
    | some client =>
      match assertMayAccess user client params.scope s.apps known with
      | some message => .error message
      | none => .ok client

/-- `approveDevice` for a pending request of the client. -/
def approveDevice (s : LinkState) (user : TypedUser) (clientId scope : String)
    (known : List String) : Except String OidcClient :=
  match s.clients.get? clientId with
  | none => .error "The app that requested this code is no longer registered."
  | some client =>
    match assertMayAccess user client scope s.apps known with
    | some message => .error message
    | none => .ok client

/-! ### Steps -/

/-- A state after a call that may throw. -/
def commit (s : LinkState) : Except String LinkState → LinkState × Option String
  | .ok s' => (s', none)
  | .error message => (s, some message)

/-- The random source never repeats itself. -/
def Fresh (s : LinkState) : LinkLabel → Prop
  | .createApp id _ _ => id ∉ s.minted
  | .createClient id _ _ _ => id ∉ s.minted
  | _ => True

instance (s : LinkState) (l : LinkLabel) : Decidable (s.Fresh l) := by
  unfold Fresh
  cases l <;> infer_instance

/-- The ids a label draws. -/
def draws : LinkLabel → List String
  | .createApp id _ _ => [id]
  | .createClient id _ _ _ => [id]
  | _ => []

/-- The stores after a label, and the message of its error. -/
def run (s : LinkState) : LinkLabel → Option (LinkState × Option String)
  | .createApp id draft now =>
    some (s.commit ((s.apps.create env.toLowerCase id draft now).map fun apps => { s with apps }))
  | .updateApp id draft =>
    some (s.commit ((s.apps.update env.toLowerCase id draft).map fun apps => { s with apps }))
  | .deleteApp appId =>
    some (s.commit ((s.apps.delete appId (s.referencing appId)).map fun apps => { s with apps }))
  | .createClient id name redirectUris appId =>
    some (s.commit (s.createClient env id name redirectUris appId))
  | .hashed task secretHash now =>
    (s.tasks.get? task).map fun draft =>
      let done := { s with tasks := s.tasks.erase task }
      match secretHash with
      | .ok hash => (done.storeClient draft hash now, none)
      | .error message => (done, some message)
  | .updateClient id name redirectUris appId =>
    some (s.commit (s.updateClient env id name redirectUris appId))
  | .deleteClient clientId => some (s.deleteClient clientId, none)
  | .completeAuthorize user params known =>
    some (s.commit ((s.completeAuthorize user params known).map fun _ => s))
  | .approveDevice user clientId scope known =>
    some (s.commit ((s.approveDevice user clientId scope known).map fun _ => s))

def step (s : LinkState) (l : LinkLabel) : Option (LinkState × Option String) :=
  if s.Fresh l then
    (s.run env l).map fun (s', error) => ({ s' with minted := draws l ++ s.minted }, error)
  else none

end LinkState

/-- What the files hold: apps with slugs and non-empty ids, and clients of these apps. -/
structure LinkStart where
  apps : AppStore
  clients : Table String OidcClient
  slugs : ∀ id app, apps.get id = some app → isSegment app.slug = true ∧ id ≠ ""
  links : ∀ id client, clients.get? id = some client → ∀ appId, client.appId = some appId →
    ∃ app, apps.get appId = some app

/-- **Apps and clients under every interleaving.** -/
def linkMachine (env : LinkEnv) (start : LinkStart) :
    Machine LinkState LinkLabel (Option String) where
  init := ⟨start.apps, start.clients, .empty, 0,
    "" :: inheritedNames ++ start.apps.apps.keys ++ start.clients.keys⟩
  step s l := s.step env l

/-- A step that stores no link to an app that does not exist. -/
def LinksExisting (s : LinkState) : LinkLabel → Prop
  | .hashed task _ _ => ∀ appId, (s.tasks.get? task).bind ClientDraft.appId = some appId →
    (s.apps.get appId).isSome = true
  | .updateClient _ _ _ appId => ∀ id, appId = some id → (s.apps.get id).isSome = true
  | _ => True

instance (s : LinkState) (l : LinkLabel) : Decidable (LinksExisting s l) := by
  unfold LinksExisting
  cases l <;> infer_instance

/-- **What a link is for**, in a state. -/
structure LinkSafe (s : LinkState) : Prop where
  linked : ∀ id client, s.clients.get? id = some client → ∀ appId, client.appId = some appId →
    ∃ app, s.apps.get appId = some app
  /-- The groups of a linked client are nodes of its app. -/
  groups : ∀ id client, s.clients.get? id = some client → ∀ appId, client.appId = some appId →
    ∃ app, s.apps.get appId = some app ∧
      ∀ user known, ∀ p ∈ groupsForClient user (effectiveGroupPrefix client s.apps) known
        (declaredRolesFor client s.apps), InNamespace app.slug p
  /-- Nobody passes either operation of the browser half without a role the app asks
  for. -/
  authorize : ∀ user params known client, s.completeAuthorize user params known = .ok client →
    ∀ appId, client.appId = some appId → ∃ app, s.apps.get appId = some app ∧
      (app.requireRole = true → groupsForClient user (some app.slug) known app.roles ≠ [])
  approve : ∀ user clientId scope known client,
    s.approveDevice user clientId scope known = .ok client →
    ∀ appId, client.appId = some appId → ∃ app, s.apps.get appId = some app ∧
      (app.requireRole = true → groupsForClient user (some app.slug) known app.roles ≠ [])

/-! ### The invariant -/

section Invariant

variable {env : LinkEnv} {start : LinkStart}

structure LinkInv (s : LinkState) : Prop where
  slugs : ∀ id app, s.apps.get id = some app → isSegment app.slug = true ∧ id ≠ ""
  links : ∀ id client, s.clients.get? id = some client → ∀ appId, client.appId = some appId →
    ∃ app, s.apps.get appId = some app
  minted : "" ∈ s.minted

theorem linkInv_init : LinkInv (linkMachine env start).init := by
  constructor
  case slugs => exact start.slugs
  case links => exact start.links
  case minted => exact List.mem_cons_self

theorem assertSlug_ok {toLowerCase : String → String} {slug slug' : String}
    (h : AppStore.assertSlug toLowerCase slug = .ok slug') : isSegment slug' = true := by
  rw [AppStore.assertSlug] at h
  split at h
  case isTrue h_seg => exact Except.ok.inj h ▸ h_seg
  case isFalse => exact absurd h (by simp)

theorem assertRoles_ok {toLowerCase : String → String} {roles roles' : List String}
    (h : AppStore.assertRoles toLowerCase roles = .ok roles') :
    ∀ role ∈ roles', isSegment role = true := by
  refine foldlM_induction (motive := fun out => ∀ role ∈ out, isSegment role = true) ?_ h (by simp)
  intro out raw out' h_out h_step
  dsimp only at h_step
  split at h_step
  · exact Except.ok.inj h_step ▸ h_out
  split at h_step
  · exact absurd h_step (by simp)
  next h_segment =>
    have h_segment : isSegment (toLowerCase (trim raw)) = true := by simpa using h_segment
    obtain rfl := Except.ok.inj h_step
    intro role h_role
    split at h_role
    · exact h_out role h_role
    · obtain h_old | h_new := List.mem_append.mp h_role
      · exact h_out role h_old
      · exact List.mem_singleton.mp h_new ▸ h_segment

/-- What `create` stores. -/
theorem AppStore.create_stored {toLowerCase : String → String} {s s' : AppStore} {id : String}
    {draft : AppDraft} {now : ℕ} (h : s.create toLowerCase id draft now = .ok s') :
    ∃ name slug roles, assertSlug toLowerCase draft.slug = .ok slug ∧
      s.assertSlugFree slug none = none ∧ assertRoles toLowerCase draft.roles = .ok roles ∧
      s' = ⟨s.apps.set id ⟨some id, name, slug, roles, draft.requireRole, now⟩⟩ := by
  obtain ⟨name, -, h⟩ := bind_eq_ok h
  obtain ⟨slug, h_slug, h⟩ := bind_eq_ok h
  obtain ⟨roles, h_roles, h⟩ := bind_eq_ok h
  split at h
  · exact absurd h (by simp)
  next h_free => exact ⟨name, slug, roles, h_slug, h_free, h_roles, (Except.ok.inj h).symm⟩

/-- What a created app is called. -/
theorem AppStore.create_ok {toLowerCase : String → String} {s s' : AppStore} {id : String}
    {draft : AppDraft} {now : ℕ} (h : s.create toLowerCase id draft now = .ok s') :
    ∃ app, App.Segments app ∧ s' = ⟨s.apps.set id app⟩ := by
  obtain ⟨name, slug, roles, h_slug, -, h_roles, rfl⟩ := create_stored h
  exact ⟨_, ⟨assertSlug_ok h_slug, assertRoles_ok h_roles⟩, rfl⟩

/-- What `update` stores, by what it found under the id. -/
theorem AppStore.replace_ok {toLowerCase : String → String} {s s' : AppStore} {slot : Slot App}
    {id : String} {draft : AppDraft} (h : s.replace toLowerCase slot id draft = .ok s') :
    ∃ name slug roles, assertSlug toLowerCase draft.slug = .ok slug ∧
      s.assertSlugFree slug (some id) = none ∧ assertRoles toLowerCase draft.roles = .ok roles ∧
      ((∃ app, slot = .own app ∧ s' = ⟨s.apps.set id
          { app with name, slug, roles, requireRole := draft.requireRole }⟩) ∨
        slot = .inherited ∧ (id = "__proto__" ∧ s' = s ∨
          s' = ⟨s.apps.set id ⟨none, name, slug, roles, draft.requireRole, 0⟩⟩)) := by
  cases slot with
  | absent => exact absurd h (by simp [replace])
  | own app =>
    obtain ⟨slug, h_slug, h⟩ := bind_eq_ok h
    split at h
    · exact absurd h (by simp)
    next h_free =>
      obtain ⟨name, -, h⟩ := bind_eq_ok h
      obtain ⟨roles, h_roles, h⟩ := bind_eq_ok h
      exact ⟨name, slug, roles, h_slug, h_free, h_roles, .inl ⟨app, rfl, (Except.ok.inj h).symm⟩⟩
  | inherited =>
    obtain ⟨slug, h_slug, h⟩ := bind_eq_ok h
    split at h
    · exact absurd h (by simp)
    next h_free =>
      obtain ⟨name, -, h⟩ := bind_eq_ok h
      obtain ⟨roles, h_roles, h⟩ := bind_eq_ok h
      refine ⟨name, slug, roles, h_slug, h_free, h_roles, .inr ⟨rfl, ?_⟩⟩
      have h_stored := Except.ok.inj h
      split at h_stored
      next h_proto => exact .inl ⟨h_proto, h_stored.symm⟩
      next => exact .inr h_stored.symm

/-- What an updated app is called; its id finds something. -/
theorem AppStore.update_ok {toLowerCase : String → String} {s s' : AppStore} {id : String}
    {draft : AppDraft} (h : s.update toLowerCase id draft = .ok s') :
    (s' = s ∧ s.get id = none) ∨ ((∃ app, s.get id = some app) ∨ id ∈ inheritedNames) ∧
      ∃ app, App.Segments app ∧ s' = ⟨s.apps.set id app⟩ := by
  obtain ⟨name, slug, roles, h_slug, -, h_roles, h_stored⟩ := replace_ok h
  obtain ⟨app, h_slot, rfl⟩ | ⟨h_slot, ⟨-, rfl⟩ | rfl⟩ := h_stored
  · exact .inr ⟨.inl ⟨app, get?_of_lookup h_slot⟩, _,
      ⟨assertSlug_ok h_slug, assertRoles_ok h_roles⟩, rfl⟩
  · refine .inl ⟨rfl, ?_⟩
    cases h_get : s'.get id with
    | none => rfl
    | some app => exact absurd (h_slot.symm.trans (lookup_own h_get)) (by simp)
  · exact .inr ⟨.inr (inherited_of_lookup h_slot), _,
      ⟨assertSlug_ok h_slug, assertRoles_ok h_roles⟩, rfl⟩

/-- An app that is deleted is referenced by nobody. -/
theorem AppStore.remove_ok {s s' : AppStore} {slot : Slot App} {appId : String}
    {referenceCount : ℕ} (h : s.remove slot appId referenceCount = .ok s') :
    s' = s ∨ referenceCount = 0 ∧ s' = ⟨s.apps.erase appId⟩ := by
  have h_zero : slot ≠ .absent → ¬ referenceCount > 0 := by
    intro h_found h_referenced
    cases slot with
    | absent => exact h_found rfl
    | _ => exact absurd h (by simp [remove, h_referenced])
  cases slot with
  | absent => exact .inl (Except.ok.inj h).symm
  | _ =>
    have h_zero := h_zero (by simp)
    simp only [remove, if_neg h_zero] at h
    exact .inr ⟨by omega, (Except.ok.inj h).symm⟩

theorem AppStore.delete_ok {s s' : AppStore} {appId : String} {referenceCount : ℕ}
    (h : s.delete appId referenceCount = .ok s') :
    s' = s ∨ referenceCount = 0 ∧ s' = ⟨s.apps.erase appId⟩ :=
  remove_ok h

theorem referencing_zero {s : LinkState} {appId : String} (h : s.referencing appId = 0)
    {id : String} {client : OidcClient} (h_client : s.clients.get? id = some client) :
    client.appId ≠ some appId := by
  intro h_link
  have h_none := List.countP_eq_zero.mp h client (Table.get?_of_mem_values.mpr ⟨id, h_client⟩)
  exact h_none (decide_eq_true h_link)

/-- Storing an app under a non-empty id. -/
theorem LinkInv.setApp {s : LinkState} (hi : LinkInv s) {id : String} {app : App}
    (h_slug : isSegment app.slug = true) (h_id : id ≠ "") :
    LinkInv { s with apps := ⟨s.apps.apps.set id app⟩ } := by
  constructor
  case slugs =>
    intro id' app' h_get
    obtain ⟨rfl, rfl⟩ | ⟨-, h_old⟩ := Table.get?_set_eq_some h_get
    · exact ⟨h_slug, h_id⟩
    · exact hi.slugs id' app' h_old
  case links =>
    intro id' client h_client appId h_link
    obtain ⟨app', h_app'⟩ := hi.links id' client h_client appId h_link
    by_cases h_eq : appId = id
    · exact ⟨app, h_eq ▸ Table.get?_set_self s.apps.apps id app⟩
    · exact ⟨app', (Table.get?_set_of_ne s.apps.apps app h_eq).trans h_app'⟩
  case minted => exact hi.minted

/-- Storing a client of an app that exists. -/
theorem LinkInv.setClient {s s' : LinkState} (hi : LinkInv s) {id : String} {client : OidcClient}
    (h_link : ∀ appId, client.appId = some appId → (s.apps.get appId).isSome = true)
    (h_apps : s'.apps = s.apps) (h_clients : s'.clients = s.clients.set id client)
    (h_minted : s'.minted = s.minted) : LinkInv s' := by
  constructor
  case slugs => exact h_apps ▸ hi.slugs
  case links =>
    intro id' client' h_client appId h_app
    rw [h_clients] at h_client
    rw [h_apps]
    obtain ⟨-, rfl⟩ | ⟨-, h_old⟩ := Table.get?_set_eq_some h_client
    · exact Option.isSome_iff_exists.mp (h_link appId h_app)
    · exact hi.links id' client' h_old appId h_app
  case minted => exact h_minted ▸ hi.minted

/-- A call that throws changes nothing. -/
theorem LinkInv.commit {s s' : LinkState} {error : Option String} (hi : LinkInv s)
    {r : Except String LinkState} (h : some (s.commit r) = some (s', error))
    (h_ok : ∀ s₁, r = .ok s₁ → LinkInv s₁) : LinkInv s' := by
  have h_state : (s.commit r).1 = s' := congrArg Prod.fst (Option.some.inj h)
  cases r with
  | error message => exact h_state ▸ hi
  | ok s₁ => exact h_state ▸ h_ok s₁ rfl

/-- No inherited name is empty. -/
theorem inheritedNames_ne {id : String} (h : id ∈ inheritedNames) : id ≠ "" := by
  rintro rfl
  exact absurd h (by decide)

theorem LinkInv.createClient {s s' : LinkState} (hi : LinkInv s) {id name : String}
    {redirectUris : List String} {appId : Option String}
    (h : s.createClient env id name redirectUris appId = .ok s') : LinkInv s' := by
  obtain ⟨name', -, h⟩ := bind_eq_ok h
  obtain ⟨uris, -, h⟩ := bind_eq_ok h
  obtain rfl := Except.ok.inj h
  exact ⟨hi.slugs, hi.links, hi.minted⟩

theorem LinkInv.updateClient {s s' : LinkState} (hi : LinkInv s) {id name : String}
    {redirectUris : List String} {appId : Option String}
    (h_ok : ∀ a, appId = some a → (s.apps.get a).isSome = true)
    (h : s.updateClient env id name redirectUris appId = .ok s') : LinkInv s' := by
  rw [LinkState.updateClient] at h
  split at h
  · exact absurd h (by simp)
  · obtain ⟨name', -, h⟩ := bind_eq_ok h
    obtain ⟨uris, -, h⟩ := bind_eq_ok h
    split at h
    · obtain rfl := Except.ok.inj h
      exact hi.setClient h_ok rfl rfl rfl
    · split at h
      · exact Except.ok.inj h ▸ hi
      · obtain rfl := Except.ok.inj h
        exact hi.setClient h_ok rfl rfl rfl

/-- A label run under the condition keeps the invariant. -/
theorem LinkInv.run {s s' : LinkState} {l : LinkLabel} {error : Option String} (hi : LinkInv s)
    (h_ok : LinksExisting s l) (h_fresh : s.Fresh l) (h : s.run env l = some (s', error)) :
    LinkInv s' := by
  cases l with
  | createApp id draft now =>
    refine hi.commit h fun s₁ h_some => ?_
    obtain ⟨apps, h_create, rfl⟩ := map_eq_ok h_some
    obtain ⟨app, h_named, rfl⟩ := AppStore.create_ok h_create
    refine hi.setApp h_named.slug ?_
    rintro rfl
    exact h_fresh hi.minted
  | updateApp id draft =>
    refine hi.commit h fun s₁ h_some => ?_
    obtain ⟨apps, h_update, rfl⟩ := map_eq_ok h_some
    obtain ⟨rfl, -⟩ | ⟨h_id, app, h_named, rfl⟩ := AppStore.update_ok h_update
    · exact hi
    · obtain ⟨app', h_app'⟩ | h_name := h_id
      · exact hi.setApp h_named.slug (hi.slugs id app' h_app').2
      · exact hi.setApp h_named.slug (inheritedNames_ne h_name)
  | deleteApp appId =>
    refine hi.commit h fun s₁ h_some => ?_
    obtain ⟨apps, h_delete, rfl⟩ := map_eq_ok h_some
    obtain rfl | ⟨h_zero, rfl⟩ := AppStore.delete_ok h_delete
    · exact hi
    · constructor
      case slugs => exact fun id app h_get => hi.slugs id app (Table.get?_erase.mp h_get).1
      case links =>
        intro id client h_client appId' h_link
        obtain ⟨app, h_app⟩ := hi.links id client h_client appId' h_link
        refine ⟨app, Table.get?_erase.mpr ⟨h_app, ?_⟩⟩
        rintro rfl
        exact referencing_zero h_zero h_client h_link
      case minted => exact hi.minted
  | createClient id name redirectUris appId =>
    exact hi.commit h fun s₁ h_some => hi.createClient h_some
  | hashed task secretHash now =>
    obtain ⟨draft, h_task, h_eq⟩ := Option.map_eq_some_iff.mp h
    cases secretHash with
    | error message =>
      obtain rfl := (Prod.mk.inj h_eq).1
      exact ⟨hi.slugs, hi.links, hi.minted⟩
    | ok hash =>
      obtain rfl := (Prod.mk.inj h_eq).1
      refine hi.setClient (fun appId h_link => h_ok appId ?_) rfl rfl rfl
      rw [h_task]
      exact h_link
  | updateClient id name redirectUris appId =>
    exact hi.commit h fun s₁ h_some => hi.updateClient h_ok h_some
  | deleteClient clientId =>
    obtain rfl := (Prod.mk.inj (Option.some.inj h)).1
    exact ⟨hi.slugs, fun id client h_client => hi.links id client (Table.get?_erase.mp h_client).1,
      hi.minted⟩
  | completeAuthorize user params known =>
    refine hi.commit h fun s₁ h_some => ?_
    obtain ⟨-, -, rfl⟩ := map_eq_ok h_some
    exact hi
  | approveDevice user clientId scope known =>
    refine hi.commit h fun s₁ h_some => ?_
    obtain ⟨-, -, rfl⟩ := map_eq_ok h_some
    exact hi

theorem linkInv_run {tr : List (LinkLabel × Option String)} {s : LinkState}
    (h : (linkMachine env start).RunWhen LinksExisting tr s) : LinkInv s := by
  refine h.invariant linkInv_init fun s l s' error hi h_ok hs => ?_
  have hs : (if s.Fresh l then (s.run env l).map fun r =>
    ({ r.1 with minted := LinkState.draws l ++ s.minted }, r.2) else none) = some (s', error) := hs
  split at hs
  case isFalse => exact absurd hs (by simp)
  case isTrue h_fresh =>
    obtain ⟨⟨s₁, error'⟩, h_run, h_eq⟩ := Option.map_eq_some_iff.mp hs
    obtain rfl := (Prod.mk.inj h_eq).1
    have hi₁ := hi.run h_ok h_fresh h_run
    exact ⟨hi₁.slugs, hi₁.links, List.mem_append_right _ hi.minted⟩

/-! ### What follows from the link -/

/-- The app of a client. -/
theorem LinkInv.linkedApp {s : LinkState} (hi : LinkInv s) {id : String} {client : OidcClient}
    (h_client : s.clients.get? id = some client) {appId : String}
    (h_link : client.appId = some appId) :
    ∃ app, s.apps.get appId = some app ∧ linkedApp client s.apps = some app ∧
      isSegment app.slug = true := by
  obtain ⟨app, h_app⟩ := hi.links id client h_client appId h_link
  obtain ⟨h_slug, h_ne⟩ := hi.slugs appId app h_app
  refine ⟨app, h_app, ?_, h_slug⟩
  rw [Oidc.linkedApp, h_link, Option.filter_some, if_pos (by simpa using h_ne)]
  exact h_app

/-- Whoever may access a linked client has passed the gate of its app. -/
theorem LinkInv.gate {s : LinkState} (hi : LinkInv s) {id : String} {client : OidcClient}
    (h_client : s.clients.get? id = some client) {user : TypedUser} {scope : String}
    {known : List String} (h_access : assertMayAccess user client scope s.apps known = none)
    {appId : String} (h_link : client.appId = some appId) :
    ∃ app, s.apps.get appId = some app ∧
      (app.requireRole = true → groupsForClient user (some app.slug) known app.roles ≠ []) := by
  obtain ⟨app, h_app, h_linked, -⟩ := hi.linkedApp h_client h_link
  refine ⟨app, h_app, fun h_role => ?_⟩
  obtain ⟨h_group, h_roles⟩ := effectiveGroupPrefix_of_linked h_linked
  rw [assertMayAccess] at h_access
  split at h_access
  case isTrue => exact absurd h_access (by simp)
  case isFalse =>
    have h_groups := (roleGate_iff h_linked h_role user known).mp h_access
    rw [h_group, h_roles] at h_groups
    exact h_groups

theorem LinkInv.safe {s : LinkState} (hi : LinkInv s) : LinkSafe s := by
  constructor
  case linked => exact hi.links
  case groups =>
    intro id client h_client appId h_link
    obtain ⟨app, h_app, h_linked, h_slug⟩ := hi.linkedApp h_client h_link
    refine ⟨app, h_app, fun user known p h_p => ?_⟩
    rw [(effectiveGroupPrefix_of_linked h_linked).1] at h_p
    exact groups_inNamespace (.ofSlug app.slug h_slug) h_p
  case authorize =>
    intro user params known client h appId h_link
    rw [LinkState.completeAuthorize] at h
    split at h
    · exact absurd h (by simp)
    split at h
    · exact absurd h (by simp)
    next client' h_client =>
    split at h
    · exact absurd h (by simp)
    next h_access =>
    obtain rfl := Except.ok.inj h
    exact hi.gate h_client h_access h_link
  case approve =>
    intro user clientId scope known client h appId h_link
    rw [LinkState.approveDevice] at h
    split at h
    · exact absurd h (by simp)
    next client' h_client =>
    split at h
    · exact absurd h (by simp)
    next h_access =>
    obtain rfl := Except.ok.inj h
    exact hi.gate h_client h_access h_link

end Invariant

/-! ### A link that dangles -/

def sampleLinkEnv : LinkEnv := ⟨id, fun _ => true⟩

/-- A fresh installation. -/
def sampleLinkStart : LinkStart where
  apps := ⟨.empty⟩
  clients := .empty
  slugs := fun id app h => absurd h (by simp [AppStore.get])
  links := fun id client h => absurd h (by simp)

def immich : AppDraft := ⟨"Immich", "immich", ["admin", "user"], true⟩

/-- An app, and a client of it. -/
def linkedClient : List LinkLabel :=
  [.createApp "a1" immich 0,
    .createClient "c1" "Photos" ["https://p.example.com/cb"] (some "a1"),
    .hashed 0 (.ok "h1") 1]

/-- The app is deleted while the client awaits the hash of its secret. -/
def deletedMeanwhile : List LinkLabel :=
  [.createApp "a1" immich 0,
    .createClient "c1" "Photos" ["https://p.example.com/cb"] (some "a1"),
    .deleteApp "a1",
    .hashed 0 (.ok "h1") 1]

/-- What a client points at, and whether the app is there. -/
def readLink (s : LinkState) : Option (Option String) × Bool :=
  ((s.clients.get? "c1").map OidcClient.appId, (s.apps.get "a1").isSome)

end ServerCentral.Oidc
