import ServerCentral.Auth.Roles
import ServerCentral.Oidc.Provider

/-!
# Apps and the clients that point at them

`AppStore` keeps the apps: a name, a slug that is the namespace `app.<slug>` of its
permission nodes, the role names it declares, and whether it asks for a role at all. An
OIDC client points at an app by its `appId`; registrations from before apps existed carry
a `groupPrefix` instead.

An id that every object inherits finds something that has no slug, no roles and no
`requireRole`, so that for a reader it is an app that does not exist.
-/

open Framework ServerCentral.Auth

namespace ServerCentral.Oidc

/-- An app. The `id` is `undefined` when `update` made the record from an inherited
property. -/
structure App where
  id : Option String
  name : String
  slug : String
  roles : List String
  requireRole : Bool
  createdAt : ℕ
  deriving DecidableEq, Repr

/-- `/^[a-z0-9][a-z0-9_-]*$/` -/
def isSegment (value : String) : Bool :=
  match value.toList with
  | [] => false
  | c :: cs =>
    (c.isLower || c.isDigit) && cs.all fun c => c.isLower || c.isDigit || c = '_' || c = '-'

/-- What a caller passes of an app. -/
structure AppDraft where
  name : String
  slug : String
  roles : List String
  requireRole : Bool
  deriving DecidableEq, Repr

/-- An app whose slug and roles are segments. -/
structure App.Segments (app : App) : Prop where
  slug : isSegment app.slug = true
  roles : ∀ role ∈ app.roles, isSegment role = true

structure AppStore where
  apps : Table String App

namespace AppStore

def get (s : AppStore) (appId : String) : Option App := s.apps.get? appId

/-- The namespace an app owns. An empty id is no id. -/
def slugFor (s : AppStore) (appId : Option String) : Option String :=
  (appId.filter (· ≠ "")).bind fun id => (s.get id).map App.slug

def assertName (name : String) : Except String String :=
  if trim name = "" then .error "App name is required" else .ok (trim name)

variable (toLowerCase : String → String)

def assertSlug (slug : String) : Except String String :=
  if isSegment (toLowerCase (trim slug)) then .ok (toLowerCase (trim slug))
  else .error s!"Invalid app id: \"{slug}\". Use one lowercase segment, e.g. \"immich\"."

/-- The role names in lower case, without empty ones and repetitions. -/
def assertRoles (roles : List String) : Except String (List String) :=
  roles.foldlM (fun out raw =>
    let role := toLowerCase (trim raw)
    if role = "" then .ok out
    else if !isSegment role then
      .error s!"Invalid role name: \"{raw}\". Use one lowercase segment, e.g. \"admin\"."
    else .ok (if out.contains role then out else out ++ [role])) []

/-- The message of `assertSlugFree`, if it throws. -/
def assertSlugFree (s : AppStore) (slug : String) (exceptId : Option String) : Option String :=
  if s.apps.values.any fun a => (exceptId = none || a.id ≠ exceptId) && a.slug = slug then
    some s!"Another app already uses the name \"{slug}\""
  else none

def create (s : AppStore) (id : String) (draft : AppDraft) (createdAt : ℕ) :
    Except String AppStore := do
  let name ← assertName draft.name
  let slug ← assertSlug toLowerCase draft.slug
  let roles ← assertRoles toLowerCase draft.roles
  match s.assertSlugFree slug none with
  | some message => .error message
  | none => .ok ⟨s.apps.set id ⟨some id, name, slug, roles, draft.requireRole, createdAt⟩⟩

/-- The rest of `update`, after the lookup of the id. Under `__proto__` no app is written. -/
def replace (s : AppStore) (slot : Slot App) (id : String) (draft : AppDraft) :
    Except String AppStore :=
  match slot with
  | .absent => .error "App not found"
  | slot => do
    let slug ← assertSlug toLowerCase draft.slug
    match s.assertSlugFree slug (some id) with
    | some message => .error message
    | none =>
      let name ← assertName draft.name
      let roles ← assertRoles toLowerCase draft.roles
      match slot with
      | .own app =>
        .ok ⟨s.apps.set id { app with name, slug, roles, requireRole := draft.requireRole }⟩
      | _ =>
        .ok (if id = "__proto__" then s
          else ⟨s.apps.set id ⟨none, name, slug, roles, draft.requireRole, 0⟩⟩)

/-- Edit an app in place. -/
def update (s : AppStore) (id : String) (draft : AppDraft) : Except String AppStore :=
  s.replace toLowerCase (lookup s.apps id) id draft

/-- The rest of `delete`, after the lookup of the id. -/
def remove (s : AppStore) (slot : Slot App) (appId : String) (referenceCount : ℕ) :
    Except String AppStore :=
  match slot with
  | .absent => .ok s
  | _ =>
    if referenceCount > 0 then
      let plural := if referenceCount = 1 then "" else "s"
      let singular := if referenceCount = 1 then "s" else ""
      .error (s!"{referenceCount} SSO client{plural} still reference{singular} this app. "
        ++ "Unlink them first — deleting it here would widen what they are told about each user, not narrow it.")
    else .ok ⟨s.apps.erase appId⟩

def delete (s : AppStore) (appId : String) (referenceCount : ℕ) : Except String AppStore :=
  s.remove (lookup s.apps appId) appId referenceCount

end AppStore

/-! ### Clients -/

/-- A registered relying party. -/
structure OidcClient extends OidcClientRecord where
  createdAt : ℕ
  appId : Option String
  groupPrefix : Option String
  deriving DecidableEq, Repr

/-- The app a client is linked to. An empty id is no id. -/
def linkedApp (client : OidcClient) (apps : AppStore) : Option App :=
  (client.appId.filter (· ≠ "")).bind apps.get

/-- The namespace a client's groups are limited to: the slug of its app, or the legacy
prefix. -/
def effectiveGroupPrefix (client : OidcClient) (apps : AppStore) : Option String :=
  apps.slugFor client.appId <|> client.groupPrefix

/-- The role names the linked app declares. -/
def declaredRolesFor (client : OidcClient) (apps : AppStore) : List String :=
  ((linkedApp client apps).map App.roles).getD []

/-- The prefix and the roles are those of the linked app. -/
theorem effectiveGroupPrefix_of_linked {client : OidcClient} {apps : AppStore} {app : App}
    (h : linkedApp client apps = some app) :
    effectiveGroupPrefix client apps = some app.slug ∧ declaredRolesFor client apps = app.roles := by
  have h_slug : apps.slugFor client.appId = some app.slug := by
    obtain ⟨appId, h_id, h_get⟩ := Option.bind_eq_some_iff.mp h
    rw [AppStore.slugFor, h_id, Option.bind_some, h_get]
    rfl
  constructor
  · rw [effectiveGroupPrefix, h_slug]
    rfl
  · rw [declaredRolesFor, h]
    rfl

end ServerCentral.Oidc
