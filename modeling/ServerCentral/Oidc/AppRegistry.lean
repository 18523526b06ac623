import ServerCentral.Oidc.AppNames

/-!
# The app registry

Apps are created, edited and deleted, and the server restarts in between and reads a file that
holds the apps of an earlier moment. `registry_safe` is what no sequence of these changes:
slugs are unique and, like the roles, in the form the store gives them, a call that is rejected
changes nothing, and an app keeps its id and the date of its creation.

The store is a plain object, so that `update` finds something under the names every object
inherits. Under `__proto__` it even replaces what the object inherits from.
-/

open Framework ServerCentral.Auth

namespace ServerCentral.Oidc

/-- `toLowerCase`, which leaves a segment as it is. -/
structure LowerCase where
  toLowerCase : String → String
  segment : ∀ value, isSegment value = true → toLowerCase value = value

/-- `apps`, and what it inherits from: `Object.prototype`, or an app with this `requireRole` that
`update` has put in its place. -/
structure Registry where
  store : AppStore
  proto : Option Bool

/-- The names under which something may be inherited. -/
def protoNames : List String := inheritedNames ++ ["name", "slug", "roles", "requireRole"]

namespace Registry

/-- Whether the name of an app's property finds something to edit. The other properties of an app
in the prototype's place are not empty. -/
def inherits (r : Registry) (id : String) : Bool :=
  r.proto.any fun requireRole =>
    id = "name" || id = "slug" || id = "roles" || requireRole && id = "requireRole"

/-- What reading an id finds. -/
def slot (r : Registry) (id : String) : Slot App :=
  match lookup r.store.apps id with
  | .absent => if r.inherits id then .inherited else .absent
  | slot => slot

variable (env : LowerCase)

def create (r : Registry) (id : String) (draft : AppDraft) (now : ℕ) : Except String Registry :=
  (r.store.create env.toLowerCase id draft now).map fun store => { r with store }

def update (r : Registry) (id : String) (draft : AppDraft) : Except String Registry :=
  (r.store.replace env.toLowerCase (r.slot id) id draft).map fun store =>
    { store, proto := if id = "__proto__" then some draft.requireRole else r.proto }

def delete (r : Registry) (appId : String) (referenceCount : ℕ) : Except String Registry :=
  (r.store.remove (r.slot appId) appId referenceCount).map fun store => { r with store }

end Registry

/-- The registry, the apps of each moment so far, one of which the file holds, and the ids in
use. -/
structure RegistryState where
  registry : Registry
  moments : List (Table String App)
  drawn : List String

inductive RegistryLabel where
  | create (id : String) (draft : AppDraft) (now : ℕ)
  | update (id : String) (draft : AppDraft)
  | delete (appId : String) (referenceCount : ℕ)
  /-- The server starts again, with the apps of the `i`-th moment. -/
  | init (i : ℕ)

namespace RegistryState

/-- A call that has come to its end, or has thrown. -/
def commit (s : RegistryState) : Except String Registry → RegistryState × Option String
  | .ok registry => ({ s with registry, moments := s.moments ++ [registry.store.apps] }, none)
  | .error message => (s, some message)

def step (env : LowerCase) (s : RegistryState) :
    RegistryLabel → Option (RegistryState × Option String)
  | .create id draft now =>
    some ({ s with drawn := id :: s.drawn }.commit (s.registry.create env id draft now))
  | .update id draft => some (s.commit (s.registry.update env id draft))
  | .delete appId referenceCount => some (s.commit (s.registry.delete appId referenceCount))
  | .init i => (s.moments[i]?).map fun apps =>
    ({ s with registry := ⟨⟨apps⟩, none⟩, moments := s.moments ++ [apps] }, none)

/-- `randomUUID` never repeats itself, and draws none of the inherited names. -/
def Fresh (s : RegistryState) : RegistryLabel → Prop
  | .create id _ _ => id ∉ s.drawn
  | _ => True

instance (s : RegistryState) (l : RegistryLabel) : Decidable (s.Fresh l) := by
  unfold Fresh
  cases l <;> infer_instance

end RegistryState

/-- **The registry over several starts.** -/
def registryMachine (env : LowerCase) : Machine RegistryState RegistryLabel (Option String) where
  init := ⟨⟨⟨.empty⟩, none⟩, [.empty], protoNames⟩
  step s l := s.step env l

/-! ### What is kept -/

/-- The form the store gives a slug or a role: one segment in lower case, without blanks around
it. -/
structure Normalized (env : LowerCase) (value : String) : Prop where
  segment : isSegment value = true
  trimmed : trim value = value
  lower : env.toLowerCase value = value

/-- What is stored of the apps. -/
structure Registered (env : LowerCase) (apps : Table String App) : Prop where
  slugs : ∀ id id' app app', apps.get? id = some app → apps.get? id' = some app' →
    app.slug = app'.slug → id = id'
  slug : ∀ id app, apps.get? id = some app → Normalized env app.slug
  roles : ∀ id app, apps.get? id = some app → ∀ role ∈ app.roles, Normalized env role
  once : ∀ id app, apps.get? id = some app → app.roles.Nodup

/-- A record that `create` has made has its id; one that `update` has made from something
inherited has none, and no date. -/
def Identified (id : String) (app : App) : Prop :=
  if id ∈ protoNames then app.id = none ∧ app.createdAt = 0 else app.id = some id

structure RegistryInv (env : LowerCase) (s : RegistryState) : Prop where
  live : s.registry.store.apps ∈ s.moments
  names : ∀ id ∈ protoNames, id ∈ s.drawn
  registered : ∀ apps ∈ s.moments, Registered env apps
  identified : ∀ apps ∈ s.moments, ∀ id app, apps.get? id = some app →
    Identified id app ∧ id ∈ s.drawn
  dated : ∀ apps ∈ s.moments, ∀ apps' ∈ s.moments, ∀ id app app', apps.get? id = some app →
    apps'.get? id = some app' → app.createdAt = app'.createdAt

/-! ### Names -/

section Names

variable {env : LowerCase}

theorem Normalized.of_segment {value : String} (h : isSegment value = true) :
    Normalized env value where
  segment := h
  trimmed := trim_visible fun c h_c => (isSegment_char h c h_c).1
  lower := env.segment value h

/-- Repetitions are dropped. -/
theorem assertRoles_nodup {toLowerCase : String → String} {roles roles' : List String}
    (h : AppStore.assertRoles toLowerCase roles = .ok roles') : roles'.Nodup := by
  refine foldlM_induction (motive := List.Nodup) ?_ h List.nodup_nil
  intro out raw out' h_out h_step
  dsimp only at h_step
  split at h_step
  · exact Except.ok.inj h_step ▸ h_out
  split at h_step
  · exact absurd h_step (by simp)
  · obtain rfl := Except.ok.inj h_step
    split
    · exact h_out
    next h_new =>
      have h_new : toLowerCase (trim raw) ∉ out := by simpa using h_new
      exact List.nodup_append.mpr ⟨h_out, List.nodup_singleton _, fun a h_a b h_b h_eq =>
        h_new (List.mem_singleton.mp h_b ▸ h_eq ▸ h_a)⟩

/-- A free slug is that of no app but the one excepted. -/
theorem slugFree {s : AppStore} {slug : String} {exceptId : Option String}
    (h : s.assertSlugFree slug exceptId = none) {id : String} {app : App}
    (h_app : s.get id = some app) (h_slug : app.slug = slug) :
    ∃ id', exceptId = some id' ∧ app.id = some id' := by
  rw [AppStore.assertSlugFree] at h
  split at h
  · exact absurd h (by simp)
  next h_any =>
    have h_mem : app ∈ s.apps.values := Table.get?_of_mem_values.mpr ⟨id, h_app⟩
    simp only [List.any_eq_true, not_exists, not_and] at h_any
    have h_not := h_any app h_mem
    simp only [h_slug, decide_true, Bool.and_true, Bool.or_eq_true, decide_eq_true_eq,
      not_or, ne_eq, not_not] at h_not
    obtain ⟨h_some, h_id⟩ := h_not
    obtain ⟨id', rfl⟩ := Option.ne_none_iff_exists'.mp h_some
    exact ⟨id', rfl, h_id⟩

/-- What can be edited is an app, or lies under one of the inherited names. -/
theorem Registry.slot_own {r : Registry} {id : String} {app : App} (h : r.slot id = .own app) :
    r.store.get id = some app := by
  rw [slot] at h
  split at h
  · split at h
    · exact absurd h (by simp)
    · exact absurd h (by simp)
  · exact get?_of_lookup h

theorem Registry.slot_inherited {r : Registry} {id : String} (h : r.slot id = .inherited) :
    id ∈ protoNames := by
  rw [slot] at h
  split at h
  · split at h
    next h_inherits =>
      cases h_proto : r.proto with
      | none => exact absurd h_inherits (by simp [inherits, h_proto])
      | some requireRole =>
        simp only [inherits, h_proto, Option.any_some, Bool.or_eq_true, Bool.and_eq_true,
          decide_eq_true_eq] at h_inherits
        obtain ((rfl | rfl) | rfl) | ⟨-, rfl⟩ := h_inherits <;> simp [protoNames]
    · exact absurd h (by simp)
  · exact List.mem_append_left _ (inherited_of_lookup h)

end Names

/-! ### The invariant -/

section Invariant

variable {env : LowerCase}

theorem Registered.erase {apps : Table String App} (h : Registered env apps) (id : String) :
    Registered env (apps.erase id) where
  slugs := fun i i' app app' h_app h_app' =>
    h.slugs i i' app app' (Table.get?_erase.mp h_app).1 (Table.get?_erase.mp h_app').1
  slug := fun i app h_app => h.slug i app (Table.get?_erase.mp h_app).1
  roles := fun i app h_app => h.roles i app (Table.get?_erase.mp h_app).1
  once := fun i app h_app => h.once i app (Table.get?_erase.mp h_app).1

/-- An app whose slug is nobody else's. -/
theorem Registered.set {apps : Table String App} (h : Registered env apps) {id : String} {app : App}
    (h_slug : isSegment app.slug = true) (h_roles : ∀ role ∈ app.roles, isSegment role = true)
    (h_once : app.roles.Nodup)
    (h_free : ∀ id' app', apps.get? id' = some app' → id' ≠ id → app'.slug ≠ app.slug) :
    Registered env (apps.set id app) := by
  constructor
  case slugs =>
    intro i i' app₁ app₂ h₁ h₂ h_same
    obtain ⟨rfl, rfl⟩ | ⟨h_ne, h_old⟩ := Table.get?_set_eq_some h₁
    · obtain ⟨rfl, -⟩ | ⟨h_ne, h_old⟩ := Table.get?_set_eq_some h₂
      · rfl
      · exact absurd h_same.symm (h_free i' app₂ h_old h_ne)
    · obtain ⟨rfl, rfl⟩ | ⟨-, h_old'⟩ := Table.get?_set_eq_some h₂
      · exact absurd h_same (h_free i app₁ h_old h_ne)
      · exact h.slugs i i' app₁ app₂ h_old h_old' h_same
  case slug =>
    intro i app₁ h₁
    obtain ⟨rfl, rfl⟩ | ⟨-, h₁⟩ := Table.get?_set_eq_some h₁
    · exact .of_segment h_slug
    · exact h.slug i app₁ h₁
  case roles =>
    intro i app₁ h₁
    obtain ⟨rfl, rfl⟩ | ⟨-, h₁⟩ := Table.get?_set_eq_some h₁
    · exact fun role h_role => .of_segment (h_roles role h_role)
    · exact h.roles i app₁ h₁
  case once =>
    intro i app₁ h₁
    obtain ⟨rfl, rfl⟩ | ⟨-, h₁⟩ := Table.get?_set_eq_some h₁
    · exact h_once
    · exact h.once i app₁ h₁

/-- A new moment. -/
theorem RegistryInv.moment {s : RegistryState} (hi : RegistryInv env s) {registry : Registry}
    {drawn : List String} (h_drawn : s.drawn ⊆ drawn)
    (h_registered : Registered env registry.store.apps)
    (h_identified : ∀ id app, registry.store.get id = some app →
      Identified id app ∧ id ∈ drawn)
    (h_dated : ∀ apps ∈ s.moments, ∀ id app app', apps.get? id = some app →
      registry.store.get id = some app' → app.createdAt = app'.createdAt) :
    RegistryInv env ⟨registry, s.moments ++ [registry.store.apps], drawn⟩ := by
  constructor
  case live => exact List.mem_append_right _ (List.mem_singleton_self _)
  case names => exact fun id h_id => h_drawn (hi.names id h_id)
  case registered =>
    intro apps h_apps
    obtain h_apps | h_apps := List.mem_append.mp h_apps
    · exact hi.registered apps h_apps
    · exact List.mem_singleton.mp h_apps ▸ h_registered
  case identified =>
    intro apps h_apps id app h_app
    obtain h_apps | h_apps := List.mem_append.mp h_apps
    · exact (hi.identified apps h_apps id app h_app).imp_right fun h => h_drawn h
    · rw [List.mem_singleton.mp h_apps] at h_app
      exact h_identified id app h_app
  case dated =>
    intro apps h_apps apps' h_apps' id app app' h_app h_app'
    obtain h_apps | h_apps := List.mem_append.mp h_apps
    · obtain h_apps' | h_apps' := List.mem_append.mp h_apps'
      · exact hi.dated apps h_apps apps' h_apps' id app app' h_app h_app'
      · rw [List.mem_singleton.mp h_apps'] at h_app'
        exact h_dated apps h_apps id app app' h_app h_app'
    · rw [List.mem_singleton.mp h_apps] at h_app
      obtain h_apps' | h_apps' := List.mem_append.mp h_apps'
      · exact (h_dated apps' h_apps' id app' app h_app' h_app).symm
      · rw [List.mem_singleton.mp h_apps', h_app] at h_app'
        rw [Option.some.inj h_app']

theorem RegistryInv.init : RegistryInv env (registryMachine env).init := by
  have h_empty : ∀ apps ∈ (registryMachine env).init.moments, ∀ id app, apps.get? id ≠ some app := by
    intro apps h_apps id app
    obtain rfl := List.mem_singleton.mp h_apps
    simp
  constructor
  case live => exact List.mem_singleton_self _
  case names => exact fun id h_id => h_id
  case registered =>
    intro apps h_apps
    have h_none := h_empty apps h_apps
    exact ⟨fun i _ app _ h => absurd h (h_none i app), fun i app h => absurd h (h_none i app),
      fun i app h => absurd h (h_none i app), fun i app h => absurd h (h_none i app)⟩
  case identified => exact fun apps h_apps id app h => absurd h (h_empty apps h_apps id app)
  case dated => exact fun apps h_apps _ _ id app _ h => absurd h (h_empty apps h_apps id app)

/-- An app is created. -/
theorem RegistryInv.create {s : RegistryState} (hi : RegistryInv env s) {registry : Registry}
    {id : String} {draft : AppDraft} {now : ℕ} (h_new : id ∉ s.drawn)
    (h : s.registry.create env id draft now = .ok registry) :
    RegistryInv env ⟨registry, s.moments ++ [registry.store.apps], id :: s.drawn⟩ := by
  obtain ⟨store, h_create, rfl⟩ := map_eq_ok h
  obtain ⟨name, slug, roles, h_slug, h_free, h_roles, rfl⟩ := AppStore.create_stored h_create
  have h_unknown : ∀ apps ∈ s.moments, ∀ app, apps.get? id ≠ some app := fun apps h_apps app h_app =>
    h_new (hi.identified apps h_apps id app h_app).2
  refine hi.moment (List.subset_cons_self _ _) ?_ ?_ ?_
  · refine (hi.registered _ hi.live).set (assertSlug_ok h_slug) (assertRoles_ok h_roles)
      (assertRoles_nodup h_roles) fun id' app' h_app' _ h_same => ?_
    obtain ⟨id'', h_none, -⟩ := slugFree h_free h_app' h_same
    exact absurd h_none (by simp)
  · intro id' app' h_app'
    obtain ⟨rfl, rfl⟩ | ⟨-, h_old⟩ := Table.get?_set_eq_some h_app'
    · refine ⟨?_, List.mem_cons_self⟩
      rw [Identified, if_neg fun h_name => h_new (hi.names _ h_name)]
    · exact (hi.identified _ hi.live id' app' h_old).imp_right (List.mem_cons_of_mem _)
  · intro apps h_apps id' app app' h_app h_app'
    obtain ⟨rfl, rfl⟩ | ⟨-, h_old⟩ := Table.get?_set_eq_some h_app'
    · exact absurd h_app (h_unknown apps h_apps app)
    · exact hi.dated apps h_apps _ hi.live id' app app' h_app h_old

/-- An app is edited. -/
theorem RegistryInv.update {s : RegistryState} (hi : RegistryInv env s) {registry : Registry}
    {id : String} {draft : AppDraft} (h : s.registry.update env id draft = .ok registry) :
    RegistryInv env ⟨registry, s.moments ++ [registry.store.apps], s.drawn⟩ := by
  obtain ⟨store, h_replace, rfl⟩ := map_eq_ok h
  obtain ⟨name, slug, roles, h_slug, h_free, h_roles, h_stored⟩ := AppStore.replace_ok h_replace
  have h_live := hi.registered _ hi.live
  -- an edited record keeps its id and its date
  have h_edit : ∀ app, isSegment app.slug = true → app.slug = slug → app.roles = roles →
      Identified id app → id ∈ s.drawn →
      (∀ apps ∈ s.moments, ∀ old, apps.get? id = some old → old.createdAt = app.createdAt) →
      ∀ proto, RegistryInv env ⟨⟨⟨s.registry.store.apps.set id app⟩, proto⟩,
        s.moments ++ [s.registry.store.apps.set id app], s.drawn⟩ := by
    rintro app h_segment rfl rfl h_id h_drawn h_date proto
    refine hi.moment (List.Subset.refl _) ?_ ?_ ?_
    · refine h_live.set h_segment (assertRoles_ok h_roles) (assertRoles_nodup h_roles) ?_
      intro id' app' h_app' h_ne h_same
      obtain ⟨id'', h_some, h_id'⟩ := slugFree h_free h_app' h_same
      obtain rfl := Option.some.inj h_some
      -- a record without an id has another id than the one that is edited
      have h_own := (hi.identified _ hi.live id' app' h_app').1
      rw [Identified, h_id'] at h_own
      split at h_own
      · exact absurd h_own.1 (by simp)
      · exact h_ne (Option.some.inj h_own).symm
    · intro id' app' h_app'
      obtain ⟨rfl, rfl⟩ | ⟨-, h_old⟩ := Table.get?_set_eq_some h_app'
      · exact ⟨h_id, h_drawn⟩
      · exact hi.identified _ hi.live id' app' h_old
    · intro apps h_apps id' app₁ app' h_app h_app'
      obtain ⟨rfl, rfl⟩ | ⟨-, h_old⟩ := Table.get?_set_eq_some h_app'
      · exact h_date apps h_apps app₁ h_app
      · exact hi.dated apps h_apps _ hi.live id' app₁ app' h_app h_old
  obtain ⟨app, h_slot, rfl⟩ | ⟨h_slot, ⟨-, rfl⟩ | rfl⟩ := h_stored
  · have h_app := Registry.slot_own h_slot
    obtain ⟨h_id, h_drawn⟩ := hi.identified _ hi.live id app h_app
    exact h_edit { app with name, slug, roles, requireRole := draft.requireRole }
      (assertSlug_ok h_slug) rfl rfl h_id h_drawn
      (fun apps h_apps old h_old => hi.dated apps h_apps _ hi.live id old app h_old h_app) _
  · exact hi.moment (List.Subset.refl _) h_live (hi.identified _ hi.live)
      fun apps h_apps => hi.dated apps h_apps _ hi.live
  · have h_name := Registry.slot_inherited h_slot
    have h_id : Identified id ⟨none, name, slug, roles, draft.requireRole, 0⟩ := by
      rw [Identified, if_pos h_name]
      exact ⟨rfl, rfl⟩
    refine h_edit _ (assertSlug_ok h_slug) rfl rfl h_id (hi.names id h_name) ?_ _
    intro apps h_apps old h_old
    have h_old_id := (hi.identified apps h_apps id old h_old).1
    rw [Identified, if_pos h_name] at h_old_id
    exact h_old_id.2

/-- An app is deleted. -/
theorem RegistryInv.delete {s : RegistryState} (hi : RegistryInv env s) {registry : Registry}
    {appId : String} {referenceCount : ℕ}
    (h : s.registry.delete appId referenceCount = .ok registry) :
    RegistryInv env ⟨registry, s.moments ++ [registry.store.apps], s.drawn⟩ := by
  obtain ⟨store, h_remove, rfl⟩ := map_eq_ok h
  obtain rfl | ⟨-, rfl⟩ := AppStore.remove_ok h_remove
  · exact hi.moment (List.Subset.refl _) (hi.registered _ hi.live) (hi.identified _ hi.live)
      fun apps h_apps => hi.dated apps h_apps _ hi.live
  · exact hi.moment (List.Subset.refl _) ((hi.registered _ hi.live).erase appId)
      (fun id app h_app => hi.identified _ hi.live id app (Table.get?_erase.mp h_app).1)
      fun apps h_apps id app app' h_app h_app' =>
        hi.dated apps h_apps _ hi.live id app app' h_app (Table.get?_erase.mp h_app').1

/-- A call that comes to its end adds a moment; one that throws leaves the registry as it
was. -/
theorem commit_cases {s s' : RegistryState} {call : Except String Registry} {o : Option String}
    (h : some (s.commit call) = some (s', o)) :
    (∃ registry, call = .ok registry ∧ o = none ∧
        s' = ⟨registry, s.moments ++ [registry.store.apps], s.drawn⟩) ∨ s' = s := by
  obtain ⟨h_state, h_out⟩ := Prod.mk.inj (Option.some.inj h)
  cases call with
  | ok registry => exact .inl ⟨registry, rfl, h_out.symm, h_state.symm⟩
  | error message => exact .inr h_state.symm

theorem RegistryInv.step {s s' : RegistryState} {l : RegistryLabel} {o : Option String}
    (hi : RegistryInv env s) (h_fresh : s.Fresh l) (h : s.step env l = some (s', o)) :
    RegistryInv env s' := by
  cases l with
  | create id draft now =>
    obtain ⟨registry, h_create, -, rfl⟩ | rfl := commit_cases h
    · exact hi.create h_fresh h_create
    · exact ⟨hi.live, fun i h_i => List.mem_cons_of_mem _ (hi.names i h_i), hi.registered,
        fun apps h_apps i app h_app =>
          (hi.identified apps h_apps i app h_app).imp_right (List.mem_cons_of_mem _), hi.dated⟩
  | update id draft =>
    obtain ⟨registry, h_update, -, rfl⟩ | rfl := commit_cases h
    · exact hi.update h_update
    · exact hi
  | delete appId referenceCount =>
    obtain ⟨registry, h_delete, -, rfl⟩ | rfl := commit_cases h
    · exact hi.delete h_delete
    · exact hi
  | init i =>
    obtain ⟨apps, h_get, h_eq⟩ := Option.map_eq_some_iff.mp h
    obtain ⟨rfl, -⟩ := Prod.mk.inj h_eq
    have h_apps := List.mem_of_getElem? h_get
    exact hi.moment (List.Subset.refl _) (hi.registered apps h_apps) (hi.identified apps h_apps)
      fun apps' h_apps' => hi.dated apps' h_apps' apps h_apps

theorem registryInv_run {tr : List (RegistryLabel × Option String)} {s : RegistryState}
    (h : (registryMachine env).RunWhen RegistryState.Fresh tr s) : RegistryInv env s :=
  h.invariant .init fun _ _ _ _ hi h_fresh hs => hi.step h_fresh hs

/-- A rejected call leaves the registry as it was. -/
theorem rejected_keeps {s s' : RegistryState} {l : RegistryLabel} {message : String}
    (h : s.step env l = some (s', some message)) :
    s'.registry = s.registry ∧ s'.moments = s.moments := by
  cases l with
  | create id draft now =>
    obtain ⟨-, -, h_none, -⟩ | rfl := commit_cases h
    · exact absurd h_none (by simp)
    · exact ⟨rfl, rfl⟩
  | update id draft =>
    obtain ⟨-, -, h_none, -⟩ | rfl := commit_cases h
    · exact absurd h_none (by simp)
    · exact ⟨rfl, rfl⟩
  | delete appId referenceCount =>
    obtain ⟨-, -, h_none, -⟩ | rfl := commit_cases h
    · exact absurd h_none (by simp)
    · exact ⟨rfl, rfl⟩
  | init i =>
    obtain ⟨apps, -, h_eq⟩ := Option.map_eq_some_iff.mp h
    exact absurd (Prod.mk.inj h_eq).2 (by simp)

/-- No moment is forgotten. -/
theorem moments_step {s s' : RegistryState} {l : RegistryLabel} {o : Option String}
    (h : s.step env l = some (s', o)) : s.moments ⊆ s'.moments := by
  cases l with
  | create id draft now =>
    obtain ⟨registry, -, -, rfl⟩ | rfl := commit_cases h
    · exact List.subset_append_left _ _
    · exact List.Subset.refl _
  | update id draft =>
    obtain ⟨registry, -, -, rfl⟩ | rfl := commit_cases h
    · exact List.subset_append_left _ _
    · exact List.Subset.refl _
  | delete appId referenceCount =>
    obtain ⟨registry, -, -, rfl⟩ | rfl := commit_cases h
    · exact List.subset_append_left _ _
    · exact List.Subset.refl _
  | init i =>
    obtain ⟨apps, -, h_eq⟩ := Option.map_eq_some_iff.mp h
    obtain ⟨rfl, -⟩ := Prod.mk.inj h_eq
    exact List.subset_append_left _ _

end Invariant

/-! ### The theorem -/

/-- **What the registry keeps** over every run: unique slugs, the form of slugs and roles, the
registry itself when a call is rejected, and of every app its id and its date, from a state of the
run to every later one. -/
theorem registry_safe (env : LowerCase) {tr : List (RegistryLabel × Option String)}
    {s : RegistryState} (h : (registryMachine env).RunWhen RegistryState.Fresh tr s) :
    Registered env s.registry.store.apps ∧
    (∀ l s' message, s.step env l = some (s', some message) → s'.registry = s.registry) ∧
    ∀ tr' s', (registryMachine env).Steps RegistryState.Fresh s tr' s' → ∀ id app app',
      s.registry.store.get id = some app → s'.registry.store.get id = some app' →
      app'.id = app.id ∧ app'.createdAt = app.createdAt := by
  have hi := registryInv_run h
  refine ⟨hi.registered _ hi.live, fun l s' message hs => (rejected_keeps hs).1, ?_⟩
  intro tr' s' h_steps id app app' h_app h_app'
  have hi' := registryInv_run (h.append h_steps)
  have h_live : s.registry.store.apps ∈ s'.moments :=
    h_steps.stable (P := fun s' => s.registry.store.apps ∈ s'.moments)
      (fun _ _ _ _ h_mem _ hs => moments_step hs h_mem) hi.live
  constructor
  · have h_id := (hi'.identified _ h_live id app h_app).1
    have h_id' := (hi'.identified _ hi'.live id app' h_app').1
    rw [Identified] at h_id h_id'
    split at h_id
    next h_name =>
      rw [if_pos h_name] at h_id'
      exact h_id'.1.trans h_id.1.symm
    next h_name =>
      rw [if_neg h_name] at h_id'
      exact h_id'.trans h_id.symm
  · exact (hi'.dated _ h_live _ hi'.live id app app' h_app h_app').symm

/-- Two apps are created, and the first takes another name. -/
def renamedRun : List RegistryLabel :=
  [.create "u1" immich 5, .create "u2" { immich with slug := "notes" } 6,
    .update "u1" { immich with slug := "photos" }]

theorem registry_safe_renamed : ∃ tr s,
    (registryMachine ⟨id, fun _ _ => rfl⟩).RunWhen RegistryState.Fresh tr s ∧
    (s.registry.store.apps.entries.map fun e => (e.1, e.2.slug, e.2.createdAt)) =
      [("u1", "photos", 5), ("u2", "notes", 6)] ∧
    Registered ⟨id, fun _ _ => rfl⟩ s.registry.store.apps := by
  obtain ⟨tr, s, h_exec, h_read⟩ := (registryMachine ⟨id, fun _ _ => rfl⟩).exec_reads
    (registryMachine ⟨id, fun _ _ => rfl⟩).init renamedRun
    (fun s => s.registry.store.apps.entries.map fun e => (e.1, e.2.slug, e.2.createdAt))
    [("u1", "photos", 5), ("u2", "notes", 6)] (by decide +kernel)
  have h_run : (registryMachine ⟨id, fun _ _ => rfl⟩).RunWhen RegistryState.Fresh tr s :=
    Machine.runWhen_of_exec renamedRun h_exec (by decide +kernel)
  exact ⟨tr, s, h_run, h_read, (registry_safe _ h_run).1⟩

end ServerCentral.Oidc
