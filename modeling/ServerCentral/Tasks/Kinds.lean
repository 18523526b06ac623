import ServerCentral.Auth.Permissions
import ServerCentral.Auth.Store

/-!
# Task kinds

A kind is declared in the union `TaskSpec`, gated by the node of the registry that lists it,
and handled by the feature that owns it. The two tables are plain objects filled by loops
that throw when a key is claimed twice (`claimAll_ok`), and `kinds_agree` says that all
three name the same kinds.
-/

open Framework ServerCentral.Auth

namespace ServerCentral.Tasks

/-- The kinds of the union `TaskSpec`. -/
def taskKinds : List String :=
  ["cmd", "exec", "find_wan_ip", "service_action", "docker_stack_action",
    "docker_container_action", "docker_image_pull", "docker_compose_action", "update_agent",
    "update_control_plane", "debug_fake", "zfs_pool_create", "zfs_pool_destroy",
    "zfs_pool_import", "zfs_pool_export", "zfs_vdev_add", "zfs_device_replace", "zfs_scrub",
    "zfs_dataset_create", "zfs_dataset_destroy", "zfs_snapshot_create", "zfs_snapshot_rollback",
    "zfs_snapshot_destroy", "zfs_snapshot_clone"]

/-- `DEFS[id].tasks ?? []` -/
def tasksOf : String → List String
  | "panel.servers.admin" => ["update_agent"]
  | "panel.docker.control" => ["docker_stack_action", "docker_container_action"]
  | "panel.docker.deploy" => ["docker_compose_action", "docker_image_pull"]
  | "panel.systemd.write" => ["service_action"]
  | "panel.zfs.write" =>
    ["zfs_scrub", "zfs_dataset_create", "zfs_dataset_destroy", "zfs_snapshot_create",
      "zfs_snapshot_rollback", "zfs_snapshot_destroy", "zfs_snapshot_clone"]
  | "panel.zfs.admin" =>
    ["zfs_pool_create", "zfs_pool_destroy", "zfs_pool_import", "zfs_pool_export",
      "zfs_vdev_add", "zfs_device_replace"]
  | "panel.network.read" => ["find_wan_ip"]
  | "panel.exec" => ["cmd", "exec"]
  | "panel.settings.admin" => ["update_control_plane", "debug_fake"]
  | _ => []

/-- The features of the first batch, with the kinds each one handles. -/
def baseFeatures : List (String × List String) :=
  [("compose", []),
    ("docker", ["docker_stack_action", "docker_container_action", "docker_image_pull",
      "docker_compose_action"]),
    ("zfs", ["zfs_pool_create", "zfs_pool_destroy", "zfs_pool_import", "zfs_pool_export",
      "zfs_vdev_add", "zfs_device_replace", "zfs_scrub", "zfs_dataset_create",
      "zfs_dataset_destroy", "zfs_snapshot_create", "zfs_snapshot_rollback",
      "zfs_snapshot_destroy", "zfs_snapshot_clone"]),
    ("systemd", ["service_action"]), ("system-users", []), ("files", []), ("processes", []),
    ("network", ["find_wan_ip"]), ("terminal", ["cmd", "exec"]), ("debug", ["debug_fake"]),
    ("auth", []), ("apps", []), ("oidc", []), ("dashboard", []), ("proxy", []),
    ("servers", ["update_agent"]), ("settings", ["update_control_plane"])]

/-! ### Tables whose keys are claimed once -/

section Tables

-- the text of a property that every object inherits, which depends on the engine
variable (inheritedText : String → String)

/-- Give a key to its owner. A key that finds something is refused, with a message about what
it finds. -/
def claim (message : String → String) (owner : String) (out : Table String String)
    (key : String) : Except String (Table String String) :=
  match lookup out key with
  | .own other => .error (message other)
  | .inherited => .error (message (inheritedText key))
  | .absent => .ok (out.set key owner)

/-- The two loops: every owner claims its keys. The message takes the owner, the key and what
the key finds. -/
def claimAll (message : String → String → String → String) (slices : List (String × List String))
    (out : Table String String) : Except String (Table String String) :=
  slices.foldlM (fun out slice =>
    slice.2.foldlM (fun out key => claim inheritedText (message slice.1 key) slice.1 out key) out)
    out

def buildTaskRequirements : Except String (Table String String) :=
  claimAll inheritedText
    (fun id kind other => s!"Task kind \"{kind}\" is classified twice: \"{other}\" and \"{id}\"")
    (panelPermissionIds.map fun id => (id, tasksOf id)) .empty

/-- A key is given to the feature that provides it, which stands for its handler. -/
def mergeSlices (label : String) (slices : List (String × List String)) :
    Except String (Table String String) :=
  claimAll inheritedText
    (fun id key other => s!"Feature \"{id}\" and \"{other}\" both provide {label} \"{key}\"")
    slices .empty

def composeTaskHandlers (features : List (String × List String)) :
    Except String (Table String String) :=
  mergeSlices inheritedText "task kind" features

/-- `TASK_KIND_PERMISSIONS`. No kind is classified twice (`buildTaskRequirements_ok`). -/
@[irreducible] def taskKindPermissions : Table String String :=
  (buildTaskRequirements inheritedText).toOption.getD .empty

/-- `allTaskHandlers` -/
@[irreducible] def allTaskHandlers : Table String String :=
  (composeTaskHandlers inheritedText baseFeatures).toOption.getD .empty

variable {inheritedText}

theorem claim_fresh {message : String → String} {owner key : String} {out : Table String String}
    (h_name : key ∉ inheritedNames) (h_fresh : out.get? key = none) :
    claim inheritedText message owner out key = .ok (out.set key owner) := by
  rw [claim, lookup_absent h_fresh h_name]

/-- One owner claims distinct keys that are free. -/
theorem claimSlice_ok (inheritedText : String → String) (message : String → String → String)
    (owner : String) {keys : List String} {out : Table String String} (h_nodup : keys.Nodup)
    (h_names : ∀ k ∈ keys, k ∉ inheritedNames) (h_fresh : ∀ k ∈ keys, out.get? k = none) :
    ∃ out', keys.foldlM (fun out key => claim inheritedText (message key) owner out key) out =
        .ok out' ∧
      ∀ k v, out'.get? k = some v ↔ (k ∈ keys ∧ v = owner) ∨ out.get? k = some v := by
  induction keys generalizing out with
  | nil => exact ⟨out, rfl, fun k v => by simp⟩
  | cons key keys ih =>
    obtain ⟨h_new, h_nodup⟩ := List.nodup_cons.mp h_nodup
    have h_free : out.get? key = none := h_fresh key List.mem_cons_self
    have h_rest : ∀ k ∈ keys, (out.set key owner).get? k = none := by
      intro k h_k
      have h_ne : k ≠ key := fun h_eq => h_new (h_eq ▸ h_k)
      rw [Table.get?_set_of_ne out owner h_ne]
      exact h_fresh k (List.mem_cons_of_mem _ h_k)
    obtain ⟨out', h_ok, h_get⟩ :=
      ih h_nodup (fun k h_k => h_names k (List.mem_cons_of_mem _ h_k)) h_rest
    refine ⟨out', ?_, fun k v => ?_⟩
    · rw [List.foldlM_cons, claim_fresh (h_names key List.mem_cons_self) h_free]
      exact h_ok
    · rw [h_get, Table.get?_set, List.mem_cons]
      by_cases h_k : k = key
      · subst h_k
        simp only [if_true, h_free, Option.some.injEq, reduceCtorEq, or_false, true_or, true_and]
        constructor
        · rintro (⟨-, rfl⟩ | rfl)
          · rfl
          · rfl
        · rintro rfl
          exact .inr rfl
      · simp only [h_k, if_false, false_or]

/-- **Keys that are claimed once.** Each one ends up with the owner that claims it. -/
theorem claimAll_ok (inheritedText : String → String)
    (message : String → String → String → String) {slices : List (String × List String)}
    {out : Table String String}
    (h_nodup : (slices.flatMap Prod.snd).Nodup)
    (h_names : ∀ k ∈ slices.flatMap Prod.snd, k ∉ inheritedNames)
    (h_fresh : ∀ k ∈ slices.flatMap Prod.snd, out.get? k = none) :
    ∃ out', claimAll inheritedText message slices out = .ok out' ∧
      ∀ k v, out'.get? k = some v ↔
        (∃ keys, (v, keys) ∈ slices ∧ k ∈ keys) ∨ out.get? k = some v := by
  induction slices generalizing out with
  | nil => exact ⟨out, rfl, fun k v => by simp⟩
  | cons slice slices ih =>
    obtain ⟨owner, keys⟩ := slice
    rw [List.flatMap_cons] at h_nodup h_names h_fresh
    obtain ⟨h_keys, h_slices, h_disjoint⟩ := List.nodup_append'.mp h_nodup
    obtain ⟨out₁, h_ok₁, h_get₁⟩ := claimSlice_ok inheritedText (message owner) owner h_keys
      (fun k h_k => h_names k (List.mem_append_left _ h_k))
      (fun k h_k => h_fresh k (List.mem_append_left _ h_k))
    have h_rest : ∀ k ∈ slices.flatMap Prod.snd, out₁.get? k = none := by
      intro k h_k
      rw [Option.eq_none_iff_forall_ne_some]
      intro v h_v
      obtain ⟨h_mem, -⟩ | h_old := (h_get₁ k v).mp h_v
      · exact h_disjoint h_mem h_k
      · rw [h_fresh k (List.mem_append_right _ h_k)] at h_old
        cases h_old
    obtain ⟨out', h_ok, h_get⟩ :=
      ih h_slices (fun k h_k => h_names k (List.mem_append_right _ h_k)) h_rest
    refine ⟨out', ?_, fun k v => ?_⟩
    · rw [claimAll, List.foldlM_cons, h_ok₁]
      exact h_ok
    · rw [h_get, h_get₁]
      constructor
      · rintro (⟨keys', h_mem, h_k⟩ | ⟨h_k, rfl⟩ | h_old)
        · exact .inl ⟨keys', List.mem_cons_of_mem _ h_mem, h_k⟩
        · exact .inl ⟨keys, List.mem_cons_self, h_k⟩
        · exact .inr h_old
      · rintro (⟨keys', h_mem, h_k⟩ | h_old)
        · obtain h_eq | h_mem := List.mem_cons.mp h_mem
          · obtain ⟨rfl, rfl⟩ := Prod.mk.inj h_eq
            exact .inr (.inl ⟨h_k, rfl⟩)
          · exact .inl ⟨keys', h_mem, h_k⟩
        · exact .inr (.inr h_old)

/-- What the loops leave when every key is claimed once. -/
theorem claimAll_getD {message : String → String → String → String}
    {slices : List (String × List String)} (h_nodup : (slices.flatMap Prod.snd).Nodup)
    (h_names : ∀ k ∈ slices.flatMap Prod.snd, k ∉ inheritedNames) {k v : String} :
    ((claimAll inheritedText message slices .empty).toOption.getD .empty).get? k = some v ↔
      ∃ keys, (v, keys) ∈ slices ∧ k ∈ keys := by
  obtain ⟨out, h_ok, h_get⟩ := claimAll_ok inheritedText message h_nodup h_names
    (fun _ _ => Table.get?_empty _)
  rw [h_ok]
  show out.get? k = some v ↔ _
  rw [h_get, Table.get?_empty]
  simp

/-- **The registry**: a kind is gated by the node that lists it. -/
theorem taskKindPermissions_get? {kind id : String} :
    (taskKindPermissions inheritedText).get? kind = some id ↔
      id ∈ panelPermissionIds ∧ kind ∈ tasksOf id := by
  rw [taskKindPermissions, buildTaskRequirements,
    claimAll_getD (by decide) (by decide)]
  constructor
  · rintro ⟨keys, h_mem, h_kind⟩
    obtain ⟨id', h_id, h_eq⟩ := List.mem_map.mp h_mem
    obtain ⟨rfl, rfl⟩ := Prod.mk.inj h_eq
    exact ⟨h_id, h_kind⟩
  · rintro ⟨h_id, h_kind⟩
    exact ⟨tasksOf id, List.mem_map_of_mem h_id, h_kind⟩

/-- **The handlers**: a kind is handled by the feature that provides it. -/
theorem allTaskHandlers_get? {kind feature : String} :
    (allTaskHandlers inheritedText).get? kind = some feature ↔
      ∃ kinds, (feature, kinds) ∈ baseFeatures ∧ kind ∈ kinds := by
  rw [allTaskHandlers, composeTaskHandlers, mergeSlices,
    claimAll_getD (by decide) (by decide)]

/-- **The three agree** on what a kind is. -/
theorem kinds_agree (inheritedText : String → String) (kind : String) :
    (kind ∈ taskKinds ↔ ((taskKindPermissions inheritedText).get? kind).isSome = true) ∧
      (kind ∈ taskKinds ↔ ((allTaskHandlers inheritedText).get? kind).isSome = true) := by
  have h_gated : ∀ k ∈ taskKinds, ∃ id ∈ panelPermissionIds, k ∈ tasksOf id := by decide
  have h_handled : ∀ k ∈ taskKinds, ∃ slice ∈ baseFeatures, k ∈ slice.2 := by decide
  have h_declared : (∀ id ∈ panelPermissionIds, ∀ k ∈ tasksOf id, k ∈ taskKinds) ∧
      ∀ slice ∈ baseFeatures, ∀ k ∈ slice.2, k ∈ taskKinds := by decide
  simp only [Option.isSome_iff_exists, taskKindPermissions_get?, allTaskHandlers_get?]
  refine ⟨⟨h_gated kind, ?_⟩, fun h_kind => ?_, ?_⟩
  · rintro ⟨id, h_id, h_kind⟩
    exact h_declared.1 id h_id kind h_kind
  · obtain ⟨⟨feature, kinds⟩, h_mem, h_k⟩ := h_handled kind h_kind
    exact ⟨feature, kinds, h_mem, h_k⟩
  · rintro ⟨feature, kinds, h_mem, h_kind⟩
    exact h_declared.2 _ h_mem kind h_kind

end Tables

end ServerCentral.Tasks
