import ServerCentral.Backends.SystemUsers
import ServerCentral.Backends.Zfs

/-!
# No option from outside: ZFS and system users

For every function of the two backends, that the commands it runs are `OptionSafe`, and that
it returns only if the strings it passes as bare arguments are `Positional`.
-/

open Framework

namespace ServerCentral.Backends

namespace Zfs

/-! ### Checks -/

theorem positional_of_safeName {s : String} (h : safeName s = true) : Positional s :=
  .of_leadTail (by decide) h

theorem positional_of_safePropKey {s : String} (h : safePropKey s = true) : Positional s :=
  .of_leadTail (by decide) h

theorem positional_of_safeDeviceRef {s : String} (h : safeDeviceRef s = true) : Positional s :=
  .of_leadTail (by decide) h

/-- The name before the `@` is no option, and so the whole is none. -/
theorem positional_of_safeSnapshot {s : String} (h : safeSnapshot s = true) : Positional s := by
  rw [safeSnapshot, Bool.and_eq_true] at h
  have h_dataset := positional_of_safeName h.1
  have h_whole := h_dataset.append (String.ofList (s.toList.dropWhile (· ≠ '@')))
  rwa [← String.ofList_append, List.takeWhile_append_dropWhile, String.ofList_toList] at h_whole

theorem positional_of_safeNewDevice {s : String} (h : safeNewDevice s = true) : Positional s := by
  rw [safeNewDevice, Bool.and_eq_true] at h
  obtain ⟨rest, h_rest⟩ := List.isPrefixOf_iff_prefix.mp h.1
  have h_list : s.toList = '/' :: ("dev/".toList ++ rest) := h_rest.symm
  exact .of_head h_list (by decide)

theorem positional_of_vdevType {s : String} (h : s ∈ vdevTypes) : Positional s := by
  simp only [vdevTypes, List.mem_cons, List.not_mem_nil, or_false] at h
  rcases h with rfl | rfl | rfl | rfl | rfl | rfl | rfl | rfl <;>
    exact ⟨by simp, by decide⟩

theorem guarded_assertName {name label : String} :
    Guarded (assertName name label) (Positional name) :=
  guarded_require.mono positional_of_safeName

theorem guarded_assertSnapshotName {name : String} :
    Guarded (assertSnapshotName name) (Positional name) :=
  guarded_require.mono positional_of_safeSnapshot

theorem guarded_assertPropKey {key : String} : Guarded (assertPropKey key) (Positional key) :=
  guarded_require.mono positional_of_safePropKey

theorem guarded_assertPropValue {value : String} : Guarded (assertPropValue value) True :=
  guarded_require.mono fun _ => trivial

theorem guarded_assertDeviceRef {device : String} :
    Guarded (assertDeviceRef device) (Positional device) :=
  guarded_require.mono positional_of_safeDeviceRef

theorem guarded_assertNewDevice {device : String} :
    Guarded (assertNewDevice device) (Positional device) :=
  guarded_require.mono positional_of_safeNewDevice

theorem guarded_assertVdevType {type : String} :
    Guarded (assertVdevType type) (Positional type) :=
  guarded_require.mono positional_of_vdevType

/-! ### Running commands -/

theorem guarded_runOrThrow {argv : Argv} (h : OptionSafe argv) : Guarded (runOrThrow argv) True :=
  Guarded.bind (guarded_run h) fun _ _ => guarded_require.mono fun _ => trivial

/-- A flag is not read as anything but a flag. -/
theorem flag_scan {path : List String} {w : String} (h_words : w ∉ commandWords path)
    (h_option : isOption w = true) (h_value : (valueOptions path).contains w = false) (b : Bool)
    (rest : Argv) : scan path false (flag b w ++ rest) = scan path false rest := by
  cases b with
  | false => rfl
  | true =>
    have h_flag : flag true w ++ rest = .word w :: rest := rfl
    rw [h_flag, scan, if_neg h_words, if_pos h_option, h_value]

/-! ### Listings -/

theorem guarded_zfsGetState : Guarded zfsGetState True := by
  refine Guarded.bind (guarded_run (.of_closed rfl)) fun _ probe => ?_
  refine .ite (fun _ => guarded_pure trivial) fun _ => ?_
  refine Guarded.bind (guarded_run (.of_closed rfl)) fun _ listRes => ?_
  refine Guarded.bind (guarded_run (.of_closed rfl)) fun _ statusRes => ?_
  exact .ite (fun _ => guarded_pure trivial) fun _ => guarded_pure trivial

/-- The texts a scope puts on the command line. -/
def scopeTexts (scope : Option String) : List String := scope.toList.filter (· ≠ "")

theorem guarded_assertScope {scope : Option String} {label : String} :
    Guarded (assertScope scope label) (∀ s ∈ scopeTexts scope, Positional s) := by
  unfold assertScope
  cases scope with
  | none => exact guarded_pure (by simp [scopeTexts])
  | some name =>
    refine .ite (fun h => guarded_pure (by simp [scopeTexts, h])) fun h_ne => ?_
    refine guarded_assertName.mono fun h s h_mem => ?_
    obtain rfl : s = name := by simpa using (List.mem_filter.mp h_mem).1
    exact h

theorem scopeArgs_scan (scope : Option String) :
    scan ["zfs", "list"] false (scopeArgs scope) =
      scan ["zfs", "list"] false ((scopeTexts scope).map .caller) := by
  unfold scopeArgs
  cases scope with
  | none => rfl
  | some name =>
    by_cases h : name = ""
    · subst h
      rfl
    · have h_texts : scopeTexts (some name) = [name] := by simp [scopeTexts, h]
      rw [h_texts]
      dsimp only
      rw [if_neg h]
      rfl

theorem guarded_zfsGetDatasets {pool : Option String} :
    Guarded (zfsGetDatasets pool) (∀ s ∈ scopeTexts pool, Positional s) := by
  refine Guarded.bind guarded_assertScope fun h_scope _ => ?_
  refine Guarded.bind (guarded_run ?_) fun _ res =>
    Guarded.bind guarded_require fun _ _ => guarded_pure h_scope
  exact OptionSafe.of_callers ["zfs", "list"] _ (scopeArgs_scan pool :)
    (by simp [commandPaths]) h_scope

theorem guarded_zfsGetSnapshots {dataset : Option String} :
    Guarded (zfsGetSnapshots dataset) (∀ s ∈ scopeTexts dataset, Positional s) := by
  refine Guarded.bind guarded_assertScope fun h_scope _ => ?_
  refine Guarded.bind (guarded_run ?_) fun _ res =>
    .ite (fun _ => guarded_pure h_scope) fun _ => .ite (fun _ => guarded_pure h_scope)
      fun _ => .fail
  exact OptionSafe.of_callers ["zfs", "list"] _ (scopeArgs_scan dataset :)
    (by simp [commandPaths]) h_scope

theorem guarded_zfsGetBlockDevices : Guarded zfsGetBlockDevices True := by
  refine Guarded.bind (guarded_run (.of_closed rfl)) fun _ lsblkRes => ?_
  refine Guarded.bind guarded_resolvePaths fun _ byIdRes => ?_
  refine Guarded.bind (guarded_run (.of_closed rfl)) fun _ statusRes => ?_
  exact Guarded.bind guarded_require fun _ _ => guarded_pure trivial

/-! ### Datasets and snapshots -/

theorem guarded_setDatasetProperty {name key value : String} :
    Guarded (setDatasetProperty name key value)
      (∀ s ∈ [s!"{key}={value}", name], Positional s) := by
  refine Guarded.bind guarded_assertName fun h_name _ => ?_
  refine Guarded.bind guarded_assertPropKey fun h_key _ => ?_
  refine Guarded.bind guarded_assertPropValue fun _ _ => ?_
  have h_pair : Positional s!"{key}={value}" := by
    have h := h_key.append ("=" ++ value)
    rwa [← String.append_assoc] at h
  have h_texts : ∀ s ∈ [s!"{key}={value}", name], Positional s := by
    simpa using ⟨h_pair, h_name⟩
  exact (guarded_runOrThrow (OptionSafe.of_callers ["zfs", "set"] _ rfl
    (by simp [commandPaths]) h_texts)).mono fun _ => h_texts

/-- A command on one checked name, behind a flag. -/
theorem guarded_flagged {pre : Argv} (path : List String) {w s : String} {b : Bool}
    (h_scan : ∀ rest, scan [] false (pre ++ rest) = scan path false rest)
    (h_path : path ∈ commandPaths) (h_words : w ∉ commandWords path) (h_option : isOption w = true)
    (h_value : (valueOptions path).contains w = false) (h : Positional s) :
    Guarded (runOrThrow (pre ++ flag b w ++ [.caller s])) (Positional s) := by
  have h_line : scan [] false (pre ++ flag b w ++ [.caller s]) =
      scan path false ([s].map .caller) := by
    rw [List.append_assoc, h_scan, flag_scan h_words h_option h_value]
    rfl
  exact (guarded_runOrThrow (OptionSafe.of_callers path [s] h_line h_path (by simpa using h))).mono
    fun _ => h

theorem guarded_zfsSnapshotCreate {dataset name : String} {recursive : Bool} :
    Guarded (zfsSnapshotCreate dataset name recursive) (Positional s!"{dataset}@{name}") := by
  refine Guarded.bind guarded_assertName fun _ _ => Guarded.bind guarded_assertName fun _ _ => ?_
  refine Guarded.bind guarded_assertSnapshotName fun h_full _ => ?_
  exact guarded_flagged ["zfs", "snapshot"] (fun _ => rfl) (by simp [commandPaths])
    (by decide) (by decide) rfl h_full

theorem guarded_zfsSnapshotDestroy {snapshot : String} :
    Guarded (zfsSnapshotDestroy snapshot) (Positional snapshot) := by
  refine Guarded.bind guarded_assertSnapshotName fun h_name _ => ?_
  exact (guarded_runOrThrow (OptionSafe.of_callers ["zfs", "destroy"] [snapshot]
    rfl (by simp [commandPaths]) (by simpa using h_name))).mono fun _ => h_name

theorem guarded_zfsSnapshotRollback {snapshot : String} {destroyLater : Bool} :
    Guarded (zfsSnapshotRollback snapshot destroyLater) (Positional snapshot) := by
  refine Guarded.bind guarded_assertSnapshotName fun h_name _ => ?_
  exact guarded_flagged ["zfs", "rollback"] (fun _ => rfl) (by simp [commandPaths])
    (by decide) (by decide) rfl h_name

theorem guarded_zfsSnapshotClone {snapshot target : String} :
    Guarded (zfsSnapshotClone snapshot target) (∀ s ∈ [snapshot, target], Positional s) := by
  refine Guarded.bind guarded_assertSnapshotName fun h_snapshot _ => ?_
  refine Guarded.bind guarded_assertName fun h_target _ => ?_
  have h_texts : ∀ s ∈ [snapshot, target], Positional s := by simpa using ⟨h_snapshot, h_target⟩
  exact (guarded_runOrThrow (OptionSafe.of_callers ["zfs", "clone"] _ rfl
    (by simp [commandPaths]) h_texts)).mono fun _ => h_texts

/-- Properties are values of `-o`. -/
theorem propFlags_scan (properties : List (String × String)) :
    (propFlags properties).Meets Request.Safe fun flags =>
      ∀ rest, scan ["zfs", "create"] false (flags ++ rest) =
        scan ["zfs", "create"] false rest := by
  induction properties with
  | nil => exact .pure fun _ => rfl
  | cons property rest ih =>
    obtain ⟨key, value⟩ := property
    refine Guarded.bind guarded_assertPropKey fun _ _ => ?_
    refine Guarded.bind guarded_assertPropValue fun _ _ => ?_
    refine ih.bind fun flags h_flags => ?_
    exact .pure fun rest => h_flags rest

theorem guarded_zfsDatasetCreate {parent name type : String} {volsizeBytes : Option ℚ}
    {properties : List (String × String)} :
    Guarded (zfsDatasetCreate parent name type volsizeBytes properties)
      (Positional s!"{parent}/{name}") := by
  refine Guarded.bind guarded_assertName fun _ _ => Guarded.bind guarded_assertName fun _ _ => ?_
  refine Guarded.bind guarded_assertName fun h_full _ => Guarded.bind guarded_require fun _ _ => ?_
  refine (propFlags_scan properties).bind fun props h_props => ?_
  refine (guarded_runOrThrow (OptionSafe.of_callers ["zfs", "create"] [s!"{parent}/{name}"] ?_
    (by simp [commandPaths]) (by simpa using h_full))).mono
      fun _ => h_full
  rw [List.append_assoc]
  split
  · exact h_props _
  · exact h_props _

theorem guarded_zfsDatasetDestroy {name : String} {recursive : Bool} :
    Guarded (zfsDatasetDestroy name recursive) (Positional name) := by
  refine Guarded.bind guarded_assertName fun h_name _ => ?_
  exact guarded_flagged ["zfs", "destroy"] (fun _ => rfl) (by simp [commandPaths])
    (by decide) (by decide) rfl h_name

/-! ### Pools -/

/-- The texts of vdevs on the command line. -/
def vdevTexts (vdevs : List Vdev) : List String :=
  vdevs.flatMap fun v => if v.type = "stripe" then v.devices else v.type :: v.devices

theorem guarded_assertNewDevices {devices : List String} :
    Guarded (assertNewDevices devices) (∀ s ∈ devices, Positional s) := by
  induction devices with
  | nil => exact guarded_pure (by simp)
  | cons device rest ih =>
    refine Guarded.bind guarded_assertNewDevice fun h_device _ => ih.mono fun h_rest => ?_
    simpa using ⟨h_device, h_rest⟩

theorem vdevArgs_spec (vdevs : List Vdev) :
    (vdevArgs vdevs).Meets Request.Safe fun args =>
      args = (vdevTexts vdevs).map .caller ∧ ∀ s ∈ vdevTexts vdevs, Positional s := by
  induction vdevs with
  | nil => exact .pure ⟨rfl, by simp [vdevTexts]⟩
  | cons v rest ih =>
    refine Guarded.bind guarded_assertVdevType fun h_type _ => ?_
    refine Guarded.bind guarded_require fun _ _ => ?_
    refine Guarded.bind guarded_assertNewDevices fun h_devices _ => ?_
    refine ih.bind fun args ⟨h_args, h_rest⟩ => ?_
    have h_texts : vdevTexts (v :: rest) =
        (if v.type = "stripe" then v.devices else v.type :: v.devices) ++ vdevTexts rest := by
      simp [vdevTexts]
    refine .pure ⟨?_, fun s h_mem => ?_⟩
    · rw [h_texts, h_args, List.map_append]
      split <;> rfl
    · rw [h_texts] at h_mem
      rcases List.mem_append.mp h_mem with h_head | h_tail
      · split at h_head
        · exact h_devices s h_head
        · rcases List.mem_cons.mp h_head with rfl | h_device
          · exact h_type
          · exact h_devices s h_device
      · exact h_rest s h_tail

/-- A `zpool` command on a pool and the vdevs it is to consist of. -/
theorem guarded_withVdevs {subcommand name : String} {vdevs : List Vdev} {force : Bool}
    (h_path : ["zpool", subcommand] ∈ commandPaths)
    (h_scan : ∀ rest, scan [] false ([.word "zpool", .word subcommand] ++ rest) =
      scan ["zpool", subcommand] false rest)
    (h_words : "-f" ∉ commandWords ["zpool", subcommand])
    (h_value : (valueOptions ["zpool", subcommand]).contains "-f" = false)
    (h_name : Positional name) :
    Guarded (do
      let args ← vdevArgs vdevs
      runOrThrow ([.word "zpool", .word subcommand] ++ flag force "-f" ++ [.caller name] ++ args))
      (∀ s ∈ name :: vdevTexts vdevs, Positional s) := by
  refine (vdevArgs_spec vdevs).bind fun args ⟨h_args, h_vdevs⟩ => ?_
  have h_texts : ∀ s ∈ name :: vdevTexts vdevs, Positional s := by simpa using ⟨h_name, h_vdevs⟩
  refine (guarded_runOrThrow (OptionSafe.of_callers ["zpool", subcommand] _ ?_ h_path h_texts)).mono
    fun _ => h_texts
  rw [h_args, List.append_assoc, List.append_assoc, h_scan, flag_scan h_words (by decide) h_value]
  rfl

theorem guarded_zfsPoolCreate {name : String} {vdevs : List Vdev} {force : Bool} :
    Guarded (zfsPoolCreate name vdevs force) (∀ s ∈ name :: vdevTexts vdevs, Positional s) := by
  refine Guarded.bind guarded_assertName fun h_name _ => Guarded.bind guarded_require fun _ _ => ?_
  exact guarded_withVdevs (by simp [commandPaths]) (fun _ => rfl) (by decide) rfl h_name

theorem guarded_zfsVdevAdd {pool : String} {vdev : Vdev} {force : Bool} :
    Guarded (zfsVdevAdd pool vdev force) (∀ s ∈ pool :: vdevTexts [vdev], Positional s) := by
  refine Guarded.bind guarded_assertName fun h_pool _ => ?_
  exact guarded_withVdevs (by simp [commandPaths]) (fun _ => rfl) (by decide) rfl h_pool

theorem guarded_poolCommand {subcommand name : String}
    (h_path : ["zpool", subcommand] ∈ commandPaths)
    (h_scan : scan [] false [.word "zpool", .word subcommand, .caller name] =
      scan ["zpool", subcommand] false [.caller name]) :
    Guarded (poolCommand subcommand name) (Positional name) := by
  refine Guarded.bind guarded_assertName fun h_name _ => ?_
  exact (guarded_runOrThrow (OptionSafe.of_callers ["zpool", subcommand] [name] h_scan h_path
    (by simpa using h_name))).mono fun _ => h_name

theorem guarded_zfsPoolDestroy {name : String} : Guarded (zfsPoolDestroy name) (Positional name) :=
  guarded_poolCommand (by simp [commandPaths]) rfl

theorem guarded_zfsPoolImport {name : String} : Guarded (zfsPoolImport name) (Positional name) :=
  guarded_poolCommand (by simp [commandPaths]) rfl

theorem guarded_zfsPoolExport {name : String} : Guarded (zfsPoolExport name) (Positional name) :=
  guarded_poolCommand (by simp [commandPaths]) rfl

theorem guarded_zfsDeviceReplace {pool oldDevice newDevice : String} :
    Guarded (zfsDeviceReplace pool oldDevice newDevice)
      (∀ s ∈ [pool, oldDevice, newDevice], Positional s) := by
  refine Guarded.bind guarded_assertName fun h_pool _ => ?_
  refine Guarded.bind guarded_assertDeviceRef fun h_old _ => ?_
  refine Guarded.bind guarded_assertNewDevice fun h_new _ => ?_
  have h_texts : ∀ s ∈ [pool, oldDevice, newDevice], Positional s := by
    simpa using ⟨h_pool, h_old, h_new⟩
  exact (guarded_runOrThrow (OptionSafe.of_callers ["zpool", "replace"] _ rfl
    (by simp [commandPaths]) h_texts)).mono fun _ => h_texts

theorem guarded_zfsScrub {pool action : String} :
    Guarded (zfsScrub pool action) (Positional pool) := by
  refine Guarded.bind guarded_assertName fun h_pool _ => ?_
  exact guarded_flagged ["zpool", "scrub"] (fun _ => rfl) (by simp [commandPaths])
    (by decide) (by decide) rfl h_pool

end Zfs

/-! ### System users -/

namespace SystemUsers

theorem positional_of_systemUsername {s : String} (h : systemUsername s = true) : Positional s := by
  unfold systemUsername at h
  split at h
  · exact absurd h (by simp)
  · next c cs h_list =>
    refine .of_head h_list ?_
    rintro rfl
    exact absurd h (by simp)

theorem guarded_assertSystemUsername {name : String} :
    Guarded (assertSystemUsername name) (Positional name) :=
  guarded_require.mono positional_of_systemUsername

theorem guarded_assertGroups {groups : List String} : Guarded (assertGroups groups) True := by
  induction groups with
  | nil => exact guarded_pure trivial
  | cons group rest ih => exact Guarded.bind guarded_assertSystemUsername fun _ _ => ih

theorem guarded_systemUsersList : Guarded systemUsersList True := by
  refine Guarded.bind (guarded_run (.of_closed rfl)) fun _ passwd => ?_
  refine .ite (fun _ => guarded_pure trivial) fun _ => ?_
  exact Guarded.bind (guarded_run (.of_closed rfl)) fun _ group => guarded_pure trivial

theorem guarded_systemUserCreate {username : String} {groups : List String} :
    Guarded (systemUserCreate username groups) (Positional username) := by
  refine Guarded.bind guarded_assertSystemUsername fun h_name _ => ?_
  refine Guarded.bind guarded_assertGroups fun _ _ => ?_
  refine Guarded.bind (guarded_run (.of_closed rfl)) fun _ bash => ?_
  refine Guarded.bind (guarded_run ?_) fun _ res => ?_
  · refine .of_bare ["useradd"] [.caller username] ?_ (by simp [commandPaths])
      (by simp [Arg.isWord]) fun s h_mem => ?_
    · split <;> split <;> rfl
    · obtain rfl : s = username := by simpa using h_mem
      exact h_name
  · exact guarded_require.mono fun _ => h_name

theorem guarded_systemUserLookup {username : String} :
    Guarded (systemUserLookup username) (Positional username) := by
  refine Guarded.bind guarded_assertSystemUsername fun h_name _ => ?_
  have h_safe : OptionSafe [.word "getent", .word "passwd", .caller username] :=
    OptionSafe.of_callers ["getent", "passwd"] [username] rfl
      (by simp [commandPaths]) (by simpa using h_name)
  refine Guarded.bind (guarded_run h_safe) fun _ passwd =>
    .ite (fun _ => guarded_pure h_name) fun _ => .ite (fun _ => guarded_pure h_name)
      fun _ => ?_
  exact Guarded.bind (guarded_run (.of_closed rfl)) fun _ group => guarded_pure h_name

theorem guarded_systemUserSetGroups {username : String} {groups : List String} :
    Guarded (systemUserSetGroups username groups) (Positional username) := by
  refine Guarded.bind guarded_assertSystemUsername fun h_name _ => ?_
  refine Guarded.bind guarded_assertGroups fun _ _ => ?_
  have h_safe : OptionSafe [.word "usermod", .word "-G", .caller (",".intercalate groups),
      .caller username] :=
    OptionSafe.of_callers ["usermod"] [username] rfl
      (by simp [commandPaths]) (by simpa using h_name)
  exact Guarded.bind (guarded_run h_safe) fun _ res => guarded_require.mono fun _ => h_name

end SystemUsers
end ServerCentral.Backends
