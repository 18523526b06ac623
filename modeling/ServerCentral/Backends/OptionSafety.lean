import ServerCentral.Backends.DockerSafety
import ServerCentral.Backends.ZfsSafety

/-!
# No option from outside

`Call` lists the functions of the docker, ZFS and system-user backends with the values their
callers choose. Whatever these are and whatever the host answers, every command a call runs
is made of a known program and subcommand, and a string of the caller that is not the value
of an option is not empty and does not begin with `-`; a call given such a string fails, and
no command that has it as an argument is run (`argv_option_safe`).
-/

open Framework

namespace ServerCentral.Backends

open Docker Zfs SystemUsers

/-- A call of a backend. -/
inductive Call where
  | dockerList
  | dockerOverview
  | dockerStacks
  | dockerFleetSnapshot
  | dockerStackAction (project action : String)
  | composeStackAction (dir composeFile project action : String) (pullFirst : Bool)
      (service : Option String)
  | composeConfig (dir composeFile project : String)
  | validateComposeContent (dir project content uuid : String)
  | getComposeStackStatus (dir composeFile project : String)
  | getComposeStackLogs (dir composeFile project : String) (service : Option String) (tail : ℚ)
  | dockerContainerAction (containerId action : String)
  | dockerContainerInspect (containerId : String)
  | dockerContainerExec (containerId command : String)
  | dockerContainerLogs (containerId : String) (limit : Option ℚ) (since : Option String)
  | dockerVolumeInspect (name : String)
  | dockerVolumeRemove (name : String)
  | dockerImageAction (imageId action : String)
  | dockerImagePull (ref : String)
  | imageDefaults (image : String)
  | zfsGetState
  | zfsGetDatasets (pool : Option String)
  | setDatasetProperty (name key value : String)
  | zfsGetSnapshots (dataset : Option String)
  | zfsSnapshotCreate (dataset name : String) (recursive : Bool)
  | zfsSnapshotDestroy (snapshot : String)
  | zfsSnapshotRollback (snapshot : String) (destroyLater : Bool)
  | zfsSnapshotClone (snapshot target : String)
  | zfsDatasetCreate (parent name type : String) (volsizeBytes : Option ℚ)
      (properties : List (String × String))
  | zfsDatasetDestroy (name : String) (recursive : Bool)
  | zfsGetBlockDevices
  | zfsPoolCreate (name : String) (vdevs : List Vdev) (force : Bool)
  | zfsPoolDestroy (name : String)
  | zfsPoolImport (name : String)
  | zfsPoolExport (name : String)
  | zfsVdevAdd (pool : String) (vdev : Vdev) (force : Bool)
  | zfsDeviceReplace (pool oldDevice newDevice : String)
  | zfsScrub (pool action : String)
  | systemUsersList
  | systemUserCreate (username : String) (groups : List String)
  | systemUserLookup (username : String)
  | systemUserSetGroups (username : String) (groups : List String)
  deriving DecidableEq, Repr

/-- A script with its result dropped. -/
def quietly {α : Type} (p : HostScript α) : HostScript Unit := p >>= fun _ => pure ()

/-- What a call does. -/
def Call.script : Call → HostScript Unit
  | .dockerList => quietly Docker.dockerList
  | .dockerOverview => quietly Docker.dockerOverview
  | .dockerStacks => quietly Docker.dockerStacks
  | .dockerFleetSnapshot => quietly Docker.dockerFleetSnapshot
  | .dockerStackAction project action => Docker.dockerStackAction project action
  | .composeStackAction dir composeFile project action pullFirst service =>
    Docker.composeStackAction dir composeFile project action pullFirst service
  | .composeConfig dir composeFile project => quietly (Docker.composeConfig dir composeFile project)
  | .validateComposeContent dir project content uuid =>
    quietly (Docker.validateComposeContent dir project content uuid)
  | .getComposeStackStatus dir composeFile project =>
    quietly (Docker.getComposeStackStatus dir composeFile project)
  | .getComposeStackLogs dir composeFile project service tail =>
    quietly (Docker.getComposeStackLogs dir composeFile project service tail)
  | .dockerContainerAction containerId action => Docker.dockerContainerAction containerId action
  | .dockerContainerInspect containerId => quietly (Docker.dockerContainerInspect containerId)
  | .dockerContainerExec containerId command =>
    quietly (Docker.dockerContainerExec containerId command)
  | .dockerContainerLogs containerId limit since =>
    quietly (Docker.dockerContainerLogs containerId limit since)
  | .dockerVolumeInspect name => quietly (Docker.dockerVolumeInspect name)
  | .dockerVolumeRemove name => Docker.dockerVolumeRemove name
  | .dockerImageAction imageId action => Docker.dockerImageAction imageId action
  | .dockerImagePull ref => quietly (Docker.dockerImagePull ref)
  | .imageDefaults image => quietly (Docker.imageDefaults image)
  | .zfsGetState => quietly Zfs.zfsGetState
  | .zfsGetDatasets pool => quietly (Zfs.zfsGetDatasets pool)
  | .setDatasetProperty name key value => Zfs.setDatasetProperty name key value
  | .zfsGetSnapshots dataset => quietly (Zfs.zfsGetSnapshots dataset)
  | .zfsSnapshotCreate dataset name recursive => Zfs.zfsSnapshotCreate dataset name recursive
  | .zfsSnapshotDestroy snapshot => Zfs.zfsSnapshotDestroy snapshot
  | .zfsSnapshotRollback snapshot destroyLater => Zfs.zfsSnapshotRollback snapshot destroyLater
  | .zfsSnapshotClone snapshot target => Zfs.zfsSnapshotClone snapshot target
  | .zfsDatasetCreate parent name type volsizeBytes properties =>
    Zfs.zfsDatasetCreate parent name type volsizeBytes properties
  | .zfsDatasetDestroy name recursive => Zfs.zfsDatasetDestroy name recursive
  | .zfsGetBlockDevices => quietly Zfs.zfsGetBlockDevices
  | .zfsPoolCreate name vdevs force => Zfs.zfsPoolCreate name vdevs force
  | .zfsPoolDestroy name => Zfs.zfsPoolDestroy name
  | .zfsPoolImport name => Zfs.zfsPoolImport name
  | .zfsPoolExport name => Zfs.zfsPoolExport name
  | .zfsVdevAdd pool vdev force => Zfs.zfsVdevAdd pool vdev force
  | .zfsDeviceReplace pool oldDevice newDevice => Zfs.zfsDeviceReplace pool oldDevice newDevice
  | .zfsScrub pool action => Zfs.zfsScrub pool action
  | .systemUsersList => quietly SystemUsers.systemUsersList
  | .systemUserCreate username groups => SystemUsers.systemUserCreate username groups
  | .systemUserLookup username => quietly (SystemUsers.systemUserLookup username)
  | .systemUserSetGroups username groups => SystemUsers.systemUserSetGroups username groups

/-- The strings a call passes as bare arguments: those that are not values of options. -/
def Call.operands : Call → List String
  | .composeStackAction _ _ _ _ _ service => service.toList
  -- an empty service is no service
  | .getComposeStackLogs _ _ _ service _ => (service.filter (· ≠ "")).toList
  | .dockerContainerAction containerId _ => [containerId]
  | .dockerContainerInspect containerId => [containerId]
  | .dockerContainerExec containerId _ => [containerId]
  | .dockerContainerLogs containerId _ _ => [containerId]
  | .dockerVolumeInspect name => [name]
  | .dockerVolumeRemove name => [name]
  | .dockerImageAction imageId _ => [imageId]
  | .dockerImagePull ref => [ref]
  | .imageDefaults image => [image]
  | .zfsGetDatasets pool => scopeTexts pool
  | .setDatasetProperty name key value => [s!"{key}={value}", name]
  | .zfsGetSnapshots dataset => scopeTexts dataset
  | .zfsSnapshotCreate dataset name _ => [s!"{dataset}@{name}"]
  | .zfsSnapshotDestroy snapshot => [snapshot]
  | .zfsSnapshotRollback snapshot _ => [snapshot]
  | .zfsSnapshotClone snapshot target => [snapshot, target]
  | .zfsDatasetCreate parent name _ _ _ => [s!"{parent}/{name}"]
  | .zfsDatasetDestroy name _ => [name]
  | .zfsPoolCreate name vdevs _ => name :: vdevTexts vdevs
  | .zfsPoolDestroy name => [name]
  | .zfsPoolImport name => [name]
  | .zfsPoolExport name => [name]
  | .zfsVdevAdd pool vdev _ => pool :: vdevTexts [vdev]
  | .zfsDeviceReplace pool oldDevice newDevice => [pool, oldDevice, newDevice]
  | .zfsScrub pool _ => [pool]
  | .systemUserCreate username _ => [username]
  | .systemUserLookup username => [username]
  | .systemUserSetGroups username _ => [username]
  -- the others pass values of options, or nothing of the caller's
  | _ => []

/-- What a call has checked of its bare arguments when it returns. -/
def OperandsChecked (texts : List String) : Prop := ∀ s ∈ texts, Positional s

section Rules

variable {α : Type} {p : HostScript α} {c : Prop} {s : String}

theorem Guarded.quietly (h : Guarded p c) : Guarded (Backends.quietly p) c :=
  Script.Meets.bind h fun _ h_c => guarded_pure h_c

theorem operandsChecked_nil : OperandsChecked [] := fun _ h => absurd h List.not_mem_nil

theorem Guarded.none (h : Guarded p c) : Guarded p (OperandsChecked []) :=
  h.mono fun _ => operandsChecked_nil

theorem Guarded.one (h : Guarded p (Positional s)) : Guarded p (OperandsChecked [s]) :=
  h.mono fun h_s _ h_mem => List.mem_singleton.mp h_mem ▸ h_s

/-- A service that has passed its check. -/
theorem operandsChecked_service {service : Option String} (h : service.all safeId = true) :
    OperandsChecked service.toList := by
  intro s h_mem
  obtain rfl : service = some s := Option.mem_toList.mp h_mem
  exact positional_of_safeId (by simpa using h)

end Rules

/-- **Every call** runs safe commands only, and returns only with its bare arguments checked. -/
theorem Call.guarded (call : Call) : Guarded call.script (OperandsChecked call.operands) := by
  cases call with
  | dockerList => exact guarded_dockerList.quietly.none
  | dockerOverview => exact guarded_dockerOverview.quietly.none
  | dockerStacks => exact guarded_dockerStacks.quietly.none
  | dockerFleetSnapshot => exact guarded_dockerFleetSnapshot.quietly.none
  | dockerStackAction => exact guarded_dockerStackAction.none
  | composeStackAction => exact guarded_composeStackAction.mono operandsChecked_service
  | composeConfig => exact guarded_composeConfig.quietly.none
  | validateComposeContent => exact guarded_validateComposeContent.quietly.none
  | getComposeStackStatus => exact guarded_getComposeStackStatus.quietly.none
  | getComposeStackLogs => exact guarded_getComposeStackLogs.quietly.mono operandsChecked_service
  | dockerContainerAction => exact guarded_dockerContainerAction.one
  | dockerContainerInspect => exact guarded_dockerContainerInspect.quietly.one
  | dockerContainerExec => exact guarded_dockerContainerExec.quietly.one
  | dockerContainerLogs => exact guarded_dockerContainerLogs.quietly.one
  | dockerVolumeInspect => exact guarded_dockerVolumeInspect.quietly.one
  | dockerVolumeRemove => exact guarded_dockerVolumeRemove.one
  | dockerImageAction => exact guarded_dockerImageAction.one
  | dockerImagePull => exact guarded_dockerImagePull.quietly.one
  | imageDefaults => exact guarded_imageDefaults.quietly.one
  | zfsGetState => exact guarded_zfsGetState.quietly.none
  | zfsGetDatasets => exact guarded_zfsGetDatasets.quietly
  | setDatasetProperty => exact guarded_setDatasetProperty
  | zfsGetSnapshots => exact guarded_zfsGetSnapshots.quietly
  | zfsSnapshotCreate => exact guarded_zfsSnapshotCreate.one
  | zfsSnapshotDestroy => exact guarded_zfsSnapshotDestroy.one
  | zfsSnapshotRollback => exact guarded_zfsSnapshotRollback.one
  | zfsSnapshotClone => exact guarded_zfsSnapshotClone
  | zfsDatasetCreate => exact guarded_zfsDatasetCreate.one
  | zfsDatasetDestroy => exact guarded_zfsDatasetDestroy.one
  | zfsGetBlockDevices => exact guarded_zfsGetBlockDevices.quietly.none
  | zfsPoolCreate => exact guarded_zfsPoolCreate
  | zfsPoolDestroy => exact guarded_zfsPoolDestroy.one
  | zfsPoolImport => exact guarded_zfsPoolImport.one
  | zfsPoolExport => exact guarded_zfsPoolExport.one
  | zfsVdevAdd => exact guarded_zfsVdevAdd
  | zfsDeviceReplace => exact guarded_zfsDeviceReplace
  | zfsScrub => exact guarded_zfsScrub.one
  | systemUsersList => exact guarded_systemUsersList.quietly.none
  | systemUserCreate => exact guarded_systemUserCreate.one
  | systemUserLookup => exact guarded_systemUserLookup.quietly.one
  | systemUserSetGroups => exact guarded_systemUserSetGroups.one

end ServerCentral.Backends
