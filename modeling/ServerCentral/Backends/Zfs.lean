import ServerCentral.Backends.Commands
import Mathlib.Algebra.Order.Floor.Ring
import Mathlib.Data.List.Infix
import Mathlib.Data.Rat.Floor

/-!
# The ZFS backend

The functions of the ZFS backend as scripts: their checks, the commands they run and their
errors. What the listings make of the output is left out here.

No command line here takes `-f` with a value: `zpool create -f` and `zpool add -f` are
flags, and the name behind them is an argument of its own.
-/

open Framework

namespace ServerCentral.Backends

open Auth (trim)

namespace Zfs

/-! ### Checks -/

/-- `SAFE_NAME_RE`. -/
def safeName (s : String) : Bool :=
  leadTail Char.isAlphanum
    (fun c => c.isAlphanum || [' ', '_', '.', ':', '/', '-'].contains c) s.toList

/-- `SAFE_SNAPSHOT_RE`. Neither class has the `@` that stands between the two names. -/
def safeSnapshot (s : String) : Bool :=
  safeName (String.ofList (s.toList.takeWhile (· ≠ '@'))) &&
    match s.toList.dropWhile (· ≠ '@') with
    | [] => false
    | _ :: name =>
      leadTail Char.isAlphanum (fun c => c.isAlphanum || [' ', '_', '.', ':', '-'].contains c) name

/-- `SAFE_PROP_KEY_RE`. -/
def safePropKey (s : String) : Bool :=
  leadTail Char.isAlphanum (fun c => c.isAlphanum || ['_', ':', '.', '-'].contains c) s.toList

/-- `SAFE_PROP_VALUE_RE`. -/
def safePropValue (s : String) : Bool :=
  s.toList ≠ [] ∧
    s.toList.all fun c => c.isAlphanum || ['_', '.', '/', ':', '%', '-'].contains c

/-- `SAFE_DEVICE_REF_RE`. -/
def safeDeviceRef (s : String) : Bool :=
  leadTail (fun c => c.isAlphanum || c == '/')
    (fun c => c.isAlphanum || ['_', '.', ':', '/', '-'].contains c) s.toList

/-- `SAFE_NEW_DEVICE_RE`. -/
def safeNewDevice (s : String) : Bool :=
  "/dev/".toList.isPrefixOf s.toList &&
    let rest := s.toList.drop "/dev/".length
    decide (rest ≠ []) && rest.all fun c => c.isAlphanum || ['_', '.', '/', '-'].contains c

/-- One character of a string as `JSON.stringify` writes it. -/
def jsonChar (c : Char) : List Char :=
  if c = '"' then ['\\', '"']
  else if c = '\\' then ['\\', '\\']
  else if c = '\n' then ['\\', 'n']
  else if c = '\r' then ['\\', 'r']
  else if c = '\t' then ['\\', 't']
  else if c.toNat = 8 then ['\\', 'b']
  else if c.toNat = 12 then ['\\', 'f']
  else if c.toNat < 32 then
    ['\\', 'u', '0', '0', Nat.digitChar (c.toNat / 16), Nat.digitChar (c.toNat % 16)]
  else [c]

/-- `JSON.stringify` of a string. -/
def stringify (s : String) : String := String.ofList ('"' :: s.toList.flatMap jsonChar ++ ['"'])

def assertName (name label : String) : HostScript Unit :=
  let text := stringify name
  Script.require (safeName name) s!"Invalid ZFS {label}: {text}"

def assertSnapshotName (name : String) : HostScript Unit :=
  let text := stringify name
  Script.require (safeSnapshot name) s!"Invalid ZFS snapshot name: {text}"

def assertPropKey (key : String) : HostScript Unit :=
  let text := stringify key
  Script.require (safePropKey key) s!"Invalid ZFS property name: {text}"

def assertPropValue (value : String) : HostScript Unit :=
  let text := stringify value
  Script.require (safePropValue value) s!"Invalid ZFS property value: {text}"

def assertDeviceRef (device : String) : HostScript Unit :=
  let text := stringify device
  Script.require (safeDeviceRef device) s!"Invalid device reference: {text}"

def vdevTypes : List String :=
  ["stripe", "mirror", "raidz1", "raidz2", "raidz3", "spare", "log", "cache"]

def assertVdevType (type : String) : HostScript Unit :=
  let text := stringify type
  Script.require (type ∈ vdevTypes) s!"Invalid vdev type: {text}"

def assertNewDevice (device : String) : HostScript Unit :=
  let text := stringify device
  Script.require (safeNewDevice device)
    s!"New pool devices must be a /dev/disk/by-id path, got: {text}"

/-! ### Running commands -/

/-- The last line of the two streams that is not empty. -/
def firstErrorLine (res : ExecResult) : String :=
  (trimmedLines (trim (res.stdout ++ "\n" ++ res.stderr))).getLast?.getD ""

def runOrThrow (argv : Argv) : HostScript Unit := do
  let res ← run argv
  let line := " ".intercalate (argv.map Arg.text)
  Script.require (res.code = 0) (orElse (firstErrorLine res) s!"Command failed: {line}")

/-- A flag that is there or not. -/
def flag (b : Bool) (w : String) : Argv := if b then [.word w] else []

/-! ### Listings -/

def zpoolStatus : Argv := [.word "zpool", .word "status"]

/-- What `zpool list` and `zpool status` print. -/
def zfsGetState : HostScript (Except String (ExecResult × ExecResult)) := do
  let probe ← run [.word "zpool", .word "version"]
  if probe.code ≠ 0 then
    pure (.error (orElse (firstErrorLine probe) "ZFS is not available on this host"))
  else
    let listRes ← run [.word "zpool", .word "list", .word "-H", .word "-p", .word "-o",
      .word "name,size,alloc,free,fragmentation,capacity,health"]
    let statusRes ← run zpoolStatus
    if listRes.code ≠ 0 then
      pure (.error (orElse (firstErrorLine listRes) "zpool list failed"))
    else pure (.ok (listRes, statusRes))

/-- The pool or dataset a listing is restricted to; an empty name is none. -/
def scopeArgs (scope : Option String) : Argv :=
  match scope with
  | some name => if name = "" then [] else [.word "-r", .caller name]
  | none => []

def assertScope (scope : Option String) (label : String) : HostScript Unit :=
  match scope with
  | some name => if name = "" then pure () else assertName name label
  | none => pure ()

def zfsGetDatasets (pool : Option String) : HostScript ExecResult := do
  assertScope pool "pool"
  let res ← run ([.word "zfs", .word "list", .word "-H", .word "-p", .word "-t",
    .word "filesystem,volume", .word "-o",
    .word "name,used,avail,refer,mountpoint,compression,compressratio,quota,recordsize,volsize,origin,mounted,canmount,type"]
    ++ scopeArgs pool)
  Script.require (res.code = 0) (orElse (firstErrorLine res) "zfs list failed")
  pure res

/-- Whether a text mentions something, in any case. -/
def mentions (needle text : String) : Bool :=
  decide (needle.toList <:+: text.toList.map Char.toLower)

/-- The listing of the snapshots; that there are none is not an error. -/
def zfsGetSnapshots (dataset : Option String) : HostScript (Option ExecResult) := do
  assertScope dataset "dataset"
  let res ← run ([.word "zfs", .word "list", .word "-H", .word "-p", .word "-t", .word "snapshot",
    .word "-o", .word "name,used,refer,creation"] ++ scopeArgs dataset)
  let text := res.stdout ++ res.stderr
  if res.code = 0 then pure (some res)
  else if mentions "no datasets available" text || mentions "dataset does not exist" text then
    pure none
  else .fail (orElse (firstErrorLine res) "zfs list failed")

/-- What `lsblk`, the links under `/dev/disk/by-id` and `zpool status` say. -/
def zfsGetBlockDevices : HostScript (ExecResult × List ResolvedPath × ExecResult) := do
  let lsblkRes ← run [.word "lsblk", .word "-b", .word "-P", .word "-o",
    .word "NAME,TYPE,SIZE,MODEL,SERIAL,ROTA,MOUNTPOINT,FSTYPE,PKNAME,PARTUUID"]
  let byIdRes ← resolvePaths ["/dev/disk/by-id/*"]
  let statusRes ← run zpoolStatus
  Script.require (lsblkRes.code = 0) (orElse (firstErrorLine lsblkRes) "lsblk failed")
  pure (lsblkRes, byIdRes, statusRes)

/-! ### Datasets and snapshots -/

def setDatasetProperty (name key value : String) : HostScript Unit := do
  assertName name "dataset"
  assertPropKey key
  assertPropValue value
  runOrThrow [.word "zfs", .word "set", .caller s!"{key}={value}", .caller name]

def zfsSnapshotCreate (dataset name : String) (recursive : Bool) : HostScript Unit := do
  assertName dataset "dataset"
  assertName name "snapshot name"
  let full := s!"{dataset}@{name}"
  assertSnapshotName full
  runOrThrow ([.word "zfs", .word "snapshot"] ++ flag recursive "-r" ++ [.caller full])

def zfsSnapshotDestroy (snapshot : String) : HostScript Unit := do
  assertSnapshotName snapshot
  runOrThrow [.word "zfs", .word "destroy", .caller snapshot]

def zfsSnapshotRollback (snapshot : String) (destroyLater : Bool) : HostScript Unit := do
  assertSnapshotName snapshot
  runOrThrow ([.word "zfs", .word "rollback"] ++ flag destroyLater "-r" ++ [.caller snapshot])

def zfsSnapshotClone (snapshot target : String) : HostScript Unit := do
  assertSnapshotName snapshot
  assertName target "clone target"
  runOrThrow [.word "zfs", .word "clone", .caller snapshot, .caller target]

/-- The `-o` arguments of properties, each checked before the next. -/
def propFlags : List (String × String) → HostScript Argv
  | [] => pure []
  | (key, value) :: rest => do
    assertPropKey key
    assertPropValue value
    let flags ← propFlags rest
    pure (.word "-o" :: .caller s!"{key}={value}" :: flags)

def zfsDatasetCreate (parent name type : String) (volsizeBytes : Option ℚ)
    (properties : List (String × String)) : HostScript Unit := do
  assertName parent "parent dataset"
  assertName name "dataset name"
  let full := s!"{parent}/{name}"
  assertName full "dataset name"
  Script.require (type = "volume" → volsizeBytes.any fun size => 0 < size)
    "A zvol needs a volume size"
  let props ← propFlags properties
  let sizeFlag : Argv :=
    if type = "volume" then [.word "-V", .caller (toString ⌊volsizeBytes.getD 0⌋)] else []
  runOrThrow ([.word "zfs", .word "create"] ++ sizeFlag ++ props ++ [.caller full])

def zfsDatasetDestroy (name : String) (recursive : Bool) : HostScript Unit := do
  assertName name "dataset"
  runOrThrow ([.word "zfs", .word "destroy"] ++ flag recursive "-r" ++ [.caller name])

/-! ### Pools -/

structure Vdev where
  type : String
  devices : List String
  deriving DecidableEq, Repr

/-- Check every device of a list, in order. -/
def assertNewDevices : List String → HostScript Unit
  | [] => pure ()
  | device :: rest => do
    assertNewDevice device
    assertNewDevices rest

/-- The arguments of vdevs. A stripe has no keyword of its own. -/
def vdevArgs : List Vdev → HostScript Argv
  | [] => pure []
  | v :: rest => do
    assertVdevType v.type
    Script.require (v.devices.length ≠ 0) s!"A {v.type} vdev needs at least one device"
    assertNewDevices v.devices
    let args ← vdevArgs rest
    let devices := v.devices.map Arg.caller
    pure ((if v.type = "stripe" then devices else .caller v.type :: devices) ++ args)

def zfsPoolCreate (name : String) (vdevs : List Vdev) (force : Bool) : HostScript Unit := do
  assertName name "pool name"
  Script.require (vdevs.length ≠ 0) "Pick at least one vdev"
  let args ← vdevArgs vdevs
  runOrThrow ([.word "zpool", .word "create"] ++ flag force "-f" ++ [.caller name] ++ args)

/-- A `zpool` subcommand that takes the name of a pool and nothing else. -/
def poolCommand (subcommand name : String) : HostScript Unit := do
  assertName name "pool name"
  runOrThrow [.word "zpool", .word subcommand, .caller name]

def zfsPoolDestroy (name : String) : HostScript Unit := poolCommand "destroy" name

def zfsPoolImport (name : String) : HostScript Unit := poolCommand "import" name

def zfsPoolExport (name : String) : HostScript Unit := poolCommand "export" name

def zfsVdevAdd (pool : String) (vdev : Vdev) (force : Bool) : HostScript Unit := do
  assertName pool "pool name"
  let args ← vdevArgs [vdev]
  runOrThrow ([.word "zpool", .word "add"] ++ flag force "-f" ++ [.caller pool] ++ args)

def zfsDeviceReplace (pool oldDevice newDevice : String) : HostScript Unit := do
  assertName pool "pool name"
  assertDeviceRef oldDevice
  assertNewDevice newDevice
  runOrThrow [.word "zpool", .word "replace", .caller pool, .caller oldDevice, .caller newDevice]

def zfsScrub (pool action : String) : HostScript Unit := do
  assertName pool "pool name"
  runOrThrow ([.word "zpool", .word "scrub"] ++ flag (action = "stop") "-s" ++ [.caller pool])

end Zfs

end ServerCentral.Backends
