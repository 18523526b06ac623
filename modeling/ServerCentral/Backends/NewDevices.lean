import ServerCentral.Backends.VdevGrammar
import ServerCentral.Backends.ZfsSafety
import ServerCentral.Framework.Paths

/-!
# The disks a pool is given

A new device of a pool is to be named by its link under `/dev/disk/by-id`, since a kernel name
like `/dev/sda` may be another disk after the next boot. `SAFE_NEW_DEVICE_RE` asks for less:
`/dev/` and then any letters, digits, dots, dashes and slashes.

`new_devices_placed_iff` says for which calls the commands name no other device, and
`kernel_name_accepted` is a call for which they do.
-/

open Framework

namespace ServerCentral.Backends

namespace Zfs

/-! ### Where a device path leads -/

def byId : List Segment := ["dev".toList, "disk".toList, "by-id".toList]

/-- An entry directly under `/dev/disk/by-id`, named without a detour. -/
structure ByIdEntry (device : String) : Prop where
  straight : Straight device.toList
  entry : ∃ name, resolve device.toList = byId ++ [name]

/-- The segments of the path, but for `.`, are those of `/dev/disk/by-id` and one more. -/
def Direct (device : String) : Prop :=
  ∃ name, (segments device.toList).filter (· ≠ ['.']) = [] :: (byId ++ [name]) ∧
    name ≠ [] ∧ name ≠ ['.', '.']

theorem safeNewDevice_absolute {device : String} (h : safeNewDevice device = true) :
    ∃ path, device.toList = '/' :: path := by
  rw [safeNewDevice, Bool.and_eq_true, List.isPrefixOf_iff_prefix] at h
  obtain ⟨rest, h_rest⟩ := h.1
  exact ⟨_, h_rest.symm⟩

theorem byIdEntry_iff {device : String} (h : safeNewDevice device = true) :
    ByIdEntry device ↔ Direct device := by
  obtain ⟨path, h_path⟩ := safeNewDevice_absolute h
  have h_head : (segments device.toList).filter (· ≠ ['.']) =
      [] :: (segments path).filter (· ≠ ['.']) := by
    rw [h_path, segments_absolute, List.filter_cons]
    rfl
  constructor
  · rintro ⟨h_straight, name, h_name⟩
    rw [h_path] at h_straight h_name
    rw [resolve_straight h_straight] at h_name
    obtain ⟨h_up, h_empty⟩ := h_straight
    rw [segments_absolute] at h_up h_empty
    have h_mem : name ∈ segments path := by
      have h_filtered : name ∈ (segments path).filter (· ≠ ['.']) := by
        rw [h_name]
        exact List.mem_append_right _ List.mem_cons_self
      exact List.mem_of_mem_filter h_filtered
    refine ⟨name, by rw [h_head, h_name], ?_, ?_⟩
    · rintro rfl
      exact h_empty h_mem
    · rintro rfl
      exact h_up (List.mem_cons_of_mem _ h_mem)
  · rintro ⟨name, h_name, h_some, h_down⟩
    rw [h_head] at h_name
    have h_rest := (List.cons.inj h_name).2
    have h_mem : ∀ segment ∈ segments path, segment ≠ ['.'] → segment ∈ byId ++ [name] := by
      intro segment h_segment h_dot
      rw [← h_rest]
      exact List.mem_filter.mpr ⟨h_segment, decide_eq_true h_dot⟩
    have h_straight : Straight ('/' :: path) := by
      constructor
      · rw [segments_absolute, List.mem_cons, not_or]
        refine ⟨by decide, fun h_up => ?_⟩
        obtain h_fixed | h_last := List.mem_append.mp (h_mem _ h_up (by decide))
        · exact absurd h_fixed (by decide)
        · exact h_down (List.mem_singleton.mp h_last).symm
      · rw [segments_absolute]
        intro h_empty
        obtain h_fixed | h_last := List.mem_append.mp (h_mem _ h_empty (by decide))
        · exact absurd h_fixed (by decide)
        · exact h_some (List.mem_singleton.mp h_last).symm
    refine ⟨h_path ▸ h_straight, name, ?_⟩
    rw [h_path, resolve_straight h_straight, h_rest]

/-! ### The calls that take new devices -/

inductive PoolCall where
  | zfsPoolCreate (name : String) (vdevs : List Vdev) (force : Bool)
  | zfsVdevAdd (pool : String) (vdev : Vdev) (force : Bool)
  | zfsDeviceReplace (pool oldDevice newDevice : String)
  deriving DecidableEq, Repr

namespace PoolCall

def script : PoolCall → HostScript Unit
  | zfsPoolCreate name vdevs force => Zfs.zfsPoolCreate name vdevs force
  | zfsVdevAdd pool vdev force => Zfs.zfsVdevAdd pool vdev force
  | zfsDeviceReplace pool oldDevice newDevice => Zfs.zfsDeviceReplace pool oldDevice newDevice

/-- The new-device strings of a call. -/
def devices : PoolCall → List String
  | zfsPoolCreate _ vdevs _ => vdevs.flatMap Vdev.devices
  | zfsVdevAdd _ vdev _ => vdev.devices
  | zfsDeviceReplace _ _ newDevice => [newDevice]

/-- All checks of a call. -/
def Accepted : PoolCall → Prop
  | zfsPoolCreate name vdevs _ => safeName name = true ∧ vdevs ≠ [] ∧ ∀ v ∈ vdevs, v.Accepted
  | zfsVdevAdd pool vdev _ => safeName pool = true ∧ vdev.Accepted
  | zfsDeviceReplace pool oldDevice newDevice =>
    safeName pool = true ∧ safeDeviceRef oldDevice = true ∧ safeNewDevice newDevice = true

end PoolCall

/-- The new devices on a command line of `zpool`. -/
def newDevices : List String → List String
  | ["zpool", "replace", _, _, device] => [device]
  | argv =>
    let args := argv.drop 2
    let args := if args.head? = some "-f" then args.tail else args
    args.tail.filter fun w => keywordOf w = none

/-! ### What a call sends -/

theorem mem_run_runOrThrow {argv : Argv} {host : List Request → Reply} {r : Request} :
    r ∈ ((runOrThrow argv).run host []).1 ↔ r = .run argv none := by
  constructor
  · intro h_mem
    have h_meets : (runOrThrow argv).Meets (· = .run argv none) fun _ => True :=
      runOrThrow_meets rfl
    obtain h_nil | h_eq := h_meets.requests host [] r h_mem
    · exact absurd h_nil List.not_mem_nil
    · exact h_eq
  · rintro rfl
    exact Script.mem_run_send _ _ host

theorem assertNewDevices_pure {devices : List String}
    (h : ∀ d ∈ devices, safeNewDevice d = true) : assertNewDevices devices = pure () := by
  induction devices with
  | nil => rfl
  | cons device rest ih =>
    rw [assertNewDevices, assertNewDevice, Script.require_bind (h device List.mem_cons_self)]
    exact ih fun d h_d => h d (List.mem_cons_of_mem _ h_d)

theorem vdevArgs_pure {vdevs : List Vdev} (h : ∀ v ∈ vdevs, v.Accepted) :
    vdevArgs vdevs = pure ((vdevTexts vdevs).map .caller) := by
  induction vdevs with
  | nil => rfl
  | cons v rest ih =>
    have h_v := h v List.mem_cons_self
    have h_length : v.devices.length ≠ 0 := fun h_zero =>
      h_v.nonempty (List.length_eq_zero_iff.mp h_zero)
    rw [vdevArgs, assertVdevType, Script.require_bind h_v.type, Script.require_bind h_length,
      assertNewDevices_pure h_v.devices, ih fun w h_w => h w (List.mem_cons_of_mem _ h_w)]
    have h_texts : (vdevTexts (v :: rest)).map Arg.caller =
        (if v.type = "stripe" then v.devices.map Arg.caller
          else .caller v.type :: v.devices.map Arg.caller) ++ (vdevTexts rest).map .caller := by
      rw [vdevTexts, List.flatMap_cons, List.map_append, ← vdevTexts]
      congr 1
      split <;> rfl
    rw [h_texts]
    rfl

/-- The words of accepted vdevs that are no keywords are their devices. -/
theorem plain_words {vdevs : List Vdev} (h : ∀ v ∈ vdevs, v.Accepted) :
    ((vdevs.map Vdev.group).flatMap (Group.write VdevKeyword.text)).filter
      (fun w => keywordOf w = none) = vdevs.flatMap Vdev.devices := by
  induction vdevs with
  | nil => rfl
  | cons v rest ih =>
    have h_v := h v List.mem_cons_self
    have h_devices : v.devices.filter (fun w => keywordOf w = none) = v.devices :=
      List.filter_eq_self.mpr fun d h_d => decide_eq_true (keywordOf_device (h_v.devices d h_d))
    rw [List.map_cons, List.flatMap_cons, List.filter_append,
      ih fun w h_w => h w (List.mem_cons_of_mem _ h_w), List.flatMap_cons, h_v.write]
    congr 1
    split
    · exact h_devices
    · next h_stripe =>
      obtain ⟨k, h_k, -⟩ := keywordOf_type h_v.type h_stripe
      rw [List.filter_cons_of_neg (by simp [h_k]), h_devices]

theorem newDevices_vdevs {subcommand name : String} (force : Bool) {vdevs : List Vdev}
    {args : Argv} (h_subcommand : subcommand ≠ "replace") (h_name : safeName name = true)
    (h_args : ArgsOf vdevs args) :
    newDevices (([Arg.word "zpool", .word subcommand] ++ flag force "-f" ++ [Arg.caller name] ++
      args).map Arg.text) = vdevs.flatMap Vdev.devices := by
  have h_name : name ≠ "-f" := by
    rintro rfl
    exact absurd h_name (by decide)
  obtain ⟨h_accepted, h_texts⟩ := h_args
  rw [← plain_words h_accepted, ← h_texts]
  unfold newDevices
  split
  · next h_eq => exact absurd (List.cons.inj (List.cons.inj h_eq).2).1 h_subcommand
  · cases force with
    | true => rfl
    | false => simp [flag, Arg.text, h_name]

/-- **What a call can send**, and that it ends well only if all its checks hold. -/
theorem PoolCall.meets (call : PoolCall) :
    call.script.Meets (fun r => call.Accepted ∧ ∃ argv, r = .run argv none ∧
      newDevices (argv.map Arg.text) = call.devices) fun _ => call.Accepted := by
  cases call with
  | zfsPoolCreate name vdevs force =>
    refine Script.Meets.bind (Script.Meets.require (c := safeName name = true)) ?_
    intro _ h_name
    refine Script.Meets.bind (Script.Meets.require (c := vdevs.length ≠ 0)) ?_
    intro _ h_length
    refine Script.Meets.bind (vdevArgs_meets vdevs) ?_
    intro args h_args
    have h_accepted : (PoolCall.zfsPoolCreate name vdevs force).Accepted :=
      ⟨h_name, fun h_nil => h_length (List.length_eq_zero_iff.mpr h_nil), h_args.1⟩
    have h_devices := newDevices_vdevs force (by decide : "create" ≠ "replace") h_name h_args
    exact (runOrThrow_meets ⟨h_accepted, _, rfl, h_devices⟩).mono fun _ _ => h_accepted
  | zfsVdevAdd pool vdev force =>
    refine Script.Meets.bind (Script.Meets.require (c := safeName pool = true)) ?_
    intro _ h_name
    refine Script.Meets.bind (vdevArgs_meets [vdev]) ?_
    intro args h_args
    have h_accepted : (PoolCall.zfsVdevAdd pool vdev force).Accepted :=
      ⟨h_name, h_args.1 vdev List.mem_cons_self⟩
    have h_devices := newDevices_vdevs force (by decide : "add" ≠ "replace") h_name h_args
    rw [List.flatMap_singleton] at h_devices
    exact (runOrThrow_meets ⟨h_accepted, _, rfl, h_devices⟩).mono fun _ _ => h_accepted
  | zfsDeviceReplace pool oldDevice newDevice =>
    refine Script.Meets.bind (Script.Meets.require (c := safeName pool = true)) ?_
    intro _ h_name
    refine Script.Meets.bind (Script.Meets.require (c := safeDeviceRef oldDevice = true)) ?_
    intro _ h_old
    refine Script.Meets.bind (Script.Meets.require (c := safeNewDevice newDevice = true)) ?_
    intro _ h_new
    have h_accepted : (PoolCall.zfsDeviceReplace pool oldDevice newDevice).Accepted :=
      ⟨h_name, h_old, h_new⟩
    exact (runOrThrow_meets ⟨h_accepted, _, rfl, rfl⟩).mono fun _ _ => h_accepted

/-- An accepted call sends its command. -/
theorem PoolCall.sends {call : PoolCall} (h : call.Accepted) (host : List Request → Reply) :
    ∃ argv, .run argv none ∈ (call.script.run host []).1 := by
  cases call with
  | zfsPoolCreate name vdevs force =>
    obtain ⟨h_name, h_some, h_vdevs⟩ := h
    have h_length : vdevs.length ≠ 0 := fun h_zero => h_some (List.length_eq_zero_iff.mp h_zero)
    refine ⟨[.word "zpool", .word "create"] ++ flag force "-f" ++ [.caller name] ++
      (vdevTexts vdevs).map .caller, ?_⟩
    rw [PoolCall.script, Zfs.zfsPoolCreate, assertName, Script.require_bind h_name, Script.require_bind h_length,
      vdevArgs_pure h_vdevs]
    exact (mem_run_runOrThrow).mpr rfl
  | zfsVdevAdd pool vdev force =>
    obtain ⟨h_name, h_vdev⟩ := h
    refine ⟨[.word "zpool", .word "add"] ++ flag force "-f" ++ [.caller pool] ++
      (vdevTexts [vdev]).map .caller, ?_⟩
    rw [PoolCall.script, Zfs.zfsVdevAdd, assertName, Script.require_bind h_name,
      vdevArgs_pure fun v h_v => List.mem_singleton.mp h_v ▸ h_vdev]
    exact (mem_run_runOrThrow).mpr rfl
  | zfsDeviceReplace pool oldDevice newDevice =>
    obtain ⟨h_name, h_old, h_new⟩ := h
    refine ⟨[.word "zpool", .word "replace", .caller pool, .caller oldDevice,
      .caller newDevice], ?_⟩
    rw [PoolCall.script, Zfs.zfsDeviceReplace, assertName, Script.require_bind h_name, assertDeviceRef,
      Script.require_bind h_old, assertNewDevice, Script.require_bind h_new]
    exact (mem_run_runOrThrow).mpr rfl

/-! ### The disks of the commands -/

/-- What holds of a call on a host: the commands name only entries under `/dev/disk/by-id` as new
devices, and any other string ends the call before a command is sent. -/
structure Placed (call : PoolCall) (host : List Request → Reply) : Prop where
  reached : ∀ argv cwd, .run argv cwd ∈ (call.script.run host []).1 →
    ∀ d ∈ newDevices (argv.map Arg.text), ByIdEntry d
  refused : (∃ d ∈ call.devices, ¬ByIdEntry d) → (call.script.run host []).1 = [] ∧
    ∃ message, (call.script.run host []).2 = .error message

theorem PoolCall.Accepted.device {call : PoolCall} (h : call.Accepted) :
    ∀ d ∈ call.devices, safeNewDevice d = true := by
  intro d h_d
  cases call with
  | zfsPoolCreate name vdevs force =>
    obtain ⟨v, h_v, h_d⟩ := List.mem_flatMap.mp h_d
    exact (h.2.2 v h_v).devices d h_d
  | zfsVdevAdd pool vdev force => exact h.2.devices d h_d
  | zfsDeviceReplace pool oldDevice newDevice => exact List.mem_singleton.mp h_d ▸ h.2.2

/-- **Main result.** A call keeps to `/dev/disk/by-id` exactly when it is refused by one of its
checks, or each of its devices is written as an entry there. -/
theorem new_devices_placed_iff (call : PoolCall) (host : List Request → Reply) :
    Placed call host ↔ (call.Accepted → ∀ d ∈ call.devices, Direct d) := by
  constructor
  · intro h h_accepted d h_d
    refine (byIdEntry_iff (h_accepted.device d h_d)).mp ?_
    by_contra h_other
    obtain ⟨argv, h_sent⟩ := PoolCall.sends h_accepted host
    rw [(h.refused ⟨d, h_d, h_other⟩).1] at h_sent
    exact absurd h_sent List.not_mem_nil
  · intro h
    by_cases h_accepted : call.Accepted
    · have h_entries : ∀ d ∈ call.devices, ByIdEntry d := fun d h_d =>
        (byIdEntry_iff (h_accepted.device d h_d)).mpr (h h_accepted d h_d)
      refine ⟨fun argv cwd h_sent d h_d => ?_, fun ⟨d, h_d, h_other⟩ => ?_⟩
      · obtain h_nil | ⟨-, argv', h_eq, h_devices⟩ := call.meets.requests host [] _ h_sent
        · exact absurd h_nil List.not_mem_nil
        · obtain ⟨rfl, -⟩ := Request.run.inj h_eq
          exact h_entries d (h_devices ▸ h_d)
      · exact absurd (h_entries d h_d) h_other
    · have h_sent : (call.script.run host []).1 = [] := by
        refine List.eq_nil_iff_forall_not_mem.mpr fun r h_r => ?_
        obtain h_nil | ⟨h_yes, -⟩ := call.meets.requests host [] r h_r
        · exact absurd h_nil List.not_mem_nil
        · exact h_accepted h_yes
      refine ⟨fun argv cwd h_mem => ?_, fun _ => ⟨h_sent, ?_⟩⟩
      · rw [h_sent] at h_mem
        exact absurd h_mem List.not_mem_nil
      · cases h_end : (call.script.run host []).2 with
        | error message => exact ⟨message, rfl⟩
        | ok a => exact absurd (call.meets.result host [] h_end) h_accepted

/-- **A kernel name** passes every check and reaches `zpool create`. -/
theorem kernel_name_accepted :
    ¬∀ (call : PoolCall) (host : List Request → Reply), Placed call host := by
  intro h
  have h_placed := h (.zfsPoolCreate "tank" [⟨"stripe", ["/dev/sda"]⟩] false) quietHost
  obtain ⟨-, name, h_name⟩ := h_placed.reached
    [.word "zpool", .word "create", .caller "tank", .caller "/dev/sda"] none (by decide +kernel)
    "/dev/sda" (by decide +kernel)
  have h_length : (resolve "/dev/sda".toList).length = 4 := congrArg List.length h_name
  exact absurd h_length (by decide +kernel)

end Zfs

end ServerCentral.Backends
