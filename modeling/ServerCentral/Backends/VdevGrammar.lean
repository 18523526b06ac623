import ServerCentral.Backends.Zfs
import ServerCentral.Framework.Grouping

/-!
# What `zpool` makes of the vdevs

`zpool create` and `zpool add` read the vdevs of a pool from a flat command line: a keyword
starts a group, a bare device joins the group in progress, and one with no group in
progress is a vdev of its own. `vdevArgs` writes no keyword for a stripe, so that a stripe
behind any other vdev is read as more devices of that vdev.

`vdevs_read_back` says for which lists of vdevs the command line means what was asked for,
and `stripe_behind_mirror` is a list for which it does not.
-/

open Framework

namespace ServerCentral.Backends

namespace Zfs

/-! ### The grammar of the command line -/

/-- The keywords of roles (the first four) and of types. -/
inductive VdevKeyword where
  | log
  | cache
  | spare
  | special
  | mirror
  | raidz1
  | raidz2
  | raidz3
  deriving DecidableEq, Repr

def VdevKeyword.text : VdevKeyword → String
  | .log => "log"
  | .cache => "cache"
  | .spare => "spare"
  | .special => "special"
  | .mirror => "mirror"
  | .raidz1 => "raidz1"
  | .raidz2 => "raidz2"
  | .raidz3 => "raidz3"

def keywordOf (w : String) : Option VdevKeyword :=
  [VdevKeyword.log, .cache, .spare, .special, .mirror, .raidz1, .raidz2, .raidz3].find?
    fun k => decide (k.text = w)

/-- A vdev as `zpool` sees it: its role or type, and its devices; one without a keyword is a
single-disk stripe. -/
abbrev TopVdev := Group VdevKeyword String

/-- The vdevs of `zpool create` or `zpool add`: what follows the name of the pool. -/
def readVdevs (argv : List String) : List TopVdev :=
  let args := argv.drop 2
  let args := if args.head? = some "-f" then args.tail else args
  Group.read keywordOf none args.tail

/-! ### What is asked for -/

def Vdev.group (v : Vdev) : TopVdev :=
  ⟨if v.type = "stripe" then none else keywordOf v.type, v.devices⟩

/-- The vdevs a list of specifications asks for; a stripe of `n` devices is `n` of them. -/
def requested (vdevs : List Vdev) : List TopVdev := (vdevs.map Vdev.group).flatMap Group.parts

/-- No stripe comes behind a vdev of another type. -/
def StripesLead (vdevs : List Vdev) : Prop :=
  vdevs.Pairwise fun v w => w.type = "stripe" → v.type = "stripe"

instance (vdevs : List Vdev) : Decidable (StripesLead vdevs) := by
  unfold StripesLead
  infer_instance

/-! ### What is accepted -/

/-- The checks of `vdevArgs` on one vdev. -/
structure Vdev.Accepted (v : Vdev) : Prop where
  type : v.type ∈ vdevTypes
  nonempty : v.devices ≠ []
  devices : ∀ d ∈ v.devices, safeNewDevice d = true

theorem keywordOf_text (k : VdevKeyword) : keywordOf k.text = some k := by
  cases k <;> decide

/-- A device path is no keyword. -/
theorem keywordOf_device {d : String} (h : safeNewDevice d = true) : keywordOf d = none := by
  rw [safeNewDevice, Bool.and_eq_true, List.isPrefixOf_iff_prefix] at h
  obtain ⟨rest, h_rest⟩ := h.1
  rw [keywordOf, List.find?_eq_none]
  intro k _ h_text
  have h_head : k.text.toList.head? = some '/' := by
    rw [of_decide_eq_true h_text, ← h_rest]
    rfl
  cases k <;> exact absurd h_head (by decide)

/-- A type that is accepted and is not a stripe is a keyword. -/
theorem keywordOf_type {type : String} (h : type ∈ vdevTypes) (h_ne : type ≠ "stripe") :
    ∃ k, keywordOf type = some k ∧ k.text = type := by
  have h_all : ∀ type ∈ vdevTypes, type ≠ "stripe" →
      ∃ k ∈ (keywordOf type).toList, k.text = type := by decide
  obtain ⟨k, h_k, h_text⟩ := h_all type h h_ne
  exact ⟨k, Option.mem_toList.mp h_k, h_text⟩

theorem Vdev.Accepted.group_key {v : Vdev} (h : v.Accepted) :
    v.group.key = none ↔ v.type = "stripe" := by
  rw [Vdev.group]
  by_cases h_stripe : v.type = "stripe"
  · simp [h_stripe]
  · obtain ⟨k, h_k, -⟩ := keywordOf_type h.type h_stripe
    simp [h_stripe, h_k]

/-- The arguments of an accepted vdev are its group, written out. -/
theorem Vdev.Accepted.write {v : Vdev} (h : v.Accepted) :
    Group.write VdevKeyword.text v.group =
      if v.type = "stripe" then v.devices else v.type :: v.devices := by
  by_cases h_stripe : v.type = "stripe"
  · simp [Group.write, Vdev.group, h_stripe]
  · obtain ⟨k, h_k, h_text⟩ := keywordOf_type h.type h_stripe
    simp [Group.write, Vdev.group, h_stripe, h_k, h_text]

theorem writable_groups {vdevs : List Vdev} (h : ∀ v ∈ vdevs, v.Accepted) :
    Group.Writable keywordOf VdevKeyword.text (vdevs.map Vdev.group) := by
  constructor
  case keyword_word => exact fun _ _ k _ => keywordOf_text k
  case plain =>
    intro g h_g w h_w
    obtain ⟨v, h_v, rfl⟩ := List.mem_map.mp h_g
    exact keywordOf_device ((h v h_v).devices w h_w)
  case nonempty =>
    intro g h_g
    obtain ⟨v, h_v, rfl⟩ := List.mem_map.mp h_g
    exact (h v h_v).nonempty

theorem singlesLead_iff {vdevs : List Vdev} (h : ∀ v ∈ vdevs, v.Accepted) :
    Group.SinglesLead (vdevs.map Vdev.group) ↔ StripesLead vdevs := by
  rw [Group.SinglesLead, StripesLead, List.pairwise_map]
  refine List.Pairwise.iff_of_mem fun {v w} h_v h_w => ?_
  rw [(h v h_v).group_key, (h w h_w).group_key]

/-! ### The commands -/

/-- The arguments `vdevArgs` ends with are those of accepted vdevs, in order. -/
def ArgsOf (vdevs : List Vdev) (args : Argv) : Prop :=
  (∀ v ∈ vdevs, v.Accepted) ∧
    args.map Arg.text = (vdevs.map Vdev.group).flatMap (Group.write VdevKeyword.text)

theorem assertNewDevices_meets {P : Request → Prop} (devices : List String) :
    (assertNewDevices devices).Meets P fun _ => ∀ d ∈ devices, safeNewDevice d = true := by
  induction devices with
  | nil => exact Script.Meets.pure fun d h_d => absurd h_d List.not_mem_nil
  | cons device rest ih =>
    refine Script.Meets.bind (Script.Meets.require (c := safeNewDevice device = true)) ?_
    intro _ h_device
    refine ih.mono fun _ h_rest d h_d => ?_
    obtain rfl | h_d := List.mem_cons.mp h_d
    · exact h_device
    · exact h_rest d h_d

theorem vdevArgs_meets {P : Request → Prop} (vdevs : List Vdev) :
    (vdevArgs vdevs).Meets P (ArgsOf vdevs) := by
  induction vdevs with
  | nil => exact Script.Meets.pure ⟨fun v h_v => absurd h_v List.not_mem_nil, rfl⟩
  | cons v rest ih =>
    refine Script.Meets.bind (Script.Meets.require (c := v.type ∈ vdevTypes)) ?_
    intro _ h_type
    refine Script.Meets.bind (Script.Meets.require (c := v.devices.length ≠ 0)) ?_
    intro _ h_length
    refine Script.Meets.bind (assertNewDevices_meets v.devices) ?_
    intro _ h_devices
    refine Script.Meets.bind ih ?_
    rintro args ⟨h_rest, h_args⟩
    have h_v : v.Accepted := ⟨h_type, fun h_nil => h_length (by rw [h_nil]; rfl), h_devices⟩
    refine Script.Meets.pure ⟨List.forall_mem_cons.mpr ⟨h_v, h_rest⟩, ?_⟩
    rw [List.map_append, h_args, List.map_cons, List.flatMap_cons, h_v.write]
    congr 1
    split
    · rw [List.map_map]
      exact List.map_id _
    · rw [List.map_cons, List.map_map]
      exact congrArg (v.type :: ·) (List.map_id _)

/-- A command whose arguments are those of accepted vdevs. -/
def VdevCommand (vdevs : List Vdev) (r : Request) : Prop :=
  ∃ subcommand force name args,
    r = .run ([.word "zpool", .word subcommand] ++ flag force "-f" ++ [.caller name] ++ args) none ∧
      safeName name = true ∧ ArgsOf vdevs args

theorem runOrThrow_meets {P : Request → Prop} {argv : Argv} (h : P (.run argv none)) :
    (runOrThrow argv).Meets P fun _ => True := by
  refine Script.Meets.bind (Q := fun _ => True) (Script.Meets.send h fun rep => ?_) fun res _ => ?_
  · cases rep with
    | exec res => exact Script.Meets.pure trivial
    | paths paths => exact Script.Meets.fail
    | done => exact Script.Meets.fail
    | rejected message => exact Script.Meets.fail
  · exact Script.Meets.require.mono fun _ _ => trivial

theorem zfsPoolCreate_meets (name : String) (vdevs : List Vdev) (force : Bool) :
    (zfsPoolCreate name vdevs force).Meets (VdevCommand vdevs) fun _ => True := by
  refine Script.Meets.bind (Script.Meets.require (c := safeName name = true)) ?_
  intro _ h_name
  refine Script.Meets.bind (Script.Meets.require (c := vdevs.length ≠ 0)) ?_
  intro _ _
  refine Script.Meets.bind (vdevArgs_meets vdevs) ?_
  intro args h_args
  exact runOrThrow_meets ⟨"create", force, name, args, rfl, h_name, h_args⟩

theorem zfsVdevAdd_meets (pool : String) (vdev : Vdev) (force : Bool) :
    (zfsVdevAdd pool vdev force).Meets (VdevCommand [vdev]) fun _ => True := by
  refine Script.Meets.bind (Script.Meets.require (c := safeName pool = true)) ?_
  intro _ h_pool
  refine Script.Meets.bind (vdevArgs_meets [vdev]) ?_
  intro args h_args
  exact runOrThrow_meets ⟨"add", force, pool, args, rfl, h_pool, h_args⟩

/-- **One command** means what was asked for exactly when no stripe comes behind another
vdev. -/
theorem VdevCommand.read_iff {vdevs : List Vdev} {argv : Argv} {cwd : Option String}
    (h : VdevCommand vdevs (.run argv cwd)) :
    readVdevs (argv.map Arg.text) = requested vdevs ↔ StripesLead vdevs := by
  obtain ⟨subcommand, force, name, args, h_run, h_name, h_accepted, h_args⟩ := h
  obtain ⟨rfl, -⟩ := Request.run.inj h_run
  have h_name : name ≠ "-f" := by
    rintro rfl
    exact absurd h_name (by decide)
  have h_read : readVdevs (([Arg.word "zpool", .word subcommand] ++ flag force "-f" ++
      [Arg.caller name] ++ args).map Arg.text) = Group.read keywordOf none (args.map Arg.text) := by
    cases force with
    | true => rfl
    | false => simp [readVdevs, flag, Arg.text, h_name]
  rw [h_read, h_args, requested, ← singlesLead_iff h_accepted]
  exact Group.read_write_iff (writable_groups h_accepted)

/-- **The vdevs of a command line.** What `zpool` reads from the command of an accepted
`zfsPoolCreate` is the list of vdevs asked for exactly when no stripe comes behind a vdev of
another type; from that of `zfsVdevAdd` it always is. -/
theorem vdevs_read_back (host : List Request → Reply) :
    (∀ name vdevs force argv cwd,
      Request.run argv cwd ∈ ((zfsPoolCreate name vdevs force).run host []).1 →
        (readVdevs (argv.map Arg.text) = requested vdevs ↔ StripesLead vdevs)) ∧
    ∀ pool vdev force argv cwd,
      Request.run argv cwd ∈ ((zfsVdevAdd pool vdev force).run host []).1 →
        readVdevs (argv.map Arg.text) = requested [vdev] := by
  constructor
  · intro name vdevs force argv cwd h_sent
    obtain h_nil | h_command := (zfsPoolCreate_meets name vdevs force).requests host [] _ h_sent
    · exact absurd h_nil List.not_mem_nil
    · exact h_command.read_iff
  · intro pool vdev force argv cwd h_sent
    obtain h_nil | h_command := (zfsVdevAdd_meets pool vdev force).requests host [] _ h_sent
    · exact absurd h_nil List.not_mem_nil
    · exact h_command.read_iff.mpr (List.pairwise_singleton _ _)

/-- A host on which every command succeeds. -/
def quietHost : List Request → Reply := fun _ => .exec ⟨0, "", ""⟩

/-- The command of a pool with a mirror and a disk. -/
def mirrorAndDisk : Argv :=
  [.word "zpool", .word "create", .caller "tank", .caller "mirror", .caller "/dev/sda",
    .caller "/dev/sdb", .caller "/dev/sdc"]

/-- **A stripe behind a mirror** becomes the third disk of the mirror. -/
theorem stripe_behind_mirror :
    ¬∀ (host : List Request → Reply) (name : String) (vdevs : List Vdev) (force : Bool)
      (argv : Argv) (cwd : Option String),
      Request.run argv cwd ∈ ((zfsPoolCreate name vdevs force).run host []).1 →
        readVdevs (argv.map Arg.text) = requested vdevs := by
  intro h
  have h_read := h quietHost "tank" [⟨"mirror", ["/dev/sda", "/dev/sdb"]⟩, ⟨"stripe", ["/dev/sdc"]⟩]
    false mirrorAndDisk none (by decide +kernel)
  exact absurd h_read (by decide)

theorem vdevs_read_back_sample :
    (readVdevs (mirrorAndDisk.map Arg.text) =
        requested [⟨"mirror", ["/dev/sda", "/dev/sdb"]⟩, ⟨"stripe", ["/dev/sdc"]⟩] ↔
      StripesLead [⟨"mirror", ["/dev/sda", "/dev/sdb"]⟩, ⟨"stripe", ["/dev/sdc"]⟩]) ∧
    readVdevs ["zpool", "add", "-f", "tank", "log", "/dev/sdd"] =
      requested [⟨"log", ["/dev/sdd"]⟩] :=
  ⟨(vdevs_read_back quietHost).1 "tank" _ false mirrorAndDisk none (by decide +kernel),
    (vdevs_read_back quietHost).2 "tank" ⟨"log", ["/dev/sdd"]⟩ true
      [.word "zpool", .word "add", .word "-f", .caller "tank", .caller "log", .caller "/dev/sdd"]
      none (by decide +kernel)⟩

end Zfs

end ServerCentral.Backends
