import ServerCentral.Auth.Store
import ServerCentral.Framework.CodeUnits
import ServerCentral.Framework.Script

/-!
# Commands for a host

A backend drives a host by running commands on it, each an argument vector. An argument is
a word of the source, or it is built from a string of the caller or read from the output of
an earlier command; the constructor of `Arg` says which.

`scan` reads an argument vector the way the tools do: words that name a program and its
subcommand, options, the values of the options that take one, and what is left. What is
left is *bare*, and a bare argument that begins with `-` is one more option.
`OptionSafe` says that no string of the caller is that.
-/

open Framework

namespace ServerCentral.Backends

open Auth (trim isSpace)

inductive Arg where
  /-- Written in the source. -/
  | word (w : String)
  /-- Built from a string of the caller. -/
  | caller (s : String)
  /-- Read from the output of a command. -/
  | host (s : String)
  deriving DecidableEq, Repr

abbrev Argv := List Arg

/-- The text of an argument, as it reaches the program. -/
def Arg.text : Arg → String
  | .word w => w
  | .caller s => s
  | .host s => s

/-! ### Talking to the host -/

/-- What a backend asks of the agent on the host. -/
inductive Request where
  | run (argv : Argv) (cwd : Option String)
  | writeFile (path content : String)
  | deletePath (path : String)
  | resolvePaths (patterns : List String)
  deriving DecidableEq, Repr

structure ExecResult where
  code : ℤ
  stdout : String
  stderr : String
  deriving DecidableEq, Repr

/-- One result of `resolvePaths`. -/
structure ResolvedPath where
  path : String
  realPath : String
  deriving DecidableEq, Repr

/-- The answer of the agent, or the message its promise rejects with. -/
inductive Reply where
  | exec (res : ExecResult)
  | paths (paths : List ResolvedPath)
  | done
  | rejected (message : String)
  deriving DecidableEq, Repr

/-- A function of a backend. -/
abbrev HostScript := Script Request Reply String

/-- What is left of a reply of the wrong kind. -/
def Reply.unexpected : Reply → String
  | .rejected message => message
  | _ => "Unexpected reply"

/-- `server.run` in a directory, and `server.runStream` with the output that has accumulated
at its end. -/
def runIn (cwd : Option String) (argv : Argv) : HostScript ExecResult :=
  .send (.run argv cwd) fun
    | .exec res => .pure res
    | reply => .fail reply.unexpected

def run (argv : Argv) : HostScript ExecResult := runIn none argv

def writeFile (path content : String) : HostScript Unit :=
  .send (.writeFile path content) fun
    | .done => .pure ()
    | reply => .fail reply.unexpected

/-- `server.deletePath` with its errors caught. -/
def deletePath (path : String) : HostScript Unit :=
  .send (.deletePath path) fun _ => .pure ()

def resolvePaths (patterns : List String) : HostScript (List ResolvedPath) :=
  .send (.resolvePaths patterns) fun
    | .paths paths => .pure paths
    | reply => .fail reply.unexpected

/-! ### Patterns -/

/-- One character of a first class, then any number of a second. -/
def leadTail (lead tail : Char → Bool) : List Char → Bool
  | [] => false
  | c :: cs => lead c && cs.all tail

/-! ### Output -/

/-- The trimmed lines of a text that are not empty. -/
def trimmedLines (text : String) : List String :=
  ((text.splitOn "\n").map trim).filter (· ≠ "")

/-- `a || b` on strings. -/
def orElse (a b : String) : String := if a = "" then b else a

/-! ### Command lines -/

/-- The command lines of the three backends, by program and subcommand. The words after
`docker exec` name the program that runs in the container. -/
def commandPaths : List (List String) :=
  [["docker", "version"], ["docker", "ps"], ["docker", "images"], ["docker", "inspect"],
    ["docker", "start"], ["docker", "stop"], ["docker", "restart"], ["docker", "rm"],
    ["docker", "pause"], ["docker", "unpause"], ["docker", "rmi"], ["docker", "pull"],
    ["docker", "logs"], ["docker", "exec"], ["docker", "exec", "sh"],
    ["docker", "volume", "ls"], ["docker", "volume", "inspect"], ["docker", "volume", "rm"],
    ["docker", "system", "df"], ["docker", "image", "inspect"],
    ["docker", "network", "ls"], ["docker", "network", "rm"],
    ["docker", "compose", "up"], ["docker", "compose", "restart"], ["docker", "compose", "stop"],
    ["docker", "compose", "down"], ["docker", "compose", "pull"], ["docker", "compose", "rm"],
    ["docker", "compose", "config"], ["docker", "compose", "ps"], ["docker", "compose", "logs"],
    ["zfs", "list"], ["zfs", "set"], ["zfs", "snapshot"], ["zfs", "destroy"], ["zfs", "rollback"],
    ["zfs", "clone"], ["zfs", "create"],
    ["zpool", "version"], ["zpool", "list"], ["zpool", "status"], ["zpool", "create"],
    ["zpool", "destroy"], ["zpool", "import"], ["zpool", "export"], ["zpool", "add"],
    ["zpool", "replace"], ["zpool", "scrub"],
    ["lsblk"], ["getent", "passwd"], ["getent", "group"], ["useradd"], ["usermod"], ["test"]]

/-- The options of a command that take the next argument as their value. -/
def valueOptions : List String → List String
  | ["docker", "version"] => ["--format"]
  | ["docker", "ps"] => ["--filter", "--format"]
  | ["docker", "images"] => ["--format"]
  | ["docker", "logs"] => ["--tail", "--since"]
  | ["docker", "exec", "sh"] => ["-c"]
  | ["docker", "volume", "ls"] => ["--format"]
  | ["docker", "system", "df"] => ["--format"]
  | ["docker", "image", "inspect"] => ["--format"]
  | ["docker", "network", "ls"] => ["--filter"]
  | ["docker", "compose"] => ["-f", "-p"]
  | ["docker", "compose", "config"] => ["--format"]
  | ["docker", "compose", "ps"] => ["--format"]
  | ["docker", "compose", "logs"] => ["--tail"]
  | ["zfs", "list"] => ["-t", "-o"]
  | ["zfs", "create"] => ["-V", "-o"]
  | ["zpool", "list"] => ["-o"]
  | ["lsblk"] => ["-o"]
  | ["useradd"] => ["-s", "-G"]
  | ["usermod"] => ["-G"]
  | ["test"] => ["-x", "-d"]
  | _ => []

/-- The words that continue a command. -/
def commandWords (path : List String) : List String :=
  (commandPaths.filter path.isPrefixOf).filterMap (·[path.length]?)

/-- Whether a text is read as an option. -/
def isOption (s : String) : Bool := s.toList.head? == some '-'

/-- Read an argument vector, with the command words so far, and whether the next argument is
the value of an option. The result is the bare arguments; there is none when something else
stands where the command has to be completed. -/
def scan (path : List String) : Bool → Argv → Option Argv
  | _, [] => if path ∈ commandPaths then some [] else none
  | true, _ :: rest => scan path false rest
  | false, .word w :: rest =>
    if w ∈ commandWords path then scan (path ++ [w]) false rest
    else if isOption w then scan path ((valueOptions path).contains w) rest
    else if path ∈ commandPaths then (scan path false rest).map (.word w :: ·)
    else none
  | false, arg :: rest =>
    if path ∈ commandPaths then (scan path false rest).map (arg :: ·) else none

/-- A text that is read as an argument, not as an option, and not lost. -/
def Positional (s : String) : Prop := s ≠ "" ∧ isOption s = false

/-- **No string of the caller is an option.** -/
def OptionSafe (argv : Argv) : Prop :=
  ∃ bare, scan [] false argv = some bare ∧ ∀ s, .caller s ∈ bare → Positional s

/-- The `-f` of `zpool create` is a flag, so the argument behind it is bare. -/
example : ¬OptionSafe [.word "zpool", .word "create", .word "-f", .caller "-o"] := by
  rintro ⟨bare, h_scan, h_bare⟩
  obtain rfl : [.caller "-o"] = bare := Option.some.inj h_scan
  exact absurd (h_bare "-o" List.mem_cons_self).2 (by decide)

/-- What is asked of a request. -/
def Request.Safe : Request → Prop
  | .run argv _ => OptionSafe argv
  | _ => True

/-! ### Reading command lines -/

/-- Whether an argument is a word of the source. -/
def Arg.isWord : Arg → Bool
  | .word _ => true
  | _ => false

/-- Arguments that are no words are bare once the command is complete. -/
theorem scan_append_bare {path : List String} (h_path : path ∈ commandPaths) {args : Argv}
    (h_args : ∀ arg ∈ args, arg.isWord = false) (rest : Argv) :
    scan path false (args ++ rest) = (scan path false rest).map (args ++ ·) := by
  induction args with
  | nil => simp
  | cons arg args ih =>
    have h_arg := h_args arg List.mem_cons_self
    have ih := ih fun a h => h_args a (List.mem_cons_of_mem _ h)
    have h_scan : scan path false (arg :: (args ++ rest)) =
        (scan path false (args ++ rest)).map (arg :: ·) := by
      cases arg with
      | word w => exact absurd h_arg (by simp [Arg.isWord])
      | caller s => simp [scan, h_path]
      | host s => simp [scan, h_path]
    rw [List.cons_append, h_scan, ih, Option.map_map]
    rfl

theorem scan_bare {path : List String} (h_path : path ∈ commandPaths) {args : Argv}
    (h_args : ∀ arg ∈ args, arg.isWord = false) : scan path false args = some args := by
  have h := scan_append_bare h_path h_args []
  rw [List.append_nil] at h
  rw [h, scan, if_pos h_path]
  simp

/-- A complete command, its bare arguments last. -/
theorem OptionSafe.of_bare {argv : Argv} (path : List String) (args : Argv)
    (h_scan : scan [] false argv = scan path false args) (h_path : path ∈ commandPaths)
    (h_words : ∀ arg ∈ args, arg.isWord = false)
    (h_args : ∀ s, .caller s ∈ args → Positional s) : OptionSafe argv :=
  ⟨args, h_scan.trans (scan_bare h_path h_words), h_args⟩

/-- What an earlier command printed is never a string of the caller. -/
theorem caller_notMem_host {texts : List String} {s : String} :
    Arg.caller s ∉ texts.map Arg.host := by simp

theorem isWord_host {texts : List String} : ∀ arg ∈ texts.map Arg.host, arg.isWord = false := by
  intro arg h_mem
  obtain ⟨text, -, rfl⟩ := List.mem_map.mp h_mem
  rfl

theorem isWord_caller {texts : List String} :
    ∀ arg ∈ texts.map Arg.caller, arg.isWord = false := by
  intro arg h_mem
  obtain ⟨text, -, rfl⟩ := List.mem_map.mp h_mem
  rfl

/-- A complete command whose bare arguments are checked strings of the caller. -/
theorem OptionSafe.of_callers {argv : Argv} (path texts : List String)
    (h_scan : scan [] false argv = scan path false (texts.map .caller))
    (h_path : path ∈ commandPaths) (h : ∀ s ∈ texts, Positional s) : OptionSafe argv := by
  refine .of_bare path _ h_scan h_path isWord_caller fun s h_mem => h s ?_
  obtain ⟨t, h_t, h_eq⟩ := List.mem_map.mp h_mem
  exact Arg.caller.inj h_eq ▸ h_t

/-- A command that has only words and option values. -/
theorem OptionSafe.of_closed {argv : Argv} (h : scan [] false argv = some []) : OptionSafe argv :=
  ⟨[], h, fun _ h_mem => absurd h_mem (by simp)⟩

/-- A text that begins with a character other than `-`. -/
theorem Positional.of_head {s : String} {c : Char} {cs : List Char} (h : s.toList = c :: cs)
    (h_c : c ≠ '-') : Positional s := by
  constructor
  · rintro rfl
    exact absurd h (by simp)
  · simp [isOption, h, h_c]

/-- A pattern whose first class leaves out `-`. -/
theorem Positional.of_leadTail {lead tail : Char → Bool} {s : String} (h_lead : lead '-' = false)
    (h : leadTail lead tail s.toList = true) : Positional s := by
  cases h_list : s.toList with
  | nil =>
    rw [h_list] at h
    exact absurd h (by simp [leadTail])
  | cons c cs =>
    rw [h_list, leadTail, Bool.and_eq_true] at h
    refine .of_head h_list ?_
    rintro rfl
    exact absurd (h_lead.symm.trans h.1) (by simp)

/-- What is put behind a text that is no option. -/
theorem Positional.append {s : String} (h : Positional s) (t : String) : Positional (s ++ t) := by
  obtain ⟨h_ne, h_option⟩ := h
  cases h_list : s.toList with
  | nil => exact absurd (String.toList_eq_nil_iff.mp h_list) h_ne
  | cons c cs =>
    have h_append : (s ++ t).toList = c :: (cs ++ t.toList) := by
      rw [String.toList_append, h_list, List.cons_append]
    refine .of_head h_append fun h_c => ?_
    subst h_c
    exact absurd h_option (by simp [isOption, h_list])

/-! ### Rules for the requests -/

/-- A script all of whose requests are safe, and that ends only if `c` holds. -/
abbrev Guarded {α : Type} (p : HostScript α) (c : Prop) : Prop := p.Meets Request.Safe fun _ => c

theorem guarded_runIn {cwd : Option String} {argv : Argv} (h : OptionSafe argv) :
    Guarded (runIn cwd argv) True := by
  refine .send h fun reply => ?_
  cases reply with
  | exec res => exact .pure trivial
  | _ => exact .fail

theorem guarded_run {argv : Argv} (h : OptionSafe argv) : Guarded (run argv) True :=
  guarded_runIn h

theorem guarded_writeFile {path content : String} : Guarded (writeFile path content) True := by
  refine .send trivial fun reply => ?_
  cases reply with
  | done => exact .pure trivial
  | _ => exact .fail

theorem guarded_deletePath {path : String} : Guarded (deletePath path) True :=
  .send trivial fun _ => .pure trivial

theorem guarded_resolvePaths {patterns : List String} : Guarded (resolvePaths patterns) True := by
  refine .send trivial fun reply => ?_
  cases reply with
  | paths paths => exact .pure trivial
  | _ => exact .fail

/-- What follows a guarded script may assume its guard. -/
theorem Guarded.bind {α β : Type} {p : HostScript α} {f : α → HostScript β} {c : Prop}
    {Q : β → Prop} (hp : Guarded p c) (hf : c → ∀ a, (f a).Meets Request.Safe Q) :
    (p >>= f).Meets Request.Safe Q :=
  Script.Meets.bind hp fun a h => hf h a

theorem Guarded.mono {α : Type} {p : HostScript α} {c d : Prop} (h : Guarded p c) (h_imp : c → d) :
    Guarded p d :=
  Script.Meets.mono h fun _ => h_imp

theorem guarded_require {c : Prop} [Decidable c] {e : String} :
    Guarded (Script.require c e) c := Script.Meets.require

theorem guarded_pure {α : Type} {a : α} {c : Prop} (h : c) :
    Guarded (Pure.pure a : HostScript α) c := .pure h

end ServerCentral.Backends
