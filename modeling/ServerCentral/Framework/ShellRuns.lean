import ServerCentral.Framework.ShellCommands

/-!
# What a command line of the POSIX shell does

`runLine` runs the commands of a line in their order, each only where the one before it has
succeeded. What comes of it is the list of what has happened: the working directory has
changed, a program was started with its argv, directory, variables and streams, or the shell
has run something of its own.

`Dialect` says what differs between shells: which names are the shell's own (its built-in
utilities and functions), and what these do to its directory and variables. `cd` is one of
them and `nohup` is not. `Host` is the machine: what entering a directory and opening a file
come to, and which programs succeed.
-/

namespace Framework.Shell

variable {Dir : Type*}

/-- The variables a program is started with. -/
abbrev Env := List Char → Option (List Char)

def Env.set (env : Env) (name value : List Char) : Env :=
  fun other => if other = name then some value else env other

/-- Assignments from left to right. -/
def Env.assign (env : Env) (entries : List (List Char × List Char)) : Env :=
  entries.foldl (fun env entry => env.set entry.1 entry.2) env

@[simp] theorem Env.assign_nil (env : Env) : env.assign [] = env := rfl

/-- Where a stream of a program goes: to the output or the errors of whoever runs it, or to
the file of this name in this directory. -/
inductive Stream (Dir : Type*)
  | output
  | errors
  | file (dir : Dir) (path : List Char)

structure Streams (Dir : Type*) where
  out : Stream Dir
  err : Stream Dir

def Streams.inherited : Streams Dir := ⟨.output, .errors⟩

/-- A program as it is started. -/
structure Run (Dir : Type*) where
  argv : List (List Char)
  dir : Dir
  env : Env
  streams : Streams Dir
  background : Bool

inductive Event (Dir : Type*)
  | entered (dir : Dir)
  | started (run : Run Dir)
  /-- The shell has run these words itself. -/
  | own (words : List (List Char))

structure State (Dir : Type*) where
  dir : Dir
  env : Env

structure Dialect (Dir : Type*) where
  /-- The names of the shell's own utilities and functions. -/
  own : List Char → Bool
  /-- What one of them leaves, or that it fails. -/
  utility : List (List Char × List Char) → List (List Char) → State Dir → Option (State Dir)
  cd_own : own ['c', 'd']
  nohup_foreign : own ['n', 'o', 'h', 'u', 'p'] = false

structure Host (Dir : Type*) where
  /-- Where the commands are run, and with which variables. -/
  dir : Dir
  env : Env
  enter : Dir → List Char → Option Dir
  /-- Whether the file opens for writing from that directory. -/
  writable : Dir → List Char → Bool
  succeeds : Run Dir → Bool

/-- The shell runs a name itself; one with a slash is a path. -/
def Dialect.runs (shell : Dialect Dir) (name : List Char) : Bool := !name.contains '/' && shell.own name

/-! ### Redirections -/

/-- Why a command is not run: a redirection has failed, or it is outside the fragment. -/
inductive Stop
  | failed
  | outside
  deriving DecidableEq, Repr

def Streams.set (streams : Streams Dir) (stream : Stream Dir) :
    Option (List Char) → Except Stop (Streams Dir)
  | none => .ok { streams with out := stream }
  | some ['1'] => .ok { streams with out := stream }
  | some ['2'] => .ok { streams with err := stream }
  | _ => .error .outside

def Streams.get (streams : Streams Dir) : List Char → Except Stop (Stream Dir)
  | ['1'] => .ok streams.out
  | ['2'] => .ok streams.err
  | _ => .error .outside

/-- `>` opens a file, and `>&` makes one stream what another is. -/
def redirect (host : Host Dir) (dir : Dir) (streams : Streams Dir)
    (redirection : Option (List Char) × List Char × List Char) : Except Stop (Streams Dir) :=
  if redirection.2.1 = ['>'] then
    if host.writable dir redirection.2.2 then
      streams.set (.file dir redirection.2.2) redirection.1
    else .error .failed
  else if redirection.2.1 = ['>', '&'] then
    streams.get redirection.2.2 >>= fun stream => streams.set stream redirection.1
  else .error .outside

/-! ### Commands -/

structure Result (Dir : Type*) where
  events : List (Event Dir)
  succeeded : Bool
  state : State Dir

section Running

variable (shell : Dialect Dir) (host : Host Dir) (background : Bool)

def runUtility (state : State Dir) (command : Literal) : Result Dir :=
  match shell.utility command.assignments command.words state with
  | some next =>
    if command.words.head? = some ['c', 'd'] then ⟨[.entered next.dir], true, next⟩
    else ⟨[.own command.words], true, next⟩
  | none =>
    if command.words.head? = some ['c', 'd'] then ⟨[], false, state⟩
    else ⟨[.own command.words], false, state⟩

def runProgram (state : State Dir) (streams : Streams Dir) (command : Literal) : Result Dir :=
  let run : Run Dir :=
    ⟨command.words, state.dir, state.env.assign command.assignments, streams, background⟩
  ⟨[.started run], host.succeeds run, state⟩

/-- One command, `none` where it is outside the fragment. -/
def runCommand (state : State Dir) (command : Literal) : Option (Result Dir) :=
  match command.words, command.redirects.foldlM (redirect host state.dir) .inherited with
  | [], _ => none
  | _, .error .outside => none
  | _, .error .failed => some ⟨[], false, state⟩
  | name :: _, .ok streams =>
    if shell.runs name then some (runUtility shell state command)
    else some (runProgram host background state streams command)

/-- The commands of an `&&` list. -/
def runCommands : State Dir → List Literal → Option (List (Event Dir))
  | _, [] => some []
  | state, command :: rest => (runCommand shell host background state command).bind fun result =>
    if result.succeeded then (runCommands result.state rest).map (result.events ++ ·)
    else some result.events

end Running

def runLine (shell : Dialect Dir) (host : Host Dir) (text : List Char) :
    Option (List (Event Dir)) :=
  (literalLine text).bind fun line => runCommands shell host line.2 ⟨host.dir, host.env⟩ line.1

/-! ### Programs that become another -/

/-- What is left running in the process: `nohup` becomes the command that its operands name. -/
def settledArgv : List (List Char) → List (List Char)
  | name :: command :: operands =>
    if name = ['n', 'o', 'h', 'u', 'p'] ∧ command.head? ≠ some '-' then
      settledArgv (command :: operands)
    else name :: command :: operands
  | argv => argv

def Run.settled (run : Run Dir) : Run Dir := { run with argv := settledArgv run.argv }

def Event.settled : Event Dir → Event Dir
  | .started run => .started run.settled
  | event => event

theorem settledArgv_length_le (argv : List (List Char)) :
    (settledArgv argv).length ≤ argv.length := by
  induction argv with
  | nil => exact le_rfl
  | cons name argv ih =>
    cases argv with
    | nil => exact le_rfl
    | cons command operands =>
      rw [settledArgv]
      split
      · exact Nat.le_succ_of_le ih
      · exact le_rfl

theorem settledArgv_of_ne {name : List Char} (h : name ≠ ['n', 'o', 'h', 'u', 'p'])
    (operands : List (List Char)) : settledArgv (name :: operands) = name :: operands := by
  cases operands with
  | nil => rfl
  | cons command operands =>
    rw [settledArgv, if_neg]
    rintro ⟨h_name, -⟩
    exact h h_name

theorem settledArgv_nohup {command : List Char} (h : command.head? ≠ some '-')
    (operands : List (List Char)) :
    settledArgv (['n', 'o', 'h', 'u', 'p'] :: command :: operands)
      = settledArgv (command :: operands) := by
  rw [settledArgv, if_pos ⟨rfl, h⟩]

end Framework.Shell
