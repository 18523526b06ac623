import ServerCentral.Auth.Authorization
import ServerCentral.Backends.Docker
import ServerCentral.Backends.SystemUsers
import ServerCentral.Fleet

/-!
# Opening a terminal

A terminal is opened by a websocket upgrade: the upgrade checks the node `panel.terminal`,
the feature picks the identity, the control plane's `HostAgent` refuses what the agent does
not support, and the agent chooses the argument vector it spawns in a PTY. Each of the four
has a notion of its own of a value that is absent or empty.

`ptyOf` reads the argument vector back: what it runs, and as whom. `PtyAllowed` is who may
have that.
-/

open Framework ServerCentral.Auth ServerCentral.Backends

namespace ServerCentral.Terminal

/-! ### Identities -/

/-- What a call throws: an error with a message, or a `TypeError` of the runtime. -/
inductive Thrown where
  | error (message : String)
  | typeError
  deriving DecidableEq, Repr

/-- A text that is neither absent nor empty. -/
def nonempty (s : Option String) : Option String := s.filter (· ≠ "")

/-- The account a host terminal runs as; `none` is the agent's own user. -/
def resolveShellUser (user : AuthUser) : Except Thrown (Option String) :=
  match nonempty user.systemUser with
  | some name => .ok (some name)
  | none =>
    match userCan user "panel.exec" with
    | none => .error .typeError
    | some true => .ok none
    | some false => .error (.error ("No system user is mapped to your account — ask an admin " ++
        "to set one in Settings → Users"))

def execBefore : String := "docker exec -it "

def execAfter : String := " sh -c \"command -v bash >/dev/null 2>&1 && exec bash -l; exec sh\""

/-- The command that opens a shell in a container. -/
def containerShell (containerId : String) : String := execBefore ++ containerId ++ execAfter

def dockerContainerShellCommand (containerId : String) : Except Thrown String :=
  if Docker.safeId containerId then .ok (containerShell containerId)
  else .error (.error s!"Invalid container id: {containerId}")

/-! ### The two sides of a connection -/

/-- The process of an agent. One that predates `asUser` ignores the field, and does not
advertise `shellAsUser`. -/
structure AgentHost where
  capabilities : List String
  /-- `os.userInfo().username` -/
  username : String
  /-- `process.env.SHELL` -/
  shell : Option String
  /-- `Bun.which("runuser")` -/
  runuser : Option String
  honoursAsUser : Bool
  advertised : "shellAsUser" ∈ capabilities → honoursAsUser = true

/-- The `openShell` message. -/
structure OpenShell where
  sessionId : String
  cols : ℕ
  rows : ℕ
  asUser : Option String
  command : Option String
  deriving DecidableEq, Repr

/-- `HostAgent.openShell` up to the message it sends. -/
def openShell (agent : HostAgent) (capabilities : List String) (sessionId : String)
    (cols rows : ℕ) (asUser command : Option String) : Except Thrown OpenShell :=
  let version := (agent.info.bind SystemInfo.agentVersion).getD "unknown version"
  if asUser.isSome ∧ nonempty command = none ∧ "shellAsUser" ∉ capabilities then
    .error (.error (s!"The agent on {agent.name} ({version}) predates per-user shells and " ++
      "would open a root shell instead — update the agent, then retry"))
  else .ok { sessionId, cols, rows, asUser, command }

namespace AgentHost

variable (host : AgentHost)

/-- The argument vector of a shell as a user. -/
def shellArgv (asUser : Option String) : Except String (List String) :=
  match asUser.filter fun user => user ≠ "" ∧ user ≠ host.username with
  | none => .ok [(nonempty host.shell).getD "bash", "-l"]
  | some user =>
    if !SystemUsers.systemUsername user then .error s!"Invalid system username: {user}"
    else if host.username ≠ "root" then
      .error s!"Agent runs as {host.username} and can't open a shell as {user}"
    else
      match nonempty host.runuser with
      | some runuser => .ok [runuser, "-l", user]
      | none => .ok ["su", "-", user]

/-- The argument vector `runOpenShell` spawns in a PTY. -/
def runOpenShell (msg : OpenShell) : Except String (List String) :=
  match nonempty msg.command with
  | some command => .ok ["sh", "-c", command]
  | none => host.shellArgv (if host.honoursAsUser then msg.asUser else none)

end AgentHost

/-! ### The channel -/

/-- What the upgrade reads of a request to `/api/terminal`, and whether it is one. -/
structure TerminalRequest where
  isUpgrade : Bool
  serverId : Option String
  containerId : Option String
  deriving DecidableEq, Repr

/-- Resolve a terminal to the message its agent gets. -/
def openTerminalShell (fleet : Fleet) (hosts : HostAgent → AgentHost) (sessionId serverId : String)
    (containerId : Option String) (user : AuthUser) : Except Thrown (HostAgent × OpenShell) :=
  match fleet.get serverId with
  | .error message => .error (.error message)
  | .ok agent =>
    match nonempty containerId with
    | some containerId => do
      let command ← dockerContainerShellCommand containerId
      let msg ← openShell agent (hosts agent).capabilities sessionId 80 24 none (some command)
      return (agent, msg)
    | none => do
      let asUser ← resolveShellUser user
      let msg ← openShell agent (hosts agent).capabilities sessionId 80 24 asUser none
      return (agent, msg)

/-- How a request for a terminal ends, up to the spawn on the agent. -/
inductive TerminalOutcome where
  | refused (status : ℕ) (body : String)
  /-- The check at the upgrade throws. -/
  | threw
  /-- The socket is told the error and closed. -/
  | failed (e : Thrown)
  /-- The agent sends the error. -/
  | agentFailed (message : String)
  | spawned (agent : HostAgent) (argv : List String)
  deriving DecidableEq, Repr

/-- A request for a terminal, of the user its token resolves to. -/
def openTerminal (fleet : Fleet) (hosts : HostAgent → AgentHost) (sessionId : String)
    (user : Option AuthUser) (req : TerminalRequest) : TerminalOutcome :=
  match user with
  | none => .refused 401 "Unauthorized"
  | some user =>
    match userCan user "panel.terminal" with
    | none => .threw
    | some false => .refused 403 "Forbidden"
    | some true =>
      match nonempty req.serverId with
      | none => .refused 400 "serverId required"
      | some serverId =>
        if !req.isUpgrade then .refused 400 "Upgrade failed"
        else
          match openTerminalShell fleet hosts sessionId serverId req.containerId user with
          | .error e => .failed e
          | .ok (agent, msg) =>
            match (hosts agent).runOpenShell msg with
            | .error message => .agentFailed message
            | .ok argv => .spawned agent argv

/-! ### What runs in a PTY -/

inductive Pty where
  /-- A login shell of an account of the host. -/
  | shell (account : String)
  /-- A shell in a container. -/
  | container (containerId : String)
  /-- Any other command, as the agent's own account. -/
  | command (argv : List String)
  deriving DecidableEq, Repr

/-- The container a command line enters. -/
def containerOf (line : String) : Option String :=
  let rest := line.toList.drop execBefore.toList.length
  let containerId := String.ofList (rest.take (rest.length - execAfter.toList.length))
  if Docker.safeId containerId ∧ line = containerShell containerId then some containerId else none

/-- What an agent with this account runs. A container id has no character the shell treats
specially, so that it is one argument of the `docker exec`. -/
def ptyOf (account : String) : List String → Pty
  | [program, flag] => if flag = "-l" then .shell account else .command [program, flag]
  | [program, flag, arg] =>
    if flag = "-l" ∨ program = "su" ∧ flag = "-" then .shell arg
    else
      match (if program = "sh" ∧ flag = "-c" then containerOf arg else none) with
      | some containerId => .container containerId
      | none => .command [program, flag, arg]
  | argv => .command argv

/-- Owners hold every node. -/
def HoldsNode (user : AuthUser) (node : String) : Prop :=
  user.isOwner = true ∨ some node ∈ user.permissions

instance (user : AuthUser) (node : String) : Decidable (HoldsNode user node) := by
  unfold HoldsNode
  infer_instance

/-- **Who may have a PTY.** The agent's own account is for those who may run any command on
the host, and for those who are mapped to it; any other account is the mapped one, on an
agent that can switch to it; and a container is for those who may run any command in it. -/
inductive PtyAllowed (host : AgentHost) (user : AuthUser) : Pty → Prop
  | own (h : HoldsNode user "panel.exec" ∨ user.systemUser = some host.username) :
      PtyAllowed host user (.shell host.username)
  | mapped {account : String} (h_user : user.systemUser = some account)
      (h_cap : "shellAsUser" ∈ host.capabilities) (h_root : host.username = "root") :
      PtyAllowed host user (.shell account)
  | container {containerId : String} (h : HoldsNode user "panel.docker.exec") :
      PtyAllowed host user (.container containerId)

end ServerCentral.Terminal
