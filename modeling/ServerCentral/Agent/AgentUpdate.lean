import ServerCentral.Fleet

/-!
# Waiting for an updated agent

`update_agent` tells the installed agent of a host to replace its binary, and then asks the
fleet every two seconds which connection answers for the host, until one does that is
online and not the connection it started with.

`updateMachine` interleaves one such task with the connections of the host coming and
going. `registered` is the list of all connections in the order in which they came; a task
that waits remembers how many there were when the agent acknowledged.

`UpdateHonest` says what the task may conclude, `PollsReconnect` that no poll finds an
older connection that has been promoted.
-/

open Framework

namespace ServerCentral.Agent

/-- `5 * 60_000` -/
def RECONNECT_TIMEOUT_MS : ℕ := 5 * 60000

/-- The await positions of `update_agent`, with what is used after them. -/
inductive UpdateTask where
  | idle
  /-- `agent.updateService` -/
  | updating (agent : HostAgent) (force : Bool)
  /-- The sleep of `waitForAgentReconnect`; `mark` connections came before the wait. -/
  | waiting (before : HostAgent) (force : Bool) (deadline : ℕ) (mark : ℕ)
  | ended
  deriving DecidableEq, Repr

/-- How the task fails. -/
inductive UpdateError where
  | unknownServer
  | notConnected
  | notInstalled
  | upToDate
  | rejected
  | cancelled
  /-- "Agent reconnected on …, expected …" -/
  | reconnectedOn (version : Option String)
  | timedOut
  deriving DecidableEq, Repr

structure UpdateState where
  fleet : Fleet
  /-- Every connection, in the order in which they were registered. -/
  registered : List HostAgent
  task : UpdateTask
  aborted : Bool

inductive UpdateLabel where
  | register (agent : HostAgent) (now : ℕ)
  /-- The socket of a connection closes. -/
  | close (agent : HostAgent) (now : ℕ)
  | remove (serverId : String)
  | run (force : Bool)
  /-- The agent has answered, or the request was rejected. -/
  | answered (ok : Bool) (now : ℕ)
  | abort
  /-- A sleep is over. -/
  | poll (now : ℕ)
  deriving DecidableEq, Repr

inductive UpdateOut where
  | done
  | registered (active : Bool)
  /-- The update command was sent. -/
  | pushed (force : Bool)
  | acknowledged
  | waiting
  | succeeded
  | failed (error : UpdateError)
  deriving DecidableEq, Repr

namespace UpdateState

variable (expected target : String) (s : UpdateState)

def fail (error : UpdateError) : UpdateState × UpdateOut :=
  ({ s with task := .ended }, .failed error)

/-- The first segment of `update_agent`, on the connection resolved when the run started. -/
def start (force : Bool) : UpdateState × UpdateOut :=
  match s.fleet.get target with
  | .error _ => s.fail .unknownServer
  | .ok agent =>
    let current := agent.info.bind SystemInfo.agentVersion
    if (s.fleet.status agent).state ≠ .online then s.fail .notConnected
    else if agent.mode ≠ "installed" then s.fail .notInstalled
    else if current = some expected ∧ force = false then s.fail .upToDate
    else ({ s with task := .updating agent force }, .pushed force)

/-- The loop condition and the check before the next sleep. -/
def again (before : HostAgent) (force : Bool) (deadline mark now : ℕ) (out : UpdateOut) :
    UpdateState × UpdateOut :=
  if now < deadline then
    if s.aborted then s.fail .cancelled
    else ({ s with task := .waiting before force deadline mark }, out)
  else s.fail .timedOut

/-- The connection a poll takes to be the reconnect. -/
def reconnected (before : HostAgent) : Option HostAgent :=
  match s.fleet.get target with
  | .error _ => none -- mid-reconnect gap
  | .ok agent =>
    if agent = before ∨ (s.fleet.status agent).state ≠ .online then none else some agent

/-- The segment after a sleep. -/
def wake (before : HostAgent) (force : Bool) (deadline mark now : ℕ) :
    UpdateState × UpdateOut :=
  match s.reconnected target before with
  | none => s.again before force deadline mark now .waiting
  | some agent =>
    let reportedVersion := agent.info.bind SystemInfo.agentVersion
    if force = false ∧ reportedVersion ≠ some expected then s.fail (.reconnectedOn reportedVersion)
    else ({ s with task := .ended }, .succeeded)

/-- One step. Every connection is an object of its own. -/
def step : UpdateLabel → Option (UpdateState × UpdateOut)
  | .register agent now =>
    if agent ∈ s.registered then none
    else
      let (fleet, active) := s.fleet.register agent now
      some ({ s with fleet, registered := s.registered ++ [agent] }, .registered active)
  | .close agent now =>
    if agent ∈ s.fleet.listOf agent.id then
      some ({ s with fleet := (s.fleet.disconnect agent).deregister agent now }, .done)
    else none
  | .remove serverId =>
    match s.fleet.remove serverId with
    | .error _ => some (s, .done)
    | .ok fleet => some ({ s with fleet }, .done)
  | .run force =>
    match s.task with
    | .idle => some (s.start expected target force)
    | _ => none
  | .answered ok now =>
    match s.task with
    | .updating agent force =>
      if ok then
        let deadline := now + RECONNECT_TIMEOUT_MS
        some (s.again agent force deadline s.registered.length now .acknowledged)
      else some (s.fail .rejected)
    | _ => none
  | .abort => some ({ s with aborted := true }, .done)
  | .poll now =>
    match s.task with
    | .waiting before force deadline mark =>
      some (s.wake expected target before force deadline mark now)
    | _ => none

end UpdateState

/-- **The task among the connections of its host.** -/
def updateMachine (start : FleetStart) (expected target : String) :
    Machine UpdateState UpdateLabel UpdateOut where
  init := ⟨start.fleet, start.embedded.toList, .idle, false⟩
  step s l := s.step expected target l

/-- A connection of the installed agent of the machine. -/
def InstalledAgent (target : String) (a : HostAgent) : Prop :=
  a.id = target ∧ a.mode = "installed"

instance (target : String) (a : HostAgent) : Decidable (InstalledAgent target a) := by
  unfold InstalledAgent
  infer_instance

/-- What a poll takes to be the reconnect is a connection of the installed agent that was
registered after the update was acknowledged. -/
def PollsReconnect (target : String) (s : UpdateState) : UpdateLabel → Prop
  | .poll _ =>
    match s.task with
    | .waiting before _ _ mark => ∀ a ∈ s.reconnected target before,
      InstalledAgent target a ∧ a ∈ s.registered.drop mark
    | _ => True
  | _ => True

instance (target : String) (s : UpdateState) (l : UpdateLabel) :
    Decidable (PollsReconnect target s l) := by
  unfold PollsReconnect
  split
  · split <;> infer_instance
  · infer_instance

/-- This connection was registered after the update was acknowledged. -/
def Returns (tr : List (UpdateLabel × UpdateOut)) (a : HostAgent) : Prop :=
  ∃ pre post ack, tr = pre ++ (ack, UpdateOut.acknowledged) :: post ∧
    ∃ now active, (UpdateLabel.register a now, UpdateOut.registered active) ∈ post

/-- It is a connection of the installed agent. -/
def Reconnects (target : String) (tr : List (UpdateLabel × UpdateOut)) (a : HostAgent) : Prop :=
  InstalledAgent target a ∧ Returns tr a

/-- **What the task concludes is true.** -/
structure UpdateHonest (start : FleetStart) (expected target : String)
    (tr : List (UpdateLabel × UpdateOut)) : Prop where
  /-- Success means that the installed agent is back, on the expected version unless the
  update was forced. -/
  succeeded : ∀ pre post now, tr = pre ++ (.poll now, .succeeded) :: post →
    ∃ a, Reconnects target pre a ∧ (a.info.bind SystemInfo.agentVersion = some expected ∨
      (UpdateLabel.run true, UpdateOut.pushed true) ∈ pre)
  /-- Only the installed agent that is back on another version fails the task. -/
  mismatch : ∀ pre post now version,
    tr = pre ++ (.poll now, .failed (.reconnectedOn version)) :: post →
      ∃ a, Reconnects target pre a ∧ a.info.bind SystemInfo.agentVersion = version ∧
        version ≠ some expected
  /-- The task does not time out while the installed agent that is back is connected. -/
  timedOut : ∀ pre post now, tr = pre ++ (.poll now, .failed .timedOut) :: post →
    ∃ m, (updateMachine start expected target).Run pre m ∧
      ∀ a ∈ m.fleet.listOf target, ¬Reconnects target pre a

end ServerCentral.Agent
