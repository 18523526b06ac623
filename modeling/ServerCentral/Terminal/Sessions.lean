import ServerCentral.Agent.Requests
import ServerCentral.Terminal.Opening

/-!
# Shell sessions

A session has an entry in the map of `HostAgent` and one in the map of the agent, and no
reply of its own: the control plane registers a session before the agent has heard of it,
and learns of its end from `shellExit`. `shellMachine` runs both sides of a connection with
the two wires between them; the PTYs print, end and are opened as the environment decides.

`onMessage` has no real await in the four messages handled here: the continuation of an
`openShell` runs before the next message or the end of the process is looked at.

A connection that drops does so on the control plane first, which takes the agent out of
the fleet in the same stretch. What is on its way down may still arrive.
-/

open Framework ServerCentral.Agent

namespace ServerCentral.Terminal

/-- What the control plane sends about shells. -/
inductive ShellMessage where
  | openShell (msg : OpenShell)
  | shellInput (sessionId data : String)
  | shellResize (sessionId : String) (cols rows : ℕ)
  | closeShell (sessionId : String)
  deriving DecidableEq, Repr

/-- The process behind a PTY that was opened. A closed one has been killed. -/
inductive PtyState where
  | running
  | killed
  | exited
  deriving DecidableEq, Repr

/-- Both sides of a connection: `sessions` is the map of `HostAgent` and `shells` that of the
agent, `ptys` are the processes the agent has started. -/
structure ShellState where
  connected : Bool
  sessions : Table String Unit
  down : List ShellMessage
  up : List NodeMessage
  shells : Table String Unit
  ptys : Table String PtyState
  /-- The sessions `openShell` has returned. -/
  opened : List String

namespace ShellState

/-! ### The control plane -/

/-- A message to a closed socket is dropped. -/
def sendControl (s : ShellState) (msg : ShellMessage) : ShellState :=
  if s.connected then { s with down := s.down ++ [msg] } else s

/-- Register a session and send its message. The callbacks are set before a message can
arrive. -/
def openSession (s : ShellState) (msg : OpenShell) : ShellState :=
  { s with
    sessions := s.sessions.set msg.sessionId ()
    opened := msg.sessionId :: s.opened }.sendControl (.openShell msg)

/-- `ShellSession.close` -/
def close (s : ShellState) (sessionId : String) : ShellState :=
  { s with sessions := s.sessions.erase sessionId }.sendControl (.closeShell sessionId)

/-- `HostAgent.receive`. What carries no session id reaches no session. -/
def receive (s : ShellState) : NodeMessage → ShellState × List HostEvent
  | .shellData sessionId data =>
    (s, if s.sessions.has sessionId then [.shellData sessionId data] else [])
  | .shellExit sessionId code =>
    if s.sessions.has sessionId then
      ({ s with sessions := s.sessions.erase sessionId }, [.shellExit sessionId code])
    else (s, [])
  | _ => (s, [])

def disconnect (s : ShellState) : ShellState × List HostEvent :=
  ({ s with connected := false, up := [], sessions := .empty },
    s.sessions.keys.map fun sessionId => .shellExit sessionId none)

/-! ### The agent -/

/-- `transport.send`; what is sent over a closed socket is lost. -/
def send (s : ShellState) (msg : NodeMessage) : ShellState :=
  { s with up := if s.connected then s.up ++ [msg] else s.up }

variable (host : AgentHost)

/-- The error of opening a shell: no argument vector, or a spawn without a PTY. -/
def openError (msg : OpenShell) (spawnError : Option String) : Option String :=
  match host.runOpenShell msg with
  | .error message => some message
  | .ok _ => spawnError

/-- `onMessage`. -/
def onMessage (s : ShellState) (spawnError : Option String) : ShellMessage →
    ShellState × List NodeMessage
  | .openShell msg =>
    match openError host msg spawnError with
    | some message => (s.send (.error none message), [.error none message])
    | none =>
      ({ s with
          shells := s.shells.set msg.sessionId ()
          ptys := s.ptys.set msg.sessionId .running }, [])
  | .shellInput _ _ => (s, [])
  | .shellResize _ _ _ => (s, [])
  | .closeShell sessionId =>
    if s.shells.has sessionId then
      ({ s with
          shells := s.shells.erase sessionId
          ptys := s.ptys.set sessionId .killed }, [])
    else (s, [])

end ShellState

inductive ShellLabel where
  | openShell (sessionId : String) (cols rows : ℕ) (asUser command : Option String)
  | write (sessionId data : String)
  | resize (sessionId : String) (cols rows : ℕ)
  | close (sessionId : String)
  /-- The next message from the agent arrives. -/
  | deliver
  | disconnect
  /-- The next message arrives at the agent; a spawn fails or not. -/
  | accept (spawnError : Option String)
  /-- A PTY prints. -/
  | output (sessionId data : String)
  | exit (sessionId : String) (code : Int)
  deriving DecidableEq, Repr

namespace ShellState

variable (agent : HostAgent) (host : AgentHost)

def step (s : ShellState) : ShellLabel → Option (ShellState × ProtocolOut)
  | .openShell sessionId cols rows asUser command =>
    if s.connected ∧ sessionId ∉ s.opened then
      match openShell agent host.capabilities sessionId cols rows asUser command with
      | .error _ => some (s, ⟨[], [], []⟩)
      | .ok msg => some (s.openSession msg, ⟨[], [], []⟩)
    else none
  | .write sessionId data =>
    if sessionId ∈ s.opened then
      some (s.sendControl (.shellInput sessionId data), ⟨[], [], []⟩)
    else none
  | .resize sessionId cols rows =>
    if sessionId ∈ s.opened then
      some (s.sendControl (.shellResize sessionId cols rows), ⟨[], [], []⟩)
    else none
  | .close sessionId =>
    if sessionId ∈ s.opened then some (s.close sessionId, ⟨[], [], []⟩) else none
  | .deliver =>
    match s.up with
    | [] => none
    | msg :: rest =>
      let (s, events) := { s with up := rest }.receive msg
      some (s, ⟨[], [msg], events⟩)
  | .disconnect =>
    if s.connected then some (s.disconnect.1, ⟨[], [], s.disconnect.2⟩) else none
  | .accept spawnError =>
    match s.down with
    | [] => none
    | msg :: rest =>
      let (s, sent) := { s with down := rest }.onMessage host spawnError msg
      some (s, ⟨sent, [], []⟩)
  | .output sessionId data =>
    if s.ptys.has sessionId then
      some (s.send (.shellData sessionId data), ⟨[.shellData sessionId data], [], []⟩)
    else none
  | .exit sessionId code =>
    match s.ptys.get? sessionId with
    | some .running | some .killed =>
      some ({ s with
          shells := s.shells.erase sessionId
          ptys := s.ptys.set sessionId .exited }.send (.shellExit sessionId (some code)),
        ⟨[.shellExit sessionId (some code)], [], []⟩)
    | _ => none

end ShellState

/-- **The shells of a connection**, from the moment the agent is accepted. -/
def shellMachine (agent : HostAgent) (host : AgentHost) :
    Machine ShellState ShellLabel ProtocolOut where
  init := ⟨true, .empty, [], [], .empty, .empty, []⟩
  step := ShellState.step agent host

/-! ### What is asked of sessions -/

/-- The session a message is addressed to. -/
def sessionOf : NodeMessage → Option String
  | .shellData sessionId _ => some sessionId
  | .shellExit sessionId _ => some sessionId
  | _ => none

/-- A chunk the callback of a session is given. -/
def chunkOf (sessionId : String) : HostEvent → Option String
  | .shellData id data => if id = sessionId then some data else none
  | _ => none

def isExitOf (sessionId : String) : HostEvent → Bool
  | .shellExit id _ => decide (id = sessionId)
  | _ => false

section Trace

variable (tr : List (ShellLabel × ProtocolOut)) (sessionId : String)

/-- What the PTY of a session has printed. -/
def produced : List String :=
  tr.filterMap fun
    | (.output id data, _) => if id = sessionId then some data else none
    | _ => none

/-- What the callback of a session has been given. -/
def shown : List String := tr.flatMap fun x => x.2.events.filterMap (chunkOf sessionId)

/-- How often `onExit` of a session has been called. -/
def exits : ℕ := (tr.flatMap fun x => x.2.events).countP (isExitOf sessionId)

/-- A message addressed to a session has arrived. -/
def Received : Prop := ∃ x ∈ tr, ∃ msg ∈ x.2.delivered, sessionOf msg = some sessionId

/-- The control plane has closed a session. -/
def Closed : Prop := ∃ o, (.close sessionId, o) ∈ tr

end Trace

/-- The agent has handled the `openShell` of a session. -/
def Handled (s : ShellState) (sessionId : String) : Prop :=
  sessionId ∈ s.opened ∧ ∀ msg, .openShell msg ∈ s.down → msg.sessionId ≠ sessionId

/-- A session whose PTY has exited, or has been killed by closing it. -/
def Ended (s : ShellState) (sessionId : String) : Prop :=
  s.ptys.get? sessionId = some .exited ∨ s.ptys.get? sessionId = some .killed

/-- Nothing is left of a session on the agent. -/
def GoneOnAgent (s : ShellState) (sessionId : String) : Prop :=
  s.shells.has sessionId = false ∧ s.ptys.get? sessionId ≠ some .running

/-- **What a connection does for its shells.** -/
structure SessionsKept (tr : List (ShellLabel × ProtocolOut)) (s : ShellState) : Prop where
  /-- A session is never left open with nothing behind it. -/
  backed : s.up = [] → ∀ id, Handled s id →
    (s.shells.has id = true ∧ s.ptys.get? id = some .running) ∨ Ended s id ∨ Received tr id
  /-- Output reaches its own session, in order. -/
  output : ∀ id, shown tr id <+: produced tr id
  once : ∀ id, exits tr id ≤ 1
  /-- After the exit nothing is left: on the agent at once, and on the control plane when the
  messages of the session have arrived. -/
  exit : ∀ id, s.ptys.get? id = some .exited → GoneOnAgent s id ∧
    ((∀ msg ∈ s.up, sessionOf msg ≠ some id) → s.sessions.has id = false)
  /-- After a close nothing is left: on the control plane at once, and on the agent when it
  has handled the message. -/
  close : ∀ id, Closed tr id → s.sessions.has id = false ∧
    (.closeShell id ∉ s.down → s.connected = true → GoneOnAgent s id)
  disconnect : s.connected = false → ∀ id, s.sessions.has id = false ∧ GoneOnAgent s id

/-- The steps that keep away from the two gaps: the agent opens every shell it is asked for,
while the connection is up, and the connection drops when no PTY is running. -/
def OpensAndStays (host : AgentHost) (s : ShellState) : ShellLabel → Prop
  | .accept spawnError => ∀ msg rest, s.down = .openShell msg :: rest →
      s.connected = true ∧ ShellState.openError host msg spawnError = none
  | .disconnect => ∀ id, s.ptys.get? id ≠ some .running
  | _ => True

end ServerCentral.Terminal
