import ServerCentral.Framework.Machine
import ServerCentral.Framework.Table

/-!
# Requests to an agent

The control plane's side of a connection (`HostAgent`: `request`, `streamExec`,
`receive`, `disconnect`, and the timers), the agent's side of a streamed command
(`runExecStream`), and the two wires between them, which deliver in order. What else
the agent sends is left open: `inject` puts any message on the wire at any time, late,
unsolicited or under the id of another request.

Request ids are drawn at random: a new one has been used by nobody.
-/

open Framework

namespace ServerCentral.Agent

inductive OutputStream where
  | stdout
  | stderr
  deriving DecidableEq, Repr

/-- What an agent sends, as far as `receive` looks at it; `response` stands for the
replies whose content is handed on as it is. -/
inductive NodeMessage where
  | metrics
  | pong
  | execChunk (requestId : String) (stream : OutputStream) (data : String)
  | execStreamEnd (requestId : String) (code : Int)
  | shellData (sessionId data : String)
  | shellExit (sessionId : String) (code : Option Int)
  | response (requestId type body : String)
  | error (requestId : Option String) (message : String)
  deriving DecidableEq, Repr

/-- `msg.requestId` -/
def NodeMessage.requestId : NodeMessage → Option String
  | .execChunk requestId _ _ => some requestId
  | .execStreamEnd requestId _ => some requestId
  | .response requestId _ _ => some requestId
  | .error requestId _ => requestId
  | _ => none

/-- What the control plane sends; `request` stands for the requests with one reply. -/
inductive ControlMessage where
  | request (requestId : String)
  | execStreamRequest (requestId command : String)
  | openShell (sessionId : String)
  | closeShell (sessionId : String)
  deriving DecidableEq, Repr

/-- Which method created a pending entry. -/
inductive RequestKind where
  | request
  | streamExec
  deriving DecidableEq, Repr

/-- The error of a timer. -/
def RequestKind.timeoutMessage (requestId : String) : RequestKind → String
  | .request => "Request " ++ requestId ++ " timed out"
  | .streamExec => "Command produced no output for 120s and was abandoned"

/-- The arrays `stdout` and `stderr` of a call of `streamExec`. -/
structure ExecOutput where
  stdout : List String
  stderr : List String
  deriving DecidableEq, Repr

def ExecOutput.push (out : ExecOutput) : OutputStream → String → ExecOutput
  | .stdout, data => { out with stdout := out.stdout ++ [data] }
  | .stderr, data => { out with stderr := out.stderr ++ [data] }

/-- One of the two pumps of `runExecStream`. -/
inductive PumpState where
  | running
  | done
  | broken
  deriving DecidableEq, Repr

/-- A call of `runExecStream` whose process has been started. -/
structure ExecTask where
  stdout : PumpState
  stderr : PumpState
  /-- Whether the error of a pump has been sent. -/
  failed : Bool
  deriving DecidableEq, Repr

namespace ExecTask

def pump (t : ExecTask) : OutputStream → PumpState
  | .stdout => t.stdout
  | .stderr => t.stderr

def setPump (t : ExecTask) : OutputStream → PumpState → ExecTask
  | .stdout, p => { t with stdout := p }
  | .stderr, p => { t with stderr := p }

end ExecTask

/-- What the control plane does with its promises and callbacks. -/
inductive HostEvent where
  | resolved (requestId : String) (msg : NodeMessage)
  | rejected (requestId message : String)
  /-- `streamExec` returns. -/
  | returned (requestId stdout stderr : String) (code : Option Int)
  | chunk (requestId : String) (stream : OutputStream) (data : String)
  | shellData (sessionId data : String)
  | shellExit (sessionId : String) (code : Option Int)
  deriving DecidableEq, Repr

/-- The request an event belongs to. -/
def HostEvent.requestId : HostEvent → Option String
  | .resolved requestId _ => some requestId
  | .rejected requestId _ => some requestId
  | .returned requestId _ _ _ => some requestId
  | .chunk requestId _ _ => some requestId
  | _ => none

/-- Both sides of a connection: the maps of `HostAgent` with the armed timers and the
arrays of the `streamExec` calls, the wires `up` from the agent and `down` to it, the
commands the agent runs or could not start, and the ids somebody has used. -/
structure ProtocolState where
  connected : Bool
  pending : Table String RequestKind
  timers : Table String RequestKind
  execStreams : Table String Unit
  outputs : Table String ExecOutput
  shells : Table String Unit
  up : List NodeMessage
  down : List ControlMessage
  execs : Table String ExecTask
  /-- Calls of `runExecStream` that are working out why the process did not start. -/
  spawnFailures : List String
  used : List String

namespace ProtocolState

/-! ### The control plane -/

/-- A message to a closed socket is dropped. -/
def sendControl (s : ProtocolState) (msg : ControlMessage) : ProtocolState :=
  if s.connected then { s with down := s.down ++ [msg] } else s

def request (s : ProtocolState) (requestId : String) : ProtocolState :=
  { s with
    pending := s.pending.set requestId .request
    timers := s.timers.set requestId .request }.sendControl (.request requestId)

def streamExec (s : ProtocolState) (requestId command : String) : ProtocolState :=
  { s with
    outputs := s.outputs.set requestId ⟨[], []⟩
    execStreams := s.execStreams.set requestId ()
    pending := s.pending.set requestId .streamExec
    timers := s.timers.set requestId .streamExec }.sendControl
      (.execStreamRequest requestId command)

/-- What the callbacks of a pending entry do first: clear the timer, and for a stream drop
its sink. -/
def cleanup (s : ProtocolState) (requestId : String) : RequestKind → ProtocolState
  | .request => { s with timers := s.timers.erase requestId }
  | .streamExec =>
    { s with
      timers := s.timers.erase requestId
      execStreams := s.execStreams.erase requestId }

/-- What `streamExec` returns once its promise is resolved. -/
def result (s : ProtocolState) (requestId : String) (msg : NodeMessage) : HostEvent :=
  let out := (s.outputs.get? requestId).getD ⟨[], []⟩
  .returned requestId ("".intercalate out.stdout) ("".intercalate out.stderr)
    (match msg with
      | .execStreamEnd _ code => some code
      | _ => none)

def resolve (s : ProtocolState) (requestId : String) (kind : RequestKind) (msg : NodeMessage) :
    ProtocolState × List HostEvent :=
  (s.cleanup requestId kind,
    match kind with
    | .request => [.resolved requestId msg]
    | .streamExec => [.resolved requestId msg, s.result requestId msg])

def reject (s : ProtocolState) (requestId : String) (kind : RequestKind) (message : String) :
    ProtocolState × List HostEvent :=
  (s.cleanup requestId kind, [.rejected requestId message])

/-- The sink of a stream: output is proof of life. -/
def sink (s : ProtocolState) (requestId : String) (stream : OutputStream) (data : String) :
    ProtocolState × List HostEvent :=
  ({ s with
      timers := s.timers.set requestId .streamExec
      outputs := s.outputs.modify requestId fun out => out.push stream data },
    [.chunk requestId stream data])

/-- The end of `receive`: a reply settles the request whose id it carries. -/
def receiveReply (s : ProtocolState) (msg : NodeMessage) : ProtocolState × List HostEvent :=
  match msg.requestId.filter (· ≠ "") with
  | none => (s, [])
  | some requestId =>
    match s.pending.get? requestId with
    | none => (s, [])
    | some kind =>
      let s := { s with pending := s.pending.erase requestId }
      match msg with
      | .error _ message => s.reject requestId kind message
      | _ => s.resolve requestId kind msg

def receive (s : ProtocolState) (msg : NodeMessage) : ProtocolState × List HostEvent :=
  match msg with
  | .metrics => (s, [])
  | .execChunk requestId stream data =>
    match s.execStreams.get? requestId with
    | none => (s, [])
    | some () => s.sink requestId stream data
  | .shellData sessionId data =>
    (s, if s.shells.has sessionId then [.shellData sessionId data] else [])
  | .shellExit sessionId code =>
    if s.shells.has sessionId then
      ({ s with shells := s.shells.erase sessionId }, [.shellExit sessionId code])
    else (s, [])
  | _ => s.receiveReply msg

/-- The connection drops: nothing on its way up arrives any more. -/
def disconnect (s : ProtocolState) : ProtocolState × List HostEvent :=
  let rejected := s.pending.entries.foldl (fun acc e =>
    let (s, events) := acc.1.reject e.1 e.2 "Node disconnected"
    (s, acc.2 ++ events)) ({ s with connected := false, up := [] }, [])
  ({ rejected.1 with pending := .empty, shells := .empty, execStreams := .empty },
    rejected.2 ++ s.shells.keys.map fun sessionId => .shellExit sessionId none)

/-- The timer of a request fires. -/
def timeout (s : ProtocolState) (requestId : String) (kind : RequestKind) :
    ProtocolState × List HostEvent :=
  { s with pending := s.pending.erase requestId }.reject requestId kind
    (kind.timeoutMessage requestId)

/-! ### The agent -/

/-- The ids that messages carry. -/
def idsOf (msgs : List NodeMessage) : List String := msgs.filterMap NodeMessage.requestId

/-- `transport.send`; what is sent over a closed socket is lost. -/
def send (s : ProtocolState) (msgs : List NodeMessage) : ProtocolState :=
  { s with
    up := if s.connected then s.up ++ msgs else s.up
    used := idsOf msgs ++ s.used }

/-- `runExecStream` up to its pumps, or up to the report of `spawnFailure`. -/
def startExec (s : ProtocolState) (requestId : String) (fails : Bool) : ProtocolState :=
  if fails then { s with spawnFailures := requestId :: s.spawnFailures }
  else { s with execs := s.execs.set requestId ⟨.running, .running, false⟩ }

/-- A text decoded by a pump is sent when there is any. -/
def chunkOf (requestId : String) (stream : OutputStream) (data : String) : List NodeMessage :=
  if data = "" then [] else [.execChunk requestId stream data]

end ProtocolState

inductive ProtocolLabel where
  | request (requestId : String)
  | streamExec (requestId command : String)
  | openShell (sessionId : String)
  | closeShell (sessionId : String)
  /-- The timer of a request fires. -/
  | timeout (requestId : String)
  /-- The next message from the agent arrives. -/
  | deliver
  | disconnect
  /-- The next message arrives at the agent; a command fails to start or not. -/
  | accept (fails : Bool)
  /-- `spawnFailure` has found out why a command did not start. -/
  | spawnFailure (requestId text : String)
  /-- A pump decodes a buffer, reaches the end with what the decoder still holds, or fails. -/
  | pump (requestId : String) (stream : OutputStream) (data : String)
  | drained (requestId : String) (stream : OutputStream) (tail : String)
  | broke (requestId : String) (stream : OutputStream) (message : String)
  /-- The process has exited, and both pumps are done. -/
  | exited (requestId : String) (code : Int)
  /-- The agent sends anything else. -/
  | inject (msg : NodeMessage)
  deriving DecidableEq, Repr

/-- What a step puts on the wire to the control plane, takes from it, and does with the
promises and callbacks. -/
structure ProtocolOut where
  sent : List NodeMessage
  delivered : List NodeMessage
  events : List HostEvent
  deriving DecidableEq, Repr

namespace ProtocolState

/-- A step of the control plane on its own. -/
def acts (p : ProtocolState × List HostEvent) : ProtocolState × ProtocolOut :=
  (p.1, ⟨[], [], p.2⟩)

/-- A step of the agent that sends. -/
def sends (p : ProtocolState × List NodeMessage) : ProtocolState × ProtocolOut :=
  (p.1.send p.2, ⟨p.2, [], []⟩)

/-- A step of a running pump. -/
def pumped (s : ProtocolState) (requestId : String) (stream : OutputStream)
    (next : ExecTask → ExecTask × List NodeMessage) : Option (ProtocolState × ProtocolOut) :=
  (s.execs.get? requestId).bind fun task =>
    if task.pump stream = .running then
      let (task, msgs) := next task
      some (sends ({ s with execs := s.execs.set requestId task }, msgs))
    else none

def step (s : ProtocolState) : ProtocolLabel → Option (ProtocolState × ProtocolOut)
  | .request requestId =>
    if requestId ∈ s.used ∨ requestId = "" then none
    else some (acts ({ s with used := requestId :: s.used }.request requestId, []))
  | .streamExec requestId command =>
    if requestId ∈ s.used ∨ requestId = "" then none
    else some (acts ({ s with used := requestId :: s.used }.streamExec requestId command, []))
  | .openShell sessionId =>
    if s.shells.has sessionId then none
    else some (acts ({ s with shells := s.shells.set sessionId () }.sendControl
      (.openShell sessionId), []))
  | .closeShell sessionId =>
    some (acts ({ s with shells := s.shells.erase sessionId }.sendControl
      (.closeShell sessionId), []))
  | .timeout requestId => (s.timers.get? requestId).map fun kind => acts (s.timeout requestId kind)
  | .deliver =>
    match s.up with
    | [] => none
    | msg :: rest =>
      let (s, events) := { s with up := rest }.receive msg
      some (s, ⟨[], [msg], events⟩)
  | .disconnect => if s.connected then some (acts s.disconnect) else none
  | .accept fails =>
    match s.down with
    | [] => none
    | .execStreamRequest requestId _ :: rest =>
      some (sends ({ s with down := rest }.startExec requestId fails, []))
    | _ :: rest => some (sends ({ s with down := rest }, []))
  | .spawnFailure requestId text =>
    if requestId ∈ s.spawnFailures then
      some (sends ({ s with spawnFailures := s.spawnFailures.erase requestId },
        [.execChunk requestId .stderr text, .execStreamEnd requestId 127]))
    else none
  | .pump requestId stream data =>
    s.pumped requestId stream fun task => (task, chunkOf requestId stream data)
  | .drained requestId stream tail =>
    s.pumped requestId stream fun task =>
      (task.setPump stream .done, chunkOf requestId stream tail)
  | .broke requestId stream message =>
    -- the other pump goes on
    s.pumped requestId stream fun task =>
      ({ task.setPump stream .broken with failed := true },
        if task.failed then [] else [.error (some requestId) message])
  | .exited requestId code =>
    (s.execs.get? requestId).bind fun task =>
      if task.stdout = .done ∧ task.stderr = .done then
        some (sends ({ s with execs := s.execs.erase requestId },
          [.execStreamEnd requestId code]))
      else none
  | .inject msg => some (sends (s, [msg]))

end ProtocolState

/-- **A connection**, from the moment the agent is accepted. -/
def protocolMachine : Machine ProtocolState ProtocolLabel ProtocolOut where
  init := ⟨true, .empty, .empty, .empty, .empty, .empty, [], [], .empty, [], []⟩
  step := ProtocolState.step

end ServerCentral.Agent
