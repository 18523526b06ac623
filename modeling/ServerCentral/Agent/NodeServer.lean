import ServerCentral.Fleet

/-!
# The node server: tokens and identification

A host connects with an `identify` message that names its machine, its mode and a token:
an enrollment token, which expires, or the durable token an installed service was given.
`nodeMachine` interleaves the minting of both, the writes of the durable tokens, the
identification and the closing of connections, and restarts of the control plane.

A `mintAgentToken` awaits twice, once before the table is serialised and once before the
write is done, so the writes of several can overtake one another. `mints` and `returned`
record which durable tokens were minted, in order, and which of them were handed out.

`IdentityBound` says what a connection had to present to be registered as a machine, and
`OwnCredential` when the server sees to it.
-/

open Framework

namespace ServerCentral.Agent

/-- What an agent says of itself. -/
structure IdentifyMessage where
  token : String
  machineId : String
  mode : String
  hostname : String
  info : SystemInfo
  deriving DecidableEq, Repr

/-- The connection made for a message. -/
def IdentifyMessage.agent (msg : IdentifyMessage) (conn : ℕ) (remoteIp : Option String) :
    HostAgent :=
  ⟨conn, msg.machineId, msg.hostname, some msg.info, msg.mode, remoteIp⟩

/-- `30 * 60 * 1000` -/
def tokenLifetime : ℕ := 30 * 60 * 1000

/-- A durable token that was minted. -/
structure Mint where
  machineId : String
  token : String
  deriving DecidableEq, Repr

/-- The await positions of `mintAgentToken`. -/
inductive MintTask where
  /-- `ensureDir` -/
  | preparing (mint : Mint)
  /-- `writeFileAtomic`, with the serialised table. -/
  | writing (mint : Mint) (content : Table String String)

def MintTask.mint : MintTask → Mint
  | .preparing mint => mint
  | .writing mint _ => mint

structure NodeServerState where
  /-- The enrollment tokens, with the time each expires at. -/
  tokens : Table String ℕ
  /-- Durable per-machine tokens (machineId → token) for installed agents. -/
  durableTokens : Table String String
  agents : Table ℕ HostAgent
  fleet : Fleet
  /-- The control plane's own connection. -/
  embedded : HostAgent
  nextConn : ℕ
  /-- `agent-tokens.json` -/
  file : Table String String
  tasks : Table ℕ MintTask
  /-- All tokens drawn so far. -/
  drawn : List String
  mints : List Mint
  returned : List String

/-- What a start of the process finds: the known agents on disk and its own machine. -/
structure NodeStart where
  stored : List AgentRecord
  machineId : String
  hostname : String
  info : SystemInfo
  now : ℕ
  deriving DecidableEq, Repr

inductive NodeLabel where
  | mintToken (token : String) (now : ℕ)
  | mintAgentToken (machineId token : String)
  /-- The directory is there. -/
  | ensured (task : ℕ)
  /-- A write is done, or has failed. -/
  | written (task : ℕ) (ok : Bool)
  | sweep (now : ℕ)
  | identify (msg : IdentifyMessage) (remoteIp : Option String) (now : ℕ)
  | close (conn : ℕ) (now : ℕ)
  | restart (start : NodeStart)
  deriving DecidableEq, Repr

inductive NodeOut where
  | done
  | minted (token : String) (expiresAt : ℕ)
  /-- `mintAgentToken` returns. -/
  | returned (mint : Mint)
  | failed
  | acknowledged (active : Bool)
  /-- The connection is closed: "invalid token". -/
  | refused
  deriving DecidableEq, Repr

/-- `durableTokens[machineId] = token`; a string assigned to `__proto__` goes nowhere. -/
def setDurable (durable : Table String String) (machineId token : String) : Table String String :=
  if machineId = "__proto__" then durable else durable.set machineId token

namespace NodeServerState

/-- A process that starts: the durable tokens come from the file. -/
def boot (start : NodeStart) (conn : ℕ) (file : Table String String) (drawn : List String)
    (mints : List Mint) (returned : List String) : NodeServerState :=
  let embedded := Fleet.createEmbeddedAgent conn start.machineId start.hostname start.info
  { tokens := .empty
    durableTokens := file
    agents := .empty
    fleet := .init start.stored embedded start.now
    embedded
    nextConn := conn + 1
    file
    tasks := .empty
    drawn
    mints
    returned }

variable (s : NodeServerState)

/-- Whether a token is accepted, with the enrollment tokens as the check leaves them. -/
def validateToken (token : String) (now : ℕ) : Bool × Table String ℕ :=
  -- Durable tokens (installed agents) never expire.
  if token ∈ s.durableTokens.values then (true, s.tokens)
  else match s.tokens.get? token with
    | none => (false, s.tokens)
    | some expiresAt =>
      if now > expiresAt then (false, s.tokens.erase token) else (true, s.tokens)

/-- A first message that identifies the host. -/
def identify (msg : IdentifyMessage) (remoteIp : Option String) (now : ℕ) :
    NodeServerState × NodeOut :=
  let (valid, tokens) := s.validateToken msg.token now
  let s := { s with tokens }
  if !valid then (s, .refused)
  else
    let proxy := msg.agent s.nextConn remoteIp
    let (fleet, active) := s.fleet.register proxy now
    ({ s with
      agents := s.agents.set s.nextConn proxy
      fleet
      nextConn := s.nextConn + 1 }, .acknowledged active)

def close (conn : ℕ) (now : ℕ) : NodeServerState :=
  match s.agents.get? conn with
  | none => s
  | some proxy =>
    { s with
      agents := s.agents.erase conn
      fleet := (s.fleet.disconnect proxy).deregister proxy now }

/-- One step. A token is drawn only once. -/
def step : NodeLabel → Option (NodeServerState × NodeOut)
  | .mintToken token now =>
    if token ∈ s.drawn then none
    else some ({ s with
      tokens := s.tokens.set token (now + tokenLifetime)
      drawn := s.drawn ++ [token] }, .minted token (now + tokenLifetime))
  | .mintAgentToken machineId token =>
    if token ∈ s.drawn then none
    else some ({ s with
      durableTokens := setDurable s.durableTokens machineId token
      tasks := s.tasks.set s.mints.length (.preparing ⟨machineId, token⟩)
      drawn := s.drawn ++ [token]
      mints := s.mints ++ [⟨machineId, token⟩] }, .done)
  | .ensured task =>
    match s.tasks.get? task with
    | some (.preparing mint) =>
      some ({ s with tasks := s.tasks.set task (.writing mint s.durableTokens) }, .done)
    | _ => none
  | .written task ok =>
    match s.tasks.get? task with
    | some (.writing mint content) =>
      if ok then some ({ s with
        file := content
        tasks := s.tasks.erase task
        returned := s.returned ++ [mint.token] }, .returned mint)
      else some ({ s with tasks := s.tasks.erase task }, .failed)
    | _ => none
  | .sweep now =>
    some ({ s with tokens := s.tokens.filter fun _ expiresAt => decide (¬now > expiresAt) }, .done)
  | .identify msg remoteIp now => some (s.identify msg remoteIp now)
  | .close conn now => some (s.close conn now, .done)
  | .restart start =>
    some (.boot start s.nextConn s.file s.drawn s.mints s.returned, .done)

/-- The mints after the one of this token. -/
def later (mint : Mint) : List Mint := (s.mints.dropWhile (· ≠ mint)).drop 1

/-- A durable token is revoked once a later one of its machine has been handed out. -/
def Revoked (mint : Mint) : Prop :=
  ∃ m ∈ s.later mint, m.machineId = mint.machineId ∧ m.token ∈ s.returned

instance (mint : Mint) : Decidable (s.Revoked mint) := by unfold Revoked; infer_instance

end NodeServerState

/-- **The node server**, started with no durable tokens. -/
def nodeMachine (start : NodeStart) : Machine NodeServerState NodeLabel NodeOut where
  init := .boot start 0 .empty [] [] []
  step := NodeServerState.step

/-- A durable token is presented only for the machine it is held for, and not in the mode of
the control plane's own agent; and no revoked token is on disk when the process starts. -/
def OwnCredential (s : NodeServerState) : NodeLabel → Prop
  | .identify msg _ _ => msg.token ∈ s.durableTokens.values →
    s.durableTokens.get? msg.machineId = some msg.token ∧ msg.mode ≠ "embedded"
  | .restart _ => ∀ e ∈ s.file.entries, ¬s.Revoked ⟨e.1, e.2⟩
  | _ => True

instance (s : NodeServerState) (l : NodeLabel) : Decidable (OwnCredential s l) := by
  unfold OwnCredential
  split <;> infer_instance

/-- What a message presents: an enrollment token minted less than its lifetime ago, or a
durable token that was minted for the machine it names and is not revoked. -/
def Presents (tr : List (NodeLabel × NodeOut)) (s : NodeServerState) (msg : IdentifyMessage)
    (now : ℕ) : Prop :=
  (∃ mintedAt o, (NodeLabel.mintToken msg.token mintedAt, o) ∈ tr ∧
    now ≤ mintedAt + tokenLifetime) ∨
  (⟨msg.machineId, msg.token⟩ ∈ s.mints ∧ ¬s.Revoked ⟨msg.machineId, msg.token⟩)

/-- **Connections are bound to their credentials.** -/
structure IdentityBound (start : NodeStart) (tr : List (NodeLabel × NodeOut))
    (s : NodeServerState) : Prop where
  /-- A registered connection has presented a token that is good for its machine. -/
  identified : ∀ pre post msg remoteIp now active,
    tr = pre ++ (.identify msg remoteIp now, .acknowledged active) :: post →
      ∃ m, (nodeMachine start).Run pre m ∧ Presents pre m msg now
  /-- The durable token of a host registers no connection as another host, nor as the
  embedded agent. -/
  own : ∀ mint ∈ s.mints, ∀ msg remoteIp now active,
    (NodeLabel.identify msg remoteIp now, NodeOut.acknowledged active) ∈ tr →
      msg.token = mint.token → msg.machineId = mint.machineId ∧ msg.mode ≠ "embedded"
  /-- The connections of a machine are those registered as it, and the control plane's own. -/
  listed : ∀ machineId, ∀ agent ∈ s.fleet.listOf machineId, agent = s.embedded ∨
    ∃ msg remoteIp now active, msg.machineId = machineId ∧
      (NodeLabel.identify msg remoteIp now, NodeOut.acknowledged active) ∈ tr ∧
      agent = msg.agent agent.conn remoteIp

end ServerCentral.Agent
