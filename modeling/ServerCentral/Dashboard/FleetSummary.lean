import ServerCentral.Compose.StackStatus
import ServerCentral.Compose.Stacks
import ServerCentral.Framework.Flights
import ServerCentral.Framework.Machine
import ServerCentral.Proxy.Caddy

/-!
# The summary of the fleet

The fleet page asks the server for a few facts of every online host. `FleetSummaryCollector` asks
each host for its three subsystems at once, waits for the last of them, for eight seconds at most,
and keeps the result for five seconds. Callers who come while it collects share the collection.

`mergeStacks` makes one row of the observed and the registered stack of a project.
`summaryMachine` takes the steps of the collector: a call, an answer of a host or its deadline, and
the end of a collection.
-/

open Framework

namespace ServerCentral.Dashboard

open Compose (ComposeStack ComposeStackRunStatus)
open Proxy (Collation)

/-! ### The stacks of a host -/

structure DockerStack where
  project : String
  containers : ℕ
  running : ℕ
  deriving DecidableEq, Repr

structure FleetStackSummary where
  project : String
  name : String
  status : ComposeStackRunStatus
  running : ℕ
  total : ℕ
  deriving DecidableEq, Repr

/-- The row of an observed stack. -/
def DockerStack.row (obs : DockerStack) : FleetStackSummary where
  project := obs.project
  name := obs.project
  status :=
    if obs.containers = 0 then .down
    else if obs.running = obs.containers then .running
    else if obs.running = 0 then .stopped
    else .partly
  running := obs.running
  total := obs.containers

def observe (byProject : Table String FleetStackSummary) (obs : DockerStack) :
    Table String FleetStackSummary :=
  byProject.set obs.project obs.row

/-- A registration renames what was observed, or is down. -/
def register (byProject : Table String FleetStackSummary) (stack : ComposeStack) :
    Table String FleetStackSummary :=
  byProject.set stack.project <|
    -- `{ ...existing, name }` keeps the place of the row in the map
    match byProject.get? stack.project with
    | some existing => { existing with name := stack.name }
    | none => ⟨stack.project, stack.name, .down, 0, 0⟩

def mergeStacks (collation : Collation) (observed : List DockerStack)
    (registered : List ComposeStack) : List FleetStackSummary :=
  (registered.foldl register (observed.foldl observe .empty)).values.mergeSort fun a b =>
    decide (collation.localeCompare a.name b.name ≤ 0)

/-! ### What a host answers -/

inductive FleetSubsystem where
  | docker
  | systemd
  | zfs
  deriving DecidableEq, Repr

inductive ScanKind where
  | scrub
  | resilver
  deriving DecidableEq, Repr

inductive ScanState where
  | inProgress
  | completed
  | cancelled
  deriving DecidableEq, Repr

structure ZfsScanStatus where
  kind : ScanKind
  state : ScanState
  finishedAt : Option ℕ
  deriving DecidableEq, Repr

structure ZfsPool where
  name : String
  state : String
  capacityPct : ℕ
  scan : Option ZfsScanStatus
  deriving DecidableEq, Repr

structure FleetPoolSummary where
  name : String
  state : String
  capacityPct : ℕ
  lastScrubAt : Option ℕ
  scrubInProgress : Bool
  deriving DecidableEq, Repr

def summarizePool (pool : ZfsPool) : FleetPoolSummary where
  name := pool.name
  state := pool.state
  capacityPct := pool.capacityPct
  lastScrubAt := pool.scan.bind fun scan =>
    if scan.kind = .scrub ∧ scan.state = .completed then scan.finishedAt else none
  scrubInProgress := pool.scan.any fun scan => scan.state = .inProgress

structure DockerSnapshot where
  containersRunning : ℕ
  containersTotal : ℕ
  stackList : List DockerStack

/-- The answer of a subsystem: what it reports, or why it is not available. -/
inductive Reply where
  | docker (snap : Except String DockerSnapshot)
  | systemd (units : Except String (List String))
  | zfs (pools : Except (Option String) (List ZfsPool))

def Reply.subsystem : Reply → FleetSubsystem
  | .docker _ => .docker
  | .systemd _ => .systemd
  | .zfs _ => .zfs

structure FleetDocker where
  containersRunning : ℕ
  containersTotal : ℕ
  stackList : List FleetStackSummary
  deriving DecidableEq, Repr

structure FleetHostSummary where
  hostId : String
  docker : Option FleetDocker := none
  failedUnits : Option (List String) := none
  pools : Option (List FleetPoolSummary) := none
  errors : Table FleetSubsystem String := .empty

/-- What is known of an online host when a collection starts. -/
structure OnlineHost where
  id : String
  /-- The capabilities that its agent has reported as not available. -/
  missing : List FleetSubsystem
  registered : List ComposeStack

namespace FleetHostSummary

def fail (out : FleetHostSummary) (subsystem : FleetSubsystem) (message : String) :
    FleetHostSummary :=
  { out with errors := out.errors.set subsystem message }

/-- The callbacks `apply`. -/
def apply (collation : Collation) (host : OnlineHost) (out : FleetHostSummary) :
    Reply → FleetHostSummary
  | .docker (.ok snap) =>
    let merged := mergeStacks collation snap.stackList host.registered
    { out with docker := some ⟨snap.containersRunning, snap.containersTotal, merged⟩ }
  | .docker (.error message) => out.fail .docker message
  | .systemd (.ok units) => { out with failedUnits := some units }
  | .systemd (.error message) => out.fail .systemd message
  | .zfs (.ok pools) => { out with pools := some (pools.map summarizePool) }
  | .zfs (.error message) => out.fail .zfs (message.getD "ZFS unavailable")

end FleetHostSummary

/-! ### The collector -/

/-- A host in a collection, with the subsystems that have not answered. -/
structure HostWork where
  host : OnlineHost
  out : FleetHostSummary
  pending : List FleetSubsystem

def summarizeHost (host : OnlineHost) : HostWork where
  host := host
  out := { hostId := host.id }
  -- a capability that the agent does not report is asked for
  pending := [.docker, .systemd, .zfs].filter fun subsystem => subsystem ∉ host.missing

/-- A subsystem has answered, or is given up. -/
def HostWork.settle (work : HostWork) (subsystem : FleetSubsystem) (out : FleetHostSummary) :
    HostWork :=
  { work with out, pending := work.pending.filter fun other => other ≠ subsystem }

structure Collection where
  startedAt : ℕ
  hosts : List HostWork

structure FleetSummary where
  hosts : List FleetHostSummary
  capturedAt : ℕ

/-- `CACHE_MS` and `HOST_TIMEOUT_MS` -/
def cacheMs : ℕ := 5000
def hostTimeoutMs : ℕ := 8000

/-- The calls of `get` are numbered, and `called` lists them. -/
structure Collector where
  cached : Option FleetSummary
  flights : Flights Unit Collection ℕ
  called : List ℕ

inductive SummaryLabel where
  /-- `get`, with the online hosts at that time. -/
  | get (c now : ℕ) (hosts : List OnlineHost)
  /-- A host of a collection answers for a subsystem, or its request is rejected. -/
  | answered (j i : ℕ) (reply : Reply)
  | rejected (j i : ℕ) (subsystem : FleetSubsystem) (message : String)
  | deadline (j i : ℕ) (subsystem : FleetSubsystem) (now : ℕ)
  /-- All hosts of a collection are summarized. -/
  | captured (j now : ℕ)

/-- The requests that a step sends, and the calls that it answers. -/
structure SummaryOut where
  asked : List (String × FleetSubsystem) := []
  answers : List (ℕ × FleetSummary) := []

def Collection.asks (collection : Collection) : List (String × FleetSubsystem) :=
  collection.hosts.flatMap fun work => work.pending.map fun subsystem => (work.host.id, subsystem)

namespace Collector

/-- A subsystem of a host is settled, unless it was before. -/
def record (s : Collector) (j i : ℕ) (subsystem : FleetSubsystem)
    (f : Collection → OnlineHost → FleetHostSummary → Option FleetHostSummary) :
    Option (Collector × SummaryOut) :=
  match s.flights.work.get? j with
  | none => none
  | some (_, collection) =>
    match collection.hosts[i]? with
    | none => none
    | some work =>
      -- the promise of a subsystem is settled by what comes first
      if subsystem ∈ work.pending then
        (f collection work.host work.out).map fun out =>
          let hosts := collection.hosts.set i (work.settle subsystem out)
          ({ s with flights := s.flights.advance j { collection with hosts } }, {})
      else none

def step (collation : Collation) (s : Collector) :
    SummaryLabel → Option (Collector × SummaryOut)
  | .get c now hosts =>
    if c ∈ s.called then none
    else
      let s := { s with called := c :: s.called }
      -- `Date.now() - this.cached.at < CACHE_MS`
      match s.cached.filter fun value => now < value.capturedAt + cacheMs with
      | some value => some (s, { answers := [(c, value)] })
      | none =>
        let collection := ⟨now, hosts.map summarizeHost⟩
        -- a call that finds a collection in flight starts none
        let asked := if s.flights.inflight.has () then [] else collection.asks
        some ({ s with flights := s.flights.request () collection c }, { asked })
  | .answered j i reply =>
    s.record j i reply.subsystem fun _ host out => some (out.apply collation host reply)
  | .rejected j i subsystem message =>
    s.record j i subsystem fun _ _ out => some (out.fail subsystem message)
  | .deadline j i subsystem now =>
    s.record j i subsystem fun collection _ out =>
      if collection.startedAt + hostTimeoutMs ≤ now then
        some (out.fail subsystem "no answer within 8s")
      else none
  | .captured j now =>
    match s.flights.work.get? j with
    | none => none
    | some (_, collection) =>
      if ∀ work ∈ collection.hosts, work.pending = [] then
        let value := ⟨collection.hosts.map HostWork.out, now⟩
        some ({ s with cached := some value, flights := s.flights.settle j },
          { answers := (s.flights.waiters j).map fun c => (c, value) })
      else none

end Collector

def summaryMachine (collation : Collation) : Machine Collector SummaryLabel SummaryOut where
  init := ⟨none, .empty, []⟩
  step := Collector.step collation

abbrev SummaryTrace := List (SummaryLabel × SummaryOut)

end ServerCentral.Dashboard
