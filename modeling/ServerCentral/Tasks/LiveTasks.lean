import ServerCentral.Framework.Handles
import ServerCentral.Framework.Replica
import ServerCentral.Tasks.Lifecycle

/-!
# The runs in the browser

The server broadcasts every run that it has saved over the events sockets, and sends a socket all
its runs when it opens. The browser keeps one socket, applies what arrives on it to the runs it
shows, and opens another one when it is closed. `waitForTask` answers once a run that is over
reaches the browser, or an answer to the request that it makes while there is no socket.

`liveMachine` is the server of `serverMachine`, one browser and its sockets. A socket keeps the
order of what is sent, and may be closed at any point, with what is on its way.
-/

open Framework

namespace ServerCentral.Tasks

variable {Spec Result : Type}

/-- The events that carry runs: `init` and `taskUpdate`. -/
abbrev TaskEvent (Spec Result : Type) := Change (TaskRun Spec Result)

/-- The cases `init` and `taskUpdate` of `handleEvent`. -/
def handleTasks (tasks : List (TaskRun Spec Result)) (event : TaskEvent Spec Result) :
    List (TaskRun Spec Result) :=
  applyChange TaskRun.id tasks event

/-- `TaskStore.list`, newest first. -/
def TaskStore.list (store : TaskStore Spec Result) : List (TaskRun Spec Result) :=
  (Table.values store).mergeSort fun a b => b.createdAt ≤ a.createdAt

/-- A socket is being opened, in the set of the `EventHub`, or gone from it. -/
inductive Phase where
  | connecting
  | joined
  | gone
  deriving DecidableEq, Repr

/-- A socket, with what was sent on it and has not arrived. -/
structure Socket (Spec Result : Type) where
  phase : Phase := .connecting
  /-- Whether its user has `panel.tasks.read`, which `taskUpdate` requires too. -/
  sees : Bool := false
  queue : List (TaskEvent Spec Result) := []

/-- `ConnectionManager` -/
structure Page (Spec Result : Type) where
  running : Bool := false
  ws : Option ℕ := none
  reconnectTimer : Option ℕ := none
  connected : Bool := false
  connecting : Bool := true
  tasks : List (TaskRun Spec Result) := []
  /-- The listeners of `waitForTask`, with the runs they wait for. -/
  waiting : Table ℕ String := .empty

/-- A request of the fallback of `waitForTask`, with the answer once there is one. -/
structure TaskRequest (Spec Result : Type) where
  waiter : ℕ
  id : String
  found : Option (Option (TaskRun Spec Result)) := none

structure LiveState (Spec Result : Type) where
  server : TaskServer Spec Result
  sockets : Table ℕ (Socket Spec Result)
  page : Page Spec Result
  /-- The pending timers of the browser. -/
  timers : Table ℕ Unit
  requests : Table ℕ (TaskRequest Spec Result)
  /-- The calls of `waitForTask` so far. -/
  called : List ℕ
  next : ℕ

inductive LiveLabel (Spec Result : Type) where
  | server (l : TaskLabel Spec Result)
  /-- The server opens a socket, for a user, or finds it closed. -/
  | accept (k : ℕ) (sees : Bool)
  | drop (k : ℕ)
  /-- `start` and `stop`; there is a token or not. -/
  | start (token : Bool)
  | stop
  | opened (k : ℕ)
  /-- What was sent first arrives. -/
  | arrive (k : ℕ)
  | closed (k : ℕ)
  | reconnect (t : ℕ) (token : Bool)
  | waitForTask (w : ℕ) (id : String)
  /-- The fallback of `waitForTask`: the request, its answer, and its arrival. -/
  | ask (w : ℕ)
  | reply (q : ℕ)
  | received (q : ℕ)

/-- A step of `waitForTask`. -/
def LiveLabel.waits : LiveLabel Spec Result → Bool
  | .waitForTask .. | .ask _ | .reply _ | .received _ => true
  | _ => false

/-- What others see of a step: the calls of `waitForTask` that are answered. -/
structure LiveOut (Spec Result : Type) where
  answers : List (ℕ × TaskRun Spec Result) := []

namespace Page

/-- A run that is over. -/
def finished (tasks : List (TaskRun Spec Result)) (id : String) : Option (TaskRun Spec Result) :=
  (rowOf TaskRun.id tasks id).filter fun run => !run.status.unfinished

/-- `update`, which calls all listeners. -/
def update (p : Page Spec Result) : Page Spec Result × List (ℕ × TaskRun Spec Result) :=
  ({ p with waiting := p.waiting.filter fun _ id => (finished p.tasks id).isNone },
    p.waiting.entries.filterMap fun e => (finished p.tasks e.2).map fun run => (e.1, run))

end Page

namespace LiveState

/-- `connect` -/
def connect (s : LiveState Spec Result) (token : Bool) : LiveState Spec Result :=
  if s.page.running = false ∨ token = false then s
  else
    { s with
      sockets := s.sockets.set s.next {}
      page := { s.page with ws := some s.next }
      next := s.next + 1 }

/-- A change of the page, with the calls it answers. -/
def setPage (s : LiveState Spec Result) (p : Page Spec Result) :
    LiveState Spec Result × LiveOut Spec Result :=
  ({ s with page := p.update.1 }, { answers := p.update.2 })

/-- `broadcast` -/
def broadcast (s : LiveState Spec Result) (run : TaskRun Spec Result) : LiveState Spec Result :=
  { s with sockets := s.sockets.map fun socket =>
      if socket.phase = .joined ∧ socket.sees = true then
        { socket with queue := socket.queue ++ [.put run] }
      else socket }

/-- The sockets of a process end with it. -/
def disconnect (s : LiveState Spec Result) : LiveState Spec Result :=
  { s with sockets := s.sockets.map fun socket => { socket with phase := .gone } }

/-- A step of the server. -/
def serve (s : LiveState Spec Result) (l : TaskLabel Spec Result)
    (server : TaskServer Spec Result) (o : TaskOut Spec Result) : LiveState Spec Result :=
  let s := { s with server }
  match l, o.broadcast with
  | .restart .., _ => s.disconnect
  | _, some run => s.broadcast run
  | _, none => s

def step (kind : UpdateKind Spec Result) (s : LiveState Spec Result) :
    LiveLabel Spec Result → Option (LiveState Spec Result × LiveOut Spec Result)
  | .server l => (s.server.step kind l).map fun r => (s.serve l r.1 r.2, {})
  | .accept k sees =>
    match s.sockets.get? k with
    | some ⟨.connecting, _, _⟩ =>
      let event := Change.reset (if sees then TaskStore.list s.server.store else [])
      some ({ s with sockets := s.sockets.set k ⟨.joined, sees, [event]⟩ }, {})
    | _ => none
  | .drop k =>
    (s.sockets.get? k).map fun socket =>
      ({ s with sockets := s.sockets.set k { socket with phase := .gone } }, {})
  | .start token =>
    if s.page.running then some (s, {})
    else some ({ s with page := { s.page with running := true } }.connect token, {})
  -- `stop` also sets the handlers of its socket to null, as `ws := none` does here
  | .stop =>
    let page := { s.page with
      running := false, reconnectTimer := none, ws := none, connected := false,
      connecting := true, tasks := [] }
    some ({ s with timers := s.timers.cancel s.page.reconnectTimer }.setPage page)
  | .opened k =>
    -- A handler of another socket than `this.ws` does nothing.
    if s.page.ws = some k then
      some (s.setPage { s.page with connected := true, connecting := false })
    else some (s, {})
  | .arrive k =>
    match s.sockets.get? k with
    | some ⟨phase, sees, event :: queue⟩ =>
      let s := { s with sockets := s.sockets.set k ⟨phase, sees, queue⟩ }
      if s.page.ws = some k then
        some (s.setPage { s.page with tasks := handleTasks s.page.tasks event })
      else some (s, {})
    | _ => none
  | .closed k =>
    if s.page.ws = some k then
      let s := { s with page := { s.page with ws := none } }
      if s.page.running = false then some (s, {})
      else
        -- the listeners are called before the timer is set
        let (s, out) := s.setPage { s.page with connected := false, connecting := true }
        some ({ s with
          page := { s.page with reconnectTimer := some s.next }
          timers := s.timers.set s.next ()
          next := s.next + 1 }, out)
    else some (s, {})
  | .reconnect t token =>
    (s.timers.get? t).map fun _ => ({ s with timers := s.timers.erase t }.connect token, {})
  | .waitForTask w id =>
    if w ∈ s.called then none
    else
      let s := { s with called := w :: s.called }
      match Page.finished s.page.tasks id with
      | some run => some (s, { answers := [(w, run)] })
      | none => some ({ s with page := { s.page with waiting := s.page.waiting.set w id } }, {})
  | .ask w =>
    match s.page.waiting.get? w with
    | some id =>
      -- the fallback only asks while the browser is not connected
      if s.page.connected then none
      else some ({ s with requests := s.requests.set s.next ⟨w, id, none⟩, next := s.next + 1 }, {})
    | none => none
  | .reply q =>
    match s.requests.get? q with
    | some ⟨w, id, none⟩ =>
      some ({ s with requests := s.requests.set q ⟨w, id, some (s.server.store.get? id)⟩ }, {})
    | _ => none
  | .received q =>
    match s.requests.get? q with
    | some ⟨w, id, some found⟩ =>
      let s := { s with requests := s.requests.erase q }
      match Page.finished found.toList id with
      | some run =>
        if w ∈ s.page.waiting.keys then
          some ({ s with page := { s.page with waiting := s.page.waiting.erase w } },
            { answers := [(w, run)] })
        else some (s, {})
      | none => some (s, {})
    | _ => none

end LiveState

/-- **The server, a browser and the sockets between them.** -/
def liveMachine (kind : UpdateKind Spec Result) :
    Machine (LiveState Spec Result) (LiveLabel Spec Result) (LiveOut Spec Result) where
  init := ⟨(serverMachine kind).init, .empty, {}, .empty, .empty, [], 0⟩
  step := LiveState.step kind

abbrev LiveTrace (Spec Result : Type) := List (LiveLabel Spec Result × LiveOut Spec Result)

end ServerCentral.Tasks
