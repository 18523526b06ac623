import ServerCentral.Framework.Machine
import ServerCentral.Framework.Table

/-!
# The registry of host agents

`Fleet` keeps every connection of every machine and recomputes on each event which one
of a machine's connections is active. `fleetMachine` runs `register`, `deregister` and
`remove` in any order, on any connections.

A `HostAgent` is an object: `conn` is its identity, and its other fields are the ones
that never change. The two that do, `connected` and `active`, are functions of the state.

`arrivals` reads off a trace which connections are live and when each of them came.
`ActiveIsBest` is stated in these terms, and `active_is_best` shows that it holds in
every state reached by connections of the three modes: the active connection of a
machine has the highest rank and is the latest of that rank.
-/

open Framework

namespace ServerCentral

/-- What the registry reads of the reported `SystemInfo`. -/
structure SystemInfo where
  agentVersion : Option String
  primaryIp : Option String
  deriving DecidableEq, Repr

/-- A connection. `mode` is what the agent declared when it identified itself. -/
structure HostAgent where
  conn : ℕ
  id : String
  name : String
  info : Option SystemInfo
  mode : String
  remoteIp : Option String
  deriving DecidableEq, Repr

/-- The record of a known agent. -/
structure AgentRecord where
  id : String
  name : String
  info : Option SystemInfo
  mode : Option String
  lastSeenAt : ℕ
  deriving DecidableEq, Repr

inductive ServerConnState where
  | online
  | offline
  deriving DecidableEq, Repr

structure StandbyAgent where
  name : String
  mode : String
  agentVersion : Option String
  deriving DecidableEq, Repr

structure ServerStatus where
  serverId : String
  state : ServerConnState
  info : Option SystemInfo
  mode : Option String
  remoteIp : Option String
  lastSeenAt : Option ℕ
  standbys : List StandbyAgent
  deriving DecidableEq, Repr

structure ServerEntry where
  id : String
  name : String
  status : ServerStatus
  deriving DecidableEq, Repr

/-- `MODE_RANK[mode]`. What an agent declares is not checked, so the lookup can miss. -/
def modeRank : String → Option ℕ
  | "live" => some 1
  | "installed" => some 2
  | "embedded" => some 3
  | _ => none

/-- The declared modes of the protocol. -/
def IsAgentMode (mode : String) : Prop := mode = "live" ∨ mode = "installed" ∨ mode = "embedded"

instance (mode : String) : Decidable (IsAgentMode mode) := by unfold IsAgentMode; infer_instance

/-- `MODE_RANK[a] >= MODE_RANK[b]`, which is false when either side is `undefined`. -/
def outranks (a b : String) : Bool :=
  match modeRank a, modeRank b with
  | some m, some n => decide (n ≤ m)
  | _, _ => false

/-- The registry, and the mutable fields of the connections. -/
structure Fleet where
  connections : Table String (List HostAgent)
  knownAgents : Table String AgentRecord
  connected : HostAgent → Bool
  active : HostAgent → Bool

namespace Fleet

/-- The active (highest-priority, newest-on-tie) agent among a machine's connections. -/
def activeOf (list : List HostAgent) : Option HostAgent :=
  list.foldl (fun best a =>
    match best with
    | none => some a
    | some b => if outranks a.mode b.mode then some a else some b) none

/-- Activate the active one of a list, deactivate the others. -/
def reconcile (s : Fleet) (list : List HostAgent) : Fleet :=
  { s with active := fun a => if a ∈ list then decide (activeOf list = some a) else s.active a }

def recordAgent (s : Fleet) (agent : HostAgent) (now : ℕ) : Fleet :=
  { s with
    knownAgents := s.knownAgents.set agent.id
      ⟨agent.id, agent.name, agent.info, some agent.mode, now⟩ }

/-- `reconcile`, and `recordAgent` for the connection it returns. -/
def reconcileAndRecord (s : Fleet) (list : List HostAgent) (now : ℕ) : Fleet :=
  match activeOf list with
  | none => s.reconcile list
  | some active => (s.reconcile list).recordAgent active now

/-- The connection that answers for a machine. -/
def get (s : Fleet) (serverId : String) : Except String HostAgent :=
  match (s.connections.get? serverId).bind activeOf with
  | some active => .ok active
  | none => .error s!"Unknown server: {serverId}"

def listOf (s : Fleet) (id : String) : List HostAgent := (s.connections.get? id).getD []

/-- Track a connection and recompute which one of its machine is active. Returns whether
it became the active one. -/
def register (s : Fleet) (agent : HostAgent) (now : ℕ) : Fleet × Bool :=
  let list := s.listOf agent.id
  let list := if agent ∈ list then list else list ++ [agent]
  (({ s with connections := s.connections.set agent.id list }).reconcileAndRecord list now,
    decide (activeOf list = some agent))

def deregister (s : Fleet) (agent : HostAgent) (now : ℕ) : Fleet :=
  match s.connections.get? agent.id with
  | none => s
  | some list =>
    if agent ∉ list then s
    else
      let rest := list.erase agent
      if rest.isEmpty then
        { s with
          connections := s.connections.erase agent.id
          knownAgents := s.knownAgents.modify agent.id fun r => { r with lastSeenAt := now } }
      else
        ({ s with connections := s.connections.set agent.id rest }).reconcileAndRecord rest now

/-- Forget a known server; only an offline one can be removed. -/
def remove (s : Fleet) (serverId : String) : Except String Fleet :=
  if s.connections.has serverId then
    .error "Cannot delete a connected server; stop the agent first"
  else if !s.knownAgents.has serverId then .error s!"Unknown server: {serverId}"
  else .ok { s with knownAgents := s.knownAgents.erase serverId }

/-- `HostAgent.disconnect`, called when the connection drops. -/
def disconnect (s : Fleet) (agent : HostAgent) : Fleet :=
  { s with connected := Function.update s.connected agent false }

def status (s : Fleet) (agent : HostAgent) : ServerStatus :=
  { serverId := agent.id
    state := if s.connected agent then .online else .offline
    info := agent.info
    mode := some agent.mode
    remoteIp := agent.remoteIp
    lastSeenAt := none
    standbys := [] }

/-- The entry of a machine with connections. -/
def onlineEntry (s : Fleet) (id : String) (list : List HostAgent) : Option ServerEntry :=
  (activeOf list).map fun active =>
    { id
      name := active.name
      status :=
        { s.status active with
          standbys := (list.filter fun a => decide (a ≠ active)).map fun a =>
            ⟨a.name, a.mode, a.info.bind SystemInfo.agentVersion⟩ } }

/-- The entry of a known machine without connections. -/
def offlineEntry (id : String) (record : AgentRecord) : ServerEntry :=
  { id
    name := record.name
    status :=
      { serverId := id, state := .offline, info := record.info, mode := record.mode
        remoteIp := none, lastSeenAt := some record.lastSeenAt, standbys := [] } }

def entries (s : Fleet) : List ServerEntry :=
  s.connections.entries.filterMap (fun e => s.onlineEntry e.1 e.2) ++
    (s.knownAgents.entries.filter fun e => !s.connections.has e.1).map fun e =>
      offlineEntry e.1 e.2

/-! ### Starting and running -/

/-- A fleet just constructed. -/
def fresh : Fleet := ⟨.empty, .empty, fun _ => true, fun _ => true⟩

/-- The control plane's own connection. -/
def createEmbeddedAgent (conn : ℕ) (machineId hostname : String) (info : SystemInfo) : HostAgent :=
  ⟨conn, machineId, hostname, some info, "embedded", none⟩

/-- `init`: the stored records, except for a legacy one, and the embedded agent. -/
def init (stored : List AgentRecord) (embedded : HostAgent) (now : ℕ) : Fleet :=
  let known := (stored.filter fun r => decide (r.id ≠ "local")).foldl
    (fun t r => t.set r.id r) Table.empty
  ({ fresh with
      knownAgents := known
      connections := Table.empty.set embedded.id [embedded] }).recordAgent embedded now

end Fleet

/-- How the fleet starts: only constructed, or with `init` having run. -/
inductive FleetStart where
  | constructed
  | initialised (stored : List AgentRecord) (conn : ℕ) (machineId hostname : String)
      (info : SystemInfo) (now : ℕ)

inductive FleetOp where
  | register (agent : HostAgent) (now : ℕ)
  | deregister (agent : HostAgent) (now : ℕ)
  | disconnect (agent : HostAgent)
  | remove (serverId : String)
  deriving DecidableEq, Repr

inductive FleetResult where
  | registered (active : Bool)
  | done
  | failed (message : String)
  deriving DecidableEq, Repr

namespace Fleet

def step (s : Fleet) : FleetOp → Fleet × FleetResult
  | .register agent now => ((s.register agent now).1, .registered (s.register agent now).2)
  | .deregister agent now => (s.deregister agent now, .done)
  | .disconnect agent => (s.disconnect agent, .done)
  | .remove serverId =>
    match s.remove serverId with
    | .ok s' => (s', .done)
    | .error message => (s, .failed message)

end Fleet

def FleetStart.fleet : FleetStart → Fleet
  | .constructed => .fresh
  | .initialised stored conn machineId hostname info now =>
    .init stored (Fleet.createEmbeddedAgent conn machineId hostname info) now

/-- The connection the fleet starts with, if any. -/
def FleetStart.embedded : FleetStart → Option HostAgent
  | .constructed => none
  | .initialised _ conn machineId hostname info _ =>
    some (Fleet.createEmbeddedAgent conn machineId hostname info)

/-- **The registry under every sequence of events.** -/
def fleetMachine (start : FleetStart) : Machine Fleet FleetOp FleetResult where
  init := start.fleet
  step s op := some (s.step op)

/-! ### Arrivals -/

/-- How many steps have been taken, and at which one each live connection came. -/
structure Arrivals where
  clock : ℕ
  came : HostAgent → Option ℕ

namespace Arrivals

/-- A connection arrives with the `register` that finds it not live, and leaves with
`deregister`. -/
def after (g : Arrivals) : FleetOp → Arrivals
  | .register agent _ =>
    ⟨g.clock + 1, Function.update g.came agent ((g.came agent).or (some (g.clock + 1)))⟩
  | .deregister agent _ => ⟨g.clock + 1, Function.update g.came agent none⟩
  | _ => ⟨g.clock + 1, g.came⟩

theorem came_register (g : Arrivals) (agent a : HostAgent) (now : ℕ) :
    (g.after (.register agent now)).came a =
      if a = agent then (g.came agent).or (some (g.clock + 1)) else g.came a :=
  Function.update_apply ..

theorem came_deregister (g : Arrivals) (agent a : HostAgent) (now : ℕ) :
    (g.after (.deregister agent now)).came a = if a = agent then none else g.came a :=
  Function.update_apply ..

/-- The control plane's own connection is there from the start. -/
def start (embedded : Option HostAgent) : Arrivals :=
  ⟨0, fun a => if embedded = some a then some 0 else none⟩

end Arrivals

/-- The live connections after a trace, with the step each came at. -/
def arrivals (start : FleetStart) (tr : List (FleetOp × FleetResult)) : Arrivals :=
  tr.foldl (fun g e => g.after e.1) (.start start.embedded)

/-- The step of the last `register` of each connection, whether it was live or not. -/
def lastRegister (tr : List (FleetOp × FleetResult)) (agent : HostAgent) : Option ℕ :=
  (tr.zipIdx.reverse.find? fun e => match e.1.1 with
    | .register a _ => decide (a = agent)
    | _ => false).map fun e => e.2 + 1

/-- `a` is the active connection of its machine: every other one is deactivated, has no
higher rank, and came before `a` when the ranks are equal. -/
structure ActiveIsBest (s : Fleet) (live : HostAgent → Prop) (came : HostAgent → Option ℕ)
    (a : HostAgent) : Prop where
  is_live : live a
  is_active : s.active a = true
  others : ∀ b, live b → b.id = a.id → b ≠ a → s.active b = false
  highest : ∀ b, live b → b.id = a.id → modeRank b.mode ≤ modeRank a.mode
  latest : ∀ b, live b → b.id = a.id → b ≠ a → modeRank b.mode = modeRank a.mode →
    ∃ i j, came b = some i ∧ came a = some j ∧ i < j

/-! ### The active connection of a list -/

namespace Fleet

theorem activeOf_concat (l : List HostAgent) (a : HostAgent) :
    activeOf (l ++ [a]) = match activeOf l with
      | none => some a
      | some b => if outranks a.mode b.mode then some a else some b := by
  rw [activeOf, List.foldl_append]
  rfl

theorem activeOf_eq_none {l : List HostAgent} : activeOf l = none ↔ l = [] := by
  induction l using List.reverseRecOn with
  | nil => exact ⟨fun _ => rfl, fun _ => rfl⟩
  | append_singleton l a _ =>
    rw [activeOf_concat]
    cases activeOf l with
    | none => simp
    | some b =>
      dsimp only
      split <;> simp

theorem mem_of_activeOf {l : List HostAgent} {a : HostAgent} (h : activeOf l = some a) :
    a ∈ l := by
  induction l using List.reverseRecOn generalizing a with
  | nil => exact absurd h (by simp [activeOf])
  | append_singleton l b ih =>
    rw [activeOf_concat] at h
    cases h_l : activeOf l with
    | none =>
      rw [h_l] at h
      obtain rfl : b = a := Option.some.inj h
      exact List.mem_append_right _ List.mem_cons_self
    | some c =>
      rw [h_l] at h
      dsimp only at h
      split at h
      · obtain rfl : b = a := Option.some.inj h
        exact List.mem_append_right _ List.mem_cons_self
      · exact List.mem_append_left _ (ih (h_l.trans h))

end Fleet

/-- A declared mode has a rank. -/
theorem IsAgentMode.modeRank {mode : String} (h : IsAgentMode mode) :
    ∃ n, ServerCentral.modeRank mode = some n := by
  obtain rfl | rfl | rfl := h
  · exact ⟨1, rfl⟩
  · exact ⟨2, rfl⟩
  · exact ⟨3, rfl⟩

/-- Between declared modes, the comparison of the code is the one of the ranks. -/
theorem outranks_iff {a b : String} (h_a : IsAgentMode a) (h_b : IsAgentMode b) :
    outranks a b = true ↔ modeRank b ≤ modeRank a := by
  obtain ⟨m, h_m⟩ := h_a.modeRank
  obtain ⟨n, h_n⟩ := h_b.modeRank
  rw [outranks, h_m, h_n, Option.some_le_some]
  exact decide_eq_true_iff

theorem modeRank_le_of_eq {a b : String} (h : modeRank a = modeRank b) :
    modeRank a ≤ modeRank b := by
  rw [h]
  cases modeRank b with
  | none => simp
  | some n => exact Option.some_le_some.mpr (Nat.le_refl n)

theorem modeRank_total {a b : String} (h : ¬modeRank b ≤ modeRank a) :
    modeRank a ≤ modeRank b := by
  cases h_a : modeRank a with
  | none => simp
  | some m =>
    cases h_b : modeRank b with
    | none => simp [h_a, h_b] at h
    | some n =>
      rw [h_a, h_b, Option.some_le_some] at h
      rw [Option.some_le_some]
      exact Nat.le_of_not_le h

theorem modeRank_le_trans {a b c : String} (h : modeRank a ≤ modeRank b)
    (h' : modeRank b ≤ modeRank c) : modeRank a ≤ modeRank c := by
  cases h_a : modeRank a with
  | none => simp
  | some m =>
    cases h_b : modeRank b with
    | none => simp [h_a, h_b] at h
    | some n =>
      cases h_c : modeRank c with
      | none => simp [h_b, h_c] at h'
      | some k =>
        rw [h_a, h_b, Option.some_le_some] at h
        rw [h_b, h_c, Option.some_le_some] at h'
        rw [Option.some_le_some]
        exact Nat.le_trans h h'

namespace Fleet

/-- **The active one of a list** has the highest rank, and is the last one of it. -/
theorem activeOf_best {l : List HostAgent} {a : HostAgent}
    (h_modes : ∀ b ∈ l, IsAgentMode b.mode) (h : activeOf l = some a) :
    ∃ before after, l = before ++ a :: after ∧
      (∀ b ∈ before, modeRank b.mode ≤ modeRank a.mode) ∧
      ∀ b ∈ after, ¬modeRank a.mode ≤ modeRank b.mode := by
  induction l using List.reverseRecOn generalizing a with
  | nil => exact absurd h (by simp [activeOf])
  | append_singleton l c ih =>
    have h_modes_l : ∀ b ∈ l, IsAgentMode b.mode := fun b h_b =>
      h_modes b (List.mem_append_left _ h_b)
    have h_mode_c : IsAgentMode c.mode :=
      h_modes c (List.mem_append_right _ List.mem_cons_self)
    rw [activeOf_concat] at h
    cases h_l : activeOf l with
    | none =>
      rw [h_l] at h
      obtain rfl : c = a := Option.some.inj h
      rw [(activeOf_eq_none).mp h_l]
      exact ⟨[], [], rfl, fun b h_b => absurd h_b List.not_mem_nil,
        fun b h_b => absurd h_b List.not_mem_nil⟩
    | some best =>
      rw [h_l] at h
      dsimp only at h
      obtain ⟨before, after, h_split, h_before, h_after⟩ := ih h_modes_l h_l
      have h_outranks := outranks_iff h_mode_c (h_modes_l best (mem_of_activeOf h_l))
      split at h
      · next h_wins =>
        -- the new one takes over: what the old one dominated, it dominates
        obtain rfl : c = a := Option.some.inj h
        have h_le := h_outranks.mp h_wins
        refine ⟨l, [], rfl, fun b h_b => ?_, fun b h_b => absurd h_b List.not_mem_nil⟩
        rw [h_split] at h_b
        obtain h_b | h_b := List.mem_append.mp h_b
        · exact modeRank_le_trans (h_before b h_b) h_le
        · obtain rfl | h_b := List.mem_cons.mp h_b
          · exact h_le
          · exact modeRank_le_trans (modeRank_total (h_after b h_b)) h_le
      · next h_loses =>
        obtain rfl : best = a := Option.some.inj h
        refine ⟨before, after ++ [c], by rw [h_split]; simp, h_before, fun b h_b => ?_⟩
        obtain h_b | h_b := List.mem_append.mp h_b
        · exact h_after b h_b
        · obtain rfl := List.mem_singleton.mp h_b
          exact fun h_le => h_loses (h_outranks.mpr h_le)

end Fleet

/-! ### What every step keeps -/

/-- The state invariant, beside the arrivals of the trace. -/
structure FleetInv (s : Fleet) (g : Arrivals) : Prop where
  nonempty : ∀ id list, s.connections.get? id = some list → list ≠ []
  owner : ∀ id, ∀ a ∈ s.listOf id, a.id = id
  sorted : ∀ id, (s.listOf id).Pairwise fun a b =>
    ∃ i j, g.came a = some i ∧ g.came b = some j ∧ i < j
  live : ∀ a, a ∈ s.listOf a.id ↔ (g.came a).isSome
  bound : ∀ a i, g.came a = some i → i ≤ g.clock
  flags : ∀ id, ∀ a ∈ s.listOf id, s.active a = decide (Fleet.activeOf (s.listOf id) = some a)
  known : ∀ id, s.connections.has id = true → s.knownAgents.has id = true

namespace Fleet

variable {s : Fleet} {g : Arrivals}

theorem listOf_set (s : Fleet) (id id' : String) (list : List HostAgent) :
    ({ s with connections := s.connections.set id list } : Fleet).listOf id' =
      if id' = id then list else s.listOf id' := by
  rw [listOf, Table.get?_set]
  split <;> rfl

@[simp] theorem connections_reconcileAndRecord (s : Fleet) (list : List HostAgent) (now : ℕ) :
    (s.reconcileAndRecord list now).connections = s.connections := by
  unfold reconcileAndRecord
  split <;> rfl

@[simp] theorem active_reconcileAndRecord (s : Fleet) (list : List HostAgent) (now : ℕ)
    (a : HostAgent) : (s.reconcileAndRecord list now).active a =
      if a ∈ list then decide (activeOf list = some a) else s.active a := by
  unfold reconcileAndRecord
  split <;> rfl

@[simp] theorem listOf_reconcileAndRecord (s : Fleet) (list : List HostAgent) (now : ℕ)
    (id : String) : (s.reconcileAndRecord list now).listOf id = s.listOf id := by
  rw [listOf, connections_reconcileAndRecord, listOf]

@[simp] theorem connected_reconcileAndRecord (s : Fleet) (list : List HostAgent) (now : ℕ) :
    (s.reconcileAndRecord list now).connected = s.connected := by
  unfold reconcileAndRecord
  split <;> rfl

/-- A connection is registered at the end of the list of its machine. -/
theorem listOf_register (s : Fleet) (agent : HostAgent) (now : ℕ) (id : String) :
    (s.register agent now).1.listOf id =
      if id = agent.id then
        if agent ∈ s.listOf id then s.listOf id else s.listOf id ++ [agent]
      else s.listOf id := by
  rw [register, listOf_reconcileAndRecord, listOf_set]
  split
  · next h_id => rw [h_id]
  · rfl

theorem connected_register (s : Fleet) (agent : HostAgent) (now : ℕ) :
    (s.register agent now).1.connected = s.connected := by
  rw [register, connected_reconcileAndRecord]

/-- Deregistering takes one connection off the list of its machine. -/
theorem listOf_deregister (s : Fleet) (agent : HostAgent) (now : ℕ) (id : String) :
    (s.deregister agent now).listOf id =
      if id = agent.id then (s.listOf id).erase agent else s.listOf id := by
  unfold deregister
  split
  · next h_none =>
    split
    · next h_id =>
      rw [listOf, h_id, h_none]
      rfl
    · rfl
  next list h_list =>
  have h_own : s.listOf agent.id = list := by
    rw [listOf, h_list]
    rfl
  split
  · next h_absent =>
    split
    · next h_id => rw [h_id, h_own, List.erase_of_not_mem h_absent]
    · rfl
  dsimp only
  split
  · next h_empty =>
    have h_rest : list.erase agent = [] := List.isEmpty_iff.mp h_empty
    show ((s.connections.erase agent.id).get? id).getD [] = _
    split
    · next h_id =>
      rw [h_id, h_own, h_rest, Table.get?_erase_self]
      rfl
    · next h_ne =>
      rw [Table.get?_erase_of_ne _ h_ne]
      rfl
  · rw [listOf_reconcileAndRecord, listOf_set]
    split
    · next h_id => rw [h_id, h_own]
    · rfl

theorem connected_deregister (s : Fleet) (agent : HostAgent) (now : ℕ) :
    (s.deregister agent now).connected = s.connected := by
  unfold deregister
  split
  · rfl
  split
  · rfl
  dsimp only
  split
  · rfl
  · rw [connected_reconcileAndRecord]

theorem has_set (t : Table String AgentRecord) (id id' : String) (r : AgentRecord) :
    (t.set id r).has id' = (decide (id' = id) || t.has id') := by
  rw [Table.has, Table.get?_set]
  by_cases h : id' = id <;> simp [h, Table.has]

/-- What `reconcileAndRecord` makes known is the machine of the list. -/
theorem has_reconcileAndRecord {list : List HostAgent} {id : String} (h_list : list ≠ [])
    (h_owner : ∀ a ∈ list, a.id = id) (s : Fleet) (now : ℕ) (id' : String) :
    (s.reconcileAndRecord list now).knownAgents.has id' =
      (decide (id' = id) || s.knownAgents.has id') := by
  unfold reconcileAndRecord
  split
  · next h_none => exact absurd (activeOf_eq_none.mp h_none) h_list
  · next a h_some =>
    rw [← h_owner a (mem_of_activeOf h_some)]
    exact has_set s.knownAgents a.id id' _

end Fleet

/-- **The list of one machine changes.** The invariant is kept when the new list agrees
with the new arrivals and nothing changes for the other machines. -/
theorem FleetInv.setList {s : Fleet} {g g' : Arrivals} (hi : FleetInv s g) {id : String}
    {list : List HostAgent} {now : ℕ} (h_list : list ≠ []) (h_owner : ∀ a ∈ list, a.id = id)
    (h_sorted : list.Pairwise fun a b => ∃ i j, g'.came a = some i ∧ g'.came b = some j ∧ i < j)
    (h_live : ∀ a, a.id = id → (a ∈ list ↔ (g'.came a).isSome))
    (h_same : ∀ a, a.id ≠ id → g'.came a = g.came a)
    (h_bound : ∀ a i, g'.came a = some i → i ≤ g'.clock) :
    FleetInv (({ s with connections := s.connections.set id list } : Fleet).reconcileAndRecord
      list now) g' := by
  have h_lists : ∀ id', (({ s with connections := s.connections.set id list } :
      Fleet).reconcileAndRecord list now).listOf id' = if id' = id then list else s.listOf id' := by
    intro id'
    rw [Fleet.listOf_reconcileAndRecord, Fleet.listOf_set]
  constructor
  case nonempty =>
    intro id' list' h_get
    rw [Fleet.connections_reconcileAndRecord] at h_get
    obtain ⟨-, rfl⟩ | ⟨-, h_get⟩ := Table.get?_set_eq_some h_get
    · exact h_list
    · exact hi.nonempty id' list' h_get
  case owner =>
    intro id' a h_a
    rw [h_lists] at h_a
    split at h_a
    · next h_id => exact h_id ▸ h_owner a h_a
    · exact hi.owner id' a h_a
  case sorted =>
    intro id'
    rw [h_lists]
    split
    · exact h_sorted
    · next h_id =>
      refine (hi.sorted id').imp_of_mem fun {a b} h_a h_b h => ?_
      rw [h_same a (hi.owner id' a h_a ▸ h_id), h_same b (hi.owner id' b h_b ▸ h_id)]
      exact h
  case live =>
    intro a
    rw [h_lists]
    split
    · next h_id => exact h_live a h_id
    · next h_id => rw [h_same a h_id, hi.live a]
  case bound => exact h_bound
  case flags =>
    intro id' a h_a
    rw [h_lists] at h_a ⊢
    rw [Fleet.active_reconcileAndRecord]
    split at h_a
    · next h_id => rw [if_pos h_a, if_pos h_id]
    · next h_id =>
      have h_not : a ∉ list := fun h => h_id (hi.owner id' a h_a ▸ h_owner a h)
      rw [if_neg h_not, if_neg h_id]
      exact hi.flags id' a h_a
  case known =>
    intro id' h_has
    rw [Fleet.connections_reconcileAndRecord, Table.has, Table.get?_set] at h_has
    rw [Fleet.has_reconcileAndRecord h_list h_owner]
    split at h_has
    · next h_id => simp [h_id]
    · rw [hi.known id' h_has, Bool.or_true]

/-! ### Steps -/

theorem FleetInv.mem_iff {s : Fleet} {g : Arrivals} (hi : FleetInv s g) {a : HostAgent}
    {id : String} : a ∈ s.listOf id ↔ a.id = id ∧ (g.came a).isSome := by
  constructor
  · intro h
    have h_id := hi.owner id a h
    exact ⟨h_id, (hi.live a).mp (h_id ▸ h)⟩
  · rintro ⟨rfl, h⟩
    exact (hi.live a).mpr h

theorem FleetInv.nodup {s : Fleet} {g : Arrivals} (hi : FleetInv s g) (id : String) :
    (s.listOf id).Nodup := by
  refine (hi.sorted id).imp fun {a b} h => ?_
  obtain ⟨i, j, h_i, h_j, h_lt⟩ := h
  rintro rfl
  rw [h_i] at h_j
  exact absurd (Option.some.inj h_j) (Nat.ne_of_lt h_lt)

/-- Time passes. -/
theorem FleetInv.tick {s : Fleet} {g : Arrivals} (hi : FleetInv s g) :
    FleetInv s ⟨g.clock + 1, g.came⟩ :=
  { hi with bound := fun a i h => Nat.le_succ_of_le (hi.bound a i h) }

theorem FleetInv.register {s : Fleet} {g : Arrivals} (hi : FleetInv s g) (agent : HostAgent)
    (now : ℕ) : FleetInv (s.register agent now).1 (g.after (.register agent now)) := by
  have h_bound : ∀ a i, (g.after (.register agent now)).came a = some i →
      i ≤ g.clock + 1 := by
    intro a i h_came
    rw [Arrivals.came_register] at h_came
    split at h_came
    · cases h_old : g.came agent with
      | none => simp_all
      | some k =>
        rw [h_old, Option.some_or] at h_came
        obtain rfl := Option.some.inj h_came
        exact Nat.le_succ_of_le (hi.bound agent k h_old)
    · exact Nat.le_succ_of_le (hi.bound a i h_came)
  have h_same : ∀ a, a ≠ agent → (g.after (.register agent now)).came a = g.came a := by
    intro a h
    rw [Arrivals.came_register, if_neg h]
  have h_self : (g.after (.register agent now)).came agent =
      (g.came agent).or (some (g.clock + 1)) := by
    rw [Arrivals.came_register, if_pos rfl]
  unfold Fleet.register
  by_cases h_mem : agent ∈ s.listOf agent.id
  · -- a connection that is already there stays where it is
    obtain ⟨k, h_k⟩ := Option.isSome_iff_exists.mp ((hi.live agent).mp h_mem)
    have h_came : (g.after (.register agent now)).came = g.came := by
      funext a
      by_cases h : a = agent
      · rw [h, h_self, h_k, Option.some_or]
      · exact h_same a h
    dsimp only
    rw [if_pos h_mem]
    refine hi.setList (List.ne_nil_of_mem h_mem) (hi.owner agent.id) ?_ ?_ ?_ h_bound
    · rw [h_came]
      exact hi.sorted agent.id
    · intro a h_id
      rw [h_came, ← h_id]
      exact hi.live a
    · exact fun a _ => congrFun h_came a
  · have h_none : g.came agent = none := by
      rw [← Option.not_isSome_iff_eq_none, ← hi.live agent]
      exact h_mem
    have h_new : (g.after (.register agent now)).came agent = some (g.clock + 1) := by
      rw [h_self, h_none, Option.none_or]
    have h_old : ∀ a ∈ s.listOf agent.id, (g.after (.register agent now)).came a = g.came a :=
      fun a h_a => h_same a fun h => h_mem (h ▸ h_a)
    dsimp only
    rw [if_neg h_mem]
    refine hi.setList (by simp) ?_ ?_ ?_ ?_ h_bound
    · intro a h_a
      obtain h_a | h_a := List.mem_append.mp h_a
      · exact hi.owner agent.id a h_a
      · rw [List.mem_singleton.mp h_a]
    · refine List.pairwise_append.mpr ⟨?_, List.pairwise_singleton _ _, ?_⟩
      · refine (hi.sorted agent.id).imp_of_mem fun {a b} h_a h_b h => ?_
        rw [h_old a h_a, h_old b h_b]
        exact h
      · intro a h_a b h_b
        obtain rfl := List.mem_singleton.mp h_b
        obtain ⟨_, h_i⟩ := Option.isSome_iff_exists.mp (hi.mem_iff.mp h_a).2
        exact ⟨_, _, (h_old a h_a).trans h_i, h_new, Nat.lt_succ_of_le (hi.bound a _ h_i)⟩
    · intro a h_id
      by_cases h : a = agent
      · rw [h, h_new]
        simp
      · rw [h_same a h, List.mem_append, hi.mem_iff]
        simp [h, h_id]
    · exact fun a h_id => h_same a fun h => h_id (h ▸ rfl)

theorem FleetInv.deregister {s : Fleet} {g : Arrivals} (hi : FleetInv s g) (agent : HostAgent)
    (now : ℕ) : FleetInv (s.deregister agent now) (g.after (.deregister agent now)) := by
  have h_same : ∀ a, a ≠ agent → (g.after (.deregister agent now)).came a = g.came a := by
    intro a h
    rw [Arrivals.came_deregister, if_neg h]
  have h_gone : (g.after (.deregister agent now)).came agent = none := by
    rw [Arrivals.came_deregister, if_pos rfl]
  have h_bound : ∀ a i, (g.after (.deregister agent now)).came a = some i →
      i ≤ g.clock + 1 := by
    intro a i h_came
    by_cases h : a = agent
    · rw [h, h_gone] at h_came
      exact absurd h_came (by simp)
    · rw [h_same a h] at h_came
      exact Nat.le_succ_of_le (hi.bound a i h_came)
  -- a connection that is not live leaves nothing behind
  have h_stale : agent ∉ s.listOf agent.id → FleetInv s (g.after (.deregister agent now)) := by
    intro h_not
    have h_came : (g.after (.deregister agent now)).came = g.came := by
      funext a
      by_cases h : a = agent
      · rw [h, h_gone, eq_comm, ← Option.not_isSome_iff_eq_none, ← hi.live agent]
        exact h_not
      · exact h_same a h
    have h_tick := hi.tick
    rw [← h_came] at h_tick
    exact h_tick
  unfold Fleet.deregister
  cases h_get : s.connections.get? agent.id with
  | none =>
    refine h_stale ?_
    rw [Fleet.listOf, h_get]
    exact List.not_mem_nil
  | some list =>
    have h_list : s.listOf agent.id = list := by
      rw [Fleet.listOf, h_get]
      rfl
    dsimp only
    split
    · next h_not => exact h_stale (h_list ▸ h_not)
    · next h_mem =>
      have h_mem : agent ∈ list := not_not.mp h_mem
      have h_nodup : list.Nodup := h_list ▸ hi.nodup agent.id
      have h_rest : ∀ a, a ∈ list.erase agent ↔ a ≠ agent ∧ a ∈ list :=
        fun a => h_nodup.mem_erase_iff
      split
      · next h_empty =>
        have h_only : ∀ a ∈ list, a = agent := by
          intro a h_a
          by_contra h_ne
          have h_a' := (h_rest a).mpr ⟨h_ne, h_a⟩
          rw [List.isEmpty_iff.mp h_empty] at h_a'
          exact List.not_mem_nil h_a'
        have h_lists : ∀ id, ((s.connections.erase agent.id).get? id).getD [] =
            if id = agent.id then [] else s.listOf id := by
          intro id
          split
          · next h_id => rw [h_id, Table.get?_erase_self, Option.getD_none]
          · next h_id => rw [Table.get?_erase_of_ne _ h_id, Fleet.listOf]
        constructor
        case nonempty => exact fun id l h => hi.nonempty id l (Table.get?_erase.mp h).1
        case owner =>
          intro id a h_a
          rw [Fleet.listOf, h_lists] at h_a
          split at h_a
          · exact absurd h_a List.not_mem_nil
          · exact hi.owner id a h_a
        case sorted =>
          intro id
          rw [Fleet.listOf, h_lists]
          split
          · exact List.Pairwise.nil
          · next h_id =>
            refine (hi.sorted id).imp_of_mem fun {a b} h_a h_b h => ?_
            rw [h_same a fun h => h_id (by rw [← hi.owner id a h_a, h]),
              h_same b fun h => h_id (by rw [← hi.owner id b h_b, h])]
            exact h
        case live =>
          intro a
          rw [Fleet.listOf, h_lists]
          by_cases h : a = agent
          · rw [h, if_pos rfl, h_gone]
            simp
          · rw [h_same a h, ← hi.live a]
            split
            · next h_id =>
              rw [h_id, h_list]
              exact ⟨fun h_a => absurd h_a List.not_mem_nil, fun h_a => absurd (h_only a h_a) h⟩
            · exact Iff.rfl
        case bound => exact h_bound
        case flags =>
          intro id a h_a
          rw [Fleet.listOf, h_lists] at h_a ⊢
          split at h_a
          · exact absurd h_a List.not_mem_nil
          · next h_id =>
            rw [if_neg h_id]
            exact hi.flags id a h_a
        case known =>
          intro id h_has
          rw [Table.has] at h_has
          obtain ⟨l, h_l⟩ := Option.isSome_iff_exists.mp h_has
          have h_known := hi.known id (Option.isSome_iff_exists.mpr
            ⟨l, (Table.get?_erase.mp h_l).1⟩)
          rw [Table.has, Table.get?_modify, Option.isSome_map]
          exact h_known
      · next h_nonempty =>
        refine hi.setList (fun h => h_nonempty (List.isEmpty_iff.mpr h)) ?_ ?_ ?_ ?_ h_bound
        · exact fun a h_a => hi.owner agent.id a (h_list ▸ ((h_rest a).mp h_a).2)
        · have h_sub : (list.erase agent).Pairwise fun a b =>
              ∃ i j, g.came a = some i ∧ g.came b = some j ∧ i < j :=
            (h_list ▸ hi.sorted agent.id).sublist List.erase_sublist
          refine h_sub.imp_of_mem fun {a b} h_a h_b h => ?_
          rw [h_same a ((h_rest a).mp h_a).1, h_same b ((h_rest b).mp h_b).1]
          exact h
        · intro a h_id
          rw [h_rest]
          by_cases h : a = agent
          · rw [h, h_gone]
            simp
          · rw [h_same a h, ← h_list, hi.mem_iff]
            simp [h, h_id]
        · exact fun a h_id => h_same a fun h => h_id (h ▸ rfl)

theorem FleetInv.remove {s s' : Fleet} {g : Arrivals} (hi : FleetInv s g) {serverId : String}
    (h : s.remove serverId = .ok s') : FleetInv s' g := by
  unfold Fleet.remove at h
  split at h
  · exact absurd h (by simp)
  · next h_offline =>
    split at h
    · exact absurd h (by simp)
    · obtain rfl := Except.ok.inj h
      refine { hi with known := fun id h_has => ?_ }
      have h_ne : id ≠ serverId := fun h => h_offline (h ▸ h_has)
      rw [Table.has, Table.get?_erase_of_ne _ h_ne]
      exact hi.known id h_has

theorem FleetInv.step {s : Fleet} {g : Arrivals} (hi : FleetInv s g) (op : FleetOp) :
    FleetInv (s.step op).1 (g.after op) := by
  cases op with
  | register agent now => exact hi.register agent now
  | deregister agent now => exact hi.deregister agent now
  | disconnect agent => exact { hi.tick with }
  | remove serverId =>
    unfold Fleet.step
    dsimp only
    split
    · next h => exact (hi.remove h).tick
    · exact hi.tick

theorem fleetInv_start (start : FleetStart) : FleetInv start.fleet (.start start.embedded) := by
  cases start with
  | constructed =>
    constructor
    case nonempty => exact fun id list h => absurd h (by simp [FleetStart.fleet, Fleet.fresh])
    case owner => exact fun id a h => absurd h List.not_mem_nil
    case sorted => exact fun id => List.Pairwise.nil
    case live => exact fun a => ⟨fun h => absurd h List.not_mem_nil, fun h => absurd h (by simp [Arrivals.start, FleetStart.embedded])⟩
    case bound => exact fun a i h => absurd h (by simp [Arrivals.start, FleetStart.embedded])
    case flags => exact fun id a h => absurd h List.not_mem_nil
    case known => exact fun id h => absurd h (by simp [FleetStart.fleet, Fleet.fresh, Table.has])
  | initialised stored conn machineId hostname info now =>
    generalize h_e : Fleet.createEmbeddedAgent conn machineId hostname info = e
    have h_lists : ∀ id, (Fleet.init stored e now).listOf id = if id = e.id then [e] else [] := by
      intro id
      show (((Table.empty : Table String (List HostAgent)).set e.id [e]).get? id).getD [] = _
      rw [Table.get?_set]
      split <;> rfl
    have h_came : ∀ a, (Arrivals.start (some e)).came a = if a = e then some 0 else none := by
      intro a
      show (if some e = some a then some 0 else none) = _
      by_cases h : a = e
      · rw [h, if_pos rfl, if_pos rfl]
      · rw [if_neg h, if_neg fun h' => h (Option.some.inj h').symm]
    simp only [FleetStart.fleet, FleetStart.embedded, h_e]
    constructor
    case nonempty =>
      intro id list h_get
      obtain ⟨-, rfl⟩ | ⟨-, h_get⟩ := Table.get?_set_eq_some h_get
      · exact List.cons_ne_nil e []
      · exact absurd h_get (by simp)
    case owner =>
      intro id a h_a
      rw [h_lists] at h_a
      split at h_a
      · next h_id => rw [List.mem_singleton.mp h_a, h_id]
      · exact absurd h_a List.not_mem_nil
    case sorted =>
      intro id
      rw [h_lists]
      split
      · exact List.pairwise_singleton _ _
      · exact List.Pairwise.nil
    case live =>
      intro a
      rw [h_lists, h_came]
      by_cases h : a = e
      · simp [h]
      · by_cases h_id : a.id = e.id <;> simp [h, h_id]
    case bound =>
      intro a i h
      rw [h_came] at h
      split at h
      · exact Nat.le_of_eq (Option.some.inj h).symm
      · exact absurd h (by simp)
    case flags =>
      intro id a h_a
      rw [h_lists] at h_a ⊢
      split at h_a
      · next h_id =>
        rw [if_pos h_id, List.mem_singleton.mp h_a]
        exact (decide_eq_true rfl).symm
      · exact absurd h_a List.not_mem_nil
    case known =>
      intro id h_has
      have h_id : id = e.id := by
        by_contra h
        have h_list : (Fleet.init stored e now).connections.get? id = none := by
          show ((Table.empty : Table String (List HostAgent)).set e.id [e]).get? id = none
          rw [Table.get?_set_of_ne _ _ h, Table.get?_empty]
        rw [Table.has, h_list] at h_has
        exact absurd h_has (by simp)
      rw [h_id]
      show (Table.set _ e.id _).has e.id = true
      rw [Table.has, Table.get?_set_self]
      rfl

variable {start : FleetStart} {tr : List (FleetOp × FleetResult)} {s : Fleet}

theorem arrivals_concat (start : FleetStart) (tr : List (FleetOp × FleetResult))
    (e : FleetOp × FleetResult) :
    arrivals start (tr ++ [e]) = (arrivals start tr).after e.1 := by
  rw [arrivals, List.foldl_append]
  rfl

/-- **The invariant holds in every run.** -/
theorem fleetInv_of_run {ok : Fleet → FleetOp → Prop} (h : (fleetMachine start).RunWhen ok tr s) :
    FleetInv s (arrivals start tr) := by
  refine h.history (P := fun tr s => FleetInv s (arrivals start tr)) (fleetInv_start start) ?_
  intro tr s op s' result _ hi _ hs
  obtain ⟨rfl, rfl⟩ : (s.step op).1 = s' ∧ (s.step op).2 = result :=
    Prod.mk.inj (Option.some.inj hs)
  rw [arrivals_concat]
  exact hi.step op

/-- Every registered connection declares one of the three modes. -/
def DeclaresModes (_ : Fleet) (op : FleetOp) : Prop :=
  match op with
  | .register agent _ => IsAgentMode agent.mode
  | _ => True

instance (s : Fleet) (op : FleetOp) : Decidable (DeclaresModes s op) := by
  unfold DeclaresModes
  cases op <;> infer_instance

/-- Then every live connection has one. -/
theorem live_isAgentMode (h : (fleetMachine start).RunWhen DeclaresModes tr s) (a : HostAgent)
    (h_live : ((arrivals start tr).came a).isSome) : IsAgentMode a.mode := by
  refine h.history (P := fun tr _ => ∀ a, ((arrivals start tr).came a).isSome →
    IsAgentMode a.mode) ?_ ?_ a h_live
  · intro a h_a
    have h_a : (if start.embedded = some a then some 0 else none).isSome := h_a
    split at h_a
    · next h_e =>
      cases start with
      | constructed => exact absurd h_e (by simp [FleetStart.embedded])
      | initialised =>
        obtain rfl := Option.some.inj h_e
        exact .inr (.inr rfl)
    · exact absurd h_a (by simp)
  · intro tr s op s' result _ ih h_ok _ a h_a
    rw [arrivals_concat] at h_a
    cases op with
    | register agent now =>
      by_cases h : a = agent
      · exact h ▸ h_ok
      · refine ih a ?_
        rwa [Arrivals.came_register, if_neg h] at h_a
    | deregister agent now =>
      rw [Arrivals.came_deregister] at h_a
      split at h_a
      · exact absurd h_a (by simp)
      · exact ih a h_a
    | disconnect => exact ih a h_a
    | remove => exact ih a h_a

/-! ### The registry is right -/

/-- What the registry guarantees, in terms of the live connections and of when they
came. -/
structure FleetCorrect (s : Fleet) (g : Arrivals) : Prop where
  /-- A machine with a live connection has an active one, which answers for it. -/
  active : ∀ b, (g.came b).isSome → ∃ a, a.id = b.id ∧ s.get b.id = .ok a ∧
    ActiveIsBest s (fun a => (g.came a).isSome) g.came a
  known : ∀ a, (g.came a).isSome → s.knownAgents.has a.id = true
  entries_nodup : (s.entries.map ServerEntry.id).Nodup
  entries_known : ∀ id, id ∈ s.entries.map ServerEntry.id ↔ s.knownAgents.has id = true
  remove : ∀ serverId s', s.remove serverId = .ok s' → ∀ a, (g.came a).isSome → a.id ≠ serverId

/-- The active connection of a machine. -/
theorem FleetInv.activeIsBest {s : Fleet} {g : Arrivals} (hi : FleetInv s g)
    (h_modes : ∀ a, (g.came a).isSome → IsAgentMode a.mode) {b : HostAgent}
    (h_b : (g.came b).isSome) : ∃ a, a.id = b.id ∧ s.get b.id = .ok a ∧
      ActiveIsBest s (fun a => (g.came a).isSome) g.came a := by
  have h_mem : b ∈ s.listOf b.id := (hi.live b).mpr h_b
  obtain ⟨a, h_a⟩ : ∃ a, Fleet.activeOf (s.listOf b.id) = some a := by
    rw [← Option.isSome_iff_exists, Option.isSome_iff_ne_none]
    exact fun h => List.ne_nil_of_mem h_mem (Fleet.activeOf_eq_none.mp h)
  have h_mem_a : a ∈ s.listOf b.id := Fleet.mem_of_activeOf h_a
  have h_id : a.id = b.id := (hi.mem_iff.mp h_mem_a).1
  have h_others : ∀ c, (g.came c).isSome → c.id = a.id → c ∈ s.listOf b.id :=
    fun c h_c h => hi.mem_iff.mpr ⟨h.trans h_id, h_c⟩
  obtain ⟨before, after, h_split, h_before, h_after⟩ :=
    Fleet.activeOf_best (fun c h_c => h_modes c (hi.mem_iff.mp h_c).2) h_a
  have h_sorted := hi.sorted b.id
  rw [h_split] at h_sorted
  refine ⟨a, h_id, ?_, ?_⟩
  · have h_get : (s.connections.get? b.id).bind Fleet.activeOf = some a := by
      cases h : s.connections.get? b.id with
      | none =>
        rw [Fleet.listOf, h] at h_mem
        exact absurd h_mem List.not_mem_nil
      | some list =>
        rw [Fleet.listOf, h] at h_a
        exact h_a
    rw [Fleet.get, h_get]
  · constructor
    case is_live => exact (hi.mem_iff.mp h_mem_a).2
    case is_active =>
      rw [hi.flags b.id a h_mem_a, h_a]
      exact decide_eq_true rfl
    case others =>
      intro c h_c h_same h_ne
      rw [hi.flags b.id c (h_others c h_c h_same), h_a]
      exact decide_eq_false fun h => h_ne (Option.some.inj h).symm
    case highest =>
      intro c h_c h_same
      have h_mem_c := h_others c h_c h_same
      rw [h_split] at h_mem_c
      obtain h | h := List.mem_append.mp h_mem_c
      · exact h_before c h
      · obtain rfl | h := List.mem_cons.mp h
        · exact modeRank_le_of_eq rfl
        · exact modeRank_total (h_after c h)
    case latest =>
      intro c h_c h_same h_ne h_rank
      have h_mem_c := h_others c h_c h_same
      rw [h_split] at h_mem_c
      obtain h | h := List.mem_append.mp h_mem_c
      · -- the list is in arrival order, and the active one is the last of its rank
        exact (List.pairwise_append.mp h_sorted).2.2 c h a List.mem_cons_self
      · obtain rfl | h := List.mem_cons.mp h
        · exact absurd rfl h_ne
        · exact absurd (modeRank_le_of_eq h_rank.symm) (h_after c h)

theorem FleetInv.onlineEntries {s : Fleet} {g : Arrivals} (hi : FleetInv s g) :
    (s.connections.entries.filterMap fun e => s.onlineEntry e.1 e.2).map ServerEntry.id =
      s.connections.keys := by
  rw [List.map_filterMap, Table.keys, ← List.filterMap_eq_map]
  refine List.filterMap_congr fun e h_e => ?_
  have h_list := hi.nonempty e.1 e.2 (Table.get?_eq_some_iff.mpr h_e)
  cases h : Fleet.activeOf e.2 with
  | none => exact absurd (Fleet.activeOf_eq_none.mp h) h_list
  | some a =>
    rw [Fleet.onlineEntry, h]
    rfl

theorem entries_ids {s : Fleet} {g : Arrivals} (hi : FleetInv s g) :
    s.entries.map ServerEntry.id =
      s.connections.keys ++ s.knownAgents.keys.filter fun id => !s.connections.has id := by
  rw [Fleet.entries, List.map_append, hi.onlineEntries, List.map_map, Table.keys, Table.keys,
    List.filter_map]
  rfl

theorem mem_keys_iff {V : Type} {t : Table String V} {id : String} :
    id ∈ t.keys ↔ t.has id = true := by
  rw [Table.has, Option.isSome_iff_ne_none, Ne, Table.get?_eq_none_iff, not_not]

theorem FleetInv.correct {s : Fleet} {g : Arrivals} (hi : FleetInv s g)
    (h_modes : ∀ a, (g.came a).isSome → IsAgentMode a.mode) : FleetCorrect s g := by
  have h_connected : ∀ a, (g.came a).isSome → s.connections.has a.id = true := by
    intro a h_a
    have h_mem := (hi.live a).mpr h_a
    rw [Table.has, Option.isSome_iff_ne_none]
    intro h
    rw [Fleet.listOf, h] at h_mem
    exact List.not_mem_nil h_mem
  constructor
  case active => exact fun b h_b => hi.activeIsBest h_modes h_b
  case known => exact fun a h_a => hi.known a.id (h_connected a h_a)
  case entries_nodup =>
    rw [entries_ids hi]
    refine List.nodup_append'.mpr ⟨s.connections.nodup, s.knownAgents.nodup.filter _, ?_⟩
    intro id h_online h_offline
    have h_has := (mem_keys_iff).mp h_online
    simp [h_has] at h_offline
  case entries_known =>
    intro id
    rw [entries_ids hi, List.mem_append, List.mem_filter, mem_keys_iff, mem_keys_iff]
    have h_known := hi.known id
    cases h : s.connections.has id <;> simp_all
  case remove =>
    intro serverId s' h_remove a h_a h_id
    unfold Fleet.remove at h_remove
    rw [← h_id, h_connected a h_a] at h_remove
    exact absurd h_remove (by simp)

/-- **The registry.** In every state reached by connections of the declared modes,
whatever is registered, deregistered and removed in whatever order: a machine with a
live connection has exactly one active one, the latest of the highest rank; connected
machines are known, every known machine is listed once, and only a machine without a
live connection can be removed. -/
theorem fleet_correct (start : FleetStart) {tr : List (FleetOp × FleetResult)} {s : Fleet}
    (h : (fleetMachine start).RunWhen DeclaresModes tr s) : FleetCorrect s (arrivals start tr) :=
  (fleetInv_of_run h).correct (live_isAgentMode h)

/-- A connection of one machine. -/
def sampleAgent (conn : ℕ) (mode : String) : HostAgent := ⟨conn, "m1", "host", none, mode, none⟩

/-- The operations of a run that connects, reconnects and drops a stale connection. -/
def sampleOps : List FleetOp :=
  [.register (sampleAgent 1 "live") 1, .register (sampleAgent 2 "installed") 2,
    .register (sampleAgent 3 "installed") 3, .deregister (sampleAgent 2 "installed") 4,
    .remove "m1"]

theorem fleet_correct_sample : ∃ tr s, (fleetMachine .constructed).RunWhen DeclaresModes tr s ∧
    s.active (sampleAgent 3 "installed") = true ∧ FleetCorrect s (arrivals .constructed tr) := by
  obtain ⟨tr, s, h_exec, h_active⟩ := Machine.exec_reads (fleetMachine .constructed)
    (fleetMachine .constructed).init sampleOps
    (fun s => s.active (sampleAgent 3 "installed")) true (by decide +kernel)
  have h_run : (fleetMachine .constructed).RunWhen DeclaresModes tr s :=
    Machine.runWhen_of_exec sampleOps h_exec (by decide +kernel)
  exact ⟨tr, s, h_run, h_active, fleet_correct .constructed h_run⟩

/-- A connection of undeclared mode that comes first is never replaced. -/
def undeclaredOps : List FleetOp :=
  [.register (sampleAgent 1 "docker") 1, .register (sampleAgent 2 "installed") 2]

/-- A connection registers once more while it is live. -/
def repeatedOps : List FleetOp :=
  [.register (sampleAgent 1 "live") 1, .register (sampleAgent 2 "live") 2,
    .register (sampleAgent 1 "live") 3]

/-- **Both restrictions are needed.** A connection whose declared mode has no rank keeps a
ranked one from becoming active; and a `register` of a connection that is live does not
count as a new registration. -/
theorem best_fails :
    (¬∀ tr s, (fleetMachine .constructed).Run tr s →
      ∀ b, ((arrivals .constructed tr).came b).isSome → ∃ a, a.id = b.id ∧
        ActiveIsBest s (fun a => ((arrivals .constructed tr).came a).isSome)
          (arrivals .constructed tr).came a) ∧
    ¬∀ tr s, (fleetMachine .constructed).RunWhen DeclaresModes tr s →
      ∀ b, ((arrivals .constructed tr).came b).isSome → ∃ a, a.id = b.id ∧
        ActiveIsBest s (fun a => ((arrivals .constructed tr).came a).isSome)
          (lastRegister tr) a := by
  constructor
  · intro h
    obtain ⟨⟨tr, s⟩, h_exec, h_reads⟩ := Option.map_eq_some_iff.mp (show
      ((fleetMachine .constructed).exec (fleetMachine .constructed).init undeclaredOps).map
        (fun q => (q.2.listOf "m1", q.2.active (sampleAgent 1 "docker"),
          q.2.active (sampleAgent 2 "installed"))) =
        some ([sampleAgent 1 "docker", sampleAgent 2 "installed"], true, false)
      by decide +kernel)
    obtain ⟨h_list, h_pair⟩ := Prod.mk.inj h_reads
    obtain ⟨-, h_idle⟩ := Prod.mk.inj h_pair
    have h_run := Machine.run_of_exec undeclaredOps h_exec
    have hi := fleetInv_of_run h_run
    have h_mem : ∀ a, a.id = "m1" → (((arrivals .constructed tr).came a).isSome ↔
        a ∈ [sampleAgent 1 "docker", sampleAgent 2 "installed"]) := by
      intro a h_id
      rw [← h_list, hi.mem_iff]
      exact ⟨fun h => ⟨h_id, h⟩, fun h => h.2⟩
    obtain ⟨a, h_id, h_best⟩ := h tr s h_run (sampleAgent 2 "installed")
      ((h_mem _ rfl).mpr (by decide))
    have h_a := (h_mem a h_id).mp h_best.is_live
    obtain rfl | h_a := List.mem_cons.mp h_a
    · have h_rank := h_best.highest (sampleAgent 2 "installed")
        ((h_mem _ rfl).mpr (by decide)) rfl
      exact absurd h_rank (by simp [sampleAgent, modeRank])
    · obtain rfl := List.mem_singleton.mp h_a
      exact absurd (h_best.is_active.symm.trans h_idle) (by decide)
  · intro h
    obtain ⟨⟨tr, s⟩, h_exec, h_reads⟩ := Option.map_eq_some_iff.mp (show
      ((fleetMachine .constructed).exec (fleetMachine .constructed).init repeatedOps).map
        (fun q => (q.2.listOf "m1", q.2.active (sampleAgent 1 "live"),
          lastRegister q.1 (sampleAgent 1 "live"), lastRegister q.1 (sampleAgent 2 "live"))) =
        some ([sampleAgent 1 "live", sampleAgent 2 "live"], false, some 3, some 2)
      by decide +kernel)
    obtain ⟨h_list, h_pair⟩ := Prod.mk.inj h_reads
    obtain ⟨h_idle, h_pair⟩ := Prod.mk.inj h_pair
    obtain ⟨h_first, h_second⟩ := Prod.mk.inj h_pair
    have h_run : (fleetMachine .constructed).RunWhen DeclaresModes tr s :=
      Machine.runWhen_of_exec repeatedOps h_exec (by decide +kernel)
    have hi := fleetInv_of_run h_run
    have h_mem : ∀ a, a.id = "m1" → (((arrivals .constructed tr).came a).isSome ↔
        a ∈ [sampleAgent 1 "live", sampleAgent 2 "live"]) := by
      intro a h_id
      rw [← h_list, hi.mem_iff]
      exact ⟨fun h => ⟨h_id, h⟩, fun h => h.2⟩
    obtain ⟨a, h_id, h_best⟩ := h tr s h_run (sampleAgent 2 "live")
      ((h_mem _ rfl).mpr (by decide))
    have h_a := (h_mem a h_id).mp h_best.is_live
    obtain rfl | h_a := List.mem_cons.mp h_a
    · exact absurd (h_best.is_active.symm.trans h_idle) (by decide)
    · obtain rfl := List.mem_singleton.mp h_a
      obtain ⟨i, j, h_i, h_j, h_lt⟩ := h_best.latest (sampleAgent 1 "live")
        ((h_mem _ rfl).mpr (by decide)) rfl (by decide) rfl
      rw [h_first] at h_i
      rw [h_second] at h_j
      obtain rfl := Option.some.inj h_i
      obtain rfl := Option.some.inj h_j
      exact absurd h_lt (by decide)

end ServerCentral
