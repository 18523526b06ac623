import Mathlib.Data.List.TakeWhile
import ServerCentral.Agent.NodeServer

/-!
# What a registered connection has presented

`CredentialsInv` ties the durable tokens in memory, in the file and in the writes under way
to the mints: a token in memory was minted for its machine and is not revoked, and a mint
that has yet to be handed out is not followed by the token its machine has in memory.
`HistoryInv` ties the enrollment tokens and the registered connections to the trace.
-/

open Framework

namespace ServerCentral.Agent

/-! ### The mints after a mint -/

namespace NodeServerState

variable {s s' : NodeServerState} {mint x : Mint}

/-- One more mint comes after all earlier ones. -/
theorem later_append (h_mints : s'.mints = s.mints ++ [x]) (h : mint ∈ s.mints) :
    s'.later mint = s.later mint ++ [x] := by
  have h_found : s.mints.dropWhile (· ≠ mint) ≠ [] := by
    intro h_nil
    rw [List.dropWhile_eq_nil_iff] at h_nil
    exact of_decide_eq_true (h_nil mint h) rfl
  obtain ⟨y, ys, h_eq⟩ := List.exists_cons_of_ne_nil h_found
  rw [later, later, h_mints, List.dropWhile_append, h_eq]
  rfl

/-- Nothing comes after the last mint. -/
theorem later_last (h_mints : s'.mints = s.mints ++ [x]) (h : x ∉ s.mints) : s'.later x = [] := by
  have h_none : s.mints.dropWhile (· ≠ x) = [] := by
    rw [List.dropWhile_eq_nil_iff]
    intro m h_m
    have h_ne : m ≠ x := fun h_eq => h (h_eq ▸ h_m)
    simpa using h_ne
  have h_self : [x].dropWhile (fun m => decide (m ≠ x)) = [x] := by simp
  rw [later, h_mints, List.dropWhile_append, h_none, List.isEmpty_nil, if_pos rfl, h_self]
  rfl

theorem mem_of_mem_later {m : Mint} (h : m ∈ s.later mint) : m ∈ s.mints :=
  (List.dropWhile_sublist _).subset (List.drop_subset 1 _ h)

theorem later_congr (h_mints : s'.mints = s.mints) : s'.later mint = s.later mint := by
  rw [later, later, h_mints]

theorem revoked_congr (h_mints : s'.mints = s.mints) (h_returned : s'.returned = s.returned) :
    s'.Revoked mint ↔ s.Revoked mint := by
  rw [Revoked, Revoked, later_congr h_mints, h_returned]

end NodeServerState

/-! ### The durable tokens -/

theorem setDurable_get? {durable : Table String String} {machineId token m t : String}
    (h : (setDurable durable machineId token).get? m = some t) :
    m = machineId ∧ t = token ∨ m ≠ machineId ∧ durable.get? m = some t ∨
      machineId = "__proto__" ∧ durable.get? m = some t := by
  unfold setDurable at h
  split at h
  · next h_proto => exact .inr (.inr ⟨h_proto, h⟩)
  · exact (Table.get?_set_eq_some h).imp_right .inl

/-- What the durable tokens have to do with the mints. -/
structure CredentialsInv (s : NodeServerState) : Prop where
  memory : ∀ m t, s.durableTokens.get? m = some t → ⟨m, t⟩ ∈ s.mints ∧ ¬s.Revoked ⟨m, t⟩
  ordinary : s.durableTokens.get? "__proto__" = none
  file : ∀ m t, s.file.get? m = some t → m ≠ "__proto__" ∧ ⟨m, t⟩ ∈ s.mints
  task : ∀ k task, s.tasks.get? k = some task → k < s.mints.length ∧ task.mint ∈ s.mints
  /-- The token in memory is the last one of a machine for which a mint is under way. -/
  last : ∀ k task, s.tasks.get? k = some task → ∀ t,
    s.durableTokens.get? task.mint.machineId = some t →
      ∀ m ∈ s.later ⟨task.mint.machineId, t⟩, m.machineId ≠ task.mint.machineId
  content : ∀ k mint content, s.tasks.get? k = some (.writing mint content) →
    ∀ m t, content.get? m = some t → m ≠ "__proto__" ∧ ⟨m, t⟩ ∈ s.mints
  nodup : (s.mints.map Mint.token).Nodup
  drawn : ∀ mint ∈ s.mints, mint.token ∈ s.drawn
  returned : ∀ t ∈ s.returned, t ∈ s.drawn

namespace CredentialsInv

variable {s s' : NodeServerState}

/-- Two mints of one token are one mint. -/
theorem unique (hi : CredentialsInv s) {x y : Mint} (hx : x ∈ s.mints) (hy : y ∈ s.mints)
    (h : x.token = y.token) : x = y :=
  List.inj_on_of_nodup_map hi.nodup hx hy h

/-- The invariant does not see the enrollment tokens and the connections. -/
theorem of_eq (hi : CredentialsInv s) (h_durable : s'.durableTokens = s.durableTokens)
    (h_file : s'.file = s.file) (h_tasks : s'.tasks = s.tasks) (h_mints : s'.mints = s.mints)
    (h_returned : s'.returned = s.returned) (h_drawn : s.drawn ⊆ s'.drawn) :
    CredentialsInv s' where
  memory m t h := by
    rw [NodeServerState.revoked_congr h_mints h_returned, h_mints]
    exact hi.memory m t (h_durable ▸ h)
  ordinary := by rw [h_durable, hi.ordinary]
  file m t h := by
    rw [h_mints]
    exact hi.file m t (h_file ▸ h)
  task k task h := by
    rw [h_mints]
    exact hi.task k task (h_tasks ▸ h)
  last k task h t h_t := by
    rw [NodeServerState.later_congr h_mints]
    exact hi.last k task (h_tasks ▸ h) t (h_durable ▸ h_t)
  content k mint content h m t h_t := by
    rw [h_mints]
    exact hi.content k mint content (h_tasks ▸ h) m t h_t
  nodup := by
    rw [h_mints]
    exact hi.nodup
  drawn mint h := h_drawn (hi.drawn mint (h_mints ▸ h))
  returned t h := h_drawn (hi.returned t (h_returned ▸ h))

/-- **A mint** replaces the token of its machine in memory. -/
theorem mint (hi : CredentialsInv s) {machineId token : String} (h_fresh : token ∉ s.drawn) :
    CredentialsInv { s with
      durableTokens := setDurable s.durableTokens machineId token
      tasks := s.tasks.set s.mints.length (.preparing ⟨machineId, token⟩)
      drawn := s.drawn ++ [token]
      mints := s.mints ++ [⟨machineId, token⟩] } := by
  generalize h_eq : ({ s with
    durableTokens := setDurable s.durableTokens machineId token
    tasks := s.tasks.set s.mints.length (.preparing ⟨machineId, token⟩)
    drawn := s.drawn ++ [token]
    mints := s.mints ++ [⟨machineId, token⟩] } : NodeServerState) = s'
  have h_mints : s'.mints = s.mints ++ [⟨machineId, token⟩] := by rw [← h_eq]
  have h_returned : s'.returned = s.returned := by rw [← h_eq]
  have h_durable : s'.durableTokens = setDurable s.durableTokens machineId token := by rw [← h_eq]
  have h_tasks : s'.tasks = s.tasks.set s.mints.length (.preparing ⟨machineId, token⟩) := by
    rw [← h_eq]
  have h_drawn : s'.drawn = s.drawn ++ [token] := by rw [← h_eq]
  have h_new : (⟨machineId, token⟩ : Mint) ∉ s.mints := fun h => h_fresh (hi.drawn _ h)
  have h_old : ∀ x ∈ s.mints, x ∈ s'.mints := by
    intro x h
    rw [h_mints]
    exact List.mem_append_left _ h
  have h_self : (⟨machineId, token⟩ : Mint) ∈ s'.mints := by
    rw [h_mints]
    exact List.mem_append_right _ List.mem_cons_self
  -- a token that is not handed out yet revokes nothing
  have h_kept : ∀ x ∈ s.mints, ¬s.Revoked x → ¬s'.Revoked x := by
    rintro x h_x h_not ⟨m, h_m, h_id, h_ret⟩
    rw [NodeServerState.later_append h_mints h_x] at h_m
    rw [h_returned] at h_ret
    obtain h_m | h_m := List.mem_append.mp h_m
    · exact h_not ⟨m, h_m, h_id, h_ret⟩
    · obtain rfl := List.mem_singleton.mp h_m
      exact h_fresh (hi.returned _ h_ret)
  constructor
  case memory =>
    intro m t h
    rw [h_durable] at h
    obtain ⟨rfl, rfl⟩ | ⟨-, h⟩ | ⟨-, h⟩ := setDurable_get? h
    · refine ⟨h_self, ?_⟩
      rintro ⟨x, h_x, -⟩
      rw [NodeServerState.later_last h_mints h_new] at h_x
      exact absurd h_x List.not_mem_nil
    · exact ⟨h_old _ (hi.memory m t h).1, h_kept _ (hi.memory m t h).1 (hi.memory m t h).2⟩
    · exact ⟨h_old _ (hi.memory m t h).1, h_kept _ (hi.memory m t h).1 (hi.memory m t h).2⟩
  case ordinary =>
    rw [h_durable, setDurable]
    split
    · exact hi.ordinary
    · next h_ne => rw [Table.get?_set_of_ne _ _ (Ne.symm h_ne), hi.ordinary]
  case file =>
    intro m t h
    have h_file : s'.file = s.file := by rw [← h_eq]
    obtain ⟨h_ne, h_mem⟩ := hi.file m t (h_file ▸ h)
    exact ⟨h_ne, h_old _ h_mem⟩
  case task =>
    intro k task h
    have h_len : s'.mints.length = s.mints.length + 1 := by
      rw [h_mints, List.length_append, List.length_singleton]
    rw [h_len]
    rw [h_tasks] at h
    obtain ⟨rfl, rfl⟩ | ⟨-, h⟩ := Table.get?_set_eq_some h
    · exact ⟨Nat.lt_succ_self _, h_self⟩
    · obtain ⟨h_lt, h_mem⟩ := hi.task k task h
      exact ⟨Nat.lt_succ_of_lt h_lt, h_old _ h_mem⟩
  case last =>
    intro k task h t h_t x h_x
    rw [h_durable] at h_t
    obtain ⟨h_id, rfl⟩ | ⟨h_ne, h_t⟩ | ⟨h_proto, h_t⟩ := setDurable_get? h_t
    · -- the machine has just got the last mint
      rw [h_id, NodeServerState.later_last h_mints h_new] at h_x
      exact absurd h_x List.not_mem_nil
    · rw [NodeServerState.later_append h_mints (hi.memory _ t h_t).1] at h_x
      obtain h_x | h_x := List.mem_append.mp h_x
      · rw [h_tasks] at h
        obtain ⟨-, rfl⟩ | ⟨-, h⟩ := Table.get?_set_eq_some h
        · exact absurd rfl h_ne
        · exact hi.last k task h t h_t x h_x
      · obtain rfl := List.mem_singleton.mp h_x
        exact Ne.symm h_ne
    · by_cases h_id : task.mint.machineId = machineId
      · rw [h_id, h_proto, hi.ordinary] at h_t
        exact absurd h_t (by simp)
      rw [NodeServerState.later_append h_mints (hi.memory _ t h_t).1] at h_x
      obtain h_x | h_x := List.mem_append.mp h_x
      · rw [h_tasks] at h
        obtain ⟨-, rfl⟩ | ⟨-, h⟩ := Table.get?_set_eq_some h
        · exact absurd rfl h_id
        · exact hi.last k task h t h_t x h_x
      · obtain rfl := List.mem_singleton.mp h_x
        exact Ne.symm h_id
  case content =>
    intro k x content h m t h_t
    rw [h_tasks] at h
    obtain ⟨-, h⟩ | ⟨-, h⟩ := Table.get?_set_eq_some h
    · cases h
    · obtain ⟨h_ne, h_mem⟩ := hi.content k x content h m t h_t
      exact ⟨h_ne, h_old _ h_mem⟩
  case nodup =>
    rw [h_mints, List.map_append]
    refine List.nodup_append'.mpr ⟨hi.nodup, List.nodup_singleton _, ?_⟩
    intro t h_mem h_t
    obtain ⟨x, h_x, rfl⟩ := List.mem_map.mp h_mem
    have h_token : x.token = token := by simpa using h_t
    exact h_fresh (h_token ▸ hi.drawn x h_x)
  case drawn =>
    intro x h
    rw [h_mints] at h
    rw [h_drawn]
    obtain h | h := List.mem_append.mp h
    · exact List.mem_append_left _ (hi.drawn x h)
    · obtain rfl := List.mem_singleton.mp h
      exact List.mem_append_right _ List.mem_cons_self
  case returned =>
    intro t h
    rw [h_drawn]
    exact List.mem_append_left _ (hi.returned t (h_returned ▸ h))

/-- The table is serialised. -/
theorem ensured (hi : CredentialsInv s) {k : ℕ} {x : Mint}
    (h_get : s.tasks.get? k = some (.preparing x)) :
    CredentialsInv { s with tasks := s.tasks.set k (.writing x s.durableTokens) } where
  memory := hi.memory
  ordinary := hi.ordinary
  file := hi.file
  task j task h := by
    obtain ⟨rfl, rfl⟩ | ⟨-, h⟩ := Table.get?_set_eq_some h
    · exact hi.task j (.preparing x) h_get
    · exact hi.task j task h
  last j task h := by
    obtain ⟨rfl, rfl⟩ | ⟨-, h⟩ := Table.get?_set_eq_some h
    · exact hi.last j (.preparing x) h_get
    · exact hi.last j task h
  content j y content h m t h_t := by
    obtain ⟨-, h⟩ | ⟨-, h⟩ := Table.get?_set_eq_some h
    · obtain ⟨rfl, rfl⟩ := MintTask.writing.inj h
      refine ⟨?_, (hi.memory m t h_t).1⟩
      rintro rfl
      exact absurd (hi.ordinary.symm.trans h_t) (by simp)
    · exact hi.content j y content h m t h_t
  nodup := hi.nodup
  drawn := hi.drawn
  returned := hi.returned

/-- A write fails. -/
theorem failed (hi : CredentialsInv s) (k : ℕ) :
    CredentialsInv { s with tasks := s.tasks.erase k } where
  memory := hi.memory
  ordinary := hi.ordinary
  file := hi.file
  task j task h := hi.task j task (Table.get?_erase.mp h).1
  last j task h := hi.last j task (Table.get?_erase.mp h).1
  content j x content h := hi.content j x content (Table.get?_erase.mp h).1
  nodup := hi.nodup
  drawn := hi.drawn
  returned := hi.returned

/-- **A mint is handed out**, which revokes the earlier tokens of its machine. The one in
memory is not among them. -/
theorem written (hi : CredentialsInv s) {k : ℕ} {x : Mint} {content : Table String String}
    (h_get : s.tasks.get? k = some (.writing x content)) :
    CredentialsInv { s with
      file := content
      tasks := s.tasks.erase k
      returned := s.returned ++ [x.token] } where
  memory m t h := by
    obtain ⟨h_mem, h_not⟩ := hi.memory m t h
    refine ⟨h_mem, ?_⟩
    rintro ⟨y, h_y, h_id, h_ret⟩
    have h_y : y ∈ s.later ⟨m, t⟩ := h_y
    obtain h_ret | h_ret := List.mem_append.mp h_ret
    · exact h_not ⟨y, h_y, h_id, h_ret⟩
    · have h_x : x ∈ s.mints := (hi.task k _ h_get).2
      obtain rfl : y = x :=
        hi.unique (NodeServerState.mem_of_mem_later h_y) h_x (List.mem_singleton.mp h_ret)
      have h_id : y.machineId = m := h_id
      exact hi.last k _ h_get t (h_id ▸ h) y (h_id ▸ h_y) rfl
  ordinary := hi.ordinary
  file m t h := hi.content k x content h_get m t h
  task j task h := hi.task j task (Table.get?_erase.mp h).1
  last j task h := hi.last j task (Table.get?_erase.mp h).1
  content j y content h := hi.content j y content (Table.get?_erase.mp h).1
  nodup := hi.nodup
  drawn := hi.drawn
  returned t h := by
    obtain h | h := List.mem_append.mp h
    · exact hi.returned t h
    · obtain rfl := List.mem_singleton.mp h
      exact hi.drawn x (hi.task k _ h_get).2

/-- **A restart** loads what is on disk. -/
theorem boot (hi : CredentialsInv s) (start : NodeStart)
    (h_ok : ∀ e ∈ s.file.entries, ¬s.Revoked ⟨e.1, e.2⟩) :
    CredentialsInv (.boot start s.nextConn s.file s.drawn s.mints s.returned) where
  memory m t h := ⟨(hi.file m t h).2, h_ok (m, t) (Table.get?_eq_some_iff.mp h)⟩
  ordinary := by
    rw [Option.eq_none_iff_forall_ne_some]
    exact fun t h => (hi.file "__proto__" t h).1 rfl
  file := hi.file
  task k task h := absurd h (by simp [NodeServerState.boot])
  last k task h := absurd h (by simp [NodeServerState.boot])
  content k x content h := absurd h (by simp [NodeServerState.boot])
  nodup := hi.nodup
  drawn := hi.drawn
  returned := hi.returned

theorem init (start : NodeStart) : CredentialsInv (nodeMachine start).init where
  memory m t h := absurd h (by simp [nodeMachine, NodeServerState.boot])
  ordinary := rfl
  file m t h := absurd h (by simp [nodeMachine, NodeServerState.boot])
  task k task h := absurd h (by simp [nodeMachine, NodeServerState.boot])
  last k task h := absurd h (by simp [nodeMachine, NodeServerState.boot])
  content k x content h := absurd h (by simp [nodeMachine, NodeServerState.boot])
  nodup := List.nodup_nil
  drawn mint h := absurd h List.not_mem_nil
  returned t h := absurd h List.not_mem_nil

end CredentialsInv

/-! ### The connections of the fleet -/

/-- Registering a connection lists nothing else. -/
theorem mem_listOf_register {s : Fleet} {agent a : HostAgent} {now : ℕ} {id : String}
    (h : a ∈ (s.register agent now).1.listOf id) : a = agent ∧ id = agent.id ∨ a ∈ s.listOf id := by
  rw [Fleet.listOf_register] at h
  split at h
  · next h_id =>
    split at h
    · exact .inr h
    · obtain h | h := List.mem_append.mp h
      · exact .inr h
      · exact .inl ⟨List.mem_singleton.mp h, h_id⟩
  · exact .inr h

/-- Deregistering one lists nothing new. -/
theorem mem_listOf_deregister {s : Fleet} {agent a : HostAgent} {now : ℕ} {id : String}
    (h : a ∈ (s.deregister agent now).listOf id) : a ∈ s.listOf id := by
  rw [Fleet.listOf_deregister] at h
  split at h
  · exact List.mem_of_mem_erase h
  · exact h

/-- After a start only the embedded agent is connected. -/
theorem mem_listOf_boot {start : NodeStart} {conn : ℕ} {file : Table String String}
    {drawn returned : List String} {mints : List Mint} {a : HostAgent} {id : String}
    (h : a ∈ (NodeServerState.boot start conn file drawn mints returned).fleet.listOf id) :
    a = (NodeServerState.boot start conn file drawn mints returned).embedded := by
  have h_list : a ∈ ((Table.empty.set start.machineId
      [Fleet.createEmbeddedAgent conn start.machineId start.hostname start.info]).get? id).getD [] := h
  rw [Table.get?_set] at h_list
  split at h_list
  · exact List.mem_singleton.mp h_list
  · exact absurd h_list List.not_mem_nil

/-- What identification does: the message is refused, or its token is good and its
connection is registered. -/
theorem identify_cases (s : NodeServerState) (msg : IdentifyMessage) (remoteIp : Option String)
    (now : ℕ) :
    (∃ tokens, (∀ t e, tokens.get? t = some e → s.tokens.get? t = some e) ∧
      s.identify msg remoteIp now = ({ s with tokens }, .refused)) ∨
    ∃ active, (msg.token ∈ s.durableTokens.values ∨
        ∃ expiresAt, s.tokens.get? msg.token = some expiresAt ∧ now ≤ expiresAt) ∧
      s.identify msg remoteIp now = ({ s with
        agents := s.agents.set s.nextConn (msg.agent s.nextConn remoteIp)
        fleet := (s.fleet.register (msg.agent s.nextConn remoteIp) now).1
        nextConn := s.nextConn + 1 }, .acknowledged active) := by
  by_cases h_durable : msg.token ∈ s.durableTokens.values
  · refine .inr ⟨(s.fleet.register (msg.agent s.nextConn remoteIp) now).2, .inl h_durable, ?_⟩
    rw [NodeServerState.identify, NodeServerState.validateToken, if_pos h_durable]
    rfl
  cases h_get : s.tokens.get? msg.token with
  | none =>
    refine .inl ⟨s.tokens, fun _ _ h => h, ?_⟩
    rw [NodeServerState.identify, NodeServerState.validateToken, if_neg h_durable, h_get]
    rfl
  | some expiresAt =>
    by_cases h_late : now > expiresAt
    · refine .inl ⟨s.tokens.erase msg.token, fun _ _ h => (Table.get?_erase.mp h).1, ?_⟩
      rw [NodeServerState.identify, NodeServerState.validateToken, if_neg h_durable, h_get]
      simp only [if_pos h_late]
      rfl
    · refine .inr ⟨(s.fleet.register (msg.agent s.nextConn remoteIp) now).2,
        .inr ⟨expiresAt, rfl, Nat.not_lt.mp h_late⟩, ?_⟩
      rw [NodeServerState.identify, NodeServerState.validateToken, if_neg h_durable, h_get]
      simp only [if_neg h_late]
      rfl

/-! ### The trace -/

/-- A connection was registered for this message. -/
def Registered (tr : List (NodeLabel × NodeOut)) (msg : IdentifyMessage)
    (remoteIp : Option String) : Prop :=
  ∃ now active, (NodeLabel.identify msg remoteIp now, NodeOut.acknowledged active) ∈ tr

structure HistoryInv (start : NodeStart) (tr : List (NodeLabel × NodeOut))
    (s : NodeServerState) : Prop where
  enrolled : ∀ t at₀ o, (NodeLabel.mintToken t at₀, o) ∈ tr →
    t ∈ s.drawn ∧ ∀ mint ∈ s.mints, mint.token ≠ t
  tokens : ∀ t expiresAt, s.tokens.get? t = some expiresAt →
    ∃ at₀ o, (NodeLabel.mintToken t at₀, o) ∈ tr ∧ expiresAt = at₀ + tokenLifetime
  drawn : ∀ msg remoteIp, Registered tr msg remoteIp → msg.token ∈ s.drawn
  identified : ∀ pre post msg remoteIp now active,
    tr = pre ++ (.identify msg remoteIp now, .acknowledged active) :: post →
      ∃ m, (nodeMachine start).Run pre m ∧ Presents pre m msg now
  own : ∀ mint ∈ s.mints, ∀ msg remoteIp, Registered tr msg remoteIp →
    msg.token = mint.token → msg.machineId = mint.machineId ∧ msg.mode ≠ "embedded"
  listed : ∀ machineId, ∀ agent ∈ s.fleet.listOf machineId, agent = s.embedded ∨
    ∃ msg remoteIp, msg.machineId = machineId ∧ Registered tr msg remoteIp ∧
      agent = msg.agent agent.conn remoteIp

theorem Registered.mono {tr tr' : List (NodeLabel × NodeOut)} {msg : IdentifyMessage}
    {remoteIp : Option String} (h : Registered tr msg remoteIp) :
    Registered (tr ++ tr') msg remoteIp := by
  obtain ⟨now, active, h⟩ := h
  exact ⟨now, active, List.mem_append_left _ h⟩

/-- One more step registers at most one connection. -/
theorem registered_snoc {tr : List (NodeLabel × NodeOut)} {l : NodeLabel} {o : NodeOut}
    {msg : IdentifyMessage} {remoteIp : Option String}
    (h : Registered (tr ++ [(l, o)]) msg remoteIp) : Registered tr msg remoteIp ∨
      ∃ now active, l = .identify msg remoteIp now ∧ o = .acknowledged active := by
  obtain ⟨now, active, h⟩ := h
  obtain h | h := List.mem_append.mp h
  · exact .inl ⟨now, active, h⟩
  · obtain ⟨rfl, rfl⟩ := Prod.mk.inj (List.mem_singleton.mp h)
    exact .inr ⟨now, active, rfl, rfl⟩

namespace HistoryInv

variable {start : NodeStart} {tr : List (NodeLabel × NodeOut)} {s s' : NodeServerState}
  {l : NodeLabel} {o : NodeOut}

theorem init (start : NodeStart) : HistoryInv start [] (nodeMachine start).init where
  enrolled t at₀ o h := absurd h List.not_mem_nil
  tokens t expiresAt h := absurd h (by simp [nodeMachine, NodeServerState.boot])
  drawn msg remoteIp h := by
    obtain ⟨now, active, h⟩ := h
    exact absurd h List.not_mem_nil
  identified pre post msg remoteIp now active h := absurd h (by simp)
  own mint h := absurd h List.not_mem_nil
  listed machineId agent h := .inl (mem_listOf_boot h)

/-- **A step that registers nothing**: the tokens are old ones, or the one just minted. -/
theorem unregistered (hi : HistoryInv start tr s)
    (h_out : ∀ msg remoteIp now active,
      ¬(l = .identify msg remoteIp now ∧ o = .acknowledged active))
    (h_drawn : s.drawn ⊆ s'.drawn)
    (h_mints : ∀ mint ∈ s'.mints, mint ∈ s.mints ∨ mint.token ∉ s.drawn ∧
      ∀ t at₀, l ≠ .mintToken t at₀)
    (h_minted : ∀ t at₀, l = .mintToken t at₀ → t ∈ s'.drawn ∧ ∀ mint ∈ s'.mints, mint.token ≠ t)
    (h_tokens : ∀ t expiresAt, s'.tokens.get? t = some expiresAt →
      s.tokens.get? t = some expiresAt ∨
        ∃ at₀, l = .mintToken t at₀ ∧ expiresAt = at₀ + tokenLifetime)
    (h_listed : ∀ machineId, ∀ agent ∈ s'.fleet.listOf machineId, agent = s'.embedded ∨
      s'.embedded = s.embedded ∧ agent ∈ s.fleet.listOf machineId) :
    HistoryInv start (tr ++ [(l, o)]) s' where
  enrolled t at₀ out h := by
    obtain h | h := List.mem_append.mp h
    · obtain ⟨h_t, h_ne⟩ := hi.enrolled t at₀ out h
      refine ⟨h_drawn h_t, fun mint h_mint h_eq => ?_⟩
      obtain h_old | ⟨h_new, -⟩ := h_mints mint h_mint
      · exact h_ne mint h_old h_eq
      · exact h_new (h_eq ▸ h_t)
    · obtain ⟨rfl, -⟩ := Prod.mk.inj (List.mem_singleton.mp h)
      exact h_minted t at₀ rfl
  tokens t expiresAt h := by
    obtain h_old | ⟨at₀, rfl, rfl⟩ := h_tokens t expiresAt h
    · obtain ⟨at₀, out, h_mem, h_eq⟩ := hi.tokens t expiresAt h_old
      exact ⟨at₀, out, List.mem_append_left _ h_mem, h_eq⟩
    · exact ⟨at₀, o, List.mem_append_right _ List.mem_cons_self, rfl⟩
  drawn msg remoteIp h := by
    obtain h | ⟨now, active, h⟩ := registered_snoc h
    · exact h_drawn (hi.drawn msg remoteIp h)
    · exact absurd h (h_out msg remoteIp now active)
  identified pre post msg remoteIp now active h := by
    obtain ⟨-, h_last, -⟩ | ⟨post', h_tr, -⟩ := Machine.snoc_split h
    · exact absurd (Prod.mk.inj h_last) (h_out msg remoteIp now active)
    · exact hi.identified pre post' msg remoteIp now active h_tr
  own mint h_mint msg remoteIp h h_token := by
    obtain h | ⟨now, active, h⟩ := registered_snoc h
    · obtain h_old | ⟨h_new, -⟩ := h_mints mint h_mint
      · exact hi.own mint h_old msg remoteIp h h_token
      · exact absurd (h_token ▸ hi.drawn msg remoteIp h) h_new
    · exact absurd h (h_out msg remoteIp now active)
  listed machineId agent h := by
    obtain h | ⟨h_same, h⟩ := h_listed machineId agent h
    · exact .inl h
    · obtain h_e | ⟨msg, remoteIp, h_id, h_reg, h_agent⟩ := hi.listed machineId agent h
      · exact .inl (h_e.trans h_same.symm)
      · exact .inr ⟨msg, remoteIp, h_id, h_reg.mono, h_agent⟩

/-- A connection is refused. -/
theorem refused (hi : HistoryInv start tr s) {msg : IdentifyMessage} {remoteIp : Option String}
    {now : ℕ} {tokens : Table String ℕ}
    (h_tokens : ∀ t e, tokens.get? t = some e → s.tokens.get? t = some e) :
    HistoryInv start (tr ++ [(.identify msg remoteIp now, .refused)]) { s with tokens } := by
  refine hi.unregistered ?_ (fun _ h => h) (fun _ h => .inl h) (by rintro t at₀ ⟨⟩)
    (fun t e h => .inl (h_tokens t e h)) fun machineId agent h => .inr ⟨rfl, h⟩
  rintro msg' remoteIp' now' active ⟨-, h⟩
  cases h

/-- **A connection is registered** that presents a good token. -/
theorem registered (hi : HistoryInv start tr s) {msg : IdentifyMessage}
    {remoteIp : Option String} {now : ℕ} {active : Bool} (h_run : (nodeMachine start).Run tr s)
    (h_presents : Presents tr s msg now) (h_mode : ∀ mint ∈ s.mints, msg.token = mint.token →
      msg.machineId = mint.machineId ∧ msg.mode ≠ "embedded")
    (h_token : msg.token ∈ s.drawn) :
    HistoryInv start (tr ++ [(.identify msg remoteIp now, .acknowledged active)])
      { s with
        agents := s.agents.set s.nextConn (msg.agent s.nextConn remoteIp)
        fleet := (s.fleet.register (msg.agent s.nextConn remoteIp) now).1
        nextConn := s.nextConn + 1 } where
  enrolled t at₀ o h := by
    obtain h | h := List.mem_append.mp h
    · exact hi.enrolled t at₀ o h
    · exact nomatch (Prod.mk.inj (List.mem_singleton.mp h)).1
  tokens t e h := by
    obtain ⟨at₀, o, h_mem, h_eq⟩ := hi.tokens t e h
    exact ⟨at₀, o, List.mem_append_left _ h_mem, h_eq⟩
  drawn msg' remoteIp' h := by
    obtain h | ⟨now', active', h, -⟩ := registered_snoc h
    · exact hi.drawn msg' remoteIp' h
    · obtain ⟨rfl, -, -⟩ := NodeLabel.identify.inj h
      exact h_token
  identified pre post msg' remoteIp' now' active' h := by
    obtain ⟨rfl, h_last, -⟩ | ⟨post', h_tr, -⟩ := Machine.snoc_split h
    · obtain ⟨rfl, rfl, rfl⟩ := NodeLabel.identify.inj (Prod.mk.inj h_last).1
      exact ⟨s, h_run, h_presents⟩
    · exact hi.identified pre post' msg' remoteIp' now' active' h_tr
  own mint h_mint msg' remoteIp' h h_eq := by
    obtain h | ⟨now', active', h, -⟩ := registered_snoc h
    · exact hi.own mint h_mint msg' remoteIp' h h_eq
    · obtain ⟨rfl, -, -⟩ := NodeLabel.identify.inj h
      exact h_mode mint h_mint h_eq
  listed machineId agent h := by
    obtain ⟨rfl, h_id⟩ | h := mem_listOf_register h
    · exact .inr ⟨msg, remoteIp, h_id.symm,
        ⟨now, active, List.mem_append_right _ List.mem_cons_self⟩, rfl⟩
    · obtain h_e | ⟨msg', remoteIp', h_id, h_reg, h_agent⟩ := hi.listed machineId agent h
      · exact .inl h_e
      · exact .inr ⟨msg', remoteIp', h_id, h_reg.mono, h_agent⟩

/-- **Identification.** -/
theorem identify (hi : HistoryInv start tr s) (hc : CredentialsInv s)
    (h_run : (nodeMachine start).Run tr s) {msg : IdentifyMessage} {remoteIp : Option String}
    {now : ℕ} (h_ok : OwnCredential s (.identify msg remoteIp now))
    (hs : s.identify msg remoteIp now = (s', o)) :
    CredentialsInv s' ∧ HistoryInv start (tr ++ [(.identify msg remoteIp now, o)]) s' := by
  obtain ⟨tokens, h_tokens, h_eq⟩ | ⟨active, h_valid, h_eq⟩ :=
    identify_cases s msg remoteIp now
  · obtain ⟨rfl, rfl⟩ := Prod.mk.inj (h_eq.symm.trans hs)
    exact ⟨hc.of_eq rfl rfl rfl rfl rfl fun _ h => h, hi.refused h_tokens⟩
  · obtain ⟨rfl, rfl⟩ := Prod.mk.inj (h_eq.symm.trans hs)
    refine ⟨hc.of_eq rfl rfl rfl rfl rfl fun _ h => h, ?_⟩
    obtain h_durable | ⟨expiresAt, h_get, h_fresh⟩ := h_valid
    · -- the token is the one in memory for the machine the message names
      obtain ⟨h_get, h_mode⟩ := h_ok h_durable
      obtain ⟨h_mint, h_valid⟩ := hc.memory _ _ h_get
      refine hi.registered h_run (.inr ⟨h_mint, h_valid⟩) ?_ (hc.drawn _ h_mint)
      intro mint h_mem h_token
      obtain rfl := hc.unique h_mint h_mem h_token
      exact ⟨rfl, h_mode⟩
    · obtain ⟨at₀, out, h_mem, rfl⟩ := hi.tokens _ _ h_get
      obtain ⟨h_drawn, h_other⟩ := hi.enrolled _ _ _ h_mem
      refine hi.registered h_run (.inl ⟨at₀, out, h_mem, h_fresh⟩) ?_ h_drawn
      exact fun mint h_mint h_token => absurd h_token.symm (h_other mint h_mint)

/-- **Every step** keeps both invariants. -/
theorem step (hi : HistoryInv start tr s) (hc : CredentialsInv s)
    (h_run : (nodeMachine start).Run tr s) (h_ok : OwnCredential s l)
    (hs : s.step l = some (s', o)) :
    CredentialsInv s' ∧ HistoryInv start (tr ++ [(l, o)]) s' := by
  have h_same : ∀ (s₁ : NodeServerState), s₁.embedded = s.embedded → s₁.fleet = s.fleet →
      ∀ machineId, ∀ agent ∈ s₁.fleet.listOf machineId, agent = s₁.embedded ∨
        s₁.embedded = s.embedded ∧ agent ∈ s.fleet.listOf machineId :=
    fun s₁ h_embedded h_fleet machineId agent h => .inr ⟨h_embedded, h_fleet ▸ h⟩
  cases l with
  | mintToken token now =>
    rw [NodeServerState.step] at hs
    split at hs
    case isTrue => exact absurd hs (by simp)
    case isFalse h_fresh =>
      obtain ⟨rfl, rfl⟩ := Prod.mk.inj (Option.some.inj hs)
      have h_sub : s.drawn ⊆ s.drawn ++ [token] := List.subset_append_left _ _
      refine ⟨hc.of_eq rfl rfl rfl rfl rfl h_sub, ?_⟩
      refine hi.unregistered (fun _ _ _ _ h => nomatch h.1) h_sub (fun _ h => .inl h) ?_ ?_
        (h_same _ rfl rfl)
      · intro t at₀ h
        obtain ⟨rfl, rfl⟩ := NodeLabel.mintToken.inj h
        refine ⟨List.mem_append_right _ List.mem_cons_self, fun mint h_mint h_eq => ?_⟩
        exact h_fresh (h_eq ▸ hc.drawn mint h_mint)
      · intro t e h
        obtain ⟨rfl, rfl⟩ | ⟨-, h⟩ := Table.get?_set_eq_some h
        · exact .inr ⟨now, rfl, rfl⟩
        · exact .inl h
  | mintAgentToken machineId token =>
    rw [NodeServerState.step] at hs
    split at hs
    case isTrue => exact absurd hs (by simp)
    case isFalse h_fresh =>
      obtain ⟨rfl, rfl⟩ := Prod.mk.inj (Option.some.inj hs)
      refine ⟨hc.mint h_fresh, ?_⟩
      refine hi.unregistered (fun _ _ _ _ h => nomatch h.1) (List.subset_append_left _ _) ?_
        (by rintro t at₀ ⟨⟩) (fun t e h => .inl h) (h_same _ rfl rfl)
      intro mint h
      obtain h | h := List.mem_append.mp h
      · exact .inl h
      · obtain rfl := List.mem_singleton.mp h
        exact .inr ⟨h_fresh, (by rintro t at₀ ⟨⟩)⟩
  | ensured k =>
    rw [NodeServerState.step] at hs
    split at hs
    case h_2 => exact absurd hs (by simp)
    next mint h_get =>
    obtain ⟨rfl, rfl⟩ := Prod.mk.inj (Option.some.inj hs)
    refine ⟨hc.ensured h_get, ?_⟩
    exact hi.unregistered (fun _ _ _ _ h => nomatch h.1) (fun _ h => h) (fun _ h => .inl h)
      (by rintro t at₀ ⟨⟩) (fun t e h => .inl h) (h_same _ rfl rfl)
  | written k ok =>
    rw [NodeServerState.step] at hs
    split at hs
    case h_2 => exact absurd hs (by simp)
    next mint content h_get =>
    cases ok with
    | true =>
      obtain ⟨rfl, rfl⟩ := Prod.mk.inj (Option.some.inj hs)
      refine ⟨hc.written h_get, ?_⟩
      exact hi.unregistered (fun _ _ _ _ h => nomatch h.1) (fun _ h => h) (fun _ h => .inl h)
        (by rintro t at₀ ⟨⟩) (fun t e h => .inl h) (h_same _ rfl rfl)
    | false =>
      obtain ⟨rfl, rfl⟩ := Prod.mk.inj (Option.some.inj hs)
      refine ⟨hc.failed k, ?_⟩
      exact hi.unregistered (fun _ _ _ _ h => nomatch h.1) (fun _ h => h) (fun _ h => .inl h)
        (by rintro t at₀ ⟨⟩) (fun t e h => .inl h) (h_same _ rfl rfl)
  | sweep now =>
    obtain ⟨rfl, rfl⟩ := Prod.mk.inj (Option.some.inj hs)
    refine ⟨hc.of_eq rfl rfl rfl rfl rfl (fun _ h => h), ?_⟩
    exact hi.unregistered (fun _ _ _ _ h => nomatch h.1) (fun _ h => h) (fun _ h => .inl h)
      (by rintro t at₀ ⟨⟩) (fun t e h => .inl (Table.get?_filter.mp h).1) (h_same _ rfl rfl)
  | identify msg remoteIp now =>
    exact hi.identify hc h_run h_ok (Option.some.inj hs)
  | close conn now =>
    obtain ⟨rfl, rfl⟩ := Prod.mk.inj (Option.some.inj hs)
    unfold NodeServerState.close
    split
    · refine ⟨hc, ?_⟩
      exact hi.unregistered (fun _ _ _ _ h => nomatch h.1) (fun _ h => h) (fun _ h => .inl h)
        (by rintro t at₀ ⟨⟩) (fun t e h => .inl h) (h_same _ rfl rfl)
    · next proxy _ =>
      refine ⟨hc.of_eq rfl rfl rfl rfl rfl (fun _ h => h), ?_⟩
      refine hi.unregistered (fun _ _ _ _ h => nomatch h.1) (fun _ h => h) (fun _ h => .inl h)
        (by rintro t at₀ ⟨⟩) (fun t e h => .inl h) fun machineId agent h => .inr ⟨rfl, ?_⟩
      show agent ∈ (s.fleet.disconnect proxy).listOf machineId
      exact mem_listOf_deregister h
  | restart st =>
    obtain ⟨rfl, rfl⟩ := Prod.mk.inj (Option.some.inj hs)
    refine ⟨hc.boot st h_ok, ?_⟩
    refine hi.unregistered (fun _ _ _ _ h => nomatch h.1) (fun _ h => h) (fun _ h => .inl h)
      (by rintro t at₀ ⟨⟩) (fun t e h => absurd h (by simp [NodeServerState.boot])) ?_
    exact fun machineId agent h => .inl (mem_listOf_boot h)

end HistoryInv

theorem identityInv_run {start : NodeStart} {tr : List (NodeLabel × NodeOut)}
    {s : NodeServerState} (h : (nodeMachine start).RunWhen OwnCredential tr s) :
    CredentialsInv s ∧ HistoryInv start tr s := by
  refine h.history (P := fun tr s => CredentialsInv s ∧ HistoryInv start tr s)
    ⟨.init start, .init start⟩ ?_
  intro tr s l s' o h_run hi h_ok hs
  exact hi.2.step hi.1 h_run.run h_ok hs

/-- **Connections are bound to their credentials** in every run in which durable tokens are
presented for their own machine, in another mode than the embedded agent's, and no start
finds a revoked token on disk. -/
theorem identity_bound (start : NodeStart) (tr : List (NodeLabel × NodeOut))
    (s : NodeServerState) (h : (nodeMachine start).RunWhen OwnCredential tr s) :
    IdentityBound start tr s := by
  obtain ⟨-, hi⟩ := identityInv_run h
  constructor
  case identified => exact hi.identified
  case own =>
    intro mint h_mint msg remoteIp now active h_mem
    exact hi.own mint h_mint msg remoteIp ⟨now, active, h_mem⟩
  case listed =>
    intro machineId agent h_agent
    obtain h_e | ⟨msg, remoteIp, h_id, ⟨now, active, h_mem⟩, h_eq⟩ :=
      hi.listed machineId agent h_agent
    · exact .inl h_e
    · exact .inr ⟨msg, remoteIp, now, active, h_id, h_mem, h_eq⟩

/-! ### A token of another host -/

def sampleStart : NodeStart := ⟨[], "control", "control", ⟨none, none⟩, 0⟩

def sampleMessage (token machineId mode : String) : IdentifyMessage :=
  ⟨token, machineId, mode, machineId, ⟨none, none⟩⟩

/-- **A stolen identity**: the durable token of one host registers a connection as another
one, in the mode of the embedded agent. -/
theorem token_of_another_host : ¬∀ (start : NodeStart) (tr : List (NodeLabel × NodeOut))
    (s : NodeServerState), (nodeMachine start).Run tr s → IdentityBound start tr s := by
  intro h_all
  obtain ⟨tr, s, h_exec, h_read⟩ := (nodeMachine sampleStart).exec_reads
    (nodeMachine sampleStart).init
    [.mintAgentToken "a" "t", .ensured 0, .written 0 true,
      .identify (sampleMessage "t" "control" "embedded") none 0]
    (fun s => s.mints) [⟨"a", "t"⟩] (by decide)
  have h_bound := h_all _ tr s (Machine.run_of_exec _ h_exec)
  have h_own := h_bound.own ⟨"a", "t"⟩ (by rw [h_read]; exact List.mem_cons_self)
    (sampleMessage "t" "control" "embedded") none 0 true
  obtain ⟨h_trace, -⟩ := Prod.mk.inj (Option.some.inj h_exec)
  rw [← h_trace] at h_own
  exact absurd (h_own (by decide) rfl).1 (by decide)

theorem identity_bound_sample : ∃ tr s,
    (nodeMachine sampleStart).RunWhen OwnCredential tr s ∧ IdentityBound sampleStart tr s ∧
      (s.fleet.listOf "a").map HostAgent.mode = ["installed"] := by
  obtain ⟨tr, s, h_exec, h_read⟩ := (nodeMachine sampleStart).exec_reads
    (nodeMachine sampleStart).init
    [.mintToken "b" 0, .identify (sampleMessage "b" "a" "live") none 5,
      .mintAgentToken "a" "t", .ensured 0, .written 0 true, .restart sampleStart,
      .identify (sampleMessage "t" "a" "installed") none 9]
    (fun s => (s.fleet.listOf "a").map HostAgent.mode) ["installed"] (by decide)
  have h_run : (nodeMachine sampleStart).RunWhen OwnCredential tr s :=
    Machine.runWhen_of_exec _ h_exec (by decide)
  exact ⟨tr, s, h_run, identity_bound _ tr s h_run, h_read⟩

end ServerCentral.Agent
