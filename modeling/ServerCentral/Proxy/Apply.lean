import ServerCentral.Framework.FirstMatch
import ServerCentral.Proxy.Precedence

/-!
# Applying the configuration

A change of the routes is saved first and then pushed to Caddy without blocking the
response: `apply` renders the routes as they are when it starts, sends them through the
agent of the proxy node, and writes the outcome to `lastApply` when the reply arrives.
Nothing orders the pushes. The agent handles them concurrently, Caddy loads them in the
order in which they reach it, and the replies come back in any order or not at all.

`applyMachine` runs changes, applies, loads and replies in every order, with the proxy
configuration and the addresses of the nodes fixed. `applies_in_order` shows that
`lastApply` tells the truth along the runs in which loads and replies keep the order of
the pushes and every save is written; `apply_overtaken` is a run in which a newer push is
overtaken.
-/

open Framework

namespace ServerCentral.Proxy

/-- What the renderer takes from outside. -/
structure ApplyEnv where
  collation : Collation
  resolveNodeIp : String → Except String String

/-- One call of `apply`: the configuration it pushed, unless it failed before; whether
Caddy has loaded it (`some false` when it never will); and whether its outcome has been
recorded. -/
structure Apply where
  body : Option CaddyConfig
  loaded : Option Bool
  settled : Bool
  deriving DecidableEq, Repr

/-- How `httpRequest` ends: the response of Caddy, or a timeout, a lost connection or an
error of the agent. -/
inductive PushReply where
  | response (status : ℕ) (detail : String)
  | failed (message : String)
  deriving DecidableEq, Repr

/-- The store, the changes whose apply has not started yet, the calls of `apply` in the
order in which they started, and the configuration Caddy loaded last. -/
structure ApplyState where
  store : ProxyStore
  starting : ℕ
  applies : List Apply
  caddy : Option CaddyConfig

inductive ApplyLabel where
  /-- A change of the routes, and whether its save is written. -/
  | mutate (op : ProxyOp) (written : Bool)
  /-- An apply starts: an explicit one, or the one of a change. `unreachable` is the error of
  reaching the agent of the proxy node. -/
  | start (explicit : Bool) (unreachable : Option String) (now : ℕ)
  /-- A push reaches Caddy, which loads or rejects it; or it gets lost on the way. -/
  | arrive (push : ℕ) (accepted : Bool)
  /-- The outcome of a push is recorded. -/
  | settle (push : ℕ) (reply : PushReply) (now : ℕ)
  deriving DecidableEq, Repr

/-- The outcome `apply` makes of a reply. -/
def applyResult (reply : PushReply) (now : ℕ) : ProxyApplyResult :=
  match reply with
  | .response status detail =>
    if status = 200 then ⟨true, none, now⟩
    else
      let reason := if detail = "" then "" else s!": {detail}"
      ⟨false, some s!"Caddy rejected the config (HTTP {status}){reason}", now⟩
  | .failed message => ⟨false, some message, now⟩

namespace ApplyState

variable (env : ApplyEnv)

/-- The rendering of the current routes. -/
def rendering (s : ApplyState) : Except String CaddyConfig :=
  match s.store.config with
  | none => .error "No proxy node is configured"
  | some config => renderCaddyConfig env.collation config s.store.routes env.resolveNodeIp

/-- An apply that fails before it has sent anything. -/
def failStart (s : ApplyState) (message : String) (now : ℕ) : ApplyState :=
  { s with
    store := s.store.setLastApply ⟨false, some message, now⟩
    applies := s.applies ++ [⟨none, some false, true⟩] }

/-- The synchronous stretch of `apply`. -/
def startApply (s : ApplyState) (unreachable : Option String) (now : ℕ) : ApplyState :=
  match s.rendering env with
  | .error message => s.failStart message now
  | .ok body =>
    match unreachable with
    | some message => s.failStart message now
    | none => { s with applies := s.applies ++ [⟨some body, none, false⟩] }

/-- A change of the routes. Its apply starts when the save has been written. -/
def mutate (s : ApplyState) (op : ProxyOp) (written : Bool) : ApplyState × ProxyOutcome :=
  let (store, outcome) := s.store.call op written
  ({ s with
      store
      starting := match outcome with
        | .saved => s.starting + 1
        | _ => s.starting }, outcome)

/-- Caddy loads a push atomically, or keeps what it has. -/
def arrive (s : ApplyState) (push : ℕ) (a : Apply) (accepted : Bool) : ApplyState :=
  { s with
    applies := s.applies.set push { a with loaded := some accepted }
    caddy := if accepted then a.body else s.caddy }

/-- The segment of `apply` after the reply. -/
def settle (s : ApplyState) (push : ℕ) (a : Apply) (reply : PushReply) (now : ℕ) : ApplyState :=
  { s with
    store := s.store.setLastApply (applyResult reply now)
    applies := s.applies.set push { a with settled := true } }

/-- Caddy answers 200 exactly to what it has loaded. -/
def answers (a : Apply) : PushReply → Bool
  | .response status _ => decide (a.loaded = some (decide (status = 200)))
  | .failed _ => true

/-- Changes that leave the configuration alone. -/
def isRouteOp : ProxyOp → Bool
  | .setConfig _ => false
  | _ => true

def step (s : ApplyState) : ApplyLabel → Option (ApplyState × Option ProxyOutcome)
  | .mutate op written =>
    if isRouteOp op && decide (s.store.Fresh op) then
      some ((s.mutate op written).1, some (s.mutate op written).2)
    else none
  | .start explicit unreachable now =>
    if explicit then some (s.startApply env unreachable now, none)
    else if s.starting = 0 then none
    else some ({ s.startApply env unreachable now with starting := s.starting - 1 }, none)
  | .arrive push accepted =>
    (s.applies[push]?.filter fun a => a.loaded.isNone).map fun a =>
      (s.arrive push a accepted, none)
  | .settle push reply now =>
    (s.applies[push]?.filter fun a => !a.settled && answers a reply).map fun a =>
      (s.settle push a reply now, none)

/-- No change waits for its apply, and every push has reached its end on both sides. -/
def Quiet (s : ApplyState) : Prop :=
  s.starting = 0 ∧ ∀ a ∈ s.applies, a.loaded ≠ none ∧ a.settled = true

/-- When the last apply is reported as successful, Caddy runs the rendering of the current
routes. -/
def Truthful (s : ApplyState) : Prop :=
  ∀ r, s.store.lastApply = some r → r.ok = true →
    ∃ cfg, s.rendering env = .ok cfg ∧ s.caddy = some cfg

end ApplyState

/-- Where a run starts: a store and a Caddy that agree. -/
structure ApplyStart (env : ApplyEnv) where
  store : ProxyStore
  caddy : Option CaddyConfig
  truthful : (⟨store, 0, [], caddy⟩ : ApplyState).Truthful env

/-- **Applying under every interleaving.** -/
def applyMachine (env : ApplyEnv) (start : ApplyStart env) :
    Machine ApplyState ApplyLabel (Option ProxyOutcome) where
  init := ⟨start.store, 0, [], start.caddy⟩
  step s l := s.step env l

/-- A step that keeps the order of the pushes: a push is loaded before any later one is,
its outcome is recorded before that of any later one, and saves are written. -/
def InOrder (s : ApplyState) : ApplyLabel → Prop
  | .mutate _ written => written = true
  | .start _ _ _ => True
  | .arrive push accepted => accepted = true →
    ∀ a ∈ s.applies.drop (push + 1), a.loaded ≠ some true
  | .settle push _ _ => ∀ a ∈ s.applies.drop (push + 1), a.settled = false

instance (s : ApplyState) (l : ApplyLabel) : Decidable (InOrder s l) := by
  unfold InOrder
  cases l <;> infer_instance

/-! ### The invariant -/

section InOrder

variable {env : ApplyEnv} {start : ApplyStart env}

/-- An apply whose push Caddy has loaded. -/
def Apply.Loaded (a : Apply) : Prop := a.loaded = some true

/-- An apply whose outcome has been recorded. -/
def Apply.Settled (a : Apply) : Prop := a.settled = true

/-- Caddy runs the last push it has loaded, `lastApply` is the outcome of the last apply
that has one, and the last apply has rendered the current routes unless another one is
about to start. -/
structure ApplyInv (start : ApplyStart env) (s : ApplyState) : Prop where
  config : s.store.config = start.store.config
  body : ∀ a ∈ s.applies, a.loaded ≠ some false → ∃ cfg, a.body = some cfg
  caddy : ∀ i a, LastWith Apply.Loaded s.applies i a → s.caddy = a.body
  caddy_start : (∀ a ∈ s.applies, ¬a.Loaded) → s.caddy = start.caddy
  lastApply : ∀ i a, LastWith Apply.Settled s.applies i a →
    ∃ r, s.store.lastApply = some r ∧ (r.ok = true → a.Loaded)
  lastApply_start : (∀ a ∈ s.applies, ¬a.Settled) → s.store.lastApply = start.store.lastApply
  current : s.starting = 0 → ∀ a, s.applies.getLast? = some a → ∀ cfg, a.body = some cfg →
    s.rendering env = .ok cfg
  current_start : s.starting = 0 → s.applies = [] → s.store.routes = start.store.routes

theorem applyInv_init : ApplyInv start (applyMachine env start).init := by
  constructor
  case config => rfl
  case body => exact fun a h => absurd h List.not_mem_nil
  case caddy => exact fun i a h => absurd h.at_index (by simp [applyMachine])
  case caddy_start => exact fun _ => rfl
  case lastApply => exact fun i a h => absurd h.at_index (by simp [applyMachine])
  case lastApply_start => exact fun _ => rfl
  case current => exact fun _ a h => absurd h (by simp [applyMachine])
  case current_start => exact fun _ _ => rfl

/-- What a rendering depends on. -/
theorem rendering_congr {s s' : ApplyState} (h_config : s'.store.config = s.store.config)
    (h_routes : s'.store.routes = s.store.routes) : s'.rendering env = s.rendering env := by
  rw [ApplyState.rendering, ApplyState.rendering, h_config, h_routes]

/-- A change that leaves the configuration alone, and what it waits for. -/
theorem mutate_cases {s : ApplyState} {op : ProxyOp} (h_op : ApplyState.isRouteOp op = true)
    {s' : ApplyState} {outcome : ProxyOutcome} (h : s.mutate op true = (s', outcome)) :
    s' = s ∨ s'.applies = s.applies ∧ s'.caddy = s.caddy ∧ s'.starting = s.starting + 1 ∧
      s'.store.config = s.store.config ∧ s'.store.lastApply = s.store.lastApply := by
  unfold ApplyState.mutate ProxyStore.call at h
  cases h_change : s.store.change op with
  | error message =>
    rw [h_change] at h
    exact .inl (Prod.mk.inj h).1.symm
  | ok store =>
    rw [h_change] at h
    obtain rfl := (Prod.mk.inj h).1
    right
    cases ProxyStore.change_spec h_change with
    | cleared => exact absurd h_op (by simp [ApplyState.isRouteOp])
    | configured => exact absurd h_op (by simp [ApplyState.isRouteOp])
    | created => exact ⟨rfl, rfl, rfl, rfl, rfl⟩
    | updated => exact ⟨rfl, rfl, rfl, rfl, rfl⟩
    | deleted => exact ⟨rfl, rfl, rfl, rfl, rfl⟩

theorem ApplyInv.mutate {s s' : ApplyState} (hi : ApplyInv start s) {op : ProxyOp}
    (h_op : ApplyState.isRouteOp op = true) {outcome : ProxyOutcome}
    (h : s.mutate op true = (s', outcome)) : ApplyInv start s' := by
  obtain rfl | ⟨h_applies, h_caddy, h_starting, h_config, h_last⟩ := mutate_cases h_op h
  · exact hi
  · have h_pending : s'.starting ≠ 0 := by omega
    constructor
    case config => exact h_config.trans hi.config
    case body => exact h_applies ▸ hi.body
    case caddy =>
      rw [h_applies, h_caddy]
      exact hi.caddy
    case caddy_start =>
      rw [h_applies, h_caddy]
      exact hi.caddy_start
    case lastApply =>
      rw [h_applies, h_last]
      exact hi.lastApply
    case lastApply_start =>
      rw [h_applies, h_last]
      exact hi.lastApply_start
    case current => exact fun h_zero => absurd h_zero h_pending
    case current_start => exact fun h_zero => absurd h_zero h_pending

/-- An apply is added, which Caddy has not loaded. -/
theorem ApplyInv.append {s s' : ApplyState} (hi : ApplyInv start s) {a : Apply}
    (h_applies : s'.applies = s.applies ++ [a]) (h_caddy : s'.caddy = s.caddy)
    (h_config : s'.store.config = s.store.config) (h_loaded : ¬a.Loaded)
    (h_body : a.loaded ≠ some false → ∃ cfg, a.body = some cfg)
    (h_current : ∀ cfg, a.body = some cfg → s'.rendering env = .ok cfg)
    (h_last : a.Settled ∧ (∃ r, s'.store.lastApply = some r ∧ r.ok = false) ∨
      ¬a.Settled ∧ s'.store.lastApply = s.store.lastApply) : ApplyInv start s' := by
  have h_mem : ∀ b ∈ s.applies, b ∈ s'.applies := by
    intro b h_b
    rw [h_applies]
    exact List.mem_append_left _ h_b
  constructor
  case config => exact h_config.trans hi.config
  case body =>
    intro b h_b
    rw [h_applies] at h_b
    obtain h_b | h_b := List.mem_append.mp h_b
    · exact hi.body b h_b
    · obtain rfl := List.mem_singleton.mp h_b
      exact h_body
  case caddy =>
    intro i b h_b
    rw [h_applies] at h_b
    rw [h_caddy]
    exact hi.caddy i b (h_b.of_append h_loaded)
  case caddy_start =>
    intro h_none
    rw [h_caddy]
    exact hi.caddy_start fun b h_b => h_none b (h_mem b h_b)
  case lastApply =>
    intro i b h_b
    rw [h_applies] at h_b
    obtain ⟨h_settled, r, h_r, h_not⟩ | ⟨h_settled, h_same⟩ := h_last
    · exact ⟨r, h_r, fun h_ok => absurd h_ok (by simp [h_not])⟩
    · rw [h_same]
      exact hi.lastApply i b (h_b.of_append h_settled)
  case lastApply_start =>
    intro h_none
    obtain ⟨h_settled, -⟩ | ⟨-, h_same⟩ := h_last
    · have h_a : a ∈ s'.applies := by
        rw [h_applies]
        exact List.mem_append_right _ List.mem_cons_self
      exact absurd h_settled (h_none a h_a)
    · rw [h_same]
      exact hi.lastApply_start fun b h_b => h_none b (h_mem b h_b)
  case current =>
    intro _ b h_b
    rw [h_applies, List.getLast?_concat] at h_b
    obtain rfl := Option.some.inj h_b
    exact h_current
  case current_start =>
    intro _ h_nil
    exact absurd (h_applies.symm.trans h_nil) (by simp)

theorem ApplyInv.startApply {s : ApplyState} (hi : ApplyInv start s)
    (unreachable : Option String) (now k : ℕ) :
    ApplyInv start { s.startApply env unreachable now with starting := k } := by
  have h_fail : ∀ message,
      ApplyInv start { s.failStart message now with starting := k } := by
    intro message
    refine hi.append rfl rfl rfl (by simp [Apply.Loaded]) (fun h => absurd rfl h)
      (fun cfg h => absurd h (by simp)) (.inl ⟨rfl, _, rfl, rfl⟩)
  unfold ApplyState.startApply
  cases h_render : s.rendering env with
  | error message => exact h_fail message
  | ok body =>
    cases unreachable with
    | some message => exact h_fail message
    | none =>
      refine hi.append rfl rfl rfl (by simp [Apply.Loaded]) (fun _ => ⟨body, rfl⟩) ?_
        (.inr ⟨by simp [Apply.Settled], rfl⟩)
      intro cfg h_cfg
      obtain rfl := Option.some.inj h_cfg
      exact h_render

/-- An entry after a position stands in the rest of the list. -/
theorem mem_drop_of_getElem? {l : List Apply} {i j : ℕ} {b : Apply} (h_lt : i < j)
    (h : l[j]? = some b) : b ∈ l.drop (i + 1) := by
  refine List.mem_iff_getElem?.mpr ⟨j - (i + 1), ?_⟩
  rw [List.getElem?_drop, show i + 1 + (j - (i + 1)) = j by omega]
  exact h

/-- The last of the applies, when an entry is replaced. -/
theorem getLast?_set_of_body {l : List Apply} {i : ℕ} {a a' b : Apply} (h_i : l[i]? = some a)
    (h_body : a'.body = a.body) (h : (l.set i a').getLast? = some b) :
    ∃ b₀, l.getLast? = some b₀ ∧ b.body = b₀.body := by
  rw [List.getLast?_eq_getElem?, List.length_set] at h
  by_cases h_last : i = l.length - 1
  · rw [← h_last, List.getElem?_set_self (List.getElem?_eq_some_iff.mp h_i).1] at h
    obtain rfl := Option.some.inj h
    refine ⟨a, ?_, h_body⟩
    rw [List.getLast?_eq_getElem?, ← h_last]
    exact h_i
  · rw [List.getElem?_set_ne h_last] at h
    refine ⟨b, ?_, rfl⟩
    rw [List.getLast?_eq_getElem?]
    exact h

/-- An apply is replaced by one with the same body: it is loaded as the last one that is,
or Caddy keeps what it has; and its outcome is recorded as the last one that is, or
`lastApply` keeps what it has. -/
theorem ApplyInv.replace {s s' : ApplyState} (hi : ApplyInv start s) {push : ℕ} {a a' : Apply}
    (h_a : s.applies[push]? = some a) (h_applies : s'.applies = s.applies.set push a')
    (h_starting : s'.starting = s.starting) (h_config : s'.store.config = s.store.config)
    (h_routes : s'.store.routes = s.store.routes) (h_body : a'.body = a.body)
    (h_refused : a'.loaded ≠ some false → a.loaded ≠ some false)
    (h_kept : a.Loaded → a'.Loaded)
    (h_caddy : (a'.Loaded ↔ a.Loaded) ∧ s'.caddy = s.caddy ∨
      a'.Loaded ∧ s'.caddy = a.body ∧ ∀ b ∈ s.applies.drop (push + 1), ¬b.Loaded)
    (h_last : (a'.Settled ↔ a.Settled) ∧ s'.store.lastApply = s.store.lastApply ∨
      a'.Settled ∧ (∃ r, s'.store.lastApply = some r ∧ (r.ok = true → a'.Loaded)) ∧
        ∀ b ∈ s.applies.drop (push + 1), ¬b.Settled) : ApplyInv start s' := by
  have h_len := (List.getElem?_eq_some_iff.mp h_a).1
  have h_mem : a ∈ s.applies := List.mem_iff_getElem?.mpr ⟨push, h_a⟩
  have h_new : a' ∈ s'.applies := by
    rw [h_applies]
    exact List.mem_iff_getElem?.mpr ⟨push, List.getElem?_set_self h_len⟩
  -- the entries that are not replaced stay
  have h_old : ∀ b ∈ s.applies, b = a ∨ b ∈ s'.applies := by
    intro b h_b
    obtain ⟨j, h_j⟩ := List.mem_iff_getElem?.mp h_b
    by_cases h_jp : push = j
    · rw [← h_jp, h_a] at h_j
      exact .inl (Option.some.inj h_j).symm
    · refine .inr (List.mem_iff_getElem?.mpr ⟨j, ?_⟩)
      rw [h_applies, List.getElem?_set_ne h_jp]
      exact h_j
  constructor
  case config => exact h_config.trans hi.config
  case body =>
    intro b h_b h_loaded
    rw [h_applies] at h_b
    obtain h_b | rfl := List.mem_or_eq_of_mem_set h_b
    · exact hi.body b h_b h_loaded
    · obtain ⟨cfg, h_cfg⟩ := hi.body a h_mem (h_refused h_loaded)
      exact ⟨cfg, h_body.trans h_cfg⟩
  case caddy =>
    intro i b h_b
    rw [h_applies] at h_b
    obtain ⟨h_iff, h_same⟩ | ⟨h_loaded, h_body_new, h_none⟩ := h_caddy
    · rw [h_same]
      obtain ⟨b₀, h_b₀, rfl | ⟨rfl, rfl⟩⟩ := h_b.of_set h_a h_iff
      · exact hi.caddy i b h_b₀
      · exact (hi.caddy i b₀ h_b₀).trans h_body.symm
    · obtain rfl := h_b.eq_of_set h_a h_loaded fun j c h_j h_c =>
        h_none c (mem_drop_of_getElem? h_j h_c)
      exact h_body_new.trans h_body.symm
  case caddy_start =>
    intro h_all
    obtain ⟨h_iff, h_same⟩ | ⟨h_loaded, -, -⟩ := h_caddy
    · rw [h_same]
      refine hi.caddy_start fun b h_b h_loaded => ?_
      obtain rfl | h_b := h_old b h_b
      · exact h_all a' h_new (h_iff.mpr h_loaded)
      · exact h_all b h_b h_loaded
    · exact absurd h_loaded (h_all a' h_new)
  case lastApply =>
    intro i b h_b
    rw [h_applies] at h_b
    obtain ⟨h_iff, h_same⟩ | ⟨h_settled, h_result, h_none⟩ := h_last
    · rw [h_same]
      obtain ⟨b₀, h_b₀, rfl | ⟨rfl, rfl⟩⟩ := h_b.of_set h_a h_iff
      · exact hi.lastApply i b h_b₀
      · obtain ⟨r, h_r, h_ok⟩ := hi.lastApply i b₀ h_b₀
        exact ⟨r, h_r, fun h => h_kept (h_ok h)⟩
    · obtain rfl := h_b.eq_of_set h_a h_settled fun j c h_j h_c =>
        h_none c (mem_drop_of_getElem? h_j h_c)
      exact h_result
  case lastApply_start =>
    intro h_all
    obtain ⟨h_iff, h_same⟩ | ⟨h_settled, -, -⟩ := h_last
    · rw [h_same]
      refine hi.lastApply_start fun b h_b h_settled => ?_
      obtain rfl | h_b := h_old b h_b
      · exact h_all a' h_new (h_iff.mpr h_settled)
      · exact h_all b h_b h_settled
    · exact absurd h_settled (h_all a' h_new)
  case current =>
    intro h_zero b h_b cfg h_cfg
    rw [h_applies] at h_b
    obtain ⟨b₀, h_b₀, h_same⟩ := getLast?_set_of_body h_a h_body h_b
    rw [rendering_congr h_config h_routes]
    exact hi.current (h_starting ▸ h_zero) b₀ h_b₀ cfg (h_same ▸ h_cfg)
  case current_start =>
    intro _ h_nil
    exact absurd (h_nil ▸ h_new) List.not_mem_nil

theorem ApplyInv.arrive {s : ApplyState} (hi : ApplyInv start s) {push : ℕ} {a : Apply}
    {accepted : Bool} (h_a : s.applies[push]? = some a) (h_pending : a.loaded = none)
    (h_order : accepted = true → ∀ b ∈ s.applies.drop (push + 1), b.loaded ≠ some true) :
    ApplyInv start (s.arrive push a accepted) := by
  have h_not : ¬a.Loaded := by simp [Apply.Loaded, h_pending]
  refine hi.replace h_a rfl rfl rfl rfl rfl (fun _ => by simp [h_pending])
    (fun h => absurd h h_not) ?_ (.inl ⟨Iff.rfl, rfl⟩)
  cases accepted with
  | true => exact .inr ⟨rfl, rfl, h_order rfl⟩
  | false => exact .inl ⟨⟨fun h => absurd h (by simp [Apply.Loaded]), fun h => absurd h h_not⟩, rfl⟩

/-- A reply that reports success answers a push that Caddy has loaded. -/
theorem loaded_of_ok {a : Apply} {reply : PushReply} {now : ℕ}
    (h : ApplyState.answers a reply = true) (h_ok : (applyResult reply now).ok = true) :
    a.Loaded := by
  cases reply with
  | failed message => exact absurd h_ok (by simp [applyResult])
  | response status detail =>
    have h_loaded : a.loaded = some (decide (status = 200)) := of_decide_eq_true h
    by_cases h_status : status = 200
    · rw [decide_eq_true h_status] at h_loaded
      exact h_loaded
    · rw [applyResult, if_neg h_status] at h_ok
      exact absurd h_ok (by simp)

theorem ApplyInv.settle {s : ApplyState} (hi : ApplyInv start s) {push : ℕ} {a : Apply}
    {reply : PushReply} {now : ℕ} (h_a : s.applies[push]? = some a)
    (h_reply : ApplyState.answers a reply = true)
    (h_order : ∀ b ∈ s.applies.drop (push + 1), b.settled = false) :
    ApplyInv start (s.settle push a reply now) := by
  refine hi.replace h_a rfl rfl rfl rfl rfl id id (.inl ⟨Iff.rfl, rfl⟩) (.inr ⟨rfl, ?_, ?_⟩)
  · exact ⟨_, rfl, fun h_ok => loaded_of_ok h_reply h_ok⟩
  · intro b h_b h_settled
    exact absurd h_settled (by simp [Apply.Settled, h_order b h_b])

/-- **The invariant is kept** by every step that keeps the order. -/
theorem ApplyInv.step {s s' : ApplyState} {l : ApplyLabel} {o : Option ProxyOutcome}
    (hi : ApplyInv start s) (h_ok : InOrder s l)
    (hs : (applyMachine env start).step s l = some (s', o)) : ApplyInv start s' := by
  cases l with
  | mutate op written =>
    have hs : (if ApplyState.isRouteOp op && decide (s.store.Fresh op) then
      some ((s.mutate op written).1, some (s.mutate op written).2) else none) = some (s', o) := hs
    split at hs
    case isTrue h_guard =>
      obtain rfl : written = true := h_ok
      have h_op := (Bool.and_eq_true _ _ ▸ h_guard).1
      obtain rfl := (Prod.mk.inj (Option.some.inj hs)).1
      exact hi.mutate h_op rfl
    case isFalse => exact absurd hs (by simp)
  | start explicit unreachable now =>
    have hs : (if explicit then some (s.startApply env unreachable now, none)
      else if s.starting = 0 then none
      else some ({ s.startApply env unreachable now with starting := s.starting - 1 }, none)) =
        some (s', o) := hs
    split at hs
    case isTrue =>
      obtain rfl := (Prod.mk.inj (Option.some.inj hs)).1
      exact hi.startApply unreachable now _
    case isFalse =>
      split at hs
      case isTrue => exact absurd hs (by simp)
      case isFalse =>
        obtain rfl := (Prod.mk.inj (Option.some.inj hs)).1
        exact hi.startApply unreachable now _
  | arrive push accepted =>
    obtain ⟨a, h_a, h_eq⟩ := Option.map_eq_some_iff.mp hs
    obtain ⟨h_a, h_pending⟩ := Option.filter_eq_some_iff.mp h_a
    obtain rfl := (Prod.mk.inj h_eq).1
    exact hi.arrive h_a (Option.isNone_iff_eq_none.mp h_pending) h_ok
  | settle push reply now =>
    obtain ⟨a, h_a, h_eq⟩ := Option.map_eq_some_iff.mp hs
    obtain ⟨h_a, h_guard⟩ := Option.filter_eq_some_iff.mp h_a
    obtain rfl := (Prod.mk.inj h_eq).1
    exact hi.settle h_a (Bool.and_eq_true _ _ ▸ h_guard).2 h_ok

theorem applyInv_run {tr : List (ApplyLabel × Option ProxyOutcome)} {s : ApplyState}
    (h : (applyMachine env start).RunWhen InOrder tr s) : ApplyInv start s :=
  h.invariant applyInv_init fun _ _ _ _ hi h_ok hs => hi.step h_ok hs

/-- The invariant, in a quiet state. -/
theorem ApplyInv.truthful {s : ApplyState} (hi : ApplyInv start s) (h_quiet : s.Quiet) :
    s.Truthful env := by
  intro r h_r h_ok
  cases h_last : s.applies.getLast? with
  | none =>
    -- nothing has been applied: the routes, `lastApply` and Caddy are those of the start
    have h_nil : s.applies = [] := List.getLast?_eq_none_iff.mp h_last
    have h_none : ∀ p : Apply → Prop, ∀ a ∈ s.applies, ¬p a := by
      intro p a h_a
      rw [h_nil] at h_a
      exact absurd h_a List.not_mem_nil
    have h_routes := hi.current_start h_quiet.1 h_nil
    rw [hi.lastApply_start (h_none _)] at h_r
    obtain ⟨cfg, h_render, h_caddy⟩ := start.truthful r h_r h_ok
    refine ⟨cfg, ?_, (hi.caddy_start (h_none _)).trans h_caddy⟩
    rw [← h_render]
    exact rendering_congr hi.config h_routes
  | some a =>
    have h_a : a ∈ s.applies := List.mem_of_getLast? h_last
    have h_settled : a.Settled := (h_quiet.2 a h_a).2
    obtain ⟨r', h_r', h_loaded⟩ := hi.lastApply _ a (LastWith.of_getLast h_last h_settled)
    obtain rfl : r' = r := Option.some.inj (h_r'.symm.trans h_r)
    have h_loaded : a.Loaded := h_loaded h_ok
    obtain ⟨cfg, h_cfg⟩ := hi.body a h_a (by simp [show a.loaded = some true from h_loaded])
    refine ⟨cfg, hi.current h_quiet.1 a h_last cfg h_cfg, ?_⟩
    rw [hi.caddy _ a (LastWith.of_getLast h_last h_loaded)]
    exact h_cfg

end InOrder

/-! ### The theorem -/

/-- **Applying in order.** Along every run in which saves are written, pushes are loaded in
the order in which they started, and so are their outcomes recorded: once no push is
outstanding, a successful `lastApply` says that Caddy runs the rendering of the current
routes. Pushes may be rejected or lost, and replies may fail. -/
theorem applies_in_order (env : ApplyEnv) (start : ApplyStart env)
    {tr : List (ApplyLabel × Option ProxyOutcome)} {s : ApplyState}
    (h : (applyMachine env start).RunWhen InOrder tr s) (h_quiet : s.Quiet) : s.Truthful env :=
  (applyInv_run h).truthful h_quiet

/-- A proxy node without routes. -/
def sampleEnv : ApplyEnv := ⟨rootCollation, sampleIp⟩

def sampleStart : ApplyStart sampleEnv where
  store := ⟨some (sampleConfig "a"), [], none⟩
  caddy := none
  truthful := fun _ h => absurd h (by simp)

/-- A route is created and deleted again; each change starts a push, and `loads` is the
order in which Caddy loads the two. -/
def createdDeleted (loads : List ℕ) : List ApplyLabel :=
  [.mutate (.createRoute (sampleContainer "jf.example.com" "a") "r1") true,
    .start false none 1,
    .mutate (.deleteRoute "r1") true,
    .start false none 2] ++
  loads.map (fun push => .arrive push true) ++
  [.settle 0 (.response 200 "") 3,
    .settle 1 (.response 200 "") 4]

instance (s : ApplyState) : Decidable s.Quiet := by
  unfold ApplyState.Quiet
  infer_instance

/-- What the routes are, what Caddy serves, whether `lastApply` is ok, and whether the
state is quiet. -/
def readApplied (s : ApplyState) : List String × Option (List String) × Option Bool × Bool :=
  (s.store.routes.map (fun r => r.host), s.caddy.map fun cfg => cfg.routes.map CaddyRoute.host,
    s.store.lastApply.map ProxyApplyResult.ok, decide s.Quiet)

theorem applies_in_order_sample : ∃ tr s,
    (applyMachine sampleEnv sampleStart).RunWhen InOrder tr s ∧
    readApplied s = ([], some [], some true, true) ∧ s.Truthful sampleEnv := by
  obtain ⟨tr, s, h_exec, h_reads⟩ := Machine.exec_reads (applyMachine sampleEnv sampleStart)
    (applyMachine sampleEnv sampleStart).init (createdDeleted [0, 1]) readApplied
    ([], some [], some true, true) (by decide +kernel)
  have h_run : (applyMachine sampleEnv sampleStart).RunWhen InOrder tr s :=
    Machine.runWhen_of_exec _ h_exec (by decide +kernel)
  have h_quiet : s.Quiet := of_decide_eq_true (congrArg (fun p => p.2.2.2) h_reads)
  exact ⟨tr, s, h_run, h_reads, applies_in_order sampleEnv sampleStart h_run h_quiet⟩

/-- **An apply is overtaken**: the push of the deletion reaches Caddy before that of the
creation. Both are answered with 200, `lastApply` is ok, and Caddy serves a route the
store no longer has. -/
theorem apply_overtaken : ¬∀ (env : ApplyEnv) (start : ApplyStart env)
    (tr : List (ApplyLabel × Option ProxyOutcome)) (s : ApplyState),
    (applyMachine env start).Run tr s → s.Quiet → s.Truthful env := by
  intro h
  obtain ⟨tr, s, h_exec, h_reads⟩ := Machine.exec_reads (applyMachine sampleEnv sampleStart)
    (applyMachine sampleEnv sampleStart).init (createdDeleted [1, 0])
    (fun s => (readApplied s, s.rendering sampleEnv |>.toOption.map fun cfg => cfg.routes.length))
    (([], some ["jf.example.com"], some true, true), some 0) (by decide +kernel)
  obtain ⟨h_read, h_rendering⟩ := Prod.mk.inj h_reads
  have h_quiet : s.Quiet := of_decide_eq_true (congrArg (fun p => p.2.2.2) h_read)
  have h_last : s.store.lastApply.map ProxyApplyResult.ok = some true :=
    congrArg (fun p => p.2.2.1) h_read
  have h_caddy : (s.caddy.map fun cfg => cfg.routes.map CaddyRoute.host) =
      some ["jf.example.com"] := congrArg (fun p => p.2.1) h_read
  obtain ⟨r, h_r, h_ok⟩ := Option.map_eq_some_iff.mp h_last
  obtain ⟨cfg, h_render, h_cfg⟩ := h sampleEnv sampleStart tr s (Machine.run_of_exec _ h_exec)
    h_quiet r h_r h_ok
  rw [h_render] at h_rendering
  have h_none : cfg.routes.length = 0 := Option.some.inj h_rendering
  rw [h_cfg] at h_caddy
  have h_one := congrArg List.length (Option.some.inj h_caddy)
  rw [List.length_map, h_none] at h_one
  exact absurd h_one (by simp)

end ServerCentral.Proxy
