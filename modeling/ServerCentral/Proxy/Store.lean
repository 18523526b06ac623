import ServerCentral.Auth.Store
import ServerCentral.Framework.Machine

/-!
# The proxy store

`ProxyStore` holds the proxy configuration, the routes and the outcome of the last
apply. A call changes memory in one synchronous stretch and then awaits `persist`; the
label of `proxyStoreMachine` says whether the write went through.

A container route renders only on the proxy node. `validateRoute` refuses a route on
another node when it is saved, and `setConfig` refuses to move the proxy away from the
routes it has. `StoreInv` is what the two checks keep together.
-/

open Framework ServerCentral.Auth

namespace ServerCentral.Proxy

/-- A JSON number: an integer, or another number as it prints. -/
inductive JsNumber where
  | int (n : Int)
  | other (text : String)
  deriving DecidableEq, Repr

def JsNumber.text : JsNumber → String
  | .int n => toString n
  | .other text => text

/-- `Number.isInteger(port) && port >= 1 && port <= 65535` -/
def JsNumber.isPort : JsNumber → Bool
  | .int n => decide (1 ≤ n ∧ n ≤ 65535)
  | .other _ => false

inductive CertMode where
  | auto
  | internal
  deriving DecidableEq, Repr

structure ProxyConfig where
  nodeId : String
  acmeEmail : Option String
  certMode : CertMode
  httpPort : Option JsNumber
  httpsPort : Option JsNumber
  deriving DecidableEq, Repr

inductive Scheme where
  | http
  | https
  deriving DecidableEq, Repr

/-- The two kinds of target, and an object of another kind, which the request body can
hold. -/
inductive TargetKind where
  | hostPort (port : JsNumber)
  | container (stackId service networkAlias : String) (port : JsNumber)
  | other (kind networkAlias : String) (port : JsNumber)
  deriving DecidableEq, Repr

structure ProxyRouteTarget where
  nodeId : String
  scheme : Scheme
  insecureSkipVerify : Bool
  kind : TargetKind
  deriving DecidableEq, Repr

/-- `Omit<ProxyRoute, "id">` -/
structure RouteDraft where
  host : String
  pathPrefix : Option String
  target : ProxyRouteTarget
  enabled : Bool
  deriving DecidableEq, Repr

structure ProxyRoute extends RouteDraft where
  id : String
  deriving DecidableEq, Repr

structure ProxyApplyResult where
  ok : Bool
  error : Option String
  timestamp : ℕ
  deriving DecidableEq, Repr

/-! ### Validation -/

/-- `[a-z0-9]([a-z0-9-]*[a-z0-9])?`, ignoring case. -/
def isLabel (cs : List Char) : Bool :=
  cs.all (fun c => c.isAlphanum || c = '-') && cs.head?.any Char.isAlphanum &&
    cs.getLast?.any Char.isAlphanum

/-- `HOST_RE`: dot-separated labels, no wildcards. -/
def isHost (host : String) : Bool := (host.toList.splitOn '.').all isLabel

/-- `PROXY_ALIAS_RE` -/
def isAlias (networkAlias : String) : Bool := isLabel networkAlias.toList

/-- `/^\/[^\s]*$/` -/
def isPathPrefix (path : String) : Bool :=
  path.toList.head? = some '/' && path.toList.all fun c => !isSpace c

def validatePort (port : JsNumber) (what : String) : Except String Unit :=
  if port.isPort then .ok () else .error s!"Invalid {what}: {port.text}"

def orEmpty (s : String) : String := if s = "" then "(empty)" else s

/-- Whether a route may be saved under a configuration. -/
def validateRoute (route : RouteDraft) (config : Option ProxyConfig) : Except String Unit :=
  if !isHost route.host then .error s!"Invalid route host: {orEmpty route.host}"
  else if route.pathPrefix.any fun p => !isPathPrefix p then
    .error "Path prefix must start with \"/\" and contain no spaces"
  else if route.target.nodeId = "" then .error "Route target node is required"
  else
    match route.target.kind with
    | .hostPort port => validatePort port "target port"
    | .container stackId service networkAlias port =>
      match validatePort port "container port" with
      | .error message => .error message
      | .ok () =>
        if stackId = "" ∨ service = "" then .error "Container target needs a stack and a service"
        else if !isAlias networkAlias then .error s!"Invalid network alias: {orEmpty networkAlias}"
        else if config.any fun config => decide (route.target.nodeId ≠ config.nodeId) then
          .error "Container targets must be on the proxy node for now — publish a host port for services on other nodes"
        else .ok ()
    | .other kind _ _ => .error s!"Unknown route target kind: {kind}"

/-- The checks of `setConfig` on the configuration itself. -/
def validateConfig (config : ProxyConfig) : Except String Unit :=
  if config.nodeId = "" then .error "A proxy node is required"
  else
    match [config.httpPort, config.httpsPort].find? fun port => port.any fun p => !p.isPort with
    | some port =>
      let text := (port.map JsNumber.text).getD ""
      .error s!"Invalid proxy port: {text}"
    | none =>
      if config.httpPort ≠ none ∧ config.httpPort = config.httpsPort then
        .error "HTTP and HTTPS ports must differ"
      else .ok ()

/-- Whether a route has a container target. -/
def RouteDraft.isContainer (route : RouteDraft) : Bool :=
  match route.target.kind with
  | .container _ _ _ _ => true
  | _ => false

/-! ### The store -/

structure ProxyStore where
  config : Option ProxyConfig
  routes : List ProxyRoute
  lastApply : Option ProxyApplyResult
  deriving DecidableEq, Repr

namespace ProxyStore

/-- `EMPTY` -/
def empty : ProxyStore := ⟨none, [], none⟩

/-- The container routes that a configuration would leave on another node. -/
def stranded (s : ProxyStore) (config : ProxyConfig) : List ProxyRoute :=
  s.routes.filter fun r => r.isContainer && decide (r.target.nodeId ≠ config.nodeId)

def setConfig (s : ProxyStore) (config : Option ProxyConfig) : Except String ProxyStore :=
  match config with
  | none => .ok { s with config := none }
  | some config =>
    match validateConfig config with
    | .error message => .error message
    | .ok () =>
      if (s.stranded config).length > 0 then
        .error s!"{(s.stranded config).length} container route(s) target the current proxy node — delete them or switch them to host ports before moving the proxy"
      else .ok { s with config := some config }

/-- Save a route under a fresh id. -/
def createRoute (s : ProxyStore) (route : RouteDraft) (id : String) :
    Except String (ProxyStore × ProxyRoute) :=
  match validateRoute route s.config with
  | .error message => .error message
  | .ok () =>
    let created : ProxyRoute := { route with id }
    .ok ({ s with routes := s.routes ++ [created] }, created)

def updateRoute (s : ProxyStore) (route : ProxyRoute) : Except String ProxyStore :=
  match s.routes.findIdx? fun r => decide (r.id = route.id) with
  | none => .error "Unknown route"
  | some idx =>
    match validateRoute route.toRouteDraft s.config with
    | .error message => .error message
    | .ok () => .ok { s with routes := s.routes.set idx route }

def deleteRoute (s : ProxyStore) (routeId : String) : Except String ProxyStore :=
  match s.routes.findIdx? fun r => decide (r.id = routeId) with
  | none => .error "Unknown route"
  | some idx => .ok { s with routes := s.routes.eraseIdx idx }

def setLastApply (s : ProxyStore) (result : ProxyApplyResult) : ProxyStore :=
  { s with lastApply := some result }

end ProxyStore

/-! ### Running -/

inductive ProxyOp where
  | setConfig (config : Option ProxyConfig)
  | createRoute (route : RouteDraft) (id : String)
  | updateRoute (route : ProxyRoute)
  | deleteRoute (routeId : String)
  deriving DecidableEq, Repr

/-- How a call ends: refused by validation, or saved in memory, with the write to the
file going through or not. -/
inductive ProxyOutcome where
  | refused (message : String)
  | saved
  | writeFailed
  deriving DecidableEq, Repr

namespace ProxyStore

/-- The change a call makes in memory, or the message of its error. -/
def change (s : ProxyStore) : ProxyOp → Except String ProxyStore
  | .setConfig config => s.setConfig config
  | .createRoute route id => (s.createRoute route id).map Prod.fst
  | .updateRoute route => s.updateRoute route
  | .deleteRoute routeId => s.deleteRoute routeId

/-- The random source draws no id that is in use. -/
def Fresh (s : ProxyStore) : ProxyOp → Prop
  | .createRoute _ id => id ∉ s.routes.map ProxyRoute.id
  | _ => True

instance (s : ProxyStore) (op : ProxyOp) : Decidable (s.Fresh op) := by
  unfold Fresh
  cases op <;> infer_instance

def call (s : ProxyStore) (op : ProxyOp) (written : Bool) : ProxyStore × ProxyOutcome :=
  match s.change op with
  | .error message => (s, .refused message)
  | .ok s' => (s', if written then .saved else .writeFailed)

end ProxyStore

/-- **The store under every sequence of calls**, started empty. -/
def proxyStoreMachine : Machine ProxyStore (ProxyOp × Bool) ProxyOutcome where
  init := .empty
  step s l := if s.Fresh l.1 then some (s.call l.1 l.2) else none

/-! ### The invariant -/

/-- Every stored route passes the validation under the stored configuration, and no two
routes have one id. -/
structure StoreInv (s : ProxyStore) : Prop where
  valid : ∀ r ∈ s.routes, validateRoute r.toRouteDraft s.config = .ok ()
  ids : (s.routes.map ProxyRoute.id).Nodup

/-- What an accepted container route says about the configuration. -/
theorem validateRoute_container {route : RouteDraft} {config : ProxyConfig}
    (h : validateRoute route (some config) = .ok ()) (h_kind : route.isContainer = true) :
    route.target.nodeId = config.nodeId := by
  unfold validateRoute at h
  split at h
  · exact absurd h (by simp)
  split at h
  · exact absurd h (by simp)
  split at h
  · exact absurd h (by simp)
  cases h_target : route.target.kind with
  | hostPort => rw [RouteDraft.isContainer, h_target] at h_kind; exact absurd h_kind (by simp)
  | other => rw [RouteDraft.isContainer, h_target] at h_kind; exact absurd h_kind (by simp)
  | container stackId service networkAlias port =>
    simp only [h_target] at h
    split at h
    · exact absurd h (by simp)
    split at h
    · exact absurd h (by simp)
    split at h
    · exact absurd h (by simp)
    split at h
    · exact absurd h (by simp)
    · next h_node =>
      simpa using h_node

theorem validateRoute_host {route : RouteDraft} {config : Option ProxyConfig}
    (h : validateRoute route config = .ok ()) : isHost route.host = true := by
  unfold validateRoute at h
  split at h
  · exact absurd h (by simp)
  · next h_host => simpa using h_host

/-- An accepted route is of one of the two kinds. -/
theorem validateRoute_kind {route : RouteDraft} {config : Option ProxyConfig}
    (h : validateRoute route config = .ok ()) :
    (∃ port, route.target.kind = .hostPort port) ∨ route.isContainer = true := by
  cases h_target : route.target.kind with
  | hostPort port => exact .inl ⟨port, rfl⟩
  | container => exact .inr (by rw [RouteDraft.isContainer, h_target])
  | other kind networkAlias port =>
    unfold validateRoute at h
    simp only [h_target] at h
    repeat' split at h
    all_goals exact absurd h (by simp)

/-- The configuration enters the validation only through the node of container routes. -/
theorem validateRoute_congr {route : RouteDraft} {config config' : Option ProxyConfig}
    (h : validateRoute route config = .ok ())
    (h_node : route.isContainer = true → ∀ c, config' = some c → route.target.nodeId = c.nodeId) :
    validateRoute route config' = .ok () := by
  unfold validateRoute at h ⊢
  split at h
  · exact absurd h (by simp)
  next h_host =>
  rw [if_neg h_host]
  split at h
  · exact absurd h (by simp)
  next h_prefix =>
  rw [if_neg h_prefix]
  split at h
  · exact absurd h (by simp)
  next h_target =>
  rw [if_neg h_target]
  cases h_kind : route.target.kind with
  | hostPort port =>
    rw [h_kind] at h
    exact h
  | other kind networkAlias port =>
    rw [h_kind] at h
    exact absurd h (by simp)
  | container stackId service networkAlias port =>
    simp only [h_kind] at h ⊢
    split at h
    · exact absurd h (by simp)
    split at h
    · exact absurd h (by simp)
    next h_service =>
    rw [if_neg h_service]
    split at h
    · exact absurd h (by simp)
    next h_alias =>
    have h_same : ¬config'.any (fun c => decide (route.target.nodeId ≠ c.nodeId)) = true := by
      intro h_any
      cases h_c : config' with
      | none => exact absurd (h_c ▸ h_any) (by simp)
      | some c =>
        rw [h_c] at h_any
        refine absurd (h_node ?_ c h_c) (of_decide_eq_true h_any)
        rw [RouteDraft.isContainer, h_kind]
    rw [if_neg h_alias, if_neg h_same]

/-! ### What a call changes -/

namespace ProxyStore

/-- What a call that is not refused does to the configuration and the routes. -/
inductive Change (s : ProxyStore) : ProxyOp → ProxyStore → Prop
  | cleared : Change s (.setConfig none) { s with config := none }
  | configured (config : ProxyConfig) (h : s.stranded config = []) :
      Change s (.setConfig (some config)) { s with config := some config }
  | created (route : RouteDraft) (id : String) (h : validateRoute route s.config = .ok ()) :
      Change s (.createRoute route id) { s with routes := s.routes ++ [{ route with id }] }
  | updated (route : ProxyRoute) (idx : ℕ) (h_idx : (s.routes.map ProxyRoute.id)[idx]? = some route.id)
      (h : validateRoute route.toRouteDraft s.config = .ok ()) :
      Change s (.updateRoute route) { s with routes := s.routes.set idx route }
  | deleted (routeId : String) (idx : ℕ) :
      Change s (.deleteRoute routeId) { s with routes := s.routes.eraseIdx idx }

theorem id_of_findIdx? {routes : List ProxyRoute} {id : String} {idx : ℕ}
    (h : (routes.findIdx? fun r => decide (r.id = id)) = some idx) :
    (routes.map ProxyRoute.id)[idx]? = some id := by
  obtain ⟨h_lt, h_id, -⟩ := List.findIdx?_eq_some_iff_getElem.mp h
  rw [List.getElem?_map, List.getElem?_eq_getElem h_lt, Option.map_some]
  exact congrArg some (of_decide_eq_true h_id)

theorem change_spec {s s' : ProxyStore} {op : ProxyOp} (h : s.change op = .ok s') :
    s.Change op s' := by
  cases op with
  | setConfig config =>
    cases config with
    | none =>
      obtain rfl := Except.ok.inj h
      exact .cleared
    | some config =>
      simp only [change, setConfig] at h
      split at h
      · exact absurd h (by simp)
      split at h
      · exact absurd h (by simp)
      next h_stranded =>
      obtain rfl := Except.ok.inj h
      exact .configured config (List.eq_nil_of_length_eq_zero (Nat.eq_zero_of_not_pos h_stranded))
  | createRoute route id =>
    simp only [change, createRoute] at h
    split at h
    · exact absurd h (by simp [Except.map])
    next h_valid =>
    obtain rfl := Except.ok.inj h
    exact .created route id h_valid
  | updateRoute route =>
    simp only [change, updateRoute] at h
    split at h
    · exact absurd h (by simp)
    next idx h_idx =>
    split at h
    · exact absurd h (by simp)
    next h_valid =>
    obtain rfl := Except.ok.inj h
    exact .updated route idx (id_of_findIdx? h_idx) h_valid
  | deleteRoute routeId =>
    simp only [change, deleteRoute] at h
    split at h
    · exact absurd h (by simp)
    next idx h_idx =>
    obtain rfl := Except.ok.inj h
    exact .deleted routeId idx

/-- A refused call changes nothing. -/
theorem call_refused {s s' : ProxyStore} {op : ProxyOp} {written : Bool} {message : String}
    (h : s.call op written = (s', .refused message)) : s' = s := by
  unfold call at h
  split at h
  · exact (Prod.mk.inj h).1.symm
  · have h_outcome := (Prod.mk.inj h).2
    cases written <;> exact absurd h_outcome (by simp)

/-- Every call ends with the store as it was, or changed as `Change` says. -/
theorem call_cases {s s' : ProxyStore} {op : ProxyOp} {written : Bool} {outcome : ProxyOutcome}
    (h : s.call op written = (s', outcome)) : s' = s ∨ s.Change op s' := by
  unfold call at h
  split at h
  · exact .inl (Prod.mk.inj h).1.symm
  · next s₁ h_change =>
    obtain rfl := (Prod.mk.inj h).1
    exact .inr (change_spec h_change)

end ProxyStore

/-! ### Runs -/

theorem StoreInv.change {s s' : ProxyStore} {op : ProxyOp} (hi : StoreInv s)
    (h_fresh : s.Fresh op) (h : s.Change op s') : StoreInv s' := by
  cases h with
  | cleared =>
    refine ⟨fun r h_r => ?_, hi.ids⟩
    exact validateRoute_congr (hi.valid r h_r) fun _ c h_c => absurd h_c (by simp)
  | configured config h_stranded =>
    refine ⟨fun r h_r => ?_, hi.ids⟩
    refine validateRoute_congr (hi.valid r h_r) fun h_kind c h_c => ?_
    obtain rfl := Option.some.inj h_c
    have h_not := List.filter_eq_nil_iff.mp h_stranded r h_r
    simpa [h_kind] using h_not
  | created route id h_valid =>
    constructor
    · intro r h_r
      obtain h_r | h_r := List.mem_append.mp h_r
      · exact hi.valid r h_r
      · rw [List.mem_singleton.mp h_r]
        exact h_valid
    · rw [List.map_append]
      refine List.nodup_append'.mpr ⟨hi.ids, List.nodup_singleton _, ?_⟩
      exact List.disjoint_singleton.mpr h_fresh
  | updated route idx h_idx h_valid =>
    constructor
    · intro r h_r
      obtain h_r | h_r := List.mem_or_eq_of_mem_set h_r
      · exact hi.valid r h_r
      · rw [h_r]
        exact h_valid
    · -- the route keeps the id of the one it replaces
      have h_ids : (s.routes.set idx route).map ProxyRoute.id = s.routes.map ProxyRoute.id := by
        obtain ⟨h_lt, h_id⟩ := List.getElem?_eq_some_iff.mp h_idx
        rw [List.map_set, ← h_id]
        exact List.set_getElem_self h_lt
      rw [h_ids]
      exact hi.ids
  | deleted routeId idx =>
    constructor
    · exact fun r h_r => hi.valid r (List.mem_of_mem_eraseIdx h_r)
    · exact hi.ids.sublist ((List.eraseIdx_sublist s.routes idx).map ProxyRoute.id)

theorem proxyStore_step {s s' : ProxyStore} {l : ProxyOp × Bool} {outcome : ProxyOutcome}
    (h : proxyStoreMachine.step s l = some (s', outcome)) :
    s.Fresh l.1 ∧ s.call l.1 l.2 = (s', outcome) := by
  obtain ⟨h_fresh, h_call⟩ := Option.ite_none_right_eq_some.mp h
  exact ⟨h_fresh, Option.some.inj h_call⟩

theorem storeInv_of_run {tr : List ((ProxyOp × Bool) × ProxyOutcome)} {s : ProxyStore}
    (h : proxyStoreMachine.Run tr s) : StoreInv s := by
  have h_init : StoreInv .empty := ⟨fun r h_r => absurd h_r List.not_mem_nil, List.nodup_nil⟩
  refine h.invariant h_init ?_
  intro s l s' outcome hi _ hs
  obtain ⟨h_fresh, h_call⟩ := proxyStore_step hs
  obtain rfl | h_change := ProxyStore.call_cases h_call
  · exact hi
  · exact hi.change h_fresh h_change

end ServerCentral.Proxy
