import Mathlib.Data.List.Sort
import ServerCentral.Framework.Failing
import ServerCentral.Proxy.Store

/-!
# The rendered Caddy configuration

`renderCaddyConfig` turns the stored routes into the configuration that is pushed to
Caddy's admin API. The order of the rendered routes decides which one answers a request,
and it comes from a sort by host and length of the path prefix.

`localeCompare` depends on the locale; `Collation` holds what the language guarantees of
it. The addresses of the nodes come from `resolveNodeIp`, which is a parameter of the
renderer in the code as well.

Routes the store has accepted render unless the address of a node is unknown
(`store_renders`).
-/

open Framework ServerCentral.Auth

namespace ServerCentral.Proxy

/-- `String.prototype.localeCompare`: a consistent comparison of all strings, under which
no two valid host names count as equal. -/
structure Collation where
  localeCompare : String → String → Int
  antisymm : ∀ a b, 0 < localeCompare a b ↔ localeCompare b a < 0
  trans : ∀ a b c, localeCompare a b ≤ 0 → localeCompare b c ≤ 0 → localeCompare a c ≤ 0
  hosts : ∀ a b, isHost a → isHost b → localeCompare a b = 0 → a = b

/-- What Caddy dials for a route target. -/
def upstreamDial (config : ProxyConfig) (target : ProxyRouteTarget)
    (resolveNodeIp : String → Except String String) : Except String String :=
  let container (networkAlias : String) (port : JsNumber) : Except String String :=
    if target.nodeId ≠ config.nodeId then
      .error s!"Container target {networkAlias} is on another node than the proxy — cross-node container routes aren't supported yet"
    else .ok s!"{networkAlias}:{port.text}"
  match target.kind with
  | .hostPort port => (resolveNodeIp target.nodeId).map fun ip => s!"{ip}:{port.text}"
  | .container _ _ networkAlias port => container networkAlias port
  | .other _ networkAlias port => container networkAlias port

/-- One rendered route: its host matcher, its path matchers if it has any, the upstream,
and whether the transport uses TLS and skips its verification. -/
structure CaddyRoute where
  host : String
  path : Option (List String)
  dial : String
  tls : Option Bool
  deriving DecidableEq, Repr

inductive CaddyIssuer where
  | internal
  | acme (email : String)
  deriving DecidableEq, Repr

structure CaddyConfig where
  adminListen : String
  listen : List String
  routes : List CaddyRoute
  tlsPolicy : Option CaddyIssuer
  deriving DecidableEq, Repr

/-- `(pathPrefix?.length ?? -1)` -/
def prefixLength (r : ProxyRoute) : Int :=
  match r.pathPrefix with
  | some p => jsLength p
  | none => -1

/-- The comparison of the sort. -/
def compareRoutes (collation : Collation) (a b : ProxyRoute) : Int :=
  if a.host ≠ b.host then collation.localeCompare a.host b.host
  else prefixLength b - prefixLength a

/-- The enabled routes in the order they are rendered in. `sort` is stable. -/
def orderedRoutes (collation : Collation) (routes : List ProxyRoute) : List ProxyRoute :=
  (routes.filter fun r => r.enabled).mergeSort fun a b => decide (compareRoutes collation a b ≤ 0)

/-- `r.pathPrefix.replace(/\/$/, "")` -/
def dropTrailingSlash (p : String) : String :=
  if p.toList.getLast? = some '/' then .ofList p.toList.dropLast else p

/-- The path matchers of a route: everything under its prefix, and the prefix itself. -/
def pathMatchers (r : ProxyRoute) : Option (List String) :=
  (r.pathPrefix.filter fun p => decide (p ≠ "")).map fun p => [s!"{dropTrailingSlash p}/*", p]

def renderRoute (config : ProxyConfig) (resolveNodeIp : String → Except String String)
    (r : ProxyRoute) : Except String CaddyRoute :=
  (upstreamDial config r.target resolveNodeIp).map fun dial =>
    { host := r.host
      path := pathMatchers r
      dial
      tls := if r.target.scheme = .https then some r.target.insecureSkipVerify else none }

/-- The full configuration for the current routes, or the error of the first one that
does not render. -/
def renderCaddyConfig (collation : Collation) (config : ProxyConfig) (routes : List ProxyRoute)
    (resolveNodeIp : String → Except String String) : Except String CaddyConfig :=
  ((orderedRoutes collation routes).mapM (renderRoute config resolveNodeIp)).map fun caddyRoutes =>
    { adminListen := "0.0.0.0:2019"
      listen := [":443"]
      routes := caddyRoutes
      tlsPolicy :=
        if config.certMode = .internal then some .internal
        else (config.acmeEmail.filter fun email => decide (email ≠ "")).map .acme }

/-! ### Rendering the stored routes -/

theorem mem_orderedRoutes {collation : Collation} {routes : List ProxyRoute} {r : ProxyRoute} :
    r ∈ orderedRoutes collation routes ↔ r ∈ routes ∧ r.enabled = true := by
  rw [orderedRoutes, List.mem_mergeSort, List.mem_filter]

/-- A stored route of either kind dials: a container by its alias, a host port at the
address of its node. -/
theorem StoreInv.dials {s : ProxyStore} (hi : StoreInv s) {config : ProxyConfig}
    (h_config : s.config = some config) {r : ProxyRoute} (h_r : r ∈ s.routes)
    (resolveNodeIp : String → Except String String) :
    (∃ dial, upstreamDial config r.target resolveNodeIp = .ok dial) ∨
      ∃ port message, r.target.kind = .hostPort port ∧
        resolveNodeIp r.target.nodeId = .error message ∧
        upstreamDial config r.target resolveNodeIp = .error message := by
  have h_valid := hi.valid r h_r
  rw [h_config] at h_valid
  obtain ⟨port, h_kind⟩ | h_kind := validateRoute_kind h_valid
  · cases h_ip : resolveNodeIp r.target.nodeId with
    | ok ip =>
      left
      rw [upstreamDial, h_kind]
      dsimp only
      rw [h_ip]
      exact ⟨_, rfl⟩
    | error message =>
      right
      refine ⟨port, message, h_kind, rfl, ?_⟩
      rw [upstreamDial, h_kind]
      dsimp only
      rw [h_ip]
      rfl
  · have h_node := validateRoute_container h_valid h_kind
    left
    cases h_target : r.target.kind with
    | hostPort =>
      rw [RouteDraft.isContainer, h_target] at h_kind
      exact absurd h_kind (by simp)
    | other =>
      rw [RouteDraft.isContainer, h_target] at h_kind
      exact absurd h_kind (by simp)
    | container stackId service networkAlias port =>
      rw [upstreamDial, h_target]
      dsimp only
      rw [if_neg (not_not.mpr h_node)]
      exact ⟨_, rfl⟩

/-- **Rendering the stored routes** fails only where the address of the node of a
host-port route is unknown. -/
theorem StoreInv.renders {s : ProxyStore} (hi : StoreInv s) {config : ProxyConfig}
    (h_config : s.config = some config) (collation : Collation)
    {resolveNodeIp : String → Except String String} {message : String}
    (h : renderCaddyConfig collation config s.routes resolveNodeIp = .error message) :
    ∃ r ∈ s.routes, r.enabled = true ∧ (∃ port, r.target.kind = .hostPort port) ∧
      resolveNodeIp r.target.nodeId = .error message := by
  have h_map : (orderedRoutes collation s.routes).mapM (renderRoute config resolveNodeIp) =
      .error message := by
    rw [renderCaddyConfig] at h
    cases h_routes : (orderedRoutes collation s.routes).mapM (renderRoute config resolveNodeIp) with
    | error m =>
      rw [h_routes] at h
      exact congrArg Except.error (Except.error.inj h)
    | ok caddyRoutes =>
      rw [h_routes] at h
      exact absurd h (by simp [Except.map])
  obtain ⟨r, h_mem, h_fail⟩ := mapM_error h_map
  obtain ⟨h_r, h_enabled⟩ := (mem_orderedRoutes).mp h_mem
  rw [renderRoute] at h_fail
  obtain ⟨dial, h_dial⟩ | ⟨port, m, h_kind, h_ip, h_dial⟩ := hi.dials h_config h_r resolveNodeIp
  · rw [h_dial] at h_fail
    exact absurd h_fail (by simp [Except.map])
  · rw [h_dial] at h_fail
    obtain rfl : m = message := Except.error.inj h_fail
    exact ⟨r, h_r, h_enabled, ⟨port, h_kind⟩, h_ip⟩

/-- What the store guarantees for the renderer. -/
structure StoreSafe (s : ProxyStore) : Prop where
  ids : (s.routes.map ProxyRoute.id).Nodup
  container : ∀ config, s.config = some config → ∀ r ∈ s.routes, r.isContainer = true →
    r.target.nodeId = config.nodeId
  valid : ∀ config, s.config = some config → ∀ r ∈ s.routes,
    validateRoute r.toRouteDraft (some config) = .ok ()
  /-- A dial that fails does so with the error of the resolver, at a host port. -/
  dials : ∀ config, s.config = some config → ∀ r ∈ s.routes, ∀ resolveNodeIp,
    (∃ dial, upstreamDial config r.target resolveNodeIp = .ok dial) ∨
      ∃ port message, r.target.kind = .hostPort port ∧
        resolveNodeIp r.target.nodeId = .error message ∧
        upstreamDial config r.target resolveNodeIp = .error message
  renders : ∀ config, s.config = some config → ∀ collation resolveNodeIp message,
    renderCaddyConfig collation config s.routes resolveNodeIp = .error message →
      ∃ r ∈ s.routes, r.enabled = true ∧ (∃ port, r.target.kind = .hostPort port) ∧
        resolveNodeIp r.target.nodeId = .error message
  refused : ∀ l s' message, proxyStoreMachine.step s l = some (s', .refused message) → s' = s

theorem StoreInv.safe {s : ProxyStore} (hi : StoreInv s) : StoreSafe s := by
  constructor
  case ids => exact hi.ids
  case container =>
    intro config h_config r h_r h_kind
    exact validateRoute_container (h_config ▸ hi.valid r h_r) h_kind
  case valid =>
    intro config h_config r h_r
    exact h_config ▸ hi.valid r h_r
  case dials => exact fun config h_config r h_r resolveNodeIp => hi.dials h_config h_r resolveNodeIp
  case renders => exact fun config h_config collation resolveNodeIp message h => hi.renders h_config collation h
  case refused =>
    intro l s' message hs
    exact ProxyStore.call_refused (proxyStore_step hs).2

/-- **The proxy store.** After every sequence of calls on an empty store, refused ones and
failed writes included: the container routes are on the proxy node, every route passes
the validation, the ids are distinct, and what is stored renders unless a node has no
known address; a refused call changes nothing. -/
theorem store_renders {tr : List ((ProxyOp × Bool) × ProxyOutcome)} {s : ProxyStore}
    (h : proxyStoreMachine.Run tr s) : StoreSafe s :=
  (storeInv_of_run h).safe

/-- A container route on the node `node`. -/
def sampleContainer (host node : String) : RouteDraft :=
  ⟨host, none, ⟨node, .http, false, .container "s1" "web" "media-web" (.int 8096)⟩, true⟩

def sampleConfig (node : String) : ProxyConfig := ⟨node, none, .auto, none, none⟩

/-- A run in which a route on another node and a move of the proxy are refused. -/
def sampleCalls : List (ProxyOp × Bool) :=
  [(.setConfig (some (sampleConfig "a")), true),
    (.createRoute (sampleContainer "jf.example.com" "a") "r1", true),
    (.createRoute (sampleContainer "jf2.example.com" "b") "r2", true),
    (.setConfig (some (sampleConfig "b")), true)]

theorem store_renders_sample : ∃ tr s, proxyStoreMachine.Run tr s ∧
    s.config = some (sampleConfig "a") ∧ s.routes.length = 1 ∧ StoreSafe s := by
  obtain ⟨tr, s, h_exec, h_reads⟩ := Machine.exec_reads proxyStoreMachine proxyStoreMachine.init
    sampleCalls (fun s => (s.config, s.routes.length)) (some (sampleConfig "a"), 1)
    (by decide +kernel)
  obtain ⟨h_config, h_length⟩ := Prod.mk.inj h_reads
  have h_run := Machine.run_of_exec sampleCalls h_exec
  exact ⟨tr, s, h_run, h_config, h_length, store_renders h_run⟩

end ServerCentral.Proxy
