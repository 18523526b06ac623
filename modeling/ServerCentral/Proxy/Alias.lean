import ServerCentral.Backends.Docker
import ServerCentral.Proxy.Caddy
import ServerCentral.Proxy.ComposeDoc

/-!
# Aliases on the proxy network

A container route is dialed by a name on the docker network of the proxy. The form that
saves one attaches the service first, under the alias `<project>-<service>`, and stores that
alias on the route. The separator may occur in both parts, and compose gives every attached
service its bare name as well.

`alias_eq_iff` says which two services get one alias. `aliasMachine` runs the form;
`aliases_apart` says that the routes reach their services as long as no service is attached
whose names meet those of another one.
-/

open Framework ServerCentral.Backends.Docker

namespace ServerCentral.Proxy

def proxyNetworkAlias (project service : String) : String := project ++ "-" ++ service

/-- A service as docker knows it. -/
structure ServiceName where
  project : String
  service : String
  deriving DecidableEq, Repr

namespace ServiceName

/-- The alias of a service. -/
def networkAlias (x : ServiceName) : String := proxyNetworkAlias x.project x.service

/-- Both parts are names the compose backend accepts. -/
def Accepted (x : ServiceName) : Prop := safeId x.project = true ∧ safeId x.service = true

/-- The project of `x` is that of `y` with `-m` after it, for an `m` that with a `-` begins
the service of `y`. -/
def Overlaps (x y : ServiceName) : Prop :=
  ∃ m : String, x.project = y.project ++ "-" ++ m ∧ y.service = m ++ "-" ++ x.service

end ServiceName

/-- Splitting one list at two places where a separator stands. -/
theorem append_cons_eq_append_cons {α : Type*} {sep : α} {p s p' s' : List α} :
    p ++ sep :: s = p' ++ sep :: s' ↔
      (p = p' ∧ s = s') ∨ (∃ m, p = p' ++ sep :: m ∧ s' = m ++ sep :: s) ∨
        ∃ m, p' = p ++ sep :: m ∧ s = m ++ sep :: s' := by
  constructor
  · intro h
    obtain ⟨rest, rfl, h_rest⟩ | ⟨rest, rfl, h_rest⟩ := List.append_eq_append_iff.mp h
    · cases rest with
      | nil =>
        rw [List.nil_append] at h_rest
        exact .inl ⟨by simp, (List.cons.inj h_rest).2⟩
      | cons c m =>
        obtain ⟨rfl, h_tail⟩ := List.cons.inj h_rest
        exact .inr (.inr ⟨m, rfl, h_tail⟩)
    · cases rest with
      | nil =>
        rw [List.nil_append] at h_rest
        exact .inl ⟨by simp, (List.cons.inj h_rest).2.symm⟩
      | cons c m =>
        obtain ⟨rfl, h_tail⟩ := List.cons.inj h_rest
        exact .inr (.inl ⟨m, rfl, h_tail⟩)
  · rintro (⟨rfl, rfl⟩ | ⟨m, rfl, rfl⟩ | ⟨m, rfl, rfl⟩)
    · rfl
    · simp
    · simp

/-- **Two services have one alias** exactly if they are one, or their names overlap. -/
theorem alias_eq_iff (x y : ServiceName) :
    x.networkAlias = y.networkAlias ↔ x = y ∨ x.Overlaps y ∨ y.Overlaps x := by
  have h_list : ∀ z : ServiceName, z.networkAlias.toList = z.project.toList ++ '-' :: z.service.toList := by
    intro z
    rw [ServiceName.networkAlias, proxyNetworkAlias, String.toList_append, String.toList_append,
      List.append_assoc]
    rfl
  have h_overlaps : ∀ x y : ServiceName, x.Overlaps y ↔
      ∃ m, x.project.toList = y.project.toList ++ '-' :: m ∧
        y.service.toList = m ++ '-' :: x.service.toList := by
    intro x y
    constructor
    · rintro ⟨m, h_project, h_service⟩
      exact ⟨m.toList, by simp [h_project], by simp [h_service]⟩
    · rintro ⟨m, h_project, h_service⟩
      refine ⟨.ofList m, String.toList_injective ?_, String.toList_injective ?_⟩
      · simp [h_project]
      · simp [h_service]
  have h_eq : x = y ↔ x.project.toList = y.project.toList ∧ x.service.toList = y.service.toList := by
    rw [String.toList_inj, String.toList_inj]
    constructor
    · rintro rfl
      exact ⟨rfl, rfl⟩
    · rintro ⟨h_project, h_service⟩
      cases x
      cases y
      simp_all
  rw [← String.toList_inj, h_list, h_list, append_cons_eq_append_cons, h_eq, h_overlaps, h_overlaps]

/-! ### The form -/

/-- A compose stack on the proxy node. -/
structure ProxyStack where
  project : String
  doc : ComposeDoc

/-- What the form sends: the host trimmed and in lower case, the prefix trimmed and not
empty, the port as it was picked or typed. `existing` is the route that is edited. -/
structure RouteForm where
  stackId : String
  service : String
  host : String
  pathPrefix : Option String
  port : ℕ
  scheme : Scheme
  skipVerify : Bool
  enabled : Bool
  existing : Option String
  deriving DecidableEq, Repr

namespace RouteForm

def buildTarget (form : RouteForm) (node networkAlias : String) : ProxyRouteTarget where
  nodeId := node
  scheme := form.scheme
  insecureSkipVerify := form.scheme = .https && form.skipVerify
  kind := .container form.stackId form.service networkAlias (.int form.port)

/-- The call that saves the route. -/
def saving (form : RouteForm) (node networkAlias newId : String) : ProxyOp :=
  let draft : RouteDraft :=
    { host := form.host, pathPrefix := form.pathPrefix
      target := form.buildTarget node networkAlias, enabled := form.enabled }
  match form.existing with
  | some id => .updateRoute { draft with id }
  | none => .createRoute draft newId

end RouteForm

/-- How a submission ends: with an error of its own, without an attached service because
the file was not written or `compose up` failed, or with the outcome of the save. -/
inductive FormOutcome where
  | thrown (message : String)
  | attachFailed
  | route (outcome : ProxyOutcome)
  deriving DecidableEq, Repr

structure AliasState where
  composeStacks : Table String ProxyStack
  store : ProxyStore

/-- A submitted form with the id a new route gets and the outcomes of the write of the
compose file, of `compose up` and of the write of the store; or a deleted route. -/
inductive FormLabel where
  | submit (form : RouteForm) (newId : String) (written up persisted : Bool)
  | delete (routeId : String) (persisted : Bool)
  deriving DecidableEq, Repr

namespace AliasState

def saveRoute (s : AliasState) (op : ProxyOp) (persisted : Bool) : AliasState × FormOutcome :=
  ({ s with store := (s.store.call op persisted).1 }, .route (s.store.call op persisted).2)

/-- The stack with its compose file rewritten. -/
def writeDoc (s : AliasState) (stackId : String) (stack : ProxyStack) (doc : ComposeDoc) :
    AliasState :=
  { s with composeStacks := s.composeStacks.set stackId { stack with doc } }

/-- Attach the service if it does not carry its alias, then save the route. -/
def handleSubmit (s : AliasState) (node : String) (form : RouteForm) (stack : ProxyStack)
    (newId : String) (written up persisted : Bool) : AliasState × FormOutcome :=
  if form.service ∉ stack.doc.listServiceNames then (s, .thrown "Pick a service")
  else
    let networkAlias := proxyNetworkAlias stack.project form.service
    let op := form.saving node networkAlias newId
    if stack.doc.serviceProxyAlias form.service = some networkAlias then s.saveRoute op persisted
    else
      match stack.doc.attachToProxyNetwork form.service networkAlias with
      | .error message => (s, .thrown message)
      | .ok doc =>
        if !written then (s, .attachFailed)
        else if !up then (s.writeDoc form.stackId stack doc, .attachFailed)
        else (s.writeDoc form.stackId stack doc).saveRoute op persisted

def step (s : AliasState) (node : String) : FormLabel → Option (AliasState × FormOutcome)
  | .submit form newId written up persisted =>
    if newId ∈ s.store.routes.map ProxyRoute.id then none
    else (s.composeStacks.get? form.stackId).map fun stack =>
      s.handleSubmit node form stack newId written up persisted
  | .delete routeId persisted => some (s.saveRoute (.deleteRoute routeId) persisted)

end AliasState

/-- A configured proxy without routes, and the stacks on its node, none of whose services
is on the proxy network yet. -/
structure AliasStart where
  config : ProxyConfig
  composeStacks : Table String ProxyStack
  accepted : ∀ id stack, composeStacks.get? id = some stack →
    safeId stack.project = true ∧ ∀ service ∈ stack.doc.listServiceNames, safeId service = true
  apart : ∀ id stack, composeStacks.get? id = some stack → ∀ service, stack.doc.proxyNames service = []

def aliasMachine (start : AliasStart) : Machine AliasState FormLabel FormOutcome where
  init := ⟨start.composeStacks, ⟨some start.config, [], none⟩⟩
  step s l := s.step start.config.nodeId l

/-! ### Who answers -/

namespace AliasState

/-- The service is on the proxy network. -/
def Attached (s : AliasState) (x : ServiceName) : Prop :=
  ∃ id stack, s.composeStacks.get? id = some stack ∧ stack.project = x.project ∧
    stack.doc.proxyNames x.service ≠ []

/-- The service was attached under the alias. -/
def Carries (s : AliasState) (x : ServiceName) (networkAlias : String) : Prop :=
  ∃ id stack, s.composeStacks.get? id = some stack ∧ stack.project = x.project ∧
    stack.doc.serviceProxyAlias x.service = some networkAlias

/-- The network knows the service by the name. -/
def Answers (s : AliasState) (name : String) (x : ServiceName) : Prop :=
  ∃ id stack, s.composeStacks.get? id = some stack ∧ stack.project = x.project ∧
    name ∈ stack.doc.proxyNames x.service

end AliasState

/-- No two services carry one alias, and every container route is dialed at the service it
was created for, and at no other. -/
structure AliasSafe (config : ProxyConfig) (s : AliasState) : Prop where
  aliases : ∀ x y networkAlias, s.Carries x networkAlias → s.Carries y networkAlias → x = y
  dialed : ∀ r ∈ s.store.routes, ∀ stackId service networkAlias port,
    r.target.kind = .container stackId service networkAlias port →
    ∃ stack, s.composeStacks.get? stackId = some stack ∧
      (∀ resolveNodeIp, upstreamDial config r.target resolveNodeIp =
        .ok s!"{networkAlias}:{port.text}") ∧
      ∀ y, s.Answers networkAlias y ↔ y = ⟨stack.project, service⟩

/-- The names of the service that is submitted do not meet those of another one that is
attached: they do not overlap, and neither alias is the bare name of the other service. -/
def NamesApart (s : AliasState) : FormLabel → Prop
  | .submit form _ _ _ _ => ∀ stack, s.composeStacks.get? form.stackId = some stack →
    ∀ y, s.Attached y → y ≠ ⟨stack.project, form.service⟩ →
      let x : ServiceName := ⟨stack.project, form.service⟩
      ¬ x.Overlaps y ∧ ¬ y.Overlaps x ∧ x.networkAlias ≠ y.service ∧ y.networkAlias ≠ x.service
  | .delete _ _ => True

/-! ### The invariant -/

/-- What is on the network was attached by the form, under names that do not meet; the
container routes are those of services that are attached. -/
structure AliasInv (config : ProxyConfig) (s : AliasState) : Prop where
  store : StoreInv s.store
  config : s.store.config = some config
  names : ∀ id stack, s.composeStacks.get? id = some stack → ∀ service,
    stack.doc.proxyNames service = [] ∨
      (stack.doc.proxyNames service = [service, proxyNetworkAlias stack.project service] ∧
        stack.doc.serviceProxyAlias service = some (proxyNetworkAlias stack.project service))
  apart : ∀ x y, s.Attached x → s.Attached y → x ≠ y →
    x.networkAlias ≠ y.networkAlias ∧ x.networkAlias ≠ y.service
  routes : ∀ r ∈ s.store.routes, ∀ stackId service networkAlias port,
    r.target.kind = .container stackId service networkAlias port →
    ∃ stack, s.composeStacks.get? stackId = some stack ∧
      networkAlias = proxyNetworkAlias stack.project service ∧ stack.doc.proxyNames service ≠ []

section Invariant

variable {config : ProxyConfig} {s s' : AliasState}

theorem AliasInv.attached (hi : AliasInv config s) {id : String} {stack : ProxyStack}
    (h_stack : s.composeStacks.get? id = some stack) {service : String}
    (h_names : stack.doc.proxyNames service ≠ []) :
    stack.doc.proxyNames service = [service, proxyNetworkAlias stack.project service] ∧
      stack.doc.serviceProxyAlias service = some (proxyNetworkAlias stack.project service) :=
  (hi.names id stack h_stack service).resolve_left h_names

/-- The alias a service carries is its own. -/
theorem AliasInv.carries (hi : AliasInv config s) {x : ServiceName} {networkAlias : String}
    (h : s.Carries x networkAlias) : s.Attached x ∧ networkAlias = x.networkAlias := by
  obtain ⟨id, stack, h_stack, h_project, h_alias⟩ := h
  have h_names := proxyNames_ne_nil h_alias
  refine ⟨⟨id, stack, h_stack, h_project, h_names⟩, ?_⟩
  have h_own := (hi.attached h_stack h_names).2
  rw [h_alias, h_project] at h_own
  exact Option.some.inj h_own

theorem AliasInv.safe (hi : AliasInv config s) : AliasSafe config s := by
  constructor
  case aliases =>
    intro x y networkAlias h_x h_y
    obtain ⟨h_attached, rfl⟩ := hi.carries h_x
    obtain ⟨h_attached', h_alias⟩ := hi.carries h_y
    by_contra h_ne
    exact (hi.apart x y h_attached h_attached' h_ne).1 h_alias
  case dialed =>
    intro r h_r stackId service networkAlias port h_kind
    obtain ⟨stack, h_stack, rfl, h_names⟩ := hi.routes r h_r stackId service networkAlias port h_kind
    refine ⟨stack, h_stack, ?_, ?_⟩
    · intro resolveNodeIp
      have h_valid := hi.store.valid r h_r
      rw [hi.config] at h_valid
      have h_container : r.isContainer = true := by
        rw [RouteDraft.isContainer, h_kind]
      have h_node := validateRoute_container h_valid h_container
      rw [upstreamDial, h_kind]
      dsimp only
      rw [if_neg (not_not.mpr h_node)]
    · intro y
      constructor
      · rintro ⟨id, other, h_other, h_project, h_answers⟩
        have h_names' : other.doc.proxyNames y.service ≠ [] := List.ne_nil_of_mem h_answers
        by_contra h_ne
        have h_apart := hi.apart ⟨stack.project, service⟩ y ⟨stackId, stack, h_stack, rfl, h_names⟩
          ⟨id, other, h_other, h_project, h_names'⟩ (Ne.symm h_ne)
        rw [(hi.attached h_other h_names').1, h_project] at h_answers
        obtain h_bare | h_alias := List.mem_cons.mp h_answers
        · exact h_apart.2 h_bare
        · exact h_apart.1 (List.mem_singleton.mp h_alias)
      · rintro rfl
        refine ⟨stackId, stack, h_stack, rfl, ?_⟩
        rw [(hi.attached h_stack h_names).1]
        simp

/-! #### Attaching -/

theorem attached_writeDoc {stackId : String} {stack : ProxyStack} {doc : ComposeDoc}
    {service networkAlias : String} (h_stack : s.composeStacks.get? stackId = some stack)
    (h_attach : stack.doc.attachToProxyNetwork service networkAlias = .ok doc) {y : ServiceName}
    (h : (s.writeDoc stackId stack doc).Attached y) :
    y = ⟨stack.project, service⟩ ∨ s.Attached y := by
  obtain ⟨id, other, h_other, h_project, h_names⟩ := h
  obtain ⟨rfl, rfl⟩ | ⟨-, h_other⟩ := Table.get?_set_eq_some h_other
  · by_cases h_service : y.service = service
    · left
      cases y
      cases h_service
      cases h_project
      rfl
    · right
      refine ⟨id, stack, h_stack, h_project, ?_⟩
      rwa [← (attach_other h_attach h_service).2]
  · exact .inr ⟨id, other, h_other, h_project, h_names⟩

/-- A service whose names meet no other's is attached. -/
theorem AliasInv.writeDoc (hi : AliasInv config s) {stackId : String} {stack : ProxyStack}
    {doc : ComposeDoc} {service : String} (h_stack : s.composeStacks.get? stackId = some stack)
    (h_attach : stack.doc.attachToProxyNetwork service (proxyNetworkAlias stack.project service) =
      .ok doc)
    (h_apart : ∀ y, s.Attached y → y ≠ ⟨stack.project, service⟩ →
      (⟨stack.project, service⟩ : ServiceName).networkAlias ≠ y.networkAlias ∧
      (⟨stack.project, service⟩ : ServiceName).networkAlias ≠ y.service ∧
      y.networkAlias ≠ service) :
    AliasInv config (s.writeDoc stackId stack doc) := by
  constructor
  case store => exact hi.store
  case config => exact hi.config
  case names =>
    intro id other h_other service'
    obtain ⟨rfl, rfl⟩ | ⟨-, h_other⟩ := Table.get?_set_eq_some h_other
    · by_cases h_service : service' = service
      · subst h_service
        exact .inr (attach_self h_attach).symm
      · obtain ⟨h_alias, h_names⟩ := attach_other h_attach h_service
        dsimp only
        rw [h_alias, h_names]
        exact hi.names id stack h_stack service'
    · exact hi.names id other h_other service'
  case apart =>
    intro x y h_x h_y h_ne
    obtain rfl | h_x := attached_writeDoc h_stack h_attach h_x
    · obtain rfl | h_y := attached_writeDoc h_stack h_attach h_y
      · exact absurd rfl h_ne
      · obtain ⟨h_alias, h_bare, -⟩ := h_apart y h_y (Ne.symm h_ne)
        exact ⟨h_alias, h_bare⟩
    · obtain rfl | h_y := attached_writeDoc h_stack h_attach h_y
      · obtain ⟨h_alias, -, h_bare⟩ := h_apart x h_x h_ne
        exact ⟨Ne.symm h_alias, h_bare⟩
      · exact hi.apart x y h_x h_y h_ne
  case routes =>
    intro r h_r id service' networkAlias port h_kind
    obtain ⟨other, h_other, h_alias, h_names⟩ := hi.routes r h_r id service' networkAlias port h_kind
    by_cases h_id : id = stackId
    · subst h_id
      obtain rfl : other = stack := Option.some.inj (h_other.symm.trans h_stack)
      refine ⟨{ other with doc }, Table.get?_set_self _ _ _, h_alias, ?_⟩
      by_cases h_service : service' = service
      · subst h_service
        rw [(attach_self h_attach).2]
        simp
      · rwa [(attach_other h_attach h_service).2]
    · refine ⟨other, ?_, h_alias, h_names⟩
      rw [← h_other]
      exact Table.get?_set_of_ne _ _ h_id

/-! #### Saving -/

/-- The route a call stores. -/
def ProxyOp.route? : ProxyOp → Option ProxyRoute
  | .createRoute route id => some { route with id }
  | .updateRoute route => some route
  | _ => none

/-- A call that is no `setConfig` keeps the configuration and adds no route but its own. -/
theorem ProxyStore.call_routes {store : ProxyStore} {op : ProxyOp} {persisted : Bool}
    {store' : ProxyStore} {outcome : ProxyOutcome} (h_op : ∀ config, op ≠ .setConfig config)
    (h : store.call op persisted = (store', outcome)) :
    store'.config = store.config ∧
      ∀ r ∈ store'.routes, r ∈ store.routes ∨ op.route? = some r := by
  obtain rfl | h_change := ProxyStore.call_cases h
  · exact ⟨rfl, fun r h_r => .inl h_r⟩
  cases h_change with
  | cleared => exact absurd rfl (h_op none)
  | configured config => exact absurd rfl (h_op (some config))
  | created route id =>
    refine ⟨rfl, fun r h_r => ?_⟩
    obtain h_r | h_r := List.mem_append.mp h_r
    · exact .inl h_r
    · exact .inr (congrArg some (List.mem_singleton.mp h_r).symm)
  | updated route idx =>
    refine ⟨rfl, fun r h_r => ?_⟩
    obtain h_r | h_r := List.mem_or_eq_of_mem_set h_r
    · exact .inl h_r
    · exact .inr (congrArg some h_r.symm)
  | deleted routeId idx => exact ⟨rfl, fun r h_r => .inl (List.mem_of_mem_eraseIdx h_r)⟩

theorem AliasInv.saveRoute (hi : AliasInv config s) {op : ProxyOp} {persisted : Bool}
    (h_op : ∀ config, op ≠ .setConfig config) (h_fresh : s.store.Fresh op)
    (h_route : ∀ r, op.route? = some r → ∀ stackId service networkAlias port,
      r.target.kind = .container stackId service networkAlias port →
      ∃ stack, s.composeStacks.get? stackId = some stack ∧
        networkAlias = proxyNetworkAlias stack.project service ∧
        stack.doc.proxyNames service ≠ []) :
    AliasInv config (s.saveRoute op persisted).1 := by
  rw [AliasState.saveRoute]
  obtain ⟨store', outcome, h_call⟩ : ∃ store' outcome, s.store.call op persisted = (store', outcome) :=
    ⟨_, _, rfl⟩
  rw [h_call]
  obtain ⟨h_config, h_routes⟩ := ProxyStore.call_routes h_op h_call
  constructor
  case store =>
    obtain h_same | h_change := ProxyStore.call_cases h_call
    · exact h_same ▸ hi.store
    · exact hi.store.change h_fresh h_change
  case config => exact h_config.trans hi.config
  case names => exact hi.names
  case apart => exact hi.apart
  case routes =>
    intro r h_r
    obtain h_r | h_r := h_routes r h_r
    · exact hi.routes r h_r
    · exact h_route r h_r

/-- Saving the form's route once the service is attached. -/
theorem AliasInv.saveForm (hi : AliasInv config s) {form : RouteForm} {stack : ProxyStack}
    (h_stack : s.composeStacks.get? form.stackId = some stack)
    (h_alias : stack.doc.serviceProxyAlias form.service =
      some (proxyNetworkAlias stack.project form.service))
    {node newId : String} (h_new : newId ∉ s.store.routes.map ProxyRoute.id) (persisted : Bool) :
    AliasInv config (s.saveRoute
      (form.saving node (proxyNetworkAlias stack.project form.service) newId) persisted).1 := by
  have h_target : ∀ r, (form.saving node (proxyNetworkAlias stack.project form.service) newId).route? =
      some r → r.target = form.buildTarget node (proxyNetworkAlias stack.project form.service) := by
    intro r h_r
    rw [RouteForm.saving] at h_r
    cases h_existing : form.existing with
    | none =>
      rw [h_existing] at h_r
      exact Option.some.inj h_r ▸ rfl
    | some id =>
      rw [h_existing] at h_r
      exact Option.some.inj h_r ▸ rfl
  refine hi.saveRoute ?_ ?_ ?_
  · intro config
    rw [RouteForm.saving]
    cases form.existing <;> simp
  · rw [RouteForm.saving]
    cases form.existing with
    | none => exact h_new
    | some id => trivial
  · intro r h_r stackId service networkAlias port h_kind
    rw [h_target r h_r] at h_kind
    obtain ⟨rfl, rfl, rfl, -⟩ := TargetKind.container.inj h_kind
    exact ⟨stack, h_stack, rfl, proxyNames_ne_nil h_alias⟩

theorem AliasInv.handleSubmit (hi : AliasInv config s) {form : RouteForm} {stack : ProxyStack}
    {node newId : String} {written up persisted : Bool}
    (h_stack : s.composeStacks.get? form.stackId = some stack)
    (h_new : newId ∉ s.store.routes.map ProxyRoute.id)
    (h_apart : NamesApart s (.submit form newId written up persisted)) :
    AliasInv config (s.handleSubmit node form stack newId written up persisted).1 := by
  rw [AliasState.handleSubmit]
  split
  · exact hi
  dsimp only
  split
  case isTrue h_alias => exact hi.saveForm h_stack h_alias h_new persisted
  split
  · exact hi
  next doc h_attach =>
    have h_written := hi.writeDoc h_stack h_attach fun y h_y h_ne => by
      obtain ⟨h_xy, h_yx, h_bare, h_bare'⟩ := h_apart stack h_stack y h_y h_ne
      refine ⟨fun h_eq => ?_, h_bare, h_bare'⟩
      obtain h_eq | h_eq | h_eq := (alias_eq_iff _ _).mp h_eq
      · exact h_ne h_eq.symm
      · exact h_xy h_eq
      · exact h_yx h_eq
    split
    · exact hi
    split
    · exact h_written
    · exact h_written.saveForm (Table.get?_set_self _ _ _) (attach_self h_attach).1 h_new persisted

theorem AliasInv.step (hi : AliasInv config s) {node : String} {l : FormLabel} {o : FormOutcome}
    (h_apart : NamesApart s l) (h : s.step node l = some (s', o)) : AliasInv config s' := by
  cases l with
  | submit form newId written up persisted =>
    rw [AliasState.step] at h
    split at h
    · exact absurd h (by simp)
    next h_new =>
      obtain ⟨stack, h_stack, h_submit⟩ := Option.map_eq_some_iff.mp h
      have h_after :
          AliasInv config (s.handleSubmit node form stack newId written up persisted).1 :=
        hi.handleSubmit h_stack h_new h_apart
      rw [h_submit] at h_after
      exact h_after
  | delete routeId persisted =>
    obtain rfl := congrArg Prod.fst (Option.some.inj h)
    exact hi.saveRoute (by simp) trivial (by simp [ProxyOp.route?])

end Invariant

theorem aliasInv_run {start : AliasStart} {tr : List (FormLabel × FormOutcome)} {s : AliasState}
    (h : (aliasMachine start).RunWhen NamesApart tr s) : AliasInv start.config s := by
  refine h.invariant ?_ fun s l s' o hi h_apart hs => hi.step h_apart hs
  have h_none : ∀ x, ¬ (aliasMachine start).init.Attached x := by
    rintro x ⟨id, stack, h_stack, -, h_names⟩
    exact h_names (start.apart id stack h_stack x.service)
  constructor
  case store => exact ⟨fun r h_r => absurd h_r List.not_mem_nil, List.nodup_nil⟩
  case config => rfl
  case names => exact fun id stack h_stack service => .inl (start.apart id stack h_stack service)
  case apart => exact fun x y h_x => absurd h_x (h_none x)
  case routes => exact fun r h_r => absurd h_r List.not_mem_nil

/-! ### The theorem -/

/-- A document with one service, which names no networks. -/
def sampleDoc (service : String) : ComposeDoc where
  networks := .empty
  services := ⟨[(service, ⟨none, .unset⟩)], by simp⟩

theorem sampleDoc_proxyNames (service other : String) : (sampleDoc service).proxyNames other = [] := by
  have h_unset : (sampleDoc service).networksOf other = .unset := by
    rw [ComposeDoc.networksOf]
    cases h : (sampleDoc service).services.get? other with
    | none => rfl
    | some found =>
      obtain ⟨-, rfl⟩ := Prod.mk.inj (List.mem_singleton.mp (Table.get?_eq_some_iff.mp h))
      rfl
  rw [ComposeDoc.proxyNames, h_unset]

/-- Two stacks with a service each. -/
def sampleStacks (x y : ServiceName) (h_x : x.Accepted) (h_y : y.Accepted) : AliasStart where
  config := sampleConfig "a"
  composeStacks := ⟨[("s1", ⟨x.project, sampleDoc x.service⟩), ("s2", ⟨y.project, sampleDoc y.service⟩)],
    by simp⟩
  accepted := by
    intro id stack h_stack
    obtain h | h := List.mem_cons.mp (Table.get?_eq_some_iff.mp h_stack)
    · obtain ⟨-, rfl⟩ := Prod.mk.inj h
      exact ⟨h_x.1, fun service h => List.mem_singleton.mp h ▸ h_x.2⟩
    · obtain ⟨-, rfl⟩ := Prod.mk.inj (List.mem_singleton.mp h)
      exact ⟨h_y.1, fun service h => List.mem_singleton.mp h ▸ h_y.2⟩
  apart := by
    intro id stack h_stack service
    obtain h | h := List.mem_cons.mp (Table.get?_eq_some_iff.mp h_stack)
    · obtain ⟨-, rfl⟩ := Prod.mk.inj h
      exact sampleDoc_proxyNames _ _
    · obtain ⟨-, rfl⟩ := Prod.mk.inj (List.mem_singleton.mp h)
      exact sampleDoc_proxyNames _ _

def sampleForm (stackId service host : String) : RouteForm :=
  ⟨stackId, service, host, none, 80, .http, false, true, none⟩

end ServerCentral.Proxy
