import ServerCentral.Proxy.Alias

/-!
# Aliases the store accepts

Three patterns meet in an alias. The compose backend accepts project and service names of
letters, digits, `_`, `.` and `-` that begin with a letter or a digit (`SAFE_ID_RE`); the
dialog joins two of them with a `-`; the store accepts a DNS label (`PROXY_ALIAS_RE`).
`isAlias_networkAlias_iff` says which accepted names make a label. The dialog attaches the
service before it saves the route, so the store looks at the alias when the compose file
carries it already: `alias_valid_iff` says when such a submission is not refused.
-/

open Framework ServerCentral.Backends ServerCentral.Backends.Docker

namespace ServerCentral.Proxy

/-- Both names have only letters, digits and `-`, and the service does not end with `-`. -/
structure ServiceName.FitsLabel (x : ServiceName) : Prop where
  project : x.project.toList.all (fun c => c.isAlphanum || c = '-') = true
  service : x.service.toList.all (fun c => c.isAlphanum || c = '-') = true
  last : x.service.toList.getLast? ≠ some '-'

theorem ServiceName.networkAlias_toList (x : ServiceName) :
    x.networkAlias.toList = x.project.toList ++ '-' :: x.service.toList := by
  rw [networkAlias, proxyNetworkAlias, String.toList_append, String.toList_append, List.append_assoc]
  rfl

/-- An accepted name begins with a letter or a digit. -/
theorem exists_cons_of_safeId {name : String} (h : safeId name = true) :
    ∃ c rest, name.toList = c :: rest ∧ c.isAlphanum = true := by
  rw [safeId] at h
  cases h_name : name.toList with
  | nil =>
    rw [h_name] at h
    exact absurd h (by simp [leadTail])
  | cons c rest =>
    rw [h_name, leadTail, Bool.and_eq_true] at h
    exact ⟨c, rest, rfl, h.1⟩

/-- **The alias of accepted names** is one the store accepts exactly if the names fit a label. -/
theorem isAlias_networkAlias_iff {x : ServiceName} (h : x.Accepted) :
    isAlias x.networkAlias = true ↔ x.FitsLabel := by
  obtain ⟨first, rest, h_project, h_first⟩ := exists_cons_of_safeId h.1
  obtain ⟨lead, tail, h_service, -⟩ := exists_cons_of_safeId h.2
  obtain ⟨last, h_last⟩ : ∃ last, x.service.toList.getLast? = some last :=
    ⟨_, List.getLast?_eq_some_getLast (h_service ▸ List.cons_ne_nil lead tail)⟩
  have h_alias_last : x.networkAlias.toList.getLast? = some last := by
    rw [x.networkAlias_toList, List.getLast?_append, List.getLast?_cons, h_last]
    rfl
  have h_alias_head : x.networkAlias.toList.head? = some first := by
    rw [x.networkAlias_toList, h_project]
    rfl
  have h_alias_all : x.networkAlias.toList.all (fun c => c.isAlphanum || c = '-') = true ↔
      x.project.toList.all (fun c => c.isAlphanum || c = '-') = true ∧
        x.service.toList.all (fun c => c.isAlphanum || c = '-') = true := by
    rw [x.networkAlias_toList, List.all_append, List.all_cons, Bool.and_eq_true]
    simp
  rw [isAlias, isLabel, Bool.and_eq_true, Bool.and_eq_true, h_alias_all, h_alias_head, h_alias_last,
    Option.any_some, Option.any_some]
  constructor
  · rintro ⟨⟨⟨h_all, h_all'⟩, -⟩, h_alnum⟩
    refine ⟨h_all, h_all', ?_⟩
    rw [h_last]
    rintro h_dash
    rw [Option.some.inj h_dash] at h_alnum
    exact absurd h_alnum (by decide)
  · intro h_fits
    refine ⟨⟨⟨h_fits.project, h_fits.service⟩, h_first⟩, ?_⟩
    -- a last character that is allowed and no `-` is a letter or a digit
    have h_allowed := List.all_eq_true.mp h_fits.service last (List.mem_of_getLast? h_last)
    have h_no_dash : last ≠ '-' := fun h_dash => h_fits.last (h_dash ▸ h_last)
    simpa [h_no_dash] using h_allowed

/-! ### Saving a route -/

/-- The route a form creates. -/
def RouteForm.draft (form : RouteForm) (node networkAlias : String) : RouteDraft where
  host := form.host
  pathPrefix := form.pathPrefix
  target := form.buildTarget node networkAlias
  enabled := form.enabled

/-- A check passes if its condition is not met and the checks after it pass. -/
theorem else_ok_iff {c : Prop} [Decidable c] {message : String} {next : Except String Unit} :
    (if c then .error message else next) = .ok () ↔ ¬ c ∧ next = .ok () := by
  by_cases h : c
  · simp [h]
  · simp [h]

/-- What the store asks of a container route. -/
theorem validateRoute_container_iff {route : RouteDraft} {config : Option ProxyConfig}
    {stackId service networkAlias : String} {port : JsNumber}
    (h_kind : route.target.kind = .container stackId service networkAlias port) :
    validateRoute route config = .ok () ↔
      isHost route.host = true ∧ route.pathPrefix.all isPathPrefix = true ∧
        route.target.nodeId ≠ "" ∧ port.isPort = true ∧ (stackId ≠ "" ∧ service ≠ "") ∧
        isAlias networkAlias = true ∧ ∀ c, config = some c → route.target.nodeId = c.nodeId := by
  have h_prefix : ¬ (route.pathPrefix.any fun p => !isPathPrefix p) = true ↔
      route.pathPrefix.all isPathPrefix = true := by
    cases route.pathPrefix with
    | none => simp
    | some p => simp
  have h_node : ¬ (config.any fun config => decide (route.target.nodeId ≠ config.nodeId)) = true ↔
      ∀ c, config = some c → route.target.nodeId = c.nodeId := by
    cases config with
    | none => simp
    | some c => simp
  have h_not : ∀ b : Bool, ¬ (!b) = true ↔ b = true := by decide
  unfold validateRoute
  rw [else_ok_iff, else_ok_iff, else_ok_iff, h_not, h_prefix]
  simp only [h_kind, validatePort]
  by_cases h_port : port.isPort = true
  · rw [if_pos h_port]
    dsimp only
    rw [else_ok_iff, else_ok_iff, else_ok_iff, not_or, h_not, h_node]
    simp [h_port]
  · rw [if_neg h_port]
    simp [h_port]

/-- The fields of a form that a container route needs besides its alias. -/
structure RouteForm.Complete (form : RouteForm) (node : String) (config : Option ProxyConfig) :
    Prop where
  host : isHost form.host = true
  pathPrefix : form.pathPrefix.all isPathPrefix = true
  named : node ≠ ""
  port : 1 ≤ form.port ∧ form.port ≤ 65535
  stack : form.stackId ≠ "" ∧ form.service ≠ ""
  onProxy : ∀ c, config = some c → node = c.nodeId

/-- **A container route is saved** exactly if its form is complete and its alias a label. -/
theorem validateRoute_draft_iff (form : RouteForm) (node networkAlias : String)
    (config : Option ProxyConfig) :
    validateRoute (form.draft node networkAlias) config = .ok () ↔
      form.Complete node config ∧ isAlias networkAlias = true := by
  have h_port : (JsNumber.int form.port).isPort = true ↔ 1 ≤ form.port ∧ form.port ≤ 65535 := by
    rw [JsNumber.isPort, decide_eq_true_iff]
    omega
  rw [@validateRoute_container_iff (form.draft node networkAlias) config _ _ _ _ rfl, h_port]
  constructor
  · rintro ⟨h_host, h_path, h_named, h_valid, h_stack, h_alias, h_proxy⟩
    exact ⟨⟨h_host, h_path, h_named, h_valid, h_stack, h_proxy⟩, h_alias⟩
  · rintro ⟨h_form, h_alias⟩
    exact ⟨h_form.host, h_form.pathPrefix, h_form.named, h_form.port, h_form.stack, h_alias,
      h_form.onProxy⟩

/-- Creating a route is not refused exactly if the validation passes. -/
theorem ProxyStore.call_create_not_refused_iff (store : ProxyStore) (route : RouteDraft)
    (newId : String) (persisted : Bool) :
    (∀ message, (store.call (.createRoute route newId) persisted).2 ≠ .refused message) ↔
      validateRoute route store.config = .ok () := by
  rw [ProxyStore.call, ProxyStore.change, ProxyStore.createRoute]
  obtain h | h : (∃ message, validateRoute route store.config = .error message) ∨
      validateRoute route store.config = .ok () := by
    cases validateRoute route store.config with
    | error message => exact .inl ⟨message, rfl⟩
    | ok u => exact .inr rfl
  · obtain ⟨message, h⟩ := h
    rw [h]
    simp [Except.map]
  · rw [h]
    cases persisted <;> simp [Except.map]

/-- A submission that attaches the service: the file is written, then the route is saved. -/
theorem handleSubmit_attaching (s : AliasState) (node : String) (form : RouteForm)
    (stack : ProxyStack) (doc : ComposeDoc) (newId : String) (persisted : Bool)
    (h_listed : form.service ∈ stack.doc.listServiceNames)
    (h_needs : stack.doc.serviceProxyAlias form.service ≠
      some (proxyNetworkAlias stack.project form.service))
    (h_attach : stack.doc.attachToProxyNetwork form.service
      (proxyNetworkAlias stack.project form.service) = .ok doc) :
    s.handleSubmit node form stack newId true true persisted =
      (s.writeDoc form.stackId stack doc).saveRoute
        (form.saving node (proxyNetworkAlias stack.project form.service) newId) persisted := by
  rw [AliasState.handleSubmit, if_neg (not_not.mpr h_listed)]
  dsimp only
  rw [if_neg h_needs, h_attach]
  rfl

/-- **Accepted names**: their alias passes the check of the store exactly if both fit a label.
A new route for the service, which the dialog attaches first, is not refused exactly if they
do and the rest of the form is complete. -/
theorem alias_valid_iff (x : ServiceName) (h_accepted : x.Accepted) :
    (isAlias x.networkAlias = true ↔ x.FitsLabel) ∧
    ∀ (s : AliasState) (node : String) (form : RouteForm) (doc doc' : ComposeDoc) (newId : String)
      (persisted : Bool), form.existing = none → form.service = x.service →
      x.service ∈ doc.listServiceNames → doc.serviceProxyAlias x.service ≠ some x.networkAlias →
      doc.attachToProxyNetwork x.service x.networkAlias = .ok doc' →
      ((∀ message, (s.handleSubmit node form ⟨x.project, doc⟩ newId true true persisted).2 ≠
          .route (.refused message)) ↔
        x.FitsLabel ∧ form.Complete node s.store.config) := by
  have h_label := isAlias_networkAlias_iff h_accepted
  refine ⟨h_label, ?_⟩
  intro s node form doc doc' newId persisted h_new h_service h_listed h_needs h_attach
  obtain ⟨project, service⟩ := x
  dsimp only at h_service
  subst h_service
  have h_saving : form.saving node (proxyNetworkAlias project form.service) newId =
      .createRoute (form.draft node (proxyNetworkAlias project form.service)) newId := by
    rw [RouteForm.saving, h_new]
    rfl
  have h_submit := handleSubmit_attaching s node form ⟨project, doc⟩ doc' newId persisted h_listed
    h_needs h_attach
  have h_saved := ProxyStore.call_create_not_refused_iff s.store
    (form.draft node (proxyNetworkAlias project form.service)) newId persisted
  rw [validateRoute_draft_iff] at h_saved
  rw [h_submit, AliasState.saveRoute, h_saving, ← h_label, and_comm]
  simp only [ne_eq, FormOutcome.route.injEq]
  exact h_saved

/-- A stack with one service that is on no network, and a form for it. -/
theorem alias_valid_iff_sample :
    isAlias (⟨"blog", "web"⟩ : ServiceName).networkAlias = true ∧
    ∃ s : AliasState, ∀ message,
      (s.handleSubmit "a" (sampleForm "s1" "web" "blog.example.com") ⟨"blog", sampleDoc "web"⟩ "r1"
        true true true).2 ≠ .route (.refused message) := by
  have h_fits : (⟨"blog", "web"⟩ : ServiceName).FitsLabel := ⟨by decide, by decide, by decide⟩
  have h_valid := alias_valid_iff ⟨"blog", "web"⟩ ⟨by decide, by decide⟩
  refine ⟨h_valid.1.mpr h_fits, ⟨.empty, ⟨some (sampleConfig "a"), [], none⟩⟩, ?_⟩
  obtain ⟨doc, h_attach⟩ : ∃ doc, (sampleDoc "web").attachToProxyNetwork "web" "blog-web" = .ok doc :=
    ⟨_, rfl⟩
  refine (h_valid.2 _ "a" (sampleForm "s1" "web" "blog.example.com") (sampleDoc "web") doc "r1" true
    rfl rfl (by decide) (by decide) h_attach).mpr ⟨h_fits, ?_⟩
  refine ⟨by decide +kernel, rfl, by decide, by decide, by decide, ?_⟩
  rintro c h_c
  rw [← Option.some.inj h_c]
  rfl

/-- Project `my_app` with service `web`: the compose file carries the alias when the store
refuses the route for it. -/
theorem alias_refused :
    (⟨"my_app", "web"⟩ : ServiceName).Accepted ∧
    isAlias (⟨"my_app", "web"⟩ : ServiceName).networkAlias = false ∧
    ∃ start tr s, (aliasMachine start).Run tr s ∧ s.store.routes = [] ∧
      s.Carries ⟨"my_app", "web"⟩ "my_app-web" ∧
      tr.map Prod.snd = [.route (.refused "Invalid network alias: my_app-web")] := by
  refine ⟨⟨by decide, by decide⟩, by decide, ?_⟩
  let start := sampleStacks ⟨"my_app", "web"⟩ ⟨"shop", "web"⟩ ⟨by decide, by decide⟩
    ⟨by decide, by decide⟩
  have h_read : ((aliasMachine start).exec (aliasMachine start).init
      [.submit (sampleForm "s1" "web" "app.example.com") "r1" true true true]).map (fun q =>
        (q.1.map Prod.snd, q.2.store.routes, (q.2.composeStacks.get? "s1").map fun stack =>
          (stack.project, stack.doc.serviceProxyAlias "web"))) =
      some ([.route (.refused "Invalid network alias: my_app-web")], [],
        some ("my_app", some "my_app-web")) := by
    decide +kernel
  obtain ⟨⟨tr, s⟩, h_exec, h_reads⟩ := Option.map_eq_some_iff.mp h_read
  obtain ⟨h_outcomes, h_routes, h_stack⟩ : _ ∧ _ ∧ _ := by simpa only [Prod.mk.injEq] using h_reads
  obtain ⟨stack, h_get, h_carries⟩ := Option.map_eq_some_iff.mp h_stack
  obtain ⟨h_project, h_alias⟩ := Prod.mk.inj h_carries
  exact ⟨start, tr, s, Machine.run_of_exec _ h_exec, h_routes,
    ⟨"s1", stack, h_get, h_project, h_alias⟩, h_outcomes⟩

end ServerCentral.Proxy
