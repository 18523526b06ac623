import ServerCentral.Compose.Stacks

/-!
# What the registry keeps

A stack is operated by its project name: `docker compose -p <project>` on its host. The
registry is sound when no two stacks of a host share that name, and when every name is one
that the docker backend accepts.

Neither holds of every run. `predictProjectName` keeps a leading `_`, which the backend
refuses (`safe_predicted_iff`), and `create` and `import` register the name of a directory
whether or not a stack of the host has it. `registry_kept` is the invariant along the runs
that avoid the two, and in which what is adopted has an accepted name.
-/

open Framework ServerCentral.Backends ServerCentral.Backends.Docker

namespace ServerCentral.Compose

/-! ### Predicted names -/

/-- Of the letters, digits and underscores in the base name of the directory, in lower case,
the first is no underscore. -/
def PlainBase (toLowerCase : String → String) (dir : String) : Prop :=
  (toLowerCase (predictedBase dir)).toList.find? (fun c => isSlugChar c && c ≠ '-') ≠ some '_'

theorem replaceRuns_slugChar (replaced : Bool) (cs : List Char) :
    ∀ c ∈ replaceRuns replaced cs, isSlugChar c = true := by
  induction cs generalizing replaced with
  | nil => simp [replaceRuns]
  | cons d cs ih =>
    intro c h_c
    rw [replaceRuns] at h_c
    split at h_c
    case isTrue h_d =>
      obtain rfl | h_c := List.mem_cons.mp h_c
      · exact h_d
      · exact ih false c h_c
    case isFalse =>
      split at h_c
      · exact ih true c h_c
      · obtain rfl | h_c := List.mem_cons.mp h_c
        · decide
        · exact ih true c h_c

/-- Behind the leading `-` stands the first character that is kept and is no `-`. -/
theorem replaceRuns_head (replaced : Bool) (cs : List Char) :
    ((replaceRuns replaced cs).dropWhile (· = '-')).head? =
      cs.find? fun c => isSlugChar c && c ≠ '-' := by
  induction cs generalizing replaced with
  | nil => simp [replaceRuns]
  | cons d cs ih =>
    rw [replaceRuns]
    split
    case isTrue h_d =>
      by_cases h_dash : d = '-'
      · rw [List.dropWhile_cons_of_pos (by simpa using h_dash), List.find?_cons_of_neg (by simp [h_dash])]
        exact ih false
      · rw [List.dropWhile_cons_of_neg (by simpa using h_dash),
          List.find?_cons_of_pos (by simp [h_d, h_dash]), List.head?_cons]
    case isFalse h_d =>
      rw [List.find?_cons_of_neg (by simp [h_d])]
      split
      · exact ih true
      · rw [List.dropWhile_cons_of_pos (by simp)]
        exact ih true

/-- Trimming `-` from the end leaves a beginning that is none. -/
theorem trimEnd_cons {c : Char} {cs : List Char} (h : c ≠ '-') :
    ∃ rest, rest <+: cs ∧ (((c :: cs).reverse.dropWhile (· = '-')).reverse) = c :: rest := by
  rw [List.reverse_cons]
  obtain ⟨kept, h_kept⟩ : ∃ kept, (cs.reverse ++ [c]).dropWhile (· = '-') = kept ++ [c] ∧
      kept <:+ cs.reverse := by
    induction cs.reverse with
    | nil => exact ⟨[], by simp [h], List.nil_suffix⟩
    | cons d ds ih =>
      by_cases h_d : d = '-'
      · obtain ⟨kept, h_eq, h_suffix⟩ := ih
        refine ⟨kept, ?_, h_suffix.trans (List.suffix_cons d ds)⟩
        rw [List.cons_append, List.dropWhile_cons_of_pos (by simpa using h_d), h_eq]
      · refine ⟨d :: ds, ?_, List.suffix_rfl⟩
        rw [List.cons_append, List.dropWhile_cons_of_neg (by simpa using h_d)]
  refine ⟨kept.reverse, ?_, ?_⟩
  · have h_prefix := List.reverse_prefix.mpr h_kept.2
    rwa [List.reverse_reverse] at h_prefix
  · rw [h_kept.1, List.reverse_append]
    rfl

theorem safe_slugChar {c : Char} (h : isSlugChar c = true) :
    (c.isAlphanum || ['_', '.', '-'].contains c) = true ∧ (c.isAlphanum = true ↔ c ≠ '_' ∧ c ≠ '-') := by
  simp only [isSlugChar, Bool.or_eq_true, decide_eq_true_eq] at h
  obtain ((h_lower | h_digit) | rfl) | rfl := h
  · have h_alnum : c.isAlphanum = true := by
      show ((c.isUpper || c.isLower) || c.isDigit) = true
      rw [h_lower, Bool.or_true, Bool.true_or]
    refine ⟨by simp [h_alnum], ⟨fun _ => ⟨?_, ?_⟩, fun _ => h_alnum⟩⟩
    · rintro rfl
      exact absurd h_alnum (by decide)
    · rintro rfl
      exact absurd h_alnum (by decide)
  · have h_alnum : c.isAlphanum = true := by simp [Char.isAlphanum, h_digit]
    refine ⟨by simp [h_alnum], ⟨fun _ => ⟨?_, ?_⟩, fun _ => h_alnum⟩⟩
    · rintro rfl
      exact absurd h_alnum (by decide)
    · rintro rfl
      exact absurd h_alnum (by decide)
  · decide
  · decide

/-- **A predicted name** is accepted by the docker backend exactly if the directory has a plain
base name. -/
theorem safe_predicted_iff (toLowerCase : String → String) (dir : String) :
    safeId (predictProjectName toLowerCase dir) = true ↔ PlainBase toLowerCase dir := by
  have h_head := replaceRuns_head false (toLowerCase (predictedBase dir)).toList
  have h_chars := replaceRuns_slugChar false (toLowerCase (predictedBase dir)).toList
  rw [PlainBase, ← h_head, predictProjectName]
  cases h_slug : (replaceRuns false (toLowerCase (predictedBase dir)).toList).dropWhile (· = '-') with
  | nil => exact ⟨fun _ => by simp, fun _ => by decide⟩
  | cons c cs =>
    have h_mem : ∀ d ∈ c :: cs, isSlugChar d = true := by
      intro d h_d
      rw [← h_slug] at h_d
      exact h_chars d ((List.dropWhile_sublist _).subset h_d)
    have h_dash : c ≠ '-' := by
      have h_not := List.head?_dropWhile_not (fun c : Char => decide (c = '-'))
        (replaceRuns false (toLowerCase (predictedBase dir)).toList)
      rw [h_slug] at h_not
      simpa using h_not
    obtain ⟨rest, h_rest, h_trim⟩ := @trimEnd_cons c cs h_dash
    rw [h_trim, List.head?_cons]
    have h_tail : rest.all (fun d => d.isAlphanum || ['_', '.', '-'].contains d) = true := by
      rw [List.all_eq_true]
      intro d h_d
      exact (safe_slugChar (h_mem d (List.mem_cons_of_mem c (h_rest.subset h_d)))).1
    have h_lead := (safe_slugChar (h_mem c List.mem_cons_self)).2
    show leadTail Char.isAlphanum _ (String.ofList (c :: rest)).toList = true ↔ _
    rw [String.toList_ofList, leadTail, h_tail, Bool.and_true, h_lead]
    simp [h_dash]

/-! ### Operating a stack -/

/-- What a command of a stack is about: it names the project, or filters by its label, or
removes what the host has listed, or looks for the directory. -/
inductive Names (project : String) : Request → Prop
  | compose (composeFile : String) (rest : Argv) (dir : Option String) :
      Names project (.run (composeArgv composeFile project rest) dir)
  | filtered (command : Argv) (dir : Option String) :
      Names project (.run (command ++ [.word "--filter", .caller (projectLabel project)]) dir)
  | removed (what : Argv) (ids : List String) (dir : Option String)
      (h : what = [.word "docker", .word "rm", .word "-f"] ∨
        what = [.word "docker", .word "network", .word "rm"]) :
      Names project (.run (what ++ ids.map .host) dir)
  | tested (path : String) (dir : Option String) :
      Names project (.run [.word "test", .word "-d", .caller path] dir)

section Commands

variable {dir composeFile project : String}

theorem names_runIn {argv : Argv} {cwd : Option String} (h : Names project (.run argv cwd)) :
    (runIn cwd argv).Meets (Names project) fun _ => True := by
  rw [runIn]
  refine Script.Meets.send h fun rep => ?_
  cases rep with
  | exec res => exact Script.Meets.pure trivial
  | paths => exact Script.Meets.fail
  | done => exact Script.Meets.fail
  | rejected => exact Script.Meets.fail

theorem names_require {c : Prop} [Decidable c] {message : String} :
    (Script.require c message : HostScript Unit).Meets (Names project) fun _ => True :=
  Script.Meets.require.mono fun _ _ => trivial

theorem names_compose (rest : Argv) :
    (compose dir composeFile project rest).Meets (Names project) fun _ => True :=
  names_runIn (.compose composeFile rest (some dir))

/-- A compose command whose failure is the error. -/
theorem names_composeOk (rest : Argv) (otherwise : String) :
    (do
      let res ← compose dir composeFile project rest
      expectOk res otherwise).Meets (Names project) fun _ => True :=
  (names_compose rest).bind fun _ _ => names_require

theorem names_removeListed {what : Argv}
    (h : what = [.word "docker", .word "rm", .word "-f"] ∨
      what = [.word "docker", .word "network", .word "rm"]) (listed : ExecResult)
    (otherwise : String) :
    (removeListed what listed otherwise).Meets (Names project) fun _ => True := by
  rw [removeListed]
  refine Script.Meets.ite (fun _ => ?_) fun _ => Script.Meets.pure trivial
  exact (names_runIn (.removed what (trimmedLines listed.stdout) none h)).bind
    fun _ _ => names_require

theorem names_downByLabel : (downByLabel project).Meets (Names project) fun _ => True := by
  rw [downByLabel]
  refine (names_runIn (.filtered [.word "docker", .word "ps", .word "-aq"] none)).bind fun ids _ => ?_
  refine (names_removeListed (.inl rfl) ids _).bind fun _ _ => ?_
  refine (names_runIn (.filtered [.word "docker", .word "network", .word "ls", .word "-q"] none)).bind
    fun nets _ => ?_
  exact names_removeListed (.inr rfl) nets _

theorem names_requireService {service : Option String} :
    (requireService service).Meets (Names project) fun _ => True := by
  cases service with
  | none => exact Script.Meets.pure trivial
  | some name => exact names_require

/-- **An action on a stack** is about its own project. -/
theorem names_composeStackAction (action : String) (pullFirst : Bool) (service : Option String) :
    (composeStackAction dir composeFile project action pullFirst service).Meets (Names project)
      fun _ => True := by
  rw [composeStackAction]
  refine names_require.bind fun _ _ => names_requireService.bind fun _ _ => ?_
  cases composeVerbs.lookup action with
  | none => exact Script.Meets.fail
  | some verb =>
    dsimp only
    have h_run := @names_composeOk dir composeFile project
      (verb.map .word ++ serviceArgs service) s!"docker compose {action} failed"
    refine Script.Meets.ite (fun _ => (names_compose _).bind fun _ _ =>
      names_require.bind fun _ _ => ?_) fun _ => ?_
    -- what follows is the same with and without the pull
    all_goals
      refine Script.Meets.ite (fun _ => Script.Meets.pure trivial) fun _ =>
        Script.Meets.ite (fun _ => ?_) fun _ => Script.Meets.ite (fun _ => ?_) fun _ => h_run
      · refine Script.Meets.bind (Q := fun _ => True) ?_ fun _ _ => ?_
        · exact (names_runIn (.tested dir none)).bind fun _ _ => Script.Meets.pure trivial
        · exact Script.Meets.ite (fun _ => h_run) fun _ => names_downByLabel
      · rw [downService]
        exact (names_compose _).bind fun _ _ => names_require.bind fun _ _ => names_composeOk _ _

end Commands

/-- The functions that operate a stack get as far as to ask the host. -/
structure Operable (stack : ComposeStack) : Prop where
  action : ∀ verb ∈ composeVerbs.map Prod.fst, ∀ pullFirst, ∃ r k,
    composeStackAction stack.dir stack.composeFile stack.project verb pullFirst none = .send r k
  config : ∃ r k, composeConfig stack.dir stack.composeFile stack.project = .send r k
  logs : ∀ tail, ∃ r k,
    getComposeStackLogs stack.dir stack.composeFile stack.project none tail = .send r k

theorem operable_of_safe {stack : ComposeStack} (h : safeId stack.project = true) :
    Operable stack := by
  constructor
  case action =>
    intro verb h_verb pullFirst
    rw [composeStackAction, Script.require, if_pos h]
    simp only [composeVerbs, List.map_cons, List.map_nil, List.mem_cons, List.not_mem_nil,
      or_false] at h_verb
    obtain rfl | rfl | rfl | rfl | rfl := h_verb <;> cases pullFirst <;> exact ⟨_, _, rfl⟩
  case config =>
    rw [composeConfig, Script.require, if_pos h]
    exact ⟨_, _, rfl⟩
  case logs =>
    intro tail
    rw [getComposeStackLogs, Script.require, if_pos h]
    exact ⟨_, _, rfl⟩

/-! ### Runs -/

/-- No two stacks of a host have one project name. -/
def Distinct (registry : Table String ComposeStack) : Prop :=
  ∀ id id' stack stack', registry.get? id = some stack → registry.get? id' = some stack' →
    stack.hostId = stack'.hostId → stack.project = stack'.project → id = id'

/-- The docker backend accepts every project name. -/
def Accepted (registry : Table String ComposeStack) : Prop :=
  ∀ id stack, registry.get? id = some stack → safeId stack.project = true

/-- What the file of the store holds when it starts. -/
structure RegistryStart where
  registry : Table String ComposeStack
  distinct : Distinct registry
  accepted : Accepted registry

/-- **The registry under every interleaving** of its calls at their awaits. -/
def registryMachine (toLowerCase : String → String) (start : RegistryStart) :
    Machine RegistryState RegistryLabel RegistryOut where
  init := ⟨start.registry, []⟩
  step s l := s.step toLowerCase l

/-- The registry identifies its stacks by host and project name, and each can be operated. -/
structure RegistrySafe (s : RegistryState) : Prop where
  distinct : Distinct s.registry
  operable : ∀ id stack, s.registry.get? id = some stack → Operable stack
  /-- What an action on a stack asks of the host is about the project of the stack. -/
  targets : ∀ id stack, s.registry.get? id = some stack → ∀ action pullFirst service,
    (composeStackAction stack.dir stack.composeFile stack.project action pullFirst service).Meets
      (Names stack.project) fun _ => True

/-- The stack that an answer registers. -/
def RegistryState.completes (s : RegistryState) (i : ℕ) (ok : Bool) : Option ComposeStack :=
  match s.pending[i]? with
  | some (.registering stack [call]) => if ok || call.bestEffort then some stack else none
  | _ => none

/-- A step that brings no second holder of a project name and no name that is refused:
directories have plain base names, the name of a stack that is about to be registered is
free on its host, and what is observed with a path to adopt it from has an accepted name. -/
def Careful (toLowerCase : String → String) (s : RegistryState) : RegistryLabel → Prop
  | .create _ _ dir _ _ _ _ => PlainBase toLowerCase dir
  | .importStack _ dir _ _ => PlainBase toLowerCase dir
  | .listed _ _ _ _ => True
  | .returned i ok => ∀ stack, s.completes i ok = some stack →
    ∀ id stack', s.registry.get? id = some stack' → stack'.hostId = stack.hostId →
      stack'.project ≠ stack.project
  | .syncHost _ observed _ => ∀ obs ∈ observed, parseConfigFiles obs.configFiles ≠ none →
    safeId obs.project = true
  | .delete _ _ _ => True

/-- A call that awaits an agent will register no name that is refused. -/
def PendingOk (toLowerCase : String → String) : Pending → Prop
  | .listing _ dir _ => PlainBase toLowerCase dir
  | .registering stack _ => safeId stack.project = true
  | .deleting _ => True

structure RegistryInv (toLowerCase : String → String) (s : RegistryState) : Prop where
  distinct : Distinct s.registry
  accepted : Accepted s.registry
  pending : ∀ p ∈ s.pending, PendingOk toLowerCase p

section Invariant

variable {toLowerCase : String → String} {s s' : RegistryState}

theorem Distinct.set {registry : Table String ComposeStack} (h : Distinct registry)
    {stack : ComposeStack} (h_free : ∀ id stack', registry.get? id = some stack' →
      stack'.hostId = stack.hostId → stack'.project ≠ stack.project) (id : String) :
    Distinct (registry.set id stack) := by
  intro id₁ id₂ stack₁ stack₂ h₁ h₂ h_host h_project
  obtain ⟨h_id₁, h_new₁⟩ | ⟨-, h_old₁⟩ := Table.get?_set_eq_some h₁
  · obtain ⟨h_id₂, -⟩ | ⟨-, h_old₂⟩ := Table.get?_set_eq_some h₂
    · exact h_id₁.trans h_id₂.symm
    · subst h_new₁
      exact absurd h_project.symm (h_free id₂ stack₂ h_old₂ h_host.symm)
  · obtain ⟨-, h_new₂⟩ | ⟨-, h_old₂⟩ := Table.get?_set_eq_some h₂
    · subst h_new₂
      exact absurd h_project (h_free id₁ stack₁ h_old₁ h_host)
    · exact h id₁ id₂ stack₁ stack₂ h_old₁ h_old₂ h_host h_project

theorem Accepted.set {registry : Table String ComposeStack} (h : Accepted registry)
    {stack : ComposeStack} (h_safe : safeId stack.project = true) (id : String) :
    Accepted (registry.set id stack) := by
  intro id' stack' h_get
  obtain ⟨-, rfl⟩ | ⟨-, h_get⟩ := Table.get?_set_eq_some h_get
  · exact h_safe
  · exact h id' stack' h_get

/-- **The loop of `syncHost`** adopts no name that a stack of the host has, as long as it knows
the names of all of them. -/
theorem adoptAll_keeps {hostId : String} {createdAt : ℕ} (observed : List Observed)
    (h_safe : ∀ obs ∈ observed, parseConfigFiles obs.configFiles ≠ none →
      safeId obs.project = true)
    (known : List String) (registry : Table String ComposeStack)
    (h_known : ∀ id stack, registry.get? id = some stack → stack.hostId = hostId →
      stack.project ∈ known)
    (h_distinct : Distinct registry) (h_accepted : Accepted registry) :
    Distinct (RegistryState.adoptAll hostId createdAt observed known registry) ∧
      Accepted (RegistryState.adoptAll hostId createdAt observed known registry) := by
  induction observed generalizing known registry with
  | nil => exact ⟨h_distinct, h_accepted⟩
  | cons obs rest ih =>
    have h_rest := fun o h_o => h_safe o (List.mem_cons_of_mem obs h_o)
    rw [RegistryState.adoptAll_cons]
    split
    case isTrue => exact ih h_rest known registry h_known h_distinct h_accepted
    case isFalse h_new =>
      split
      · exact ih h_rest known registry h_known h_distinct h_accepted
      next dir composeFile h_path =>
        have h_project : safeId obs.project = true :=
          h_safe obs List.mem_cons_self (by simp [h_path])
        refine ih h_rest _ _ ?_ (h_distinct.set ?_ _) (Accepted.set h_accepted ?_ _)
        · intro id stack h_get h_host
          obtain ⟨-, rfl⟩ | ⟨-, h_get⟩ := Table.get?_set_eq_some h_get
          · exact List.mem_cons_self
          · exact List.mem_cons_of_mem _ (h_known id stack h_get h_host)
        · intro id stack h_get h_host h_eq
          refine h_new (List.contains_iff_mem.mpr ?_)
          rw [← show stack.project = obs.project from h_eq]
          exact h_known id stack h_get h_host
        · exact h_project

/-! #### Steps -/

theorem RegistryInv.await (hi : RegistryInv toLowerCase s) {stack : ComposeStack}
    (h_safe : safeId stack.project = true) (call : AgentCall) (rest : List AgentCall) :
    RegistryInv toLowerCase (s.await stack call rest).1 := by
  refine ⟨hi.distinct, hi.accepted, fun p h_p => ?_⟩
  obtain h_p | h_p := List.mem_append.mp h_p
  · exact hi.pending p h_p
  · obtain rfl := List.mem_singleton.mp h_p
    exact h_safe

theorem RegistryInv.drop (hi : RegistryInv toLowerCase s) (i : ℕ) :
    RegistryInv toLowerCase (s.drop i) :=
  ⟨hi.distinct, hi.accepted, fun p h_p => hi.pending p (List.mem_of_mem_eraseIdx h_p)⟩

theorem RegistryInv.unregister (hi : RegistryInv toLowerCase s) (id : String) :
    RegistryInv toLowerCase (s.unregister id).1 := by
  refine ⟨?_, ?_, hi.pending⟩
  · intro id₁ id₂ stack₁ stack₂ h₁ h₂
    exact hi.distinct id₁ id₂ stack₁ stack₂ (Table.get?_erase.mp h₁).1 (Table.get?_erase.mp h₂).1
  · intro id' stack h_get
    exact hi.accepted id' stack (Table.get?_erase.mp h_get).1

theorem RegistryInv.create (hi : RegistryInv toLowerCase s) {dir : String}
    (h_base : PlainBase toLowerCase dir) (name hostId : String) (content : Option String)
    (connected : Bool) (id : String) (createdAt : ℕ) :
    RegistryInv toLowerCase
      (s.create toLowerCase name hostId dir content connected id createdAt).1 := by
  rw [RegistryState.create]
  split
  · exact hi
  split
  · exact hi
  · refine hi.await ?_ _ _
    exact (safe_predicted_iff toLowerCase dir).mpr h_base

theorem RegistryInv.importStack (hi : RegistryInv toLowerCase s) {dir : String}
    (h_base : PlainBase toLowerCase dir) (hostId name : String) (connected : Bool) :
    RegistryInv toLowerCase (s.importStack hostId dir name connected).1 := by
  rw [RegistryState.importStack]
  split
  · exact hi
  split
  · exact hi
  · refine ⟨hi.distinct, hi.accepted, fun p h_p => ?_⟩
    obtain h_p | h_p := List.mem_append.mp h_p
    · exact hi.pending p h_p
    · obtain rfl := List.mem_singleton.mp h_p
      exact h_base

theorem RegistryInv.listed (hi : RegistryInv toLowerCase s) {dir : String}
    (h_base : PlainBase toLowerCase dir) (hostId name : String) (entries : List String)
    (id : String) (createdAt : ℕ) :
    RegistryInv toLowerCase
      (s.importListed toLowerCase hostId dir name entries id createdAt).1 := by
  rw [RegistryState.importListed]
  split
  · exact hi
  · refine hi.await ?_ _ _
    exact (safe_predicted_iff toLowerCase dir).mpr h_base

/-- The last answer registers the stack; the name must be free then, not when the call
began. -/
theorem RegistryInv.resume (hi : RegistryInv toLowerCase s) {i : ℕ} {ok : Bool}
    (h_free : ∀ stack, s.completes i ok = some stack → ∀ id stack',
      s.registry.get? id = some stack' → stack'.hostId = stack.hostId →
      stack'.project ≠ stack.project)
    {o : RegistryOut} (h : s.resume i ok = some (s', o)) : RegistryInv toLowerCase s' := by
  rw [RegistryState.resume] at h
  split at h
  · next stack call rest h_pending =>
    have h_safe : safeId stack.project = true := hi.pending _ (List.mem_of_getElem? h_pending)
    have h_pair := Option.some.inj h
    split at h_pair
    case isFalse =>
      obtain rfl := congrArg Prod.fst h_pair
      exact hi.drop i
    case isTrue h_ok =>
      obtain rfl := congrArg Prod.fst h_pair
      cases rest with
      | cons next rest => exact (hi.drop i).await h_safe next rest
      | nil =>
        have h_completes : s.completes i ok = some stack := by
          rw [RegistryState.completes, h_pending]
          exact if_pos h_ok
        refine ⟨hi.distinct.set (h_free stack h_completes) _, hi.accepted.set h_safe _, ?_⟩
        exact (hi.drop i).pending
  · next id h_pending =>
    have h_out : ((s.drop i).unregister id).1 = s' := congrArg Prod.fst (Option.some.inj h)
    exact h_out ▸ (hi.drop i).unregister id
  · exact absurd h (by simp)

theorem RegistryInv.syncHost (hi : RegistryInv toLowerCase s) {observed : List Observed}
    (h_safe : ∀ obs ∈ observed, parseConfigFiles obs.configFiles ≠ none →
      safeId obs.project = true) (hostId : String) (createdAt : ℕ) :
    RegistryInv toLowerCase (s.syncHost hostId observed createdAt).1 := by
  have h_known : ∀ id stack, s.registry.get? id = some stack → stack.hostId = hostId →
      stack.project ∈ (s.ofHost hostId).map ComposeStack.project := by
    intro id stack h_get h_host
    have h_value : stack ∈ s.registry.values := Table.get?_of_mem_values.mpr ⟨id, h_get⟩
    exact List.mem_map_of_mem (List.mem_filter.mpr ⟨h_value, decide_eq_true h_host⟩)
  obtain ⟨h_distinct, h_accepted⟩ := @adoptAll_keeps hostId createdAt observed h_safe _
    s.registry h_known hi.distinct hi.accepted
  exact ⟨h_distinct, h_accepted, hi.pending⟩

theorem RegistryInv.delete (hi : RegistryInv toLowerCase s) (id : String)
    (deleteDir connected : Bool) :
    RegistryInv toLowerCase (s.delete id deleteDir connected).1 := by
  rw [RegistryState.delete]
  split
  · exact hi
  split
  · refine ⟨hi.distinct, hi.accepted, fun p h_p => ?_⟩
    obtain h_p | h_p := List.mem_append.mp h_p
    · exact hi.pending p h_p
    · obtain rfl := List.mem_singleton.mp h_p
      trivial
  · exact hi.unregister id

theorem RegistryInv.step (hi : RegistryInv toLowerCase s) {l : RegistryLabel} {o : RegistryOut}
    (h_careful : Careful toLowerCase s l) (h : s.step toLowerCase l = some (s', o)) :
    RegistryInv toLowerCase s' := by
  cases l with
  | create name hostId dir content connected id createdAt =>
    obtain rfl := congrArg Prod.fst (Option.some.inj h)
    exact hi.create h_careful name hostId content connected id createdAt
  | importStack hostId dir name connected =>
    obtain rfl := congrArg Prod.fst (Option.some.inj h)
    exact hi.importStack h_careful hostId name connected
  | listed i entries id createdAt =>
    rw [RegistryState.step] at h
    split at h
    · next hostId dir name h_pending =>
      have h_base : PlainBase toLowerCase dir := hi.pending _ (List.mem_of_getElem? h_pending)
      obtain rfl := congrArg Prod.fst (Option.some.inj h)
      cases entries with
      | none => exact hi.drop i
      | some entries => exact (hi.drop i).listed h_base hostId name entries id createdAt
    · exact absurd h (by simp)
  | returned i ok => exact hi.resume h_careful h
  | syncHost hostId observed createdAt =>
    obtain rfl := congrArg Prod.fst (Option.some.inj h)
    exact hi.syncHost h_careful hostId createdAt
  | delete id deleteDir connected =>
    obtain rfl := congrArg Prod.fst (Option.some.inj h)
    exact hi.delete id deleteDir connected

theorem RegistryInv.safe (hi : RegistryInv toLowerCase s) : RegistrySafe s := by
  constructor
  case distinct => exact hi.distinct
  case operable => exact fun id stack h_get => operable_of_safe (hi.accepted id stack h_get)
  case targets =>
    exact fun id stack _ action pullFirst service => names_composeStackAction action pullFirst service

end Invariant

/-- An empty registry. -/
def emptyRegistry : RegistryStart where
  registry := .empty
  distinct := fun _ _ _ _ h => absurd h (by simp)
  accepted := fun _ _ h => absurd h (by simp)

/-- A stack is created in the directory, and the agent does what it is asked for. -/
def sampleCreate (dir id : String) : List RegistryLabel :=
  [.create "Web" "h1" dir none true id 0, .returned 0 true, .returned 0 true, .returned 0 true]

end ServerCentral.Compose
