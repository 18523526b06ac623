import ServerCentral.Backends.Docker

/-!
# No option from outside: docker

For every function of the docker backend, that the commands it runs are `OptionSafe`, and
that it returns only if the strings it passes as bare arguments are `Positional`.
-/

open Framework

namespace ServerCentral.Backends.Docker

/-! ### Checks -/

theorem positional_of_safeId {s : String} (h : safeId s = true) : Positional s :=
  .of_leadTail (by decide) h

theorem positional_of_safeRef {s : String} (h : safeRef s = true) : Positional s :=
  .of_leadTail (by decide) h

theorem guarded_expectOk {res : ExecResult} {otherwise : String} :
    Guarded (expectOk res otherwise) True := guarded_require.mono fun _ => trivial

/-- The verbs of a table, read behind the words they follow. -/
theorem verb_scan {table : List (String × List String)} {path : List String}
    (h_table : ∀ entry ∈ table, ∃ w, path ++ [w] ∈ commandPaths ∧
      ∀ rest, scan path false (entry.2.map .word ++ rest) = scan (path ++ [w]) false rest)
    {action : String} {cmd : List String} (h : table.lookup action = some cmd) :
    ∃ w, path ++ [w] ∈ commandPaths ∧
      ∀ rest, scan path false (cmd.map .word ++ rest) = scan (path ++ [w]) false rest := by
  obtain ⟨before, after, rfl, -⟩ := List.lookup_eq_some_iff.mp h
  exact h_table (action, cmd) (by simp)

theorem containerVerbs_scan : ∀ entry ∈ containerVerbs, ∃ w, ["docker"] ++ [w] ∈ commandPaths ∧
    ∀ rest, scan ["docker"] false (entry.2.map .word ++ rest) =
      scan (["docker"] ++ [w]) false rest := by
  simp only [containerVerbs, List.forall_mem_cons, List.not_mem_nil, false_implies, implies_true,
    and_true]
  exact ⟨⟨"start", by simp [commandPaths], fun _ => rfl⟩,
    ⟨"stop", by simp [commandPaths], fun _ => rfl⟩,
    ⟨"restart", by simp [commandPaths], fun _ => rfl⟩,
    ⟨"rm", by simp [commandPaths], fun _ => rfl⟩,
    ⟨"pause", by simp [commandPaths], fun _ => rfl⟩,
    ⟨"unpause", by simp [commandPaths], fun _ => rfl⟩⟩

theorem stackVerbs_scan : ∀ entry ∈ stackVerbs, ∃ w, ["docker"] ++ [w] ∈ commandPaths ∧
    ∀ rest, scan ["docker"] false (entry.2.map .word ++ rest) =
      scan (["docker"] ++ [w]) false rest := by
  simp only [stackVerbs, List.forall_mem_cons, List.not_mem_nil, false_implies, implies_true,
    and_true]
  exact ⟨⟨"start", by simp [commandPaths], fun _ => rfl⟩,
    ⟨"stop", by simp [commandPaths], fun _ => rfl⟩,
    ⟨"restart", by simp [commandPaths], fun _ => rfl⟩,
    ⟨"rm", by simp [commandPaths], fun _ => rfl⟩⟩

theorem composeVerbs_scan : ∀ entry ∈ composeVerbs,
    ∃ w, ["docker", "compose"] ++ [w] ∈ commandPaths ∧
      ∀ rest, scan ["docker", "compose"] false (entry.2.map .word ++ rest) =
        scan (["docker", "compose"] ++ [w]) false rest := by
  simp only [composeVerbs, List.forall_mem_cons, List.not_mem_nil, false_implies, implies_true,
    and_true]
  exact ⟨⟨"up", by simp [commandPaths], fun _ => rfl⟩,
    ⟨"restart", by simp [commandPaths], fun _ => rfl⟩,
    ⟨"stop", by simp [commandPaths], fun _ => rfl⟩,
    ⟨"down", by simp [commandPaths], fun _ => rfl⟩,
    ⟨"pull", by simp [commandPaths], fun _ => rfl⟩⟩

/-! ### Listings -/

theorem guarded_probe : Guarded probe True := by
  refine Guarded.bind (guarded_run (.of_closed rfl)) fun _ res => ?_
  split <;> exact guarded_pure trivial

theorem guarded_runAll {argvs : List Argv} (h : ∀ argv ∈ argvs, OptionSafe argv) :
    Guarded (runAll argvs) True := by
  induction argvs with
  | nil => exact guarded_pure trivial
  | cons argv rest ih =>
    have h_rest := ih fun a h_mem => h a (List.mem_cons_of_mem _ h_mem)
    refine Guarded.bind (guarded_run (h argv List.mem_cons_self)) fun _ res => ?_
    exact Guarded.bind h_rest fun _ others => guarded_pure trivial

theorem guarded_listing {argvs : List Argv} (h : ∀ argv ∈ argvs, OptionSafe argv) :
    Guarded (listing argvs) True := by
  refine Guarded.bind guarded_probe fun _ err => ?_
  cases err with
  | some err => exact guarded_pure trivial
  | none => exact Guarded.bind (guarded_runAll h) fun _ results => guarded_pure trivial

theorem optionSafe_psAll : OptionSafe dockerPsAll := .of_closed rfl

theorem optionSafe_volumeLs : OptionSafe dockerVolumeLs := .of_closed rfl

theorem optionSafe_images : OptionSafe dockerImages := .of_closed rfl

theorem guarded_dockerList : Guarded dockerList True :=
  guarded_listing (by
    simp only [List.forall_mem_cons]
    exact ⟨optionSafe_psAll, optionSafe_volumeLs, optionSafe_images, by simp⟩)

theorem guarded_dockerOverview : Guarded dockerOverview True :=
  guarded_listing (by
    simp only [List.forall_mem_cons]
    exact ⟨optionSafe_psAll, optionSafe_volumeLs, optionSafe_images, .of_closed rfl, by simp⟩)

theorem guarded_dockerStacks : Guarded dockerStacks True :=
  guarded_listing (by simpa using optionSafe_psAll)

theorem guarded_dockerFleetSnapshot : Guarded dockerFleetSnapshot True := guarded_dockerStacks

/-! ### Stacks -/

/-- A command on things an earlier command listed. -/
theorem optionSafe_hosts (pre : Argv) (path ids : List String)
    (h_scan : ∀ rest, scan [] false (pre ++ rest) = scan path false rest)
    (h_path : path ∈ commandPaths) : OptionSafe (pre ++ ids.map .host) :=
  .of_bare path _ (h_scan _) h_path isWord_host fun _ h => absurd h caller_notMem_host

theorem guarded_dockerStackAction {project action : String} :
    Guarded (dockerStackAction project action) True := by
  refine Guarded.bind guarded_require fun _ _ => ?_
  refine Guarded.bind (guarded_run (.of_closed rfl)) fun _ ids => ?_
  refine Guarded.bind guarded_require fun _ _ => ?_
  cases h_verb : stackVerbs.lookup action with
  | none => exact .fail
  | some cmd =>
    obtain ⟨w, h_path, h_scan⟩ := verb_scan stackVerbs_scan h_verb
    have h_safe := optionSafe_hosts (.word "docker" :: cmd.map .word) ["docker", w]
      (trimmedLines ids.stdout) (fun rest => (h_scan rest :)) h_path
    exact Guarded.bind (guarded_run h_safe) fun _ res => guarded_expectOk

/-- The service argument of a compose command: none, or a checked name. -/
theorem serviceArgs_spec {service : Option String} (h : service.all safeId = true) :
    (∀ arg ∈ serviceArgs service, arg.isWord = false) ∧
      ∀ s, .caller s ∈ serviceArgs service → Positional s := by
  unfold serviceArgs
  cases service with
  | none => simp
  | some name =>
    have h_name : Positional name := positional_of_safeId (by simpa using h)
    dsimp only
    split
    · simp
    · refine ⟨by simp [Arg.isWord], fun s h_mem => ?_⟩
      obtain rfl : s = name := by simpa using h_mem
      exact h_name

/-- A compose command for a stack, scoped to a service. -/
theorem guarded_compose {dir composeFile project : String} (w : String) (words : Argv)
    {svc : Argv} (h_path : ["docker", "compose", w] ∈ commandPaths)
    (h_scan : ∀ rest, scan ["docker", "compose"] false (words ++ rest) =
      scan ["docker", "compose", w] false rest)
    (h_svc : (∀ arg ∈ svc, arg.isWord = false) ∧ ∀ s, .caller s ∈ svc → Positional s) :
    Guarded (compose dir composeFile project (words ++ svc)) True :=
  guarded_runIn (.of_bare ["docker", "compose", w] svc (h_scan svc) h_path h_svc.1 h_svc.2)

theorem guarded_requireService {service : Option String} :
    Guarded (requireService service) (service.all safeId = true) := by
  cases service with
  | none => exact guarded_pure rfl
  | some name => exact guarded_require

theorem guarded_dirExists {dir : String} : Guarded (dirExists dir) True :=
  Guarded.bind (guarded_run (.of_closed rfl)) fun _ _ => guarded_pure trivial

theorem guarded_removeListed {argv : Argv} (path : List String) {listed : ExecResult}
    {otherwise : String} (h_scan : ∀ rest, scan [] false (argv ++ rest) = scan path false rest)
    (h_path : path ∈ commandPaths) : Guarded (removeListed argv listed otherwise) True := by
  refine .ite (fun _ => ?_) fun _ => .pure trivial
  exact Guarded.bind (guarded_run (optionSafe_hosts argv path _ h_scan h_path))
    fun _ _ => guarded_expectOk

theorem guarded_downByLabel {project : String} : Guarded (downByLabel project) True := by
  refine Guarded.bind (guarded_run (.of_closed rfl)) fun _ ids => ?_
  refine Guarded.bind (guarded_removeListed ["docker", "rm"] (fun _ => rfl)
    (by simp [commandPaths])) fun _ _ => ?_
  refine Guarded.bind (guarded_run (.of_closed rfl)) fun _ nets => ?_
  exact guarded_removeListed ["docker", "network", "rm"] (fun _ => rfl)
    (by simp [commandPaths])

theorem guarded_downService {dir composeFile project : String} {svc : Argv}
    (h_svc : (∀ arg ∈ svc, arg.isWord = false) ∧ ∀ s, .caller s ∈ svc → Positional s) :
    Guarded (downService dir composeFile project svc) True := by
  refine Guarded.bind (guarded_compose "stop" [.word "stop"] (by simp [commandPaths])
    (fun _ => rfl) h_svc) fun _ stop => ?_
  refine Guarded.bind guarded_expectOk fun _ _ => ?_
  refine Guarded.bind (guarded_compose "rm" [.word "rm", .word "-f"]
    (by simp [commandPaths]) (fun _ => rfl) h_svc) fun _ rm => ?_
  exact guarded_expectOk

/-- The branches of a compose action, once its inputs are checked. -/
theorem guarded_composeStackAction {dir composeFile project action : String} {pullFirst : Bool}
    {service : Option String} :
    Guarded (composeStackAction dir composeFile project action pullFirst service)
      (service.all safeId = true) := by
  refine Guarded.bind guarded_require fun _ _ => ?_
  refine Guarded.bind guarded_requireService fun h_service _ => ?_
  have h_svc := serviceArgs_spec h_service
  cases h_verb : composeVerbs.lookup action with
  | none => exact .fail
  | some verb =>
    obtain ⟨w, h_path, h_scan⟩ := verb_scan composeVerbs_scan h_verb
    have h_run : Guarded (do
        let res ← compose dir composeFile project (verb.map .word ++ serviceArgs service)
        expectOk res s!"docker compose {action} failed") True :=
      Guarded.bind (guarded_compose w (verb.map .word) h_path h_scan h_svc)
        fun _ _ => guarded_expectOk
    have h_rest : Guarded
        (if action = "pull" then pure ()
        else if action = "down" ∧ serviceArgs service = [] then do
          if ← dirExists dir then do
            let res ← compose dir composeFile project (verb.map .word ++ serviceArgs service)
            expectOk res s!"docker compose {action} failed"
          else downByLabel project
        else if action = "down" then
          downService dir composeFile project (serviceArgs service)
        else do
          let res ← compose dir composeFile project (verb.map .word ++ serviceArgs service)
          expectOk res s!"docker compose {action} failed") True := by
      refine .ite (fun _ => guarded_pure trivial) fun _ => .ite (fun _ => ?_) fun _ =>
        .ite (fun _ => guarded_downService h_svc) fun _ => h_run
      refine Guarded.bind guarded_dirExists fun _ _ => ?_
      exact .ite (fun _ => h_run) fun _ => guarded_downByLabel
    have h_all := h_rest.mono fun _ => h_service
    refine .ite (fun _ => ?_) fun _ => h_all
    refine Guarded.bind (guarded_compose "pull" [.word "pull"] (by simp [commandPaths])
      (fun _ => rfl) h_svc) fun _ pull => ?_
    exact Guarded.bind guarded_expectOk fun _ _ => h_all

theorem optionSafe_config {composeFile project : String} :
    OptionSafe (composeArgv composeFile project
      [.word "config", .word "--format", .word "json"]) := .of_closed rfl

theorem guarded_composeConfig {dir composeFile project : String} :
    Guarded (composeConfig dir composeFile project) True := by
  refine Guarded.bind guarded_require fun _ _ => ?_
  refine Guarded.bind (guarded_runIn optionSafe_config) fun _ res => ?_
  split <;> exact guarded_pure trivial

theorem guarded_validateComposeContent {dir project content uuid : String} :
    Guarded (validateComposeContent dir project content uuid) True := by
  refine Guarded.bind guarded_require fun _ _ => Guarded.bind guarded_writeFile fun _ _ => ?_
  refine .send optionSafe_config fun reply => Guarded.bind guarded_deletePath fun _ _ => ?_
  cases reply with
  | exec res => exact .ite (fun _ => guarded_pure trivial) fun _ => guarded_pure trivial
  | paths => exact .fail
  | done => exact .fail
  | rejected => exact .fail

theorem guarded_psByProjectLabel {project : String} :
    Guarded (psByProjectLabel project) True := by
  refine .ite (fun _ => guarded_pure trivial) fun _ => ?_
  exact Guarded.bind (guarded_run (.of_closed rfl)) fun _ res => guarded_pure trivial

theorem guarded_getComposeStackStatus {dir composeFile project : String} :
    Guarded (getComposeStackStatus dir composeFile project) True := by
  refine Guarded.bind guarded_composeConfig fun _ config => ?_
  refine Guarded.bind (guarded_runIn (.of_closed rfl)) fun _ psRes => ?_
  refine .ite (fun _ => guarded_pure trivial) fun _ => ?_
  exact Guarded.bind guarded_psByProjectLabel fun _ present => guarded_pure trivial

/-- An empty service is no service. -/
theorem serviceArgs_filter (service : Option String) :
    serviceArgs (service.filter (· ≠ "")) = serviceArgs service := by
  cases service with
  | none => rfl
  | some name => by_cases h : name = "" <;> simp [serviceArgs, Option.filter, h]

theorem guarded_getComposeStackLogs {dir composeFile project : String} {service : Option String}
    {tail : ℚ} :
    Guarded (getComposeStackLogs dir composeFile project service tail)
      ((service.filter (· ≠ "")).all safeId = true) := by
  refine Guarded.bind guarded_require fun _ _ => ?_
  refine Guarded.bind guarded_requireService fun h_service _ => ?_
  have h_svc := serviceArgs_spec h_service
  rw [serviceArgs_filter] at h_svc
  refine Guarded.bind (guarded_runIn ?_) fun _ res => guarded_pure h_service
  exact .of_bare ["docker", "compose", "logs"] (serviceArgs service) rfl
    (by simp [commandPaths]) h_svc.1 h_svc.2

/-! ### Containers, volumes and images -/

/-- A command with one bare argument, which is checked. -/
theorem optionSafe_one {argv : Argv} (path : List String) {s : String}
    (h_scan : scan [] false argv = scan path false [.caller s]) (h_path : path ∈ commandPaths)
    (h : Positional s) : OptionSafe argv :=
  .of_callers path [s] h_scan h_path (by simpa using h)

theorem guarded_runOne {argv : Argv} (path : List String) {s : String}
    (h_scan : scan [] false argv = scan path false [.caller s]) (h_path : path ∈ commandPaths)
    (h : Positional s) : Guarded (run argv) True :=
  guarded_run (optionSafe_one path h_scan h_path h)

theorem guarded_requireContainerId {containerId : String} :
    Guarded (requireContainerId containerId) (Positional containerId) :=
  guarded_require.mono positional_of_safeId

theorem guarded_dockerContainerAction {containerId action : String} :
    Guarded (dockerContainerAction containerId action) (Positional containerId) := by
  refine Guarded.bind guarded_requireContainerId fun h_id _ => ?_
  cases h_verb : containerVerbs.lookup action with
  | none => exact .fail
  | some cmd =>
    obtain ⟨w, h_path, h_scan⟩ := verb_scan containerVerbs_scan h_verb
    exact Guarded.bind (guarded_runOne ["docker", w] (h_scan _ :) h_path h_id) fun _ res =>
      guarded_expectOk.mono fun _ => h_id

theorem guarded_dockerContainerInspect {containerId : String} :
    Guarded (dockerContainerInspect containerId) (Positional containerId) := by
  refine Guarded.bind guarded_requireContainerId fun h_id _ => ?_
  exact Guarded.bind (guarded_runOne ["docker", "inspect"] rfl (by simp [commandPaths]) h_id)
    fun _ res =>
    Guarded.bind guarded_expectOk fun _ _ => guarded_pure h_id

/-- The command that runs in the container is the value of the shell's `-c`. -/
theorem guarded_dockerContainerExec {containerId command : String} :
    Guarded (dockerContainerExec containerId command) (Positional containerId) := by
  refine Guarded.bind guarded_requireContainerId fun h_id _ => ?_
  refine (guarded_run ⟨[.caller containerId], rfl, fun s h_mem => ?_⟩).mono fun _ => h_id
  obtain rfl : s = containerId := by simpa using h_mem
  exact h_id

/-- The window of a log is the value of `--since`. -/
theorem sinceArgs_scan (since : Option String) (rest : Argv) :
    scan ["docker", "logs"] false (sinceArgs since ++ rest) =
      scan ["docker", "logs"] false rest := by
  unfold sinceArgs
  cases dockerSince since with
  | none => rfl
  | some token => rfl

theorem guarded_dockerContainerLogs {containerId : String} {limit : Option ℚ}
    {since : Option String} :
    Guarded (dockerContainerLogs containerId limit since) (Positional containerId) := by
  refine Guarded.bind guarded_requireContainerId fun h_id _ => ?_
  refine Guarded.bind (guarded_run ?_) fun _ res => guarded_pure h_id
  rw [List.append_assoc]
  exact optionSafe_one ["docker", "logs"] (sinceArgs_scan since _) (by simp [commandPaths]) h_id

theorem guarded_requireVolumeName {name : String} :
    Guarded (requireVolumeName name) (Positional name) :=
  guarded_require.mono positional_of_safeId

theorem guarded_dockerVolumeInspect {name : String} :
    Guarded (dockerVolumeInspect name) (Positional name) := by
  refine Guarded.bind guarded_requireVolumeName fun h_name _ => ?_
  refine Guarded.bind (guarded_runOne ["docker", "volume", "inspect"] rfl (by simp [commandPaths])
    h_name) fun _ inspect => ?_
  refine Guarded.bind (guarded_run (.of_closed rfl)) fun _ attached => ?_
  exact Guarded.bind guarded_expectOk fun _ _ => guarded_pure h_name

theorem guarded_dockerVolumeRemove {name : String} :
    Guarded (dockerVolumeRemove name) (Positional name) := by
  refine Guarded.bind guarded_requireVolumeName fun h_name _ => ?_
  exact Guarded.bind (guarded_runOne ["docker", "volume", "rm"] rfl (by simp [commandPaths]) h_name)
    fun _ res => guarded_expectOk.mono fun _ => h_name

theorem guarded_dockerImageAction {imageId action : String} :
    Guarded (dockerImageAction imageId action) (Positional imageId) := by
  refine Guarded.bind guarded_require fun h_check _ => Guarded.bind guarded_require fun _ _ => ?_
  have h_id := positional_of_safeId h_check
  exact Guarded.bind (guarded_runOne ["docker", "rmi"] rfl (by simp [commandPaths]) h_id)
    fun _ res => guarded_expectOk.mono fun _ => h_id

theorem guarded_requireRef {ref : String} : Guarded (requireRef ref) (Positional ref) :=
  guarded_require.mono positional_of_safeRef

theorem guarded_dockerImagePull {ref : String} :
    Guarded (dockerImagePull ref) (Positional ref) := by
  refine Guarded.bind guarded_requireRef fun h_ref _ => ?_
  refine Guarded.bind (guarded_runOne ["docker", "pull"] rfl (by simp [commandPaths]) h_ref)
    fun _ res => ?_
  exact Guarded.bind guarded_require fun _ _ => guarded_pure h_ref

theorem guarded_imageDefaults {image : String} :
    Guarded (imageDefaults image) (Positional image) := by
  refine Guarded.bind guarded_requireRef fun h_ref _ => ?_
  refine Guarded.bind (guarded_run ⟨[.caller image], rfl, fun s h_mem => ?_⟩) fun _ res =>
    guarded_pure h_ref
  obtain rfl : s = image := by simpa using h_mem
  exact h_ref

end ServerCentral.Backends.Docker
