import ServerCentral.Tasks.LiveTasks

/-!
# What the browser shows

A run that the server stores and the last row that the browser has for it differ only while the
server still saves or announces the run, or while an event is on its way. The invariant
(`RowsInv`) says so of the socket that the browser uses: what is on it brings the browser to the
stored run, if no save or announcement is due. A step of the server that stores a run makes one
due (`RunStep.save`), and the announcement sends it (`RunStep.announce`).

A socket whose user does not see the runs carries none (`Hides`).
-/

open Framework

namespace ServerCentral.Tasks

variable {Spec Result : Type} {kind : UpdateKind Spec Result}

/-! ### What a step of the server does to the runs -/

section Server

variable {s s' : TaskServer Spec Result}

/-- Neither a save nor an announcement of the run is due. -/
def TaskServer.Announced (s : TaskServer Spec Result) (id : String) : Prop :=
  ∀ stage, s.stages.get? id = some stage → stage = .announced

inductive RunStep (s s' : TaskServer Spec Result) :
    TaskLabel Spec Result → Option (TaskRun Spec Result) → Prop
  | save {l : TaskLabel Spec Result} (run : TaskRun Spec Result) (job : SaveJob Spec Result)
      (h_store : s'.store = s.store.put run) (h_objects : s'.objects = s.objects.set run.id run)
      (h_stages : s'.stages = s.stages.set run.id (.saving job)) : RunStep s s' l none
  | rest {l : TaskLabel Spec Result} (h_store : s'.store = s.store)
      (h_objects : s'.objects = s.objects) (h_stages : ∀ id, s'.Announced id → s.Announced id) :
      RunStep s s' l none
  | fail (id : String) (h_store : s'.store = s.store) (h_objects : s'.objects = s.objects)
      (h_stages : s'.stages = s.stages.erase id) : RunStep s s' (.failed id) none
  | announce (id : String) (run : TaskRun Spec Result) (h_store : s'.store = s.store)
      (h_objects : s'.objects = s.objects) (h_run : s.objects.get? id = some run)
      (h_stages : ∀ other, other ≠ id → s'.stages.get? other = s.stages.get? other) :
      RunStep s s' (.announce id) (some run)
  | boot (version : String) (now : String → ℕ) (h_objects : s'.objects = s'.store)
      (h_ids : ∀ id run, s'.store.get? id = some run → run.id = id) :
      RunStep s s' (.restart version now) none

/-- A write that goes on is still due. -/
theorem announced_setJob {job : SaveJob Spec Result} {owner : Option String} {id : String}
    (h : (s.setJob job owner).Announced id) : s.Announced id := by
  cases owner with
  | none => exact h
  | some own =>
    by_cases h_id : id = own
    · subst h_id
      have h_stage := h _ (Table.get?_set_self ..)
      cases h_stage
    · intro stage h_stage
      exact h stage ((Table.get?_set_of_ne _ _ h_id).trans h_stage)

theorem announced_endJob {owner : Option String} {id : String}
    (h : (s.endJob owner).Announced id) : s.Announced id := by
  cases owner with
  | none => exact h
  | some own =>
    by_cases h_id : id = own
    · subst h_id
      have h_stage := h _ (Table.get?_set_self ..)
      cases h_stage
    · intro stage h_stage
      exact h stage ((Table.get?_set_of_ne _ _ h_id).trans h_stage)

theorem fields_setJob (s : TaskServer Spec Result) (job : SaveJob Spec Result)
    (owner : Option String) :
    (s.setJob job owner).store = s.store ∧ (s.setJob job owner).objects = s.objects := by
  cases owner <;> exact ⟨rfl, rfl⟩

theorem fields_endJob (s : TaskServer Spec Result) (owner : Option String) :
    (s.endJob owner).store = s.store ∧ (s.endJob owner).objects = s.objects := by
  cases owner <;> exact ⟨rfl, rfl⟩

theorem runStep {l : TaskLabel Spec Result} {o : TaskOut Spec Result}
    (h_step : s.step kind l = some (s', o)) : RunStep s s' l o.broadcast := by
  cases l with
  | start id spec target userId now =>
    simp only [TaskServer.step] at h_step
    split at h_step
    · cases h_step
    · cases h_step
      -- a new run is put into the store, and its save begins
      exact .save _ _ rfl rfl rfl
  | made owner =>
    simp only [TaskServer.step] at h_step
    split at h_step
    · cases h_step
      -- a save that goes on changes its stage alone
      obtain ⟨h_store, h_objects⟩ := fields_setJob { s with taken := s.taken + 1 } _ owner
      exact .rest h_store h_objects fun id h =>
        announced_setJob (s := { s with taken := s.taken + 1 }) h
    · cases h_step
  | written owner =>
    simp only [TaskServer.step] at h_step
    split at h_step
    · cases h_step
      obtain ⟨h_store, h_objects⟩ := fields_setJob s _ owner
      exact .rest h_store h_objects fun id h => announced_setJob h
    · cases h_step
  | renamed owner =>
    simp only [TaskServer.step] at h_step
    split at h_step
    · next runs order h_job =>
      cases h_step
      -- the rename ends a save, so the announcement is due now
      obtain ⟨h_store, h_objects⟩ := fields_endJob { s with disk := runs, onDisk := order } owner
      exact .rest h_store h_objects fun id h =>
        announced_endJob (s := { s with disk := runs, onDisk := order }) h
    · cases h_step
  | failed id =>
    simp only [TaskServer.step] at h_step
    split at h_step
    · cases h_step
      exact .fail id rfl rfl rfl
    · cases h_step
  | announce id =>
    simp only [TaskServer.step] at h_step
    split at h_step
    · next run h_saved h_run =>
      cases h_step
      -- what is announced is the object, which may be newer than what was saved
      refine .announce id run rfl rfl h_run fun other h_ne => ?_
      dsimp only
      split
      · exact Table.get?_set_of_ne _ _ h_ne
      · exact Table.get?_erase_of_ne _ h_ne
    · cases h_step
  | begin id now =>
    obtain ⟨run, -, h_eq⟩ := Option.map_eq_some_iff.mp h_step
    cases h_eq
    exact .save _ _ rfl rfl rfl
  | finish id agent handled now =>
    obtain ⟨run, -, h_eq⟩ := Option.map_eq_some_iff.mp h_step
    cases h_eq
    exact .save _ _ rfl rfl rfl
  | log id text =>
    simp only [TaskServer.step] at h_step
    split at h_step
    · cases h_step
      exact .rest rfl rfl fun id h => h
    · cases h_step
  | note id version =>
    obtain ⟨run, -, h_eq⟩ := Option.map_eq_some_iff.mp h_step
    cases h_eq
    exact .rest rfl rfl fun id h => h
  | restart version now =>
    cases h_step
    -- a new process has the runs of the file, and `reapOrphan` keeps their ids
    refine .boot version now rfl fun id run h_get => ?_
    rw [TaskServer.boot, TaskStore.init, Table.get?_map, Option.map_eq_some_iff] at h_get
    obtain ⟨orphan, h_load, rfl⟩ := h_get
    rw [reapOrphan_id, (load_id h_load).2]

/-- The runs of the store are objects, under their ids. -/
structure Filed (s : TaskServer Spec Result) : Prop where
  object : ∀ id run, s.objects.get? id = some run → run.id = id
  stored : ∀ id run, s.store.get? id = some run → s.objects.get? id = some run

variable {l : TaskLabel Spec Result} {sent : Option (TaskRun Spec Result)}

theorem Filed.step (h : Filed s) (h_step : RunStep s s' l sent) : Filed s' := by
  cases h_step with
  | save run job h_store h_objects h_stages =>
    constructor
    case object =>
      intro id other h_get
      rw [h_objects] at h_get
      obtain ⟨rfl, rfl⟩ | ⟨-, h_old⟩ := Table.get?_set_eq_some h_get
      · rfl
      · exact h.object id other h_old
    case stored =>
      intro id other h_get
      -- `prune` only drops runs: what is left was put just now, or was stored
      rw [h_store, TaskStore.put, TaskStore.prune_eq] at h_get
      rw [h_objects]
      obtain ⟨rfl, rfl⟩ | ⟨h_ne, h_old⟩ := Table.get?_set_eq_some (Table.get?_of_keepLast h_get)
      · exact Table.get?_set_self ..
      · rw [Table.get?_set_of_ne _ _ h_ne]
        exact h.stored id other h_old
  | rest h_store h_objects _ =>
    exact ⟨h_objects ▸ h.object, h_objects ▸ h_store ▸ h.stored⟩
  | fail id h_store h_objects _ =>
    exact ⟨h_objects ▸ h.object, h_objects ▸ h_store ▸ h.stored⟩
  | announce id run h_store h_objects _ _ =>
    exact ⟨h_objects ▸ h.object, h_objects ▸ h_store ▸ h.stored⟩
  | boot version now h_objects h_ids =>
    rw [← h_objects] at h_ids
    exact ⟨h_ids, fun id run h_get => by rwa [h_objects]⟩

/-- A stored run of which nothing is due has just been sent, or was stored before and nothing was
due, unless a save has failed or the process is a new one. -/
theorem RunStep.stored (h_step : RunStep s s' l sent) (h : Filed s) {id : String}
    {run : TaskRun Spec Result} (h_get : s'.store.get? id = some run) (h_due : s'.Announced id)
    (h_failed : l ≠ .failed id) (h_up : ∀ version now, l ≠ .restart version now) :
    sent = some run ∧ run.id = id ∨
      s.store.get? id = some run ∧ s.Announced id ∧ ∀ other, sent = some other → other.id ≠ id := by
  cases h_step with
  | save other job h_store _ h_stages =>
    right
    -- the run of this step is being saved, so `id` is another one
    have h_ne : id ≠ other.id := by
      rintro rfl
      have h_stage := h_due (.saving job) (by rw [h_stages]; exact Table.get?_set_self ..)
      cases h_stage
    rw [h_store, TaskStore.put, TaskStore.prune_eq] at h_get
    obtain ⟨h_eq, -⟩ | ⟨-, h_old⟩ := Table.get?_set_eq_some (Table.get?_of_keepLast h_get)
    · exact absurd h_eq h_ne
    · refine ⟨h_old, fun stage h_stage => h_due stage ?_, by simp⟩
      rw [h_stages, Table.get?_set_of_ne _ _ h_ne, h_stage]
  | rest h_store _ h_stages => exact .inr ⟨h_store ▸ h_get, h_stages id h_due, by simp⟩
  | fail other h_store _ h_stages =>
    -- the stage of a failed save is gone, and `h_failed` excludes it
    have h_ne : id ≠ other := fun h_eq => h_failed (by rw [h_eq])
    refine .inr ⟨h_store ▸ h_get, fun stage h_stage => h_due stage ?_, by simp⟩
    rw [h_stages, Table.get?_erase_of_ne _ h_ne, h_stage]
  | announce other object h_store _ h_object h_stages =>
    rw [h_store] at h_get
    -- the stored run is the object, so the announcement has sent it
    by_cases h_id : id = other
    · subst h_id
      obtain rfl := Option.some.inj (h_object.symm.trans (h.stored _ _ h_get))
      exact .inl ⟨rfl, h.object _ _ h_object⟩
    · refine .inr ⟨h_get, fun stage h_stage => h_due stage (by rw [h_stages _ h_id, h_stage]), ?_⟩
      rintro _ ⟨⟩
      rw [h.object _ _ h_object]
      exact Ne.symm h_id
  | boot version now _ _ => exact absurd rfl (h_up version now)

end Server

/-! ### What is on its way to the browser -/

section Rows

variable {s s' : LiveState Spec Result} {l : LiveLabel Spec Result} {o : LiveOut Spec Result}

/-- The socket of the browser, open for a user who sees the runs, with what is on it. -/
def LiveState.Feeds (s : LiveState Spec Result) (k : ℕ) (queue : List (TaskEvent Spec Result)) :
    Prop :=
  s.page.ws = some k ∧ s.sockets.get? k = some ⟨.joined, true, queue⟩

/-- The browser comes to a row once everything on its socket has arrived. -/
def LiveState.Comes (s : LiveState Spec Result) (queue : List (TaskEvent Spec Result))
    (id : String) (run : TaskRun Spec Result) : Prop :=
  Tracks TaskRun.id s.page.tasks queue id run

/-- The server stays, and what feeds the browser brings it to the rows it came to before, or to
all runs. -/
structure Carries (s s' : LiveState Spec Result) : Prop where
  server : s'.server = s.server
  rows : ∀ k queue, s'.Feeds k queue →
    (∃ old, s.Feeds k old ∧ ∀ id run, s.Comes old id run → s'.Comes queue id run) ∨
      queue = [.reset (TaskStore.list s.server.store)]

theorem Carries.of_same (h_server : s'.server = s.server) (h_ws : s'.page.ws = s.page.ws)
    (h_tasks : s'.page.tasks = s.page.tasks) (h_sockets : s'.sockets = s.sockets) :
    Carries s s' := by
  refine ⟨h_server, ?_⟩
  rintro k queue ⟨h_feeds, h_get⟩
  refine .inl ⟨queue, ⟨h_ws ▸ h_feeds, h_sockets ▸ h_get⟩, fun id run h => ?_⟩
  rwa [LiveState.Comes, h_tasks]

theorem Carries.of_closed (h_server : s'.server = s.server) (h_ws : s'.page.ws = none) :
    Carries s s' := by
  refine ⟨h_server, ?_⟩
  rintro k queue ⟨h_feeds, -⟩
  rw [h_ws] at h_feeds
  cases h_feeds

/-- Another socket is changed, or this one no longer feeds. -/
theorem Carries.of_set {k : ℕ} {socket : Socket Spec Result} (h_server : s'.server = s.server)
    (h_ws : s'.page.ws = s.page.ws) (h_tasks : s'.page.tasks = s.page.tasks)
    (h_sockets : s'.sockets = s.sockets.set k socket)
    (h_socket : s.page.ws = some k → socket.phase ≠ .joined) : Carries s s' := by
  refine ⟨h_server, ?_⟩
  rintro j queue ⟨h_feeds, h_get⟩
  rw [h_ws] at h_feeds
  rw [h_sockets] at h_get
  obtain ⟨rfl, rfl⟩ | ⟨-, h_old⟩ := Table.get?_set_eq_some h_get
  · exact absurd rfl (h_socket h_feeds)
  · refine .inl ⟨queue, ⟨h_feeds, h_old⟩, fun id run h => ?_⟩
    rwa [LiveState.Comes, h_tasks]

/-- A new socket is not open yet. -/
theorem Carries.connect (h : Carries s s') (token : Bool) : Carries s (s'.connect token) := by
  rw [LiveState.connect]
  split
  · exact h
  -- the browser uses the new socket, whose phase is not `joined`
  · refine ⟨h.server, ?_⟩
    rintro k queue ⟨h_feeds, h_get⟩
    obtain rfl := Option.some.inj h_feeds
    rw [Table.get?_set_self] at h_get
    cases h_get

theorem connect_still (s : LiveState Spec Result) (token : Bool) :
    (s.connect token).page.waiting = s.page.waiting ∧
      (s.connect token).page.tasks = s.page.tasks ∧ (s.connect token).called = s.called ∧
        (s.connect token).requests = s.requests := by
  rw [LiveState.connect]
  split <;> exact ⟨rfl, rfl, rfl, rfl⟩

/-- What those who wait change: neither the server nor a socket, nor what the page shows. -/
structure Aside (s s' : LiveState Spec Result) : Prop where
  server : s'.server = s.server
  sockets : s'.sockets = s.sockets
  timers : s'.timers = s.timers
  running : s'.page.running = s.page.running
  ws : s'.page.ws = s.page.ws
  reconnectTimer : s'.page.reconnectTimer = s.page.reconnectTimer
  tasks : s'.page.tasks = s.page.tasks

theorem aside (h_step : s.step kind l = some (s', o)) (h_l : l.waits = true) : Aside s s' := by
  -- the fields that these four steps may change
  have h_rfl {waiting : Table ℕ String} {requests : Table ℕ (TaskRequest Spec Result)}
      {called : List ℕ} {next : ℕ} : Aside s { s with
        page := { s.page with waiting }, requests, called, next } :=
    ⟨rfl, rfl, rfl, rfl, rfl, rfl, rfl⟩
  cases l with
  | waitForTask w id =>
    simp only [LiveState.step] at h_step
    split at h_step
    · cases h_step
    · split at h_step <;> cases h_step <;> exact h_rfl
  | ask w =>
    simp only [LiveState.step] at h_step
    split at h_step
    · split at h_step <;> cases h_step
      exact h_rfl
    · cases h_step
  | reply q =>
    simp only [LiveState.step] at h_step
    split at h_step <;> cases h_step
    exact h_rfl
  | received q =>
    simp only [LiveState.step] at h_step
    split at h_step
    · split at h_step
      · split at h_step <;> cases h_step <;> exact h_rfl
      · cases h_step
        exact h_rfl
    · cases h_step
  | _ => cases h_l

theorem Carries.step (h_step : s.step kind l = some (s', o)) (h_l : ∀ t, l ≠ .server t) :
    Carries s s' := by
  -- the steps of `waitForTask` are those that `aside` covers
  by_cases h_waits : l.waits = true
  · have h := aside h_step h_waits
    exact .of_same h.server h.ws h.tasks h.sockets
  cases l with
  | server t => exact absurd rfl (h_l t)
  | accept k sees =>
    simp only [LiveState.step] at h_step
    split at h_step
    · next h_old =>
      cases h_step
      refine ⟨rfl, ?_⟩
      rintro j queue ⟨h_feeds, h_get⟩
      -- the snapshot of the socket that opens holds all runs, for a user who sees them
      obtain ⟨rfl, h_eq⟩ | ⟨-, h_old⟩ := Table.get?_set_eq_some h_get
      · right
        cases sees
        · cases h_eq
        · cases h_eq
          rfl
      · exact .inl ⟨queue, ⟨h_feeds, h_old⟩, fun id run h => h⟩
    · cases h_step
  | drop k =>
    obtain ⟨socket, -, h_eq⟩ := Option.map_eq_some_iff.mp h_step
    cases h_eq
    exact .of_set rfl rfl rfl rfl fun _ => by simp
  | start token =>
    simp only [LiveState.step] at h_step
    split at h_step
    · cases h_step
      exact .of_same rfl rfl rfl rfl
    · cases h_step
      apply Carries.connect
      exact .of_same rfl rfl rfl rfl
  | stop =>
    cases h_step
    exact .of_closed rfl rfl
  | opened k =>
    simp only [LiveState.step] at h_step
    split at h_step <;> cases h_step <;> exact .of_same rfl rfl rfl rfl
  | arrive k =>
    simp only [LiveState.step] at h_step
    split at h_step
    · next phase sees event queue h_get =>
      split at h_step
      · next h_ws =>
        cases h_step
        refine ⟨rfl, ?_⟩
        rintro j rest ⟨h_feeds, h_rest⟩
        obtain rfl := Option.some.inj (h_ws.symm.trans h_feeds)
        have h_socket := (Table.get?_set_self ..).symm.trans h_rest
        cases h_socket
        exact .inl ⟨event :: queue, ⟨h_ws, h_get⟩, fun id run h => tracks_cons.mp h⟩
      · next h_ws =>
        cases h_step
        exact .of_set rfl rfl rfl rfl fun h => absurd h h_ws
    · cases h_step
  | closed k =>
    simp only [LiveState.step] at h_step
    split at h_step
    · split at h_step <;> cases h_step <;> exact .of_closed rfl rfl
    · cases h_step
      exact .of_same rfl rfl rfl rfl
  | reconnect t token =>
    obtain ⟨-, -, h_eq⟩ := Option.map_eq_some_iff.mp h_step
    cases h_eq
    apply Carries.connect
    exact .of_same rfl rfl rfl rfl
  | _ => exact absurd rfl h_waits

/-- A save of the run has failed, in some process. -/
def SaveFailed (tr : LiveTrace Spec Result) (id : String) : Prop :=
  ∃ o, (.server (.failed id), o) ∈ tr

structure RowsInv (tr : LiveTrace Spec Result)
    (s : LiveState Spec Result) : Prop where
  filed : Filed s.server
  rows : ∀ k queue, s.Feeds k queue → ∀ id run, s.server.store.get? id = some run →
    s.server.Announced id → ¬ SaveFailed tr id → s.Comes queue id run

/-- All runs bring the browser to each of them. -/
theorem comes_list (h : Filed s.server) {id : String} {run : TaskRun Spec Result}
    (h_get : s.server.store.get? id = some run) (rows : List (TaskRun Spec Result)) :
    Tracks TaskRun.id rows [.reset (TaskStore.list s.server.store)] id run := by
  have h_perm := List.mergeSort_perm (Table.values s.server.store)
    fun a b : TaskRun Spec Result => decide (b.createdAt ≤ a.createdAt)
  have h_ids : (Table.values s.server.store).map TaskRun.id = Table.keys s.server.store := by
    rw [Table.values, Table.keys, List.map_map]
    refine List.map_congr_left fun e h_e => ?_
    exact h.object _ _ (h.stored _ _ (Table.get?_eq_some_iff.mpr h_e))
  have h_nodup : ((TaskStore.list s.server.store).map TaskRun.id).Nodup := by
    rw [TaskStore.list, (h_perm.map TaskRun.id).nodup_iff, h_ids]
    exact s.server.store.nodup
  obtain rfl := h.object _ _ (h.stored _ _ h_get)
  refine tracks_reset rows h_nodup (h_perm.mem_iff.mpr ?_)
  exact Table.get?_of_mem_values.mpr ⟨run.id, h_get⟩

theorem not_saveFailed {tr : LiveTrace Spec Result} {id : String}
    (h : ¬ SaveFailed (tr ++ [(l, o)]) id) : ¬ SaveFailed tr id ∧ l ≠ .server (.failed id) := by
  constructor
  · rintro ⟨o', h_mem⟩
    exact h ⟨o', List.mem_append_left _ h_mem⟩
  · rintro rfl
    exact h ⟨o, List.mem_append_right _ (List.mem_singleton.mpr rfl)⟩

theorem server_serve (s : LiveState Spec Result) (t : TaskLabel Spec Result)
    (server : TaskServer Spec Result) (out : TaskOut Spec Result) :
    (s.serve t server out).server = server ∧ (s.serve t server out).page = s.page := by
  unfold LiveState.serve
  split <;> exact ⟨rfl, rfl⟩

/-- What is sent is on the socket that feeds the browser, and the sockets of an old process are
gone. -/
theorem feeds_serve {t : TaskLabel Spec Result} {server : TaskServer Spec Result}
    {out : TaskOut Spec Result} {k : ℕ} {queue : List (TaskEvent Spec Result)}
    (h : (s.serve t server out).Feeds k queue) :
    (∀ version now, t ≠ .restart version now) ∧ ∃ old, s.Feeds k old ∧
      queue = old ++ (out.broadcast.map Change.put).toList := by
  obtain ⟨h_ws, h_get⟩ := h
  rw [(server_serve s t server out).2] at h_ws
  unfold LiveState.serve at h_get
  split at h_get
  -- after a restart no socket is `joined`
  · simp [LiveState.disconnect, Table.get?_map] at h_get
  · next run h_up h_sent =>
    refine ⟨fun version now h_eq => h_up version now h_eq, ?_⟩
    rw [LiveState.broadcast, Table.get?_map, Option.map_eq_some_iff] at h_get
    obtain ⟨⟨phase, sees, old⟩, h_old, h_eq⟩ := h_get
    split at h_eq
    · next h_open =>
      obtain ⟨rfl, rfl⟩ := h_open
      cases h_eq
      exact ⟨old, ⟨h_ws, h_old⟩, by rw [h_sent]; rfl⟩
    · next h_other =>
      cases h_eq
      exact absurd ⟨rfl, rfl⟩ h_other
  · next h_up h_sent =>
    exact ⟨fun version now h_eq => h_up version now h_eq, queue, ⟨h_ws, h_get⟩, by simp [h_sent]⟩

variable {tr : LiveTrace Spec Result}

theorem RowsInv.serve (h : RowsInv tr s) {t : TaskLabel Spec Result}
    {server : TaskServer Spec Result} {out : TaskOut Spec Result}
    (h_server : s.server.step kind t = some (server, out)) :
    RowsInv (tr ++ [(.server t, o)]) (s.serve t server out) := by
  have h_run := runStep h_server
  obtain ⟨h_same, h_page⟩ := server_serve s t server out
  refine ⟨by rw [h_same]; exact h.filed.step h_run, fun k queue h_feeds id run h_get h_due h_id => ?_⟩
  rw [h_same] at h_get h_due
  obtain ⟨h_kept, h_label⟩ := not_saveFailed h_id
  obtain ⟨h_up, old, h_old, rfl⟩ := feeds_serve h_feeds
  have h_failed : t ≠ .failed id := fun h_eq => h_label (congrArg LiveLabel.server h_eq)
  rw [LiveState.Comes, h_page]
  -- either the stored run was sent just now, or the invariant spoke of it before
  obtain ⟨h_sent, rfl⟩ | ⟨h_stored, h_quiet, h_other⟩ :=
    h_run.stored h.filed h_get h_due h_failed h_up
  · rw [h_sent]
    exact tracks_put_self ..
  · have h_comes := h.rows k old h_old id run h_stored h_quiet h_kept
    cases h_sent : out.broadcast with
    | none => simpa [LiveState.Comes] using h_comes
    | some other => exact Tracks.put h_comes (Ne.symm (h_other other h_sent))

theorem RowsInv.carried (h : RowsInv tr s) (h_carries : Carries s s') :
    RowsInv (tr ++ [(l, o)]) s' := by
  refine ⟨h_carries.server ▸ h.filed, fun k queue h_feeds id run h_get h_due h_id => ?_⟩
  rw [h_carries.server] at h_get h_due
  -- the socket is the one of before, or a new one with its snapshot
  obtain ⟨old, h_old, h_comes⟩ | rfl := h_carries.rows k queue h_feeds
  · exact h_comes id run (h.rows k old h_old id run h_get h_due (not_saveFailed h_id).1)
  · exact comes_list h.filed h_get s'.page.tasks

theorem RowsInv.step (h : RowsInv tr s) (h_step : s.step kind l = some (s', o)) :
    RowsInv (tr ++ [(l, o)]) s' := by
  cases l with
  | server t =>
    obtain ⟨⟨server, out⟩, h_server, h_eq⟩ := Option.map_eq_some_iff.mp h_step
    cases h_eq
    exact h.serve h_server
  | _ => exact h.carried (Carries.step h_step (by simp))

/-- **The browser shows what is stored.** In every reachable state, when nothing is on its way to
the browser over its socket, the row of a stored run is the run as it is stored, unless its save or
announcement is still due or a save of it has failed. -/
theorem live_rows (h_run : (liveMachine kind).Run tr s) {k : ℕ} (h_ws : s.page.ws = some k)
    (h_socket : s.sockets.get? k = some ⟨.joined, true, []⟩) {id : String}
    {run : TaskRun Spec Result} (h_stored : s.server.store.get? id = some run)
    (h_due : s.server.Announced id) (h_kept : ¬ SaveFailed tr id) :
    rowOf TaskRun.id s.page.tasks id = some run := by
  -- with nothing on the socket, what the browser comes to is what it shows
  have h_inv : RowsInv tr s := by
    refine Machine.RunWhen.history (P := RowsInv) ?_ ?_ h_run
    · exact ⟨⟨by simp [liveMachine, serverMachine], by simp [liveMachine, serverMachine]⟩,
        fun k queue h_feeds => by cases h_feeds.1⟩
    · exact fun tr s l s' o _ ih _ h_step => ih.step h_step
  exact h_inv.rows k [] ⟨h_ws, h_socket⟩ id run h_stored h_due h_kept

/-- A self-update is one of the specs. -/
def namedUpdate : UpdateKind String String where
  applies spec := spec = "update"
  result version := version

/-- The browser opens its socket and waits for a run, which is created, saved and announced. -/
def watchedRun : List (LiveLabel String String) :=
  [.start true, .accept 0 true, .opened 0, .arrive 0, .waitForTask 1 "r",
    .server (.start "r" "scrub" none none 5), .server (.made (some "r")),
    .server (.written (some "r")), .server (.renamed (some "r")), .server (.announce "r"),
    .arrive 0]

theorem live_rows_watched : ∃ tr s run, (liveMachine namedUpdate).Run tr s ∧
    s.server.store.get? "r" = some run ∧ rowOf TaskRun.id s.page.tasks "r" = some run := by
  have h_exec : ((liveMachine namedUpdate).exec (liveMachine namedUpdate).init watchedRun).map
      (fun q => (q.2.page.ws,
        (q.2.sockets.get? 0).map fun k => (k.phase, k.sees, k.queue.isEmpty),
        decide (q.2.server.stages.get? "r" = some .announced), q.2.server.store.has "r")) =
      some (some 0, some (.joined, true, true), true, true) := by decide +kernel
  obtain ⟨⟨tr, s⟩, h_exec, h_read⟩ := Option.map_eq_some_iff.mp h_exec
  obtain ⟨h_ws, h_rest⟩ := Prod.mk.inj h_read
  obtain ⟨h_open, h_rest⟩ := Prod.mk.inj h_rest
  obtain ⟨h_stage, h_has⟩ := Prod.mk.inj h_rest
  obtain ⟨run, h_stored⟩ := Table.has_iff.mp h_has
  obtain ⟨⟨phase, sees, queue⟩, h_socket, h_eq⟩ := Option.map_eq_some_iff.mp h_open
  simp only [Prod.mk.injEq, List.isEmpty_iff] at h_eq
  obtain ⟨rfl, rfl, rfl⟩ := h_eq
  -- the labels of the run name no failed save
  have h_kept : ¬ SaveFailed tr "r" := by
    rintro ⟨o, h_mem⟩
    have h_label := List.mem_map_of_mem (f := Prod.fst) h_mem
    rw [Machine.exec_labels h_exec] at h_label
    simp [watchedRun] at h_label
  have h_due : s.server.Announced "r" := fun stage h_get =>
    (Option.some.inj ((of_decide_eq_true h_stage).symm.trans h_get)).symm
  have h_run := Machine.run_of_exec watchedRun h_exec
  exact ⟨tr, s, run, h_run, h_stored, live_rows h_run h_ws h_socket h_stored h_due h_kept⟩

end Rows

/-! ### Who sees a run -/

section Seen

variable {s s' : LiveState Spec Result} {l : LiveLabel Spec Result} {o : LiveOut Spec Result}
  {tr : LiveTrace Spec Result}

/-- A socket whose user does not see the runs carries none. -/
def Hides (s : LiveState Spec Result) : Prop :=
  ∀ k socket, s.sockets.get? k = some socket → socket.sees = false →
    ∀ event ∈ socket.queue, event = .reset []

theorem Hides.of_same (h : Hides s) (h_sockets : s'.sockets = s.sockets) : Hides s' := by
  rwa [Hides, h_sockets]

theorem Hides.of_set (h : Hides s) {k : ℕ} {socket : Socket Spec Result}
    (h_sockets : s'.sockets = s.sockets.set k socket)
    (h_new : socket.sees = false → ∀ event ∈ socket.queue, event = .reset []) : Hides s' := by
  intro j other h_get
  rw [h_sockets] at h_get
  obtain ⟨-, rfl⟩ | ⟨-, h_old⟩ := Table.get?_set_eq_some h_get
  · exact h_new
  · exact h j other h_old

theorem Hides.connect (h : Hides s) (token : Bool) : Hides (s.connect token) := by
  rw [LiveState.connect]
  split
  · exact h
  · exact h.of_set rfl (by simp)

theorem Hides.serve (h : Hides s) (t : TaskLabel Spec Result) (server : TaskServer Spec Result)
    (out : TaskOut Spec Result) : Hides (s.serve t server out) := by
  unfold LiveState.serve
  split
  · intro k socket h_get h_sees
    rw [LiveState.disconnect, Table.get?_map, Option.map_eq_some_iff] at h_get
    obtain ⟨old, h_old, rfl⟩ := h_get
    exact h k old h_old h_sees
  · intro k socket h_get h_sees
    rw [LiveState.broadcast, Table.get?_map, Option.map_eq_some_iff] at h_get
    obtain ⟨old, h_old, rfl⟩ := h_get
    -- What is broadcast goes to those who see it.
    split at h_sees
    · next h_open => simp [h_open.2] at h_sees
    · next h_other =>
      rw [if_neg h_other]
      exact h k old h_old h_sees
  · exact h

theorem Hides.step (h : Hides s) (h_step : s.step kind l = some (s', o)) : Hides s' := by
  by_cases h_waits : l.waits = true
  · exact h.of_same (aside h_step h_waits).sockets
  cases l with
  | server t =>
    obtain ⟨⟨server, out⟩, -, h_eq⟩ := Option.map_eq_some_iff.mp h_step
    cases h_eq
    exact h.serve t server out
  | accept k sees =>
    simp only [LiveState.step] at h_step
    split at h_step <;> cases h_step
    refine h.of_set rfl ?_
    rintro rfl
    simp
  | drop k =>
    obtain ⟨socket, h_get, h_eq⟩ := Option.map_eq_some_iff.mp h_step
    cases h_eq
    exact h.of_set rfl (h k socket h_get)
  | start token =>
    simp only [LiveState.step] at h_step
    split at h_step <;> cases h_step
    · exact h
    · apply Hides.connect
      exact h.of_same rfl
  | arrive k =>
    simp only [LiveState.step] at h_step
    split at h_step
    · next phase sees event queue h_get =>
      have h_rest : sees = false → ∀ other ∈ queue, other = .reset [] :=
        fun h_sees other h_other => h k _ h_get h_sees other (List.mem_cons_of_mem _ h_other)
      split at h_step <;> cases h_step <;> exact h.of_set rfl h_rest
    · cases h_step
  | reconnect t token =>
    obtain ⟨v, -, h_eq⟩ := Option.map_eq_some_iff.mp h_step
    cases h_eq
    apply Hides.connect
    exact h.of_same rfl
  | stop =>
    cases h_step
    exact h.of_same rfl
  | closed k =>
    simp only [LiveState.step] at h_step
    split at h_step
    · split at h_step <;> cases h_step <;> exact h.of_same rfl
    · cases h_step
      exact h
  | opened k =>
    simp only [LiveState.step] at h_step
    split at h_step <;> cases h_step <;> exact h.of_same rfl
  | _ => exact absurd rfl h_waits

/-- What happens to the rows in a step. -/
theorem tasks_step (h_step : s.step kind l = some (s', o)) :
    s'.page.tasks = s.page.tasks ∨ s'.page.tasks = [] ∨
      ∃ k event socket queue, l = .arrive k ∧ s.page.ws = some k ∧
        s.sockets.get? k = some socket ∧ socket.queue = event :: queue ∧
          s'.page.tasks = handleTasks s.page.tasks event := by
  by_cases h_waits : l.waits = true
  · exact .inl (aside h_step h_waits).tasks
  cases l with
  | stop =>
    cases h_step
    exact .inr (.inl rfl)
  | arrive k =>
    simp only [LiveState.step] at h_step
    split at h_step
    · next phase sees event queue h_get =>
      split at h_step
      · next h_ws =>
        cases h_step
        exact .inr (.inr ⟨k, event, _, queue, rfl, h_ws, h_get, rfl, rfl⟩)
      · cases h_step
        exact .inl rfl
    · cases h_step
  | server t =>
    obtain ⟨⟨server, out⟩, -, h_eq⟩ := Option.map_eq_some_iff.mp h_step
    cases h_eq
    exact .inl (congrArg Page.tasks (server_serve s t server out).2)
  | accept k sees =>
    simp only [LiveState.step] at h_step
    split at h_step <;> cases h_step
    exact .inl rfl
  | drop k =>
    obtain ⟨socket, -, h_eq⟩ := Option.map_eq_some_iff.mp h_step
    cases h_eq
    exact .inl rfl
  | start token =>
    simp only [LiveState.step] at h_step
    split at h_step <;> cases h_step
    · exact .inl rfl
    · exact .inl (connect_still { s with page := { s.page with running := true } } token).2.1
  | opened k =>
    simp only [LiveState.step] at h_step
    split at h_step <;> cases h_step <;> exact .inl rfl
  | closed k =>
    simp only [LiveState.step] at h_step
    split at h_step
    · split at h_step <;> cases h_step <;> exact .inl rfl
    · cases h_step
      exact .inl rfl
  | reconnect t token =>
    obtain ⟨v, -, h_eq⟩ := Option.map_eq_some_iff.mp h_step
    cases h_eq
    exact .inl (connect_still { s with timers := s.timers.erase t } token).2.1
  | _ => exact absurd rfl h_waits

theorem hides_run (h_run : (liveMachine kind).Run tr s) : Hides s := by
  refine Machine.RunWhen.invariant (P := Hides) ?_ ?_ h_run
  · intro k socket h_get
    cases h_get
  · exact fun s l s' o ih _ h_step => ih.step h_step

/-- **Who sees a run.** A run that the browser did not show before arrives over its socket, and
the user that the socket was opened for may read the runs. -/
theorem rows_seen (h_run : (liveMachine kind).Run tr s)
    (h_step : (liveMachine kind).step s l = some (s', o)) {row : TaskRun Spec Result}
    (h_row : row ∈ s'.page.tasks) (h_new : row ∉ s.page.tasks) :
    ∃ k socket, l = .arrive k ∧ s.page.ws = some k ∧ s.sockets.get? k = some socket ∧
      socket.sees = true := by
  -- rows stay, are cleared, or come from an event of the current socket
  obtain h_old | h_none | ⟨k, event, socket, queue, rfl, h_ws, h_get, h_queue, h_tasks⟩ :=
    tasks_step h_step
  · exact absurd (h_old ▸ h_row) h_new
  · rw [h_none] at h_row
    cases h_row
  · refine ⟨k, socket, rfl, h_ws, h_get, ?_⟩
    -- such an event would be an empty snapshot, which has no row
    by_contra h_sees
    have h_event := hides_run h_run k socket h_get (by simpa using h_sees) event
      (h_queue ▸ List.mem_cons_self)
    rw [h_tasks, h_event] at h_row
    cases h_row

theorem rows_seen_watched : ∃ tr s s' o row, (liveMachine namedUpdate).Run tr s ∧
    (liveMachine namedUpdate).step s (.arrive 0) = some (s', o) ∧ row ∈ s'.page.tasks ∧
      ∃ socket, s.page.ws = some 0 ∧ s.sockets.get? 0 = some socket ∧ socket.sees = true := by
  have h_exec : ((liveMachine namedUpdate).exec (liveMachine namedUpdate).init
      watchedRun.dropLast).bind (fun q => ((liveMachine namedUpdate).step q.2 (.arrive 0)).map
        fun r => (q.2.page.tasks.isEmpty, r.1.page.tasks.isEmpty)) = some (true, false) := by
    decide +kernel
  obtain ⟨⟨tr, s⟩, h_exec, h_last⟩ := Option.bind_eq_some_iff.mp h_exec
  obtain ⟨⟨s', o⟩, h_step, h_read⟩ := Option.map_eq_some_iff.mp h_last
  obtain ⟨h_before, h_after⟩ := Prod.mk.inj h_read
  obtain ⟨row, h_row⟩ := List.exists_mem_of_ne_nil s'.page.tasks (by simpa using h_after)
  have h_new : row ∉ s.page.tasks := by
    rw [List.isEmpty_iff.mp h_before]
    exact List.not_mem_nil
  have h_run := Machine.run_of_exec _ h_exec
  obtain ⟨k, socket, h_arrive, h_seen⟩ := rows_seen h_run h_step h_row h_new
  cases h_arrive
  exact ⟨tr, s, s', o, row, h_run, h_step, h_row, socket, h_seen⟩

end Seen

end ServerCentral.Tasks
