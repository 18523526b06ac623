import ServerCentral.Tasks.LiveRows

/-!
# Who waits, and the next socket

Whoever waits for a run is in the table of those who wait or has been answered, once
(`WaitsInv`). A browser that runs has a socket, or one timer that opens the next one
(`Connects`).
-/

open Framework

namespace ServerCentral.Tasks

variable {Spec Result : Type} {kind : UpdateKind Spec Result}

/-! ### Who waits -/

section Waits

variable {s s' : LiveState Spec Result} {l : LiveLabel Spec Result} {o : LiveOut Spec Result}

/-- How often a call was answered. -/
def answersOf (tr : LiveTrace Spec Result) (w : ℕ) : ℕ :=
  (tr.flatMap fun e => e.2.answers.map Prod.fst).count w

theorem answersOf_snoc (tr : LiveTrace Spec Result) (w : ℕ) :
    answersOf (tr ++ [(l, o)]) w = answersOf tr w + (o.answers.map Prod.fst).count w := by
  simp [answersOf]

theorem Page.finished_some {tasks : List (TaskRun Spec Result)} {id : String}
    {run : TaskRun Spec Result} (h : Page.finished tasks id = some run) :
    run.id = id ∧ run.status.unfinished = false := by
  rw [Page.finished, Option.filter_eq_some_iff] at h
  exact ⟨rowOf_key h.1, by simpa using h.2⟩

theorem Page.finished_none {tasks : List (TaskRun Spec Result)} {id : String}
    (h : Page.finished tasks id = none) {row : TaskRun Spec Result}
    (h_row : rowOf TaskRun.id tasks id = some row) : row.status.unfinished = true := by
  rw [Page.finished, h_row] at h
  simpa [Option.filter] using h

/-- `update` answers those who need not wait any longer. -/
theorem count_update (p : Page Spec Result) (w : ℕ) :
    (p.update.2.map Prod.fst).count w + (Table.keys p.update.1.waiting).count w =
      (Table.keys p.waiting).count w := by
  simp only [Page.update, Table.keys, Table.filter]
  generalize p.waiting.entries = entries
  -- over the entries: an entry is answered or kept, and counted once either way
  induction entries with
  | nil => rfl
  | cons e entries ih =>
    cases h : Page.finished p.tasks e.2 with
    | none =>
      simp only [List.filterMap_cons, h, Option.map_none, List.filter_cons, Option.isNone_none,
        if_true, List.map_cons, List.count_cons] at ih ⊢
      omega
    | some run =>
      simp only [List.filterMap_cons, h, Option.map_some, List.filter_cons, Option.isNone_some,
        Bool.false_eq_true, if_false, List.map_cons, List.count_cons] at ih ⊢
      omega

/-- A call waits for the run, or has asked for it. -/
def LiveState.Knows (s : LiveState Spec Result) (w : ℕ) (id : String) : Prop :=
  s.page.waiting.get? w = some id ∨ ∃ q found, s.requests.get? q = some ⟨w, id, found⟩

/-- Nobody waits for a run that is shown as over. -/
def Page.Open (p : Page Spec Result) : Prop :=
  ∀ w id, p.waiting.get? w = some id → Page.finished p.tasks id = none

/-- What a step does to those who wait. -/
structure WaitStep (s s' : LiveState Spec Result) (l : LiveLabel Spec Result)
    (o : LiveOut Spec Result) : Prop where
  knows : ∀ w id, s'.Knows w id → s.Knows w id ∨ l = .waitForTask w id
  answers : ∀ a ∈ o.answers, (s.Knows a.1 a.2.id ∨ l = .waitForTask a.1 a.2.id) ∧
    a.2.status.unfinished = false
  count : ∀ w, (o.answers.map Prod.fst).count w + (Table.keys s'.page.waiting).count w +
    s.called.count w = (Table.keys s.page.waiting).count w + s'.called.count w
  called : s'.called = s.called ∧ (∀ w id, l ≠ .waitForTask w id) ∨
    ∃ w id, l = .waitForTask w id ∧ w ∉ s.called ∧ s'.called = w :: s.called
  shown : s.page.Open → s'.page.Open

/-- Those who wait are left alone. -/
theorem WaitStep.of_still (h_l : ∀ w id, l ≠ .waitForTask w id)
    (h_waiting : s'.page.waiting = s.page.waiting) (h_tasks : s'.page.tasks = s.page.tasks)
    (h_called : s'.called = s.called) (h_requests : ∀ w id, s'.Knows w id → s.Knows w id) :
    WaitStep s s' l {} where
  knows w id h := .inl (h_requests w id h)
  answers a h := by cases h
  count w := by simp [h_waiting, h_called]
  called := .inl ⟨h_called, h_l⟩
  shown h := by rwa [Page.Open, h_waiting, h_tasks]

/-- A change of the page answers some of them. -/
theorem WaitStep.of_setPage (h_l : ∀ w id, l ≠ .waitForTask w id) {p : Page Spec Result}
    (h_waiting : p.waiting = s.page.waiting) (h_waiting' : s'.page.waiting = p.update.1.waiting)
    (h_tasks : s'.page.tasks = p.tasks) (h_called : s'.called = s.called)
    (h_requests : s'.requests = s.requests) : WaitStep s s' l { answers := p.update.2 } where
  knows w id h := by
    left
    obtain h_get | h_request := h
    · rw [h_waiting', Page.update, Table.get?_filter, h_waiting] at h_get
      exact .inl h_get.1
    · exact .inr (h_requests ▸ h_request)
  answers a h := by
    -- an answer comes from the entry of a call, whose id it has
    obtain ⟨e, h_e, h_some⟩ := List.mem_filterMap.mp h
    obtain ⟨run, h_run, rfl⟩ := Option.map_eq_some_iff.mp h_some
    obtain ⟨h_id, h_over⟩ := Page.finished_some h_run
    refine ⟨.inl (.inl ?_), h_over⟩
    rw [h_waiting] at h_e
    exact Table.get?_eq_some_iff.mpr (h_id ▸ h_e)
  count w := by
    rw [h_waiting', h_called, count_update, h_waiting]
  called := .inl ⟨h_called, h_l⟩
  shown _ w id h_get := by
    rw [h_waiting', Page.update, Table.get?_filter] at h_get
    rw [h_tasks]
    simpa using h_get.2

theorem knows_same (h_waiting : s'.page.waiting = s.page.waiting)
    (h_requests : s'.requests = s.requests) (w : ℕ) (id : String) (h : s'.Knows w id) :
    s.Knows w id := by
  rwa [LiveState.Knows, h_waiting, h_requests] at h

theorem knows_erase {q : ℕ} (h_waiting : ∀ w id, s'.page.waiting.get? w = some id →
      s.page.waiting.get? w = some id) (h_requests : s'.requests = s.requests.erase q) (w : ℕ)
    (id : String) (h : s'.Knows w id) : s.Knows w id := by
  obtain h_get | ⟨q', found, h_get⟩ := h
  · exact .inl (h_waiting w id h_get)
  · rw [h_requests, Table.get?_erase] at h_get
    exact .inr ⟨q', found, h_get.1⟩

/-- A call whose run is shown as over is answered at once, -/
theorem waitStep_answered {w : ℕ} {id : String} {run : TaskRun Spec Result} (h_fresh : w ∉ s.called)
    (h_run : Page.finished s.page.tasks id = some run) :
    WaitStep s { s with called := w :: s.called } (.waitForTask w id)
      { answers := [(w, run)] } := by
  obtain ⟨rfl, h_over⟩ := Page.finished_some h_run
  refine ⟨fun w' id' h => .inl (knows_same rfl rfl w' id' h), ?_, ?_,
    .inr ⟨w, run.id, rfl, h_fresh, rfl⟩, fun h => h⟩
  · intro a h_a
    obtain rfl := List.mem_singleton.mp h_a
    exact ⟨.inr rfl, h_over⟩
  · intro w'
    simp only [List.map_cons, List.map_nil, List.count_cons, List.count_nil]
    omega

/-- and another one waits. -/
theorem waitStep_waits {w : ℕ} {id : String} (h_fresh : w ∉ s.called)
    (h_called : ∀ w ∈ Table.keys s.page.waiting, w ∈ s.called)
    (h_none : Page.finished s.page.tasks id = none) :
    WaitStep s { s with
      called := w :: s.called
      page := { s.page with waiting := s.page.waiting.set w id } } (.waitForTask w id) {} := by
  -- a call is new, so its entry replaces none
  have h_keys := Table.keys_set_of_fresh id fun h => h_fresh (h_called w h)
  refine ⟨?_, by simp, ?_, .inr ⟨w, id, rfl, h_fresh, rfl⟩, ?_⟩
  · rintro w' id' (h_get | h_request)
    · obtain ⟨rfl, rfl⟩ | ⟨-, h_old⟩ := Table.get?_set_eq_some h_get
      · exact .inr rfl
      · exact .inl (.inl h_old)
    · exact .inl (.inr h_request)
  · intro w'
    simp only [h_keys, List.map_nil, List.count_nil, List.count_append, List.count_cons]
    omega
  · intro h_open w' id' h_get
    obtain ⟨rfl, rfl⟩ | ⟨-, h_old⟩ := Table.get?_set_eq_some h_get
    · exact h_none
    · exact h_open w' id' h_old

/-- The answer to a request that a waiter has made ends its wait. -/
theorem waitStep_received {q w : ℕ} {id : String} {found : Option (TaskRun Spec Result)}
    {run : TaskRun Spec Result} (h_request : s.requests.get? q = some ⟨w, id, some found⟩)
    (h_run : Page.finished found.toList id = some run) (h_mem : w ∈ Table.keys s.page.waiting) :
    WaitStep s { s with
      requests := s.requests.erase q
      page := { s.page with waiting := s.page.waiting.erase w } } (.received q)
      { answers := [(w, run)] } := by
  obtain ⟨rfl, h_over⟩ := Page.finished_some h_run
  have h_old {w' : ℕ} {id' : String} (h : (s.page.waiting.erase w).get? w' = some id') :
      s.page.waiting.get? w' = some id' := (Table.get?_erase.mp h).1
  refine ⟨fun w' id' h => .inl (knows_erase (fun _ _ => h_old) rfl w' id' h), ?_, ?_,
    .inl ⟨rfl, by simp⟩, fun h_open w' id' h => h_open w' id' (h_old h)⟩
  · intro a h_a
    obtain rfl := List.mem_singleton.mp h_a
    exact ⟨.inl (.inr ⟨q, some found, h_request⟩), h_over⟩
  · intro w'
    have h_pos := List.count_pos_iff.mpr h_mem
    simp only [Table.keys_erase, List.map_cons, List.map_nil, List.count_cons, List.count_nil,
      List.count_erase]
    -- only the entry of `w` goes, and `w` has one
    by_cases h_w : w = w'
    · subst h_w
      simp only [beq_self_eq_true, if_true]
      omega
    · simp [h_w]

theorem waitStep (h_step : s.step kind l = some (s', o))
    (h_called : ∀ w ∈ Table.keys s.page.waiting, w ∈ s.called) : WaitStep s s' l o := by
  cases l with
  | server t =>
    obtain ⟨⟨server, out⟩, -, h_eq⟩ := Option.map_eq_some_iff.mp h_step
    cases h_eq
    have h_rest : (s.serve t server out).called = s.called ∧
        (s.serve t server out).requests = s.requests := by
      unfold LiveState.serve
      split <;> exact ⟨rfl, rfl⟩
    have h_page := (server_serve s t server out).2
    have h_waiting := congrArg Page.waiting h_page
    exact .of_still (by simp) h_waiting (congrArg Page.tasks h_page) h_rest.1
      (knows_same h_waiting h_rest.2)
  | accept k sees =>
    simp only [LiveState.step] at h_step
    split at h_step
    · cases h_step
      exact .of_still (by simp) rfl rfl rfl (knows_same rfl rfl)
    · cases h_step
  | drop k =>
    obtain ⟨socket, -, h_eq⟩ := Option.map_eq_some_iff.mp h_step
    cases h_eq
    exact .of_still (by simp) rfl rfl rfl (knows_same rfl rfl)
  | start token =>
    simp only [LiveState.step] at h_step
    split at h_step
    · cases h_step
      exact .of_still (by simp) rfl rfl rfl (knows_same rfl rfl)
    · cases h_step
      obtain ⟨h_waiting, h_tasks, h_called, h_requests⟩ :=
        connect_still { s with page := { s.page with running := true } } token
      exact .of_still (by simp) h_waiting h_tasks h_called (knows_same h_waiting h_requests)
  | stop =>
    cases h_step
    -- `stop` clears the rows and calls the listeners, who answer nobody
    exact .of_setPage (by simp) rfl rfl rfl rfl rfl
  | opened k =>
    simp only [LiveState.step] at h_step
    split at h_step
    · cases h_step
      exact .of_setPage (by simp) rfl rfl rfl rfl rfl
    · cases h_step
      exact .of_still (by simp) rfl rfl rfl (knows_same rfl rfl)
  | arrive k =>
    simp only [LiveState.step] at h_step
    split at h_step
    · split at h_step
      · cases h_step
        exact .of_setPage (by simp) rfl rfl rfl rfl rfl
      · cases h_step
        exact .of_still (by simp) rfl rfl rfl (knows_same rfl rfl)
    · cases h_step
  | closed k =>
    simp only [LiveState.step] at h_step
    split at h_step
    · split at h_step
      · cases h_step
        exact .of_still (by simp) rfl rfl rfl (knows_same rfl rfl)
      · cases h_step
        exact .of_setPage (by simp) rfl rfl rfl rfl rfl
    · cases h_step
      exact .of_still (by simp) rfl rfl rfl (knows_same rfl rfl)
  | reconnect t token =>
    obtain ⟨-, -, h_eq⟩ := Option.map_eq_some_iff.mp h_step
    cases h_eq
    obtain ⟨h_waiting, h_tasks, h_called, h_requests⟩ :=
      connect_still { s with timers := s.timers.erase t } token
    exact .of_still (by simp) h_waiting h_tasks h_called (knows_same h_waiting h_requests)
  | waitForTask w id =>
    simp only [LiveState.step] at h_step
    split at h_step
    · cases h_step
    · next h_fresh =>
      split at h_step
      · next run h_run =>
        cases h_step
        exact waitStep_answered h_fresh h_run
      · next h_none =>
        cases h_step
        exact waitStep_waits h_fresh h_called h_none
  | ask w =>
    simp only [LiveState.step] at h_step
    split at h_step
    · next id h_waits =>
      split at h_step <;> cases h_step
      refine .of_still (by simp) rfl rfl rfl ?_
      -- the request is made for the id its call waits for
      rintro w' id' (h_get | ⟨q, found, h_get⟩)
      · exact .inl h_get
      · obtain ⟨-, h_eq⟩ | ⟨-, h_old⟩ := Table.get?_set_eq_some h_get
        · cases h_eq
          exact .inl h_waits
        · exact .inr ⟨q, found, h_old⟩
    · cases h_step
  | reply q =>
    simp only [LiveState.step] at h_step
    split at h_step <;> cases h_step
    next w id h_request =>
    refine .of_still (by simp) rfl rfl rfl ?_
    rintro w' id' (h_get | ⟨q', found, h_get⟩)
    · exact .inl h_get
    · obtain ⟨-, h_eq⟩ | ⟨-, h_old⟩ := Table.get?_set_eq_some h_get
      · cases h_eq
        exact .inr ⟨q, none, h_request⟩
      · exact .inr ⟨q', found, h_old⟩
  | received q =>
    simp only [LiveState.step] at h_step
    split at h_step
    · next w id found h_request =>
      split at h_step
      · next run h_run =>
        split at h_step
        -- the run may have come over the socket in the meantime
        · next h_mem =>
          cases h_step
          exact waitStep_received h_request h_run h_mem
        · cases h_step
          exact .of_still (by simp) rfl rfl rfl (knows_erase (fun _ _ h => h) rfl)
      · cases h_step
        exact .of_still (by simp) rfl rfl rfl (knows_erase (fun _ _ h => h) rfl)
    · cases h_step

/-- What is known of those who wait. -/
structure WaitsInv (tr : LiveTrace Spec Result) (s : LiveState Spec Result) : Prop where
  count : ∀ w, answersOf tr w + (Table.keys s.page.waiting).count w = s.called.count w
  once : s.called.Nodup
  called : ∀ w id o, (.waitForTask w id, o) ∈ tr → w ∈ s.called
  knows : ∀ w id, s.Knows w id → ∃ o, (.waitForTask w id, o) ∈ tr
  answers : ∀ e ∈ tr, ∀ a ∈ e.2.answers, (∃ o, (.waitForTask a.1 a.2.id, o) ∈ tr) ∧
    a.2.status.unfinished = false
  shown : s.page.Open

variable {tr : LiveTrace Spec Result}

theorem WaitsInv.step (h : WaitsInv tr s) (h_step : WaitStep s s' l o) :
    WaitsInv (tr ++ [(l, o)]) s' := by
  -- what is known of a call was known before, or the call is made now
  have h_known {w : ℕ} {id : String} (h_knows : s.Knows w id ∨ l = .waitForTask w id) :
      ∃ o', (.waitForTask w id, o') ∈ tr ++ [(l, o)] := by
    obtain h_old | rfl := h_knows
    · obtain ⟨o', h_mem⟩ := h.knows w id h_old
      exact ⟨o', List.mem_append_left _ h_mem⟩
    · exact ⟨o, by simp⟩
  constructor
  case count =>
    intro w
    have h_before := h.count w
    have h_count := h_step.count w
    rw [answersOf_snoc]
    omega
  case once =>
    obtain ⟨h_same, -⟩ | ⟨w, id, -, h_fresh, h_new⟩ := h_step.called
    · exact h_same ▸ h.once
    · exact h_new ▸ List.nodup_cons.mpr ⟨h_fresh, h.once⟩
  case called =>
    intro w id o' h_mem
    obtain h_old | h_last := List.mem_append.mp h_mem
    · have h_called := h.called w id o' h_old
      obtain ⟨h_same, -⟩ | ⟨w', id', -, -, h_new⟩ := h_step.called
      · exact h_same ▸ h_called
      · exact h_new ▸ List.mem_cons_of_mem _ h_called
    · obtain ⟨rfl, rfl⟩ := Prod.mk.inj (List.mem_singleton.mp h_last)
      obtain ⟨-, h_none⟩ | ⟨w', id', h_eq, -, h_new⟩ := h_step.called
      · exact absurd rfl (h_none w id)
      · cases h_eq
        exact h_new ▸ List.mem_cons_self
  case knows => exact fun w id h_knows => h_known (h_step.knows w id h_knows)
  case answers =>
    intro e h_e a h_a
    obtain h_old | h_last := List.mem_append.mp h_e
    · obtain ⟨⟨o', h_mem⟩, h_over⟩ := h.answers e h_old a h_a
      exact ⟨⟨o', List.mem_append_left _ h_mem⟩, h_over⟩
    · obtain rfl := List.mem_singleton.mp h_last
      obtain ⟨h_knows, h_over⟩ := h_step.answers a h_a
      exact ⟨h_known h_knows, h_over⟩
  case shown => exact h_step.shown h.shown

theorem waits_inv (h_run : (liveMachine kind).Run tr s) : WaitsInv tr s := by
  refine Machine.RunWhen.history (P := WaitsInv) ?_ ?_ h_run
  · constructor <;> simp [liveMachine, answersOf, LiveState.Knows, Page.Open, Table.keys]
  · intro tr s l s' o _ ih _ h_step
    -- who is in the table has been called: the two counts add up to the calls
    refine ih.step (waitStep h_step fun w h_mem => ?_)
    have h_count := ih.count w
    have h_pos := List.count_pos_iff.mpr h_mem
    exact List.count_pos_iff.mp (by omega)

/-- **Who waits is answered once.** Every call of `waitForTask` still waits or was answered, once,
with the run it asked for, which is over then; and nobody waits for a run that the browser shows
as over. -/
theorem waits_end (h_run : (liveMachine kind).Run tr s) :
    (∀ w id o, (.waitForTask w id, o) ∈ tr →
      answersOf tr w + (Table.keys s.page.waiting).count w = 1) ∧
    (∀ e ∈ tr, ∀ a ∈ e.2.answers, (∃ o, (.waitForTask a.1 a.2.id, o) ∈ tr) ∧
      a.2.status.unfinished = false) ∧
    ∀ w id, s.page.waiting.get? w = some id → ∀ row, rowOf TaskRun.id s.page.tasks id = some row →
      row.status.unfinished = true := by
  have h_inv := waits_inv h_run
  refine ⟨fun w id o h_mem => ?_, h_inv.answers, fun w id h_get row h_row => ?_⟩
  -- `called` has no duplicates, so each call counts once
  · rw [h_inv.count]
    exact List.count_eq_one_of_mem h_inv.once (h_inv.called w id o h_mem)
  · exact Page.finished_none (h_inv.shown w id h_get) h_row

/-- The run begins, and ends with an error. -/
def watchedEnd : List (LiveLabel String String) :=
  watchedRun ++ [.server (.begin "r" 6), .server (.made (some "r")), .server (.written (some "r")),
    .server (.renamed (some "r")), .server (.announce "r"), .arrive 0,
    .server (.finish "r" (.ok ()) (.error "no such pool") 7), .server (.made (some "r")),
    .server (.written (some "r")), .server (.renamed (some "r")), .server (.announce "r"),
    .arrive 0]

theorem waits_end_watched : ∃ tr s o, (liveMachine namedUpdate).Run tr s ∧
    (.waitForTask 1 "r", o) ∈ tr ∧ s.page.waiting.get? 1 = none ∧ answersOf tr 1 = 1 := by
  have h_exec : ((liveMachine namedUpdate).exec (liveMachine namedUpdate).init watchedEnd).map
      (fun q => q.2.page.waiting.get? 1) = some none := by decide +kernel
  obtain ⟨⟨tr, s⟩, h_exec, h_gone⟩ := Option.map_eq_some_iff.mp h_exec
  have h_run := Machine.run_of_exec watchedEnd h_exec
  obtain ⟨⟨l, o⟩, h_mem, rfl⟩ : ∃ e ∈ tr, e.1 = .waitForTask 1 "r" := by
    rw [← List.mem_map, Machine.exec_labels h_exec]
    simp [watchedEnd, watchedRun]
  have h_count := (waits_end h_run).1 1 "r" o h_mem
  rw [List.count_eq_zero.mpr (Table.get?_eq_none_iff.mp h_gone)] at h_count
  exact ⟨tr, s, o, h_run, h_mem, h_gone, h_count⟩

end Waits

/-! ### The next socket -/

section Reconnects

variable {s s' : LiveState Spec Result} {l : LiveLabel Spec Result} {o : LiveOut Spec Result}

/-- There is a token whenever the browser connects. -/
def hasToken (_ : LiveState Spec Result) : LiveLabel Spec Result → Bool
  | .start token | .reconnect _ token => token
  | _ => true

/-- A browser that runs has a socket or a timer for the next one, and another one has neither. -/
inductive Connects (s : LiveState Spec Result) : Prop
  | stopped (h_running : s.page.running = false) (h_ws : s.page.ws = none)
      (h_timers : ∀ t, s.timers.get? t = none) (h_tasks : s.page.tasks = [])
  | connected (h_running : s.page.running = true) (k : ℕ) (h_ws : s.page.ws = some k)
      (h_timers : ∀ t, s.timers.get? t = none)
  | waits (h_running : s.page.running = true) (h_ws : s.page.ws = none) (t : ℕ)
      (h_timer : s.page.reconnectTimer = some t)
      (h_timers : ∀ t', s.timers.get? t' = some () ↔ t' = t)

theorem Connects.of_same (h : Connects s) (h_running : s'.page.running = s.page.running)
    (h_ws : s'.page.ws = s.page.ws) (h_timer : s'.page.reconnectTimer = s.page.reconnectTimer)
    (h_timers : s'.timers = s.timers) (h_tasks : s.page.ws = none → s'.page.tasks = s.page.tasks) :
    Connects s' := by
  cases h with
  | stopped h_off h_none h_empty h_nil =>
    exact .stopped (h_running ▸ h_off) (h_ws ▸ h_none) (h_timers ▸ h_empty)
      ((h_tasks h_none).trans h_nil)
  | connected h_on k h_some h_empty =>
    exact .connected (h_running ▸ h_on) k (h_ws ▸ h_some) (h_timers ▸ h_empty)
  | waits h_on h_none t h_pending h_one =>
    exact .waits (h_running ▸ h_on) (h_ws ▸ h_none) t (h_timer ▸ h_pending) (h_timers ▸ h_one)

theorem connects_connect (h_running : s.page.running = true)
    (h_timers : ∀ t, s.timers.get? t = none) : Connects (s.connect true) := by
  rw [LiveState.connect, if_neg (by simp [h_running])]
  exact .connected h_running s.next rfl h_timers

/-- Stopping cancels what is pending. -/
theorem Connects.cancelled (h : Connects s) (t : ℕ) :
    (s.timers.cancel s.page.reconnectTimer).get? t = none := by
  -- no timer is pending, so there is none to cancel
  have h_empty (h_none : ∀ t, s.timers.get? t = none) :
      (s.timers.cancel s.page.reconnectTimer).get? t = none := by
    cases s.page.reconnectTimer with
    | none => exact h_none t
    | some t' =>
      rw [Option.eq_none_iff_forall_ne_some]
      intro v h_get
      cases (h_none t).symm.trans (Table.get?_erase.mp h_get).1
  cases h with
  | stopped _ _ h_none _ => exact h_empty h_none
  | connected _ _ _ h_none => exact h_empty h_none
  | waits _ _ t' h_timer h_one =>
    rw [h_timer, Option.eq_none_iff_forall_ne_some]
    intro v h_get
    obtain ⟨h_old, h_ne⟩ := Table.get?_erase.mp h_get
    exact h_ne ((h_one t).mp h_old)

theorem Connects.step (h : Connects s) (h_token : hasToken s l = true)
    (h_step : s.step kind l = some (s', o)) : Connects s' := by
  -- the steps of `waitForTask` touch neither a socket nor a timer
  by_cases h_waits : l.waits = true
  · have h_aside := aside h_step h_waits
    exact h.of_same h_aside.running h_aside.ws h_aside.reconnectTimer h_aside.timers
      fun _ => h_aside.tasks
  cases l with
  | server t =>
    obtain ⟨⟨server, out⟩, -, h_eq⟩ := Option.map_eq_some_iff.mp h_step
    cases h_eq
    have h_page := (server_serve s t server out).2
    have h_timers : (s.serve t server out).timers = s.timers := by
      unfold LiveState.serve
      split <;> rfl
    exact h.of_same (congrArg Page.running h_page) (congrArg Page.ws h_page)
      (congrArg Page.reconnectTimer h_page) h_timers fun _ => congrArg Page.tasks h_page
  | accept k sees =>
    simp only [LiveState.step] at h_step
    split at h_step <;> cases h_step
    exact h.of_same rfl rfl rfl rfl fun _ => rfl
  | drop k =>
    obtain ⟨socket, -, h_eq⟩ := Option.map_eq_some_iff.mp h_step
    cases h_eq
    exact h.of_same rfl rfl rfl rfl fun _ => rfl
  | start token =>
    obtain rfl : token = true := h_token
    simp only [LiveState.step] at h_step
    split at h_step
    · cases h_step
      exact h
    · next h_off =>
      cases h_step
      cases h with
      | stopped _ _ h_timers _ => exact connects_connect rfl h_timers
      | connected h_on => exact absurd h_on h_off
      | waits h_on => exact absurd h_on h_off
  | stop =>
    cases h_step
    exact .stopped rfl rfl h.cancelled rfl
  | opened k =>
    simp only [LiveState.step] at h_step
    split at h_step <;> cases h_step <;> exact h.of_same rfl rfl rfl rfl fun _ => rfl
  | arrive k =>
    simp only [LiveState.step] at h_step
    split at h_step
    · split at h_step
      · next h_ws =>
        cases h_step
        exact h.of_same rfl rfl rfl rfl fun h_none => by simp [h_none] at h_ws
      · cases h_step
        exact h.of_same rfl rfl rfl rfl fun _ => rfl
    · cases h_step
  | closed k =>
    simp only [LiveState.step] at h_step
    split at h_step
    · next h_k =>
      cases h with
      | stopped _ h_ws => simp [h_ws] at h_k
      | waits _ h_ws => simp [h_ws] at h_k
      | connected h_on _ _ h_timers =>
        split at h_step
        · next h_off => simp [h_on] at h_off
        · cases h_step
          refine .waits h_on rfl s.next rfl fun t => ?_
          simp only [LiveState.setPage, Table.get?_set]
          split <;> simp_all
    · cases h_step
      exact h
  | reconnect t token =>
    obtain rfl : token = true := h_token
    obtain ⟨v, h_get, h_eq⟩ := Option.map_eq_some_iff.mp h_step
    cases h_eq
    cases h with
    | stopped _ _ h_timers => simp [h_timers] at h_get
    | connected _ _ _ h_timers => simp [h_timers] at h_get
    | waits h_on _ t' _ h_one =>
      obtain rfl := (h_one t).mp h_get
      refine connects_connect h_on fun t' => Option.eq_none_iff_forall_ne_some.mpr ?_
      intro v h_left
      obtain ⟨h_old, h_ne⟩ := Table.get?_erase.mp h_left
      exact h_ne ((h_one t').mp h_old)
  | _ => exact absurd rfl h_waits

/-- **The browser reconnects.** As long as there is a token, a browser that runs has a socket and
no pending timer, or no socket and one timer, which opens the next one; a browser that was stopped
has neither, and shows no run. -/
theorem reconnects {tr : LiveTrace Spec Result}
    (h_run : (liveMachine kind).RunWhen (fun s l => hasToken s l = true) tr s) :
    (s.page.running = true →
      (∃ k, s.page.ws = some k) ∧ (∀ t, s.timers.get? t = none) ∨
        s.page.ws = none ∧ ∃ t, ∀ t', s.timers.get? t' = some () ↔ t' = t) ∧
    (s.page.running = false →
      s.page.ws = none ∧ (∀ t, s.timers.get? t = none) ∧ s.page.tasks = []) := by
  have h : Connects s := by
    refine Machine.RunWhen.invariant (P := Connects) ?_ ?_ h_run
    · exact .stopped rfl rfl (fun _ => rfl) rfl
    · exact fun s l s' o ih h_token h_step => ih.step h_token h_step
  cases h with
  | stopped h_off h_ws h_timers h_tasks =>
    exact ⟨fun h_on => absurd (h_on.symm.trans h_off) (by simp), fun _ => ⟨h_ws, h_timers, h_tasks⟩⟩
  | connected h_on k h_ws h_timers =>
    exact ⟨fun _ => .inl ⟨⟨k, h_ws⟩, h_timers⟩, fun h_off => absurd (h_on.symm.trans h_off) (by simp)⟩
  | waits h_on h_ws t _ h_one =>
    exact ⟨fun _ => .inr ⟨h_ws, t, h_one⟩, fun h_off => absurd (h_on.symm.trans h_off) (by simp)⟩

/-- The socket is closed, and the next one is opened after its timer. -/
def droppedSocket : List (LiveLabel String String) := watchedRun ++ [.drop 0, .closed 0]

theorem reconnects_dropped : ∃ tr s,
    (liveMachine namedUpdate).RunWhen (fun s l => hasToken s l = true) tr s ∧
      s.page.ws = none ∧ ∃ t, ∀ t', s.timers.get? t' = some () ↔ t' = t := by
  have h_exec : ((liveMachine namedUpdate).exec (liveMachine namedUpdate).init droppedSocket).map
      (fun q => (q.2.page.running, q.2.page.ws)) = some (true, none) := by decide +kernel
  obtain ⟨⟨tr, s⟩, h_exec, h_read⟩ := Option.map_eq_some_iff.mp h_exec
  obtain ⟨h_on, h_ws⟩ := Prod.mk.inj h_read
  have h_run : (liveMachine namedUpdate).RunWhen (fun s l => hasToken s l = true) tr s :=
    Machine.runWhen_of_exec droppedSocket h_exec (by decide +kernel)
  obtain ⟨⟨k, h_some⟩, -⟩ | h_waits := (reconnects h_run).1 h_on
  · cases h_ws.symm.trans h_some
  · exact ⟨tr, s, h_run, h_waits⟩

end Reconnects

end ServerCentral.Tasks
