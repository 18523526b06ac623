import ServerCentral.Tasks.Lifecycle

/-!
# Runs only advance, while snapshots reach the file in order

A snapshot holds the states that the runs had when it was taken, so of two snapshots the one
with the larger number holds the later states (`ServerInv.newer`). A run that has been stored or
broadcast in some state is in that state or a later one in its object, in `tasks.json` and in
every write whose snapshot is newer than `tasks.json` (`Seen`). A rename in order keeps this; one
out of order brings an older state back (`late_snapshot`).
-/

open Framework

namespace ServerCentral.Tasks

variable {Spec Result : Type}

/-! ### States of a run -/

theorem Advances.refl (run : TaskRun Spec Result) : Advances run run := ⟨le_rfl, fun _ => rfl⟩

theorem Advances.trans {first second third : TaskRun Spec Result} (h : Advances first second)
    (h' : Advances second third) : Advances first third where
  rank := h.rank.trans h'.rank
  final h_over := by
    obtain rfl := h.final h_over
    exact h'.final h_over

/-- A step from a state that is not final. -/
theorem Advances.of_unfinished {run later : TaskRun Spec Result}
    (h : run.status.unfinished = true) (h_rank : run.status.rank ≤ later.status.rank) :
    Advances run later :=
  ⟨h_rank, fun h_over => absurd h_over (by simp [h])⟩

theorem wellFormed_newRun (id : String) (spec : Spec) (target userId : Option String) (now : ℕ) :
    WellFormed (newRun id spec target userId now : TaskRun Spec Result) where
  known h := by cases h
  finishedAt := by simp [newRun, TaskStatus.unfinished]
  result h := by cases h
  error h := by cases h

/-- An unfinished run has neither a result nor an error. -/
theorem WellFormed.open {run : TaskRun Spec Result} (h : WellFormed run)
    (h_open : run.status.unfinished = true) : run.result = none ∧ run.error = none := by
  constructor
  · cases h_result : run.result with
    | none => rfl
    | some result => simp [h.result (by simp [h_result]), TaskStatus.unfinished] at h_open
  · cases h_error : run.error with
    | none => rfl
    | some message => simp [h.error (by simp [h_error]), TaskStatus.unfinished] at h_open

theorem WellFormed.begun {run : TaskRun Spec Result} (h : WellFormed run)
    (h_pending : run.status = .pending) (now : ℕ) : WellFormed (run.begun now) := by
  have h_open : run.status.unfinished = true := by simp [h_pending, TaskStatus.unfinished]
  obtain ⟨h_result, h_error⟩ := h.open h_open
  refine ⟨by simp [TaskRun.begun], ?_, by simp [TaskRun.begun, h_result],
    by simp [TaskRun.begun, h_error]⟩
  have h_finished : run.finishedAt.isSome = false := by
    rw [Bool.eq_false_iff, ne_eq, h.finishedAt]
    simp [h_open]
  simp [TaskRun.begun, TaskStatus.unfinished, h_finished]

theorem WellFormed.over {run : TaskRun Spec Result} (h : WellFormed run)
    (h_open : run.status.unfinished = true) (outcome : Except String Result) (now : ℕ) :
    WellFormed (run.over outcome now) := by
  obtain ⟨h_result, h_error⟩ := h.open h_open
  cases outcome with
  | ok result => constructor <;> simp [TaskRun.over, TaskStatus.unfinished, h_error]
  | error message => constructor <;> simp [TaskRun.over, TaskStatus.unfinished, h_result]

theorem WellFormed.reapOrphan {run : TaskRun Spec Result} (h : WellFormed run)
    (resolveOrphan : TaskRun Spec Result → Option (Except String Result)) (now : String → ℕ) :
    WellFormed (reapOrphan resolveOrphan now run) := by
  rw [Tasks.reapOrphan]
  split
  · exact h
  · next h_over =>
    obtain ⟨h_result, h_error⟩ := h.open (by simpa using h_over)
    split
    · constructor <;> simp [TaskStatus.unfinished, h_error]
    · constructor <;> simp [TaskStatus.unfinished, h_result]
    · constructor <;> simp [TaskStatus.unfinished, h_result]

theorem rank_le_two (status : TaskStatus) : status.rank ≤ 2 := by
  cases status <;> decide

theorem advances_over {run : TaskRun Spec Result} (h_open : run.status.unfinished = true)
    (outcome : Except String Result) (now : ℕ) : Advances run (run.over outcome now) := by
  refine .of_unfinished h_open ?_
  cases outcome <;> exact rank_le_two run.status

theorem advances_reapOrphan (resolveOrphan : TaskRun Spec Result → Option (Except String Result))
    (now : String → ℕ) (run : TaskRun Spec Result) :
    Advances run (reapOrphan resolveOrphan now run) := by
  rw [reapOrphan]
  split
  · exact .refl run
  · next h_over =>
    have h_open : run.status.unfinished = true := by simpa using h_over
    split <;> exact .of_unfinished h_open (rank_le_two run.status)

/-! ### Snapshots -/

/-- A write holds a snapshot. -/
def Held (s : TaskServer Spec Result) (runs : List (TaskRun Spec Result)) (order : ℕ) : Prop :=
  ∃ owner written, s.jobOf owner = some (.snapshot runs order written)

/-- Every snapshot from the number on has a run's object as it is. -/
def Current (s : TaskServer Spec Result) (id : String) (first : ℕ) : Prop :=
  ∀ runs order, Held s runs order → first ≤ order → ∀ run ∈ runs, run.id = id →
    s.objects.get? id = some run

structure ServerInv (s : TaskServer Spec Result) : Prop where
  object : ∀ id run, s.objects.get? id = some run → id ∈ s.created ∧ run.id = id ∧ WellFormed run
  disk : ∀ run ∈ s.disk, run.id ∈ s.created ∧ WellFormed run
  held : ∀ runs order, Held s runs order → order ≤ s.taken ∧ ∀ run ∈ runs, WellFormed run ∧
    ∃ later, s.objects.get? run.id = some later ∧ Advances run later
  /-- A snapshot has one state of a run, -/
  single : ∀ runs order, Held s runs order → ∀ run ∈ runs, ∀ run' ∈ runs, run.id = run'.id →
    run = run'
  /-- and a newer one has a later state. -/
  newer : ∀ runs order runs' order', Held s runs order → Held s runs' order' → order < order' →
    ∀ run ∈ runs, ∀ run' ∈ runs', run.id = run'.id → Advances run run'
  /-- A run does not change while it is saved, -/
  saving : ∀ id runs order written,
    s.stages.get? id = some (.saving (.snapshot runs order written)) → Current s id order
  /-- or before it is broadcast. -/
  saved : ∀ id, s.stages.get? id = some .saved → Current s id (s.onDisk + 1) ∧
    ∀ run ∈ s.disk, run.id = id → s.objects.get? id = some run

/-- A state of a run that has been stored or broadcast. -/
structure Seen (s : TaskServer Spec Result) (id : String) (run : TaskRun Spec Result) : Prop where
  created : id ∈ s.created
  wellFormed : WellFormed run
  object : ∀ later, s.objects.get? id = some later → Advances run later
  disk : ∀ later ∈ s.disk, later.id = id → Advances run later
  held : ∀ runs order, Held s runs order → s.onDisk < order → ∀ later ∈ runs, later.id = id →
    Advances run later

/-! ### Steps that change no run -/

/-- The runs and the file stay, and no write gets a new snapshot. -/
structure Quiet (s s' : TaskServer Spec Result) : Prop where
  objects : s'.objects = s.objects
  created : s.created ⊆ s'.created
  disk : s'.disk = s.disk
  taken : s'.taken = s.taken
  onDisk : s'.onDisk = s.onDisk
  held : ∀ runs order, Held s' runs order → Held s runs order
  saving : ∀ id runs order written,
    s'.stages.get? id = some (.saving (.snapshot runs order written)) →
      ∃ written, s.stages.get? id = some (.saving (.snapshot runs order written))
  saved : ∀ id, s'.stages.get? id = some .saved → s.stages.get? id = some .saved

section Steps

variable {s s' : TaskServer Spec Result}

theorem Current.quiet {id : String} {first : ℕ} (h : Current s id first) (h_quiet : Quiet s s') :
    Current s' id first := by
  intro runs order h_held h_from run h_run h_id
  rw [h_quiet.objects]
  exact h runs order (h_quiet.held runs order h_held) h_from run h_run h_id

theorem ServerInv.quiet (h : ServerInv s) (h_quiet : Quiet s s') : ServerInv s' where
  object id run h_get := by
    rw [h_quiet.objects] at h_get
    obtain ⟨h_created, h_rest⟩ := h.object id run h_get
    exact ⟨h_quiet.created h_created, h_rest⟩
  disk run h_run := by
    rw [h_quiet.disk] at h_run
    obtain ⟨h_created, h_form⟩ := h.disk run h_run
    exact ⟨h_quiet.created h_created, h_form⟩
  held runs order h_held := by
    rw [h_quiet.taken, h_quiet.objects]
    exact h.held runs order (h_quiet.held runs order h_held)
  single runs order h_held := h.single runs order (h_quiet.held runs order h_held)
  newer runs order runs' order' h_held h_held' :=
    h.newer runs order runs' order' (h_quiet.held runs order h_held)
      (h_quiet.held runs' order' h_held')
  saving id runs order written h_stage := by
    obtain ⟨written', h_old⟩ := h_quiet.saving id runs order written h_stage
    exact (h.saving id runs order written' h_old).quiet h_quiet
  saved id h_stage := by
    obtain ⟨h_current, h_disk⟩ := h.saved id (h_quiet.saved id h_stage)
    rw [h_quiet.onDisk, h_quiet.disk, h_quiet.objects]
    exact ⟨h_current.quiet h_quiet, h_disk⟩

theorem Seen.quiet {id : String} {run : TaskRun Spec Result} (h : Seen s id run)
    (h_quiet : Quiet s s') : Seen s' id run where
  created := h_quiet.created h.created
  wellFormed := h.wellFormed
  object := by
    rw [h_quiet.objects]
    exact h.object
  disk := by
    rw [h_quiet.disk]
    exact h.disk
  held runs order h_held h_order := by
    rw [h_quiet.onDisk] at h_order
    exact h.held runs order (h_quiet.held runs order h_held) h_order

/-! ### A run is saved -/

variable {run : TaskRun Spec Result}

theorem held_save {runs : List (TaskRun Spec Result)} {order : ℕ}
    (h : Held (s.save run) runs order) : Held s runs order := by
  obtain ⟨owner, written, h_job⟩ := h
  refine ⟨owner, written, ?_⟩
  cases owner with
  | none => exact h_job
  | some id =>
    simp only [TaskServer.jobOf, TaskServer.save] at h_job ⊢
    by_cases h_id : id = run.id
    · rw [h_id, Table.get?_set_self] at h_job
      cases h_job
    · rwa [Table.get?_set_of_ne _ _ h_id] at h_job

theorem ServerInv.save (h : ServerInv s) (h_created : run.id ∈ s.created) (h_form : WellFormed run)
    (h_old : ∀ old, s.objects.get? run.id = some old → Advances old run) :
    ServerInv (s.save run) := by
  have h_current {id : String} {first : ℕ} (h_id : id ≠ run.id) (h_cur : Current s id first) :
      Current (s.save run) id first := by
    intro runs order h_held h_from other h_other h_other_id
    rw [TaskServer.save, Table.get?_set_of_ne _ _ h_id]
    exact h_cur runs order (held_save h_held) h_from other h_other h_other_id
  have h_stage {id : String} {stage : Stage Spec Result} (h_id : id ≠ run.id)
      (h_get : (s.save run).stages.get? id = some stage) : s.stages.get? id = some stage := by
    rwa [TaskServer.save, Table.get?_set_of_ne _ _ h_id] at h_get
  have h_self : (s.save run).stages.get? run.id =
      some (.saving (.making (Table.keys (s.store.put run)))) := Table.get?_set_self ..
  constructor
  case object =>
    intro id other h_get
    obtain ⟨rfl, rfl⟩ | ⟨-, h_other⟩ := Table.get?_set_eq_some h_get
    · exact ⟨h_created, rfl, h_form⟩
    · exact h.object id other h_other
  case disk => exact h.disk
  case held =>
    intro runs order h_held
    obtain ⟨h_order, h_runs⟩ := h.held runs order (held_save h_held)
    refine ⟨h_order, fun other h_other => ?_⟩
    obtain ⟨h_other_form, later, h_later, h_advances⟩ := h_runs other h_other
    refine ⟨h_other_form, ?_⟩
    by_cases h_id : other.id = run.id
    · refine ⟨run, by rw [h_id]; exact Table.get?_set_self .., ?_⟩
      exact h_advances.trans (h_old later (h_id ▸ h_later))
    · exact ⟨later, (Table.get?_set_of_ne _ _ h_id).trans h_later, h_advances⟩
  case single => exact fun runs order h_held => h.single runs order (held_save h_held)
  case newer =>
    exact fun runs order runs' order' h_held h_held' =>
      h.newer runs order runs' order' (held_save h_held) (held_save h_held')
  case saving =>
    intro id runs order written h_get
    by_cases h_id : id = run.id
    · rw [h_id, h_self] at h_get
      cases h_get
    · exact h_current h_id (h.saving id runs order written (h_stage h_id h_get))
  case saved =>
    intro id h_get
    by_cases h_id : id = run.id
    · rw [h_id, h_self] at h_get
      cases h_get
    · obtain ⟨h_cur, h_disk⟩ := h.saved id (h_stage h_id h_get)
      refine ⟨h_current h_id h_cur, ?_⟩
      rw [TaskServer.save, Table.get?_set_of_ne _ _ h_id]
      exact h_disk

theorem Seen.save {id : String} {obs : TaskRun Spec Result} (h : Seen s id obs)
    (h_run : id = run.id → Advances obs run) : Seen (s.save run) id obs where
  created := h.created
  wellFormed := h.wellFormed
  object later h_get := by
    obtain ⟨h_id, rfl⟩ | ⟨-, h_later⟩ := Table.get?_set_eq_some h_get
    · exact h_run h_id
    · exact h.object later h_later
  disk := h.disk
  held runs order h_held := h.held runs order (held_save h_held)

/-! ### A write takes its snapshot -/

theorem mem_read {ids : List String} (h : ServerInv s) (h_run : run ∈ s.read ids) :
    s.objects.get? run.id = some run := by
  obtain ⟨id, -, h_get⟩ := List.mem_filterMap.mp h_run
  obtain ⟨-, rfl, -⟩ := h.object id run h_get
  exact h_get

theorem held_setJob {runs runs' : List (TaskRun Spec Result)} {order order' : ℕ} {written : Bool}
    {owner : Option String} (h : Held (s.setJob (.snapshot runs order written) owner) runs' order') :
    runs' = runs ∧ order' = order ∨ Held s runs' order' := by
  obtain ⟨owner', written', h_job⟩ := h
  by_cases h_owner : owner' = owner
  · subst h_owner
    have h_own : (s.setJob (.snapshot runs order written) owner').jobOf owner' =
        some (.snapshot runs order written) := by
      cases owner' with
      | none => rfl
      | some id => simp [TaskServer.setJob, TaskServer.jobOf]
    rw [h_own] at h_job
    cases h_job
    exact .inl ⟨rfl, rfl⟩
  · refine .inr ⟨owner', written', ?_⟩
    cases owner with
    | none =>
      cases owner' with
      | none => exact absurd rfl h_owner
      | some id => exact h_job
    | some id =>
      cases owner' with
      | none => exact h_job
      | some id' =>
        have h_id : id' ≠ id := fun h_eq => h_owner (congrArg some h_eq)
        simp only [TaskServer.setJob, TaskServer.jobOf] at h_job ⊢
        rwa [Table.get?_set_of_ne _ _ h_id] at h_job

theorem stage_setJob {job : SaveJob Spec Result} {owner : Option String} {id : String}
    {stage : Stage Spec Result} (h : (s.setJob job owner).stages.get? id = some stage) :
    stage = .saving job ∨ s.stages.get? id = some stage := by
  cases owner with
  | none => exact .inr h
  | some id' =>
    obtain ⟨-, rfl⟩ | ⟨-, h_old⟩ := Table.get?_set_eq_some h
    · exact .inl rfl
    · exact .inr h_old

theorem objects_setJob (s : TaskServer Spec Result) (job : SaveJob Spec Result)
    (owner : Option String) : (s.setJob job owner).objects = s.objects ∧
      (s.setJob job owner).created = s.created ∧ (s.setJob job owner).disk = s.disk ∧
      (s.setJob job owner).taken = s.taken ∧ (s.setJob job owner).onDisk = s.onDisk := by
  cases owner <;> exact ⟨rfl, rfl, rfl, rfl, rfl⟩

theorem held_snapshot {ids : List String} {owner : Option String}
    {runs : List (TaskRun Spec Result)} {order : ℕ} (h : Held (s.snapshot ids owner) runs order) :
    runs = s.read ids ∧ order = s.taken + 1 ∨ Held s runs order :=
  held_setJob (s := { s with taken := s.taken + 1 }) h

theorem objects_snapshot (s : TaskServer Spec Result) (ids : List String) (owner : Option String) :
    (s.snapshot ids owner).objects = s.objects ∧ (s.snapshot ids owner).created = s.created ∧
      (s.snapshot ids owner).disk = s.disk ∧ (s.snapshot ids owner).taken = s.taken + 1 ∧
      (s.snapshot ids owner).onDisk = s.onDisk :=
  objects_setJob { s with taken := s.taken + 1 } _ owner

theorem ServerInv.snapshot (h : ServerInv s) (ids : List String) (owner : Option String) :
    ServerInv (s.snapshot ids owner) := by
  obtain ⟨h_objects, h_created, h_disk, h_taken, h_onDisk⟩ := objects_snapshot s ids owner
  have h_current {id : String} {first : ℕ} (h_cur : Current s id first) :
      Current (s.snapshot ids owner) id first := by
    intro runs order h_held h_first other h_other h_id
    rw [h_objects]
    obtain ⟨rfl, -⟩ | h_old := held_snapshot h_held
    · exact h_id ▸ mem_read h h_other
    · exact h_cur runs order h_old h_first other h_other h_id
  constructor
  case object =>
    rw [h_objects, h_created]
    exact h.object
  case disk =>
    rw [h_disk, h_created]
    exact h.disk
  case held =>
    intro runs order h_held
    rw [h_taken, h_objects]
    obtain ⟨rfl, rfl⟩ | h_old := held_snapshot h_held
    · refine ⟨le_rfl, fun other h_other => ?_⟩
      have h_get := mem_read h h_other
      exact ⟨(h.object _ _ h_get).2.2, other, h_get, .refl other⟩
    · obtain ⟨h_order, h_runs⟩ := h.held runs order h_old
      exact ⟨h_order.trans (Nat.le_succ _), h_runs⟩
  case single =>
    intro runs order h_held other h_other other' h_other' h_id
    obtain ⟨rfl, rfl⟩ | h_old := held_snapshot h_held
    · have h_get := mem_read h h_other
      rw [h_id, mem_read h h_other'] at h_get
      exact (Option.some.inj h_get).symm
    · exact h.single runs order h_old other h_other other' h_other' h_id
  case newer =>
    intro runs order runs' order' h_held h_held' h_lt other h_other other' h_other' h_id
    obtain ⟨rfl, rfl⟩ | h_old := held_snapshot h_held
    · obtain ⟨-, rfl⟩ | h_old' := held_snapshot h_held'
      · exact absurd h_lt (lt_irrefl _)
      · have h_order := (h.held runs' order' h_old').1
        omega
    · obtain ⟨rfl, rfl⟩ | h_old' := held_snapshot h_held'
      · obtain ⟨-, later, h_later, h_advances⟩ := (h.held runs order h_old).2 other h_other
        rw [h_id, mem_read h h_other'] at h_later
        rwa [Option.some.inj h_later]
      · exact h.newer runs order runs' order' h_old h_old' h_lt other h_other other' h_other' h_id
  case saving =>
    intro id runs order written h_stage
    obtain h_new | h_old := stage_setJob h_stage
    · obtain ⟨rfl, rfl, -⟩ := SaveJob.snapshot.inj (Stage.saving.inj h_new)
      intro runs order h_held h_first other h_other h_id
      rw [h_objects]
      obtain ⟨rfl, -⟩ | h_old := held_snapshot h_held
      · exact h_id ▸ mem_read h h_other
      · have h_order := (h.held runs order h_old).1
        omega
    · exact h_current (h.saving id runs order written h_old)
  case saved =>
    intro id h_stage
    obtain h_new | h_old := stage_setJob h_stage
    · cases h_new
    · obtain ⟨h_cur, h_saved⟩ := h.saved id h_old
      rw [h_onDisk, h_disk, h_objects]
      exact ⟨h_current h_cur, h_saved⟩

theorem Seen.snapshot {id : String} {obs : TaskRun Spec Result} (h_inv : ServerInv s)
    (h : Seen s id obs) (ids : List String) (owner : Option String) :
    Seen (s.snapshot ids owner) id obs := by
  obtain ⟨h_objects, h_created, h_disk, h_taken, h_onDisk⟩ := objects_snapshot s ids owner
  refine ⟨h_created ▸ h.created, h.wellFormed, h_objects ▸ h.object, h_disk ▸ h.disk, ?_⟩
  intro runs order h_held h_order later h_later h_id
  rw [h_onDisk] at h_order
  obtain ⟨rfl, -⟩ | h_old := held_snapshot h_held
  · exact h.object later (h_id ▸ mem_read h_inv h_later)
  · exact h.held runs order h_old h_order later h_later h_id

/-! ### A write reaches the file -/

theorem objects_rename (s : TaskServer Spec Result) (runs : List (TaskRun Spec Result)) (order : ℕ)
    (owner : Option String) : (s.rename runs order owner).objects = s.objects ∧
      (s.rename runs order owner).created = s.created ∧ (s.rename runs order owner).disk = runs ∧
      (s.rename runs order owner).taken = s.taken ∧ (s.rename runs order owner).onDisk = order := by
  cases owner <;> exact ⟨rfl, rfl, rfl, rfl, rfl⟩

theorem held_rename {runs runs' : List (TaskRun Spec Result)} {order order' : ℕ}
    {owner : Option String} (h : Held (s.rename runs order owner) runs' order') :
    Held s runs' order' := by
  obtain ⟨owner', written, h_job⟩ := h
  refine ⟨owner', written, ?_⟩
  cases owner with
  | none =>
    cases owner' with
    | none => cases h_job
    | some id => exact h_job
  | some id =>
    cases owner' with
    | none => exact h_job
    | some id' =>
      simp only [TaskServer.rename, TaskServer.endJob, TaskServer.jobOf] at h_job ⊢
      by_cases h_id : id' = id
      · rw [h_id, Table.get?_set_self] at h_job
        cases h_job
      · rwa [Table.get?_set_of_ne _ _ h_id] at h_job

theorem stage_rename {runs : List (TaskRun Spec Result)} {order : ℕ} {owner : Option String}
    {id : String} {stage : Stage Spec Result}
    (h : (s.rename runs order owner).stages.get? id = some stage) :
    owner = some id ∧ stage = .saved ∨ s.stages.get? id = some stage := by
  cases owner with
  | none => exact .inr h
  | some id' =>
    obtain ⟨rfl, rfl⟩ | ⟨-, h_old⟩ := Table.get?_set_eq_some h
    · exact .inl ⟨rfl, rfl⟩
    · exact .inr h_old

theorem stage_of_jobOf {id : String} {job : SaveJob Spec Result} (h : s.jobOf (some id) = some job) :
    s.stages.get? id = some (.saving job) := by
  simp only [TaskServer.jobOf] at h
  split at h
  · next job' h_stage => rw [h_stage, Option.some.inj h]
  · cases h

section Rename

variable {runs : List (TaskRun Spec Result)} {order : ℕ} {owner : Option String} {written : Bool}

theorem ServerInv.rename (h : ServerInv s)
    (h_job : s.jobOf owner = some (.snapshot runs order written)) (h_order : s.onDisk < order) :
    ServerInv (s.rename runs order owner) := by
  obtain ⟨h_objects, h_created, h_disk, h_taken, h_onDisk⟩ := objects_rename s runs order owner
  have h_held : Held s runs order := ⟨owner, written, h_job⟩
  have h_current {id : String} {first first' : ℕ} (h_cur : Current s id first)
      (h_le : first ≤ first') : Current (s.rename runs order owner) id first' := by
    intro runs' order' h_held' h_first run h_run h_id
    rw [h_objects]
    exact h_cur runs' order' (held_rename h_held') (h_le.trans h_first) run h_run h_id
  constructor
  case object =>
    rw [h_objects, h_created]
    exact h.object
  case disk =>
    rw [h_disk, h_created]
    intro run h_run
    obtain ⟨h_form, later, h_later, -⟩ := (h.held runs order h_held).2 run h_run
    exact ⟨(h.object _ _ h_later).1, h_form⟩
  case held =>
    intro runs' order' h_held'
    rw [h_taken, h_objects]
    exact h.held runs' order' (held_rename h_held')
  case single => exact fun runs' order' h_held' => h.single runs' order' (held_rename h_held')
  case newer =>
    exact fun runs₁ order₁ runs₂ order₂ h_held₁ h_held₂ =>
      h.newer runs₁ order₁ runs₂ order₂ (held_rename h_held₁) (held_rename h_held₂)
  case saving =>
    intro id runs' order' written' h_stage
    obtain ⟨-, h_new⟩ | h_old := stage_rename h_stage
    · cases h_new
    · exact h_current (h.saving id runs' order' written' h_old) le_rfl
  case saved =>
    intro id h_stage
    rw [h_onDisk, h_disk, h_objects]
    -- The run that has been saved has not changed since, nor have those that wait to be broadcast.
    obtain ⟨rfl, -⟩ | h_old := stage_rename h_stage
    · have h_cur := h.saving id runs order written (stage_of_jobOf h_job)
      exact ⟨h_current h_cur (Nat.le_succ order), h_cur runs order h_held le_rfl⟩
    · obtain ⟨h_cur, -⟩ := h.saved id h_old
      exact ⟨h_current h_cur (Nat.succ_le_succ h_order.le), h_cur runs order h_held h_order⟩

theorem Seen.rename {id : String} {obs : TaskRun Spec Result} (h : Seen s id obs)
    (h_held : Held s runs order) (h_order : s.onDisk < order) :
    Seen (s.rename runs order owner) id obs := by
  obtain ⟨h_objects, h_created, h_disk, -, h_onDisk⟩ := objects_rename s runs order owner
  refine ⟨h_created ▸ h.created, h.wellFormed, h_objects ▸ h.object, ?_, ?_⟩
  · rw [h_disk]
    exact h.held runs order h_held h_order
  · intro runs' order' h_held'
    rw [h_onDisk]
    intro h_order'
    exact h.held runs' order' (held_rename h_held') (h_order.trans h_order')

/-- The states that a rename stores. -/
theorem Seen.stored (h : ServerInv s) (h_held : Held s runs order) {run : TaskRun Spec Result}
    (h_run : run ∈ runs) : Seen (s.rename runs order owner) run.id run := by
  obtain ⟨h_objects, h_created, h_disk, -, h_onDisk⟩ := objects_rename s runs order owner
  obtain ⟨h_form, later, h_later, h_advances⟩ := (h.held runs order h_held).2 run h_run
  refine ⟨h_created ▸ (h.object _ _ h_later).1, h_form, ?_, ?_, ?_⟩
  · rw [h_objects]
    intro other h_other
    rw [h_later] at h_other
    rwa [← Option.some.inj h_other]
  · rw [h_disk]
    intro other h_other h_id
    obtain rfl := h.single runs order h_held run h_run other h_other h_id.symm
    exact .refl run
  · intro runs' order' h_held'
    rw [h_onDisk]
    intro h_order' other h_other h_id
    exact h.newer runs order runs' order' h_held (held_rename h_held') h_order' run h_run other
      h_other h_id.symm

end Rename

/-! ### A run is broadcast -/

/-- The stages of some runs end, and what no run depends on changes. -/
theorem Quiet.of_stages {stages : Table String (Stage Spec Result)}
    (logs : Table String (List String)) (marker : Option PendingUpdate)
    (h : ∀ id stage, stages.get? id = some stage →
      stage = .announced ∨ s.stages.get? id = some stage) :
    Quiet s { s with stages := stages, logs := logs, marker := marker } where
  objects := rfl
  created := List.Subset.refl _
  disk := rfl
  taken := rfl
  onDisk := rfl
  held runs order h_held := by
    obtain ⟨owner, written, h_job⟩ := h_held
    cases owner with
    | none => exact ⟨none, written, h_job⟩
    | some id =>
      obtain h_new | h_old := h id _ (stage_of_jobOf h_job)
      · cases h_new
      · refine ⟨some id, written, ?_⟩
        simp only [TaskServer.jobOf, h_old]
  saving id runs order written h_stage := by
    obtain h_new | h_old := h id _ h_stage
    · cases h_new
    · exact ⟨written, h_old⟩
  saved id h_stage := by
    obtain h_new | h_old := h id _ h_stage
    · cases h_new
    · exact h_old

/-- A write has written its temporary file. -/
theorem Quiet.written {owner : Option String} {runs : List (TaskRun Spec Result)} {order : ℕ}
    (h_job : s.jobOf owner = some (.snapshot runs order false)) :
    Quiet s (s.setJob (.snapshot runs order true) owner) := by
  obtain ⟨h_objects, h_created, h_disk, h_taken, h_onDisk⟩ :=
    objects_setJob s (.snapshot runs order true) owner
  refine ⟨h_objects, h_created ▸ List.Subset.refl _, h_disk, h_taken, h_onDisk, ?_, ?_, ?_⟩
  · intro runs' order' h_held
    obtain ⟨rfl, rfl⟩ | h_old := held_setJob h_held
    · exact ⟨owner, false, h_job⟩
    · exact h_old
  · intro id runs' order' written h_stage
    cases owner with
    | none => exact ⟨written, h_stage⟩
    | some id' =>
      obtain ⟨rfl, h_new⟩ | ⟨-, h_old⟩ := Table.get?_set_eq_some h_stage
      · obtain ⟨rfl, rfl, -⟩ := SaveJob.snapshot.inj (Stage.saving.inj h_new)
        exact ⟨false, stage_of_jobOf h_job⟩
      · exact ⟨written, h_old⟩
  · intro id h_stage
    obtain h_new | h_old := stage_setJob h_stage
    · cases h_new
    · exact h_old

/-- The state in which a run is broadcast. -/
theorem Seen.announced (h : ServerInv s) {id : String} {run : TaskRun Spec Result}
    (h_stage : s.stages.get? id = some .saved) (h_get : s.objects.get? id = some run) :
    Seen s id run := by
  obtain ⟨h_created, -, h_form⟩ := h.object id run h_get
  obtain ⟨h_cur, h_disk⟩ := h.saved id h_stage
  have h_same {later : TaskRun Spec Result} (h_later : s.objects.get? id = some later) :
      Advances run later := by
    rw [h_get] at h_later
    rw [Option.some.inj h_later]
    exact .refl later
  exact ⟨h_created, h_form, fun later => h_same, fun later h_later h_id =>
    h_same (h_disk later h_later h_id), fun runs order h_held h_order later h_later h_id =>
    h_same (h_cur runs order h_held h_order later h_later h_id)⟩

/-! ### Another process -/

section Boot

variable (update : UpdateKind Spec Result) (version : String) (now : String → ℕ)

/-- Its writes hold no snapshot. -/
theorem held_boot {runs : List (TaskRun Spec Result)} {order : ℕ} :
    ¬Held (s.boot update version now) runs order := by
  rintro ⟨owner, written, h_job⟩
  cases owner with
  | none =>
    simp only [TaskServer.boot, TaskServer.jobOf] at h_job
    split at h_job <;> cases h_job
  | some id => cases h_job

/-- Its runs are those of the file, taken on. -/
theorem object_boot {id : String} {run : TaskRun Spec Result}
    (h : (s.boot update version now).objects.get? id = some run) :
    ∃ old ∈ s.disk, old.id = id ∧
      run = reapOrphan (interruptedUpdateResolver update s.marker version) now old := by
  simp only [TaskServer.boot, TaskStore.init] at h
  rw [Table.get?_map, Option.map_eq_some_iff] at h
  obtain ⟨old, h_load, rfl⟩ := h
  obtain ⟨h_old, h_id⟩ := load_id h_load
  exact ⟨old, h_old, h_id, rfl⟩

theorem ServerInv.boot (h : ServerInv s) : ServerInv (s.boot update version now) where
  object id run h_get := by
    obtain ⟨old, h_old, rfl, rfl⟩ := object_boot update version now h_get
    obtain ⟨h_created, h_form⟩ := h.disk old h_old
    exact ⟨h_created, reapOrphan_id now _ old, h_form.reapOrphan _ now⟩
  disk := h.disk
  held runs order h_held := absurd h_held (held_boot update version now)
  single runs order h_held := absurd h_held (held_boot update version now)
  newer runs order runs' order' h_held := absurd h_held (held_boot update version now)
  saving id runs order written h_stage := by cases h_stage
  saved id h_stage := by cases h_stage

theorem Seen.boot {id : String} {obs : TaskRun Spec Result} (h : Seen s id obs) :
    Seen (s.boot update version now) id obs where
  created := h.created
  wellFormed := h.wellFormed
  object later h_later := by
    obtain ⟨old, h_old, h_id, rfl⟩ := object_boot update version now h_later
    exact (h.disk old h_old h_id).trans (advances_reapOrphan _ now old)
  disk := h.disk
  held runs order h_held := absurd h_held (held_boot update version now)

end Boot

/-! ### What a step does -/

/-- The steps, as far as the states of runs are concerned. -/
inductive Moves (update : UpdateKind Spec Result) (s s' : TaskServer Spec Result) :
    TaskOut Spec Result → Prop
  | quiet (h : Quiet s s') : Moves update s s' .none
  | started (run : TaskRun Spec Result) (h_fresh : run.id ∉ s.created) (h_form : WellFormed run)
      (h : s' = { s with created := s.created ++ [run.id] }.save run) : Moves update s s' .none
  | changed (old run : TaskRun Spec Result) (h_old : s.objects.get? run.id = some old)
      (h_advances : Advances old run) (h_form : WellFormed run) (h : s' = s.save run) :
      Moves update s s' .none
  | snapshot (ids : List String) (owner : Option String) (h : s' = s.snapshot ids owner) :
      Moves update s s' .none
  | renamed (runs : List (TaskRun Spec Result)) (order : ℕ) (owner : Option String)
      (written : Bool) (h_job : s.jobOf owner = some (.snapshot runs order written))
      (h_order : s.onDisk < order) (h : s' = s.rename runs order owner) :
      Moves update s s' ⟨none, some runs⟩
  | announced (id : String) (run : TaskRun Spec Result) (h_stage : s.stages.get? id = some .saved)
      (h_get : s.objects.get? id = some run) (h : Quiet s s') : Moves update s s' ⟨some run, none⟩
  | booted (version : String) (now : String → ℕ) (h : s' = s.boot update version now) :
      Moves update s s' .none

theorem resting_eq_some {id : String} {status : TaskStatus}
    (h : s.resting id status = some run) :
    s.objects.get? id = some run ∧ run.status = status := by
  rw [TaskServer.resting] at h
  split at h
  · rw [Option.filter_eq_some_iff] at h
    exact ⟨h.1, by simpa using h.2⟩
  · cases h

theorem step_moves {update : UpdateKind Spec Result} (h_inv : ServerInv s)
    {l : TaskLabel Spec Result} {o : TaskOut Spec Result} (h_ok : InOrder s l)
    (hs : s.step update l = some (s', o)) : Moves update s s' o := by
  cases l with
  | start id spec target userId now =>
    simp only [TaskServer.step] at hs
    split at hs
    · cases hs
    · next h_free =>
      rw [not_or] at h_free
      obtain ⟨rfl, rfl⟩ := Prod.mk.inj (Option.some.inj hs)
      exact .started _ h_free.2 (wellFormed_newRun id spec target userId now) rfl
  | made owner =>
    simp only [TaskServer.step] at hs
    split at hs
    · next ids h_job =>
      obtain ⟨rfl, rfl⟩ := Prod.mk.inj (Option.some.inj hs)
      exact .snapshot ids owner rfl
    · cases hs
  | written owner =>
    simp only [TaskServer.step] at hs
    split at hs
    · next runs order h_job =>
      obtain ⟨rfl, rfl⟩ := Prod.mk.inj (Option.some.inj hs)
      exact .quiet (.written h_job)
    · cases hs
  | renamed owner =>
    simp only [TaskServer.step] at hs
    simp only [InOrder] at h_ok
    split at hs
    · next runs order h_job =>
      obtain ⟨rfl, rfl⟩ := Prod.mk.inj (Option.some.inj hs)
      rw [h_job] at h_ok
      exact .renamed runs order owner true h_job h_ok rfl
    · cases hs
  | failed id =>
    simp only [TaskServer.step] at hs
    split at hs
    · obtain ⟨rfl, rfl⟩ := Prod.mk.inj (Option.some.inj hs)
      exact .quiet (.of_stages s.logs s.marker fun other stage h_get =>
        .inr (Table.get?_erase.mp h_get).1)
    · cases hs
  | announce id =>
    simp only [TaskServer.step] at hs
    split at hs
    · next run h_stage h_get =>
      obtain ⟨rfl, rfl⟩ := Prod.mk.inj (Option.some.inj hs)
      refine .announced id run h_stage h_get (.of_stages s.logs s.marker fun other stage h_other => ?_)
      split at h_other
      · obtain ⟨-, h_new⟩ | ⟨-, h_old⟩ := Table.get?_set_eq_some h_other
        · exact .inl h_new
        · exact .inr h_old
      · exact .inr (Table.get?_erase.mp h_other).1
    · cases hs
  | begin id now =>
    simp only [TaskServer.step, Option.map_eq_some_iff] at hs
    obtain ⟨run, h_rest, h_eq⟩ := hs
    obtain ⟨rfl, rfl⟩ := Prod.mk.inj h_eq
    obtain ⟨h_get, h_pending⟩ := resting_eq_some h_rest
    obtain ⟨-, h_id, h_form⟩ := h_inv.object id run h_get
    have h_open : run.status.unfinished = true := by simp [h_pending, TaskStatus.unfinished]
    refine .changed run _ (h_id ▸ h_get) (.of_unfinished h_open ?_) (h_form.begun h_pending now) rfl
    simp [h_pending, TaskStatus.rank]
  | finish id agent handled now =>
    simp only [TaskServer.step, Option.map_eq_some_iff] at hs
    obtain ⟨run, h_rest, h_eq⟩ := hs
    obtain ⟨rfl, rfl⟩ := Prod.mk.inj h_eq
    obtain ⟨h_get, h_running⟩ := resting_eq_some h_rest
    obtain ⟨-, h_id, h_form⟩ := h_inv.object id run h_get
    have h_open : run.status.unfinished = true := by simp [h_running, TaskStatus.unfinished]
    have h_same : ∀ outcome, (run.over outcome now).id = run.id := by
      intro outcome
      cases outcome <;> rfl
    refine .changed run _ ?_ (advances_over h_open _ now) (h_form.over h_open _ now) rfl
    rw [h_same, h_id, h_get]
  | log id text =>
    simp only [TaskServer.step] at hs
    split at hs
    · obtain ⟨rfl, rfl⟩ := Prod.mk.inj (Option.some.inj hs)
      exact .quiet (.of_stages _ s.marker fun _ _ h_get => .inr h_get)
    · cases hs
  | note id version =>
    simp only [TaskServer.step, Option.map_eq_some_iff] at hs
    obtain ⟨run, -, h_eq⟩ := hs
    obtain ⟨rfl, rfl⟩ := Prod.mk.inj h_eq
    exact .quiet (.of_stages s.logs _ fun _ _ h_get => .inr h_get)
  | restart version now =>
    obtain ⟨rfl, rfl⟩ := Prod.mk.inj (Option.some.inj hs)
    exact .booted version now rfl

end Steps

/-! ### Runs -/

/-- The server, and what it has shown of the runs. -/
structure LifecycleInv (tr : TaskTrace Spec Result) (s : TaskServer Spec Result) : Prop where
  server : ServerInv s
  ordered : ∀ id, (observed id tr).Pairwise Advances
  seen : ∀ id, ∀ run ∈ observed id tr, Seen s id run

theorem observed_snoc (id : String) (tr : TaskTrace Spec Result) (l : TaskLabel Spec Result)
    (o : TaskOut Spec Result) : observed id (tr ++ [(l, o)]) = observed id tr ++ o.seen id := by
  simp [observed]

/-- A step shows at most one state of a run, which all earlier ones have led to. -/
theorem LifecycleInv.snoc {tr : TaskTrace Spec Result} {s s' : TaskServer Spec Result}
    {l : TaskLabel Spec Result} {o : TaskOut Spec Result} (h : LifecycleInv tr s)
    (h_server : ServerInv s') (h_old : ∀ id run, Seen s id run → Seen s' id run)
    (h_one : ∀ id, (o.seen id).length ≤ 1)
    (h_new : ∀ id, ∀ run ∈ o.seen id, Seen s' id run ∧ ∀ obs, Seen s id obs → Advances obs run) :
    LifecycleInv (tr ++ [(l, o)]) s' where
  server := h_server
  ordered id := by
    rw [observed_snoc, List.pairwise_append]
    refine ⟨h.ordered id, ?_, fun obs h_obs run h_run => ?_⟩
    · have h_length := h_one id
      generalize o.seen id = shown at h_length
      cases shown with
      | nil => exact .nil
      | cons run rest =>
        obtain rfl : rest = [] := List.length_eq_zero_iff.mp (by simpa using h_length)
        exact List.pairwise_singleton ..
    · exact (h_new id run h_run).2 obs (h.seen id obs h_obs)
  seen id run h_run := by
    rw [observed_snoc] at h_run
    obtain h_run | h_run := List.mem_append.mp h_run
    · exact h_old id run (h.seen id run h_run)
    · exact (h_new id run h_run).1

/-- A step that shows nothing. -/
theorem LifecycleInv.silent {tr : TaskTrace Spec Result} {s s' : TaskServer Spec Result}
    {l : TaskLabel Spec Result} (h : LifecycleInv tr s) (h_server : ServerInv s')
    (h_old : ∀ id run, Seen s id run → Seen s' id run) :
    LifecycleInv (tr ++ [(l, .none)]) s' :=
  h.snoc h_server h_old (fun _ => Nat.zero_le 1) fun _ _ h_run => absurd h_run List.not_mem_nil

/-- **Step lemma.** -/
theorem LifecycleInv.step {update : UpdateKind Spec Result} {tr : TaskTrace Spec Result}
    {s s' : TaskServer Spec Result} {l : TaskLabel Spec Result} {o : TaskOut Spec Result}
    (h : LifecycleInv tr s) (h_moves : Moves update s s' o) : LifecycleInv (tr ++ [(l, o)]) s' := by
  cases h_moves with
  | quiet h_quiet => exact h.silent (h.server.quiet h_quiet) fun _ _ h_seen => h_seen.quiet h_quiet
  | started run h_fresh h_form h_eq =>
    subst h_eq
    have h_quiet : Quiet s { s with created := s.created ++ [run.id] } :=
      ⟨rfl, List.subset_append_left .., rfl, rfl, rfl, fun _ _ => id,
        fun _ _ _ written h_stage => ⟨written, h_stage⟩, fun _ => id⟩
    have h_none : ∀ old, s.objects.get? run.id = some old → Advances old run := fun old h_old =>
      absurd (h.server.object _ _ h_old).1 h_fresh
    refine h.silent ((h.server.quiet h_quiet).save (by simp) h_form h_none) fun id obs h_seen => ?_
    refine (h_seen.quiet h_quiet).save fun h_id => ?_
    exact absurd (h_id ▸ h_seen.created) h_fresh
  | changed old run h_old h_advances h_form h_eq =>
    subst h_eq
    obtain ⟨h_created, -⟩ := h.server.object _ _ h_old
    refine h.silent (h.server.save h_created h_form fun other h_other => ?_) fun id obs h_seen => ?_
    · rw [h_old] at h_other
      rwa [← Option.some.inj h_other]
    · refine h_seen.save fun h_id => ?_
      exact (h_seen.object old (h_id ▸ h_old)).trans h_advances
  | snapshot ids owner h_eq =>
    subst h_eq
    exact h.silent (h.server.snapshot ids owner) fun _ _ h_seen => h_seen.snapshot h.server ids owner
  | renamed runs order owner written h_job h_order h_eq =>
    subst h_eq
    have h_held : Held s runs order := ⟨owner, written, h_job⟩
    have h_shown (id : String) : (⟨none, some runs⟩ : TaskOut Spec Result).seen id =
        (runs.find? fun run => run.id = id).toList := by simp [TaskOut.seen]
    refine h.snoc (h.server.rename h_job h_order)
      (fun _ _ h_seen => h_seen.rename h_held h_order) (fun id => ?_) fun id run h_run => ?_
    · rw [h_shown]
      exact Option.length_toList_le
    · rw [h_shown, Option.mem_toList] at h_run
      have h_mem := List.mem_of_find?_eq_some h_run
      obtain rfl : run.id = id := by simpa using List.find?_some h_run
      exact ⟨.stored h.server h_held h_mem, fun obs h_seen =>
        h_seen.held runs order h_held h_order run h_mem rfl⟩
  | announced id run h_stage h_get h_quiet =>
    have h_seen := Seen.announced h.server h_stage h_get
    have h_shown (other : String) : (⟨some run, none⟩ : TaskOut Spec Result).seen other =
        if run.id = other then [run] else [] := by
      simp [TaskOut.seen, Option.filter]
      split <;> rfl
    refine h.snoc (h.server.quiet h_quiet) (fun _ _ h_old => h_old.quiet h_quiet)
      (fun other => ?_) fun other shown h_other => ?_
    · rw [h_shown]
      split <;> simp
    · rw [h_shown] at h_other
      split at h_other
      · next h_id =>
        obtain rfl := List.mem_singleton.mp h_other
        obtain ⟨-, rfl, -⟩ := h.server.object id shown h_get
        subst h_id
        exact ⟨h_seen.quiet h_quiet, fun obs h_obs => h_obs.object shown h_get⟩
      · cases h_other
  | booted version now h_eq =>
    subst h_eq
    exact h.silent (h.server.boot update version now) fun _ _ h_seen => h_seen.boot update version now

theorem held_init (update : UpdateKind Spec Result) (runs : List (TaskRun Spec Result))
    (order : ℕ) : ¬Held (serverMachine update).init runs order := by
  rintro ⟨owner, written, h_job⟩
  cases owner <;> cases h_job

theorem ServerInv.init (update : UpdateKind Spec Result) : ServerInv (serverMachine update).init where
  object _ _ h_get := by cases h_get
  disk _ h_run := by cases h_run
  held runs order h_held := absurd h_held (held_init update runs order)
  single runs order h_held := absurd h_held (held_init update runs order)
  newer runs order _ _ h_held := absurd h_held (held_init update runs order)
  saving _ _ _ _ h_stage := by cases h_stage
  saved _ h_stage := by cases h_stage

/-- **Run lemma.** -/
theorem LifecycleInv.of_run {update : UpdateKind Spec Result} {tr : TaskTrace Spec Result}
    {s : TaskServer Spec Result} (h : (serverMachine update).RunWhen InOrder tr s) :
    LifecycleInv tr s := by
  have h_init : LifecycleInv [] (serverMachine update).init :=
    ⟨.init update, fun _ => .nil, fun _ _ h_run => absurd h_run List.not_mem_nil⟩
  exact h.history h_init
    fun tr s l s' o _ h_inv h_ok hs => h_inv.step (step_moves h_inv.server h_ok hs)

/-- **The states of every run advance** through all processes, if every rename is in order, and
`init` settles any list. -/
theorem runs_advance (update : UpdateKind Spec Result) {tr : TaskTrace Spec Result}
    {s : TaskServer Spec Result} (h : (serverMachine update).RunWhen InOrder tr s)
    (pending : Option PendingUpdate) (version : String) (now : String → ℕ)
    (runs : List (TaskRun Spec Result)) :
    Lifecycle tr ∧ BootSafe update pending version runs
      (TaskStore.init (interruptedUpdateResolver update pending version) now runs) := by
  have h_inv := LifecycleInv.of_run h
  exact ⟨⟨h_inv.ordered, fun id run h_run => (h_inv.seen id run h_run).wellFormed⟩,
    boot_safe update pending version now runs⟩

/-! ### Runs on fixed labels -/

/-- A server whose tasks are all self-updates. -/
def selfUpdate : UpdateKind Unit String := ⟨fun _ => true, id⟩

/-- A save from its snapshot to the broadcast. -/
def saveSteps (id : String) : List (TaskLabel Unit String) :=
  [.made (some id), .written (some id), .renamed (some id), .announce id]

/-- A self-update, up to the end of the process. -/
def updateRun : List (TaskLabel Unit String) :=
  .start "x" () none none 1 :: saveSteps "x" ++ .begin "x" 2 :: saveSteps "x" ++
    [.note "x" "2", .restart "2" fun _ => 3, .made none, .written none, .renamed none]

theorem runs_advance_update : ∃ tr s, (serverMachine selfUpdate).RunWhen InOrder tr s ∧
    (observed "x" tr).map TaskRun.status =
      [.pending, .pending, .running, .running, .succeeded] ∧ Lifecycle tr := by
  obtain ⟨⟨tr, s⟩, h_exec, h_read⟩ := Option.map_eq_some_iff.mp
    (show ((serverMachine selfUpdate).exec (serverMachine selfUpdate).init updateRun).map
      (fun q => (observed "x" q.1).map TaskRun.status) =
        some [.pending, .pending, .running, .running, .succeeded] by decide +kernel)
  have h_run : (serverMachine selfUpdate).RunWhen InOrder tr s :=
    Machine.runWhen_of_exec updateRun h_exec (by decide +kernel)
  exact ⟨tr, s, h_run, h_read, (runs_advance selfUpdate h_run none "2" (fun _ => 3) []).1⟩

/-- The write of another run takes its snapshot before a run finishes and is renamed after. -/
def lateRun : List (TaskLabel Unit String) :=
  .start "x" () none none 1 :: saveSteps "x" ++ .begin "x" 2 :: saveSteps "x" ++
    [.start "y" () none none 3, .made (some "y"), .written (some "y"),
      .finish "x" (.ok ()) (.ok "done") 4] ++ saveSteps "x" ++
    [.renamed (some "y"), .restart "1" fun _ => 5]

/-- **A late snapshot** takes a finished run back, and the next process fails it. -/
theorem late_snapshot : ∃ tr s, (serverMachine selfUpdate).Run tr s ∧
    (observed "x" tr).map TaskRun.status =
      [.pending, .pending, .running, .running, .succeeded, .succeeded, .running] ∧
    (s.store.get? "x").map TaskRun.status = some .failed ∧ ¬Lifecycle tr := by
  obtain ⟨⟨tr, s⟩, h_exec, h_read⟩ := Option.map_eq_some_iff.mp
    (show ((serverMachine selfUpdate).exec (serverMachine selfUpdate).init lateRun).map
      (fun q => ((observed "x" q.1).map TaskRun.status, (q.2.store.get? "x").map TaskRun.status)) =
        some ([.pending, .pending, .running, .running, .succeeded, .succeeded, .running],
          some .failed) by decide +kernel)
  obtain ⟨h_seen, h_failed⟩ := Prod.mk.inj h_read
  refine ⟨tr, s, Machine.run_of_exec lateRun h_exec, h_seen, h_failed, fun h => ?_⟩
  have h_ranks : ((observed "x" tr).map TaskRun.status).Pairwise fun a b => a.rank ≤ b.rank := by
    rw [List.pairwise_map]
    exact (h.ordered "x").imp Advances.rank
  rw [h_seen] at h_ranks
  exact absurd h_ranks (by decide)

end ServerCentral.Tasks
