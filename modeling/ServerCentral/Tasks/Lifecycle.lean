import ServerCentral.Tasks.LogView
import ServerCentral.Tasks.Store

/-!
# The life of a task run

`TaskRunner` takes a run through its states and saves each of them: it puts the run into the
store, waits until `tasks.json` has been written, and broadcasts the run. A write makes the
directory, takes its snapshot of the runs, writes it to a temporary file and renames that over
`tasks.json`. Writes of several runs may be under way, and nothing orders them.

`serverMachine` interleaves any number of runs with the steps of their writes. A process may
end at any point; the next one starts with what `tasks.json` holds, and `TaskStore.init` ends
the runs that it finds unfinished. A write belongs to the run whose `save` waits for it, or to
`init`.

`Advances` is the order of a run's states, and `BootSafe` what `init` does with any list.
-/

open Framework

namespace ServerCentral.Tasks

variable {Spec Result : Type}

/-! ### The start of a process -/

/-- What is known of the kind `update_control_plane`. -/
structure UpdateKind (Spec Result : Type) where
  applies : Spec → Bool
  /-- The result that names a version. -/
  result : String → Result

structure PendingUpdate where
  runId : String
  version : String
  deriving DecidableEq, Repr

/-- The verdict on a run, from the marker `pending` and the version of this process. -/
def interruptedUpdateResolver (update : UpdateKind Spec Result) (pending : Option PendingUpdate)
    (version : String) (run : TaskRun Spec Result) : Option (Except String Result) :=
  match pending with
  | none => none
  | some pending =>
    if update.applies run.spec = false ∨ run.id ≠ pending.runId then none
    else if pending.version ≠ version then
      some (.error ("Restarted on " ++ version ++ ", expected " ++ pending.version))
    else some (.ok (update.result version))

def interrupted : String := "Interrupted by a control-plane restart; the outcome is unknown."

/-- One round of the loop of `reapOrphans`. -/
def reapOrphan (resolveOrphan : TaskRun Spec Result → Option (Except String Result))
    (now : String → ℕ) (run : TaskRun Spec Result) : TaskRun Spec Result :=
  if run.status.unfinished = false then run
  else
    match resolveOrphan run with
    | some (.ok result) =>
      { run with status := .succeeded, result := some result, finishedAt := some (now run.id) }
    | some (.error message) =>
      { run with status := .failed, error := some message, finishedAt := some (now run.id) }
    | none =>
      { run with status := .failed, error := some interrupted, finishedAt := some (now run.id) }

namespace TaskStore

/-- The runs of `tasks.json`, keyed by their ids. -/
def load (runs : List (TaskRun Spec Result)) : TaskStore Spec Result :=
  runs.foldl (fun store run => Table.set store run.id run) .empty

/-- `init` up to the write that follows if a run was reaped. -/
def init (resolveOrphan : TaskRun Spec Result → Option (Except String Result))
    (now : String → ℕ) (runs : List (TaskRun Spec Result)) : TaskStore Spec Result :=
  Table.map (reapOrphan resolveOrphan now) (load runs)

end TaskStore

/-! ### The server -/

/-- A call of `persist`: the runs whose objects it holds, or the snapshot of them, with its
number, written to the temporary file or not. -/
inductive SaveJob (Spec Result : Type) where
  | making (ids : List String)
  | snapshot (runs : List (TaskRun Spec Result)) (order : ℕ) (written : Bool)
  deriving DecidableEq, Repr

/-- Where `start` or `execute` waits: for its write, or for its turn to broadcast the run, or
for what comes after that. -/
inductive Stage (Spec Result : Type) where
  | saving (job : SaveJob Spec Result)
  | saved
  | announced
  deriving DecidableEq, Repr

/-- A process and its files; `taken` and `onDisk` number the snapshots. -/
structure TaskServer (Spec Result : Type) where
  store : TaskStore Spec Result
  /-- All run objects of this process, dropped by the store or not. -/
  objects : Table String (TaskRun Spec Result)
  stages : Table String (Stage Spec Result)
  /-- The write that `init` waits for. -/
  reaping : Option (SaveJob Spec Result)
  logs : Table String (List String)
  disk : List (TaskRun Spec Result)
  marker : Option PendingUpdate
  taken : ℕ
  onDisk : ℕ
  /-- The ids drawn so far, by all processes. -/
  created : List String

inductive TaskLabel (Spec Result : Type) where
  /-- `start`, with the id it draws and the time. -/
  | start (id : String) (spec : Spec) (target userId : Option String) (now : ℕ)
  /-- A write has made the directory, written its file, or renamed it. -/
  | made (owner : Option String)
  | written (owner : Option String)
  | renamed (owner : Option String)
  /-- A save is rejected. -/
  | failed (id : String)
  /-- `onUpdate` -/
  | announce (id : String)
  /-- The first segment of `execute`. -/
  | begin (id : String) (now : ℕ)
  /-- What `fleet.get` answers for the target, and what the handler does. -/
  | finish (id : String) (agent : Except String Unit) (handled : Except String Result) (now : ℕ)
  /-- A handler logs, possibly after it has returned. -/
  | log (id : String) (text : String)
  /-- `writePendingUpdate` in the handler of a self-update. -/
  | note (id version : String)
  /-- The process ends and another one comes up. -/
  | restart (version : String) (now : String → ℕ)

/-- What others see of a step: a run broadcast, or a new content of `tasks.json`. -/
structure TaskOut (Spec Result : Type) where
  broadcast : Option (TaskRun Spec Result)
  stored : Option (List (TaskRun Spec Result))

def TaskOut.none : TaskOut Spec Result := ⟨.none, .none⟩

/-- The `try` block of `execute`: the target is resolved first, if there is one. -/
def execOutcome (target : Option String) (agent : Except String Unit)
    (handled : Except String Result) : Except String Result :=
  match target, agent with
  | some _, .error message => .error message
  | _, _ => handled

namespace TaskServer

/-- The write an owner waits for. -/
def jobOf (s : TaskServer Spec Result) : Option String → Option (SaveJob Spec Result)
  | none => s.reaping
  | some id =>
    match s.stages.get? id with
    | some (.saving job) => some job
    | _ => none

def setJob (s : TaskServer Spec Result) (job : SaveJob Spec Result) :
    Option String → TaskServer Spec Result
  | none => { s with reaping := some job }
  | some id => { s with stages := s.stages.set id (.saving job) }

/-- The owner goes on. -/
def endJob (s : TaskServer Spec Result) : Option String → TaskServer Spec Result
  | none => { s with reaping := none }
  | some id => { s with stages := s.stages.set id .saved }

/-- A changed or new run, and the segment of its `save` up to the write. -/
def save (s : TaskServer Spec Result) (run : TaskRun Spec Result) : TaskServer Spec Result :=
  { s with
    store := s.store.put run
    objects := s.objects.set run.id run
    stages := s.stages.set run.id (.saving (.making (Table.keys (s.store.put run)))) }

/-- What `JSON.stringify` reads: the objects as they are now. -/
def read (s : TaskServer Spec Result) (ids : List String) : List (TaskRun Spec Result) :=
  ids.filterMap s.objects.get?

/-- A write takes its snapshot. -/
def snapshot (s : TaskServer Spec Result) (ids : List String) (owner : Option String) :
    TaskServer Spec Result :=
  { s with taken := s.taken + 1 }.setJob (.snapshot (s.read ids) (s.taken + 1) false) owner

/-- A write replaces `tasks.json`. -/
def rename (s : TaskServer Spec Result) (runs : List (TaskRun Spec Result)) (order : ℕ)
    (owner : Option String) : TaskServer Spec Result :=
  { s with disk := runs, onDisk := order }.endJob owner

/-- The next process, once `init` has reaped the runs. -/
def boot (s : TaskServer Spec Result) (update : UpdateKind Spec Result) (version : String)
    (now : String → ℕ) : TaskServer Spec Result :=
  let store := TaskStore.init (interruptedUpdateResolver update s.marker version) now s.disk
  let reaped := (TaskStore.load s.disk).values.any fun run => run.status.unfinished
  { s with
    store
    objects := store
    stages := .empty
    reaping := if reaped then some (.making (Table.keys store)) else none
    logs := .empty
    marker := none }

/-- A run that waits for what comes after its broadcast. -/
def resting (s : TaskServer Spec Result) (id : String) (status : TaskStatus) :
    Option (TaskRun Spec Result) :=
  match s.stages.get? id with
  | some .announced => (s.objects.get? id).filter fun run => run.status = status
  | _ => none

def step (update : UpdateKind Spec Result) (s : TaskServer Spec Result) :
    TaskLabel Spec Result → Option (TaskServer Spec Result × TaskOut Spec Result)
  | .start id spec target userId now =>
    -- The server is up once `init` is over, and `randomUUID` repeats no id.
    if s.reaping.isSome ∨ id ∈ s.created then none
    else
      let run := newRun id spec target userId now
      some ({ s with created := s.created ++ [id] }.save run, .none)
  | .made owner =>
    match s.jobOf owner with
    | some (.making ids) => some (s.snapshot ids owner, .none)
    | _ => none
  | .written owner =>
    match s.jobOf owner with
    | some (.snapshot runs order false) => some (s.setJob (.snapshot runs order true) owner, .none)
    | _ => none
  | .renamed owner =>
    match s.jobOf owner with
    | some (.snapshot runs order true) =>
      some (s.rename runs order owner, ⟨none, some runs⟩)
    | _ => none
  | .failed id =>
    match s.jobOf (some id) with
    | some _ => some ({ s with stages := s.stages.erase id }, .none)
    | none => none
  | .announce id =>
    match s.stages.get? id, s.objects.get? id with
    | some .saved, some run =>
      some ({ s with
        stages :=
          if run.status.unfinished then s.stages.set id .announced else s.stages.erase id },
        ⟨some run, none⟩)
    | _, _ => none
  | .begin id now => (s.resting id .pending).map fun run => (s.save (run.begun now), .none)
  | .finish id agent handled now =>
    (s.resting id .running).map fun run =>
      (s.save (run.over (execOutcome run.target agent handled) now), .none)
  | .log id text =>
    match s.objects.get? id with
    | some _ =>
      let lines := ((s.logs.get? id).getD [] ++ [text]).rtake maxLogLines
      some ({ s with logs := s.logs.set id lines }, .none)
    | none => none
  | .note id version =>
    ((s.resting id .running).filter fun run => update.applies run.spec).map fun _ =>
      ({ s with marker := some ⟨id, version⟩ }, .none)
  | .restart version now => some (s.boot update version now, .none)

end TaskServer

/-- **The server over all its processes**, from an empty directory. -/
def serverMachine (update : UpdateKind Spec Result) :
    Machine (TaskServer Spec Result) (TaskLabel Spec Result) (TaskOut Spec Result) where
  init := ⟨.empty, .empty, .empty, none, .empty, [], none, 0, 0, []⟩
  step := TaskServer.step update

abbrev TaskTrace (Spec Result : Type) := List (TaskLabel Spec Result × TaskOut Spec Result)

/-! ### What a run goes through -/

/-- Pending, running, over. -/
def TaskStatus.rank : TaskStatus → ℕ
  | .pending => 0
  | .running => 1
  | _ => 2

/-- A state of a run and a later one: it never goes back, and the last is final. -/
structure Advances (run later : TaskRun Spec Result) : Prop where
  rank : run.status.rank ≤ later.status.rank
  final : run.status.unfinished = false → later = run

/-- What is set in which state. -/
structure WellFormed (run : TaskRun Spec Result) : Prop where
  known : run.status ≠ .cancelled
  finishedAt : run.finishedAt.isSome ↔ run.status.unfinished = false
  result : run.result.isSome → run.status = .succeeded
  error : run.error.isSome → run.status = .failed

/-- The states of a run that a step stores and broadcasts. -/
def TaskOut.seen (id : String) (o : TaskOut Spec Result) : List (TaskRun Spec Result) :=
  (o.stored.bind fun runs => runs.find? fun run => run.id = id).toList ++
    (o.broadcast.filter fun run => run.id = id).toList

def observed (id : String) (tr : TaskTrace Spec Result) : List (TaskRun Spec Result) :=
  tr.flatMap fun e => e.2.seen id

/-- **The states of every run**, as they follow each other in `tasks.json` and on the wire,
through all processes. -/
structure Lifecycle (tr : TaskTrace Spec Result) : Prop where
  ordered : ∀ id, (observed id tr).Pairwise Advances
  wellFormed : ∀ id, ∀ run ∈ observed id tr, WellFormed run

/-- What `init` makes of a list of runs. -/
structure BootSafe (update : UpdateKind Spec Result) (pending : Option PendingUpdate)
    (version : String) (runs : List (TaskRun Spec Result)) (store : TaskStore Spec Result) :
    Prop where
  same : ∀ id, store.has id = true ↔ ∃ run ∈ runs, run.id = id
  settled : ∀ run ∈ store.values, run.status.unfinished = false
  /-- A run that is over stays as it is (of several with one id, the last). -/
  kept : ∀ before run after, runs = before ++ run :: after →
    (∀ later ∈ after, later.id ≠ run.id) → run.status.unfinished = false →
      store.get? run.id = some run
  /-- A run that has succeeded had done so, or the marker names it and this version. -/
  vouched : ∀ run ∈ store.values, run.status = .succeeded → run ∈ runs ∨
    ∃ orphan ∈ runs, orphan.id = run.id ∧ orphan.status.unfinished = true ∧
      update.applies orphan.spec = true ∧ pending = some ⟨run.id, version⟩

/-- No rename puts an older snapshot over a newer one. -/
def InOrder (s : TaskServer Spec Result) : TaskLabel Spec Result → Prop
  | .renamed owner =>
    match s.jobOf owner with
    | some (.snapshot _ order _) => s.onDisk < order
    | _ => True
  | _ => True

instance (s : TaskServer Spec Result) (l : TaskLabel Spec Result) : Decidable (InOrder s l) := by
  unfold InOrder
  split
  · split <;> infer_instance
  · infer_instance

/-! ### The start of a process, with any list -/

theorem load_id {runs : List (TaskRun Spec Result)} {id : String} {run : TaskRun Spec Result}
    (h : (TaskStore.load runs).get? id = some run) : run ∈ runs ∧ run.id = id := by
  induction runs using List.reverseRecOn with
  | nil => cases h
  | append_singleton runs last ih =>
    rw [TaskStore.load, List.foldl_append] at h
    obtain ⟨rfl, rfl⟩ | ⟨-, h_old⟩ := Table.get?_set_eq_some h
    · exact ⟨List.mem_append_right _ List.mem_cons_self, rfl⟩
    · obtain ⟨h_mem, h_id⟩ := ih h_old
      exact ⟨List.mem_append_left _ h_mem, h_id⟩

/-- A run whose id no later run of the list has is loaded. -/
theorem load_last (before after : List (TaskRun Spec Result)) (run : TaskRun Spec Result)
    (h : ∀ later ∈ after, later.id ≠ run.id) :
    (TaskStore.load (before ++ run :: after)).get? run.id = some run := by
  induction after using List.reverseRecOn with
  | nil =>
    rw [TaskStore.load, List.foldl_append]
    exact Table.get?_set_self ..
  | append_singleton after last ih =>
    have h_last : run.id ≠ last.id := Ne.symm (h last (by simp))
    rw [TaskStore.load, ← List.cons_append, ← List.append_assoc, List.foldl_append]
    exact (Table.get?_set_of_ne _ _ h_last).trans
      (ih fun later h_later => h later (List.mem_append_left _ h_later))

theorem has_load {runs : List (TaskRun Spec Result)} {id : String} :
    (TaskStore.load runs).has id = true ↔ ∃ run ∈ runs, run.id = id := by
  constructor
  · intro h
    obtain ⟨run, h_get⟩ := Table.has_iff.mp h
    exact ⟨run, load_id h_get⟩
  · rintro ⟨run, h_run, h_id⟩
    induction runs using List.reverseRecOn with
    | nil => cases h_run
    | append_singleton runs last ih =>
      rw [TaskStore.load, List.foldl_append, List.foldl_cons, List.foldl_nil, Table.has_set]
      obtain h_old | h_new := List.mem_append.mp h_run
      · rw [Bool.or_eq_true]
        exact .inr (ih h_old)
      · obtain rfl := List.mem_singleton.mp h_new
        simp [h_id]

section Boot

variable (update : UpdateKind Spec Result) (pending : Option PendingUpdate) (version : String)
  (now : String → ℕ)

theorem reapOrphan_over (resolveOrphan : TaskRun Spec Result → Option (Except String Result))
    (run : TaskRun Spec Result) :
    (reapOrphan resolveOrphan now run).status.unfinished = false := by
  rw [reapOrphan]
  split
  · assumption
  · split <;> rfl

theorem reapOrphan_id (resolveOrphan : TaskRun Spec Result → Option (Except String Result))
    (run : TaskRun Spec Result) : (reapOrphan resolveOrphan now run).id = run.id := by
  rw [reapOrphan]
  split
  · rfl
  · split <;> rfl

theorem reapOrphan_succeeded {run : TaskRun Spec Result} (h : run.status.unfinished = true)
    (h_succeeded : (reapOrphan (interruptedUpdateResolver update pending version) now run).status =
      .succeeded) : update.applies run.spec = true ∧ pending = some ⟨run.id, version⟩ := by
  rw [reapOrphan, if_neg (by simp [h])] at h_succeeded
  cases pending with
  | none => cases h_succeeded
  | some pending =>
    obtain ⟨runId, marked⟩ := pending
    simp only [interruptedUpdateResolver] at h_succeeded
    split at h_succeeded
    · next h_verdict =>
      split at h_verdict
      · cases h_verdict
      · next h_named =>
        rw [not_or, Bool.not_eq_false, not_not] at h_named
        split at h_verdict
        · cases h_verdict
        · next h_version =>
          rw [not_not] at h_version
          exact ⟨h_named.1, by rw [h_named.2, h_version]⟩
    · cases h_succeeded
    · cases h_succeeded

theorem boot_safe (runs : List (TaskRun Spec Result)) : BootSafe update pending version runs
    (TaskStore.init (interruptedUpdateResolver update pending version) now runs) where
  same id := by
    rw [Table.has, TaskStore.init, Table.get?_map, Option.isSome_map, ← has_load, Table.has]
  settled run h_run := by
    obtain ⟨id, h_get⟩ := Table.get?_of_mem_values.mp h_run
    rw [TaskStore.init, Table.get?_map, Option.map_eq_some_iff] at h_get
    obtain ⟨orphan, -, rfl⟩ := h_get
    exact reapOrphan_over now _ orphan
  kept before run after h_runs h_later h_over := by
    have h_get := load_last before after run h_later
    rw [TaskStore.init, Table.get?_map, h_runs, h_get, Option.map_some, reapOrphan, if_pos h_over]
  vouched run h_run h_succeeded := by
    obtain ⟨id, h_get⟩ := Table.get?_of_mem_values.mp h_run
    rw [TaskStore.init, Table.get?_map, Option.map_eq_some_iff] at h_get
    obtain ⟨orphan, h_load, rfl⟩ := h_get
    obtain ⟨h_mem, rfl⟩ := load_id h_load
    by_cases h_open : orphan.status.unfinished = true
    · refine .inr ⟨orphan, h_mem, (reapOrphan_id now _ orphan).symm, h_open, ?_⟩
      rw [reapOrphan_id]
      exact reapOrphan_succeeded update pending version now h_open h_succeeded
    · rw [reapOrphan, if_pos (Bool.not_eq_true _ ▸ h_open)]
      exact .inl h_mem

end Boot

end ServerCentral.Tasks
