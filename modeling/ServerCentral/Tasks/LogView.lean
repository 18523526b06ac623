import ServerCentral.Framework.Machine
import ServerCentral.Framework.Recent
import ServerCentral.Framework.WriteBehind
import Mathlib.Logic.Function.Basic

/-!
# The log of a run in the browser

The server keeps the last `maxLogLines` lines of a run and pushes every line as a `taskLog`
event; the browser appends what is pushed to a buffer of its own. A view that shows a run
asks for what was logged before (`getLogs`) and seeds the buffer with the answer, unless
there is one already.

The two channels are not ordered against each other. `logMachine` delivers events in the
order of their pushes, and the answers to `getLogs` in any order. `log_view_exact` says when
the browser ends up with the server's buffer: the first thing that reaches it for the run
must be the run's first line, or an answer that was taken before any line was pushed to it.
`log_view_loses` is a run in which a pushed line overtakes the answer, which is then
ignored.
-/

open Framework

namespace ServerCentral.Tasks

variable {Line : Type}

/-- `MAX_LOG_LINES`, and `TASK_LOG_CLIENT_MAX`, its mirror in the browser. -/
def maxLogLines : ℕ := 2000

/-- An answer to `getLogs` on its way, with the number of lines that had been pushed to the
browser when it was taken. -/
structure LogSnapshot (Line : Type) where
  taskId : String
  lines : List Line
  pushed : ℕ
  deriving DecidableEq, Repr

/-- The buffers of the server and of one browser, by run, and what is under way between
them. `missed` and `pushed` count the lines of a run that were logged before the browser
connected and since. -/
structure LogState (Line : Type) where
  logs : String → Option (List Line)
  connected : Bool
  events : List (String × List Line)
  responses : List (LogSnapshot Line)
  taskLogs : String → Option (List Line)
  missed : String → ℕ
  pushed : String → ℕ

inductive LogLabel (Line : Type) where
  /-- The browser opens the events socket. -/
  | connect
  /-- `ctx.log` of a run. -/
  | log (taskId : String) (line : Line)
  /-- The server answers a `getLogs` of the browser. -/
  | getLogs (taskId : String)
  /-- The oldest event reaches the browser. -/
  | deliverEvent
  /-- An answer reaches the browser. -/
  | deliverSnapshot (i : ℕ)
  deriving DecidableEq, Repr

namespace LogState

/-- `getLogs` of the runner. -/
def getLogs (s : LogState Line) (taskId : String) : List Line := (s.logs taskId).getD []

/-- `ctx.log`: the line is added, the oldest lines go once there are too many, and the line
is pushed to the browser if it is connected. -/
def log (s : LogState Line) (taskId : String) (line : Line) : LogState Line :=
  { s with
    logs := Function.update s.logs taskId (some ((s.getLogs taskId ++ [line]).rtake maxLogLines))
    events := if s.connected then s.events ++ [(taskId, [line])] else s.events
    missed :=
      if s.connected then s.missed else Function.update s.missed taskId (s.missed taskId + 1)
    pushed :=
      if s.connected then Function.update s.pushed taskId (s.pushed taskId + 1) else s.pushed }

/-- The `taskLog` case of `handleEvent`. -/
def handleTaskLog (s : LogState Line) (taskId : String) (lines : List Line) : LogState Line :=
  let existing := (s.taskLogs taskId).getD []
  { s with
    taskLogs := Function.update s.taskLogs taskId (some ((existing ++ lines).rtake maxLogLines)) }

def seedTaskLogs (s : LogState Line) (taskId : String) (lines : List Line) : LogState Line :=
  match s.taskLogs taskId with
  | some _ => s
  | none => { s with taskLogs := Function.update s.taskLogs taskId (some lines) }

def step (s : LogState Line) : LogLabel Line → Option (LogState Line)
  | .connect => if s.connected then none else some { s with connected := true }
  | .log taskId line => some (s.log taskId line)
  | .getLogs taskId =>
    if s.connected then
      some { s with responses := s.responses ++ [⟨taskId, s.getLogs taskId, s.pushed taskId⟩] }
    else none
  | .deliverEvent =>
    match s.events with
    | [] => none
    | (taskId, lines) :: events => some ({ s with events }.handleTaskLog taskId lines)
  | .deliverSnapshot i =>
    match s.responses[i]? with
    | none => none
    | some snapshot =>
      some ({ s with responses := s.responses.eraseIdx i }.seedTaskLogs snapshot.taskId
        snapshot.lines)

end LogState

/-- **Runs that log while a browser watches.** -/
def logMachine (Line : Type) : Machine (LogState Line) (LogLabel Line) Unit where
  init := ⟨fun _ => none, false, [], [], fun _ => none, fun _ => 0, fun _ => 0⟩
  step s l := (s.step l).map fun s' => (s', ())

/-- The first delivery for a run is its first line, or an answer taken before any line was
pushed to the browser. -/
def FirstInOrder (s : LogState Line) : LogLabel Line → Prop
  | .deliverEvent =>
    match s.events with
    | [] => True
    | (taskId, _) :: _ => (s.taskLogs taskId).isNone → s.missed taskId = 0
  | .deliverSnapshot i =>
    match s.responses[i]? with
    | none => True
    | some snapshot => (s.taskLogs snapshot.taskId).isNone → snapshot.pushed = 0
  | _ => True

instance (s : LogState Line) (l : LogLabel Line) : Decidable (FirstInOrder s l) := by
  unfold FirstInOrder
  split
  · split <;> infer_instance
  · split <;> infer_instance
  · infer_instance

/-- The lines of a run that one step logs. -/
def LogLabel.lines (taskId : String) : LogLabel Line → List Line
  | .log id line => if id = taskId then [line] else []
  | _ => []

/-- Everything a run has logged. -/
def logged (tr : List (LogLabel Line × Unit)) (taskId : String) : List Line :=
  tr.flatMap fun x => x.1.lines taskId

/-- **The browser shows what the server has**: once everything sent is delivered and a
`getLogs` of the run was asked for, both buffers are the last lines the run logged. -/
def ShowsLog (tr : List (LogLabel Line × Unit)) (s : LogState Line) : Prop :=
  s.events = [] → s.responses = [] → ∀ taskId, (LogLabel.getLogs taskId, ()) ∈ tr →
    s.getLogs taskId = (logged tr taskId).rtake maxLogLines ∧
      (s.taskLogs taskId).getD [] = s.getLogs taskId

/-! ### What is under way -/

/-- The lines of a run in the events under way. -/
def LogState.inFlight (s : LogState Line) (taskId : String) : List Line :=
  s.events.flatMap fun e => if e.1 = taskId then e.2 else []

/-- What the buffers and the messages hold of everything logged. -/
structure LogInv (tr : List (LogLabel Line × Unit)) (s : LogState Line) : Prop where
  server : ∀ id, s.getLogs id = (logged tr id).rtake maxLogLines
  /-- A browser without a buffer is still to receive everything pushed to it. -/
  fresh : ∀ id, s.taskLogs id = none → s.inFlight id = (logged tr id).drop (s.missed id)
  /-- A buffer and what is under way make up the log. -/
  seeded : ∀ id v, s.taskLogs id = some v →
    ∃ shown, logged tr id = shown ++ s.inFlight id ∧ v = shown.rtake maxLogLines
  counts : ∀ id, s.missed id + s.pushed id = (logged tr id).length
  offline : s.connected = false →
    s.events = [] ∧ s.responses = [] ∧ ∀ id, s.pushed id = 0 ∧ s.taskLogs id = none
  /-- An answer holds the lines up to the moment it was taken. -/
  snapshots : ∀ r ∈ s.responses, s.missed r.taskId + r.pushed ≤ (logged tr r.taskId).length ∧
    r.lines = ((logged tr r.taskId).take (s.missed r.taskId + r.pushed)).rtake maxLogLines
  /-- A `getLogs` is answered. -/
  asked : ∀ id, (LogLabel.getLogs id, ()) ∈ tr →
    s.connected = true ∧ (s.taskLogs id ≠ none ∨ ∃ r ∈ s.responses, r.taskId = id)

theorem logged_concat (tr : List (LogLabel Line × Unit)) (l : LogLabel Line) (id : String) :
    logged (tr ++ [(l, ())]) id = logged tr id ++ l.lines id := by
  rw [logged, List.flatMap_append, List.flatMap_singleton]
  rfl

theorem logged_concat_silent {tr : List (LogLabel Line × Unit)} {l : LogLabel Line}
    (h : ∀ id, l.lines id = []) : logged (tr ++ [(l, ())]) = logged tr := by
  ext id
  rw [logged_concat, h id, List.append_nil]

theorem LogInv.init : LogInv [] (logMachine Line).init where
  server id := (List.rtake_nil maxLogLines).symm
  fresh id _ := rfl
  seeded id v h := absurd h (by simp [logMachine])
  counts id := rfl
  offline _ := ⟨rfl, rfl, fun id => ⟨rfl, rfl⟩⟩
  snapshots r h := absurd h List.not_mem_nil
  asked id h := absurd h List.not_mem_nil

namespace LogInv

variable {tr : List (LogLabel Line × Unit)} {s : LogState Line}

/-- Membership of a request in a longer trace. -/
theorem asked_before {id : String} {l : LogLabel Line} (h_ne : l ≠ .getLogs id)
    (h : (LogLabel.getLogs id, ()) ∈ tr ++ [(l, ())]) : (LogLabel.getLogs id, ()) ∈ tr := by
  obtain h_old | h_new := List.mem_append.mp h
  · exact h_old
  · exact absurd (Prod.mk.inj (List.mem_singleton.mp h_new)).1.symm h_ne

theorem connect (hi : LogInv tr s) (h_off : s.connected = false) :
    LogInv (tr ++ [(.connect, ())]) { s with connected := true } := by
  have h_logged : logged (tr ++ [(LogLabel.connect, ())]) = logged tr :=
    logged_concat_silent fun _ => rfl
  constructor
  case server => exact h_logged ▸ hi.server
  case fresh => exact h_logged ▸ hi.fresh
  case seeded => exact h_logged ▸ hi.seeded
  case counts => exact h_logged ▸ hi.counts
  case offline => exact fun h => absurd h (by simp)
  case snapshots => exact h_logged ▸ hi.snapshots
  case asked =>
    intro id h
    have h_on := (hi.asked id (asked_before (by simp) h)).1
    exact absurd (h_on.symm.trans h_off) (by simp)

theorem server_log (hi : LogInv tr s) (taskId : String) (line : Line) (id : String) :
    (s.log taskId line).getLogs id =
      (logged (tr ++ [(.log taskId line, ())]) id).rtake maxLogLines := by
  rw [logged_concat, LogLabel.lines]
  show (Function.update s.logs taskId _ id).getD [] = _
  rw [Function.update_apply]
  by_cases h_id : taskId = id
  · rw [if_pos h_id, if_pos h_id.symm, ← h_id, Option.getD_some, hi.server, rtake_rtake_append]
  · rw [if_neg h_id, if_neg fun h => h_id h.symm, List.append_nil]
    exact hi.server id

/-- A line that is pushed is under way behind the others. -/
theorem log_online (hi : LogInv tr s) (h_on : s.connected = true) (taskId : String) (line : Line) :
    LogInv (tr ++ [(.log taskId line, ())]) (s.log taskId line) := by
  have h_flight : ∀ id, (s.log taskId line).inFlight id =
      s.inFlight id ++ (LogLabel.log taskId line).lines id := by
    intro id
    show List.flatMap _ (if s.connected then s.events ++ [(taskId, [line])] else s.events) = _
    rw [if_pos h_on, List.flatMap_append, List.flatMap_singleton]
    rfl
  have h_missed : (s.log taskId line).missed = s.missed := if_pos h_on
  have h_pushed : (s.log taskId line).pushed =
      Function.update s.pushed taskId (s.pushed taskId + 1) := if_pos h_on
  constructor
  case server => exact hi.server_log taskId line
  case fresh =>
    intro id h_none
    have h_le : s.missed id ≤ (logged tr id).length := hi.counts id ▸ Nat.le_add_right _ _
    rw [h_flight, h_missed, hi.fresh id h_none, logged_concat, List.drop_append_of_le_length h_le]
  case seeded =>
    intro id v h_v
    obtain ⟨shown, h_logged, h_shown⟩ := hi.seeded id v h_v
    refine ⟨shown, ?_, h_shown⟩
    rw [logged_concat, h_logged, h_flight, List.append_assoc]
  case counts =>
    intro id
    have h_count := hi.counts id
    rw [h_missed, h_pushed, Function.update_apply, logged_concat, LogLabel.lines,
      List.length_append]
    by_cases h_id : taskId = id
    · rw [if_pos h_id, if_pos h_id.symm, List.length_singleton]
      rw [← h_id] at h_count ⊢
      omega
    · rw [if_neg h_id, if_neg fun h => h_id h.symm, List.length_nil]
      omega
  case offline => exact fun h_off => absurd (h_on.symm.trans h_off) (by simp)
  case snapshots =>
    intro r h_r
    obtain ⟨h_le, h_lines⟩ := hi.snapshots r h_r
    rw [h_missed, logged_concat, List.length_append, List.take_append_of_le_length h_le]
    exact ⟨Nat.le_trans h_le (Nat.le_add_right _ _), h_lines⟩
  case asked =>
    intro id h
    exact hi.asked id (asked_before (by simp) h)

/-- A line that is not pushed is missed. -/
theorem log_offline (hi : LogInv tr s) (h_off : s.connected = false) (taskId : String)
    (line : Line) : LogInv (tr ++ [(.log taskId line, ())]) (s.log taskId line) := by
  obtain ⟨h_events, h_responses, h_none⟩ := hi.offline h_off
  have h_cond : ¬s.connected = true := by rw [h_off]; simp
  have h_flight : ∀ id, (s.log taskId line).inFlight id = s.inFlight id := by
    intro id
    show List.flatMap _ (if s.connected then s.events ++ [(taskId, [line])] else s.events) = _
    rw [if_neg h_cond]
    rfl
  have h_missed : (s.log taskId line).missed =
      Function.update s.missed taskId (s.missed taskId + 1) := if_neg h_cond
  have h_pushed : (s.log taskId line).pushed = s.pushed := if_neg h_cond
  have h_counts : ∀ id, (s.log taskId line).missed id + s.pushed id =
      (logged (tr ++ [(LogLabel.log taskId line, ())]) id).length := by
    intro id
    have h_count := hi.counts id
    rw [h_missed, Function.update_apply, logged_concat, LogLabel.lines, List.length_append]
    by_cases h_id : taskId = id
    · rw [if_pos h_id, if_pos h_id.symm, List.length_singleton]
      rw [← h_id] at h_count ⊢
      omega
    · rw [if_neg h_id, if_neg fun h => h_id h.symm, List.length_nil]
      omega
  have h_length : ∀ id, (s.log taskId line).missed id =
      (logged (tr ++ [(LogLabel.log taskId line, ())]) id).length := fun id => by
    have h_count := h_counts id
    rw [(h_none id).1] at h_count
    exact h_count
  constructor
  case server => exact hi.server_log taskId line
  case fresh =>
    intro id h_fresh
    have h_nothing : s.inFlight id = [] := by
      have h_count := hi.counts id
      rw [(h_none id).1, Nat.add_zero] at h_count
      rw [hi.fresh id h_fresh, h_count, List.drop_length]
    rw [h_flight, h_nothing, h_length, List.drop_length]
  case seeded => exact fun id v h_v => absurd ((h_none id).2.symm.trans h_v) (by simp)
  case counts => exact h_pushed ▸ h_counts
  case offline =>
    intro _
    refine ⟨(if_neg h_cond).trans h_events, h_responses, fun id => ⟨?_, (h_none id).2⟩⟩
    rw [h_pushed]
    exact (h_none id).1
  case snapshots =>
    intro r h_r
    have h_r : r ∈ s.responses := h_r
    rw [h_responses] at h_r
    exact absurd h_r List.not_mem_nil
  case asked =>
    intro id h
    have h_on := (hi.asked id (asked_before (by simp) h)).1
    exact absurd (h_on.symm.trans h_off) (by simp)

/-- An answer is taken: it holds everything logged so far. -/
theorem getLogs (hi : LogInv tr s) (h_on : s.connected = true) (taskId : String) :
    LogInv (tr ++ [(.getLogs taskId, ())])
      { s with responses := s.responses ++ [⟨taskId, s.getLogs taskId, s.pushed taskId⟩] } := by
  have h_logged : logged (tr ++ [(LogLabel.getLogs taskId, ())]) = logged tr :=
    logged_concat_silent fun _ => rfl
  constructor
  case server => exact h_logged ▸ hi.server
  case fresh => exact h_logged ▸ hi.fresh
  case seeded => exact h_logged ▸ hi.seeded
  case counts => exact h_logged ▸ hi.counts
  case offline => exact fun h_off => absurd (h_on.symm.trans h_off) (by simp)
  case snapshots =>
    intro r h_r
    rw [h_logged]
    obtain h_old | h_new := List.mem_append.mp h_r
    · exact hi.snapshots r h_old
    · obtain rfl := List.mem_singleton.mp h_new
      show s.missed taskId + s.pushed taskId ≤ _ ∧ s.getLogs taskId = _
      rw [hi.counts, List.take_length]
      exact ⟨Nat.le_refl _, hi.server taskId⟩
  case asked =>
    intro id h
    refine ⟨h_on, ?_⟩
    by_cases h_id : taskId = id
    · exact .inr ⟨_, List.mem_append_right _ List.mem_cons_self, h_id⟩
    · have h_old := asked_before (by simpa using h_id) h
      obtain h_view | ⟨r, h_r, h_task⟩ := (hi.asked id h_old).2
      · exact .inl h_view
      · exact .inr ⟨r, List.mem_append_left _ h_r, h_task⟩

/-- An event reaches the browser. -/
theorem deliverEvent (hi : LogInv tr s) (h_on : s.connected = true) {taskId : String}
    {lines : List Line} {rest : List (String × List Line)} (h_events : s.events = (taskId, lines) :: rest)
    (h_first : s.taskLogs taskId = none → s.missed taskId = 0) :
    LogInv (tr ++ [(.deliverEvent, ())]) ({ s with events := rest }.handleTaskLog taskId lines) := by
  have h_logged : logged (tr ++ [(LogLabel.deliverEvent, ())]) = logged tr :=
    logged_concat_silent fun _ => rfl
  have h_flight : ∀ id, s.inFlight id = (if taskId = id then lines else []) ++
      ({ s with events := rest } : LogState Line).inFlight id := by
    intro id
    rw [LogState.inFlight, h_events, List.flatMap_cons]
    rfl
  have h_view : ∀ id, ({ s with events := rest }.handleTaskLog taskId lines).taskLogs id =
      if id = taskId then some (((s.taskLogs taskId).getD [] ++ lines).rtake maxLogLines)
      else s.taskLogs id := fun id => Function.update_apply ..
  constructor
  case server => exact h_logged ▸ hi.server
  case fresh =>
    intro id h_none
    rw [h_view] at h_none
    split at h_none
    · exact absurd h_none (by simp)
    · next h_ne =>
      have h_id := h_flight id
      rw [if_neg fun h => h_ne h.symm, List.nil_append, hi.fresh id h_none] at h_id
      rw [h_logged]
      exact h_id.symm
  case seeded =>
    intro id v h_v
    rw [h_view] at h_v
    have h_id := h_flight id
    rw [h_logged]
    split at h_v
    · next h_eq =>
      subst h_eq
      rw [if_pos rfl] at h_id
      rw [← Option.some.inj h_v]
      cases h_old : s.taskLogs id with
      | none =>
        -- nothing was missed, and this is the first line
        rw [hi.fresh id h_old, h_first h_old, List.drop_zero] at h_id
        exact ⟨lines, h_id, rfl⟩
      | some w =>
        obtain ⟨shown, h_shown, h_w⟩ := hi.seeded id w h_old
        refine ⟨shown ++ lines, ?_, ?_⟩
        · rw [h_shown, h_id, List.append_assoc]
          rfl
        · rw [Option.getD_some, h_w, rtake_rtake_append]
    · next h_ne =>
      obtain ⟨shown, h_shown, h_eq⟩ := hi.seeded id v h_v
      rw [if_neg fun h => h_ne h.symm, List.nil_append] at h_id
      exact ⟨shown, h_id ▸ h_shown, h_eq⟩
  case counts => exact h_logged ▸ hi.counts
  case offline => exact fun h_off => absurd (h_on.symm.trans h_off) (by simp)
  case snapshots => exact h_logged ▸ hi.snapshots
  case asked =>
    intro id h
    obtain ⟨-, h_or⟩ := hi.asked id (asked_before (by simp) h)
    refine ⟨h_on, h_or.imp_left fun h_some => ?_⟩
    rw [h_view]
    split
    · simp
    · exact h_some

/-- An answer reaches the browser. -/
theorem deliverSnapshot (hi : LogInv tr s) (h_on : s.connected = true) {i : ℕ}
    {snapshot : LogSnapshot Line} (h_at : s.responses[i]? = some snapshot)
    (h_first : s.taskLogs snapshot.taskId = none → snapshot.pushed = 0) :
    LogInv (tr ++ [(.deliverSnapshot i, ())])
      ({ s with responses := s.responses.eraseIdx i }.seedTaskLogs snapshot.taskId
        snapshot.lines) := by
  have h_logged : logged (tr ++ [(LogLabel.deliverSnapshot i, ())]) = logged tr :=
    logged_concat_silent fun _ => rfl
  have h_mem : snapshot ∈ s.responses := List.mem_of_getElem? h_at
  have h_rest : ∀ r, r ∈ s.responses.eraseIdx i → r ∈ s.responses := fun r h_r =>
    List.mem_of_mem_eraseIdx h_r
  -- an answer for another run is still under way
  have h_asked : ∀ id, (LogLabel.getLogs id, ()) ∈ tr ++ [(LogLabel.deliverSnapshot i, ())] →
      s.taskLogs id ≠ none ∨ id = snapshot.taskId ∨
        ∃ r ∈ s.responses.eraseIdx i, r.taskId = id := by
    intro id h
    obtain h_view | ⟨r, h_r, h_task⟩ := (hi.asked id (asked_before (by simp) h)).2
    · exact .inl h_view
    · by_cases h_eq : r = snapshot
      · exact .inr (.inl (by rw [← h_task, h_eq]))
      · exact .inr (.inr ⟨r, WriteBehind.mem_eraseIdx_of_ne h_at h_r h_eq, h_task⟩)
  rw [LogState.seedTaskLogs]
  cases h_view : s.taskLogs snapshot.taskId with
  | some v =>
    constructor
    case server => exact h_logged ▸ hi.server
    case fresh => exact h_logged ▸ hi.fresh
    case seeded => exact h_logged ▸ hi.seeded
    case counts => exact h_logged ▸ hi.counts
    case offline => exact fun h_off => absurd (h_on.symm.trans h_off) (by simp)
    case snapshots => exact fun r h_r => h_logged ▸ hi.snapshots r (h_rest r h_r)
    case asked =>
      intro id h
      obtain h_some | rfl | h_left := h_asked id h
      · exact ⟨h_on, .inl h_some⟩
      · exact ⟨h_on, .inl (by rw [h_view]; simp)⟩
      · exact ⟨h_on, .inr h_left⟩
  | none =>
    have h_update : ∀ id, Function.update s.taskLogs snapshot.taskId (some snapshot.lines) id =
        if id = snapshot.taskId then some snapshot.lines else s.taskLogs id :=
      fun id => Function.update_apply ..
    constructor
    case server => exact h_logged ▸ hi.server
    case fresh =>
      intro id h_none
      change Function.update s.taskLogs snapshot.taskId (some snapshot.lines) id = none at h_none
      rw [h_update] at h_none
      split at h_none
      · exact absurd h_none (by simp)
      · exact h_logged ▸ hi.fresh id h_none
    case seeded =>
      intro id v h_v
      change Function.update s.taskLogs snapshot.taskId (some snapshot.lines) id = some v at h_v
      rw [h_update] at h_v
      split at h_v
      · next h_eq =>
        -- everything pushed is still under way
        subst h_eq
        obtain ⟨h_le, h_lines⟩ := hi.snapshots snapshot h_mem
        have h_flight := hi.fresh snapshot.taskId h_view
        rw [h_first h_view, Nat.add_zero] at h_lines
        refine ⟨(logged tr snapshot.taskId).take (s.missed snapshot.taskId), ?_, ?_⟩
        · rw [h_logged]
          exact ((congrArg (_ ++ ·) h_flight).trans (List.take_append_drop _ _)).symm
        · exact (Option.some.inj h_v).symm.trans h_lines
      · exact h_logged ▸ hi.seeded id v h_v
    case counts => exact h_logged ▸ hi.counts
    case offline => exact fun h_off => absurd (h_on.symm.trans h_off) (by simp)
    case snapshots => exact fun r h_r => h_logged ▸ hi.snapshots r (h_rest r h_r)
    case asked =>
      intro id h
      refine ⟨h_on, ?_⟩
      show Function.update s.taskLogs snapshot.taskId (some snapshot.lines) id ≠ none ∨ _
      rw [h_update]
      split
      · exact .inl (by simp)
      · next h_ne =>
        obtain h_some | h_eq | h_left := h_asked id h
        · exact .inl h_some
        · exact absurd h_eq h_ne
        · exact .inr h_left

/-- **Every step** keeps the invariant. -/
theorem step (hi : LogInv tr s) {l : LogLabel Line} {s' : LogState Line} (h_ok : FirstInOrder s l)
    (hs : s.step l = some s') : LogInv (tr ++ [(l, ())]) s' := by
  cases l with
  | connect =>
    rw [LogState.step] at hs
    split at hs
    case isTrue => exact absurd hs (by simp)
    case isFalse h_off =>
      obtain rfl := Option.some.inj hs
      exact hi.connect (by simpa using h_off)
  | log taskId line =>
    obtain rfl := Option.some.inj hs
    cases h_on : s.connected with
    | true => exact hi.log_online h_on taskId line
    | false => exact hi.log_offline h_on taskId line
  | getLogs taskId =>
    rw [LogState.step] at hs
    split at hs
    case isTrue h_on =>
      obtain rfl := Option.some.inj hs
      exact hi.getLogs h_on taskId
    case isFalse => exact absurd hs (by simp)
  | deliverEvent =>
    rw [LogState.step] at hs
    split at hs
    · exact absurd hs (by simp)
    next taskId lines rest h_events =>
    obtain rfl := Option.some.inj hs
    have h_on : s.connected = true := by
      by_contra h_off
      have h_none := (hi.offline (by simpa using h_off)).1
      exact absurd (h_none.symm.trans h_events) (by simp)
    rw [FirstInOrder, h_events] at h_ok
    exact hi.deliverEvent h_on h_events fun h_none => h_ok (Option.isNone_iff_eq_none.mpr h_none)
  | deliverSnapshot i =>
    rw [LogState.step] at hs
    split at hs
    · exact absurd hs (by simp)
    next snapshot h_at =>
    obtain rfl := Option.some.inj hs
    have h_on : s.connected = true := by
      by_contra h_off
      have h_none := (hi.offline (by simpa using h_off)).2.1
      rw [h_none] at h_at
      exact absurd h_at (by simp)
    simp only [FirstInOrder, h_at] at h_ok
    exact hi.deliverSnapshot h_on h_at fun h_none => h_ok (Option.isNone_iff_eq_none.mpr h_none)

theorem showsLog (hi : LogInv tr s) : ShowsLog tr s := by
  intro h_events h_responses id h_asked
  refine ⟨hi.server id, ?_⟩
  obtain ⟨-, h_view | ⟨r, h_r, -⟩⟩ := hi.asked id h_asked
  · obtain ⟨v, h_v⟩ := Option.ne_none_iff_exists'.mp h_view
    obtain ⟨shown, h_logged, h_eq⟩ := hi.seeded id v h_v
    have h_flight : s.inFlight id = [] := by rw [LogState.inFlight, h_events, List.flatMap_nil]
    rw [h_flight, List.append_nil] at h_logged
    rw [h_v, Option.getD_some, hi.server, h_logged, h_eq]
  · rw [h_responses] at h_r
    exact absurd h_r List.not_mem_nil

end LogInv

theorem logInv_run {tr : List (LogLabel Line × Unit)} {s : LogState Line}
    (h : (logMachine Line).RunWhen FirstInOrder tr s) : LogInv tr s := by
  refine h.history .init fun tr s l s' o _ hi h_ok hs => ?_
  obtain ⟨s₁, h_step, h_eq⟩ := Option.map_eq_some_iff.mp hs
  obtain ⟨rfl, rfl⟩ := Prod.mk.inj h_eq
  exact hi.step h_ok h_step

/-- **The browser shows the log of the server**, in every state of every run in which the
first thing that reaches it for a run of a task is in order. -/
theorem log_view_exact {tr : List (LogLabel Line × Unit)} {s : LogState Line}
    (h : (logMachine Line).RunWhen FirstInOrder tr s) : ShowsLog tr s :=
  (logInv_run h).showsLog

/-- The browser connects after a first line and asks for the log; a second line overtakes
the answer. -/
def overtaken : List (LogLabel String) :=
  [.log "run" "first", .connect, .getLogs "run", .log "run" "second", .deliverEvent,
    .deliverSnapshot 0]

/-- **A line that overtakes the answer** makes the browser ignore it: the first line is
lost. -/
theorem log_view_loses : ¬∀ (tr : List (LogLabel String × Unit)) (s : LogState String),
    (logMachine String).Run tr s → ShowsLog tr s := by
  intro h
  obtain ⟨tr, s, h_exec, h_read⟩ := Machine.exec_reads (logMachine String)
    (logMachine String).init overtaken
    (fun s => (s.events, s.responses, s.getLogs "run", s.taskLogs "run"))
    ([], [], ["first", "second"], some ["second"]) (by decide +kernel)
  obtain ⟨h_events, h_responses, h_logs, h_view⟩ : s.events = [] ∧ s.responses = [] ∧
      s.getLogs "run" = ["first", "second"] ∧ s.taskLogs "run" = some ["second"] := by
    simpa using h_read
  have h_run : (logMachine String).Run tr s := Machine.run_of_exec overtaken h_exec
  have h_asked : (LogLabel.getLogs "run", ()) ∈ tr := by
    have h_tr : ((logMachine String).exec (logMachine String).init overtaken).map (fun q => q.1) =
        some (overtaken.map fun l => (l, ())) := by decide +kernel
    rw [h_exec] at h_tr
    rw [show tr = overtaken.map fun l => (l, ()) from Option.some.inj h_tr]
    decide
  have h_same := (h tr s h_run h_events h_responses "run" h_asked).2
  rw [h_view, h_logs] at h_same
  exact absurd h_same (by decide)

theorem log_view_exact_sample : ∃ tr s, (logMachine String).RunWhen FirstInOrder tr s ∧
    s.taskLogs "run" = some ["first", "second"] ∧ ShowsLog tr s := by
  obtain ⟨tr, s, h_exec, h_read⟩ := Machine.exec_reads (logMachine String)
    (logMachine String).init
    [.log "run" "first", .connect, .getLogs "run", .deliverSnapshot 0, .log "run" "second",
      .deliverEvent]
    (fun s => s.taskLogs "run") (some ["first", "second"]) (by decide +kernel)
  have h_run : (logMachine String).RunWhen FirstInOrder tr s :=
    Machine.runWhen_of_exec _ h_exec (by decide +kernel)
  exact ⟨tr, s, h_run, h_read, log_view_exact h_run⟩

end ServerCentral.Tasks
