import ServerCentral.Tasks.Store

/-!
# What the task store keeps

While the entry that has to go is always a finished one, the store holds the `maxRuns` runs
that were created last, in the order of their creation (`RunsInv`), and no put of a run
that is already there drops anything.
-/

open Framework

namespace ServerCentral.Tasks

variable {Spec Result : Type}

namespace TaskStore

/-- A put of a stored run replaces it. -/
theorem put_of_mem {store : TaskStore Spec Result} {run : TaskRun Spec Result}
    (h_size : store.entries.length ≤ maxRuns) (h_mem : run.id ∈ Table.keys store) :
    put store run = Table.set store run.id run := by
  rw [put, prune_eq]
  refine Table.keepLast_of_length_le ?_
  have h_keys : (Table.set store run.id run).keys.length = (Table.keys store).length := by
    rw [Table.keys_set_of_mem run h_mem]
  rw [Table.keys, Table.keys, List.length_map, List.length_map] at h_keys
  rwa [h_keys]

/-- A put of a new run appends it, and then the oldest go. -/
theorem keys_put_of_fresh {store : TaskStore Spec Result} {run : TaskRun Spec Result}
    (h_fresh : run.id ∉ Table.keys store) :
    Table.keys (put store run) = (Table.keys store ++ [run.id]).rtake maxRuns := by
  rw [put, prune_eq, Table.keys_keepLast, Table.keys_set_of_fresh run h_fresh]

theorem get?_put_of_fresh {store : TaskStore Spec Result} {run : TaskRun Spec Result} {id : String}
    (h_fresh : run.id ∉ Table.keys store)
    (h_kept : id ∈ (Table.keys store ++ [run.id]).rtake maxRuns) :
    Table.get? (put store run) id = if id = run.id then some run else Table.get? store id := by
  rw [put, prune_eq, Table.get?_keepLast, Table.get?_set]
  rwa [Table.keys_set_of_fresh run h_fresh]

/-- A stored run after a put is the one that was put, or was stored before. -/
theorem of_get?_put {store : TaskStore Spec Result} {run run' : TaskRun Spec Result}
    {id : String} (h : Table.get? (put store run) id = some run') :
    run' = run ∨ Table.get? store id = some run' := by
  rw [put, prune_eq] at h
  obtain ⟨-, h_new⟩ | ⟨-, h_old⟩ := Table.get?_set_eq_some (Table.get?_of_keepLast h)
  · exact .inl h_new
  · exact .inr h_old

end TaskStore

/-- A property of the specs of all runs. -/
structure SpecsHold (P : Spec → Prop) (s : RunnerState Spec Result) : Prop where
  stored : ∀ id run, s.store.get? id = some run → P run.spec
  live : ∀ id run, s.live.get? id = some run → P run.spec

namespace SpecsHold

variable {P : Spec → Prop} {s s' : RunnerState Spec Result}

/-- A run is put, and is live afterwards or over. -/
theorem put (h : SpecsHold P s) {run : TaskRun Spec Result} (h_run : P run.spec)
    {live : Table String (TaskRun Spec Result)}
    (h_live : ∀ id r, live.get? id = some r → r = run ∨ s.live.get? id = some r)
    (created : List String) : SpecsHold P ⟨s.store.put run, live, created⟩ := by
  constructor
  case stored =>
    intro id r h_r
    obtain rfl | h_old := TaskStore.of_get?_put h_r
    · exact h_run
    · exact h.stored id r h_old
  case live =>
    intro id r h_r
    obtain rfl | h_old := h_live id r h_r
    · exact h_run
    · exact h.live id r h_old

/-- A run that is set is the one that is found there. -/
theorem live_set {live : Table String (TaskRun Spec Result)} {id : String}
    {run : TaskRun Spec Result} :
    ∀ id' r, (live.set id run).get? id' = some r → r = run ∨ live.get? id' = some r := by
  intro id' r h_r
  obtain ⟨-, h_new⟩ | ⟨-, h_old⟩ := Table.get?_set_eq_some h_r
  · exact .inl h_new
  · exact .inr h_old

/-- **Every step** that starts a run with the property only. A run keeps its spec. -/
theorem step (h : SpecsHold P s) {l : RunnerLabel Spec Result} (hs : s.step l = some s')
    (h_start : ∀ id spec target userId now, l = .start id spec target userId now → P spec) :
    SpecsHold P s' := by
  cases l with
  | start id spec target userId now =>
    rw [RunnerState.step] at hs
    split at hs
    · cases hs
    · obtain rfl := Option.some.inj hs
      exact h.put (h_start id spec target userId now rfl) live_set _
  | begin id now =>
    rw [RunnerState.step] at hs
    split at hs
    · cases hs
    · next run h_run =>
      split at hs
      · obtain rfl := Option.some.inj hs
        have h_spec : P (run.begun now).spec := h.live id run h_run
        exact h.put h_spec live_set _
      · cases hs
  | finish id outcome now =>
    rw [RunnerState.step] at hs
    split at hs
    · cases hs
    · next run h_run =>
      split at hs
      · obtain rfl := Option.some.inj hs
        have h_spec : P (run.over outcome now).spec := by
          cases outcome with
          | ok result => exact h.live id run h_run
          | error message => exact h.live id run h_run
        exact h.put h_spec (fun id' r h_r => .inr (Table.get?_erase.mp h_r).1) _
      · cases hs

end SpecsHold

/-- The store holds the runs created last, and each unfinished one of them as it is. -/
structure RunsInv (s : RunnerState Spec Result) : Prop where
  nodup : s.created.Nodup
  keys : s.store.keys = s.created.rtake maxRuns
  stored : ∀ id run, s.live.get? id = some run → s.store.get? id = some run
  live : ∀ id run, s.live.get? id = some run → run.id = id ∧ run.status.unfinished = true

theorem RunsInv.init : RunsInv (runnerMachine Spec Result).init where
  nodup := List.nodup_nil
  keys := (List.rtake_nil maxRuns).symm
  stored id run h := absurd h (by simp [runnerMachine])
  live id run h := absurd h (by simp [runnerMachine])

namespace RunsInv

variable {s s' : RunnerState Spec Result}

theorem size (hi : RunsInv s) : s.store.entries.length = min maxRuns s.created.length := by
  have h_keys := congrArg List.length hi.keys
  rwa [length_rtake, Table.keys, List.length_map] at h_keys

theorem size_le (hi : RunsInv s) : s.store.entries.length ≤ maxRuns := by
  rw [hi.size]
  exact Nat.min_le_left _ _

/-- An id that was never used is not stored. -/
theorem fresh (hi : RunsInv s) {id : String} (h : id ∉ s.created) : id ∉ s.store.keys := by
  rw [hi.keys]
  exact fun h_mem => h (rtake_subset _ _ h_mem)

theorem mem_keys (hi : RunsInv s) {id : String} {run : TaskRun Spec Result}
    (h : s.live.get? id = some run) : id ∈ s.store.keys := by
  by_contra h_not
  have h_none := Table.get?_eq_none_iff.mpr h_not
  exact absurd (h_none.symm.trans (hi.stored id run h)) (by simp)

/-- **Start.** What is dropped is the oldest entry of a full store. -/
theorem start (hi : RunsInv s) {id : String} {spec : Spec} {target userId : Option String}
    {now : ℕ} (h_fresh : id ∉ s.created)
    (h_old : OldestFinished s (.start id spec target userId now)) :
    RunsInv ⟨s.store.put (newRun id spec target userId now),
      s.live.set id (newRun id spec target userId now), s.created ++ [id]⟩ := by
  have h_new : (newRun id spec target userId now : TaskRun Spec Result).id ∉ s.store.keys :=
    hi.fresh h_fresh
  have h_keys : (s.store.keys ++ [id]).rtake maxRuns = (s.created ++ [id]).rtake maxRuns := by
    rw [hi.keys, rtake_rtake_append]
  -- an unfinished run is not the entry that goes
  have h_kept : ∀ k run, s.live.get? k = some run → k ∈ (s.store.keys ++ [id]).rtake maxRuns := by
    intro k run h_live
    have h_mem := hi.mem_keys h_live
    have h_le := hi.size_le
    have h_len : (s.store.keys ++ [id]).length = s.store.entries.length + 1 := by
      rw [List.length_append, Table.keys, List.length_map, List.length_singleton]
    by_cases h_full : s.store.entries.length = maxRuns
    · cases h_entries : s.store.entries with
      | nil =>
        rw [h_entries, List.length_nil] at h_full
        exact absurd h_full (by decide)
      | cons e es =>
        have h_done := h_old h_full e (by rw [h_entries]; rfl)
        have h_keys_eq : s.store.keys = e.1 :: es.map Prod.fst := by
          rw [Table.keys, h_entries, List.map_cons]
        have h_drop : (s.store.keys ++ [id]).rtake maxRuns = es.map Prod.fst ++ [id] := by
          rw [List.rtake, h_len, h_full, h_keys_eq, Nat.add_sub_cancel_left]
          rfl
        rw [h_drop]
        rw [h_keys_eq] at h_mem
        obtain rfl | h_later := List.mem_cons.mp h_mem
        · have h_stored := hi.stored e.1 run h_live
          have h_head : s.store.get? e.1 = some e.2 :=
            Table.get?_eq_some_iff.mpr (h_entries ▸ List.mem_cons_self)
          rw [Option.some.inj (h_head.symm.trans h_stored), (hi.live e.1 run h_live).2] at h_done
          exact absurd h_done (by simp)
        · exact List.mem_append_left _ h_later
    · rw [rtake_of_length_le (by omega)]
      exact List.mem_append_left _ h_mem
  constructor
  case nodup => exact List.nodup_append'.mpr ⟨hi.nodup, List.nodup_singleton id, by simpa using h_fresh⟩
  case keys => exact (TaskStore.keys_put_of_fresh h_new).trans h_keys
  case stored =>
    intro k run h_live
    obtain ⟨rfl, rfl⟩ | ⟨h_ne, h_live⟩ := Table.get?_set_eq_some h_live
    · have h_last : k ∈ (s.store.keys ++ [k]).rtake maxRuns := by
        have h_pos : 0 < maxRuns := by decide
        rw [List.rtake, List.drop_append, List.length_append, List.length_singleton]
        have h_drop : s.store.keys.length + 1 - maxRuns - s.store.keys.length = 0 := by omega
        rw [h_drop, List.drop_zero]
        exact List.mem_append_right _ List.mem_cons_self
      exact (TaskStore.get?_put_of_fresh h_new h_last).trans (if_pos rfl)
    · refine (TaskStore.get?_put_of_fresh h_new (h_kept k run h_live)).trans ?_
      exact (if_neg h_ne).trans (hi.stored k run h_live)
  case live =>
    intro k run h_live
    obtain ⟨rfl, rfl⟩ | ⟨-, h_live⟩ := Table.get?_set_eq_some h_live
    · exact ⟨rfl, rfl⟩
    · exact hi.live k run h_live

/-- A later put of a run that is stored. -/
theorem replace (hi : RunsInv s) {id : String} {run run' : TaskRun Spec Result}
    {live' : Table String (TaskRun Spec Result)} (h_live : s.live.get? id = some run)
    (h_id : run'.id = id)
    (h_rest : ∀ k r, live'.get? k = some r → k ≠ id → s.live.get? k = some r)
    (h_self : ∀ r, live'.get? id = some r → r = run' ∧ run'.status.unfinished = true) :
    RunsInv { s with store := s.store.put run', live := live' } := by
  have h_mem : run'.id ∈ s.store.keys := h_id ▸ hi.mem_keys h_live
  have h_put := TaskStore.put_of_mem hi.size_le h_mem
  constructor
  case nodup => exact hi.nodup
  case keys =>
    show (s.store.put run').keys = s.created.rtake maxRuns
    rw [h_put, Table.keys_set_of_mem run' h_mem]
    exact hi.keys
  case stored =>
    intro k r h
    show (s.store.put run').get? k = some r
    rw [h_put, Table.get?_set, h_id]
    split
    · next h_eq =>
      subst h_eq
      rw [(h_self r h).1]
    · next h_ne => exact hi.stored k r (h_rest k r h h_ne)
  case live =>
    intro k r h
    by_cases h_eq : k = id
    · subst h_eq
      obtain ⟨rfl, h_open⟩ := h_self r h
      exact ⟨h_id, h_open⟩
    · exact hi.live k r (h_rest k r h h_eq)

/-- **Every step** keeps the invariant. -/
theorem step (hi : RunsInv s) {l : RunnerLabel Spec Result} (h_ok : OldestFinished s l)
    (hs : s.step l = some s') : RunsInv s' := by
  cases l with
  | start id spec target userId now =>
    rw [RunnerState.step] at hs
    split at hs
    case isTrue => exact absurd hs (by simp)
    case isFalse h_fresh =>
      obtain rfl := Option.some.inj hs
      exact hi.start h_fresh h_ok
  | begin id now =>
    rw [RunnerState.step] at hs
    split at hs
    · exact absurd hs (by simp)
    next run h_live =>
    split at hs
    case isFalse => exact absurd hs (by simp)
    case isTrue =>
      obtain rfl := Option.some.inj hs
      refine hi.replace h_live (hi.live id run h_live).1 ?_ ?_
      · exact fun k r h h_ne => (Table.get?_set_of_ne s.live _ h_ne).symm.trans h
      · exact fun r h => ⟨(Option.some.inj ((Table.get?_set_self s.live id _).symm.trans h)).symm, rfl⟩
  | finish id outcome now =>
    rw [RunnerState.step] at hs
    split at hs
    · exact absurd hs (by simp)
    next run h_live =>
    split at hs
    case isFalse => exact absurd hs (by simp)
    case isTrue =>
      obtain rfl := Option.some.inj hs
      have h_id : (run.over outcome now).id = id := by
        rw [← (hi.live id run h_live).1]
        cases outcome <;> rfl
      refine hi.replace h_live h_id ?_ ?_
      · exact fun k r h _ => (Table.get?_erase.mp h).1
      · exact fun r h => absurd rfl (Table.get?_erase.mp h).2

theorem keepsRuns (hi : RunsInv s) : KeepsRuns s where
  unfinished := hi.stored
  recent id later run h_get _ h_later _ := by
    have h_mem : id ∈ s.store.keys := List.mem_map.mpr ⟨(id, run), Table.get?_eq_some_iff.mp h_get, rfl⟩
    rw [hi.keys] at h_mem ⊢
    exact mem_rtake_of_later hi.nodup h_later h_mem
  total := hi.size

end RunsInv

theorem runsInv_run {tr : List (RunnerLabel Spec Result × Unit)} {s : RunnerState Spec Result}
    (h : (runnerMachine Spec Result).RunWhen OldestFinished tr s) : RunsInv s := by
  refine h.invariant .init fun s l s' o hi h_ok hs => ?_
  obtain ⟨s₁, h_step, h_eq⟩ := Option.map_eq_some_iff.mp hs
  obtain rfl := (Prod.mk.inj h_eq).1
  exact hi.step h_ok h_step

/-- **The store keeps the right runs** in every state of every run in which the entry that
has to go is a finished one. -/
theorem store_keeps_runs {tr : List (RunnerLabel Spec Result × Unit)}
    {s : RunnerState Spec Result}
    (h : (runnerMachine Spec Result).RunWhen OldestFinished tr s) : KeepsRuns s :=
  (runsInv_run h).keepsRuns

/-! ### An unfinished run is dropped -/

/-- A start on a full store drops the oldest entry, whatever it is. -/
theorem RunsInv.start_drops {s : RunnerState Spec Result} (hi : RunsInv s)
    {e : String × TaskRun Spec Result} {id : String} {spec : Spec} {target userId : Option String}
    {now : ℕ} (h_full : s.store.entries.length = maxRuns)
    (h_head : s.store.entries.head? = some e) (h_fresh : id ∉ s.created) :
    (s.store.put (newRun id spec target userId now)).get? e.1 = none := by
  have h_new : (newRun id spec target userId now : TaskRun Spec Result).id ∉ s.store.keys :=
    hi.fresh h_fresh
  obtain ⟨es, h_entries⟩ := List.head?_eq_some_iff.mp h_head
  have h_keys : s.store.keys = e.1 :: es.map Prod.fst := by
    rw [Table.keys, h_entries, List.map_cons]
  have h_nodup : (e.1 :: es.map Prod.fst).Nodup := by
    rw [← h_keys]
    exact s.store.nodup
  have h_len : es.length + 1 = maxRuns := by rw [← h_full, h_entries, List.length_cons]
  have h_id : (newRun id spec target userId now : TaskRun Spec Result).id = id := rfl
  have h_drop : (e.1 :: es.map Prod.fst ++ [id]).length - maxRuns = 1 := by
    rw [List.length_append, List.length_cons, List.length_map, List.length_singleton]
    omega
  rw [Table.get?_eq_none_iff, TaskStore.keys_put_of_fresh h_new, h_keys, h_id, List.rtake, h_drop]
  intro h_mem
  obtain h_later | h_id := List.mem_append.mp h_mem
  · exact (List.nodup_cons.mp h_nodup).1 h_later
  · rw [← List.mem_singleton.mp h_id] at h_fresh
    refine h_fresh (rtake_subset _ maxRuns ?_)
    rw [← hi.keys, h_keys]
    exact List.mem_cons_self

/-- Both conditions at once. -/
def Orderly (s : RunnerState Unit Unit) (l : RunnerLabel Unit Unit) : Prop :=
  AtMostOpen s l ∧ OldestFinished s l

/-- Any `maxRuns` runs can be started and wait. -/
theorem starts_run (ids : List String) (h_nodup : ids.Nodup) (h_len : ids.length ≤ maxRuns) :
    ∃ tr s, (runnerMachine Unit Unit).RunWhen Orderly tr s ∧ s.created = ids ∧
      s.live.keys = ids ∧ ∀ id ∈ ids, ∃ run, s.live.get? id = some run ∧ run.status = .pending := by
  induction ids using List.reverseRecOn with
  | nil => exact ⟨[], _, .init, rfl, rfl, fun id h => absurd h List.not_mem_nil⟩
  | append_singleton ids id ih =>
    obtain ⟨h_ids, -, h_apart⟩ := List.nodup_append'.mp h_nodup
    have h_fresh : id ∉ ids := fun h_mem => h_apart h_mem List.mem_cons_self
    rw [List.length_append, List.length_singleton] at h_len
    obtain ⟨tr, s, h_run, h_created, h_keys, h_pending⟩ := ih h_ids (by omega)
    have hi := runsInv_run (h_run.mono fun _ _ h => h.2)
    have h_size := hi.size
    have h_live : s.live.entries.length = ids.length := by
      rw [← h_keys, Table.keys, List.length_map]
    have h_ok : Orderly s (.start id () none none 0) := by
      refine ⟨by show s.live.entries.length < maxRuns; omega, fun h_full => ?_⟩
      rw [h_created] at h_size
      omega
    have h_not : id ∉ s.created := h_created ▸ h_fresh
    have h_step : (runnerMachine Unit Unit).step s (.start id () none none 0) =
        some (⟨s.store.put (newRun id () none none 0), s.live.set id (newRun id () none none 0),
          s.created ++ [id]⟩, ()) := by
      show (s.step _).map _ = _
      rw [RunnerState.step, if_neg h_not]
      rfl
    have h_live_fresh : id ∉ s.live.keys := h_keys ▸ h_fresh
    refine ⟨_, _, h_run.step h_ok h_step, by rw [h_created], ?_, ?_⟩
    · show (s.live.set id _).keys = _
      rw [Table.keys_set_of_fresh _ h_live_fresh, h_keys]
    · intro k h_k
      show ∃ run, (s.live.set id _).get? k = some run ∧ _
      rw [Table.get?_set]
      split
      · exact ⟨_, rfl, rfl⟩
      · next h_ne =>
        refine h_pending k ?_
        obtain h_mem | h_mem := List.mem_append.mp h_k
        · exact h_mem
        · exact absurd (List.mem_singleton.mp h_mem) h_ne

/-- Distinct ids. -/
def mark (i : ℕ) : String := .ofList (List.replicate i 'r')

theorem mark_injective : Function.Injective mark := by
  intro i j h
  have h_list := String.ofList_injective h
  simpa using congrArg List.length h_list

/-- The ids of the runs that fill the store. -/
def marks : List String := (List.range maxRuns).map mark

theorem length_marks : marks.length = maxRuns := by rw [marks, List.length_map, List.length_range]

theorem mark_mem_marks {i : ℕ} : mark i ∈ marks ↔ i < maxRuns := by
  rw [marks, List.mem_map_of_injective mark_injective, List.mem_range]

theorem runner_step {a b : RunnerState Unit Unit} {l : RunnerLabel Unit Unit}
    (h : a.step l = some b) : (runnerMachine Unit Unit).step a l = some (b, ()) := by
  show (a.step l).map _ = _
  rw [h]
  rfl

/-- The store is full, its oldest run waits, and one of the others has finished. -/
theorem one_finishes : ∃ tr s run, (runnerMachine Unit Unit).RunWhen Orderly tr s ∧
    s.created = marks ∧ s.live.get? (mark 0) = some run ∧ s.live.entries.length < maxRuns := by
  have h_nodup : marks.Nodup := List.nodup_range.map mark_injective
  obtain ⟨tr, s, h_run, h_created, h_keys, h_pending⟩ := starts_run marks h_nodup length_marks.le
  obtain ⟨run₀, h_run₀, -⟩ := h_pending (mark 0) (mark_mem_marks.mpr (by decide))
  obtain ⟨run₁, h_run₁, h_wait⟩ := h_pending (mark 1) (mark_mem_marks.mpr (by decide))
  have h_ne : mark 0 ≠ mark 1 := fun h => absurd (mark_injective h) (by decide)
  have h_begin : s.step (.begin (mark 1) 0) = some
      { s with store := s.store.put (run₁.begun 0), live := s.live.set (mark 1) (run₁.begun 0) } := by
    rw [RunnerState.step, h_run₁]
    exact if_pos h_wait
  have h_live : (s.live.set (mark 1) (run₁.begun 0)).get? (mark 1) = some (run₁.begun 0) :=
    Table.get?_set_self _ _ _
  have h_ok : ∀ s, Orderly s (.begin (mark 1) 0) ∧ Orderly s (.finish (mark 1) (.ok ()) 0) :=
    fun s => ⟨⟨trivial, trivial⟩, ⟨trivial, trivial⟩⟩
  have h_finish := (h_run.step (h_ok _).1 (runner_step h_begin)).step (h_ok _).2 (runner_step (by
    rw [RunnerState.step, h_live]
    exact if_pos rfl))
  refine ⟨_, _, run₀, h_finish, h_created, ?_, ?_⟩
  · show ((s.live.set (mark 1) (run₁.begun 0)).erase (mark 1)).get? (mark 0) = some run₀
    rw [Table.get?_erase_of_ne _ h_ne, Table.get?_set_of_ne _ _ h_ne, h_run₀]
  · have h_mem : mark 1 ∈ s.live.keys := h_keys ▸ (mark_mem_marks).mpr (by decide)
    have h_left : ((s.live.set (mark 1) (run₁.begun 0)).erase (mark 1)).keys.length =
        maxRuns - 1 := by
      rw [Table.keys_erase, Table.keys_set_of_mem _ h_mem, List.length_erase_of_mem h_mem, h_keys,
        length_marks]
    have h_pos : 0 < maxRuns := by decide
    rw [Table.keys, List.length_map] at h_left
    exact lt_of_eq_of_lt h_left (Nat.sub_lt h_pos Nat.one_pos)

/-- **An unfinished run is dropped**: of 200 runs that are waiting one finishes, and the
next one to start drops the oldest, which has not even begun. -/
theorem unfinished_run_dropped : ¬∀ (tr : List (RunnerLabel Unit Unit × Unit))
    (s : RunnerState Unit Unit), (runnerMachine Unit Unit).RunWhen AtMostOpen tr s →
      KeepsRuns s := by
  intro h_all
  obtain ⟨tr, s, run₀, h_run, h_created, h_live₀, h_open⟩ := one_finishes
  have hi := runsInv_run (h_run.mono fun _ _ h => h.2)
  have h_full : s.store.entries.length = maxRuns := by
    rw [hi.size, h_created, length_marks, Nat.min_self]
  have h_keys : s.store.keys = marks := by
    rw [hi.keys, h_created, rtake_of_length_le length_marks.le]
  obtain ⟨e, h_head, h_first⟩ : ∃ e, s.store.entries.head? = some e ∧ e.1 = mark 0 := by
    have h_first : s.store.keys.head? = some (mark 0) := by
      rw [h_keys, marks, List.head?_map, List.head?_range]
      rfl
    rw [Table.keys, List.head?_map] at h_first
    exact Option.map_eq_some_iff.mp h_first
  -- one more run drops the first
  have h_fresh : mark maxRuns ∉ s.created := by
    rw [h_created, mark_mem_marks]
    exact Nat.lt_irrefl maxRuns
  have h_ne : mark 0 ≠ mark maxRuns := fun h => absurd (mark_injective h) (by decide)
  have h_start := (h_run.mono fun _ _ h => h.1).step
    (l := .start (mark maxRuns) () none none 0) h_open (runner_step (by
      rw [RunnerState.step, if_neg h_fresh]))
  have h_kept := (h_all _ _ h_start).unfinished (mark 0) run₀
    ((Table.get?_set_of_ne s.live _ h_ne).trans h_live₀)
  have h_gone : (s.store.put (newRun (mark maxRuns) () none none 0)).get? e.1 = none :=
    hi.start_drops h_full h_head h_fresh
  rw [h_first] at h_gone
  exact absurd (h_gone.symm.trans h_kept) (by simp)

theorem store_keeps_runs_sample : ∃ tr s, (runnerMachine Unit Unit).RunWhen OldestFinished tr s ∧
    s.created = marks ∧ KeepsRuns s := by
  obtain ⟨tr, s, -, h_run, h_created, -⟩ := one_finishes
  have h_run : (runnerMachine Unit Unit).RunWhen OldestFinished tr s := h_run.mono fun _ _ h => h.2
  exact ⟨tr, s, h_run, h_created, store_keeps_runs h_run⟩

end ServerCentral.Tasks
