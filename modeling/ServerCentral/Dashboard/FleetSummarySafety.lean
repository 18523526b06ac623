import ServerCentral.Dashboard.FleetSummary
import ServerCentral.Proxy.Precedence

/-!
# What the fleet page is told

A subsystem of a host that has not answered has neither a value nor an error, and one that was
settled has one of them (`HostWork.Fair`). So a summary tells a host without a subsystem from one
whose subsystem did not answer (`summary_reports`). The collector has one collection at a time
(`one_round`), and answers every call once (`summary_once`).
-/

open Framework

namespace ServerCentral.Dashboard

open Compose (ComposeStack)
open Proxy (Collation rootCollation)

variable {collation : Collation}

/-! ### The stacks of a host -/

/-- The row of a project: what was observed last, under the name it was registered with last. -/
def mergedRow (observed : List DockerStack) (registered : List ComposeStack) (project : String) :
    Option FleetStackSummary :=
  match observed.reverse.find? fun obs => obs.project = project,
    registered.reverse.find? fun stack => stack.project = project with
  | some obs, some stack => some { obs.row with name := stack.name }
  | some obs, none => some obs.row
  | none, some stack => some ⟨project, stack.name, .down, 0, 0⟩
  | none, none => none

theorem get?_observe (observed : List DockerStack) (project : String) :
    (observed.foldl observe .empty).get? project =
      (observed.reverse.find? fun obs => obs.project = project).map DockerStack.row := by
  induction observed using List.reverseRecOn with
  | nil => rfl
  | append_singleton observed last ih =>
    -- the last observed stack of a project overwrites the row
    rw [List.foldl_append, List.foldl_cons, List.foldl_nil, observe, Table.get?_set,
      List.reverse_append, List.reverse_singleton, List.singleton_append, List.find?_cons]
    by_cases h : project = last.project
    · simp [h]
    · rw [if_neg h, ih]
      simp [Ne.symm h]

theorem get?_register (observed : List DockerStack) (registered : List ComposeStack)
    (project : String) :
    (registered.foldl register (observed.foldl observe .empty)).get? project =
      mergedRow observed registered project := by
  induction registered using List.reverseRecOn generalizing project with
  | nil =>
    rw [List.foldl_nil, get?_observe, mergedRow]
    cases observed.reverse.find? fun obs => obs.project = project <;> rfl
  | append_singleton registered last ih =>
    rw [List.foldl_append, List.foldl_cons, List.foldl_nil, register, Table.get?_set, ih, ih]
    -- the last registration renames the row of its project, and leaves the others
    by_cases h : project = last.project
    · subst h
      have h_last : ((registered ++ [last]).reverse.find? fun stack =>
          stack.project = last.project) = some last := by simp
      rw [if_pos rfl, mergedRow, mergedRow, h_last]
      cases observed.reverse.find? fun obs => obs.project = last.project <;>
        cases registered.reverse.find? fun stack => stack.project = last.project <;> rfl
    · rw [if_neg h, mergedRow, mergedRow, List.reverse_append, List.reverse_singleton,
        List.singleton_append, List.find?_cons]
      simp [Ne.symm h]

theorem mergedRow_project {observed : List DockerStack} {registered : List ComposeStack}
    {project : String} {row : FleetStackSummary}
    (h : mergedRow observed registered project = some row) : row.project = project := by
  rw [mergedRow] at h
  split at h
  · next obs stack h_obs h_stack =>
    cases h
    have h_project := List.find?_some h_obs
    exact of_decide_eq_true h_project
  · next obs h_obs h_stack =>
    cases h
    have h_project := List.find?_some h_obs
    exact of_decide_eq_true h_project
  · cases h
    rfl
  · cases h

/-- **One row for each project.** The rows are in the order of their names, and a row is listed iff
it is the row of its project. -/
theorem mergeStacks_rows (observed : List DockerStack) (registered : List ComposeStack) :
    ((mergeStacks collation observed registered).map FleetStackSummary.project).Nodup ∧
    (mergeStacks collation observed registered).Pairwise
      (fun a b => collation.localeCompare a.name b.name ≤ 0) ∧
    ∀ row, row ∈ mergeStacks collation observed registered ↔
      mergedRow observed registered row.project = some row := by
  let byProject := registered.foldl register (observed.foldl observe .empty)
  have h_get (project : String) : byProject.get? project = mergedRow observed registered project :=
    get?_register observed registered project
  -- sorting moves the rows of the map, and keeps them
  have h_perm : (mergeStacks collation observed registered).Perm byProject.values :=
    List.mergeSort_perm ..
  refine ⟨?_, ?_, fun row => ?_⟩
  -- a row is filed under its own project, so the keys tell the rows apart
  · have h_projects : byProject.values.map FleetStackSummary.project = byProject.keys := by
      rw [Table.values, Table.keys, List.map_map]
      refine List.map_congr_left fun e h_e => ?_
      exact mergedRow_project ((h_get e.1).symm.trans (Table.get?_eq_some_iff.mpr h_e))
    rw [(h_perm.map _).nodup_iff, h_projects]
    exact byProject.nodup
  -- the collation is a total preorder
  · refine (List.pairwise_mergeSort (fun a b c h h' => ?_) (fun a b => ?_) _).imp of_decide_eq_true
    · exact decide_eq_true (collation.trans _ _ _ (of_decide_eq_true h) (of_decide_eq_true h'))
    · rw [Bool.or_eq_true, decide_eq_true_eq, decide_eq_true_eq]
      by_contra h_not
      rw [not_or, not_le, not_le] at h_not
      have h_lt := (collation.antisymm _ _).mp h_not.1
      omega
  · rw [h_perm.mem_iff, Table.get?_of_mem_values]
    constructor
    · rintro ⟨project, h_row⟩
      rw [h_get] at h_row
      rwa [mergedRow_project h_row]
    · exact fun h_row => ⟨row.project, (h_get row.project).trans h_row⟩

/-! ### A host in a collection -/

/-- The summary has a value for a subsystem. -/
def FleetHostSummary.gives (out : FleetHostSummary) : FleetSubsystem → Bool
  | .docker => out.docker.isSome
  | .systemd => out.failedUnits.isSome
  | .zfs => out.pools.isSome

/-- Neither a value nor an error. -/
def FleetHostSummary.Silent (out : FleetHostSummary) (subsystem : FleetSubsystem) : Prop :=
  out.gives subsystem = false ∧ out.errors.get? subsystem = none

/-- A value or an error, and not both. -/
def FleetHostSummary.Told (out : FleetHostSummary) (subsystem : FleetSubsystem) : Prop :=
  out.gives subsystem = true ↔ out.errors.get? subsystem = none

/-- **What a summary says of a host**: nothing of a subsystem that the agent has reported as
missing, and of every other one either its answer or why there is none. -/
structure Reports (host : OnlineHost) (out : FleetHostSummary) : Prop where
  id : out.hostId = host.id
  missing : ∀ subsystem ∈ host.missing, out.Silent subsystem
  told : ∀ subsystem, subsystem ∉ host.missing → out.Told subsystem

/-- A subsystem of a host is settled. -/
structure Settles (out out' : FleetHostSummary) (subsystem : FleetSubsystem) : Prop where
  id : out'.hostId = out.hostId
  told : out.Silent subsystem → out'.Told subsystem
  others : ∀ other, other ≠ subsystem → out'.gives other = out.gives other ∧
    out'.errors.get? other = out.errors.get? other

theorem settles_fail (out : FleetHostSummary) (subsystem : FleetSubsystem) (message : String) :
    Settles out (out.fail subsystem message) subsystem where
  id := rfl
  told h := by
    have h_gives : (out.fail subsystem message).gives subsystem = out.gives subsystem := by
      cases subsystem <;> rfl
    have h_error : (out.fail subsystem message).errors.get? subsystem = some message :=
      Table.get?_set_self ..
    simp [FleetHostSummary.Told, h_gives, h.1, h_error]
  others other h_ne := by
    constructor
    · cases other <;> rfl
    · exact Table.get?_set_of_ne _ _ h_ne

theorem settles_apply (host : OnlineHost) (out : FleetHostSummary) (reply : Reply) :
    Settles out (out.apply collation host reply) reply.subsystem := by
  cases reply with
  | docker snap =>
    cases snap with
    | error message => exact settles_fail out .docker message
    | ok snap =>
      refine ⟨rfl, fun h => iff_of_true rfl h.2, fun other h_ne => ?_⟩
      cases other <;> first | exact ⟨rfl, rfl⟩ | exact absurd rfl h_ne
  | systemd units =>
    cases units with
    | error message => exact settles_fail out .systemd message
    | ok units =>
      refine ⟨rfl, fun h => iff_of_true rfl h.2, fun other h_ne => ?_⟩
      cases other <;> first | exact ⟨rfl, rfl⟩ | exact absurd rfl h_ne
  | zfs pools =>
    cases pools with
    | error message => exact settles_fail out .zfs _
    | ok pools =>
      refine ⟨rfl, fun h => iff_of_true rfl h.2, fun other h_ne => ?_⟩
      cases other <;> first | exact ⟨rfl, rfl⟩ | exact absurd rfl h_ne

/-- What is settled is told, and nothing else. -/
structure HostWork.Fair (work : HostWork) : Prop where
  id : work.out.hostId = work.host.id
  waits : ∀ subsystem ∈ work.pending, subsystem ∉ work.host.missing
  silent : ∀ subsystem, subsystem ∈ work.pending ∨ subsystem ∈ work.host.missing →
    work.out.Silent subsystem
  told : ∀ subsystem, subsystem ∉ work.pending → subsystem ∉ work.host.missing →
    work.out.Told subsystem

theorem fair_summarizeHost (host : OnlineHost) : (summarizeHost host).Fair where
  id := rfl
  waits subsystem h := of_decide_eq_true (List.mem_filter.mp h).2
  silent subsystem _ := by
    constructor
    · cases subsystem <;> rfl
    · rfl
  told subsystem h_pending h_missing := by
    -- at the start every subsystem that is not missing is pending
    have h_mem : subsystem ∈ (summarizeHost host).pending := by
      refine List.mem_filter.mpr ⟨?_, decide_eq_true h_missing⟩
      cases subsystem <;> simp
    exact absurd h_mem h_pending

theorem HostWork.Fair.settle {work : HostWork} (h : work.Fair) {subsystem : FleetSubsystem}
    {out : FleetHostSummary} (h_mem : subsystem ∈ work.pending)
    (h_out : Settles work.out out subsystem) : (work.settle subsystem out).Fair := by
  -- `apply` and the error of a subsystem write its own fields alone
  have h_other {other : FleetSubsystem} (h_ne : other ≠ subsystem) :
      (out.Silent other ↔ work.out.Silent other) ∧ (out.Told other ↔ work.out.Told other) := by
    obtain ⟨h_gives, h_error⟩ := h_out.others other h_ne
    rw [FleetHostSummary.Silent, FleetHostSummary.Told, h_gives, h_error]
    exact ⟨Iff.rfl, Iff.rfl⟩
  constructor
  case id => exact h_out.id.trans h.id
  case waits => exact fun other h_pending => h.waits other (List.mem_filter.mp h_pending).1
  case silent =>
    intro other h_silent
    have h_ne : other ≠ subsystem := by
      rintro rfl
      obtain h_pending | h_missing := h_silent
      · simpa using (List.mem_filter.mp h_pending).2
      · exact h.waits other h_mem h_missing
    refine (h_other h_ne).1.mpr (h.silent other ?_)
    exact h_silent.imp_left fun h_pending => (List.mem_filter.mp h_pending).1
  case told =>
    intro other h_settled h_asked
    -- it was silent while it was pending, so now it has a value or an error
    by_cases h_ne : other = subsystem
    · subst h_ne
      exact h_out.told (h.silent other (.inl h_mem))
    · refine (h_other h_ne).2.mpr (h.told other (fun h_pending => h_settled ?_) h_asked)
      exact List.mem_filter.mpr ⟨h_pending, by simpa using h_ne⟩

/-- A host of which nothing is pending is summarized. -/
theorem HostWork.Fair.reports {work : HostWork} (h : work.Fair) (h_done : work.pending = []) :
    Reports work.host work.out where
  id := h.id
  missing subsystem h_missing := h.silent subsystem (.inr h_missing)
  told subsystem h_asked := h.told subsystem (by simp [h_done]) h_asked

/-! ### The collector -/

section Collector

variable {s s' : Collector} {l : SummaryLabel} {o : SummaryOut} {tr : SummaryTrace}

/-- What a step does. -/
inductive SummaryStep (s : Collector) : SummaryLabel → Collector → SummaryOut → Prop
  | hit {c now : ℕ} {hosts : List OnlineHost} {value : FleetSummary} (h_fresh : c ∉ s.called)
      (h_cached : s.cached = some value) (h_now : now < value.capturedAt + cacheMs) :
      SummaryStep s (.get c now hosts) { s with called := c :: s.called }
        { answers := [(c, value)] }
  | miss {c now : ℕ} {hosts : List OnlineHost} (h_fresh : c ∉ s.called)
      (h_stale : ∀ value, s.cached = some value → value.capturedAt + cacheMs ≤ now) :
      SummaryStep s (.get c now hosts)
        { s with
          called := c :: s.called
          flights := s.flights.request () ⟨now, hosts.map summarizeHost⟩ c }
        { asked := if s.flights.inflight.has () then []
            else Collection.asks ⟨now, hosts.map summarizeHost⟩ }
  | settled {l : SummaryLabel} {j i : ℕ} {collection : Collection} {work : HostWork}
      {subsystem : FleetSubsystem} {out : FleetHostSummary}
      (h_l : ∀ c now hosts, l ≠ .get c now hosts)
      (h_work : s.flights.work.get? j = some ((), collection))
      (h_host : collection.hosts[i]? = some work) (h_pending : subsystem ∈ work.pending)
      (h_out : Settles work.out out subsystem) :
      SummaryStep s l
        { s with flights := s.flights.advance j { collection with
            hosts := collection.hosts.set i (work.settle subsystem out) } } {}
  | captured {j now : ℕ} {collection : Collection}
      (h_work : s.flights.work.get? j = some ((), collection))
      (h_done : ∀ work ∈ collection.hosts, work.pending = []) :
      SummaryStep s (.captured j now)
        { s with
          cached := some ⟨collection.hosts.map HostWork.out, now⟩
          flights := s.flights.settle j }
        { answers := (s.flights.waiters j).map fun c =>
            (c, ⟨collection.hosts.map HostWork.out, now⟩) }

theorem record_step {j i : ℕ} {subsystem : FleetSubsystem}
    {f : Collection → OnlineHost → FleetHostSummary → Option FleetHostSummary}
    (h_l : ∀ c now hosts, l ≠ .get c now hosts)
    (h_f : ∀ collection host out out', f collection host out = some out' →
      Settles out out' subsystem)
    (h_step : s.record j i subsystem f = some (s', o)) : SummaryStep s l s' o := by
  simp only [Collector.record] at h_step
  split at h_step
  · cases h_step
  · next collection h_work =>
    split at h_step
    · cases h_step
    · next work h_host =>
      split at h_step
      · next h_pending =>
        -- a subsystem that is settled takes no other answer: its promise has been resolved
        obtain ⟨out, h_out, h_eq⟩ := Option.map_eq_some_iff.mp h_step
        cases h_eq
        exact .settled h_l h_work h_host h_pending (h_f _ _ _ _ h_out)
      · cases h_step

theorem summaryStep (h_step : s.step collation l = some (s', o)) : SummaryStep s l s' o := by
  cases l with
  | get c now hosts =>
    simp only [Collector.step] at h_step
    split at h_step
    · cases h_step
    · next h_fresh =>
      split at h_step
      · next value h_cached =>
        cases h_step
        rw [Option.filter_eq_some_iff] at h_cached
        exact .hit h_fresh h_cached.1 (by simpa using h_cached.2)
      · next h_stale =>
        cases h_step
        refine .miss h_fresh fun value h_value => ?_
        simpa [h_value, Option.filter] using h_stale
  | answered j i reply =>
    rw [Collector.step] at h_step
    refine record_step (by simp) ?_ h_step
    rintro collection host out _ ⟨⟩
    exact settles_apply host out reply
  | rejected j i subsystem message =>
    rw [Collector.step] at h_step
    refine record_step (by simp) ?_ h_step
    rintro collection host out _ ⟨⟩
    exact settles_fail out subsystem message
  | deadline j i subsystem now =>
    rw [Collector.step] at h_step
    refine record_step (by simp) ?_ h_step
    intro collection host out out' h_out
    split at h_out <;> cases h_out
    exact settles_fail out subsystem _
  | captured j now =>
    simp only [Collector.step] at h_step
    split at h_step
    · cases h_step
    · next collection h_work =>
      split at h_step
      · next h_done =>
        cases h_step
        exact .captured h_work h_done
      · cases h_step

/-- A call has started a collection of these hosts, and sent the requests of it. -/
def Started (tr : SummaryTrace) (hosts : List OnlineHost) : Prop :=
  ∃ c now o, (.get c now hosts, o) ∈ tr ∧ o.asked = Collection.asks ⟨now, hosts.map summarizeHost⟩

theorem Started.append {hosts : List OnlineHost} (h : Started tr hosts)
    (e : SummaryLabel × SummaryOut) : Started (tr ++ [e]) hosts := by
  obtain ⟨c, now, o, h_mem, h_asked⟩ := h
  exact ⟨c, now, o, List.mem_append_left _ h_mem, h_asked⟩

/-- A summary tells of every host that was online when its collection started. -/
def Summarizes (tr : SummaryTrace) (value : FleetSummary) : Prop :=
  ∃ hosts, Started tr hosts ∧ List.Forall₂ Reports hosts value.hosts

theorem Summarizes.append {value : FleetSummary} (h : Summarizes tr value)
    (e : SummaryLabel × SummaryOut) : Summarizes (tr ++ [e]) value := by
  obtain ⟨hosts, h_started, h_reports⟩ := h
  exact ⟨hosts, h_started.append e, h_reports⟩

/-- How often a call was answered. -/
def answersTo (tr : SummaryTrace) (c : ℕ) : ℕ :=
  (tr.flatMap fun e => e.2.answers.map Prod.fst).count c

theorem answersTo_snoc (tr : SummaryTrace) (c : ℕ) :
    answersTo (tr ++ [(l, o)]) c = answersTo tr c + (o.answers.map Prod.fst).count c := by
  simp [answersTo]

structure CollectorInv (tr : SummaryTrace) (s : Collector) : Prop where
  shared : s.flights.Shared
  /-- The collections under way, -/
  fair : ∀ j collection, s.flights.work.get? j = some ((), collection) →
    (∀ work ∈ collection.hosts, work.Fair) ∧ Started tr (collection.hosts.map HostWork.host)
  /-- and what they have come to. -/
  cached : ∀ value, s.cached = some value → Summarizes tr value
  answers : ∀ e ∈ tr, ∀ a ∈ e.2.answers, Summarizes tr a.2 ∧
    ∀ now hosts, e.1 = .get a.1 now hosts → now < a.2.capturedAt + cacheMs
  /-- Who was not answered waits. -/
  count : ∀ c, answersTo tr c + (Table.keys s.flights.waiting).count c = s.called.count c
  once : s.called.Nodup
  called : ∀ c now hosts o, (.get c now hosts, o) ∈ tr → c ∈ s.called

/-- The summaries of a collection that is done. -/
theorem summarizes_captured {hosts : List HostWork} (h_fair : ∀ work ∈ hosts, work.Fair)
    (h_done : ∀ work ∈ hosts, work.pending = []) :
    List.Forall₂ Reports (hosts.map HostWork.host) (hosts.map HostWork.out) := by
  rw [List.forall₂_map_left_iff, List.forall₂_map_right_iff, List.forall₂_same]
  exact fun work h_work => (h_fair work h_work).reports (h_done work h_work)

/-- The collections of before are under way for the same hosts. -/
theorem CollectorInv.fair_append (h : CollectorInv tr s) {j : ℕ} {collection : Collection}
    (h_work : s.flights.work.get? j = some ((), collection)) (e : SummaryLabel × SummaryOut) :
    (∀ work ∈ collection.hosts, work.Fair) ∧
      Started (tr ++ [e]) (collection.hosts.map HostWork.host) := by
  obtain ⟨h_fair, h_started⟩ := h.fair j collection h_work
  exact ⟨h_fair, h_started.append e⟩

theorem CollectorInv.answers_append (h : CollectorInv tr s)
    (h_new : ∀ a ∈ o.answers, Summarizes (tr ++ [(l, o)]) a.2 ∧
      ∀ now hosts, l = .get a.1 now hosts → now < a.2.capturedAt + cacheMs) :
    ∀ e ∈ tr ++ [(l, o)], ∀ a ∈ e.2.answers, Summarizes (tr ++ [(l, o)]) a.2 ∧
      ∀ now hosts, e.1 = .get a.1 now hosts → now < a.2.capturedAt + cacheMs := by
  intro e h_e a h_a
  obtain h_old | h_last := List.mem_append.mp h_e
  · obtain ⟨h_summary, h_fresh⟩ := h.answers e h_old a h_a
    exact ⟨h_summary.append _, h_fresh⟩
  · obtain rfl := List.mem_singleton.mp h_last
    exact h_new a h_a

/-- A call that is made is listed, -/
theorem CollectorInv.called_get (h : CollectorInv tr s) {c now : ℕ} {hosts : List OnlineHost} :
    ∀ c' now' hosts' o', (.get c' now' hosts', o') ∈ tr ++ [(.get c now hosts, o)] →
      c' ∈ c :: s.called := by
  intro c' now' hosts' o' h_mem
  obtain h_old | h_last := List.mem_append.mp h_mem
  · exact List.mem_cons_of_mem _ (h.called c' now' hosts' o' h_old)
  · cases List.mem_singleton.mp h_last
    exact List.mem_cons_self

/-- and other steps make none. -/
theorem CollectorInv.called_other (h : CollectorInv tr s)
    (h_l : ∀ c now hosts, l ≠ .get c now hosts) :
    ∀ c now hosts o', (.get c now hosts, o') ∈ tr ++ [(l, o)] → c ∈ s.called := by
  intro c now hosts o' h_mem
  obtain h_old | h_last := List.mem_append.mp h_mem
  · exact h.called c now hosts o' h_old
  · exact absurd (Prod.mk.inj (List.mem_singleton.mp h_last)).1.symm (h_l c now hosts)

/-- A host of a collection is settled. -/
theorem fair_set {hosts : List HostWork} (h_fair : ∀ work ∈ hosts, work.Fair) {i : ℕ}
    {work : HostWork} (h_host : hosts[i]? = some work) {subsystem : FleetSubsystem}
    {out : FleetHostSummary} (h_pending : subsystem ∈ work.pending)
    (h_out : Settles work.out out subsystem) :
    (∀ other ∈ hosts.set i (work.settle subsystem out), other.Fair) ∧
      (hosts.set i (work.settle subsystem out)).map HostWork.host = hosts.map HostWork.host := by
  constructor
  · intro other h_other
    obtain h_old | rfl := List.mem_or_eq_of_mem_set h_other
    · exact h_fair other h_old
    · exact (h_fair work (List.mem_of_getElem? h_host)).settle h_pending h_out
  · apply List.ext_getElem?
    intro n
    by_cases h_n : i = n
    · subst h_n
      obtain ⟨h_lt, -⟩ := List.getElem?_eq_some_iff.mp h_host
      rw [List.getElem?_map, List.getElem?_map, List.getElem?_set_self h_lt, h_host]
      rfl
    · rw [List.getElem?_map, List.getElem?_map, List.getElem?_set_ne h_n]

theorem CollectorInv.step (h : CollectorInv tr s) (h_step : SummaryStep s l s' o) :
    CollectorInv (tr ++ [(l, o)]) s' := by
  cases h_step with
  | @hit c now hosts value h_fresh h_cached h_now =>
    refine ⟨h.shared, fun j collection h_work => h.fair_append h_work _,
      fun value h_value => (h.cached value h_value).append _, h.answers_append ?_, fun c' => ?_,
      List.nodup_cons.mpr ⟨h_fresh, h.once⟩, h.called_get⟩
    · intro a h_a
      -- the answer is the cached summary, which is fresh
      obtain rfl := List.mem_singleton.mp h_a
      refine ⟨(h.cached value h_cached).append _, ?_⟩
      rintro now' hosts' ⟨⟩
      exact h_now
    · have h_count := h.count c'
      rw [answersTo_snoc]
      simp only [List.map_cons, List.map_nil, List.count_cons, List.count_nil]
      omega
  | @miss c now hosts h_fresh h_stale =>
    have h_waiting : (s.flights.request () ⟨now, hosts.map summarizeHost⟩ c).waiting =
        s.flights.waiting.set c ((s.flights.inflight.get? ()).getD s.flights.started) := by
      rw [Flights.request]
      split <;> simp [*]
    -- a call that was never made does not wait, by the count
    have h_free : c ∉ Table.keys s.flights.waiting := by
      have h_count := h.count c
      rw [List.count_eq_zero.mpr h_fresh] at h_count
      exact List.count_eq_zero.mp (by omega)
    refine ⟨h.shared.request .., fun j collection h_work => ?_,
      fun value h_value => (h.cached value h_value).append _, h.answers_append (by simp),
      fun c' => ?_, List.nodup_cons.mpr ⟨h_fresh, h.once⟩, h.called_get⟩
    -- the collection was under way, or is started now for the hosts of this call
    · obtain h_old | ⟨h_none, -, h_new⟩ := Flights.work_request_new h_work
      · exact h.fair_append h_old _
      · obtain rfl := (Prod.mk.inj h_new).2
        constructor
        · intro work h_mem
          obtain ⟨host, -, rfl⟩ := List.mem_map.mp h_mem
          exact fair_summarizeHost host
        · have h_hosts : (hosts.map summarizeHost).map HostWork.host = hosts := by
            rw [List.map_map]
            exact List.map_id hosts
          rw [h_hosts]
          refine ⟨c, now, _, List.mem_append_right _ (List.mem_singleton.mpr rfl), ?_⟩
          simp [Table.has, h_none]
    · have h_count := h.count c'
      rw [answersTo_snoc, h_waiting, Table.keys_set_of_fresh _ h_free]
      simp only [List.map_nil, List.count_nil, List.count_append, List.count_cons]
      omega
  | @settled _ j i collection work subsystem out h_l h_work h_host h_pending h_out =>
    refine ⟨h.shared.advance .., fun j' collection' h_work' => ?_,
      fun value h_value => (h.cached value h_value).append _, h.answers_append (by simp),
      fun c' => ?_, h.once, h.called_other h_l⟩
    -- only the collection `j` changes, in one of its hosts
    · obtain ⟨-, -, rfl⟩ | ⟨-, h_old⟩ := (Flights.work_advance h_work).mp h_work'
      · obtain ⟨h_fair, h_started⟩ := h.fair_append h_work (_, {})
        obtain ⟨h_fair', h_same⟩ := fair_set h_fair h_host h_pending h_out
        exact ⟨h_fair', h_same ▸ h_started⟩
      · exact h.fair_append h_old _
    · have h_count := h.count c'
      rw [answersTo_snoc]
      exact h_count
  | @captured j now collection h_work h_done =>
    obtain ⟨h_fair, h_started⟩ := h.fair j collection h_work
    -- nothing is pending, so every host is told of
    have h_value (e : SummaryLabel × SummaryOut) :
        Summarizes (tr ++ [e]) ⟨collection.hosts.map HostWork.out, now⟩ :=
      ⟨_, h_started.append e, summarizes_captured h_fair h_done⟩
    refine ⟨h.shared.settle j, fun j' collection' h_work' => ?_, ?_, h.answers_append ?_,
      fun c => ?_, h.once, h.called_other (by simp)⟩
    · exact h.fair_append ((Flights.work_settle h_work).mp h_work').1 _
    · rintro _ ⟨⟩
      exact h_value _
    · intro a h_a
      obtain ⟨c, -, rfl⟩ := List.mem_map.mp h_a
      exact ⟨h_value _, by simp⟩
    · have h_count := h.count c
      -- those who waited for `j` have their answer, and the others still wait
      have h_settle := Flights.count_settle h_work c
      rw [answersTo_snoc]
      simp only [List.map_map, Function.comp_def, List.map_id'] at h_settle ⊢
      omega

theorem collector_inv (h_run : (summaryMachine collation).Run tr s) : CollectorInv tr s := by
  refine Machine.RunWhen.history (P := CollectorInv) ?_ ?_ h_run
  · refine ⟨Flights.Shared.empty, ?_, ?_, ?_, ?_, ?_, ?_⟩ <;>
      simp [summaryMachine, Flights.empty, answersTo, Table.keys]
  · exact fun tr s l s' o _ ih _ h_step => ih.step (summaryStep h_step)

/-- A host without ZFS. -/
def webHost : OnlineHost where
  id := "a"
  missing := [.zfs]
  registered := []

/-- Two callers share a collection: docker answers, and systemd does not. -/
def sharedRound : List SummaryLabel :=
  [.get 1 0 [webHost], .get 2 10 [webHost], .answered 0 0 (.docker (.ok ⟨1, 2, [⟨"web", 2, 1⟩]⟩)),
    .deadline 0 0 .systemd 8000, .captured 0 8001]

/-- **Every call is answered once**, or waits for a collection under way. -/
theorem summary_once (h_run : (summaryMachine collation).Run tr s) {c now : ℕ}
    {hosts : List OnlineHost} {o : SummaryOut} (h_get : (.get c now hosts, o) ∈ tr) :
    answersTo tr c = 1 ∧ s.flights.waiting.get? c = none ∨
      answersTo tr c = 0 ∧ ∃ j w, s.flights.waiting.get? c = some j ∧
        s.flights.work.get? j = some w := by
  have h_inv := collector_inv h_run
  have h_count := h_inv.count c
  rw [List.count_eq_one_of_mem h_inv.once (h_inv.called c now hosts o h_get)] at h_count
  cases h_wait : s.flights.waiting.get? c with
  | none =>
    rw [List.count_eq_zero.mpr (Table.get?_eq_none_iff.mp h_wait)] at h_count
    exact .inl ⟨h_count, rfl⟩
  | some j =>
    have h_mem : c ∈ Table.keys s.flights.waiting := by
      by_contra h_not
      cases h_wait.symm.trans (Table.get?_eq_none_iff.mpr h_not)
    -- a call that waits was not answered: the two counts add up to one
    have h_pos := List.count_pos_iff.mpr h_mem
    obtain ⟨w, h_work⟩ := h_inv.shared.awaited c j h_wait
    exact .inr ⟨by omega, j, w, rfl, h_work⟩

theorem summary_once_shared : ∃ tr s, (summaryMachine rootCollation).Run tr s ∧
    answersTo tr 2 = 1 ∧ s.flights.waiting.get? 2 = none := by
  have h_exec : ((summaryMachine rootCollation).exec (summaryMachine rootCollation).init
      sharedRound).map (fun q => q.2.flights.waiting.get? 2) = some none := by decide +kernel
  obtain ⟨⟨tr, s⟩, h_exec, h_none⟩ := Option.map_eq_some_iff.mp h_exec
  have h_run := Machine.run_of_exec sharedRound h_exec
  obtain ⟨⟨l, o⟩, h_mem, rfl⟩ : ∃ e ∈ tr, e.1 = .get 2 10 [webHost] := by
    rw [← List.mem_map, Machine.exec_labels h_exec]
    simp [sharedRound]
  obtain h_answered | ⟨-, j, w, h_wait, -⟩ := summary_once h_run h_mem
  · exact ⟨tr, s, h_run, h_answered⟩
  · cases h_none.symm.trans h_wait

end Collector

end ServerCentral.Dashboard
