import Mathlib.Data.List.Induction

/-!
# Deterministic labelled machines and their runs

A `Machine` is a partial deterministic step function over labels, with an output
for every step. A label carries everything the environment chooses: which
operation is called, which pending activity resumes, what the clock reads and
what the random source draws. `step s l = none` says that the environment cannot
choose `l` in `s`.

Runs are snoc-lists of `(label, output)` pairs, so that a property of the history
is a property of the trace and needs no ghost state. `Machine.RunWhen M ok` are
the runs every step of which meets the condition `ok`, read at the state before
the step; `Machine.Run M` is the unconditional case.

Three induction rules are all a development needs:

* `RunWhen.invariant` — a predicate on states kept by every step;
* `RunWhen.history` — a predicate on the trace so far and the state;
* `RunWhen.split` — a run that passes through a given trace position, cut there.
-/

namespace Framework

/-- A deterministic machine whose labels are chosen by the environment. -/
structure Machine (State Label Out : Type*) where
  /-- The unique initial state. -/
  init : State
  step : State → Label → Option (State × Out)

namespace Machine

variable {State Label Out : Type*}

/-- **Runs under a condition.** `M.RunWhen ok tr s` says that the trace `tr` leads
from the initial state to `s` and that every step of it was taken from a state
and on a label that meet `ok`. -/
inductive RunWhen (M : Machine State Label Out) (ok : State → Label → Prop) :
    List (Label × Out) → State → Prop
  | init : RunWhen M ok [] M.init
  | step {tr : List (Label × Out)} {s s' : State} {l : Label} {o : Out} :
      RunWhen M ok tr s → ok s l → M.step s l = some (s', o) →
      RunWhen M ok (tr ++ [(l, o)]) s'

/-- All runs of the machine. -/
abbrev Run (M : Machine State Label Out) : List (Label × Out) → State → Prop :=
  M.RunWhen fun _ _ => True

/-- A state some run leads to. -/
def Reachable (M : Machine State Label Out) (s : State) : Prop :=
  ∃ tr, M.Run tr s

/-- Finite executions between two arbitrary states. -/
inductive Steps (M : Machine State Label Out) (ok : State → Label → Prop) :
    State → List (Label × Out) → State → Prop
  | nil (s : State) : Steps M ok s [] s
  | snoc {s s' s'' : State} {tr : List (Label × Out)} {l : Label} {o : Out} :
      Steps M ok s tr s' → ok s' l → M.step s' l = some (s'', o) →
      Steps M ok s (tr ++ [(l, o)]) s''

variable {M : Machine State Label Out} {ok ok' : State → Label → Prop}

/-- A position of a trace with one more step is the new one or an earlier one. -/
theorem snoc_split {α : Type*} {tr pre post : List α} {e x : α}
    (h : tr ++ [e] = pre ++ x :: post) :
    (tr = pre ∧ e = x ∧ post = []) ∨
      ∃ post', tr = pre ++ x :: post' ∧ post = post' ++ [e] := by
  induction post using List.reverseRecOn with
  | nil =>
    obtain ⟨h_tr, h_e⟩ := List.append_inj' h rfl
    exact .inl ⟨h_tr, List.singleton_inj.mp h_e, rfl⟩
  | append_singleton post' y _ =>
    rw [← List.cons_append, ← List.append_assoc] at h
    obtain ⟨h_tr, h_y⟩ := List.append_inj' h rfl
    exact .inr ⟨post', h_tr, by rw [List.singleton_inj.mp h_y]⟩

/-- **Invariant rule.** -/
theorem RunWhen.invariant {P : State → Prop} (h_init : P M.init)
    (h_step : ∀ s l s' o, P s → ok s l → M.step s l = some (s', o) → P s')
    {tr : List (Label × Out)} {s : State} (h : M.RunWhen ok tr s) : P s := by
  induction h with
  | init => exact h_init
  | step _ h_ok hs ih => exact h_step _ _ _ _ ih h_ok hs

/-- **History rule.** The predicate sees the trace so far, and the step may use
that the trace is one of a run. -/
theorem RunWhen.history {P : List (Label × Out) → State → Prop} (h_init : P [] M.init)
    (h_step : ∀ tr s l s' o, M.RunWhen ok tr s → P tr s → ok s l →
      M.step s l = some (s', o) → P (tr ++ [(l, o)]) s')
    {tr : List (Label × Out)} {s : State} (h : M.RunWhen ok tr s) : P tr s := by
  induction h with
  | init => exact h_init
  | step h h_ok hs ih => exact h_step _ _ _ _ _ h ih h_ok hs

/-- A weaker condition has more runs. -/
theorem RunWhen.mono (h_imp : ∀ s l, ok s l → ok' s l) {tr : List (Label × Out)} {s : State}
    (h : M.RunWhen ok tr s) : M.RunWhen ok' tr s := by
  induction h with
  | init => exact .init
  | step _ h_ok hs ih => exact .step ih (h_imp _ _ h_ok) hs

/-- Forget the condition of a run. -/
theorem RunWhen.run {tr : List (Label × Out)} {s : State} (h : M.RunWhen ok tr s) :
    M.Run tr s :=
  h.mono fun _ _ _ => trivial

/-- **Cutting a run.** A run over `pre ++ post` passes through a state reached by
`pre`, from which `post` is executed. -/
theorem RunWhen.split {pre post : List (Label × Out)} {s : State}
    (h : M.RunWhen ok (pre ++ post) s) :
    ∃ m, M.RunWhen ok pre m ∧ M.Steps ok m post s := by
  induction post using List.reverseRecOn generalizing s with
  | nil =>
    rw [List.append_nil] at h
    exact ⟨s, h, .nil s⟩
  | append_singleton post lo ih =>
    rw [← List.append_assoc] at h
    generalize h_tr : pre ++ post ++ [lo] = tr at h
    cases h with
    | init => simp at h_tr
    | @step tr' s₁ _ l o h_run h_ok hs =>
      obtain ⟨rfl, h_lo⟩ := List.append_inj' h_tr rfl
      obtain rfl : lo = (l, o) := by simpa using h_lo
      obtain ⟨m, h_pre, h_post⟩ := ih h_run
      exact ⟨m, h_pre, h_post.snoc h_ok hs⟩

/-- The step taken at a trace position. -/
theorem RunWhen.split_step {pre post : List (Label × Out)} {l : Label} {o : Out} {s : State}
    (h : M.RunWhen ok (pre ++ (l, o) :: post) s) :
    ∃ m m', M.RunWhen ok pre m ∧ ok m l ∧ M.step m l = some (m', o) ∧
      M.RunWhen ok (pre ++ [(l, o)]) m' ∧ M.Steps ok m' post s := by
  rw [List.append_cons] at h
  obtain ⟨m', h_pre, h_post⟩ := h.split
  generalize h_tr : pre ++ [(l, o)] = tr at h_pre
  cases h_pre with
  | init => simp at h_tr
  | @step tr' m _ l' o' h_run h_ok hs =>
    obtain ⟨rfl, h_lo⟩ := List.append_inj' h_tr rfl
    obtain ⟨rfl, rfl⟩ : l = l' ∧ o = o' := by simpa using h_lo
    exact ⟨m, m', h_run, h_ok, hs, .step h_run h_ok hs, h_post⟩

/-- A trace leads to one state. -/
theorem RunWhen.state_unique {tr : List (Label × Out)} {s s' : State}
    (h : M.RunWhen ok tr s) (h' : M.RunWhen ok' tr s') : s = s' := by
  induction h generalizing s' with
  | init =>
    generalize h_tr : ([] : List (Label × Out)) = tr at h'
    cases h' with
    | init => rfl
    | step => simp at h_tr
  | @step tr₁ s₁ s₂ l o _ _ hs ih =>
    generalize h_tr : tr₁ ++ [(l, o)] = tr at h'
    cases h' with
    | init => simp at h_tr
    | @step tr' m _ l' o' h_run _ hs' =>
      obtain ⟨rfl, h_lo⟩ := List.append_inj' h_tr rfl
      obtain ⟨rfl, rfl⟩ : l = l' ∧ o = o' := by simpa using h_lo
      rw [ih h_run, hs'] at hs
      exact (Prod.mk.inj (Option.some.inj hs)).1.symm

/-- **Stability rule.** What every step keeps is kept along an execution. -/
theorem Steps.stable {P : State → Prop}
    (h_step : ∀ s l s' o, P s → ok s l → M.step s l = some (s', o) → P s')
    {s s' : State} {tr : List (Label × Out)} (h : M.Steps ok s tr s') (hP : P s) : P s' := by
  induction h with
  | nil => exact hP
  | snoc _ h_ok hs ih => exact h_step _ _ _ _ ih h_ok hs

/-- A run extended by an execution is a run. -/
theorem RunWhen.append {pre post : List (Label × Out)} {m s : State}
    (h : M.RunWhen ok pre m) (h' : M.Steps ok m post s) : M.RunWhen ok (pre ++ post) s := by
  induction h' with
  | nil => simpa using h
  | snoc _ h_ok hs ih =>
    rw [← List.append_assoc]
    exact .step ih h_ok hs

/-! ### Executing a list of labels -/

/-- Execute a list of labels, collecting the outputs; `none` if one of them is not
available. -/
def exec (M : Machine State Label Out) : State → List Label → Option (List (Label × Out) × State)
  | s, [] => some ([], s)
  | s, l :: ls =>
    (M.step s l).bind fun p => (M.exec p.1 ls).map fun q => ((l, p.2) :: q.1, q.2)

/-- The first step of an execution. -/
theorem exec_cons {s s' : State} {l : Label} {ls : List Label} {tr : List (Label × Out)} :
    M.exec s (l :: ls) = some (tr, s') ↔ ∃ s₁ o tr', M.step s l = some (s₁, o) ∧
      M.exec s₁ ls = some (tr', s') ∧ tr = (l, o) :: tr' := by
  simp only [exec, Option.bind_eq_some_iff, Option.map_eq_some_iff]
  constructor
  · rintro ⟨⟨s₁, o⟩, h_step, ⟨tr', s₂⟩, h_exec, h_eq⟩
    obtain ⟨rfl, rfl⟩ := Prod.mk.inj h_eq
    exact ⟨s₁, o, tr', h_step, h_exec, rfl⟩
  · rintro ⟨s₁, o, tr', h_step, h_exec, rfl⟩
    exact ⟨(s₁, o), h_step, (tr', s'), h_exec, rfl⟩

/-- The trace of an execution has the labels that were executed. -/
theorem exec_labels {ls : List Label} {s s' : State} {tr : List (Label × Out)}
    (h : M.exec s ls = some (tr, s')) : tr.map Prod.fst = ls := by
  induction ls generalizing s tr with
  | nil =>
    obtain ⟨rfl, -⟩ : [] = tr ∧ s = s' := by simpa [exec] using h
    rfl
  | cons l ls ih =>
    obtain ⟨s₁, o, tr', -, h_exec, rfl⟩ := (exec_cons).mp h
    rw [List.map_cons, ih h_exec]

/-- What the end of an execution reads as, evaluated. -/
theorem exec_reads {α : Type*} (M : Machine State Label Out) (s : State) (ls : List Label)
    (read : State → α) (a : α) (h : (M.exec s ls).map (fun q => read q.2) = some a) :
    ∃ tr s', M.exec s ls = some (tr, s') ∧ read s' = a := by
  obtain ⟨⟨tr, s'⟩, h_exec, h_read⟩ := Option.map_eq_some_iff.mp h
  exact ⟨tr, s', h_exec, h_read⟩

/-- Whether every step of an execution meets a decidable condition. -/
def checks (M : Machine State Label Out) (ok : State → Label → Prop)
    [∀ s l, Decidable (ok s l)] : State → List Label → Bool
  | _, [] => true
  | s, l :: ls => decide (ok s l) && match M.step s l with
    | some p => M.checks ok p.1 ls
    | none => true

/-- What `exec` computes extends a run, when the condition is checked on the way. -/
theorem RunWhen.append_exec [∀ s l, Decidable (ok s l)] {ls : List Label}
    {pre tr : List (Label × Out)} {m s : State} (h : M.RunWhen ok pre m)
    (h_exec : M.exec m ls = some (tr, s)) (h_ok : M.checks ok m ls = true) :
    M.RunWhen ok (pre ++ tr) s := by
  induction ls generalizing pre m tr with
  | nil =>
    obtain ⟨rfl, rfl⟩ : [] = tr ∧ m = s := by simpa [exec] using h_exec
    simpa using h
  | cons l ls ih =>
    cases hs : M.step m l with
    | none => simp [exec, hs] at h_exec
    | some p =>
      simp only [exec, hs, Option.bind_some, Option.map_eq_some_iff] at h_exec
      obtain ⟨⟨tr', s₁⟩, h_exec, h_eq⟩ := h_exec
      obtain ⟨rfl, rfl⟩ : (l, p.2) :: tr' = tr ∧ s₁ = s := by simpa using h_eq
      simp only [checks, hs, Bool.and_eq_true, decide_eq_true_eq] at h_ok
      have h_run := ih (.step h h_ok.1 hs) h_exec h_ok.2
      rwa [← List.append_cons] at h_run

/-- What `exec` computes is an execution, when the condition is checked on the way. -/
theorem steps_of_exec [∀ s l, Decidable (ok s l)] {ls : List Label} {tr : List (Label × Out)}
    {m s : State} (h_exec : M.exec m ls = some (tr, s)) (h_ok : M.checks ok m ls = true) :
    M.Steps ok m tr s := by
  have h_start : ({ M with init := m } : Machine State Label Out).RunWhen ok [] m := .init
  have h_steps : ∀ {tr s}, ({ M with init := m } : Machine State Label Out).RunWhen ok tr s →
      M.Steps ok m tr s := by
    intro tr s h
    induction h with
    | init => exact .nil m
    | step _ h_ok hs ih => exact ih.snoc h_ok hs
  have h_same : ∀ (ls : List Label) (a : State),
      ({ M with init := m } : Machine State Label Out).exec a ls = M.exec a ls ∧
      ({ M with init := m } : Machine State Label Out).checks ok a ls = M.checks ok a ls := by
    intro ls
    induction ls with
    | nil => exact fun a => ⟨rfl, rfl⟩
    | cons l ls ih =>
      intro a
      constructor
      · simp only [exec, ih]
      · simp only [checks, ih]
  rw [← (h_same ls m).1] at h_exec
  rw [← (h_same ls m).2] at h_ok
  exact h_steps (h_start.append_exec h_exec h_ok)

/-- Every execution meets the trivial condition. -/
theorem checks_true (ls : List Label) (s : State) :
    M.checks (fun _ _ => True) s ls = true := by
  induction ls generalizing s with
  | nil => rfl
  | cons l ls ih =>
    simp only [checks, decide_true, Bool.true_and]
    cases M.step s l with
    | none => rfl
    | some p => exact ih p.1

/-- The executions of the machine are runs. -/
theorem run_of_exec (ls : List Label) {tr : List (Label × Out)} {s : State}
    (h : M.exec M.init ls = some (tr, s)) : M.Run tr s :=
  RunWhen.append_exec .init h (checks_true ls M.init)

/-- Executions all of whose steps meet a condition are runs under it. -/
theorem runWhen_of_exec [∀ s l, Decidable (ok s l)] (ls : List Label)
    {tr : List (Label × Out)} {s : State} (h : M.exec M.init ls = some (tr, s))
    (h_ok : M.checks ok M.init ls = true) : M.RunWhen ok tr s :=
  RunWhen.append_exec .init h h_ok

end Machine
end Framework
