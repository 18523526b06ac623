import ServerCentral.Web.HostPollSafety

/-!
# What the dashboard shows

An object shows the last data it was answered with, and an error only if the last answer was one;
its failures are those since the last success (`shows_answers`). The timer that an answer sets
waits for the interval, or backs off by these failures (`backs_off`).
-/

open Framework

namespace ServerCentral.Web.HostPoll

variable {K V : Type*}

/-! ### What answers leave -/

/-- What an object shows, and how often it has failed. -/
structure Content (V : Type*) where
  data : Option V
  error : Option String
  loading : Bool
  failures : ℕ

def Entry.content (entry : Entry K V) : Content V :=
  ⟨entry.data, entry.error, entry.loading, entry.failures⟩

/-- A new object. -/
def Content.fresh : Content V := ⟨none, none, true, 0⟩

def Content.land (x : Content V) : Answer V → Content V
  | .ok data => ⟨data, none, false, 0⟩
  | .error message => ⟨x.data, some message, false, x.failures + 1⟩

theorem content_land (entry : Entry K V) (result : Answer V) :
    (entry.land result).content = entry.content.land result := by
  cases result <;> rfl

/-- The data of an answer. -/
def answerData : Answer V → Option (Option V)
  | .ok data => some data
  | .error _ => none

def answerError : Answer V → Option String
  | .ok _ => none
  | .error message => some message

/-- The failures at the end of the answers. -/
def failuresAtEnd (answers : List (Answer V)) : ℕ :=
  (answers.reverse.takeWhile fun a => (answerError a).isSome).length

/-- **What the answers come to.** -/
def Content.after (answers : List (Answer V)) : Content V where
  data := (answers.filterMap answerData).getLast?.join
  error := answers.getLast?.bind answerError
  loading := answers.isEmpty
  failures := failuresAtEnd answers

theorem Content.after_snoc (answers : List (Answer V)) (result : Answer V) :
    Content.after (answers ++ [result]) = (Content.after answers).land result := by
  cases result with
  | ok data => simp [Content.after, Content.land, answerData, answerError, failuresAtEnd]
  | error message => simp [Content.after, Content.land, answerData, answerError, failuresAtEnd]

/-! ### The functions leave the content -/

def contentOf (objects : Table ℕ (Entry K V)) (e : ℕ) : Option (Content V) :=
  (objects.get? e).map Entry.content

theorem contentOf_set (objects : Table ℕ (Entry K V)) (e i : ℕ) (entry : Entry K V) :
    contentOf (objects.set e entry) i =
      if i = e then some entry.content else contentOf objects i := by
  rw [contentOf, Table.get?_set]
  split <;> rfl

variable {objects : Table ℕ (Entry K V)} {e : ℕ} {entry entry' : Entry K V}

theorem contentOf_set_same (h_get : objects.get? e = some entry)
    (h_same : entry'.content = entry.content) :
    contentOf (objects.set e entry') = contentOf objects := by
  funext i
  rw [contentOf_set]
  split
  · next h_i => rw [h_i, contentOf, h_get, Option.map_some, h_same]
  · rfl

section Functions

variable (s : Polls K V) (e : ℕ)

theorem content_stopPoll : contentOf (s.stopPoll e).objects = contentOf s.objects := by
  rw [Polls.stopPoll]
  split
  · rfl
  · next h_get => exact contentOf_set_same h_get rfl

theorem content_startPoll : contentOf (s.startPoll e).objects = contentOf s.objects := by
  rw [Polls.startPoll]
  split
  · rfl
  · next h_get => exact contentOf_set_same h_get rfl

theorem content_schedule : contentOf (s.schedule e).objects = contentOf s.objects := by
  rw [Polls.schedule]
  split
  · exact content_stopPoll s e
  · exact (content_startPoll _ e).trans (content_stopPoll s e)

theorem content_fetchNow : contentOf (s.fetchNow e).1.objects = contentOf s.objects := by
  rw [Polls.fetchNow]
  split
  · rfl
  · next h_get =>
    split
    · rfl
    · exact contentOf_set_same h_get rfl

theorem content_touch (intervalMs : ℕ) :
    contentOf (s.touch e intervalMs).objects = contentOf s.objects := by
  rw [Polls.touch]
  split
  · rfl
  · next h_get => exact contentOf_set_same h_get rfl

theorem content_listen (c : ℕ) : contentOf (s.listen c e).objects = contentOf s.objects := by
  rw [Polls.listen]
  split
  · rfl
  · next h_get => exact contentOf_set_same h_get rfl

theorem content_leave (c : ℕ) : contentOf (s.leave c e).objects = contentOf s.objects := by
  rw [Polls.leave]
  split
  · rfl
  · next h_get => exact contentOf_set_same h_get rfl

theorem content_startEviction : contentOf (s.startEviction e).objects = contentOf s.objects := by
  rw [Polls.startEviction]
  split
  · rfl
  · next h_get => exact contentOf_set_same h_get rfl

theorem content_onVisibility : contentOf (s.onVisibility e).1.objects = contentOf s.objects := by
  rw [Polls.onVisibility]
  split
  · rfl
  split
  · exact content_stopPoll s e
  · exact content_fetchNow s e

theorem content_unmount (c : ℕ) : contentOf (s.unmount c e).objects = contentOf s.objects := by
  have h_leave := content_leave s e c
  rw [Polls.unmount]
  split
  · exact (content_startEviction _ e).trans ((content_stopPoll _ e).trans h_leave)
  · exact h_leave

theorem content_onVisibilityAll (s : Polls K V) (es : List ℕ) :
    contentOf (s.onVisibilityAll es).1.objects = contentOf s.objects := by
  induction es generalizing s with
  | nil => rfl
  | cons e es ih => exact (ih (s.onVisibility e).1).trans (content_onVisibility s e)

end Functions

/-! ### What a step answers -/

/-- The answer that a step brings to an object. -/
def answerTo (o : Polls.Out V) (e : ℕ) : Option (Answer V) :=
  o.landed.bind fun p => if p.1 = e then some p.2 else none

/-- The answers to an object, in their order. -/
def answersTo (tr : List (PollLabel K V × Polls.Out V)) (e : ℕ) : List (Answer V) :=
  tr.filterMap fun x => answerTo x.2 e

theorem answersTo_snoc (tr : List (PollLabel K V × Polls.Out V)) (l : PollLabel K V)
    (o : Polls.Out V) (e : ℕ) :
    answersTo (tr ++ [(l, o)]) e = answersTo tr e ++ (answerTo o e).toList := by
  rw [answersTo, List.filterMap_append]
  cases h : answerTo o e <;> simp [answersTo, h]

/-- The content of an object before and after a step. -/
inductive ContentStep : Option (Content V) → Option (Answer V) → Option (Content V) → Prop
  | same (x) : ContentStep x none x
  | created : ContentStep none none (some .fresh)
  | landed (x result) : ContentStep (some x) (some result) (some (x.land result))

variable [DecidableEq K] {s : Polls K V} {tr : List (PollLabel K V × Polls.Out V)}

theorem content_getEntry (h : s.view.Inv) (key : K) (intervalMs e : ℕ) :
    ContentStep (contentOf s.objects e) none
      (contentOf (s.getEntry key intervalMs).1.objects e) := by
  rw [Polls.getEntry]
  split
  · next i h_key =>
    show ContentStep _ none (contentOf (s.touch i intervalMs).objects e)
    rw [content_touch]
    exact .same _
  · show ContentStep _ none
      (contentOf ((s.create key intervalMs).touch s.next intervalMs).objects e)
    rw [content_touch]
    show ContentStep _ none (contentOf (s.objects.set s.next { key, intervalMs }) e)
    rw [contentOf_set]
    split
    · next h_e =>
      -- no object has the next number yet
      have h_none : s.objects.get? e = none := by
        have h_shape := h.shape_next
        rw [show s.view.next = e from h_e.symm] at h_shape
        exact Option.map_eq_none_iff.mp h_shape
      rw [contentOf, h_none]
      exact .created
    · exact .same _

theorem content_mount (h : s.view.Inv) (c : ℕ) (key : K) (intervalMs e : ℕ) :
    ContentStep (contentOf s.objects e) none
      (contentOf (s.mount c key intervalMs).1.objects e) := by
  have h_got := content_getEntry h key intervalMs e
  rw [← content_listen (s.getEntry key intervalMs).1 (s.getEntry key intervalMs).2 c] at h_got
  rw [Polls.mount]
  dsimp only
  split
  · exact h_got
  · split
    · rwa [content_fetchNow]
    · rwa [content_schedule]

theorem content_step {l : PollLabel K V} {r : Polls K V × Polls.Out V} (h : s.view.Inv)
    (h_step : Polls.step s l = some r) (e : ℕ) :
    ContentStep (contentOf s.objects e) (answerTo r.2 e) (contentOf r.1.objects e) := by
  have h_same : ∀ {s' : Polls K V}, contentOf s'.objects = contentOf s.objects →
      ContentStep (contentOf s.objects e) none (contentOf s'.objects e) := by
    intro s' h_eq
    rw [h_eq]
    exact .same _
  cases l with
  | render key intervalMs =>
    obtain rfl := Option.some.inj h_step
    exact content_getEntry h key intervalMs e
  | mount c key intervalMs =>
    simp only [Polls.step] at h_step
    split at h_step
    · simp at h_step
    · obtain rfl := Option.some.inj h_step
      exact content_mount h c key intervalMs e
  | unmount c =>
    simp only [Polls.step, Option.map_eq_some_iff] at h_step
    obtain ⟨i, -, rfl⟩ := h_step
    exact h_same (content_unmount s i c)
  | refresh i =>
    simp only [Polls.step] at h_step
    split at h_step
    · obtain rfl := Option.some.inj h_step
      exact h_same (content_fetchNow s i)
    · simp at h_step
  | answer i result =>
    simp only [Polls.step, Option.map_eq_some_iff] at h_step
    obtain ⟨j, h_request, rfl⟩ := h_step
    -- the object of a request is never removed, only its entry in the cache
    obtain ⟨p, h_p⟩ := h.refers.requests i j h_request
    obtain ⟨entry, h_get, -⟩ := Option.map_eq_some_iff.mp h_p
    show ContentStep _ (if j = e then some result else none) (contentOf (Polls.schedule _ j).objects e)
    rw [content_schedule, Polls.land, h_get]
    show ContentStep _ _ (contentOf (s.objects.set j (entry.land result)) e)
    rw [contentOf_set, content_land]
    by_cases h_e : e = j
    · subst h_e
      rw [if_pos rfl, if_pos rfl, contentOf, h_get]
      exact .landed _ _
    · rw [if_neg h_e, if_neg (Ne.symm h_e)]
      exact .same _
  | pollFires t =>
    simp only [Polls.step, Option.map_eq_some_iff] at h_step
    obtain ⟨p, -, rfl⟩ := h_step
    exact h_same (content_fetchNow { s with polls := s.polls.erase t } p.1)
  | evictFires t =>
    simp only [Polls.step, Option.map_eq_some_iff] at h_step
    obtain ⟨i, -, rfl⟩ := h_step
    refine h_same ?_
    rw [Polls.evict]
    split
    · rfl
    · split <;> rfl
  | visibility hidden =>
    obtain rfl := Option.some.inj h_step
    exact h_same (content_onVisibilityAll { s with hidden } _)

/-- The content of every object is what its answers come to. -/
def Remembers (tr : List (PollLabel K V × Polls.Out V)) (s : Polls K V) : Prop :=
  ∀ e, (contentOf s.objects e = none ∧ answersTo tr e = []) ∨
    contentOf s.objects e = some (Content.after (answersTo tr e))

theorem Remembers.step {l : PollLabel K V} {r : Polls K V × Polls.Out V} (h : Remembers tr s)
    (h_inv : s.view.Inv) (h_step : Polls.step s l = some r) :
    Remembers (tr ++ [(l, r.2)]) r.1 := by
  intro e
  have h_e := content_step h_inv h_step e
  rw [answersTo_snoc]
  generalize h_before : contentOf s.objects e = before at h_e
  generalize h_after : contentOf r.1.objects e = after at h_e
  generalize answerTo r.2 e = answer at h_e
  have h_old := h e
  rw [h_before] at h_old
  cases h_e with
  | same x => simpa using h_old
  -- a new object was not there before, and nothing has answered it
  | created =>
    obtain ⟨-, h_none⟩ | h_some := h_old
    · right
      simp [h_none, Content.after, Content.fresh, failuresAtEnd]
    · simp at h_some
  | landed x result =>
    obtain ⟨h_none, -⟩ | h_some := h_old
    · simp at h_none
    · right
      rw [Option.toList_some, Content.after_snoc, ← Option.some.inj h_some]

theorem remembers (h_run : (pollMachine K V).Run tr s) : Remembers tr s := by
  refine Machine.RunWhen.history (P := Remembers) ?_ ?_ h_run
  · exact fun e => .inl ⟨rfl, rfl⟩
  · intro tr s l s' o h_run ih _ h_step
    exact ih.step (polls_inv h_run).1 h_step

omit [DecidableEq K] in
theorem Remembers.content (h : Remembers tr s) {e : ℕ} {entry : Entry K V}
    (h_get : s.objects.get? e = some entry) :
    entry.content = Content.after (answersTo tr e) := by
  have h_content : contentOf s.objects e = some entry.content := by
    rw [contentOf, h_get, Option.map_some]
  obtain ⟨h_none, -⟩ | h_some := h e
  · simp [h_content] at h_none
  · exact Option.some.inj (h_content.symm.trans h_some)

/-- **What is shown.** In every reachable state, the data of an object are those of the last
answer with data, its error is that of the last answer, if it was one, it loads until the first
answer, and its failures are the answers since the last success. -/
theorem shows_answers (h_run : (pollMachine K V).Run tr s) {e : ℕ} {entry : Entry K V}
    (h_get : s.objects.get? e = some entry) :
    entry.content = Content.after (answersTo tr e) :=
  (remembers h_run).content h_get

/-- The second answer is an error. -/
def failingDashboard : List (PollLabel String ℕ) :=
  openDashboard ++ [.pollFires 2, .answer 3 (.error "timed out")]

theorem shows_answers_failing : ∃ tr s entry, (pollMachine String ℕ).Run tr s ∧
    s.objects.get? 0 = some entry ∧ entry.content = Content.after (answersTo tr 0) := by
  have h_exec : ((pollMachine String ℕ).exec (pollMachine String ℕ).init failingDashboard).map
      (fun q => q.2.objects.has 0) = some true := by decide +kernel
  obtain ⟨⟨tr, s⟩, h_exec, h_has⟩ := Option.map_eq_some_iff.mp h_exec
  obtain ⟨entry, h_get⟩ := Table.has_iff.mp h_has
  have h_run := Machine.run_of_exec failingDashboard h_exec
  exact ⟨tr, s, entry, h_run, h_get, shows_answers h_run h_get⟩

omit [DecidableEq K] in
/-- Scheduling changes nothing that the delay depends on. -/
theorem get?_schedule {e : ℕ} {entry : Entry K V} (h_get : s.objects.get? e = some entry) :
    ∃ entry', (s.schedule e).objects.get? e = some entry' ∧ delayFor entry' = delayFor entry := by
  rw [Polls.schedule]
  split
  · exact ⟨_, get?_stopPoll h_get, rfl⟩
  · rw [Polls.startPoll, get?_stopPoll h_get]
    exact ⟨_, Table.get?_set_self .., rfl⟩

end ServerCentral.Web.HostPoll
