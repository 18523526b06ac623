import ServerCentral.Web.HostPollInv

/-!
# How the dashboard polls

A key has at most one timer, which runs only while someone listens and the tab is shown
(`poll_timers`); what is shown to someone is polled on and on (`keeps_polling`), and a hidden tab
asks for nothing by itself (`hidden_asks`). A key has one request at a time, as long as no object
is used after it was dropped from the cache, or dropped while it has a request (`one_request`).
-/

open Framework

namespace ServerCentral.Web.HostPoll

variable {K V : Type*} [DecidableEq K]

/-! ### Timers and requests -/

/-- Only what is seen and listened to has a timer. -/
def View.Clocked (v : View K) : Prop :=
  ∀ t p, v.polls.get? t = some p →
    v.hidden = false ∧ ∃ k cs, v.shape p.1 = some (k, cs) ∧ cs ≠ []

/-- An object has a request under way, or a timer for the next one. -/
def View.GoesOn (v : View K) (e : ℕ) : Prop :=
  (∃ r, v.requests.get? r = some e) ∨ ∃ t delay, v.polls.get? t = some (e, delay)

/-- What is seen and listened to goes on. -/
def View.Going (v : View K) : Prop :=
  v.hidden = false → ∀ e k cs, v.shape e = some (k, cs) → cs ≠ [] → v.GoesOn e

namespace View

variable {v v' : View K} {e : ℕ} {k : K} {cs : List ℕ} {p : K × List ℕ}

/-! ### What goes on -/

variable {i delay : ℕ}

theorem goesOn_fetchNow_self (h : v.Inv) : (v.fetchNow e).1.GoesOn e := by
  rw [View.fetchNow]
  split
  · next h_some =>
    -- what the slot holds is under way
    obtain ⟨r, h_r⟩ := Option.isSome_iff_exists.mp h_some
    exact .inl ⟨r, h.flying e r h_r⟩
  · exact .inl ⟨v.next, Table.get?_set_self ..⟩

theorem GoesOn.fetchNow (h : v.Inv) (h_on : v.GoesOn i) : (v.fetchNow e).1.GoesOn i := by
  rw [View.fetchNow]
  split
  · exact h_on
  · obtain ⟨r, h_r⟩ | h_poll := h_on
    · have h_lt := h.requests.below i r (h.requests.held r i h_r)
      exact .inl ⟨r, (Table.get?_set_of_ne _ _ (Nat.ne_of_lt h_lt)).trans h_r⟩
    · exact .inr h_poll

omit [DecidableEq K] in
theorem goesOn_schedule_self (h_shape : v.shape e = some (k, cs)) (h_cs : cs ≠ [])
    (h_seen : v.hidden = false) : (v.schedule e delay).GoesOn e := by
  rw [View.schedule, subscribersOf_eq h_shape, if_neg (by simp [h_cs, h_seen])]
  exact .inr ⟨v.next, delay, Table.get?_set_self ..⟩

theorem GoesOn.stopPoll (h : v.Inv) (h_on : v.GoesOn i) (h_ne : i ≠ e) :
    (v.stopPoll e).GoesOn i := by
  obtain h_request | ⟨t, d, h_t⟩ := h_on
  · exact .inl h_request
  · exact .inr ⟨t, d, (get?_stopPoll_polls h).mpr ⟨h_t, h_ne⟩⟩

theorem GoesOn.schedule (h : v.Inv) (h_on : v.GoesOn i) (h_ne : i ≠ e) :
    (v.schedule e delay).GoesOn i := by
  have h_stop := h_on.stopPoll h h_ne
  rw [View.schedule]
  split
  · exact h_stop
  · obtain h_request | ⟨t, d, h_t⟩ := h_stop
    · exact .inl h_request
    · have h_old := ((get?_stopPoll_polls h).mp h_t).1
      have h_lt := h.polls.below i t (h.polls.held t (i, d) h_old)
      exact .inr ⟨t, d, (Table.get?_set_of_ne _ _ (Nat.ne_of_lt h_lt)).trans h_t⟩

/-- The timers after an object was scheduled. -/
theorem get?_schedule_polls (h : v.Inv) {t : ℕ} {q : ℕ × ℕ}
    (h_t : (v.schedule e delay).polls.get? t = some q) :
    v.polls.get? t = some q ∧ q.1 ≠ e ∨
      q = (e, delay) ∧ v.subscribersOf e ≠ [] ∧ v.hidden = false := by
  rw [View.schedule] at h_t
  split at h_t
  · exact .inl ((get?_stopPoll_polls h).mp h_t)
  · next h_idle =>
    obtain ⟨-, rfl⟩ | ⟨-, h_old⟩ := Table.get?_set_eq_some h_t
    · rw [not_or] at h_idle
      exact .inr ⟨rfl, h_idle.1, Bool.eq_false_iff.mpr h_idle.2⟩
    · exact .inl ((get?_stopPoll_polls h).mp h_old)

/-- Scheduling an object repairs its clock. -/
theorem Clocked.schedule (h : v.Inv) (h_shape : v.shape e = some (k, cs))
    (h_others : ∀ t q, v.polls.get? t = some q → q.1 ≠ e →
      v.hidden = false ∧ ∃ k cs, v.shape q.1 = some (k, cs) ∧ cs ≠ []) :
    (v.schedule e delay).Clocked := by
  intro t q h_t
  have h_same := same_schedule v e delay
  rw [h_same.hidden, h_same.shape]
  obtain ⟨h_old, h_ne⟩ | ⟨rfl, h_subs, h_seen⟩ := get?_schedule_polls h h_t
  · exact h_others t q h_old h_ne
  · rw [subscribersOf_eq h_shape] at h_subs
    exact ⟨h_seen, k, cs, h_shape, h_subs⟩

/-! ### The tab is hidden or shown -/

/-- A hidden tab stops its timers and asks for nothing, -/
theorem onVisibilityAll_hidden (h : v.Inv) (h_hidden : v.hidden = true) (es : List ℕ) :
    (v.onVisibilityAll es).2 = [] ∧
    ∀ t q, (v.onVisibilityAll es).1.polls.get? t = some q →
      v.polls.get? t = some q ∧ (q.1 ∈ es → v.subscribersOf q.1 = []) := by
  induction es generalizing v with
  | nil => exact ⟨rfl, fun t q h_t => ⟨h_t, by simp⟩⟩
  | cons e es ih =>
    have h_same := same_onVisibility v e
    obtain ⟨h_none, h_rest⟩ := ih (h.onVisibility e) (h_same.hidden.trans h_hidden)
    have h_first : (v.onVisibility e).2 = [] := by
      rw [View.onVisibility, h_hidden]
      split <;> rfl
    refine ⟨congrArg₂ (· ++ ·) h_first h_none, fun t q h_t => ?_⟩
    obtain ⟨h_t, h_later⟩ := h_rest t q h_t
    have h_subs : (v.onVisibility e).1.subscribersOf q.1 = v.subscribersOf q.1 := by
      rw [subscribersOf, subscribersOf, h_same.shape]
    rw [h_subs] at h_later
    -- without listeners the entry keeps what it has, otherwise its timer is cleared
    by_cases h_e : v.subscribersOf e = []
    · rw [View.onVisibility, if_pos h_e] at h_t
      refine ⟨h_t, fun h_mem => ?_⟩
      obtain h_eq | h_mem := List.mem_cons.mp h_mem
      · rw [h_eq, h_e]
      · exact h_later h_mem
    · rw [View.onVisibility, if_neg h_e, if_pos h_hidden] at h_t
      obtain ⟨h_old, h_ne⟩ := (get?_stopPoll_polls h).mp h_t
      exact ⟨h_old, fun h_mem => h_later ((List.mem_cons.mp h_mem).resolve_left h_ne)⟩

/-- and one that is shown has its requests made. -/
theorem onVisibilityAll_shown (h : v.Inv) (h_seen : v.hidden = false) (es : List ℕ) :
    (v.onVisibilityAll es).1.polls = v.polls ∧
    (∀ i, v.GoesOn i → (v.onVisibilityAll es).1.GoesOn i) ∧
    ∀ e ∈ es, v.subscribersOf e ≠ [] → (v.onVisibilityAll es).1.GoesOn e := by
  induction es generalizing v with
  | nil => exact ⟨rfl, fun i h_i => h_i, by simp⟩
  | cons e es ih =>
    have h_same := same_onVisibility v e
    obtain ⟨h_polls, h_kept, h_new⟩ := ih (h.onVisibility e) (h_same.hidden.trans h_seen)
    have h_step : v.subscribersOf e ≠ [] → (v.onVisibility e).1 = (v.fetchNow e).1 := by
      intro h_e
      rw [View.onVisibility, if_neg h_e, h_seen]
      rfl
    have h_idle : v.subscribersOf e = [] → (v.onVisibility e).1 = v := by
      intro h_e
      rw [View.onVisibility, if_pos h_e]
    -- a request for one entry takes nothing from the others
    have h_on : ∀ i, v.GoesOn i → (v.onVisibility e).1.GoesOn i := by
      intro i h_i
      by_cases h_e : v.subscribersOf e = []
      · rwa [h_idle h_e]
      · rw [h_step h_e]
        exact h_i.fetchNow h
    refine ⟨h_polls.trans ?_, fun i h_i => h_kept i (h_on i h_i), ?_⟩
    · by_cases h_e : v.subscribersOf e = []
      · rw [h_idle h_e]
      · rw [h_step h_e]
        exact polls_fetchNow v e
    · intro i h_mem h_i
      obtain rfl | h_mem := List.mem_cons.mp h_mem
      · refine h_kept i ?_
        rw [h_step h_i]
        exact goesOn_fetchNow_self h
      · refine h_new i h_mem ?_
        rwa [subscribersOf, h_same.shape]

/-! ### What every step keeps -/

omit [DecidableEq K] in
/-- More listeners do no harm to the clocks. -/
theorem Clocked.reshape (h : v.Clocked) {cs' : List ℕ} (h_cs' : cs' ≠ [])
    (mounted : Table ℕ ℕ) : ({ v.reshape e (k, cs') with mounted } : View K).Clocked := by
  intro t q h_t
  obtain ⟨h_seen, k₁, cs₁, h_shape, h_cs₁⟩ := h t q h_t
  refine ⟨h_seen, ?_⟩
  show ∃ k₁ cs₁, Function.update v.shape e (some (k, cs')) q.1 = some (k₁, cs₁) ∧ cs₁ ≠ []
  by_cases h_q : q.1 = e
  · exact ⟨k, cs', by rw [h_q, Function.update_self], h_cs'⟩
  · exact ⟨k₁, cs₁, (Function.update_of_ne h_q _ _).trans h_shape, h_cs₁⟩

omit [DecidableEq K] in
theorem Clocked.fetchNow (h : v.Clocked) (e : ℕ) : (v.fetchNow e).1.Clocked := by
  intro t q h_t
  have h_same := same_fetchNow v e
  rw [polls_fetchNow] at h_t
  rw [h_same.hidden, h_same.shape]
  exact h t q h_t

theorem Clocked.ready (h : v.Clocked) (h_ready : Ready v v' k e) : v'.Clocked := by
  intro t q h_t
  rw [h_ready.polls] at h_t
  obtain ⟨h_seen, k₁, cs₁, h_shape, h_cs₁⟩ := h t q h_t
  exact ⟨h_ready.hidden.trans h_seen, k₁, cs₁, h_ready.old _ _ h_shape, h_cs₁⟩

theorem Clocked.step {l : PollLabel K V} {asked : List ℕ} (h_clock : v.Clocked) (h : v.Inv)
    (h_step : v.Step l v' asked) : v'.Clocked := by
  cases h_step with
  | render h_got => exact h_clock.ready (h.got h_got)
  | @opened c k i e v₁ cs v₂ asked h_free h_got h_shape h_fetch =>
    have h_listen := (h_clock.ready (h.got h_got)).reshape (e := e) (k := k)
      (List.cons_ne_nil c cs) (v₁.mounted.set c e)
    have h_fetched := h_listen.fetchNow e
    rwa [h_fetch] at h_fetched
  | @shown c k i e v₁ cs delay h_free h_got h_shape =>
    have h_ready := h.got h_got
    rw [← h_ready.mounted] at h_free
    have h_listen := h_ready.inv.listen h_free h_shape h_ready.entry h_ready.kept
    have h_clocked := (h_clock.ready h_ready).reshape (e := e) (k := k) (List.cons_ne_nil c cs)
      (v₁.mounted.set c e)
    have h_heard : ({ v₁.reshape e (k, c :: cs) with
        mounted := v₁.mounted.set c e } : View K).shape e = some (k, c :: cs) :=
      Function.update_self ..
    refine Clocked.schedule h_listen h_heard ?_
    exact fun t q h_t _ => h_clocked t q h_t
  | stayed h_mounted h_shape h_others => exact h_clock.reshape h_others _
  | @left c e k cs h_mounted h_shape h_last =>
    have h_left := h.leave h_mounted h_shape
    rw [h_last] at h_left
    intro t q h_t
    -- the timers that remain are those of other objects, which keep their listeners
    obtain ⟨h_old, h_ne⟩ := (get?_stopPoll_polls h_left).mp h_t
    obtain ⟨h_seen, k₁, cs₁, h_q, h_cs₁⟩ := h_clock t q h_old
    exact ⟨h_seen, k₁, cs₁, (Function.update_of_ne h_ne _ _).trans h_q, h_cs₁⟩
  | @refresh e p v₁ asked h_shape h_fetch =>
    have h_fetched := h_clock.fetchNow e
    rwa [h_fetch] at h_fetched
  | @answer r e p result delay h_request h_shape =>
    have h_pair : (v.land r e).shape e = some (p.1, p.2) := h_shape
    exact Clocked.schedule (h.land h_request) h_pair
      fun t q h_t _ => h_clock t q h_t
  | @pollFires t p q v₁ asked h_poll h_shape h_fetch =>
    -- the timer has gone, and the request sets none before its answer
    have h_fired : ({ v with polls := v.polls.erase t } : View K).Clocked :=
      fun t' q' h_t' => h_clock t' q' (Table.get?_erase.mp h_t').1
    have h_fetched := h_fired.fetchNow p.1
    rwa [h_fetch] at h_fetched
  | evictFires => exact h_clock
  | @visibility hidden v₁ asked h_loop =>
    have h_inv : ({ v with hidden } : View K).Inv := { h with }
    have h_same := same_onVisibilityAll ({ v with hidden } : View K) v.entries.values
    intro t q h_t
    cases hidden with
    | true =>
      -- Every timer is that of an object in the cache which someone listens to.
      obtain ⟨-, h_stopped⟩ := onVisibilityAll_hidden h_inv rfl v.entries.values
      rw [h_loop] at h_stopped
      obtain ⟨h_old, h_idle⟩ := h_stopped t q h_t
      obtain ⟨-, k, cs, h_shape, h_cs⟩ := h_clock t q h_old
      have h_subs := h_idle (h.mem_values h_shape h_cs)
      rw [subscribersOf_eq (v := { v with hidden := true }) h_shape] at h_subs
      exact absurd h_subs h_cs
    | false =>
      obtain ⟨h_polls, -⟩ := onVisibilityAll_shown h_inv rfl v.entries.values
      rw [h_loop] at h_polls h_same
      have h_p : v'.polls = v.polls := h_polls
      rw [h_p] at h_t
      rw [h_same.hidden, h_same.shape]
      exact ⟨rfl, (h_clock t q h_t).2⟩

theorem Going.ready (h : v.Going) (h_ready : Ready v v' k e) : v'.Going := by
  intro h_seen i k₁ cs₁ h_shape h_cs₁
  rw [h_ready.hidden] at h_seen
  rw [GoesOn, h_ready.polls, h_ready.requests]
  obtain h_old | h_eq := h_ready.shape i _ h_shape
  · exact h h_seen i k₁ cs₁ h_old h_cs₁
  · exact absurd (Prod.mk.inj h_eq).2 h_cs₁

omit [DecidableEq K] in
/-- What goes on beside an object that is changed. -/
theorem Going.beside (h : v.Going) {p : K × List ℕ} {k₁ : K} {cs₁ : List ℕ}
    (h_seen : v.hidden = false) (h_shape : Function.update v.shape e (some p) i = some (k₁, cs₁))
    (h_cs₁ : cs₁ ≠ []) : i = e ∨ i ≠ e ∧ v.GoesOn i := by
  obtain ⟨h_i, -⟩ | ⟨h_ne, h_old⟩ := update_eq_some h_shape
  · exact .inl h_i
  · exact .inr ⟨h_ne, h h_seen i k₁ cs₁ h_old h_cs₁⟩

theorem Going.step {l : PollLabel K V} {asked : List ℕ} (h_going : v.Going) (h : v.Inv)
    (h_step : v.Step l v' asked) : v'.Going := by
  cases h_step with
  | render h_got => exact h_going.ready (h.got h_got)
  | @opened c k i e v₁ cs v₂ asked h_free h_got h_shape h_fetch =>
    have h_ready := h.got h_got
    rw [← h_ready.mounted] at h_free
    have h_listen := h_ready.inv.listen h_free h_shape h_ready.entry h_ready.kept
    have h_same := same_fetchNow { v₁.reshape e (k, c :: cs) with mounted := v₁.mounted.set c e } e
    rw [h_fetch] at h_same
    intro h_seen j k₁ cs₁ h_j h_cs₁
    rw [h_same.hidden] at h_seen
    rw [h_same.shape] at h_j
    suffices h_on : ({ v₁.reshape e (k, c :: cs) with
        mounted := v₁.mounted.set c e }.fetchNow e).1.GoesOn j by rwa [h_fetch] at h_on
    -- the object itself has its request now; what was under way beside it stays
    obtain rfl | ⟨-, h_on⟩ := (h_going.ready h_ready).beside h_seen h_j h_cs₁
    · exact goesOn_fetchNow_self h_listen
    · exact GoesOn.fetchNow h_listen h_on
  | @shown c k i e v₁ cs delay h_free h_got h_shape =>
    have h_ready := h.got h_got
    rw [← h_ready.mounted] at h_free
    have h_listen := h_ready.inv.listen h_free h_shape h_ready.entry h_ready.kept
    have h_same := same_schedule
      { v₁.reshape e (k, c :: cs) with mounted := v₁.mounted.set c e } e delay
    intro h_seen j k₁ cs₁ h_j h_cs₁
    rw [h_same.hidden] at h_seen
    rw [h_same.shape] at h_j
    -- an object that has been answered is scheduled, and not asked for
    obtain rfl | ⟨h_ne, h_on⟩ := (h_going.ready h_ready).beside h_seen h_j h_cs₁
    · exact goesOn_schedule_self (Function.update_self ..) (List.cons_ne_nil _ _) h_seen
    · exact GoesOn.schedule h_listen h_on h_ne
  | @stayed c e k cs h_mounted h_shape h_others =>
    intro h_seen j k₁ cs₁ h_j h_cs₁
    obtain rfl | ⟨-, h_on⟩ := h_going.beside h_seen h_j h_cs₁
    · refine h_going h_seen j k cs h_shape ?_
      rintro rfl
      exact h_others rfl
    · exact h_on
  | @left c e k cs h_mounted h_shape h_last =>
    have h_left := h.leave h_mounted h_shape
    rw [h_last] at h_left
    intro h_seen j k₁ cs₁ h_j h_cs₁
    obtain ⟨rfl, h_eq⟩ | ⟨h_ne, h_old⟩ := update_eq_some h_j
    · exact absurd (Prod.mk.inj (Option.some.inj h_eq)).2.symm h_cs₁
    · exact GoesOn.stopPoll h_left (h_going h_seen j k₁ cs₁ h_old h_cs₁) h_ne
  | @refresh e p v₁ asked h_shape h_fetch =>
    have h_same := same_fetchNow v e
    rw [h_fetch] at h_same
    intro h_seen j k₁ cs₁ h_j h_cs₁
    rw [h_same.hidden] at h_seen
    rw [h_same.shape] at h_j
    have h_on := (h_going h_seen j k₁ cs₁ h_j h_cs₁).fetchNow (e := e) h
    rwa [h_fetch] at h_on
  | @answer r e p result delay h_request h_shape =>
    have h_same := same_schedule (v.land r e) e delay
    intro h_seen j k₁ cs₁ h_j h_cs₁
    rw [h_same.hidden] at h_seen
    rw [h_same.shape] at h_j
    -- the request of `e` is over, and `schedule` sets its next timer
    by_cases h_e : j = e
    · subst h_e
      exact goesOn_schedule_self h_j h_cs₁ h_seen
    · refine GoesOn.schedule (h.land h_request) ?_ h_e
      obtain ⟨r', h_r'⟩ | h_poll := h_going h_seen j k₁ cs₁ h_j h_cs₁
      · refine .inl ⟨r', Table.get?_erase.mpr ⟨h_r', ?_⟩⟩
        rintro rfl
        exact h_e (Option.some.inj (h_r'.symm.trans h_request))
      · exact .inr h_poll
  | @pollFires t p q v₁ asked h_poll h_shape h_fetch =>
    have h_fired := h.pollFires t
    have h_same := same_fetchNow { v with polls := v.polls.erase t } p.1
    rw [h_fetch] at h_same
    intro h_seen j k₁ cs₁ h_j h_cs₁
    rw [h_same.hidden] at h_seen
    rw [h_same.shape] at h_j
    suffices h_on : ({ v with polls := v.polls.erase t }.fetchNow p.1).1.GoesOn j by
      rwa [h_fetch] at h_on
    -- the timer of this object has fired, so it has a request in its place
    by_cases h_e : j = p.1
    · subst h_e
      exact goesOn_fetchNow_self h_fired
    · refine GoesOn.fetchNow h_fired ?_
      obtain h_request | ⟨t', d, h_t'⟩ := h_going h_seen j k₁ cs₁ h_j h_cs₁
      · exact .inl h_request
      · refine .inr ⟨t', d, Table.get?_erase.mpr ⟨h_t', ?_⟩⟩
        rintro rfl
        obtain rfl := Option.some.inj (h_t'.symm.trans h_poll)
        exact h_e rfl
  | evictFires => exact h_going
  | @visibility hidden v₁ asked h_loop =>
    have h_inv : ({ v with hidden } : View K).Inv := { h with }
    have h_same := same_onVisibilityAll ({ v with hidden } : View K) v.entries.values
    rw [h_loop] at h_same
    intro h_seen j k₁ cs₁ h_j h_cs₁
    rw [h_same.hidden] at h_seen
    rw [h_same.shape] at h_j
    -- what is listened to is in the cache, so the loop comes to it
    obtain ⟨-, -, h_all⟩ := onVisibilityAll_shown h_inv h_seen v.entries.values
    rw [h_loop] at h_all
    refine h_all j (h.mem_values h_j h_cs₁) ?_
    rwa [subscribersOf_eq (v := { v with hidden }) h_j]

/-! ### One request for each key -/

/-- What is asked for is in the cache. -/
def Local (v : View K) : Prop :=
  ∀ r e, v.requests.get? r = some e →
    ∃ k cs, v.shape e = some (k, cs) ∧ v.entries.get? k = some e

/-- Nobody refreshes an object that was dropped, and none is dropped while it has a request. -/
def Calm (v : View K) : PollLabel K V → Prop
  | .refresh e => ∀ k cs, v.shape e = some (k, cs) → v.entries.get? k = some e
  | .evictFires t => ∀ e, v.evictions.get? t = some e → v.inFlight e = none
  | _ => True

omit [DecidableEq K] in
theorem requests_fetchNow {r : ℕ} (h_r : (v.fetchNow e).1.requests.get? r = some i) :
    v.requests.get? r = some i ∨ i = e := by
  rw [View.fetchNow] at h_r
  split at h_r
  · exact .inl h_r
  · obtain ⟨-, h_i⟩ | ⟨-, h_old⟩ := Table.get?_set_eq_some h_r
    · exact .inr h_i
    · exact .inl h_old

theorem Local.fetchNow (h : v.Local) (h_shape : v.shape e = some (k, cs))
    (h_entry : v.entries.get? k = some e) : (v.fetchNow e).1.Local := by
  have h_same := same_fetchNow v e
  intro r i h_r
  rw [h_same.shape, h_same.entries]
  obtain h_old | rfl := requests_fetchNow h_r
  · exact h r i h_old
  · exact ⟨k, cs, h_shape, h_entry⟩

theorem Local.ready (h : v.Local) (h_ready : Ready v v' k e) : v'.Local := by
  intro r i h_r
  rw [h_ready.requests] at h_r
  obtain ⟨k₁, cs₁, h_shape, h_entry⟩ := h r i h_r
  exact ⟨k₁, cs₁, h_ready.old _ _ h_shape, h_ready.listed _ _ h_entry⟩

/-- Who listens does not matter. -/
theorem Local.reshape (h : v.Local) (h_shape : v.shape e = some (k, cs)) (cs' : List ℕ)
    (mounted : Table ℕ ℕ) : ({ v.reshape e (k, cs') with mounted } : View K).Local := by
  intro r i h_r
  obtain ⟨k₁, cs₁, h_i, h_entry⟩ := h r i h_r
  by_cases h_e : i = e
  · subst h_e
    obtain ⟨rfl, rfl⟩ := Prod.mk.inj (Option.some.inj (h_i.symm.trans h_shape))
    exact ⟨k₁, cs', Function.update_self .., h_entry⟩
  · exact ⟨k₁, cs₁, (Function.update_of_ne h_e _ _).trans h_i, h_entry⟩

theorem Local.onVisibilityAll (h : v.Local) {es : List ℕ}
    (h_es : ∀ e ∈ es, ∃ k cs, v.shape e = some (k, cs) ∧ v.entries.get? k = some e) :
    (v.onVisibilityAll es).1.Local := by
  induction es generalizing v with
  | nil => exact h
  | cons e es ih =>
    have h_same := same_onVisibility v e
    obtain ⟨k, cs, h_shape, h_entry⟩ := h_es e (List.mem_cons_self ..)
    have h_first : (v.onVisibility e).1.Local := by
      rw [View.onVisibility]
      split
      · exact h
      split
      · exact h
      · exact h.fetchNow h_shape h_entry
    have h_rest : ∀ i ∈ es, ∃ k cs, (v.onVisibility e).1.shape i = some (k, cs) ∧
        (v.onVisibility e).1.entries.get? k = some i := by
      intro i h_i
      rw [h_same.shape, h_same.entries]
      exact h_es i (List.mem_cons_of_mem _ h_i)
    exact ih h_first h_rest

theorem Local.step {l : PollLabel K V} {asked : List ℕ} (h_local : v.Local) (h : v.Inv)
    (h_clock : v.Clocked) (h_calm : v.Calm l) (h_step : v.Step l v' asked) : v'.Local := by
  cases h_step with
  | render h_got => exact h_local.ready (h.got h_got)
  | @opened c k i e v₁ cs v₂ asked h_free h_got h_shape h_fetch =>
    have h_ready := h.got h_got
    have h_listen := (h_local.ready h_ready).reshape h_shape (c :: cs) (v₁.mounted.set c e)
    have h_fetched := h_listen.fetchNow (e := e) (k := k) (Function.update_self ..) h_ready.entry
    rwa [h_fetch] at h_fetched
  | @shown c k i e v₁ cs delay h_free h_got h_shape =>
    have h_ready := h.got h_got
    have h_listen := (h_local.ready h_ready).reshape h_shape (c :: cs) (v₁.mounted.set c e)
    rw [View.schedule]
    split <;> exact h_listen
  | stayed h_mounted h_shape => exact h_local.reshape h_shape _ _
  | @left c e k cs h_mounted h_shape => exact h_local.reshape h_shape [] (v.mounted.erase c)
  | @refresh e p v₁ asked h_shape h_fetch =>
    -- `Calm` is needed here: `refresh` works on an object that the cache has dropped
    have h_fetched := h_local.fetchNow h_shape (h_calm p.1 p.2 h_shape)
    rwa [h_fetch] at h_fetched
  | @answer r e p result delay h_request h_shape =>
    have h_land : (v.land r e).Local := fun r' i h_r' =>
      h_local r' i (Table.get?_erase.mp h_r').1
    rw [View.schedule]
    split <;> exact h_land
  | @pollFires t p q v₁ asked h_poll h_shape h_fetch =>
    -- an object with a timer is listened to, and so it is in the cache
    obtain ⟨-, k, cs, h_p, h_cs⟩ := h_clock t p h_poll
    have h_fired : ({ v with polls := v.polls.erase t } : View K).Local := h_local
    have h_fetched := h_fired.fetchNow h_p (h.heard p.1 k cs h_p h_cs)
    rwa [h_fetch] at h_fetched
  | @evictFires t e k cs h_eviction h_shape =>
    intro r i h_r
    obtain ⟨k₁, cs₁, h_i, h_entry⟩ := h_local r i h_r
    refine ⟨k₁, cs₁, h_i, ?_⟩
    show (if cs = [] then v.entries.erase k else v.entries).get? k₁ = some i
    split
    · refine Table.get?_erase.mpr ⟨h_entry, ?_⟩
      -- What is dropped has no request.
      rintro rfl
      obtain ⟨k₂, h_e, h_k₂⟩ := h.evicting t e h_eviction
      obtain ⟨rfl, -⟩ := Prod.mk.inj (Option.some.inj (h_shape.symm.trans h_e))
      obtain rfl := Option.some.inj (h_entry.symm.trans h_k₂)
      have h_none := h_calm i h_eviction
      rw [show v.inFlight i = some r from h.requests.held r i h_r] at h_none
      simp at h_none
    · exact h_entry
  | @visibility hidden v₁ asked h_loop =>
    have h_inv : ({ v with hidden } : View K).Local := h_local
    have h_es : ∀ e ∈ v.entries.values, ∃ k cs, v.shape e = some (k, cs) ∧
        v.entries.get? k = some e := by
      intro e h_e
      obtain ⟨k, h_k⟩ := Table.get?_of_mem_values.mp h_e
      obtain ⟨cs, h_shape⟩ := h.entries k e h_k
      exact ⟨k, cs, h_shape, h_k⟩
    have h_all := h_inv.onVisibilityAll h_es
    rwa [h_loop] at h_all

/-- A hidden tab asks for something only when it is told to. -/
theorem asked_hidden {l : PollLabel K V} {asked : List ℕ} (h_clock : v.Clocked) (h : v.Inv)
    (h_hidden : v.hidden = true) (h_step : v.Step l v' asked) (h_asked : asked ≠ []) :
    (∃ e, l = .refresh e) ∨ (∃ c k i, l = .mount c k i) ∨ l = .visibility false := by
  cases h_step with
  | refresh => exact .inl ⟨_, rfl⟩
  | opened => exact .inr (.inl ⟨_, _, _, rfl⟩)
  | @pollFires t p q v₁ asked h_poll =>
    -- a hidden tab has no timer
    obtain ⟨h_seen, -⟩ := h_clock t p h_poll
    simp [h_hidden] at h_seen
  | @visibility hidden v₁ asked h_loop =>
    cases hidden with
    | false => exact .inr (.inr rfl)
    | true =>
      have h_inv : ({ v with hidden := true } : View K).Inv := { h with }
      obtain ⟨h_none, -⟩ := onVisibilityAll_hidden h_inv rfl v.entries.values
      rw [h_loop] at h_none
      exact absurd h_none h_asked
  | _ => exact absurd rfl h_asked

end View

/-! ### The results -/

variable {tr : List (PollLabel K V × Polls.Out V)} {s s' : Polls K V}

theorem polls_inv (h_run : (pollMachine K V).Run tr s) :
    s.view.Inv ∧ s.view.Clocked ∧ s.view.Going := by
  refine Machine.RunWhen.invariant (P := fun s => s.view.Inv ∧ s.view.Clocked ∧ s.view.Going)
    ?_ ?_ h_run
  · refine ⟨?_, ?_, ?_⟩
    · constructor
      case polls => exact Kept.empty _ _
      case evictions => exact Kept.empty _ _
      case requests => exact Kept.empty _ _
      -- no object exists yet
      all_goals simp [pollMachine, Polls.view, slotOf, shapeOf]
    · simp [View.Clocked, pollMachine, Polls.view]
    · simp [View.Going, pollMachine, Polls.view, shapeOf]
  · rintro s l s' o ⟨h_inv, h_clock, h_going⟩ - h_step
    have h_view := step_view h_inv.refers h_step
    exact ⟨h_inv.step h_view, h_clock.step h_inv h_view, h_going.step h_inv h_view⟩

omit [DecidableEq K] in
theorem shape_get {e : ℕ} {entry : Entry K V} (h_get : s.objects.get? e = some entry) :
    s.view.shape e = some (entry.key, entry.subscribers) :=
  shapeOf_get h_get

/-- A widget that has shown its first answer. -/
def openDashboard : List (PollLabel String ℕ) :=
  [.mount 0 "docker/list" 10000, .answer 1 (.ok (some 7))]

/-- **Timers.** In every reachable state a key has at most one pending timer, and an object that
has one is listened to, in a tab that is not hidden. -/
theorem poll_timers (h_run : (pollMachine K V).Run tr s) :
    (∀ t t' p p' entry entry', s.polls.get? t = some p → s.polls.get? t' = some p' →
      s.objects.get? p.1 = some entry → s.objects.get? p'.1 = some entry' →
        entry.key = entry'.key → t = t') ∧
    ∀ t p, s.polls.get? t = some p →
      s.hidden = false ∧ ∃ entry, s.objects.get? p.1 = some entry ∧ entry.subscribers ≠ [] := by
  obtain ⟨h_inv, h_clock, -⟩ := polls_inv h_run
  have h_heard : ∀ t p, s.polls.get? t = some p →
      s.hidden = false ∧ ∃ entry, s.objects.get? p.1 = some entry ∧ entry.subscribers ≠ [] := by
    intro t p h_t
    obtain ⟨h_seen, k, cs, h_shape, h_cs⟩ := h_clock t p h_t
    obtain ⟨entry, h_get, h_entry⟩ := Option.map_eq_some_iff.mp h_shape
    obtain ⟨-, rfl⟩ := Prod.mk.inj h_entry
    exact ⟨h_seen, entry, h_get, h_cs⟩
  -- an object with a timer is the one in the cache, and a key has one entry there
  have h_listed : ∀ t p entry, s.polls.get? t = some p → s.objects.get? p.1 = some entry →
      s.entries.get? entry.key = some p.1 := by
    intro t p entry h_t h_get
    obtain ⟨-, entry', h_get', h_subs⟩ := h_heard t p h_t
    obtain rfl := Option.some.inj (h_get'.symm.trans h_get)
    exact h_inv.heard p.1 _ _ (shape_get h_get) h_subs
  refine ⟨fun t t' p p' entry entry' h_t h_t' h_get h_get' h_key => ?_, h_heard⟩
  have h_p := h_listed t p entry h_t h_get
  rw [h_key, h_listed t' p' entry' h_t' h_get'] at h_p
  exact h_inv.polls.unique h_t h_t' (Option.some.inj h_p).symm

theorem poll_timers_open : ∃ tr s, (pollMachine String ℕ).Run tr s ∧
    s.polls.get? 2 = some (0, 10000) ∧ s.hidden = false ∧
      ∃ entry, s.objects.get? 0 = some entry ∧ entry.subscribers ≠ [] := by
  have h_exec : ((pollMachine String ℕ).exec (pollMachine String ℕ).init openDashboard).map
      (fun q => q.2.polls.get? 2) = some (some (0, 10000)) := by decide +kernel
  obtain ⟨⟨tr, s⟩, h_exec, h_timer⟩ := Option.map_eq_some_iff.mp h_exec
  have h_run := Machine.run_of_exec openDashboard h_exec
  exact ⟨tr, s, h_run, h_timer, (poll_timers h_run).2 2 (0, 10000) h_timer⟩

/-- **Polling never stalls.** In every reachable state where the tab is shown, an object that
someone listens to has a request under way or a pending timer. -/
theorem keeps_polling (h_run : (pollMachine K V).Run tr s) (h_seen : s.hidden = false) {e : ℕ}
    {entry : Entry K V} (h_get : s.objects.get? e = some entry) (h_subs : entry.subscribers ≠ []) :
    (∃ r, s.requests.get? r = some e) ∨ ∃ t delay, s.polls.get? t = some (e, delay) :=
  (polls_inv h_run).2.2 h_seen e _ _ (shape_get h_get) h_subs

theorem keeps_polling_open : ∃ tr s, (pollMachine String ℕ).Run tr s ∧
    ((∃ r, s.requests.get? r = some 0) ∨ ∃ t delay, s.polls.get? t = some (0, delay)) := by
  have h_exec : ((pollMachine String ℕ).exec (pollMachine String ℕ).init openDashboard).map
      (fun q => (q.2.hidden, (q.2.objects.get? 0).map Entry.subscribers)) =
        some (false, some [0]) := by decide +kernel
  obtain ⟨⟨tr, s⟩, h_exec, h_read⟩ := Option.map_eq_some_iff.mp h_exec
  obtain ⟨h_seen, h_subs⟩ := Prod.mk.inj h_read
  obtain ⟨entry, h_get, h_entry⟩ := Option.map_eq_some_iff.mp h_subs
  have h_run := Machine.run_of_exec openDashboard h_exec
  exact ⟨tr, s, h_run, keeps_polling h_run h_seen h_get (by simp [h_entry])⟩

/-- **Hidden tabs.** What makes a request in a hidden tab is a widget that refreshes or mounts,
or the tab that is shown again. -/
theorem hidden_asks (h_run : (pollMachine K V).Run tr s) (h_hidden : s.hidden = true)
    {l : PollLabel K V} {o : Polls.Out V} (h_step : (pollMachine K V).step s l = some (s', o))
    (h_asked : o.asked ≠ []) :
    (∃ e, l = .refresh e) ∨ (∃ c k i, l = .mount c k i) ∨ l = .visibility false := by
  obtain ⟨h_inv, h_clock, -⟩ := polls_inv h_run
  exact View.asked_hidden h_clock h_inv h_hidden (step_view h_inv.refers h_step) h_asked

theorem hidden_asks_refresh : ∃ tr s s' o, (pollMachine String ℕ).Run tr s ∧
    s.hidden = true ∧ (pollMachine String ℕ).step s (.refresh 0) = some (s', o) ∧ o.asked = [0] ∧
      ((∃ e, (.refresh 0 : PollLabel String ℕ) = .refresh e) ∨
        (∃ c k i, (.refresh 0 : PollLabel String ℕ) = .mount c k i) ∨
          (.refresh 0 : PollLabel String ℕ) = .visibility false) := by
  have h_exec : (((pollMachine String ℕ).exec (pollMachine String ℕ).init
      (openDashboard ++ [.visibility true])).bind fun q =>
        ((pollMachine String ℕ).step q.2 (.refresh 0)).map fun r => (q.2.hidden, r.2.asked)) =
          some (true, [0]) := by decide +kernel
  obtain ⟨⟨tr, s⟩, h_exec, h_last⟩ := Option.bind_eq_some_iff.mp h_exec
  obtain ⟨⟨s', o⟩, h_step, h_read⟩ := Option.map_eq_some_iff.mp h_last
  obtain ⟨h_hidden, h_asked⟩ := Prod.mk.inj h_read
  have h_run := Machine.run_of_exec _ h_exec
  have h_some : o.asked ≠ [] := fun h_none => List.cons_ne_nil 0 [] (h_asked.symm.trans h_none)
  exact ⟨tr, s, s', o, h_run, h_hidden, h_step, h_asked,
    hidden_asks h_run h_hidden h_step h_some⟩

/-- Nobody refreshes an object that was dropped, and none is dropped while it has a request. -/
def calm (s : Polls K V) : PollLabel K V → Bool
  | .refresh e => (s.objects.get? e).all fun entry => s.entries.get? entry.key = some e
  | .evictFires t =>
    ((s.evictions.get? t).bind s.objects.get?).all fun entry => entry.inFlight.isNone
  | _ => true

theorem calm_view {l : PollLabel K V} (h : calm s l = true) : s.view.Calm l := by
  cases l with
  | refresh e =>
    intro k cs h_shape
    obtain ⟨entry, h_get, h_entry⟩ := Option.map_eq_some_iff.mp h_shape
    obtain ⟨rfl, -⟩ := Prod.mk.inj h_entry
    show s.entries.get? entry.key = some e
    simpa [calm, h_get] using h
  | evictFires t =>
    intro e h_t
    have h_e : s.evictions.get? t = some e := h_t
    show (s.objects.get? e).bind Entry.inFlight = none
    cases h_get : s.objects.get? e with
    | none => rfl
    | some entry => simpa [calm, h_e, h_get] using h
  | _ => trivial

/-- **One request for each key.** In a run where nobody refreshes an object that was dropped, and
no object is dropped while it has a request, every key has at most one request under way. -/
theorem one_request (h_run : (pollMachine K V).RunWhen (fun s l => calm s l = true) tr s)
    {r r' e e' : ℕ} {entry entry' : Entry K V} (h_r : s.requests.get? r = some e)
    (h_r' : s.requests.get? r' = some e') (h_get : s.objects.get? e = some entry)
    (h_get' : s.objects.get? e' = some entry') (h_key : entry.key = entry'.key) : r = r' := by
  have h_local : s.view.Local := by
    refine Machine.RunWhen.history (P := fun _ s => s.view.Local) ?_ ?_ h_run
    · simp [View.Local, pollMachine, Polls.view]
    · intro tr s l s' o h_run h_local h_calm h_step
      obtain ⟨h_inv, h_clock, -⟩ := polls_inv h_run.run
      exact h_local.step h_inv h_clock (calm_view h_calm) (step_view h_inv.refers h_step)
  -- both objects are the entry of their key, so they are the same object
  obtain ⟨k, cs, h_e, h_k⟩ := h_local r e h_r
  obtain ⟨k', cs', h_e', h_k'⟩ := h_local r' e' h_r'
  obtain ⟨rfl, -⟩ := Prod.mk.inj (Option.some.inj ((shape_get h_get).symm.trans h_e))
  obtain ⟨rfl, -⟩ := Prod.mk.inj (Option.some.inj ((shape_get h_get').symm.trans h_e'))
  rw [h_key, h_k'] at h_k
  exact (polls_inv h_run.run).1.requests.unique h_r h_r' (Option.some.inj h_k).symm

theorem one_request_open : ∃ tr s,
    (pollMachine String ℕ).RunWhen (fun s l => calm s l = true) tr s ∧
      s.requests.get? 1 = some 0 ∧ ∀ r, s.requests.get? r = some 0 → r = 1 := by
  have h_exec : ((pollMachine String ℕ).exec (pollMachine String ℕ).init
      [.mount 0 "docker/list" 10000]).map (fun q => (q.2.requests.get? 1, q.2.objects.has 0)) =
        some (some 0, true) := by decide +kernel
  obtain ⟨⟨tr, s⟩, h_exec, h_read⟩ := Option.map_eq_some_iff.mp h_exec
  obtain ⟨h_request, h_has⟩ := Prod.mk.inj h_read
  obtain ⟨entry, h_get⟩ := Table.has_iff.mp h_has
  have h_run : (pollMachine String ℕ).RunWhen (fun s l => calm s l = true) tr s :=
    Machine.runWhen_of_exec _ h_exec (by decide +kernel)
  exact ⟨tr, s, h_run, h_request, fun r h_r => one_request h_run h_r h_request h_get h_get rfl⟩

end ServerCentral.Web.HostPoll
