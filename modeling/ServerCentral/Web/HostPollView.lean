import ServerCentral.Web.HostPoll

/-!
# The polling cache without its data

What the cache asks for and when does not depend on the data that it shows. `View` leaves the data
out: it has the slots of the objects, their keys and who listens to them. Every step of the cache
is a step of the view (`step_view`), and what holds of all runs of the view holds of the cache.
-/

open Framework

namespace ServerCentral.Web.HostPoll

/-- The cache without its data. -/
structure View (K : Type*) where
  timer : ℕ → Option ℕ
  evictTimer : ℕ → Option ℕ
  inFlight : ℕ → Option ℕ
  /-- The key of an object, and who listens to it. -/
  shape : ℕ → Option (K × List ℕ)
  entries : Table K ℕ
  polls : Table ℕ (ℕ × ℕ)
  evictions : Table ℕ ℕ
  requests : Table ℕ ℕ
  mounted : Table ℕ ℕ
  hidden : Bool
  next : ℕ

variable {K V : Type*}

def slotOf (objects : Table ℕ (Entry K V)) (f : Entry K V → Option ℕ) (e : ℕ) : Option ℕ :=
  (objects.get? e).bind f

def Entry.shape (entry : Entry K V) : K × List ℕ := (entry.key, entry.subscribers)

def shapeOf (objects : Table ℕ (Entry K V)) (e : ℕ) : Option (K × List ℕ) :=
  (objects.get? e).map Entry.shape

def Polls.view (s : Polls K V) : View K where
  timer := slotOf s.objects Entry.timer
  evictTimer := slotOf s.objects Entry.evictTimer
  inFlight := slotOf s.objects Entry.inFlight
  shape := shapeOf s.objects
  entries := s.entries
  polls := s.polls
  evictions := s.evictions
  requests := s.requests
  mounted := s.mounted
  hidden := s.hidden
  next := s.next

/-! ### What the functions do to the view -/

namespace View

open Function (update)

def subscribersOf (v : View K) (e : ℕ) : List ℕ := (v.shape e).elim [] Prod.snd

def stopPoll (v : View K) (e : ℕ) : View K :=
  { v with timer := update v.timer e none, polls := v.polls.cancel (v.timer e) }

def startPoll (v : View K) (e delay : ℕ) : View K :=
  { v with
    timer := update v.timer e (some v.next)
    polls := v.polls.set v.next (e, delay)
    next := v.next + 1 }

def schedule (v : View K) (e delay : ℕ) : View K :=
  if v.subscribersOf e = [] ∨ v.hidden = true then v.stopPoll e
  else (v.stopPoll e).startPoll e delay

def fetchNow (v : View K) (e : ℕ) : View K × List ℕ :=
  if (v.inFlight e).isSome then (v, [])
  else
    ({ v with
        inFlight := update v.inFlight e (some v.next)
        requests := v.requests.set v.next e
        next := v.next + 1 },
      [e])

def touch (v : View K) (e : ℕ) : View K :=
  { v with
    evictTimer := update v.evictTimer e none
    evictions := v.evictions.cancel (v.evictTimer e) }

def reshape (v : View K) (e : ℕ) (p : K × List ℕ) : View K :=
  { v with shape := update v.shape e (some p) }

def startEviction (v : View K) (e : ℕ) : View K :=
  { v with
    evictTimer := update v.evictTimer e (some v.next)
    evictions := v.evictions.set v.next e
    next := v.next + 1 }

/-- A request has ended. -/
def land (v : View K) (r e : ℕ) : View K :=
  { v with inFlight := update v.inFlight e none, requests := v.requests.erase r }

def onVisibility (v : View K) (e : ℕ) : View K × List ℕ :=
  if v.subscribersOf e = [] then (v, [])
  else if v.hidden then (v.stopPoll e, [])
  else v.fetchNow e

def onVisibilityAll (v : View K) : List ℕ → View K × List ℕ
  | [] => (v, [])
  | e :: es =>
    let (v, asked) := v.onVisibility e
    let (v, more) := v.onVisibilityAll es
    (v, asked ++ more)

variable [DecidableEq K]

def create (v : View K) (k : K) : View K :=
  { v.reshape v.next (k, []) with
    timer := update v.timer v.next none
    evictTimer := update v.evictTimer v.next none
    inFlight := update v.inFlight v.next none
    entries := v.entries.set k v.next
    next := v.next + 1 }

/-- `getEntry` has come to an object. -/
inductive Got (v : View K) (k : K) : ℕ → View K → Prop
  | found {e cs} (h_entry : v.entries.get? k = some e) (h_shape : v.shape e = some (k, cs)) :
    Got v k e (v.touch e)
  | created (h_entry : v.entries.get? k = none) : Got v k v.next ((v.create k).touch v.next)

/-- **The steps of the view**, with the objects that make a request. -/
inductive Step (v : View K) : PollLabel K V → View K → List ℕ → Prop
  | render {k i e v'} (h_got : v.Got k e v') : Step v (.render k i) v' []
  /-- A widget mounts, and there is nothing to show yet, -/
  | opened {c k i e v' cs v'' asked} (h_free : v.mounted.has c = false) (h_got : v.Got k e v')
    (h_shape : v'.shape e = some (k, cs))
    (h_fetch : { v'.reshape e (k, c :: cs) with mounted := v'.mounted.set c e }.fetchNow e =
      (v'', asked)) :
    Step v (.mount c k i) v'' asked
  /-- or there is. -/
  | shown {c k i e v' cs delay} (h_free : v.mounted.has c = false) (h_got : v.Got k e v')
    (h_shape : v'.shape e = some (k, cs)) :
    Step v (.mount c k i)
      ({ v'.reshape e (k, c :: cs) with mounted := v'.mounted.set c e }.schedule e delay) []
  | stayed {c e k cs} (h_mounted : v.mounted.get? c = some e) (h_shape : v.shape e = some (k, cs))
    (h_others : cs.erase c ≠ []) :
    Step v (.unmount c) { v.reshape e (k, cs.erase c) with mounted := v.mounted.erase c } []
  | left {c e k cs} (h_mounted : v.mounted.get? c = some e) (h_shape : v.shape e = some (k, cs))
    (h_last : cs.erase c = []) :
    Step v (.unmount c)
      (({ v.reshape e (k, []) with mounted := v.mounted.erase c }.stopPoll e).startEviction e) []
  | refresh {e p v' asked} (h_shape : v.shape e = some p) (h_fetch : v.fetchNow e = (v', asked)) :
    Step v (.refresh e) v' asked
  | answer {r e p result delay} (h_request : v.requests.get? r = some e)
    (h_shape : v.shape e = some p) :
    Step v (.answer r result) ((v.land r e).schedule e delay) []
  | pollFires {t p q v' asked} (h_poll : v.polls.get? t = some p) (h_shape : v.shape p.1 = some q)
    (h_fetch : { v with polls := v.polls.erase t }.fetchNow p.1 = (v', asked)) :
    Step v (.pollFires t) v' asked
  | evictFires {t e k cs} (h_eviction : v.evictions.get? t = some e)
    (h_shape : v.shape e = some (k, cs)) :
    Step v (.evictFires t)
      { v with
        evictions := v.evictions.erase t
        entries := if cs = [] then v.entries.erase k else v.entries } []
  | visibility {hidden v' asked}
    (h_loop : { v with hidden }.onVisibilityAll v.entries.values = (v', asked)) :
    Step v (.visibility hidden) v' asked

end View

/-! ### The cache takes the steps of the view -/

section Simulation

variable {objects : Table ℕ (Entry K V)} {s : Polls K V} {e : ℕ} {entry : Entry K V}

theorem slotOf_set (objects : Table ℕ (Entry K V)) (e : ℕ) (entry : Entry K V)
    (f : Entry K V → Option ℕ) :
    slotOf (objects.set e entry) f = Function.update (slotOf objects f) e (f entry) := by
  funext i
  rw [slotOf, Table.get?_set]
  by_cases h_i : i = e
  · subst h_i
    simp
  · simp [h_i, slotOf]

theorem shapeOf_set (objects : Table ℕ (Entry K V)) (e : ℕ) (entry : Entry K V) :
    shapeOf (objects.set e entry) = Function.update (shapeOf objects) e (some entry.shape) := by
  funext i
  rw [shapeOf, Table.get?_set]
  by_cases h_i : i = e
  · subst h_i
    simp
  · simp [h_i, shapeOf]

theorem slotOf_get (h : objects.get? e = some entry) (f : Entry K V → Option ℕ) :
    slotOf objects f e = f entry := by
  rw [slotOf, h, Option.bind_some]

theorem shapeOf_get (h : objects.get? e = some entry) : shapeOf objects e = some entry.shape := by
  rw [shapeOf, h, Option.map_some]

theorem subscribersOf_view (s : Polls K V) (e : ℕ) :
    s.view.subscribersOf e = s.subscribersOf e := by
  rw [View.subscribersOf, Polls.subscribersOf, Polls.view]
  cases h_get : s.objects.get? e <;> simp [shapeOf, h_get, Entry.shape]

theorem stopPoll_view (h : s.objects.get? e = some entry) :
    (s.stopPoll e).view = s.view.stopPoll e := by
  simp [Polls.stopPoll, Polls.view, View.stopPoll, h, slotOf_set, shapeOf_set, slotOf_get h,
    shapeOf_get h, Entry.shape]

theorem startPoll_view (h : s.objects.get? e = some entry) :
    (s.startPoll e).view = s.view.startPoll e (delayFor entry) := by
  simp [Polls.startPoll, Polls.view, View.startPoll, h, slotOf_set, shapeOf_set, slotOf_get h,
    shapeOf_get h, Entry.shape]

theorem touch_view (h : s.objects.get? e = some entry) (intervalMs : ℕ) :
    (s.touch e intervalMs).view = s.view.touch e := by
  simp [Polls.touch, Polls.view, View.touch, h, slotOf_set, shapeOf_set, slotOf_get h,
    shapeOf_get h, Entry.shape]

theorem startEviction_view (h : s.objects.get? e = some entry) :
    (s.startEviction e).view = s.view.startEviction e := by
  simp [Polls.startEviction, Polls.view, View.startEviction, h, slotOf_set, shapeOf_set,
    slotOf_get h, shapeOf_get h, Entry.shape]

theorem land_view (h : s.objects.get? e = some entry) (r : ℕ) (result : Answer V) :
    (s.land r e result).view = s.view.land r e := by
  have h_timer : (entry.land result).timer = entry.timer := by cases result <;> rfl
  have h_evict : (entry.land result).evictTimer = entry.evictTimer := by cases result <;> rfl
  have h_flight : (entry.land result).inFlight = none := by cases result <;> rfl
  have h_shape : (entry.land result).shape = entry.shape := by cases result <;> rfl
  simp [Polls.land, Polls.view, View.land, h, slotOf_set, shapeOf_set, slotOf_get h,
    shapeOf_get h, h_timer, h_evict, h_flight, h_shape]

theorem get?_stopPoll (h : s.objects.get? e = some entry) :
    (s.stopPoll e).objects.get? e = some { entry with timer := none } := by
  rw [Polls.stopPoll, h]
  exact Table.get?_set_self ..

theorem get?_touch (h : s.objects.get? e = some entry) (intervalMs : ℕ) :
    (s.touch e intervalMs).objects.get? e = some
      { entry with evictTimer := none, intervalMs := min entry.intervalMs intervalMs } := by
  rw [Polls.touch, h]
  exact Table.get?_set_self ..

theorem schedule_view (h : s.objects.get? e = some entry) :
    (s.schedule e).view = s.view.schedule e (delayFor entry) := by
  have h_hidden : s.view.hidden = s.hidden := rfl
  rw [Polls.schedule, View.schedule, subscribersOf_view, h_hidden]
  split
  · exact stopPoll_view h
  · rw [startPoll_view (get?_stopPoll h), stopPoll_view h]
    rfl

theorem fetchNow_view (h : s.objects.get? e = some entry) :
    (s.fetchNow e).1.view = (s.view.fetchNow e).1 ∧ (s.fetchNow e).2 = (s.view.fetchNow e).2 := by
  have h_flight : s.view.inFlight e = entry.inFlight := slotOf_get h _
  rw [Polls.fetchNow, h, View.fetchNow, h_flight]
  by_cases h_some : entry.inFlight.isSome = true
  · simp [h_some]
  · simp [h_some, Polls.view, slotOf_set, shapeOf_set, slotOf_get h, shapeOf_get h, Entry.shape]

theorem onVisibility_view (s : Polls K V) (e : ℕ) :
    (s.onVisibility e).1.view = (s.view.onVisibility e).1 ∧
      (s.onVisibility e).2 = (s.view.onVisibility e).2 := by
  have h_hidden : s.view.hidden = s.hidden := rfl
  rw [Polls.onVisibility, View.onVisibility, subscribersOf_view, h_hidden]
  cases h_get : s.objects.get? e with
  | none => simp [Polls.subscribersOf, h_get]
  | some entry =>
    by_cases h_subs : s.subscribersOf e = []
    · simp [h_subs]
    by_cases h_dark : s.hidden = true
    · simp [h_subs, h_dark, stopPoll_view h_get]
    · simp [h_subs, h_dark, fetchNow_view h_get]

theorem onVisibilityAll_view (s : Polls K V) (es : List ℕ) :
    (s.onVisibilityAll es).1.view = (s.view.onVisibilityAll es).1 ∧
      (s.onVisibilityAll es).2 = (s.view.onVisibilityAll es).2 := by
  induction es generalizing s with
  | nil => exact ⟨rfl, rfl⟩
  | cons e es ih =>
    obtain ⟨h_view, h_asked⟩ := onVisibility_view s e
    obtain ⟨h_views, h_more⟩ := ih (s.onVisibility e).1
    rw [Polls.onVisibilityAll, View.onVisibilityAll]
    rw [h_view] at h_views h_more
    exact ⟨h_views, congrArg₂ (· ++ ·) h_asked h_more⟩

theorem listen_view (h : s.objects.get? e = some entry) (c : ℕ) :
    (s.listen c e).view =
      { s.view.reshape e (entry.key, c :: entry.subscribers) with
        mounted := s.mounted.set c e } := by
  simp [Polls.listen, Polls.view, View.reshape, h, slotOf_set, shapeOf_set, slotOf_get h,
    Entry.shape]

theorem get?_listen (h : s.objects.get? e = some entry) (c : ℕ) :
    (s.listen c e).objects.get? e =
      some { entry with subscribers := c :: entry.subscribers } := by
  rw [Polls.listen, h]
  exact Table.get?_set_self ..

theorem leave_view (h : s.objects.get? e = some entry) (c : ℕ) :
    (s.leave c e).view =
      { s.view.reshape e (entry.key, entry.subscribers.erase c) with
        mounted := s.mounted.erase c } := by
  simp [Polls.leave, Polls.view, View.reshape, h, slotOf_set, shapeOf_set, slotOf_get h,
    Entry.shape]

theorem get?_leave (h : s.objects.get? e = some entry) (c : ℕ) :
    (s.leave c e).objects.get? e =
      some { entry with subscribers := entry.subscribers.erase c } := by
  rw [Polls.leave, h]
  exact Table.get?_set_self ..

theorem get?_land (h : s.objects.get? e = some entry) (r : ℕ) (result : Answer V) :
    (s.land r e result).objects.get? e = some (entry.land result) := by
  rw [Polls.land, h]
  exact Table.get?_set_self ..

variable [DecidableEq K]

theorem create_view (s : Polls K V) (key : K) (intervalMs : ℕ) :
    (s.create key intervalMs).view = s.view.create key := by
  simp [Polls.create, Polls.view, View.create, View.reshape, slotOf_set, shapeOf_set, Entry.shape]

/-- `getEntry` comes to an object that there is. -/
theorem getEntry_view {key : K} (intervalMs : ℕ)
    (h_entries : ∀ e, s.entries.get? key = some e → ∃ cs, s.view.shape e = some (key, cs)) :
    s.view.Got key (s.getEntry key intervalMs).2 (s.getEntry key intervalMs).1.view ∧
    ∃ entry, (s.getEntry key intervalMs).1.objects.get? (s.getEntry key intervalMs).2 =
      some entry ∧ entry.key = key := by
  rw [Polls.getEntry]
  cases h_key : s.entries.get? key with
  | some e =>
    obtain ⟨cs, h_shape⟩ := h_entries e h_key
    obtain ⟨entry, h_get, h_entry⟩ := Option.map_eq_some_iff.mp h_shape
    show s.view.Got key e (s.touch e intervalMs).view ∧
      ∃ entry, (s.touch e intervalMs).objects.get? e = some entry ∧ entry.key = key
    rw [touch_view h_get]
    exact ⟨.found h_key h_shape, _, get?_touch h_get intervalMs, (Prod.mk.inj h_entry).1⟩
  | none =>
    have h_get : (s.create key intervalMs).objects.get? s.next = some { key, intervalMs } :=
      Table.get?_set_self ..
    show s.view.Got key s.next ((s.create key intervalMs).touch s.next intervalMs).view ∧
      ∃ entry, ((s.create key intervalMs).touch s.next intervalMs).objects.get? s.next =
        some entry ∧ entry.key = key
    rw [touch_view h_get, create_view]
    exact ⟨.created h_key, _, get?_touch h_get intervalMs, rfl⟩

theorem evict_view (h : s.objects.get? e = some entry) :
    (s.evict e).view =
      { s.view with
        entries := if entry.subscribers = [] then s.entries.erase entry.key else s.entries } := by
  rw [Polls.evict, h]
  by_cases h_subs : entry.subscribers = []
  · simp [h_subs, Polls.view]
  · simp [h_subs, Polls.view]

/-- What is pending, mounted or in the cache is about objects that there are. -/
structure View.Refers (v : View K) : Prop where
  entries : ∀ k e, v.entries.get? k = some e → ∃ cs, v.shape e = some (k, cs)
  mounted : ∀ c e, v.mounted.get? c = some e → ∃ p, v.shape e = some p
  polls : ∀ t p, v.polls.get? t = some p → ∃ q, v.shape p.1 = some q
  evictions : ∀ t e, v.evictions.get? t = some e → ∃ p, v.shape e = some p
  requests : ∀ r e, v.requests.get? r = some e → ∃ p, v.shape e = some p

/-- **Every step of the cache is a step of the view.** -/
theorem step_view {l : PollLabel K V} {r : Polls K V × Polls.Out V} (h : s.view.Refers)
    (h_step : Polls.step s l = some r) : s.view.Step l r.1.view r.2.asked := by
  cases l with
  | render key intervalMs =>
    obtain rfl := Option.some.inj h_step
    exact .render (getEntry_view intervalMs (h.entries key)).1
  | mount c key intervalMs =>
    simp only [Polls.step] at h_step
    split at h_step
    · simp at h_step
    next h_has =>
    have h_free : s.view.mounted.has c = false := Bool.eq_false_iff.mpr h_has
    obtain ⟨h_got, entry, h_get, h_key⟩ := getEntry_view intervalMs (h.entries key)
    have h_shape := shapeOf_get h_get
    rw [Entry.shape, h_key] at h_shape
    have h_heard := get?_listen h_get c
    have h_listen := listen_view h_get c
    rw [h_key] at h_listen
    obtain rfl := Option.some.inj h_step
    simp only [Polls.mount, h_heard]
    split
    · obtain ⟨h_view, h_asked⟩ := fetchNow_view h_heard
      rw [h_view, h_asked, h_listen]
      exact .opened h_free h_got h_shape rfl
    · rw [schedule_view h_heard, h_listen]
      exact .shown h_free h_got h_shape
  | unmount c =>
    simp only [Polls.step, Option.map_eq_some_iff] at h_step
    obtain ⟨e, h_mounted, rfl⟩ := h_step
    obtain ⟨p, h_p⟩ := h.mounted c e h_mounted
    obtain ⟨entry, h_get, h_entry⟩ := Option.map_eq_some_iff.mp h_p
    have h_shape := shapeOf_get h_get
    have h_left := get?_leave h_get c
    have h_subs : (s.leave c e).subscribersOf e = entry.subscribers.erase c := by
      rw [Polls.subscribersOf, h_left, Option.elim_some]
    show s.view.Step _ (s.unmount c e).view []
    rw [Polls.unmount, h_subs]
    by_cases h_last : entry.subscribers.erase c = []
    · simp only [h_last, if_true]
      rw [startEviction_view (get?_stopPoll h_left), stopPoll_view h_left, leave_view h_get, h_last]
      exact .left h_mounted h_shape h_last
    · simp only [h_last, if_false]
      rw [leave_view h_get]
      exact .stayed h_mounted h_shape h_last
  | refresh e =>
    simp only [Polls.step] at h_step
    split at h_step
    · next h_has =>
      obtain ⟨entry, h_get⟩ := Table.has_iff.mp h_has
      obtain ⟨h_view, h_asked⟩ := fetchNow_view h_get
      obtain rfl := Option.some.inj h_step
      exact .refresh (shapeOf_get h_get) (Prod.ext h_view.symm h_asked.symm)
    · simp at h_step
  | answer i result =>
    simp only [Polls.step, Option.map_eq_some_iff] at h_step
    obtain ⟨e, h_request, rfl⟩ := h_step
    obtain ⟨p, h_p⟩ := h.requests i e h_request
    obtain ⟨entry, h_get, h_entry⟩ := Option.map_eq_some_iff.mp h_p
    show s.view.Step _ ((s.land i e result).schedule e).view []
    rw [schedule_view (get?_land h_get i result), land_view h_get]
    exact .answer h_request h_p
  | pollFires t =>
    simp only [Polls.step, Option.map_eq_some_iff] at h_step
    obtain ⟨p, h_poll, rfl⟩ := h_step
    obtain ⟨q, h_q⟩ := h.polls t p h_poll
    obtain ⟨entry, h_get, h_entry⟩ := Option.map_eq_some_iff.mp h_q
    obtain ⟨h_view, h_asked⟩ :=
      fetchNow_view (s := { s with polls := s.polls.erase t }) h_get
    exact .pollFires h_poll h_q (Prod.ext h_view.symm h_asked.symm)
  | evictFires t =>
    simp only [Polls.step, Option.map_eq_some_iff] at h_step
    obtain ⟨e, h_eviction, rfl⟩ := h_step
    obtain ⟨p, h_p⟩ := h.evictions t e h_eviction
    obtain ⟨entry, h_get, h_entry⟩ := Option.map_eq_some_iff.mp h_p
    show s.view.Step _ ({ s with evictions := s.evictions.erase t }.evict e).view []
    rw [evict_view (s := { s with evictions := s.evictions.erase t }) h_get]
    exact .evictFires h_eviction (shapeOf_get h_get)
  | visibility hidden =>
    obtain rfl := Option.some.inj h_step
    obtain ⟨h_view, h_asked⟩ := onVisibilityAll_view { s with hidden } s.entries.values
    exact .visibility (Prod.ext h_view.symm h_asked.symm)

end Simulation
end ServerCentral.Web.HostPoll
