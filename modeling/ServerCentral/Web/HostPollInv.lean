import ServerCentral.Web.HostPollView

/-!
# The invariant of the polling cache

`View.Inv` ties the handles in the slots to what is pending, and the listeners to the cache: an
object that someone listens to is in the cache, and one that waits for its eviction is too. Every
function keeps it, and so every step (`Inv.step`).
-/

open Framework

namespace ServerCentral.Web.HostPoll

variable {K V : Type*} [DecidableEq K]

/-! ### The invariant -/

structure View.Inv (v : View K) : Prop where
  polls : Kept v.polls Prod.fst v.timer v.next
  evictions : Kept v.evictions id v.evictTimer v.next
  requests : Kept v.requests id v.inFlight v.next
  /-- A request that an object holds is under way. -/
  flying : ∀ e r, v.inFlight e = some r → v.requests.get? r = some e
  numbered : ∀ e p, v.shape e = some p → e < v.next
  /-- Only what exists has something in a slot. -/
  timed : ∀ e t, v.timer e = some t → ∃ p, v.shape e = some p
  asking : ∀ e r, v.inFlight e = some r → ∃ p, v.shape e = some p
  waiting : ∀ e t, v.evictTimer e = some t → ∃ p, v.shape e = some p
  entries : ∀ k e, v.entries.get? k = some e → ∃ cs, v.shape e = some (k, cs)
  /-- An object that someone listens to is in the cache. -/
  heard : ∀ e k cs, v.shape e = some (k, cs) → cs ≠ [] → v.entries.get? k = some e
  mounted : ∀ c e, v.mounted.get? c = some e ↔ ∃ k cs, v.shape e = some (k, cs) ∧ c ∈ cs
  distinct : ∀ e k cs, v.shape e = some (k, cs) → cs.Nodup
  /-- What waits for its eviction is in the cache, and nobody listens to it. -/
  evicting : ∀ t e, v.evictions.get? t = some e →
    ∃ k, v.shape e = some (k, []) ∧ v.entries.get? k = some e

namespace View

variable {v v' : View K} {e : ℕ} {k : K} {cs : List ℕ} {p : K × List ℕ}

omit [DecidableEq K] in
theorem subscribersOf_eq (h : v.shape e = some (k, cs)) : v.subscribersOf e = cs := by
  rw [subscribersOf, h, Option.elim_some]

theorem Inv.refers (h : v.Inv) : v.Refers where
  entries := h.entries
  mounted c e h_c := by
    obtain ⟨k, cs, h_shape, -⟩ := (h.mounted c e).mp h_c
    exact ⟨(k, cs), h_shape⟩
  polls t p h_t := h.timed p.1 t (h.polls.held t p h_t)
  evictions t e h_t := by
    obtain ⟨k, h_shape, -⟩ := h.evicting t e h_t
    exact ⟨(k, []), h_shape⟩
  requests r e h_r := h.asking e r (h.requests.held r e h_r)

/-! ### What the functions keep -/

theorem Inv.stopPoll (h : v.Inv) (e : ℕ) : (v.stopPoll e).Inv :=
  { h with
    polls := h.polls.cancel e
    timed := fun i t h_t => by
      obtain ⟨-, h_none⟩ | ⟨-, h_old⟩ := update_eq_some h_t
      · simp at h_none
      · exact h.timed i t h_old }

theorem get?_stopPoll_polls (h : v.Inv) {t : ℕ} {q : ℕ × ℕ} :
    (v.stopPoll e).polls.get? t = some q ↔ v.polls.get? t = some q ∧ q.1 ≠ e :=
  h.polls.get?_cancel

theorem Inv.startPoll (h : v.Inv) (h_e : v.shape e = some p) (delay : ℕ)
    (h_free : ∀ t q, v.polls.get? t = some q → q.1 ≠ e) : (v.startPoll e delay).Inv :=
  { h with
    polls := h.polls.start (p := (e, delay)) h_free
    evictions := h.evictions.mono (Nat.le_succ _)
    requests := h.requests.mono (Nat.le_succ _)
    numbered := fun i q h_i => Nat.lt_succ_of_lt (h.numbered i q h_i)
    timed := fun i t h_t => by
      obtain ⟨rfl, -⟩ | ⟨-, h_old⟩ := update_eq_some h_t
      · exact ⟨p, h_e⟩
      · exact h.timed i t h_old }

theorem Inv.schedule (h : v.Inv) (h_e : v.shape e = some p) (delay : ℕ) :
    (v.schedule e delay).Inv := by
  rw [View.schedule]
  split
  · exact h.stopPoll e
  · refine (h.stopPoll e).startPoll h_e delay fun t q h_t => ?_
    exact ((get?_stopPoll_polls h).mp h_t).2

theorem Inv.fetchNow (h : v.Inv) (h_e : v.shape e = some p) : (v.fetchNow e).1.Inv := by
  rw [View.fetchNow]
  split
  · exact h
  · next h_none =>
    -- a request under way would be in the slot
    have h_free : ∀ r i, v.requests.get? r = some i → i ≠ e := by
      rintro r i h_r rfl
      exact h_none (Option.isSome_iff_exists.mpr ⟨r, h.requests.held r i h_r⟩)
    exact
      { h with
        polls := h.polls.mono (Nat.le_succ _)
        evictions := h.evictions.mono (Nat.le_succ _)
        requests := h.requests.start (p := e) h_free
        flying := fun i r h_r => by
          obtain ⟨rfl, h_new⟩ | ⟨-, h_old⟩ := update_eq_some h_r
          · obtain rfl := Option.some.inj h_new
            exact Table.get?_set_self ..
          · exact (Table.get?_set_of_ne _ _ (Nat.ne_of_lt (h.requests.below i r h_old))).trans
              (h.flying i r h_old)
        numbered := fun i q h_i => Nat.lt_succ_of_lt (h.numbered i q h_i)
        asking := fun i r h_r => by
          obtain ⟨rfl, -⟩ | ⟨-, h_old⟩ := update_eq_some h_r
          · exact ⟨p, h_e⟩
          · exact h.asking i r h_old }

theorem Inv.touch (h : v.Inv) (e : ℕ) : (v.touch e).Inv :=
  { h with
    evictions := h.evictions.cancel e
    evicting := fun t i h_t => h.evicting t i (h.evictions.get?_cancel.mp h_t).1
    waiting := fun i t h_t => by
      obtain ⟨-, h_none⟩ | ⟨-, h_old⟩ := update_eq_some h_t
      · simp at h_none
      · exact h.waiting i t h_old }

theorem get?_touch_evictions (h : v.Inv) {t i : ℕ} :
    (v.touch e).evictions.get? t = some i ↔ v.evictions.get? t = some i ∧ i ≠ e :=
  h.evictions.get?_cancel

/-- The next number is that of no object. -/
theorem Inv.shape_next (h : v.Inv) : v.shape v.next = none := by
  rw [Option.eq_none_iff_forall_ne_some]
  exact fun p h_p => Nat.lt_irrefl _ (h.numbered v.next p h_p)

theorem Inv.shape_old (h : v.Inv) {i : ℕ} (h_i : v.shape i = some p) (q : K × List ℕ) :
    Function.update v.shape v.next (some q) i = some p := by
  have h_ne : i ≠ v.next := Nat.ne_of_lt (h.numbered i p h_i)
  rwa [Function.update_of_ne h_ne]

/-- A slot that only existing objects use is empty at the next number. -/
theorem Inv.slot_next (h : v.Inv) {slot : ℕ → Option ℕ}
    (h_slot : ∀ e t, slot e = some t → ∃ p, v.shape e = some p) : slot v.next = none := by
  rw [Option.eq_none_iff_forall_ne_some]
  intro t h_t
  obtain ⟨p, h_p⟩ := h_slot v.next t h_t
  rw [h.shape_next] at h_p
  simp at h_p

theorem Inv.create (h : v.Inv) (h_entry : v.entries.get? k = none) : (v.create k).Inv := by
  have h_le := Nat.le_succ v.next
  have h_slot : ∀ {slot : ℕ → Option ℕ} {i t : ℕ}, (∀ e t, slot e = some t →
      ∃ p, v.shape e = some p) → Function.update slot v.next none i = some t →
        ∃ p, (v.create k).shape i = some p := by
    intro slot i t h_slot h_t
    obtain ⟨-, h_none⟩ | ⟨-, h_old⟩ := update_eq_some h_t
    · simp at h_none
    · obtain ⟨p, h_p⟩ := h_slot i t h_old
      exact ⟨p, h.shape_old h_p _⟩
  constructor
  case polls =>
    have h_kept := (h.polls.cancel v.next).mono h_le
    -- nothing was in the slots of the new number, so nothing is cancelled
    rwa [h.slot_next h.timed] at h_kept
  case evictions =>
    have h_kept := (h.evictions.cancel v.next).mono h_le
    rwa [h.slot_next h.waiting] at h_kept
  case requests =>
    have h_kept := (h.requests.cancel v.next).mono h_le
    rwa [h.slot_next h.asking] at h_kept
  case flying =>
    intro i r h_r
    obtain ⟨-, h_none⟩ | ⟨-, h_old⟩ := update_eq_some h_r
    · simp at h_none
    · exact h.flying i r h_old
  case numbered =>
    intro i p h_i
    obtain ⟨rfl, -⟩ | ⟨-, h_old⟩ := update_eq_some h_i
    · exact Nat.lt_succ_self _
    · exact Nat.lt_succ_of_lt (h.numbered i p h_old)
  case timed => exact fun i t h_t => h_slot h.timed h_t
  case asking => exact fun i t h_t => h_slot h.asking h_t
  case waiting => exact fun i t h_t => h_slot h.waiting h_t
  case entries =>
    intro k' i h_k'
    obtain ⟨rfl, rfl⟩ | ⟨-, h_old⟩ := Table.get?_set_eq_some h_k'
    · exact ⟨[], Function.update_self ..⟩
    · obtain ⟨cs, h_shape⟩ := h.entries k' i h_old
      exact ⟨cs, h.shape_old h_shape _⟩
  case heard =>
    intro i k' cs h_i h_cs
    obtain ⟨-, h_new⟩ | ⟨-, h_old⟩ := update_eq_some h_i
    · obtain ⟨-, rfl⟩ := Prod.mk.inj (Option.some.inj h_new)
      exact absurd rfl h_cs
    · have h_k' := h.heard i k' cs h_old h_cs
      refine (Table.get?_set_of_ne _ _ ?_).trans h_k'
      rintro rfl
      -- the key was not in the cache, so it is not the one of another object
      simp [h_entry] at h_k'
  case mounted =>
    intro c i
    show v.mounted.get? c = some i ↔ _
    rw [h.mounted]
    constructor
    · rintro ⟨k', cs, h_shape, h_c⟩
      exact ⟨k', cs, h.shape_old h_shape _, h_c⟩
    · rintro ⟨k', cs, h_shape, h_c⟩
      obtain ⟨-, h_new⟩ | ⟨-, h_old⟩ := update_eq_some h_shape
      · obtain ⟨-, rfl⟩ := Prod.mk.inj (Option.some.inj h_new)
        simp at h_c
      · exact ⟨k', cs, h_old, h_c⟩
  case distinct =>
    intro i k' cs h_i
    obtain ⟨-, h_new⟩ | ⟨-, h_old⟩ := update_eq_some h_i
    · obtain ⟨-, rfl⟩ := Prod.mk.inj (Option.some.inj h_new)
      exact List.nodup_nil
    · exact h.distinct i k' cs h_old
  case evicting =>
    intro t i h_t
    obtain ⟨k', h_shape, h_k'⟩ := h.evicting t i h_t
    refine ⟨k', h.shape_old h_shape _, (Table.get?_set_of_ne _ _ ?_).trans h_k'⟩
    rintro rfl
    simp [h_entry] at h_k'

/-- Widgets come to listen to an object that is not evicted, or cease to. -/
theorem Inv.reshape (h : v.Inv) (h_shape : v.shape e = some (k, cs))
    (h_entry : v.entries.get? k = some e) {cs' : List ℕ} (h_distinct : cs'.Nodup)
    (h_kept : ∀ t i, v.evictions.get? t = some i → i ≠ e) {mounted : Table ℕ ℕ}
    (h_mounted : ∀ c i, mounted.get? c = some i ↔
      i = e ∧ c ∈ cs' ∨ i ≠ e ∧ v.mounted.get? c = some i) :
    ({ v.reshape e (k, cs') with mounted } : View K).Inv := by
  have h_exists : ∀ {i}, (∃ q, v.shape i = some q) →
      ∃ q, Function.update v.shape e (some (k, cs')) i = some q := by
    rintro i ⟨q, h_i⟩
    by_cases h_e : i = e
    · subst h_e
      exact ⟨_, Function.update_self ..⟩
    · exact ⟨q, (Function.update_of_ne h_e _ _).trans h_i⟩
  constructor
  case polls => exact h.polls
  case evictions => exact h.evictions
  case requests => exact h.requests
  case flying => exact h.flying
  case numbered =>
    intro i p h_i
    obtain ⟨rfl, -⟩ | ⟨-, h_old⟩ := update_eq_some h_i
    · exact h.numbered i _ h_shape
    · exact h.numbered i p h_old
  case timed => exact fun i t h_t => h_exists (h.timed i t h_t)
  case asking => exact fun i t h_t => h_exists (h.asking i t h_t)
  case waiting => exact fun i t h_t => h_exists (h.waiting i t h_t)
  case entries =>
    intro k' i h_k'
    obtain ⟨cs₁, h_i⟩ := h.entries k' i h_k'
    by_cases h_e : i = e
    · subst h_e
      obtain ⟨rfl, rfl⟩ := Prod.mk.inj (Option.some.inj (h_i.symm.trans h_shape))
      exact ⟨cs', Function.update_self ..⟩
    · exact ⟨cs₁, (Function.update_of_ne h_e _ _).trans h_i⟩
  case heard =>
    intro i k' cs₁ h_i h_cs₁
    obtain ⟨rfl, h_eq⟩ | ⟨-, h_old⟩ := update_eq_some h_i
    · obtain ⟨rfl, -⟩ := Prod.mk.inj (Option.some.inj h_eq)
      exact h_entry
    · exact h.heard i k' cs₁ h_old h_cs₁
  case mounted =>
    intro c i
    show mounted.get? c = some i ↔
      ∃ k' cs₁, Function.update v.shape e (some (k, cs')) i = some (k', cs₁) ∧ c ∈ cs₁
    rw [h_mounted]
    by_cases h_e : i = e
    · subst h_e
      simp [Prod.ext_iff]
    · simp [h_e, h.mounted]
  case distinct =>
    intro i k' cs₁ h_i
    obtain ⟨-, h_eq⟩ | ⟨-, h_old⟩ := update_eq_some h_i
    · obtain ⟨-, rfl⟩ := Prod.mk.inj (Option.some.inj h_eq)
      exact h_distinct
    · exact h.distinct i k' cs₁ h_old
  case evicting =>
    intro t i h_t
    obtain ⟨k', h_i, h_k'⟩ := h.evicting t i h_t
    exact ⟨k', (Function.update_of_ne (h_kept t i h_t) _ _).trans h_i, h_k'⟩

theorem Inv.listen (h : v.Inv) {c : ℕ} (h_free : v.mounted.has c = false)
    (h_shape : v.shape e = some (k, cs)) (h_entry : v.entries.get? k = some e)
    (h_kept : ∀ t i, v.evictions.get? t = some i → i ≠ e) :
    ({ v.reshape e (k, c :: cs) with mounted := v.mounted.set c e } : View K).Inv := by
  have h_none : v.mounted.get? c = none :=
    Option.not_isSome_iff_eq_none.mp (Bool.eq_false_iff.mp h_free)
  have h_new : c ∉ cs := by
    intro h_c
    have h_mounted := (h.mounted c e).mpr ⟨k, cs, h_shape, h_c⟩
    simp [h_none] at h_mounted
  have h_cs : ∀ c', v.mounted.get? c' = some e ↔ c' ∈ cs := by
    simp [h.mounted, h_shape]
  refine h.reshape h_shape h_entry (List.nodup_cons.mpr ⟨h_new, h.distinct e k cs h_shape⟩)
    h_kept fun c' i => ?_
  rw [Table.get?_set]
  by_cases h_c : c' = c
  · subst h_c
    simp [h_none, eq_comm]
  · by_cases h_e : i = e
    · subst h_e
      simp [h_c, h_cs]
    · simp [h_c, h_e]

theorem Inv.leave (h : v.Inv) {c : ℕ} (h_c : v.mounted.get? c = some e)
    (h_shape : v.shape e = some (k, cs)) :
    ({ v.reshape e (k, cs.erase c) with mounted := v.mounted.erase c } : View K).Inv := by
  have h_cs : ∀ c', v.mounted.get? c' = some e ↔ c' ∈ cs := by
    simp [h.mounted, h_shape]
  have h_heard : cs ≠ [] := List.ne_nil_of_mem ((h_cs c).mp h_c)
  -- what waits for its eviction has no listener, but `e` has one
  have h_kept : ∀ t i, v.evictions.get? t = some i → i ≠ e := by
    rintro t i h_t rfl
    obtain ⟨k', h_i, -⟩ := h.evicting t i h_t
    obtain ⟨-, rfl⟩ := Prod.mk.inj (Option.some.inj (h_i.symm.trans h_shape))
    exact h_heard rfl
  have h_distinct := h.distinct e k cs h_shape
  refine h.reshape h_shape (h.heard e k cs h_shape h_heard) (h_distinct.erase c) h_kept
    fun c' i => ?_
  rw [Table.get?_erase]
  by_cases h_e : i = e
  · subst h_e
    simp [h_cs, h_distinct.mem_erase_iff, and_comm]
  · simp only [h_e, false_and, false_or, ne_eq, not_false_eq_true, true_and, and_iff_left_iff_imp]
    rintro h_i rfl
    exact h_e (Option.some.inj (h_i.symm.trans h_c))

theorem Inv.startEviction (h : v.Inv) (h_shape : v.shape e = some (k, []))
    (h_entry : v.entries.get? k = some e)
    (h_kept : ∀ t i, v.evictions.get? t = some i → i ≠ e) : (v.startEviction e).Inv :=
  { h with
    polls := h.polls.mono (Nat.le_succ _)
    evictions := h.evictions.start (p := e) h_kept
    requests := h.requests.mono (Nat.le_succ _)
    numbered := fun i q h_i => Nat.lt_succ_of_lt (h.numbered i q h_i)
    waiting := fun i t h_t => by
      obtain ⟨rfl, -⟩ | ⟨-, h_old⟩ := update_eq_some h_t
      · exact ⟨_, h_shape⟩
      · exact h.waiting i t h_old
    evicting := fun t i h_t => by
      obtain ⟨-, rfl⟩ | ⟨-, h_old⟩ := Table.get?_set_eq_some h_t
      · exact ⟨k, h_shape, h_entry⟩
      · exact h.evicting t i h_old }

theorem Inv.land (h : v.Inv) {r : ℕ} (h_r : v.requests.get? r = some e) : (v.land r e).Inv :=
  have h_slot : v.inFlight e = some r := h.requests.held r e h_r
  have h_kept := h.requests.cancel e
  { h with
    requests := by
      rw [h_slot] at h_kept
      exact h_kept
    flying := fun i r' h_i => by
      obtain ⟨-, h_none⟩ | ⟨h_ne, h_old⟩ := update_eq_some h_i
      · simp at h_none
      -- two objects never hold the same request
      · refine Table.get?_erase.mpr ⟨h.flying i r' h_old, ?_⟩
        rintro rfl
        exact h_ne (h.requests.apart i e r' h_old h_slot)
    asking := fun i r' h_i => by
      obtain ⟨-, h_none⟩ | ⟨-, h_old⟩ := update_eq_some h_i
      · simp at h_none
      · exact h.asking i r' h_old }

theorem Inv.pollFires (h : v.Inv) (t : ℕ) : ({ v with polls := v.polls.erase t } : View K).Inv :=
  { h with polls := h.polls.finish t }

theorem Inv.evictFires (h : v.Inv) {t : ℕ} (h_t : v.evictions.get? t = some e)
    (h_shape : v.shape e = some (k, cs)) :
    ({ v with
      evictions := v.evictions.erase t
      entries := if cs = [] then v.entries.erase k else v.entries } : View K).Inv := by
  obtain ⟨k', h_e, h_entry⟩ := h.evicting t e h_t
  obtain ⟨rfl, rfl⟩ := Prod.mk.inj (Option.some.inj (h_shape.symm.trans h_e))
  -- the entry that goes is that of `e` itself
  have h_other : ∀ {k' i}, v.entries.get? k' = some i → i ≠ e →
      (v.entries.erase k).get? k' = some i := by
    intro k' i h_k' h_ne
    refine Table.get?_erase.mpr ⟨h_k', ?_⟩
    rintro rfl
    exact h_ne (Option.some.inj (h_k'.symm.trans h_entry))
  exact
    { h with
      evictions := h.evictions.finish t
      entries := fun k' i h_k' => h.entries k' i (Table.get?_erase.mp h_k').1
      heard := fun i k' cs' h_i h_cs' => by
        refine h_other (h.heard i k' cs' h_i h_cs') ?_
        rintro rfl
        obtain ⟨-, rfl⟩ := Prod.mk.inj (Option.some.inj (h_i.symm.trans h_e))
        exact h_cs' rfl
      evicting := fun t' i h_t' => by
        obtain ⟨h_old, h_ne⟩ := Table.get?_erase.mp h_t'
        obtain ⟨k', h_i, h_k'⟩ := h.evicting t' i h_old
        refine ⟨k', h_i, h_other h_k' ?_⟩
        rintro rfl
        exact h_ne (h.evictions.unique h_old h_t rfl) }

/-! ### What the functions leave alone -/

section Alone

omit [DecidableEq K]

/-- The parts that timers and requests do not touch. -/
structure Same (v v' : View K) : Prop where
  shape : v'.shape = v.shape
  entries : v'.entries = v.entries
  hidden : v'.hidden = v.hidden

theorem Same.trans {v₁ v₂ v₃ : View K} (h : Same v₁ v₂) (h' : Same v₂ v₃) : Same v₁ v₃ :=
  ⟨h'.shape.trans h.shape, h'.entries.trans h.entries, h'.hidden.trans h.hidden⟩

theorem same_fetchNow (v : View K) (e : ℕ) : Same v (v.fetchNow e).1 := by
  rw [View.fetchNow]
  split <;> exact ⟨rfl, rfl, rfl⟩

theorem polls_fetchNow (v : View K) (e : ℕ) : (v.fetchNow e).1.polls = v.polls := by
  rw [View.fetchNow]
  split <;> rfl

theorem same_schedule (v : View K) (e delay : ℕ) : Same v (v.schedule e delay) := by
  rw [View.schedule]
  split <;> exact ⟨rfl, rfl, rfl⟩

theorem same_onVisibility (v : View K) (e : ℕ) : Same v (v.onVisibility e).1 := by
  rw [View.onVisibility]
  split
  · exact ⟨rfl, rfl, rfl⟩
  split
  · exact ⟨rfl, rfl, rfl⟩
  · exact same_fetchNow v e

theorem same_onVisibilityAll (v : View K) (es : List ℕ) : Same v (v.onVisibilityAll es).1 := by
  induction es generalizing v with
  | nil => exact ⟨rfl, rfl, rfl⟩
  | cons e es ih => exact (same_onVisibility v e).trans (ih (v.onVisibility e).1)

end Alone

/-! ### What every step keeps -/

theorem Inv.onVisibility (h : v.Inv) (e : ℕ) : (v.onVisibility e).1.Inv := by
  rw [View.onVisibility]
  split
  · exact h
  next h_subs =>
  split
  · exact h.stopPoll e
  · cases h_shape : v.shape e with
    | none => simp [subscribersOf, h_shape] at h_subs
    | some p => exact h.fetchNow h_shape

theorem Inv.onVisibilityAll (h : v.Inv) (es : List ℕ) : (v.onVisibilityAll es).1.Inv := by
  induction es generalizing v with
  | nil => exact h
  | cons e es ih => exact ih (h.onVisibility e)

/-- What `getEntry` comes to. -/
structure Ready (v v' : View K) (k : K) (e : ℕ) : Prop where
  inv : v'.Inv
  entry : v'.entries.get? k = some e
  kept : ∀ t i, v'.evictions.get? t = some i → i ≠ e
  polls : v'.polls = v.polls
  requests : v'.requests = v.requests
  hidden : v'.hidden = v.hidden
  mounted : v'.mounted = v.mounted
  /-- A new object has nobody who listens to it. -/
  shape : ∀ i p, v'.shape i = some p → v.shape i = some p ∨ p = (k, [])
  old : ∀ i p, v.shape i = some p → v'.shape i = some p
  listed : ∀ k i, v.entries.get? k = some i → v'.entries.get? k = some i

theorem Inv.got (h : v.Inv) (h_got : v.Got k e v') : Ready v v' k e := by
  cases h_got with
  -- `getEntry` clears the pending eviction of what it finds
  | found h_entry h_shape =>
    exact ⟨h.touch e, h_entry, fun t i h_t => ((get?_touch_evictions h).mp h_t).2, rfl, rfl, rfl,
      rfl, fun i p h_i => .inl h_i, fun i p h_i => h_i, fun k i h_k => h_k⟩
  | created h_entry =>
    have h_new := h.create h_entry
    refine ⟨h_new.touch v.next, Table.get?_set_self ..,
      fun t i h_t => ((get?_touch_evictions h_new).mp h_t).2, rfl, rfl, rfl, rfl, fun i p h_i => ?_,
      fun i p h_i => h.shape_old h_i _, fun k' i h_k' => ?_⟩
    · obtain ⟨-, h_p⟩ | ⟨-, h_old⟩ := update_eq_some h_i
      · exact .inr (Option.some.inj h_p).symm
      · exact .inl h_old
    · refine (Table.get?_set_of_ne _ _ ?_).trans h_k'
      rintro rfl
      simp [h_entry] at h_k'

/-- **The invariant is kept.** -/
theorem Inv.step {l : PollLabel K V} {asked : List ℕ} (h : v.Inv) (h_step : v.Step l v' asked) :
    v'.Inv := by
  cases h_step with
  | render h_got => exact (h.got h_got).inv
  | @opened c k i e v₁ cs v₂ asked h_free h_got h_shape h_fetch =>
    have h_ready := h.got h_got
    rw [← h_ready.mounted] at h_free
    -- first the widget listens, then the request is made
    have h_listen := h_ready.inv.listen h_free h_shape h_ready.entry h_ready.kept
    have h_fetched := h_listen.fetchNow (p := (k, c :: cs)) (Function.update_self ..)
    rwa [h_fetch] at h_fetched
  | @shown c k i e v₁ cs delay h_free h_got h_shape =>
    have h_ready := h.got h_got
    rw [← h_ready.mounted] at h_free
    have h_listen := h_ready.inv.listen h_free h_shape h_ready.entry h_ready.kept
    exact h_listen.schedule (p := (k, c :: cs)) (Function.update_self ..) delay
  | stayed h_mounted h_shape => exact h.leave h_mounted h_shape
  | @left c e k cs h_mounted h_shape h_last =>
    have h_left := h.leave h_mounted h_shape
    rw [h_last] at h_left
    -- the last listener stops the timer and starts the eviction
    have h_stop := h_left.stopPoll e
    have h_mem : c ∈ cs := by
      obtain ⟨k', cs', h_shape', h_c⟩ := (h.mounted c e).mp h_mounted
      obtain ⟨-, rfl⟩ := Prod.mk.inj (Option.some.inj (h_shape'.symm.trans h_shape))
      exact h_c
    refine h_stop.startEviction (k := k) (Function.update_self ..)
      (h.heard e k cs h_shape (List.ne_nil_of_mem h_mem)) ?_
    rintro t i h_t rfl
    obtain ⟨k', h_i, -⟩ := h.evicting t i h_t
    obtain ⟨-, rfl⟩ := Prod.mk.inj (Option.some.inj (h_i.symm.trans h_shape))
    simp at h_mem
  | refresh h_shape h_fetch =>
    have h_fetched := h.fetchNow h_shape
    rwa [h_fetch] at h_fetched
  | answer h_request h_shape => exact (h.land h_request).schedule h_shape _
  | @pollFires t p q v₁ asked h_poll h_shape h_fetch =>
    have h_fetched := (h.pollFires t).fetchNow h_shape
    rwa [h_fetch] at h_fetched
  | evictFires h_eviction h_shape => exact h.evictFires h_eviction h_shape
  | @visibility hidden v₁ asked h_loop =>
    -- the invariant does not read `hidden`
    have h_hidden : ({ v with hidden } : View K).Inv := { h with }
    have h_all := h_hidden.onVisibilityAll v.entries.values
    rwa [h_loop] at h_all

/-- What is listened to is in the loop over the cache. -/
theorem Inv.mem_values (h : v.Inv) (h_shape : v.shape e = some (k, cs)) (h_cs : cs ≠ []) :
    e ∈ v.entries.values :=
  Table.get?_of_mem_values.mpr ⟨k, h.heard e k cs h_shape h_cs⟩

end View
end ServerCentral.Web.HostPoll
