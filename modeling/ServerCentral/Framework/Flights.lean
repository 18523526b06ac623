import ServerCentral.Framework.Table

/-!
# Work that callers share

A program keeps a map from keys to the work that is under way for them. A caller who finds its
key in the map waits for that work; one who does not starts it and enters it. Work that ends takes
its key out of the map, whatever it came to, and everyone who waits for it goes on.

The map is cleared by key and not by entry, so that work could take out the entry of other work.
`Shared` says that this does not happen: the map lists the work under way. Hence a key has at
most one piece of work (`Shared.unique`), and whoever waits, waits for work under way.
-/

namespace Framework

/-- Pieces of work, numbered in the order in which they were started. -/
structure Flights (K W C : Type*) where
  /-- The map. -/
  inflight : Table K ℕ
  work : Table ℕ (K × W)
  /-- What a caller waits for. -/
  waiting : Table C ℕ
  started : ℕ

namespace Flights

variable {K W C : Type*}

def empty : Flights K W C := ⟨.empty, .empty, .empty, 0⟩

/-- Those who wait for a piece of work. -/
def waiters (f : Flights K W C) (j : ℕ) : List C := (f.waiting.filter fun _ i => i = j).keys

/-- The work goes on. -/
def advance (f : Flights K W C) (j : ℕ) (w : W) : Flights K W C :=
  { f with work := f.work.modify j fun p => (p.1, w) }

variable [DecidableEq K] [DecidableEq C]

/-- A caller asks for a key. -/
def request (f : Flights K W C) (k : K) (start : W) (c : C) : Flights K W C :=
  match f.inflight.get? k with
  | some j => { f with waiting := f.waiting.set c j }
  | none =>
    { inflight := f.inflight.set k f.started
      work := f.work.set f.started (k, start)
      waiting := f.waiting.set c f.started
      started := f.started + 1 }

omit [DecidableEq C] in
/-- The work is over. -/
def settle (f : Flights K W C) (j : ℕ) : Flights K W C :=
  match f.work.get? j with
  | none => f
  | some (k, _) =>
    { f with
      inflight := f.inflight.erase k
      work := f.work.erase j
      waiting := f.waiting.filter fun _ i => i ≠ j }

/-- **The invariant.** -/
structure Shared (f : Flights K W C) : Prop where
  /-- The map lists the work under way, -/
  listed : ∀ k j, f.inflight.get? k = some j ↔ ∃ w, f.work.get? j = some (k, w)
  /-- which is all that anyone waits for. -/
  awaited : ∀ c j, f.waiting.get? c = some j → ∃ p, f.work.get? j = some p
  numbered : ∀ j p, f.work.get? j = some p → j < f.started

variable {f : Flights K W C} {k : K} {w : W} {c : C} {j : ℕ}

/-- One who finds work under way joins it. -/
theorem request_join (h : f.inflight.get? k = some j) :
    f.request k w c = { f with waiting := f.waiting.set c j } := by
  rw [request, h]

/-- One who finds none starts it. -/
theorem request_start (h : f.inflight.get? k = none) :
    f.request k w c =
      { inflight := f.inflight.set k f.started
        work := f.work.set f.started (k, w)
        waiting := f.waiting.set c f.started
        started := f.started + 1 } := by
  rw [request, h]

/-! ### Who waits -/

omit [DecidableEq K] in
theorem mem_waiters : c ∈ f.waiters j ↔ f.waiting.get? c = some j := by
  have h_keys : c ∈ f.waiters j ↔
      ∃ i, (f.waiting.filter fun _ i => i = j).get? c = some i := by
    rw [waiters, ← Option.isSome_iff_exists, ← not_iff_not, ← Table.get?_eq_none_iff]
    simp
  simp only [h_keys, Table.get?_filter, decide_eq_true_eq]
  constructor
  · rintro ⟨i, h_get, rfl⟩
    exact h_get
  · exact fun h_get => ⟨j, h_get, rfl⟩

omit [DecidableEq K] [DecidableEq C] in
theorem nodup_waiters (f : Flights K W C) (j : ℕ) : (f.waiters j).Nodup :=
  (f.waiting.filter fun _ i => i = j).nodup

/-- Whoever asks, waits, -/
theorem waiting_request_self (f : Flights K W C) (k : K) (w : W) (c : C) :
    (f.request k w c).waiting.get? c = some ((f.inflight.get? k).getD f.started) := by
  cases h : f.inflight.get? k with
  | some j =>
    rw [request_join h]
    exact Table.get?_set_self ..
  | none =>
    rw [request_start h]
    exact Table.get?_set_self ..

/-- and the others wait as before. -/
theorem waiting_request_of_ne {c' : C} (h : c' ≠ c) :
    (f.request k w c).waiting.get? c' = f.waiting.get? c' := by
  rw [request]
  split <;> exact Table.get?_set_of_ne _ _ h

theorem waiting_settle {i : ℕ} (h : f.work.get? j = some (k, w)) :
    (f.settle j).waiting.get? c = some i ↔ f.waiting.get? c = some i ∧ i ≠ j := by
  rw [settle, h]
  simp only [Table.get?_filter, decide_eq_true_eq]

omit [DecidableEq C] in
/-- Those who wait for work that is over, and those who still wait, are all who waited. -/
theorem count_settle [BEq C] (h : f.work.get? j = some (k, w)) (c : C) :
    (f.waiters j).count c + (f.settle j).waiting.keys.count c = f.waiting.keys.count c := by
  rw [settle, h]
  simp only [waiters, Table.keys, Table.filter]
  generalize f.waiting.entries = entries
  -- over the entries: each waits for `j`, and goes, or for other work
  induction entries with
  | nil => rfl
  | cons e entries ih =>
    by_cases h_e : e.2 = j
    · simp only [List.filter_cons, h_e, decide_true, if_true, ne_eq, not_true_eq_false,
        decide_false, Bool.false_eq_true, if_false, List.map_cons, List.count_cons] at ih ⊢
      omega
    · simp only [List.filter_cons, h_e, decide_false, Bool.false_eq_true, if_false, ne_eq,
        not_false_eq_true, decide_true, if_true, List.map_cons, List.count_cons] at ih ⊢
      omega

/-! ### What is under way -/

/-- A request keeps all work, -/
theorem work_request_old (h : Shared f) {i : ℕ} {p : K × W} (h_work : f.work.get? i = some p) :
    (f.request k w c).work.get? i = some p := by
  cases h_key : f.inflight.get? k with
  | some j => rwa [request_join h_key]
  | none =>
    have h_ne : i ≠ f.started := Nat.ne_of_lt (h.numbered i p h_work)
    rw [request_start h_key]
    exact (Table.get?_set_of_ne _ _ h_ne).trans h_work

/-- and what it adds is the work it starts. -/
theorem work_request_new {i : ℕ} {p : K × W} (h_work : (f.request k w c).work.get? i = some p) :
    f.work.get? i = some p ∨ f.inflight.get? k = none ∧ i = f.started ∧ p = (k, w) := by
  cases h_key : f.inflight.get? k with
  | some j =>
    rw [request_join h_key] at h_work
    exact .inl h_work
  | none =>
    rw [request_start h_key] at h_work
    obtain ⟨h_i, h_p⟩ | ⟨-, h_old⟩ := Table.get?_set_eq_some h_work
    · exact .inr ⟨rfl, h_i, h_p⟩
    · exact .inl h_old

omit [DecidableEq K] [DecidableEq C] in
theorem work_advance {i : ℕ} {k' : K} {w' v : W} (h_work : f.work.get? j = some (k, w)) :
    (f.advance j v).work.get? i = some (k', w') ↔
      i = j ∧ k' = k ∧ w' = v ∨ i ≠ j ∧ f.work.get? i = some (k', w') := by
  rw [advance, Table.get?_modify]
  by_cases h_i : i = j
  · subst h_i
    simp [h_work, eq_comm]
  · simp [h_i]

omit [DecidableEq C] in
theorem work_settle {i : ℕ} {p : K × W} (h : f.work.get? j = some (k, w)) :
    (f.settle j).work.get? i = some p ↔ f.work.get? i = some p ∧ i ≠ j := by
  rw [settle, h]
  exact Table.get?_erase

/-! ### The invariant -/

theorem Shared.empty : Shared (empty : Flights K W C) where
  listed k j := by simp [Flights.empty]
  awaited c j h := by simp [Flights.empty] at h
  numbered j p h := by simp [Flights.empty] at h

/-- **One piece of work per key.** -/
theorem Shared.unique (h : Shared f) {i : ℕ} {w' : W} (h_j : f.work.get? j = some (k, w))
    (h_i : f.work.get? i = some (k, w')) : i = j :=
  Option.some.inj (((h.listed k i).mpr ⟨w', h_i⟩).symm.trans ((h.listed k j).mpr ⟨w, h_j⟩))

theorem Shared.request (h : Shared f) (k : K) (w : W) (c : C) : Shared (f.request k w c) := by
  cases h_key : f.inflight.get? k with
  | some j =>
    obtain ⟨w', h_work⟩ := (h.listed k j).mp h_key
    rw [request_join h_key]
    refine ⟨h.listed, fun c' i h_wait => ?_, h.numbered⟩
    obtain ⟨-, rfl⟩ | ⟨-, h_old⟩ := Table.get?_set_eq_some h_wait
    · exact ⟨_, h_work⟩
    · exact h.awaited c' i h_old
  | none =>
    have h_new : ∀ i p, f.work.get? i = some p → i ≠ f.started := fun i p h_work =>
      Nat.ne_of_lt (h.numbered i p h_work)
    rw [request_start h_key]
    constructor
    case listed =>
      intro k' i
      -- The new number stands for the new key, and neither was in use before.
      simp only [Table.get?_set]
      by_cases h_k : k' = k
      · subst h_k
        rw [if_pos rfl]
        constructor
        · rintro h_eq
          obtain rfl := Option.some.inj h_eq
          exact ⟨w, if_pos rfl⟩
        · rintro ⟨w', h_work⟩
          split at h_work
          · next h_i => rw [h_i]
          · exact absurd ((h.listed k' i).mpr ⟨w', h_work⟩) (by simp [h_key])
      · rw [if_neg h_k, h.listed]
        constructor
        · rintro ⟨w', h_work⟩
          exact ⟨w', by rwa [if_neg (h_new i _ h_work)]⟩
        · rintro ⟨w', h_work⟩
          split at h_work
          · exact absurd (Prod.mk.inj (Option.some.inj h_work)).1.symm h_k
          · exact ⟨w', h_work⟩
    case awaited =>
      intro c' i h_wait
      obtain ⟨-, rfl⟩ | ⟨-, h_old⟩ := Table.get?_set_eq_some h_wait
      · exact ⟨(k, w), Table.get?_set_self ..⟩
      · obtain ⟨p, h_work⟩ := h.awaited c' i h_old
        exact ⟨p, (Table.get?_set_of_ne _ _ (h_new i p h_work)).trans h_work⟩
    case numbered =>
      intro i p h_work
      obtain ⟨rfl, -⟩ | ⟨-, h_old⟩ := Table.get?_set_eq_some h_work
      · exact Nat.lt_succ_self _
      · exact Nat.lt_succ_of_lt (h.numbered i p h_old)

theorem Shared.advance (h : Shared f) (j : ℕ) (v : W) : Shared (f.advance j v) := by
  have h_get : ∀ i, (f.advance j v).work.get? i =
      (f.work.get? i).map fun p => if i = j then (p.1, v) else p := by
    intro i
    exact Table.get?_modify ..
  constructor
  case listed =>
    intro k' i
    show f.inflight.get? k' = some i ↔ _
    rw [h.listed, h_get]
    cases h_work : f.work.get? i with
    | none => simp
    | some p =>
      by_cases h_i : i = j
      · simp [h_i, Prod.ext_iff]
      · simp [h_i]
  case awaited =>
    intro c' i h_wait
    obtain ⟨p, h_work⟩ := h.awaited c' i h_wait
    exact ⟨_, by rw [h_get, h_work]; rfl⟩
  case numbered =>
    intro i p h_work
    rw [h_get] at h_work
    obtain ⟨p', h_old, -⟩ := Option.map_eq_some_iff.mp h_work
    exact h.numbered i p' h_old

theorem Shared.settle (h : Shared f) (j : ℕ) : Shared (f.settle j) := by
  cases h_work : f.work.get? j with
  | none =>
    rw [Flights.settle, h_work]
    exact h
  | some p =>
    obtain ⟨k, w⟩ := p
    constructor
    case listed =>
      intro k' i
      simp only [work_settle h_work]
      rw [Flights.settle, h_work]
      show (f.inflight.erase k).get? k' = some i ↔ _
      rw [Table.get?_erase, h.listed]
      constructor
      · rintro ⟨⟨w', h_i⟩, h_k⟩
        refine ⟨w', h_i, ?_⟩
        rintro rfl
        exact h_k (Prod.mk.inj (Option.some.inj (h_i.symm.trans h_work))).1
      · rintro ⟨w', h_i, h_ne⟩
        refine ⟨⟨w', h_i⟩, ?_⟩
        rintro rfl
        exact h_ne (h.unique h_work h_i)
    case awaited =>
      intro c' i h_wait
      obtain ⟨h_old, h_ne⟩ := (waiting_settle h_work).mp h_wait
      obtain ⟨p, h_i⟩ := h.awaited c' i h_old
      exact ⟨p, (work_settle h_work).mpr ⟨h_i, h_ne⟩⟩
    case numbered =>
      intro i p h_i
      have h_started : (f.settle j).started = f.started := by
        rw [Flights.settle, h_work]
      rw [h_started]
      exact h.numbered i p ((work_settle h_work).mp h_i).1

end Flights
end Framework
