import Mathlib.Data.List.Forall2

/-!
# Computations that may fail

How a computation in `Except` that has succeeded, or failed, is taken apart: at a bind, at
a map, and over a list.
-/

namespace Framework

variable {ε α β : Type}

/-- What a computation that has succeeded went on with. -/
theorem bind_eq_ok {x : Except ε α} {f : α → Except ε β} {b : β} (h : (x >>= f) = .ok b) :
    ∃ a, x = .ok a ∧ f a = .ok b := by
  cases x with
  | error e => exact absurd h (by simp [bind, Except.bind])
  | ok a => exact ⟨a, rfl, h⟩

theorem map_eq_ok {x : Except ε α} {f : α → β} {b : β} (h : x.map f = .ok b) :
    ∃ a, x = .ok a ∧ f a = b := by
  cases x with
  | error e => exact absurd h (by simp [Except.map])
  | ok a => exact ⟨a, rfl, Except.ok.inj h⟩

/-- What every step of a fold keeps holds of its result. -/
theorem foldlM_induction {f : β → α → Except ε β} {motive : β → Prop}
    (h_step : ∀ out a out', motive out → f out a = .ok out' → motive out') {l : List α}
    {out out' : β} (h : l.foldlM f out = .ok out') (h_out : motive out) : motive out' := by
  induction l generalizing out with
  | nil => exact Except.ok.inj h ▸ h_out
  | cons a l ih =>
    rw [List.foldlM_cons] at h
    obtain ⟨next, h_a, h⟩ := bind_eq_ok h
    exact ih h (h_step out a next h_out h_a)

/-- A fold whose steps all succeed. -/
theorem foldlM_eq_ok {f : β → α → Except ε β} {g : β → α → β} {l : List α}
    (h : ∀ out, ∀ a ∈ l, f out a = .ok (g out a)) (out : β) :
    l.foldlM f out = .ok (l.foldl g out) := by
  induction l generalizing out with
  | nil => rfl
  | cons a l ih =>
    rw [List.foldlM_cons, h out a List.mem_cons_self]
    exact ih (fun out' a' h_a' => h out' a' (List.mem_cons_of_mem a h_a')) (g out a)

/-- A `mapM` that fails does so at an element. -/
theorem mapM_error {f : α → Except ε β} {l : List α} {e : ε} (h : l.mapM f = .error e) :
    ∃ a ∈ l, f a = .error e := by
  induction l with
  | nil => exact absurd h (by simp [pure, Except.pure])
  | cons a l ih =>
    rw [List.mapM_cons] at h
    cases h_a : f a with
    | error e' =>
      rw [h_a] at h
      obtain rfl : e' = e := Except.error.inj h
      exact ⟨a, List.mem_cons_self, h_a⟩
    | ok b =>
      rw [h_a] at h
      cases h_l : l.mapM f with
      | error e' =>
        rw [h_l] at h
        obtain rfl : e' = e := Except.error.inj h
        obtain ⟨a', h_mem, h_err⟩ := ih h_l
        exact ⟨a', List.mem_cons_of_mem a h_mem, h_err⟩
      | ok bs =>
        rw [h_l] at h
        exact absurd h (by simp [bind, Except.bind, pure, Except.pure])

/-- A `mapM` that succeeds does so at every element. -/
theorem mapM_forall₂ {f : α → Except ε β} {l : List α} {l' : List β} (h : l.mapM f = .ok l') :
    List.Forall₂ (fun a b => f a = .ok b) l l' := by
  induction l generalizing l' with
  | nil =>
    obtain rfl := Except.ok.inj h
    exact .nil
  | cons a l ih =>
    rw [List.mapM_cons] at h
    obtain ⟨b, h_a, h⟩ := bind_eq_ok h
    obtain ⟨bs, h_l, h⟩ := bind_eq_ok h
    obtain rfl := Except.ok.inj h
    exact .cons h_a (ih h_l)

end Framework
