import Mathlib.Data.List.Basic

/-!
# Single typing slips

The slips a person makes when copying a list of symbols: one symbol replaced, two
neighbours exchanged, one symbol left out, one put in or typed twice. A slip that
keeps the length is a `Near` pair.

`Slip.flatMap_near` follows a slip through a map that reads every symbol as at
most one letter, such as a normalisation that drops what it does not know: when
the result has the old length, it is the old result or a `Near` one.
-/

namespace Framework

variable {α β : Type*}

/-- One typing slip. -/
inductive Slip : List α → List α → Prop
  | substitute (p : List α) (x y : α) (q : List α) : Slip (p ++ x :: q) (p ++ y :: q)
  | swap (p : List α) (x y : α) (q : List α) : Slip (p ++ x :: y :: q) (p ++ y :: x :: q)
  | drop (p : List α) (x : α) (q : List α) : Slip (p ++ x :: q) (p ++ q)
  | insert (p : List α) (x : α) (q : List α) : Slip (p ++ q) (p ++ x :: q)
  | double (p : List α) (x : α) (q : List α) : Slip (p ++ x :: q) (p ++ x :: x :: q)

/-- The slips that keep the length: one symbol replaced, or two neighbours
exchanged. -/
inductive Near : List α → List α → Prop
  | substitute (p : List α) (x y : α) (q : List α) : Near (p ++ x :: q) (p ++ y :: q)
  | swap (p : List α) (x y : α) (q : List α) : Near (p ++ x :: y :: q) (p ++ y :: x :: q)

theorem Near.symm {a b : List α} (h : Near a b) : Near b a := by
  cases h with
  | substitute p x y q => exact .substitute p y x q
  | swap p x y q => exact .swap p y x q

theorem Near.length_eq {a b : List α} (h : Near a b) : a.length = b.length := by
  cases h <;> simp

/-- **A slip read through a map.** Where every symbol of the intended list stands
for at most one letter, a slip that does not change the number of letters leaves
them as they were or makes one length-keeping slip among them. -/
theorem Slip.flatMap_near {f : α → List β} {xs ys : List α} (h : Slip xs ys)
    (h_one : ∀ x ∈ xs, (f x).length ≤ 1)
    (h_len : (ys.flatMap f).length = (xs.flatMap f).length) :
    ys.flatMap f = xs.flatMap f ∨ Near (xs.flatMap f) (ys.flatMap f) := by
  cases h with
  | substitute p x y q =>
    have h_x := h_one x (by simp)
    simp only [List.flatMap_append, List.flatMap_cons, List.length_append] at h_len ⊢
    have h_xy : (f y).length = (f x).length := by omega
    cases hx : f x with
    | nil =>
      obtain hy : f y = [] := List.eq_nil_of_length_eq_zero (by rw [h_xy, hx]; rfl)
      exact .inl (by rw [hy])
    | cons b bs =>
      obtain rfl : bs = [] := List.eq_nil_of_length_eq_zero (by rw [hx] at h_x; simpa using h_x)
      obtain ⟨c, hy⟩ : ∃ c, f y = [c] := List.length_eq_one_iff.mp (by rw [h_xy, hx]; rfl)
      rw [hy]
      exact .inr (.substitute _ b c _)
  | swap p x y q =>
    have h_x := h_one x (by simp)
    have h_y := h_one y (by simp)
    simp only [List.flatMap_append, List.flatMap_cons]
    cases hx : f x with
    | nil => exact .inl rfl
    | cons b bs =>
      obtain rfl : bs = [] := List.eq_nil_of_length_eq_zero (by rw [hx] at h_x; simpa using h_x)
      cases hy : f y with
      | nil => exact .inl rfl
      | cons c cs =>
        obtain rfl : cs = [] := List.eq_nil_of_length_eq_zero (by rw [hy] at h_y; simpa using h_y)
        exact .inr (.swap _ b c _)
  | drop p x q =>
    simp only [List.flatMap_append, List.flatMap_cons, List.length_append] at h_len ⊢
    obtain hx : f x = [] := List.eq_nil_of_length_eq_zero (by omega)
    exact .inl (by rw [hx]; rfl)
  | insert p x q =>
    simp only [List.flatMap_append, List.flatMap_cons, List.length_append] at h_len ⊢
    obtain hx : f x = [] := List.eq_nil_of_length_eq_zero (by omega)
    exact .inl (by rw [hx]; rfl)
  | double p x q =>
    simp only [List.flatMap_append, List.flatMap_cons, List.length_append] at h_len ⊢
    obtain hx : f x = [] := List.eq_nil_of_length_eq_zero (by omega)
    exact .inl (by rw [hx]; rfl)

end Framework
