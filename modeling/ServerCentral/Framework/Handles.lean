import Mathlib.Logic.Function.Basic
import ServerCentral.Framework.Table

/-!
# Handles that objects keep

A program starts something, a timer or a request, and keeps the handle in a slot of an object.
What was started is pending until it ends, or is cancelled through its handle. The slot and what
is pending need not agree: a slot that is overwritten loses what it held, and a handle stays in
its slot when its timer has fired.

`Kept` says that nothing pending is lost. An object then has at most one thing pending
(`Kept.unique`), and to cancel through its slot is to cancel all of it (`Kept.get?_cancel`).
-/

namespace Framework

variable {P O : Type*}

/-- What an updated function has is new or old. -/
theorem update_eq_some {A B : Type*} [DecidableEq A] {f : A → Option B} {a a' : A} {x : Option B}
    {b : B} (h : Function.update f a x a' = some b) :
    a' = a ∧ x = some b ∨ a' ≠ a ∧ f a' = some b := by
  by_cases h_a : a' = a
  · subst h_a
    exact .inl ⟨rfl, (Function.update_self a' x f).symm.trans h⟩
  · exact .inr ⟨h_a, (Function.update_of_ne h_a x f).symm.trans h⟩

/-- Cancel what a slot holds. -/
def Table.cancel (pending : Table ℕ P) : Option ℕ → Table ℕ P
  | some t => pending.erase t
  | none => pending

/-- **Nothing pending is lost.** -/
structure Kept (pending : Table ℕ P) (owner : P → O) (slot : O → Option ℕ) (next : ℕ) : Prop where
  /-- What is pending is in the slot of its owner. -/
  held : ∀ t p, pending.get? t = some p → slot (owner p) = some t
  below : ∀ o t, slot o = some t → t < next
  /-- No handle is in two slots. -/
  apart : ∀ o o' t, slot o = some t → slot o' = some t → o = o'

namespace Kept

variable {pending : Table ℕ P} {owner : P → O} {slot : O → Option ℕ} {next t t' : ℕ} {p p' : P}
  {o : O}

theorem empty (owner : P → O) (next : ℕ) : Kept .empty owner (fun _ => none) next where
  held t p h := by simp at h
  below o t h := by simp at h
  apart o o' t h := by simp at h

/-- One thing is pending for each owner. -/
theorem unique (h : Kept pending owner slot next) (h_t : pending.get? t = some p)
    (h_t' : pending.get? t' = some p') (h_owner : owner p = owner p') : t = t' := by
  have h_slot := h.held t p h_t
  rw [h_owner, h.held t' p' h_t'] at h_slot
  exact (Option.some.inj h_slot).symm

theorem mono (h : Kept pending owner slot next) {next' : ℕ} (h_le : next ≤ next') :
    Kept pending owner slot next' :=
  ⟨h.held, fun o t h_t => Nat.lt_of_lt_of_le (h.below o t h_t) h_le, h.apart⟩

/-- What ends leaves its handle behind. -/
theorem finish (h : Kept pending owner slot next) (t : ℕ) :
    Kept (pending.erase t) owner slot next :=
  ⟨fun i p h_i => h.held i p (Table.get?_erase.mp h_i).1, h.below, h.apart⟩

/-- What remains when a slot is cancelled. -/
theorem get?_cancel (h : Kept pending owner slot next) :
    (pending.cancel (slot o)).get? t = some p ↔ pending.get? t = some p ∧ owner p ≠ o := by
  cases h_slot : slot o with
  | none =>
    show pending.get? t = some p ↔ _
    constructor
    · intro h_t
      refine ⟨h_t, fun h_owner => ?_⟩
      have h_held := h.held t p h_t
      simp [h_owner, h_slot] at h_held
    · exact fun h_both => h_both.1
  | some i =>
    show (pending.erase i).get? t = some p ↔ _
    rw [Table.get?_erase]
    constructor
    · rintro ⟨h_t, h_ne⟩
      refine ⟨h_t, fun h_owner => h_ne ?_⟩
      have h_held := h.held t p h_t
      rw [h_owner, h_slot] at h_held
      exact (Option.some.inj h_held).symm
    · rintro ⟨h_t, h_owner⟩
      refine ⟨h_t, fun h_eq => h_owner ?_⟩
      subst h_eq
      exact h.apart _ _ t (h.held t p h_t) h_slot

variable [DecidableEq O]

theorem cancel (h : Kept pending owner slot next) (o : O) :
    Kept (pending.cancel (slot o)) owner (Function.update slot o none) next := by
  have h_slot : ∀ o' t, Function.update slot o none o' = some t → slot o' = some t := by
    intro o' t h_t
    obtain ⟨-, h_none⟩ | ⟨-, h_old⟩ := update_eq_some h_t
    · simp at h_none
    · exact h_old
  constructor
  case held =>
    intro t p h_t
    obtain ⟨h_old, h_ne⟩ := (h.get?_cancel).mp h_t
    rw [Function.update_of_ne h_ne]
    exact h.held t p h_old
  case below => exact fun o' t h_t => h.below o' t (h_slot o' t h_t)
  case apart =>
    exact fun o₁ o₂ t h₁ h₂ => h.apart o₁ o₂ t (h_slot o₁ t h₁) (h_slot o₂ t h₂)

/-- Something is started for an owner that has nothing pending. -/
theorem start (h : Kept pending owner slot next)
    (h_free : ∀ t p', pending.get? t = some p' → owner p' ≠ owner p) :
    Kept (pending.set next p) owner (Function.update slot (owner p) (some next)) (next + 1) := by
  have h_slot : ∀ o t, Function.update slot (owner p) (some next) o = some t →
      o = owner p ∧ t = next ∨ t < next ∧ slot o = some t := by
    intro o t h_t
    obtain ⟨rfl, h_new⟩ | ⟨-, h_old⟩ := update_eq_some h_t
    · exact .inl ⟨rfl, (Option.some.inj h_new).symm⟩
    · exact .inr ⟨h.below o t h_old, h_old⟩
  constructor
  case held =>
    intro t p' h_t
    obtain ⟨rfl, rfl⟩ | ⟨-, h_old⟩ := Table.get?_set_eq_some h_t
    · exact Function.update_self ..
    · rw [Function.update_of_ne (h_free t p' h_old)]
      exact h.held t p' h_old
  case below =>
    intro o t h_t
    obtain ⟨-, rfl⟩ | ⟨h_lt, -⟩ := h_slot o t h_t
    · exact Nat.lt_succ_self _
    · exact Nat.lt_succ_of_lt h_lt
  case apart =>
    intro o o' t h_o h_o'
    obtain ⟨rfl, rfl⟩ | ⟨h_lt, h_o⟩ := h_slot o t h_o <;>
      obtain ⟨rfl, h_t⟩ | ⟨h_lt', h_o'⟩ := h_slot o' _ h_o'
    · rfl
    · exact absurd h_lt' (Nat.lt_irrefl _)
    · exact absurd h_lt (h_t ▸ Nat.lt_irrefl _)
    · exact h.apart o o' t h_o h_o'

end Kept
end Framework
