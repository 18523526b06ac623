import Mathlib.Data.List.Basic

/-!
# A sequence in pieces

`Covers start xs final pieces` says that the pieces are a cut of `xs`, the first one at the
position `start`, each where the one before ends, and none of them final but the last one,
and that only when `final` says so. No piece is left out and none overlaps another one.

Cuts compose: a piece may be cut again (`Covers.flatMap`), and what follows a cut that is not
final goes on where it ends (`Covers.append`).
-/

namespace Framework

/-- A part of a sequence, with its position. -/
structure Piece (A : Type*) where
  offset : ℕ
  content : List A
  final : Bool
  deriving DecidableEq, Repr

inductive Covers {A : Type*} : ℕ → List A → Bool → List (Piece A) → Prop
  | nil (start : ℕ) : Covers start [] false []
  | last (start : ℕ) (xs : List A) : Covers start xs true [⟨start, xs, true⟩]
  | cons {start : ℕ} {rest : List A} {final : Bool} {pieces : List (Piece A)} (xs : List A)
      (h : Covers (start + xs.length) rest final pieces) :
      Covers start (xs ++ rest) final (⟨start, xs, false⟩ :: pieces)

namespace Covers

variable {A : Type*} {start : ℕ} {xs ys : List A} {final : Bool} {pieces pieces' : List (Piece A)}

/-! ### What a cut is -/

/-- Nothing is left out. -/
theorem content (h : Covers start xs final pieces) : (pieces.map Piece.content).flatten = xs := by
  induction h with
  | nil => rfl
  | last start xs => rw [List.map_singleton, List.flatten_singleton]
  | cons xs _ ih => rw [List.map_cons, List.flatten_cons, ih]

/-- Every piece is where the pieces before it end. -/
theorem offset (h : Covers start xs final pieces) {pre post : List (Piece A)} {p : Piece A}
    (h_eq : pieces = pre ++ p :: post) :
    p.offset = start + (pre.map Piece.content).flatten.length := by
  induction h generalizing pre with
  | nil => exact absurd h_eq (by simp)
  | last start xs =>
    cases pre with
    | nil =>
      obtain ⟨rfl, -⟩ := List.cons.inj h_eq
      rfl
    | cons q pre => exact absurd (List.cons.inj h_eq).2 (by simp)
  | @cons start rest final pieces xs h ih =>
    cases pre with
    | nil =>
      obtain ⟨rfl, -⟩ := List.cons.inj h_eq
      rfl
    | cons q pre =>
      obtain ⟨rfl, h_rest⟩ := List.cons.inj h_eq
      rw [ih h_rest, List.map_cons, List.flatten_cons, List.length_append, Nat.add_assoc]

/-- A final cut ends with its one final piece. -/
theorem final_last (h : Covers start xs final pieces) (h_final : final = true) :
    ∃ pre p, pieces = pre ++ [p] ∧ p.final = true ∧ ∀ q ∈ pre, q.final = false := by
  induction h with
  | nil => exact absurd h_final (by simp)
  | last start xs => exact ⟨[], _, rfl, rfl, by simp⟩
  | cons xs _ ih =>
    obtain ⟨pre, p, rfl, h_p, h_pre⟩ := ih h_final
    exact ⟨_ :: pre, p, rfl, h_p, List.forall_mem_cons.mpr ⟨rfl, h_pre⟩⟩

/-- A cut that is not final has no final piece. -/
theorem no_final (h : Covers start xs final pieces) (h_final : final = false) :
    ∀ p ∈ pieces, p.final = false := by
  induction h with
  | nil => exact fun p h_p => absurd h_p List.not_mem_nil
  | last => exact absurd h_final (by simp)
  | cons xs _ ih => exact List.forall_mem_cons.mpr ⟨rfl, ih h_final⟩

/-! ### Composition -/

/-- One cut after another. -/
theorem append (h : Covers start xs false pieces)
    (h' : Covers (start + xs.length) ys final pieces') :
    Covers start (xs ++ ys) final (pieces ++ pieces') := by
  generalize h_final : false = goesOn at h
  induction h with
  | nil => simpa using h'
  | last => exact absurd h_final (by simp)
  | @cons start rest goesOn pieces xs _ ih =>
    rw [List.append_assoc, List.cons_append]
    refine .cons xs (ih ?_ h_final)
    rwa [Nat.add_assoc, ← List.length_append]

/-- One more piece at the end. -/
theorem concat (h : Covers start xs false pieces) (ys : List A) (final : Bool) :
    Covers start (xs ++ ys) final (pieces ++ [⟨start + xs.length, ys, final⟩]) := by
  apply h.append
  cases final with
  | true => exact .last _ _
  | false =>
    have h_one := cons ys (nil (start + xs.length + ys.length))
    rwa [List.append_nil] at h_one

/-- **A cut of a cut.** -/
theorem flatMap {B : Type*} {f : B → Piece A} {g : B → List (Piece A)} {bs : List B}
    (h : Covers start xs final (bs.map f))
    (h_g : ∀ b ∈ bs, Covers (f b).offset (f b).content (f b).final (g b)) :
    Covers start xs final (bs.flatMap g) := by
  generalize h_pieces : bs.map f = pieces at h
  induction h generalizing bs with
  | nil =>
    obtain rfl := List.map_eq_nil_iff.mp h_pieces
    exact .nil _
  | last start xs =>
    obtain ⟨b, rfl, h_b⟩ := List.map_eq_singleton_iff.mp h_pieces
    have h_cut := h_g b List.mem_cons_self
    rw [h_b] at h_cut
    rw [List.flatMap_singleton]
    exact h_cut
  | cons xs _ ih =>
    obtain ⟨b, bs, rfl, h_b, h_bs⟩ := List.map_eq_cons_iff.mp h_pieces
    obtain ⟨h_cut, h_rest⟩ := List.forall_mem_cons.mp h_g
    rw [h_b] at h_cut
    rw [List.flatMap_cons]
    exact h_cut.append (ih h_rest h_bs)

end Covers
end Framework
