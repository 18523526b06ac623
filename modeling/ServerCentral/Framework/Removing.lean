import Mathlib.Data.List.Basic

/-!
# Removing what matches

`matchLength` says how much of a list matches at its beginning, nothing if it is zero. Reading from
left to right, `removeMatches` leaves out what matches, as a global replacement by the empty text
does, and `matched` is what it leaves out.
-/

namespace Framework

variable {α β : Type*} {matchLength : List α → ℕ}

/-- Remove what matches after the elements of a match that are read already. -/
def removeFrom (matchLength : List α → ℕ) : ℕ → List α → List α
  | _, [] => []
  | read + 1, _ :: rest => removeFrom matchLength read rest
  | 0, a :: rest =>
    if matchLength (a :: rest) = 0 then a :: removeFrom matchLength 0 rest
    else removeFrom matchLength (matchLength (a :: rest) - 1) rest

def removeMatches (matchLength : List α → ℕ) (l : List α) : List α := removeFrom matchLength 0 l

def matchedFrom (matchLength : List α → ℕ) : ℕ → List α → List α
  | _, [] => []
  | read + 1, a :: rest => a :: matchedFrom matchLength read rest
  | 0, a :: rest =>
    if matchLength (a :: rest) = 0 then matchedFrom matchLength 0 rest
    else a :: matchedFrom matchLength (matchLength (a :: rest) - 1) rest

def matched (matchLength : List α → ℕ) (l : List α) : List α := matchedFrom matchLength 0 l

theorem removeFrom_length (read rest : List α) :
    removeFrom matchLength read.length (read ++ rest) = removeMatches matchLength rest := by
  induction read with
  | nil => rfl
  | cons a read ih => exact ih

/-- A match is removed. -/
theorem removeMatches_match {piece : List α} (h_some : piece ≠ []) {rest : List α}
    (h : matchLength (piece ++ rest) = piece.length) :
    removeMatches matchLength (piece ++ rest) = removeMatches matchLength rest := by
  obtain ⟨a, piece, rfl⟩ := List.exists_cons_of_ne_nil h_some
  rw [List.cons_append] at h ⊢
  rw [removeMatches, removeFrom, h, if_neg (by simp), List.length_cons, Nat.add_sub_cancel]
  exact removeFrom_length piece rest

theorem removeMatches_keep {a : α} {rest : List α} (h : matchLength (a :: rest) = 0) :
    removeMatches matchLength (a :: rest) = a :: removeMatches matchLength rest := by
  rw [removeMatches, removeFrom, if_pos h]
  rfl

/-- Elements at which nothing matches stay. -/
theorem removeMatches_append {kept : List α} (h : ∀ a ∈ kept, ∀ rest, matchLength (a :: rest) = 0)
    (rest : List α) :
    removeMatches matchLength (kept ++ rest) = kept ++ removeMatches matchLength rest := by
  induction kept with
  | nil => rfl
  | cons a kept ih =>
    have h_rest := ih fun b h_b => h b (List.mem_cons_of_mem _ h_b)
    rw [List.cons_append, removeMatches_keep (h a List.mem_cons_self _), h_rest, List.cons_append]

/-- **Removing what has no effect** changes no fold. -/
theorem foldl_removeMatches {f : β → α → β} {l : List α}
    (h : ∀ a ∈ matched matchLength l, ∀ b, f b a = b) (b : β) :
    (removeMatches matchLength l).foldl f b = l.foldl f b := by
  have h_from : ∀ read, (∀ a ∈ matchedFrom matchLength read l, ∀ b, f b a = b) → ∀ b,
      (removeFrom matchLength read l).foldl f b = l.foldl f b := by
    clear h
    induction l with
    | nil => exact fun _ _ _ => by rw [removeFrom]
    | cons a rest ih =>
      intro read h b
      cases read with
      | succ read =>
        rw [matchedFrom] at h
        rw [removeFrom, List.foldl_cons, h a List.mem_cons_self]
        exact ih read (fun c h_c => h c (List.mem_cons_of_mem _ h_c)) b
      | zero =>
        rw [matchedFrom] at h
        rw [removeFrom, List.foldl_cons]
        split at h
        next h_zero =>
          rw [if_pos h_zero, List.foldl_cons]
          exact ih 0 h _
        next h_match =>
          rw [if_neg h_match, h a List.mem_cons_self]
          exact ih _ (fun c h_c => h c (List.mem_cons_of_mem _ h_c)) b
  exact h_from 0 h b

end Framework
