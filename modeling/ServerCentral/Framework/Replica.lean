import Mathlib.Data.List.Nodup

/-!
# A replica that is fed by changes

A source sends its rows, and later every row that it changes, over a channel that keeps the order.
The replica replaces all its rows, or puts the changed one in front. `Tracks` says that for a key
the replica has the source's row once it has received all that is under way. It does not matter
what the replica has before it receives all rows.
-/

namespace Framework

variable {R K : Type*}

inductive Change (R : Type*) where
  | reset (rows : List R)
  | put (row : R)

section Rows

variable [DecidableEq K] (key : R → K)

def applyChange (rows : List R) : Change R → List R
  | .reset rows => rows
  | .put row => row :: rows.filter fun r => key r ≠ key row

/-- The rows once all changes have been received. -/
def applyAll (rows : List R) (changes : List (Change R)) : List R :=
  changes.foldl (applyChange key) rows

/-- The first row of a key. -/
def rowOf (rows : List R) (k : K) : Option R := rows.find? fun r => key r = k

variable {key} {rows : List R} {row r : R} {k : K}

theorem rowOf_put_self (rows : List R) (row : R) :
    rowOf key (applyChange key rows (.put row)) (key row) = some row := by
  simp [rowOf, applyChange]

theorem rowOf_put_of_ne (rows : List R) (h : k ≠ key row) :
    rowOf key (applyChange key rows (.put row)) k = rowOf key rows k := by
  rw [rowOf, applyChange, List.find?_cons_of_neg (by simpa using Ne.symm h), List.find?_filter,
    rowOf]
  congr 1
  funext r
  by_cases h_r : key r = k
  · simp [h_r, h]
  · simp [h_r]

theorem rowOf_key (h : rowOf key rows k = some r) : key r = k := by
  simpa using List.find?_some h

theorem rowOf_of_mem (h_nodup : (rows.map key).Nodup) (h_mem : r ∈ rows) :
    rowOf key rows (key r) = some r := by
  obtain ⟨r', h_find⟩ : ∃ r', rowOf key rows (key r) = some r' := by
    rw [← Option.isSome_iff_exists, rowOf, List.find?_isSome]
    exact ⟨r, h_mem, by simp⟩
  have h_mem' : r' ∈ rows := List.mem_of_find?_eq_some h_find
  rw [h_find, List.inj_on_of_nodup_map h_nodup h_mem' h_mem (rowOf_key h_find)]

theorem applyAll_snoc (rows : List R) (changes : List (Change R)) (c : Change R) :
    applyAll key rows (changes ++ [c]) = applyChange key (applyAll key rows changes) c := by
  simp [applyAll]

/-- For a key, the replica comes to a row. -/
def Tracks (key : R → K) (rows : List R) (changes : List (Change R)) (k : K) (row : R) : Prop :=
  rowOf key (applyAll key rows changes) k = some row

/-- What has been received counts as before. -/
theorem tracks_cons {c : Change R} {changes : List (Change R)} :
    Tracks key rows (c :: changes) k row ↔ Tracks key (applyChange key rows c) changes k row :=
  Iff.rfl

theorem tracks_put_self (rows : List R) (changes : List (Change R)) (row : R) :
    Tracks key rows (changes ++ [.put row]) (key row) row := by
  rw [Tracks, applyAll_snoc]
  exact rowOf_put_self _ row

theorem Tracks.put {changes : List (Change R)} {row' : R} (h : Tracks key rows changes k row)
    (h_ne : k ≠ key row') : Tracks key rows (changes ++ [.put row']) k row := by
  rw [Tracks, applyAll_snoc, rowOf_put_of_ne _ h_ne]
  exact h

theorem tracks_reset {all : List R} (rows : List R) (h_nodup : (all.map key).Nodup)
    (h_mem : row ∈ all) : Tracks key rows [.reset all] (key row) row :=
  rowOf_of_mem h_nodup h_mem

end Rows
end Framework
