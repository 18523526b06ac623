import Mathlib.Data.List.DropRight
import ServerCentral.Framework.Table

/-!
# Keeping the last entries

A bounded log keeps its last `n` entries: `List.rtake n`. Trimming after every addition
keeps the same entries as trimming at the end (`rtake_rtake_append`), and what is kept is
closed under "later" (`mem_rtake_of_later`).

`Table.keepLast` is the same on a table, whose entries are in the order of insertion.
-/

namespace Framework

variable {α : Type*}

theorem rtake_of_length_le {l : List α} {n : ℕ} (h : l.length ≤ n) : l.rtake n = l := by
  rw [List.rtake, Nat.sub_eq_zero_of_le h, List.drop_zero]

theorem length_rtake (l : List α) (n : ℕ) : (l.rtake n).length = min n l.length := by
  rw [List.rtake, List.length_drop]
  omega

/-- **Trimming early.** -/
theorem rtake_rtake_append (l m : List α) (n : ℕ) :
    (l.rtake n ++ m).rtake n = (l ++ m).rtake n := by
  have h_len := length_rtake l n
  simp only [List.rtake] at h_len ⊢
  rw [List.length_append, h_len, List.length_append, List.drop_append, List.drop_append,
    List.drop_drop, h_len]
  congr 1
  · congr 1
    omega
  · congr 1
    omega

theorem map_rtake {β : Type*} (f : α → β) (l : List α) (n : ℕ) :
    (l.rtake n).map f = (l.map f).rtake n := by
  rw [List.rtake, List.rtake, List.map_drop, List.length_map]

theorem rtake_subset (l : List α) (n : ℕ) : l.rtake n ⊆ l := List.drop_subset _ l

/-- What comes later than an entry that is kept is kept. -/
theorem mem_rtake_of_later {l : List α} {n : ℕ} {a b : α} (h_nodup : l.Nodup)
    (h_later : List.Sublist [a, b] l) (h : a ∈ l.rtake n) : b ∈ l.rtake n := by
  have h_split : l.take (l.length - n) ++ l.rtake n = l := List.take_append_drop _ l
  rw [← h_split] at h_later h_nodup
  obtain ⟨l₁, l₂, h_eq, h_l₁, h_l₂⟩ := List.sublist_append_iff.mp h_later
  cases l₁ with
  | nil =>
    obtain rfl : [a, b] = l₂ := h_eq
    exact h_l₂.subset (by simp)
  | cons a' l₁ =>
    obtain rfl : a = a' := (List.cons.inj h_eq).1
    have h_dropped : a ∈ l.take (l.length - n) := h_l₁.subset List.mem_cons_self
    exact absurd h ((List.nodup_append'.mp h_nodup).2.2 h_dropped)

namespace Table

variable {K V : Type*}

/-- The entries that were inserted last. -/
def keepLast (t : Table K V) (n : ℕ) : Table K V :=
  ⟨t.entries.rtake n, ((List.drop_sublist _ _).map Prod.fst).nodup t.nodup⟩

theorem keys_keepLast (t : Table K V) (n : ℕ) : (t.keepLast n).keys = t.keys.rtake n :=
  map_rtake Prod.fst t.entries n

theorem keepLast_of_length_le {t : Table K V} {n : ℕ} (h : t.entries.length ≤ n) :
    t.keepLast n = t :=
  ext (rtake_of_length_le h)

variable [DecidableEq K]

theorem get?_keepLast {t : Table K V} {n : ℕ} {k : K} (h : k ∈ t.keys.rtake n) :
    (t.keepLast n).get? k = t.get? k := by
  rw [← keys_keepLast] at h
  obtain ⟨⟨k', v⟩, h_entry, rfl⟩ := List.mem_map.mp h
  have h_old : (k', v) ∈ t.entries := rtake_subset t.entries n h_entry
  rw [get?_eq_some_iff.mpr h_entry, get?_eq_some_iff.mpr h_old]

/-- What is kept was there. -/
theorem get?_of_keepLast {t : Table K V} {n : ℕ} {k : K} {v : V}
    (h : (t.keepLast n).get? k = some v) : t.get? k = some v :=
  get?_eq_some_iff.mpr (rtake_subset t.entries n (get?_eq_some_iff.mp h))

end Table
end Framework
