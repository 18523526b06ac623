import Mathlib.Data.List.Nodup
import Mathlib.Data.List.Count

/-!
# Insertion-ordered tables

A `Table K V` is a finite map that remembers the order in which its keys were
first inserted: what a JavaScript `Map`, or a record used as a dictionary, is.
The invariant that no key occurs twice is a field, so that a table cannot hold
two entries for one key.

`Table.mem_entries_iff` reads lookup as membership of the entry list. Every later
lemma about an operation is stated for `get?`, and the counting lemmas are stated
for `countP` over the values.
-/

namespace Framework

/-- A finite map with its keys in insertion order. -/
structure Table (K V : Type*) where
  entries : List (K × V)
  nodup : (entries.map Prod.fst).Nodup

namespace Table

variable {K V : Type*}

/-- The table without entries. -/
def empty : Table K V := ⟨[], List.nodup_nil⟩

instance : Inhabited (Table K V) := ⟨empty⟩

/-- The stored values, in insertion order. -/
def values (t : Table K V) : List V := t.entries.map Prod.snd

/-- The stored keys, in insertion order. -/
def keys (t : Table K V) : List K := t.entries.map Prod.fst

/-- Keep the entries that satisfy a predicate. -/
def filter (t : Table K V) (p : K → V → Bool) : Table K V :=
  ⟨t.entries.filter fun e => p e.1 e.2, (List.filter_sublist.map Prod.fst).nodup t.nodup⟩

/-- Change every value. -/
def map {W : Type*} (f : V → W) (t : Table K V) : Table K W :=
  ⟨t.entries.map fun e => (e.1, f e.2), by
    simpa [List.map_map, Function.comp_def] using t.nodup⟩

@[ext] theorem ext {t t' : Table K V} (h : t.entries = t'.entries) : t = t' := by
  cases t; cases t'; cases h; rfl

@[simp] theorem values_empty : (empty : Table K V).values = [] := rfl

@[simp] theorem entries_empty : (empty : Table K V).entries = [] := rfl

theorem mem_values {t : Table K V} {v : V} : v ∈ t.values ↔ ∃ k, (k, v) ∈ t.entries := by
  simp [values]

/-- Two entries under one key are one entry. -/
theorem entry_unique {t : Table K V} {k : K} {v v' : V} (h : (k, v) ∈ t.entries)
    (h' : (k, v') ∈ t.entries) : v = v' := by
  have h_eq := List.inj_on_of_nodup_map t.nodup h h' rfl
  exact (Prod.mk.inj h_eq).2

/-- Filtering with a predicate that holds of every value changes nothing. -/
theorem filter_eq_self {t : Table K V} {p : V → Bool} (h : ∀ v ∈ t.values, p v = true) :
    (t.filter fun _ v => p v) = t :=
  ext (List.filter_eq_self.mpr fun e he => h e.2 (mem_values.mpr ⟨e.1, he⟩))

section Lookup

variable [DecidableEq K]

/-- The value stored under a key. -/
def get? (t : Table K V) (k : K) : Option V :=
  (t.entries.find? fun e => decide (e.1 = k)).map Prod.snd

/-- Whether a key is stored. -/
def has (t : Table K V) (k : K) : Bool := (t.get? k).isSome

/-- Remove a key. -/
def erase (t : Table K V) (k : K) : Table K V := t.filter fun k' _ => decide (k' ≠ k)

/-- Change the value stored under a key in place; nothing happens when the key is
not stored. -/
def modify (t : Table K V) (k : K) (f : V → V) : Table K V :=
  ⟨t.entries.map fun e => (e.1, if e.1 = k then f e.2 else e.2), by
    simpa [List.map_map, Function.comp_def] using t.nodup⟩

theorem get?_eq_some_iff {t : Table K V} {k : K} {v : V} :
    t.get? k = some v ↔ (k, v) ∈ t.entries := by
  constructor
  · intro h
    obtain ⟨⟨k', v'⟩, h_find, rfl⟩ := Option.map_eq_some_iff.mp h
    have h_key : k' = k := by simpa using List.find?_some h_find
    exact h_key ▸ List.mem_of_find?_eq_some h_find
  · intro h
    cases h_find : t.entries.find? fun e => decide (e.1 = k) with
    | none => exact absurd (List.find?_eq_none.mp h_find _ h) (by simp)
    | some e =>
      have h_key : e.1 = k := by simpa using List.find?_some h_find
      have h_mem : (k, e.2) ∈ t.entries := h_key ▸ List.mem_of_find?_eq_some h_find
      rw [get?, h_find, Option.map_some, entry_unique h_mem h]

theorem get?_eq_none_iff {t : Table K V} {k : K} : t.get? k = none ↔ k ∉ t.keys := by
  rw [Option.eq_none_iff_forall_ne_some]
  constructor
  · intro h h_mem
    obtain ⟨⟨k', v⟩, h_e, rfl⟩ := List.mem_map.mp h_mem
    exact h v (get?_eq_some_iff.mpr h_e)
  · intro h v h_get
    exact h (List.mem_map.mpr ⟨(k, v), (get?_eq_some_iff).mp h_get, rfl⟩)

theorem get?_of_mem_values {t : Table K V} {v : V} : v ∈ t.values ↔ ∃ k, t.get? k = some v := by
  simp only [mem_values, get?_eq_some_iff]

/-- Store a value: in place when the key is stored, at the end otherwise. -/
def set (t : Table K V) (k : K) (v : V) : Table K V :=
  if h : k ∈ t.keys then t.modify k fun _ => v
  else ⟨t.entries ++ [(k, v)], by
    rw [List.map_append]
    exact List.nodup_append'.mpr ⟨t.nodup, List.nodup_singleton k, by simpa [keys] using h⟩⟩

theorem get?_map {W : Type*} (f : V → W) (t : Table K V) (k : K) :
    (t.map f).get? k = (t.get? k).map f := by
  simp only [get?, map, List.find?_map, Option.map_map, Function.comp_def]

@[simp] theorem get?_empty (k : K) : (empty : Table K V).get? k = none := rfl

theorem get?_filter {t : Table K V} {p : K → V → Bool} {k : K} {v : V} :
    (t.filter p).get? k = some v ↔ t.get? k = some v ∧ p k v = true := by
  simp only [get?_eq_some_iff, filter, List.mem_filter]

theorem get?_erase {t : Table K V} {k k' : K} {v : V} :
    (t.erase k).get? k' = some v ↔ t.get? k' = some v ∧ k' ≠ k := by
  simp only [erase, get?_filter, decide_eq_true_eq]

@[simp] theorem get?_erase_self (t : Table K V) (k : K) : (t.erase k).get? k = none := by
  rw [Option.eq_none_iff_forall_ne_some]
  intro v h
  exact (get?_erase.mp h).2 rfl

theorem get?_erase_of_ne {k k' : K} (t : Table K V) (h : k' ≠ k) :
    (t.erase k).get? k' = t.get? k' := by
  ext v
  rw [get?_erase]
  exact ⟨And.left, fun hv => ⟨hv, h⟩⟩

theorem get?_modify (t : Table K V) (k k' : K) (f : V → V) :
    (t.modify k f).get? k' = (t.get? k').map fun v => if k' = k then f v else v := by
  simp only [get?, modify, List.find?_map, Option.map_map]
  cases h : t.entries.find? fun e => decide (e.1 = k') with
  | none => simp [Function.comp_def, h]
  | some e =>
    have h_key : e.1 = k' := by simpa using List.find?_some h
    simp [Function.comp_def, h, h_key]

/-- A change that changes no value. -/
theorem modify_eq_self (t : Table K V) (k : K) {f : V → V} (h : ∀ v, f v = v) :
    t.modify k f = t := by
  apply ext
  simp only [modify, h, ite_self]
  exact List.map_id' t.entries

/-- Removing a key forgets what was last done to its value. -/
@[simp] theorem erase_modify (t : Table K V) (k : K) (f : V → V) :
    (t.modify k f).erase k = t.erase k := by
  apply ext
  simp only [erase, filter, modify]
  induction t.entries with
  | nil => rfl
  | cons e es ih =>
    by_cases hk : e.1 = k
    · simpa [hk] using ih
    · simpa [hk] using ih

/-- Removing a key forgets what was last stored under it. -/
@[simp] theorem erase_set (t : Table K V) (k : K) (v : V) : (t.set k v).erase k = t.erase k := by
  unfold set
  split
  · exact t.erase_modify k _
  · apply ext
    simp [erase, filter]

@[simp] theorem get?_set_self (t : Table K V) (k : K) (v : V) : (t.set k v).get? k = some v := by
  unfold set
  split
  · next h =>
    obtain ⟨w, hw⟩ : ∃ w, t.get? k = some w := by
      by_contra h_none
      push Not at h_none
      exact (get?_eq_none_iff).mp (Option.eq_none_iff_forall_ne_some.mpr h_none) h
    rw [get?_modify, hw, Option.map_some, if_pos rfl]
  · exact (get?_eq_some_iff).mpr (by simp)

theorem get?_set_of_ne {k k' : K} (t : Table K V) (v : V) (h : k' ≠ k) :
    (t.set k v).get? k' = t.get? k' := by
  unfold set
  split
  · rw [get?_modify]
    cases t.get? k' <;> simp [h]
  · ext w
    simp [get?_eq_some_iff, h]

theorem get?_set (t : Table K V) (k k' : K) (v : V) :
    (t.set k v).get? k' = if k' = k then some v else t.get? k' := by
  split
  · next h => rw [h, get?_set_self]
  · next h => exact get?_set_of_ne t v h

/-- What a lookup after `set` finds is the new value or was there before. -/
theorem get?_set_eq_some {t : Table K V} {k k' : K} {v w : V}
    (h : (t.set k v).get? k' = some w) : k' = k ∧ w = v ∨ k' ≠ k ∧ t.get? k' = some w := by
  rw [get?_set] at h
  split at h
  · next hk => exact .inl ⟨hk, (Option.some.inj h).symm⟩
  · next hk => exact .inr ⟨hk, h⟩

theorem has_iff {t : Table K V} {k : K} : t.has k = true ↔ ∃ v, t.get? k = some v :=
  Option.isSome_iff_exists

theorem has_set (t : Table K V) (k k' : K) (v : V) :
    (t.set k v).has k' = (decide (k' = k) || t.has k') := by
  rw [has, has, get?_set]
  by_cases h : k' = k <;> simp [h]

theorem has_erase (t : Table K V) (k k' : K) :
    (t.erase k).has k' = (!decide (k' = k) && t.has k') := by
  rw [has, has]
  by_cases h : k' = k
  · simp [h]
  · rw [get?_erase_of_ne t h]
    simp [h]

/-! ### Keys -/

/-- Storing under a stored key keeps the keys. -/
theorem keys_set_of_mem {t : Table K V} {k : K} (v : V) (h : k ∈ t.keys) :
    (t.set k v).keys = t.keys := by
  unfold set
  rw [dif_pos h]
  simp [keys, modify, Function.comp_def]

theorem keys_set_of_fresh {t : Table K V} {k : K} (v : V) (h : k ∉ t.keys) :
    (t.set k v).keys = t.keys ++ [k] := by
  unfold set
  rw [dif_neg h]
  simp [keys]

theorem keys_erase (t : Table K V) (k : K) : (t.erase k).keys = t.keys.erase k := by
  rw [List.Nodup.erase_eq_filter (show t.keys.Nodup from t.nodup)]
  simp only [keys, erase, filter, List.filter_map]
  congr 1
  refine List.filter_congr fun e _ => ?_
  by_cases h : e.1 = k <;> simp [h]

/-! ### Counting values -/

omit [DecidableEq K] in
theorem countP_values (t : Table K V) (q : V → Bool) :
    t.values.countP q = t.entries.countP fun e => q e.2 := by
  rw [values, List.countP_map]
  rfl

omit [DecidableEq K] in
/-- Filtering does not raise a count. -/
theorem countP_filter_le (t : Table K V) (p : K → V → Bool) (q : V → Bool) :
    (t.filter p).values.countP q ≤ t.values.countP q := by
  rw [countP_values, countP_values]
  exact List.filter_sublist.countP_le

/-- Removing a key does not raise a count. -/
theorem countP_erase_le (t : Table K V) (k : K) (q : V → Bool) :
    (t.erase k).values.countP q ≤ t.values.countP q :=
  countP_filter_le t _ q

/-- A stored value adds to a count what it is. -/
theorem countP_eq_erase {t : Table K V} {k : K} {v : V} (q : V → Bool) (h : t.get? k = some v) :
    t.values.countP q = (t.erase k).values.countP q + if q v then 1 else 0 := by
  have h_list : ∀ l : List (K × V), (l.map Prod.fst).Nodup → (k, v) ∈ l →
      l.countP (fun e => q e.2) = (l.filter fun e => decide (e.1 ≠ k)).countP (fun e => q e.2) +
        if q v then 1 else 0 := by
    intro l h_nodup h_mem
    induction l with
    | nil => exact absurd h_mem List.not_mem_nil
    | cons e es ih =>
      obtain ⟨h_new, h_nodup⟩ := List.nodup_cons.mp h_nodup
      obtain rfl | h_mem := List.mem_cons.mp h_mem
      · have h_rest : es.filter (fun e => decide (e.1 ≠ k)) = es := by
          refine List.filter_eq_self.mpr fun e h_e => decide_eq_true ?_
          rintro rfl
          exact h_new (List.mem_map.mpr ⟨e, h_e, rfl⟩)
        rw [List.filter_cons_of_neg (by simp), h_rest, List.countP_cons]
      · have h_ne : e.1 ≠ k := by
          rintro rfl
          exact h_new (List.mem_map.mpr ⟨_, h_mem, rfl⟩)
        rw [List.filter_cons_of_pos (by simpa using h_ne), List.countP_cons, List.countP_cons,
          ih h_nodup h_mem]
        omega
  rw [countP_values, countP_values]
  exact h_list t.entries t.nodup (get?_eq_some_iff.mp h)

theorem countP_set (t : Table K V) (k : K) (v : V) (q : V → Bool) :
    (t.set k v).values.countP q = (t.erase k).values.countP q + if q v then 1 else 0 := by
  rw [countP_eq_erase q (t.get?_set_self k v), erase_set]

/-- Removing a key that is not stored changes nothing. -/
theorem erase_of_fresh {t : Table K V} {k : K} (h : t.get? k = none) : t.erase k = t := by
  apply ext
  refine List.filter_eq_self.mpr fun e h_e => decide_eq_true ?_
  rintro rfl
  exact (get?_eq_none_iff).mp h (List.mem_map_of_mem h_e)

/-- A change under which no value starts to satisfy `q` does not raise its count. -/
theorem countP_modify_le (t : Table K V) (k : K) (f : V → V) (q : V → Bool)
    (h : ∀ v, t.get? k = some v → q (f v) = true → q v = true) :
    (t.modify k f).values.countP q ≤ t.values.countP q := by
  rw [countP_values, countP_values, modify, List.countP_map]
  refine List.countP_mono_left fun e he hq => ?_
  simp only [Function.comp_apply] at hq
  split at hq
  · next hk => exact h e.2 (get?_eq_some_iff.mpr (hk ▸ he)) hq
  · exact hq

/-- A fresh key adds its own value to a count. -/
theorem countP_set_of_fresh (t : Table K V) (k : K) (v : V) (q : V → Bool)
    (h : t.get? k = none) :
    (t.set k v).values.countP q = t.values.countP q + if q v then 1 else 0 := by
  have h_key : k ∉ t.keys := (get?_eq_none_iff).mp h
  rw [countP_values, countP_values, set, dif_neg h_key, List.countP_append,
    List.countP_singleton]

end Lookup

end Table
end Framework
