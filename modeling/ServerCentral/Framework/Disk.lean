import ServerCentral.Framework.Moves

/-!
# Files and their names

A `Disk` separates what a file is called from what it holds: a handle keeps writing to its
file whatever happens to the name. `create` is exclusive and numbers a new file, `append`
writes to a file, `rename` replaces what has the new name, and `unlink` takes a name away.

`Sole d k n` says that `k`, and no other name, stands for the file `n`. Until `k` itself is
renamed or removed, or another file is renamed to it, that stays so.
-/

namespace Framework

/-- Named files with contents over `A`. -/
structure Disk (K A : Type*) [DecidableEq K] where
  names : Table K ℕ
  data : ℕ → List A
  /-- The number of the next file. -/
  next : ℕ
  old : ∀ k n, names.get? k = some n → n < next

namespace Disk

variable {K A : Type*} [DecidableEq K]

def read (d : Disk K A) (k : K) : Option (List A) := (d.names.get? k).map d.data

/-- Create an empty file if the name is free. -/
def create (d : Disk K A) (k : K) : Option (Disk K A × ℕ) :=
  if d.names.has k then none else
    some ({
      names := d.names.set k d.next
      data := Function.update d.data d.next []
      next := d.next + 1
      old := by
        intro k' n h
        obtain ⟨-, rfl⟩ | ⟨-, h⟩ := Table.get?_set_eq_some h
        · exact Nat.lt_succ_self _
        · exact Nat.lt_succ_of_lt (d.old k' n h) }, d.next)

def append (d : Disk K A) (n : ℕ) (xs : List A) : Disk K A :=
  { d with data := Function.update d.data n (d.data n ++ xs) }

/-- Remove a name, if it is there. -/
def unlink (d : Disk K A) (k : K) : Disk K A :=
  { d with
    names := d.names.erase k
    old := fun k' n h => d.old k' n (Table.get?_erase.mp h).1 }

/-- Give a file another name. -/
def rename (d : Disk K A) (a b : K) : Option (Disk K A) :=
  if d.names.has a then
    some { d with
      names := d.names.move a b
      old := by
        intro k n h
        obtain ⟨-, h⟩ | h := Table.move_value h
        · exact d.old a n h
        · exact d.old k n h }
  else none

variable {d d' : Disk K A} {k k' : K} {n : ℕ}

/-! ### What is read -/

theorem read_eq_some {xs : List A} :
    d.read k = some xs ↔ ∃ n, d.names.get? k = some n ∧ d.data n = xs := by
  rw [read, Option.map_eq_some_iff]

/-- Two disks that agree on a name and on its file. -/
theorem read_congr (h : d'.names.get? k = d.names.get? k)
    (h_data : ∀ n, d.names.get? k = some n → d'.data n = d.data n) : d'.read k = d.read k := by
  rw [read, read, h]
  cases h_k : d.names.get? k with
  | none => rfl
  | some n => exact congrArg some (h_data n h_k)

/-- What an exclusive creation does. -/
theorem create_eq_some (h : d.create k = some (d', n)) :
    d.names.get? k = none ∧ n = d.next ∧ d'.names = d.names.set k n ∧ d'.data n = [] ∧
      ∀ m, m ≠ n → d'.data m = d.data m := by
  rw [create] at h
  split at h
  · exact absurd h (by simp)
  next h_free =>
    obtain ⟨rfl, rfl⟩ := Prod.mk.inj (Option.some.inj h)
    refine ⟨?_, rfl, rfl, Function.update_self _ _ _, fun m h_m => Function.update_of_ne h_m _ _⟩
    rw [Table.has, Bool.not_eq_true, Option.isSome_eq_false_iff, Option.isNone_iff_eq_none] at h_free
    exact h_free

theorem read_create (h : d.create k = some (d', n)) (h_ne : k' ≠ k) : d'.read k' = d.read k' := by
  obtain ⟨-, rfl, h_names, -, h_data⟩ := create_eq_some h
  apply read_congr
  · rw [h_names, Table.get?_set_of_ne _ _ h_ne]
  · exact fun m h_m => h_data m (Nat.ne_of_lt (d.old k' m h_m))

theorem append_data (d : Disk K A) (n : ℕ) (xs : List A) : (d.append n xs).data n = d.data n ++ xs :=
  Function.update_self _ _ _

theorem append_data_of_ne (d : Disk K A) {n m : ℕ} (xs : List A) (h : m ≠ n) :
    (d.append n xs).data m = d.data m :=
  Function.update_of_ne h _ _

@[simp] theorem append_nil (d : Disk K A) (n : ℕ) : d.append n [] = d := by
  rw [append, List.append_nil, Function.update_eq_self]

theorem read_unlink (h_ne : k' ≠ k) : (d.unlink k).read k' = d.read k' :=
  read_congr (Table.get?_erase_of_ne _ h_ne) fun _ _ => rfl

theorem rename_eq_some {b : K} (h : d.rename k b = some d') :
    d'.names = d.names.move k b ∧ d'.data = d.data := by
  rw [rename] at h
  split at h
  · obtain rfl := Option.some.inj h
    exact ⟨rfl, rfl⟩
  · exact absurd h (by simp)

/-! ### Files with one name -/

/-- The file `n` has the name `k` and no other. -/
structure Sole (d : Disk K A) (k : K) (n : ℕ) : Prop where
  named : d.names.get? k = some n
  only : ∀ k', d.names.get? k' = some n → k' = k

/-- Writing to a file with one name changes what is read there only. -/
theorem Sole.read_append (h : d.Sole k n) (xs : List A) (h_ne : k' ≠ k) :
    (d.append n xs).read k' = d.read k' := by
  have h_name : (d.append n xs).names.get? k' = d.names.get? k' := rfl
  refine read_congr h_name fun m h_m => append_data_of_ne d xs ?_
  rintro rfl
  exact h_ne (h.only k' h_m)

theorem Sole.read (h : d.Sole k n) : d.read k = some (d.data n) := by
  rw [Disk.read, h.named, Option.map_some]

theorem Sole.of_create (h : d.create k = some (d', n)) : d'.Sole k n := by
  obtain ⟨-, rfl, h_names, -⟩ := create_eq_some h
  refine ⟨by rw [h_names, Table.get?_set_self], fun k' h_k' => ?_⟩
  rw [h_names] at h_k'
  obtain ⟨h_eq, -⟩ | ⟨-, h_old⟩ := Table.get?_set_eq_some h_k'
  · exact h_eq
  · exact absurd (d.old k' _ h_old) (Nat.lt_irrefl _)

theorem Sole.append (h : d.Sole k n) (m : ℕ) (xs : List A) : (d.append m xs).Sole k n :=
  ⟨h.named, h.only⟩

/-- A name that stands for a file stays when another one is created. -/
theorem Sole.create {m : ℕ} (h : d.Sole k n) (h_create : d.create k' = some (d', m)) :
    d'.Sole k n := by
  obtain ⟨h_free, rfl, h_names, -⟩ := create_eq_some h_create
  have h_ne : k ≠ k' := by
    rintro rfl
    exact absurd (h.named.symm.trans h_free) (by simp)
  refine ⟨by rw [h_names, Table.get?_set_of_ne _ _ h_ne, h.named], fun k₁ h_k₁ => ?_⟩
  rw [h_names] at h_k₁
  obtain ⟨-, h_next⟩ | ⟨-, h_old⟩ := Table.get?_set_eq_some h_k₁
  · exact absurd (d.old k n h.named) (h_next ▸ Nat.lt_irrefl _)
  · exact h.only k₁ h_old

theorem Sole.unlink (h : d.Sole k n) (h_ne : k ≠ k') : (d.unlink k').Sole k n := by
  refine ⟨(Table.get?_erase_of_ne _ h_ne).trans h.named, fun k₁ h_k₁ => ?_⟩
  exact h.only k₁ (Table.get?_erase.mp h_k₁).1

/-- A name stays when another file is renamed to another name. -/
theorem Sole.rename {a b : K} (h : d.Sole k n) (h_rename : d.rename a b = some d') (h_a : k ≠ a)
    (h_b : k ≠ b) : d'.Sole k n := by
  obtain ⟨h_names, -⟩ := rename_eq_some h_rename
  refine ⟨by rw [h_names, Table.move_other h_a h_b, h.named], fun k₁ h_k₁ => ?_⟩
  rw [h_names] at h_k₁
  obtain ⟨-, h_from⟩ | h_old := Table.move_value h_k₁
  · exact absurd (h.only a h_from).symm h_a
  · exact h.only k₁ h_old

/-- What the new name reads is what the old one read, and no other name changes. -/
theorem read_rename {b : K} {xs : List A} (h : d.rename k b = some d') (h_k : d.read k = some xs)
    (h_ne : k ≠ b) :
    d'.read b = some xs ∧ d'.names.get? k = none ∧ ∀ k', k' ≠ k → k' ≠ b → d'.read k' = d.read k' := by
  obtain ⟨h_names, h_data⟩ := rename_eq_some h
  obtain ⟨n, h_n, rfl⟩ := (read_eq_some).mp h_k
  refine ⟨?_, by rw [h_names, Table.move_source h_n h_ne], fun k' h_a h_b => ?_⟩
  · rw [read, h_names, Table.move_target h_n, Option.map_some, h_data]
  · exact read_congr (by rw [h_names, Table.move_other h_a h_b]) fun m _ => by rw [h_data]

end Disk
end Framework
