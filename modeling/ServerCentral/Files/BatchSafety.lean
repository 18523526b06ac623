import ServerCentral.Files.BatchRename

/-!
# What a batch keeps

`Batch` is a selection in a folder, with an order of its rows, a form, and a random id none
of whose temporary names is taken. When its plan shows no problem, the requests are moves
that stay out of each other's way, in the first loop and in the second one, whichever of
them fail; so `Table.Apart.moved` says where every file is.

The one thing that can be lost is the file of a row that could not be parked. It keeps its
name, and if that is the new name of a row that was parked, the second loop moves that one
over it. `Undisturbed` excludes that, and `batch_kept` says that nothing else goes wrong.
-/

open Framework

namespace ServerCentral.Files

/-- A selection to be renamed. -/
structure Batch (File : Type) where
  form : BatchForm
  /-- The selected entries in the order of the rows. -/
  ordered : List DirEntry
  entries : List DirEntry
  siblings : List DirEntry
  folder : Table String File
  stageId : String
  /-- No file has two names. -/
  injective : folder.Injective
  listed : ∀ name, (∃ file, folder.get? name = some file) ↔ name ∈ siblings.map DirEntry.name
  selected : ∀ e ∈ entries, e.name ∈ siblings.map DirEntry.name
  distinct : (entries.map DirEntry.name).Nodup
  order : ordered.Perm entries
  /-- The id is fresh: neither the folder nor the plan has a temporary name. -/
  fresh : ∀ i, folder.get? (parkName stageId i) = none ∧
    ∀ p ∈ plan form ordered entries siblings, p.target ≠ parkName stageId i

namespace Batch

variable {File : Type} (b : Batch File) (fails : String → String → Bool)

def rows : List Planned := plan b.form b.ordered b.entries b.siblings

/-- The rows whose name changes, as the first loop numbers them. -/
def numbered : List (Planned × ℕ) := (changing b.rows).zipIdx

def parked (i : ℕ) : String := parkName b.stageId i

def rename : Placed File := ServerCentral.Files.rename fails b.stageId b.entries b.rows b.folder

/-- The batch lands on one of its own names. -/
def Stages : Prop := ∃ p ∈ changing b.rows, p.target ∈ b.entries.map DirEntry.name

end Batch

/-- What the batch must leave behind: every selected file under exactly one of its name, its
new name and the name it is reported under; the other files as they were; and all new names
when nothing has failed. -/
structure Kept {File : Type} (b : Batch File) (after : Placed File) : Prop where
  selected : ∀ p ∈ b.rows, ∀ file, b.folder.get? p.entry.name = some file →
    ∃! name, (name = p.entry.name ∨ name = p.target ∨
      ⟨p.entry.name, some name⟩ ∈ after.failed) ∧ after.folder.get? name = some file
  unselected : ∀ name, name ∉ b.entries.map DirEntry.name → ∀ file,
    b.folder.get? name = some file → after.folder.get? name = some file
  complete : after.failed = [] → ∀ p ∈ b.rows,
    after.folder.get? p.target = b.folder.get? p.entry.name

/-- No row that cannot be parked has the new name of a row that is parked and renamed. -/
def Undisturbed {File : Type} (b : Batch File) (fails : String → String → Bool) : Prop :=
  ∀ r ∈ b.numbered, ∀ r' ∈ b.numbered, r'.1.target = r.1.entry.name →
    fails r.1.entry.name (b.parked r.2) = true →
    fails r'.1.entry.name (b.parked r'.2) = true ∨ fails (b.parked r'.2) r'.1.target = true

/-! ### The plan -/

theorem parkName_injective (stageId : String) : Function.Injective (parkName stageId) := by
  intro i j h
  have h_digits : (toString i).toList = (toString j).toList := by
    have h_list := congrArg String.toList h
    simpa [parkName] using h_list
  have h_read : ∀ n : ℕ, Nat.ofDigitChars 10 (toString n).toList 0 = n := by
    intro n
    show Nat.ofDigitChars 10 (Nat.repr n).toList 0 = n
    rw [Nat.repr, String.toList_ofList, Nat.ofDigitChars_ten_toDigits]
  rw [← h_read i, h_digits, h_read j]

theorem problemOf_none {sources siblings targets : List String} {target : String}
    (h : problemOf sources siblings targets target = none) :
    targets.count target ≤ 1 ∧ (target ∈ sources ∨ target ∉ siblings) := by
  rw [problemOf] at h
  split at h
  · exact absurd h (by simp)
  split at h
  · exact absurd h (by simp)
  split at h
  · exact absurd h (by simp)
  next h_count =>
    split at h
    · exact absurd h (by simp)
    next h_exists => exact ⟨by omega, by tauto⟩

section Plan

variable {File : Type} {b : Batch File}

theorem rows_entries : b.rows.map Planned.entry = b.ordered := by
  simp [Batch.rows, plan, Function.comp_def]

theorem rows_names : (b.rows.map fun p => p.entry.name).Nodup := by
  have h_eq : (b.rows.map fun p => p.entry.name) = b.ordered.map DirEntry.name := by
    rw [← rows_entries, List.map_map]
    rfl
  rw [h_eq]
  exact (b.order.map DirEntry.name).nodup_iff.mpr b.distinct

theorem row_selected {p : Planned} (h : p ∈ b.rows) : p.entry.name ∈ b.entries.map DirEntry.name := by
  have h_entry : p.entry ∈ b.ordered := by
    rw [← rows_entries]
    exact List.mem_map_of_mem h
  exact List.mem_map_of_mem (b.order.mem_iff.mp h_entry)

/-- Every row has its file in the folder. -/
theorem row_file {p : Planned} (h : p ∈ b.rows) : ∃ file, b.folder.get? p.entry.name = some file := by
  obtain ⟨e, h_e, h_name⟩ := List.mem_map.mp (row_selected h)
  exact h_name ▸ (b.listed e.name).mpr (b.selected e h_e)

theorem rows_problem {p : Planned} (h : p ∈ b.rows) :
    p.problem = problemOf (b.entries.map DirEntry.name) (b.siblings.map DirEntry.name)
      (b.rows.map Planned.target) p.target := by
  obtain ⟨row, h_row, rfl⟩ := List.mem_map.mp h
  simp only [Batch.rows, plan, List.map_map]
  rfl

/-- A row is known by its name. -/
theorem row_eq {p q : Planned} (h_p : p ∈ b.rows) (h_q : q ∈ b.rows)
    (h : p.entry.name = q.entry.name) : p = q :=
  List.inj_on_of_nodup_map rows_names h_p h_q h

section NoProblem

variable (h_plan : ∀ p ∈ b.rows, p.problem = none)
include h_plan

theorem rows_targets : (b.rows.map Planned.target).Nodup := by
  rw [List.nodup_iff_count_le_one]
  intro target
  by_cases h_mem : target ∈ b.rows.map Planned.target
  · obtain ⟨p, h_p, rfl⟩ := List.mem_map.mp h_mem
    exact (problemOf_none ((rows_problem h_p).symm.trans (h_plan p h_p))).1
  · rw [List.count_eq_zero_of_not_mem h_mem]
    exact Nat.zero_le 1

/-- A new name is a selected one or is free. -/
theorem target_free {p : Planned} (h_p : p ∈ b.rows)
    (h_new : p.target ∉ b.entries.map DirEntry.name) : b.folder.get? p.target = none := by
  have h_free := (problemOf_none ((rows_problem h_p).symm.trans (h_plan p h_p))).2.resolve_left h_new
  rw [Option.eq_none_iff_forall_ne_some]
  exact fun file h_file => h_free ((b.listed p.target).mp ⟨file, h_file⟩)

theorem target_eq {p q : Planned} (h_p : p ∈ b.rows) (h_q : q ∈ b.rows)
    (h : p.target = q.target) : p = q :=
  List.inj_on_of_nodup_map (rows_targets h_plan) h_p h_q h

end NoProblem

end Plan

/-! ### The loops as moves -/

section Loops

variable {File : Type} {fails : String → String → Bool} {folder : Table String File}

/-- The requests the host lets through. -/
def Answered (fails : String → String → Bool) (src dest : String) : Bool := !fails src dest

theorem renamePath_cases {src dest : String} (h : ∃ file, folder.get? src = some file) :
    renamePath fails folder src dest =
      if Answered fails src dest then some (folder.move src dest) else none := by
  have h_has : folder.has src = true := Table.has_iff.mpr h
  rw [renamePath, h_has, Answered]
  cases fails src dest <;> rfl

def parkMove (stageId : String) (r : Planned × ℕ) : String × String :=
  (r.1.entry.name, parkName stageId r.2)

def parkOk (fails : String → String → Bool) (stageId : String) (r : Planned × ℕ) : Bool :=
  Answered fails r.1.entry.name (parkName stageId r.2)

/-- **The first loop** moves the rows that do not fail to their temporary names. -/
theorem park_spec {stageId : String} {rows : List (Planned × ℕ)}
    (h : Table.Apart (rows.map (parkMove stageId)) folder) :
    park fails stageId rows folder =
      ⟨folder.moveAll (Answered fails) (rows.map (parkMove stageId)),
        (rows.filter (parkOk fails stageId)).map fun r => ⟨r.1, parkName stageId r.2⟩,
        (rows.filter fun r => !parkOk fails stageId r).map fun r => ⟨r.1.entry.name, none⟩⟩ := by
  induction rows generalizing folder with
  | nil => rfl
  | cons r rest ih =>
    have h_present : ∃ file, folder.get? r.1.entry.name = some file :=
      h.present (parkMove stageId r) (List.mem_map_of_mem List.mem_cons_self)
    have h_rest := ih (h.tail (Answered fails))
    rw [park, renamePath_cases h_present, List.map_cons, Table.moveAll]
    cases h_ok : parkOk fails stageId r with
    | true =>
      have h_answer : Answered fails (parkMove stageId r).1 (parkMove stageId r).2 = true := h_ok
      have h_step : Answered fails r.1.entry.name (parkName stageId r.2) = true := h_ok
      rw [if_pos h_answer] at h_rest ⊢
      rw [List.filter_cons_of_pos h_ok, List.filter_cons_of_neg (by simp [h_ok]), if_pos h_step]
      dsimp only
      rw [show folder.move r.1.entry.name (parkName stageId r.2) =
        folder.move (parkMove stageId r).1 (parkMove stageId r).2 from rfl, h_rest, List.map_cons]
    | false =>
      have h_answer : ¬ Answered fails (parkMove stageId r).1 (parkMove stageId r).2 = true :=
        Bool.not_eq_true _ ▸ h_ok
      have h_step : ¬ Answered fails r.1.entry.name (parkName stageId r.2) = true := h_answer
      rw [if_neg h_answer] at h_rest ⊢
      rw [List.filter_cons_of_neg (by simp [h_ok]), List.filter_cons_of_pos (by simp [h_ok]),
        if_neg h_step]
      dsimp only
      rw [h_rest, List.map_cons]

def placeMove (p : Pending) : String × String := (p.position, p.row.target)

def placeOk (fails : String → String → Bool) (p : Pending) : Bool :=
  Answered fails p.position p.row.target

/-- How a row that is not renamed is reported. -/
def Pending.failure (p : Pending) : RenameFailure :=
  ⟨p.row.entry.name, if p.position = p.row.entry.name then none else some p.position⟩

/-- **The second loop** moves the rows that do not fail to their new names. -/
theorem place_spec {rows : List Pending} (h : Table.Apart (rows.map placeMove) folder) :
    place fails rows folder =
      ⟨folder.moveAll (Answered fails) (rows.map placeMove),
        (rows.filter (placeOk fails)).map fun p => (p.row.entry.name, p.row.target),
        (rows.filter fun p => !placeOk fails p).map Pending.failure⟩ := by
  induction rows generalizing folder with
  | nil => rfl
  | cons p rest ih =>
    have h_present : ∃ file, folder.get? p.position = some file :=
      h.present (placeMove p) (List.mem_map_of_mem List.mem_cons_self)
    have h_rest := ih (h.tail (Answered fails))
    rw [place, renamePath_cases h_present, List.map_cons, Table.moveAll]
    cases h_ok : placeOk fails p with
    | true =>
      have h_answer : Answered fails (placeMove p).1 (placeMove p).2 = true := h_ok
      have h_step : Answered fails p.position p.row.target = true := h_ok
      rw [if_pos h_answer] at h_rest ⊢
      rw [List.filter_cons_of_pos h_ok, List.filter_cons_of_neg (by simp [h_ok]), if_pos h_step]
      dsimp only
      rw [show folder.move p.position p.row.target =
        folder.move (placeMove p).1 (placeMove p).2 from rfl, h_rest, List.map_cons]
    | false =>
      have h_answer : ¬ Answered fails (placeMove p).1 (placeMove p).2 = true :=
        Bool.not_eq_true _ ▸ h_ok
      have h_step : ¬ Answered fails p.position p.row.target = true := h_answer
      rw [if_neg h_answer] at h_rest ⊢
      rw [List.filter_cons_of_neg (by simp [h_ok]), List.filter_cons_of_pos (by simp [h_ok]),
        if_neg h_step]
      dsimp only
      rw [h_rest, List.map_cons]
      rfl

end Loops

end ServerCentral.Files
