import ServerCentral.Files.BatchSafety

/-!
# The two ways of renaming a batch

A batch that does not land on its own names renames its rows in one loop, and keeps every
file (`kept_direct`). One that does parks them first. `Parked` says what the second loop
leaves, over what the first one left (`between_parked`, `between_other`).
-/

open Framework

namespace ServerCentral.Files

/-! ### Without parking -/

section Direct

variable {File : Type} {b : Batch File} {fails : String → String → Bool}

theorem changing_row {p : Planned} (h : p ∈ changing b.rows) :
    p ∈ b.rows ∧ p.target ≠ p.entry.name := by
  obtain ⟨h_row, h_ne⟩ := List.mem_filter.mp h
  exact ⟨h_row, by simpa using h_ne⟩

theorem not_changing {p : Planned} (h_row : p ∈ b.rows) (h : p ∉ changing b.rows) :
    p.target = p.entry.name := by
  by_contra h_ne
  exact h (List.mem_filter.mpr ⟨h_row, by simpa using h_ne⟩)

theorem stages_iff :
    ((changing b.rows).any fun p => (b.entries.map DirEntry.name).contains p.target) = true ↔
      b.Stages := by
  simp only [List.any_eq_true, List.contains_iff_mem, Batch.Stages]

/-- In a folder without a file under two names, a file is under one name at most. -/
theorem one_name {t : Table String File} (h : t.Injective) {P : String → Prop} {file : File}
    {name : String} (h_name : P name) (h_file : t.get? name = some file) :
    ∃! name, P name ∧ t.get? name = some file :=
  ⟨name, ⟨h_name, h_file⟩, fun other h_other => h other name file h_other.2 h_file⟩

/-- The rows that are renamed from their own names. -/
def Batch.direct (b : Batch File) : List Pending :=
  (changing b.rows).map fun p => ⟨p, p.entry.name⟩

section NotStaged

variable (h_plan : ∀ p ∈ b.rows, p.problem = none) (h_stages : ¬ b.Stages)
include h_plan h_stages

theorem direct_apart : Table.Apart (b.direct.map placeMove) b.folder := by
  have h_sub : (changing b.rows).Sublist b.rows := List.filter_sublist
  constructor
  case sources =>
    rw [Batch.direct, List.map_map, List.map_map]
    exact rows_names.sublist (h_sub.map _)
  case targets =>
    rw [Batch.direct, List.map_map, List.map_map]
    exact (rows_targets h_plan).sublist (h_sub.map _)
  case disjoint =>
    simp only [Batch.direct, List.map_map, List.forall_mem_map]
    intro p h_p q h_q (h_eq : p.entry.name = q.target)
    exact h_stages ⟨q, h_q, h_eq ▸ row_selected (changing_row h_p).1⟩
  case present =>
    simp only [Batch.direct, List.map_map, List.forall_mem_map]
    exact fun p h_p => row_file (changing_row h_p).1

theorem rename_direct : b.rename fails =
    ⟨b.folder.moveAll (Answered fails) (b.direct.map placeMove),
      (b.direct.filter (placeOk fails)).map fun p => (p.row.entry.name, p.row.target),
      (b.direct.filter fun p => !placeOk fails p).map Pending.failure⟩ := by
  rw [Batch.rename, rename, if_neg (mt (stages_iff).mp h_stages)]
  exact place_spec (direct_apart h_plan h_stages)

/-- A batch that does not land on its own names keeps every file, whatever fails. -/
theorem kept_direct : Kept b (b.rename fails) := by
  have h_moved : Table.Moved (Answered fails) (b.direct.map placeMove) b.folder
      (b.folder.moveAll (Answered fails) (b.direct.map placeMove)) :=
    (direct_apart h_plan h_stages).moved
  have h_injective := b.injective.moveAll (Answered fails) (b.direct.map placeMove)
  rw [rename_direct h_plan h_stages]
  generalize b.folder.moveAll (Answered fails) (b.direct.map placeMove) = after at h_moved h_injective
  have h_target : ∀ p ∈ changing b.rows, Answered fails p.entry.name p.target = true →
      after.get? p.target = b.folder.get? p.entry.name := by
    intro p h_p h_ok
    exact h_moved.target (placeMove ⟨p, p.entry.name⟩)
      (List.mem_map_of_mem (List.mem_map_of_mem h_p)) h_ok
  have h_other : ∀ k, (∀ p ∈ changing b.rows, Answered fails p.entry.name p.target = true →
      k ≠ p.entry.name ∧ k ≠ p.target) → after.get? k = b.folder.get? k := by
    intro k h_k
    apply h_moved.other
    simp only [Batch.direct, List.map_map, List.forall_mem_map]
    exact h_k
  have h_same : ∀ p ∈ b.rows, p ∉ changing b.rows →
      after.get? p.target = b.folder.get? p.entry.name := by
    intro p h_p h_not
    rw [not_changing h_p h_not]
    refine h_other _ fun q h_q _ => ⟨fun h_eq => ?_, fun h_eq => ?_⟩
    · exact h_not (row_eq h_p (changing_row h_q).1 h_eq ▸ h_q)
    · exact h_stages ⟨q, h_q, h_eq ▸ row_selected h_p⟩
  constructor
  case selected =>
    intro p h_p file h_file
    by_cases h_change : p ∈ changing b.rows
    · by_cases h_ok : Answered fails p.entry.name p.target = true
      · exact one_name h_injective (.inr (.inl rfl)) ((h_target p h_change h_ok).trans h_file)
      · have h_stays : after.get? p.entry.name = b.folder.get? p.entry.name := by
          refine h_other _ fun q h_q h_ok' => ⟨fun h_eq => ?_, fun h_eq => ?_⟩
          · exact h_ok (row_eq h_p (changing_row h_q).1 h_eq ▸ h_ok')
          · exact h_stages ⟨q, h_q, h_eq ▸ row_selected h_p⟩
        exact one_name h_injective (.inl rfl) (h_stays.trans h_file)
    · exact one_name h_injective (.inr (.inl rfl)) ((h_same p h_p h_change).trans h_file)
  case unselected =>
    intro name h_name file h_file
    rw [← h_file]
    refine h_other _ fun q h_q _ => ⟨fun h_eq => ?_, fun h_eq => ?_⟩
    · exact h_name (h_eq ▸ row_selected (changing_row h_q).1)
    · have h_free := target_free h_plan (changing_row h_q).1 (h_eq ▸ h_name)
      exact absurd (h_free.symm.trans (h_eq ▸ h_file)) (by simp)
  case complete =>
    intro h_failed p h_p
    by_cases h_change : p ∈ changing b.rows
    · have h_all := List.filter_eq_nil_iff.mp (List.map_eq_nil_iff.mp h_failed)
      have h_ok := h_all ⟨p, p.entry.name⟩ (List.mem_map_of_mem h_change)
      exact h_target p h_change (by simpa [placeOk] using h_ok)
    · exact h_same p h_p h_change

end NotStaged
end Direct

/-! ### With parking -/

section Parking

variable {File : Type} {b : Batch File} {fails : String → String → Bool}

theorem numbered_fst : b.numbered.map Prod.fst = changing b.rows := List.zipIdx_map_fst 0 _

theorem numbered_changing {r : Planned × ℕ} (h : r ∈ b.numbered) : r.1 ∈ changing b.rows :=
  List.fst_mem_of_mem_zipIdx h

theorem numbered_row {r : Planned × ℕ} (h : r ∈ b.numbered) : r.1 ∈ b.rows :=
  (changing_row (numbered_changing h)).1

theorem numbered_of_changing {p : Planned} (h : p ∈ changing b.rows) : ∃ i, (p, i) ∈ b.numbered := by
  rw [← numbered_fst] at h
  obtain ⟨⟨q, i⟩, h_r, rfl⟩ := List.mem_map.mp h
  exact ⟨i, h_r⟩

theorem numbered_names : (b.numbered.map fun r => r.1.entry.name).Nodup := by
  have h_sub : (changing b.rows).Sublist b.rows := List.filter_sublist
  have h_eq : (b.numbered.map fun r => r.1.entry.name) =
      (changing b.rows).map fun p => p.entry.name := by
    rw [← numbered_fst, List.map_map]
    rfl
  rw [h_eq]
  exact rows_names.sublist (h_sub.map _)

theorem numbered_parked : (b.numbered.map fun r => parkName b.stageId r.2).Nodup := by
  have h_eq : (b.numbered.map fun r => parkName b.stageId r.2) =
      (List.range' 0 (changing b.rows).length).map (parkName b.stageId) := by
    rw [← List.zipIdx_map_snd 0 (changing b.rows), List.map_map]
    rfl
  rw [h_eq]
  exact List.Nodup.map (parkName_injective b.stageId) List.nodup_range'

theorem numbered_eq {r r' : Planned × ℕ} (h : r ∈ b.numbered) (h' : r' ∈ b.numbered)
    (h_name : r.1.entry.name = r'.1.entry.name) : r = r' :=
  List.inj_on_of_nodup_map numbered_names h h' h_name

theorem parked_eq {r r' : Planned × ℕ} (h : r ∈ b.numbered) (h' : r' ∈ b.numbered)
    (h_parked : parkName b.stageId r.2 = parkName b.stageId r'.2) : r = r' :=
  List.inj_on_of_nodup_map numbered_parked h h' h_parked

/-- A name with a file is no temporary name. -/
theorem file_not_parked {name : String} {file : File} (h : b.folder.get? name = some file) (i : ℕ) :
    name ≠ parkName b.stageId i := by
  rintro rfl
  exact absurd (h.symm.trans (b.fresh i).1) (by simp)

theorem row_not_parked {p : Planned} (h : p ∈ b.rows) (i : ℕ) :
    p.entry.name ≠ parkName b.stageId i := by
  obtain ⟨file, h_file⟩ := row_file h
  exact file_not_parked h_file i

theorem target_not_parked {p : Planned} (h : p ∈ b.rows) (i : ℕ) : p.target ≠ parkName b.stageId i :=
  (b.fresh i).2 p h

theorem park_apart : Table.Apart (b.numbered.map (parkMove b.stageId)) b.folder := by
  constructor
  case sources =>
    rw [List.map_map]
    exact numbered_names
  case targets =>
    rw [List.map_map]
    exact numbered_parked
  case disjoint =>
    simp only [List.forall_mem_map]
    exact fun r h_r r' _ => row_not_parked (numbered_row h_r) r'.2
  case present =>
    simp only [List.forall_mem_map]
    exact fun r h_r => row_file (numbered_row h_r)

/-- The folder after the first loop. -/
def Batch.between (b : Batch File) (fails : String → String → Bool) : Table String File :=
  b.folder.moveAll (Answered fails) (b.numbered.map (parkMove b.stageId))

/-- The rows that were parked. -/
def Batch.pending (b : Batch File) (fails : String → String → Bool) : List Pending :=
  (b.numbered.filter (parkOk fails b.stageId)).map fun r => ⟨r.1, parkName b.stageId r.2⟩

theorem between_moved : Table.Moved (Answered fails) (b.numbered.map (parkMove b.stageId)) b.folder
    (b.between fails) :=
  park_apart.moved

theorem between_parked {r : Planned × ℕ} (h : r ∈ b.numbered)
    (h_ok : parkOk fails b.stageId r = true) :
    (b.between fails).get? (parkName b.stageId r.2) = b.folder.get? r.1.entry.name :=
  between_moved.target (parkMove b.stageId r) (List.mem_map_of_mem h) h_ok

/-- A name stays as it is when it is no temporary one and no row is parked from it. -/
theorem between_other {name : String} (h_free : ∀ i, name ≠ parkName b.stageId i)
    (h : ∀ r ∈ b.numbered, parkOk fails b.stageId r = true → name ≠ r.1.entry.name) :
    (b.between fails).get? name = b.folder.get? name := by
  apply between_moved.other
  simp only [List.forall_mem_map]
  exact fun r h_r h_ok => ⟨h r h_r h_ok, h_free r.2⟩

theorem pending_mem {p : Pending} (h : p ∈ b.pending fails) :
    ∃ r ∈ b.numbered, parkOk fails b.stageId r = true ∧ p = ⟨r.1, parkName b.stageId r.2⟩ := by
  obtain ⟨r, h_r, rfl⟩ := List.mem_map.mp h
  obtain ⟨h_r, h_ok⟩ := List.mem_filter.mp h_r
  exact ⟨r, h_r, h_ok, rfl⟩

theorem mem_pending {r : Planned × ℕ} (h : r ∈ b.numbered)
    (h_ok : parkOk fails b.stageId r = true) :
    (⟨r.1, parkName b.stageId r.2⟩ : Pending) ∈ b.pending fails :=
  List.mem_map_of_mem (List.mem_filter.mpr ⟨h, h_ok⟩)

/-- Where the second loop has put things, for the rows as the first loop numbers them. -/
structure Parked (b : Batch File) (fails : String → String → Bool) (after : Table String File) :
    Prop where
  target : ∀ r ∈ b.numbered, parkOk fails b.stageId r = true →
    Answered fails (parkName b.stageId r.2) r.1.target = true →
      after.get? r.1.target = b.folder.get? r.1.entry.name
  other : ∀ name, (∀ r ∈ b.numbered, parkOk fails b.stageId r = true →
    Answered fails (parkName b.stageId r.2) r.1.target = true →
      name ≠ parkName b.stageId r.2 ∧ name ≠ r.1.target) →
        after.get? name = (b.between fails).get? name

/-- A row that could not be placed is where it was parked, and is reported there. -/
theorem left_parked {after : Table String File} (h : Parked b fails after) {r : Planned × ℕ}
    (h_r : r ∈ b.numbered) (h_park : parkOk fails b.stageId r = true)
    (h_place : ¬ Answered fails (parkName b.stageId r.2) r.1.target = true) :
    after.get? (parkName b.stageId r.2) = b.folder.get? r.1.entry.name := by
  rw [← between_parked h_r h_park]
  refine h.other _ fun r' h_r' _ h_place' => ⟨fun h_eq => ?_, fun h_eq => ?_⟩
  · have h_same : r = r' := parked_eq h_r h_r' h_eq
    exact h_place (h_same ▸ h_place')
  · exact target_not_parked (numbered_row h_r') r.2 h_eq.symm

theorem left_reported {r : Planned × ℕ} (h_r : r ∈ b.numbered)
    (h_park : parkOk fails b.stageId r = true)
    (h_place : ¬ Answered fails (parkName b.stageId r.2) r.1.target = true) :
    ⟨r.1.entry.name, some (parkName b.stageId r.2)⟩ ∈
      ((b.pending fails).filter fun p => !placeOk fails p).map Pending.failure := by
  have h_place : (!placeOk fails ⟨r.1, parkName b.stageId r.2⟩) = true := by
    simpa [placeOk] using h_place
  have h_failure : (⟨r.1.entry.name, some (parkName b.stageId r.2)⟩ : RenameFailure) =
      Pending.failure ⟨r.1, parkName b.stageId r.2⟩ := by
    rw [Pending.failure, if_neg (row_not_parked (numbered_row h_r) r.2).symm]
  rw [h_failure]
  exact List.mem_map_of_mem (List.mem_filter.mpr ⟨mem_pending h_r h_park, h_place⟩)

/-- A row that is moved over another one leaves none that has not been parked. -/
theorem undisturbed_iff : Undisturbed b fails ↔
    ∀ r ∈ b.numbered, ∀ r' ∈ b.numbered, r'.1.target = r.1.entry.name →
      parkOk fails b.stageId r' = true → Answered fails (parkName b.stageId r'.2) r'.1.target = true →
        parkOk fails b.stageId r = true := by
  simp only [Undisturbed, parkOk, Answered, Batch.parked, Bool.not_eq_true']
  refine forall₄_congr fun r _ r' _ => forall_congr' fun _ => ?_
  cases fails r.1.entry.name (parkName b.stageId r.2) <;>
    cases fails r'.1.entry.name (parkName b.stageId r'.2) <;>
      cases fails (parkName b.stageId r'.2) r'.1.target <;> simp

section Staged

variable (h_plan : ∀ p ∈ b.rows, p.problem = none)
include h_plan

theorem place_apart : Table.Apart ((b.pending fails).map placeMove) (b.between fails) := by
  have h_sub : (b.numbered.filter (parkOk fails b.stageId)).Sublist b.numbered := List.filter_sublist
  constructor
  case sources =>
    rw [Batch.pending, List.map_map, List.map_map]
    exact numbered_parked.sublist (h_sub.map _)
  case targets =>
    have h_rows : (changing b.rows).Sublist b.rows := List.filter_sublist
    have h_targets : (b.numbered.map fun r => r.1.target).Nodup := by
      have h_eq : (b.numbered.map fun r => r.1.target) = (changing b.rows).map Planned.target := by
        rw [← numbered_fst, List.map_map]
        rfl
      rw [h_eq]
      exact (rows_targets h_plan).sublist (h_rows.map _)
    rw [Batch.pending, List.map_map, List.map_map]
    exact h_targets.sublist (h_sub.map _)
  case disjoint =>
    simp only [List.forall_mem_map]
    intro p h_p q h_q
    obtain ⟨r, -, -, rfl⟩ := pending_mem h_p
    obtain ⟨r', h_r', -, rfl⟩ := pending_mem h_q
    exact (target_not_parked (numbered_row h_r') r.2).symm
  case present =>
    simp only [List.forall_mem_map]
    intro p h_p
    obtain ⟨r, h_r, h_ok, rfl⟩ := pending_mem h_p
    obtain ⟨file, h_file⟩ := row_file (numbered_row h_r)
    exact ⟨file, (between_parked h_r h_ok).trans h_file⟩

theorem rename_staged (h_stages : b.Stages) : b.rename fails =
    ⟨(b.between fails).moveAll (Answered fails) ((b.pending fails).map placeMove),
      ((b.pending fails).filter (placeOk fails)).map fun p => (p.row.entry.name, p.row.target),
      ((b.numbered.filter fun r => !parkOk fails b.stageId r).map fun r => ⟨r.1.entry.name, none⟩) ++
        ((b.pending fails).filter fun p => !placeOk fails p).map Pending.failure⟩ := by
  have h_park : park fails b.stageId b.numbered b.folder = ⟨b.between fails, b.pending fails, _⟩ :=
    park_spec park_apart
  have h_numbered : (changing b.rows).zipIdx = b.numbered := rfl
  rw [Batch.rename, rename, if_pos (stages_iff.mpr h_stages), h_numbered, h_park]
  dsimp only
  rw [place_spec (place_apart h_plan)]

theorem place_parked : Parked b fails
    ((b.between fails).moveAll (Answered fails) ((b.pending fails).map placeMove)) := by
  have h_apart : Table.Apart ((b.pending fails).map placeMove) (b.between fails) :=
    place_apart h_plan
  have h_moved : Table.Moved (Answered fails) ((b.pending fails).map placeMove) (b.between fails)
      ((b.between fails).moveAll (Answered fails) ((b.pending fails).map placeMove)) :=
    h_apart.moved
  constructor
  case target =>
    intro r h_r h_park h_place
    rw [← between_parked h_r h_park]
    exact h_moved.target _ (List.mem_map_of_mem (mem_pending h_r h_park)) h_place
  case other =>
    intro name h_name
    apply h_moved.other
    simp only [List.forall_mem_map]
    intro p h_p h_place
    obtain ⟨r, h_r, h_park, rfl⟩ := pending_mem h_p
    exact h_name r h_r h_park h_place

/-- A batch that parks its rows keeps every file when no row is moved over one that could not
be parked. -/
theorem kept_staged (h_stages : b.Stages) (h_free : Undisturbed b fails) :
    Kept b (b.rename fails) := by
  have h_parked : Parked b fails
      ((b.between fails).moveAll (Answered fails) ((b.pending fails).map placeMove)) :=
    place_parked h_plan
  have h_injective := (b.injective.moveAll (Answered fails) (b.numbered.map (parkMove b.stageId))).moveAll
    (Answered fails) ((b.pending fails).map placeMove)
  rw [rename_staged h_plan h_stages]
  change Table.Injective ((b.between fails).moveAll _ _) at h_injective
  generalize (b.between fails).moveAll (Answered fails) ((b.pending fails).map placeMove) = after
    at h_parked h_injective
  -- a row that is not moved at all, because it has failed or has its name already
  have h_stays : ∀ p ∈ b.rows,
      (∀ r ∈ b.numbered, parkOk fails b.stageId r = true → p ≠ r.1) →
      (∀ r ∈ b.numbered, parkOk fails b.stageId r = true →
        Answered fails (parkName b.stageId r.2) r.1.target = true → p.entry.name ≠ r.1.target) →
      after.get? p.entry.name = b.folder.get? p.entry.name := by
    intro p h_p h_self h_target
    rw [h_parked.other, between_other (row_not_parked h_p)]
    · exact fun r h_r h_ok h_eq => h_self r h_r h_ok (row_eq h_p (numbered_row h_r) h_eq)
    · exact fun r h_r h_ok h_place => ⟨row_not_parked h_p r.2, h_target r h_r h_ok h_place⟩
  have h_same : ∀ p ∈ b.rows, p ∉ changing b.rows →
      after.get? p.target = b.folder.get? p.entry.name := by
    intro p h_p h_not
    rw [not_changing h_p h_not]
    apply h_stays p h_p
    · exact fun r h_r _ h_eq => h_not (h_eq ▸ numbered_changing h_r)
    · intro r h_r _ _ h_eq
      have h_eq : p = r.1 :=
        target_eq h_plan h_p (numbered_row h_r) ((not_changing h_p h_not).trans h_eq)
      exact h_not (h_eq ▸ numbered_changing h_r)
  constructor
  case selected =>
    intro p h_p file h_file
    by_cases h_change : p ∈ changing b.rows
    · obtain ⟨i, h_r⟩ := numbered_of_changing h_change
      by_cases h_ok : parkOk fails b.stageId (p, i) = true
      · by_cases h_place : Answered fails (parkName b.stageId i) p.target = true
        · have h_at := h_parked.target (p, i) h_r h_ok h_place
          exact one_name h_injective (.inr (.inl rfl)) (h_at.trans h_file)
        · have h_at := left_parked h_parked h_r h_ok h_place
          have h_report := left_reported h_r h_ok h_place
          exact one_name h_injective (.inr (.inr (List.mem_append_right _ h_report)))
            (h_at.trans h_file)
      · have h_at : after.get? p.entry.name = b.folder.get? p.entry.name := by
          apply h_stays p h_p
          · rintro r h_r' h_ok' rfl
            exact h_ok (numbered_eq h_r' h_r rfl ▸ h_ok')
          · intro r h_r' h_ok' h_place' h_eq
            exact h_ok (undisturbed_iff.mp h_free (p, i) h_r r h_r' h_eq.symm h_ok' h_place')
        exact one_name h_injective (.inl rfl) (h_at.trans h_file)
    · exact one_name h_injective (.inr (.inl rfl)) ((h_same p h_p h_change).trans h_file)
  case unselected =>
    intro name h_name file h_file
    rw [← h_file, h_parked.other, between_other (file_not_parked h_file)]
    · exact fun r h_r _ h_eq => h_name (h_eq ▸ row_selected (numbered_row h_r))
    · refine fun r h_r _ _ => ⟨file_not_parked h_file r.2, fun h_eq => ?_⟩
      have h_none := target_free h_plan (numbered_row h_r) (h_eq ▸ h_name)
      exact absurd (h_none.symm.trans (h_eq ▸ h_file)) (by simp)
  case complete =>
    intro h_failed p h_p
    obtain ⟨h_parks, h_places⟩ := List.append_eq_nil_iff.mp h_failed
    have h_parks := List.filter_eq_nil_iff.mp (List.map_eq_nil_iff.mp h_parks)
    have h_places := List.filter_eq_nil_iff.mp (List.map_eq_nil_iff.mp h_places)
    by_cases h_change : p ∈ changing b.rows
    · obtain ⟨i, h_r⟩ := numbered_of_changing h_change
      have h_ok : parkOk fails b.stageId (p, i) = true := by simpa using h_parks (p, i) h_r
      apply h_parked.target (p, i) h_r h_ok
      simpa [placeOk] using h_places _ (mem_pending h_r h_ok)
    · exact h_same p h_p h_change

/-- The other way round: a row that cannot be parked loses its file to the one that is moved
over it. -/
theorem undisturbed_of_kept (h_stages : b.Stages) (h_kept : Kept b (b.rename fails)) :
    Undisturbed b fails := by
  rw [undisturbed_iff]
  intro r h_r r' h_r' h_over h_park' h_place'
  by_contra h_park
  obtain ⟨file, h_file⟩ := row_file (numbered_row h_r)
  obtain ⟨name, ⟨-, h_at⟩, -⟩ := h_kept.selected r.1 (numbered_row h_r) file h_file
  rw [rename_staged h_plan h_stages] at h_at
  have h_apart : Table.Apart ((b.pending fails).map placeMove) (b.between fails) :=
    place_apart h_plan
  have h_moved : Table.Moved (Answered fails) ((b.pending fails).map placeMove) (b.between fails)
      ((b.between fails).moveAll (Answered fails) ((b.pending fails).map placeMove)) :=
    h_apart.moved
  -- between the loops the file was under its own name, and nowhere else
  have h_before : ∀ k, (b.between fails).get? k = some file → k = r.1.entry.name := by
    intro k h_k
    obtain ⟨m, h_m, h_ok, -, h_from⟩ | ⟨-, h_from⟩ := between_moved.origin h_k
    · obtain ⟨q, h_q, rfl⟩ := List.mem_map.mp h_m
      have h_name : q.1.entry.name = r.1.entry.name := b.injective _ _ file h_from h_file
      have h_same : q = r := numbered_eq h_q h_r h_name
      exact absurd (h_same ▸ h_ok) h_park
    · exact b.injective _ _ file h_from h_file
  obtain ⟨m, h_m, -, -, h_from⟩ | ⟨h_off, h_from⟩ := h_moved.origin h_at
  · obtain ⟨p, h_p, rfl⟩ := List.mem_map.mp h_m
    obtain ⟨q, h_q, -, rfl⟩ := pending_mem h_p
    exact row_not_parked (numbered_row h_r) q.2 (h_before _ h_from).symm
  · have h_name := h_before name h_from
    have h_apart := h_off _ (List.mem_map_of_mem (mem_pending h_r' h_park')) h_place'
    exact h_apart.2 (h_name.trans h_over.symm)

end Staged
end Parking

/-- **Renaming a batch.** Whichever requests fail, the files are kept exactly when none of
the rows that could not be parked is in the way of one that was. -/
theorem batch_kept {File : Type} (b : Batch File) (fails : String → String → Bool)
    (h_plan : ∀ p ∈ b.rows, p.problem = none) :
    Kept b (b.rename fails) ↔ Undisturbed b fails := by
  by_cases h_stages : b.Stages
  · exact ⟨undisturbed_of_kept h_plan h_stages, kept_staged h_plan h_stages⟩
  · refine ⟨fun _ r h_r r' h_r' h_over => ?_, fun _ => kept_direct h_plan h_stages⟩
    exact absurd ⟨r'.1, numbered_changing h_r', h_over ▸ row_selected (numbered_row h_r)⟩ h_stages

/-! ### Two files that change names -/

def first : DirEntry := ⟨"E1", false⟩
def second : DirEntry := ⟨"E2", false⟩

theorem parkName_ne (stageId : String) (i : ℕ) {name : String} (h : name.toList.head? ≠ some '.') :
    name ≠ parkName stageId i := by
  rintro rfl
  apply h
  simp [parkName]

def pair : Table String String := (Table.empty.set "E1" "one").set "E2" "two"

theorem pair_entries {name file : String} :
    pair.get? name = some file ↔ name = "E1" ∧ file = "one" ∨ name = "E2" ∧ file = "two" := by
  have h_entries : pair.entries = [("E1", "one"), ("E2", "two")] := by decide
  rw [Table.get?_eq_some_iff, h_entries]
  simp

/-- The rows in the order that gives each file the name of the other. -/
def swap : Batch String where
  form := { pattern := "E#", start := 1, keepExt := true, separator := "" }
  ordered := [second, first]
  entries := [first, second]
  siblings := [first, second]
  folder := pair
  stageId := "0"
  injective := by
    intro k k' v h h'
    rw [pair_entries] at h h'
    obtain ⟨rfl, rfl⟩ | ⟨rfl, rfl⟩ := h
    · exact (h'.resolve_right (by simp)).1.symm
    · exact (h'.resolve_left (by simp)).1.symm
  listed := by
    intro name
    simp [pair_entries, first, second, exists_or]
  selected := by decide
  distinct := by decide
  order := List.Perm.swap first second []
  fresh := by
    intro i
    have h_rows : plan { pattern := "E#", start := 1, keepExt := true, separator := "" }
        [second, first] [first, second] [first, second] =
          [⟨second, "E1", none⟩, ⟨first, "E2", none⟩] := by decide +kernel
    have h_first := parkName_ne "0" i (show "E1".toList.head? ≠ some '.' by decide)
    have h_second := parkName_ne "0" i (show "E2".toList.head? ≠ some '.' by decide)
    refine ⟨?_, ?_⟩
    · rw [Option.eq_none_iff_forall_ne_some]
      intro file h_file
      obtain ⟨h_eq, -⟩ | ⟨h_eq, -⟩ := (pair_entries).mp h_file
      · exact h_first h_eq.symm
      · exact h_second h_eq.symm
    · rw [h_rows]
      simp [h_first, h_second]

theorem batch_kept_swap : Kept swap (swap.rename fun _ _ => false) :=
  (batch_kept swap (fun _ _ => false) (by decide +kernel)).mpr
    (fun _ _ _ _ _ h_fails => absurd h_fails Bool.false_ne_true)

/-- The plan shows no problem, but when `E2` cannot be parked, `E1` is moved over it. -/
theorem source_overwritten : (∀ p ∈ swap.rows, p.problem = none) ∧
    ¬ Kept swap (swap.rename fun src _ => src = "E2") := by
  refine ⟨by decide +kernel, fun h_kept => ?_⟩
  have h_after : (swap.rename fun src _ => src = "E2").folder.entries = [("E2", "one")] := by
    decide +kernel
  obtain ⟨name, ⟨-, h_name⟩, -⟩ :=
    h_kept.selected ⟨second, "E1", none⟩ (by decide +kernel) "two" (by decide)
  rw [Table.get?_eq_some_iff, h_after] at h_name
  simp at h_name

end ServerCentral.Files
