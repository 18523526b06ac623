import ServerCentral.Agent.UploadFiles

/-!
# An upload is whole or not at all

`Placed` says that every upload in progress has a temp file with one name, and no two have
the same one; `Contents` that the file holds what its chunks have brought. A chunk opens its
upload if need be (`Ready`) and then takes one of the courses of `Course`: it is refused and
its upload discarded, it is appended, or it is the last one and its file is published.
`upload_atomic` puts the courses together along a run.

Two things are left out by `Sound`. `publishUpload` takes the upload out of the map before
the close and the rename, so that `discardUpload` finds nothing to remove when one of them
fails (`temp_left`); and a write that is short counts as whole (`short_published`).
-/

open Framework

namespace ServerCentral.Agent.Serial

variable {pid : ℕ} {s s₁ : AgentState} {m : UploadChunkRequest} {o : Outcome}
  {upload : ActiveUpload} {got : String → List UInt8}

/-! ### Opening -/

theorem tempSibling_ne (pid : ℕ) (suffix file : String) : tempSibling pid suffix file ≠ file := by
  intro h
  have h_length := congrArg (fun name => name.toList.length) h
  simp [tempSibling] at h_length

/-- Every upload in progress has a temp file of its own. -/
structure Placed (s : AgentState) : Prop where
  sole : ∀ u upload, s.uploads.get? u = some upload → s.disk.Sole upload.tempPath upload.handle
  apart : ∀ u u' upload upload', s.uploads.get? u = some upload → s.uploads.get? u' = some upload' →
    upload.handle = upload'.handle → u = u'
  own : ∀ u upload, s.uploads.get? u = some upload → upload.tempPath ≠ upload.path

/-- The temp files hold what was received. -/
structure Contents (s : AgentState) (got : String → List UInt8) : Prop where
  file : ∀ u upload, s.uploads.get? u = some upload →
    s.disk.data upload.handle = got u ∧ upload.bytesWritten = (got u).length
  idle : ∀ u, s.uploads.get? u = none → got u = []

theorem Placed.temp_ne (h : Placed s) {u u' : String} {upload' : ActiveUpload}
    (h_u : s.uploads.get? u = some upload) (h_u' : s.uploads.get? u' = some upload')
    (h_ne : u ≠ u') : upload.tempPath ≠ upload'.tempPath := by
  intro h_eq
  have h_file := (h.sole u upload h_u).named
  rw [h_eq, (h.sole u' upload' h_u').named] at h_file
  exact h_ne (h.apart u u' upload upload' h_u h_u' (Option.some.inj h_file).symm)

/-- The upload of a chunk is in the map. -/
structure Ready (pid : ℕ) (s : AgentState) (m : UploadChunkRequest) (o : Outcome) (s₁ : AgentState)
    (upload : ActiveUpload) : Prop where
  stored : s₁.uploads.get? m.uploadId = some upload
  others : ∀ u, u ≠ m.uploadId → s₁.uploads.get? u = s.uploads.get? u
  temp : ∀ name, TempOf pid s m o name ↔ name = upload.tempPath
  frame : ∀ name, name ≠ upload.tempPath → s₁.disk.read name = s.disk.read name
  path : target s m = upload.path
  checks : Writes pid s m o ↔ m.offset = upload.bytesWritten ∧ upload.path = normalizePath m.path

/-- The uploads before and after a new one, whose file is a new one. -/
theorem placed_set {disk : Disk String UInt8} {name : String} {n : ℕ} (h : Placed s)
    (h_create : s.disk.create name = some (disk, n)) (h_own : name ≠ upload.path)
    (h_temp : upload.tempPath = name) (h_handle : upload.handle = n) (u : String) :
    Placed ⟨s.uploads.set u upload, disk⟩ := by
  subst h_temp h_handle
  have h_new : ∀ u' upload', s.uploads.get? u' = some upload' → upload'.handle ≠ upload.handle := by
    intro u' upload' h_u'
    obtain ⟨-, h_next, -⟩ := Disk.create_eq_some h_create
    have h_old := s.disk.old _ _ (h.sole u' upload' h_u').named
    rw [h_next]
    exact Nat.ne_of_lt h_old
  constructor
  case sole =>
    intro u' upload' h_u'
    obtain ⟨-, rfl⟩ | ⟨-, h_old⟩ := Table.get?_set_eq_some h_u'
    · exact .of_create h_create
    · exact (h.sole u' upload' h_old).create h_create
  case apart =>
    intro u₁ u₂ upload₁ upload₂ h_u₁ h_u₂ h_eq
    obtain ⟨rfl, rfl⟩ | ⟨-, h_old₁⟩ := Table.get?_set_eq_some h_u₁
    · obtain ⟨rfl, -⟩ | ⟨-, h_old₂⟩ := Table.get?_set_eq_some h_u₂
      · rfl
      · exact absurd h_eq.symm (h_new u₂ upload₂ h_old₂)
    · obtain ⟨-, rfl⟩ | ⟨-, h_old₂⟩ := Table.get?_set_eq_some h_u₂
      · exact absurd h_eq (h_new u₁ upload₁ h_old₁)
      · exact h.apart u₁ u₂ upload₁ upload₂ h_old₁ h_old₂ h_eq
  case own =>
    intro u' upload' h_u'
    obtain ⟨-, rfl⟩ | ⟨-, h_old⟩ := Table.get?_set_eq_some h_u'
    · exact h_own
    · exact h.own u' upload' h_old

/-- **Opening.** -/
theorem openUpload_ok (h_placed : Placed s) (h_contents : Contents s got)
    (h : openUpload pid s m o = (s₁, .ok upload)) :
    Placed s₁ ∧ Contents s₁ got ∧ Ready pid s m o s₁ upload := by
  rw [openUpload] at h
  split at h
  case h_1 old h_old =>
    obtain ⟨rfl, h_upload⟩ := Prod.mk.inj h
    obtain rfl := Except.ok.inj h_upload
    have h_not : ¬ Opened pid s m o := fun h_opened => by simp [Opened, h_old] at h_opened
    refine ⟨h_placed, h_contents, h_old, fun _ _ => rfl, fun name => ?_, fun _ _ => rfl, ?_, ?_⟩
    · simp [TempOf, h_old, h_not]
    · rw [target, h_old, Option.elim_some]
    · simp [Writes, h_old, h_not]
  case h_2 h_none =>
    split at h
    case isFalse => exact absurd (Prod.mk.inj h).2 (by simp)
    case isTrue h_zero =>
      split at h
      case h_1 => exact absurd (Prod.mk.inj h).2 (by simp)
      case h_2 h_open =>
        split at h
        case h_1 => exact absurd (Prod.mk.inj h).2 (by simp)
        case h_2 disk handle h_create =>
          obtain ⟨rfl, h_upload⟩ := Prod.mk.inj h
          obtain rfl := Except.ok.inj h_upload
          obtain ⟨h_free, h_next, -, h_empty, h_data⟩ := Disk.create_eq_some h_create
          have h_opened : Opened pid s m o := ⟨h_none, h_zero, h_open, h_free⟩
          have h_own : tempPath pid m o ≠ normalizePath m.path := tempSibling_ne pid _ _
          refine ⟨placed_set h_placed h_create h_own rfl rfl _, ⟨fun u up h_u => ?_, fun u h_u => ?_⟩,
            Table.get?_set_self _ _ _, fun u h_ne => Table.get?_set_of_ne _ _ h_ne, fun name => ?_,
            fun name h_ne => Disk.read_create h_create h_ne, ?_, ?_⟩
          · obtain ⟨rfl, rfl⟩ | ⟨-, h_old⟩ := Table.get?_set_eq_some h_u
            · rw [h_contents.idle _ h_none]
              exact ⟨h_empty, rfl⟩
            · have h_lt := s.disk.old _ _ (h_placed.sole u up h_old).named
              rw [h_data up.handle (Nat.ne_of_lt (h_next ▸ h_lt))]
              exact h_contents.file u up h_old
          · by_cases h_eq : u = m.uploadId
            · rw [h_eq, h_contents.idle _ h_none]
            · exact h_contents.idle u ((Table.get?_set_of_ne _ _ h_eq).symm.trans h_u)
          · simp [TempOf, h_none, h_opened]
          · rw [target, h_none, Option.elim_none]
          · simp [Writes, h_opened, h_zero]

theorem openUpload_error {e : String} (h : openUpload pid s m o = (s₁, .error e)) :
    s₁ = s ∧ s.uploads.get? m.uploadId = none ∧ ¬ Opened pid s m o := by
  rw [openUpload] at h
  split at h
  case h_1 => exact absurd (Prod.mk.inj h).2 (by simp)
  case h_2 h_none =>
    split at h
    case isFalse h_offset =>
      exact ⟨(Prod.mk.inj h).1.symm, h_none, fun h_opened => h_offset h_opened.2.1⟩
    case isTrue =>
      split at h
      case h_1 e' h_open =>
        refine ⟨(Prod.mk.inj h).1.symm, h_none, fun h_opened => ?_⟩
        exact absurd (h_open.symm.trans h_opened.2.2.1) (by simp)
      case h_2 =>
        split at h
        case h_2 => exact absurd (Prod.mk.inj h).2 (by simp)
        case h_1 h_create =>
          refine ⟨(Prod.mk.inj h).1.symm, h_none, fun h_opened => ?_⟩
          rw [Disk.create, Table.has, h_opened.2.2.2] at h_create
          exact absurd h_create (by simp)

/-! ### The four ways on -/

/-- Uploads whose files are where they were, of which some may have ended. -/
theorem Placed.mono {s' : AgentState} (h : Placed s)
    (h_sub : ∀ u upload, s'.uploads.get? u = some upload →
      ∃ old, s.uploads.get? u = some old ∧ upload.tempPath = old.tempPath ∧
        upload.handle = old.handle ∧ upload.path = old.path)
    (h_sole : ∀ u upload, s'.uploads.get? u = some upload → s.disk.Sole upload.tempPath upload.handle →
      s'.disk.Sole upload.tempPath upload.handle) : Placed s' := by
  constructor
  case sole =>
    intro u upload h_u
    obtain ⟨old, h_old, h_temp, h_handle, -⟩ := h_sub u upload h_u
    have h_before := h.sole u old h_old
    rw [← h_temp, ← h_handle] at h_before
    exact h_sole u upload h_u h_before
  case apart =>
    intro u u' upload upload' h_u h_u' h_eq
    obtain ⟨old, h_old, -, h_handle, -⟩ := h_sub u upload h_u
    obtain ⟨old', h_old', -, h_handle', -⟩ := h_sub u' upload' h_u'
    exact h.apart u u' old old' h_old h_old' (by rw [← h_handle, h_eq, h_handle'])
  case own =>
    intro u upload h_u
    obtain ⟨old, h_old, h_temp, -, h_path⟩ := h_sub u upload h_u
    rw [h_temp, h_path]
    exact h.own u old h_old

/-- The uploads that are left when one ends. -/
theorem get?_erase_upload {uploads : Table String ActiveUpload} {u u' : String}
    (h : (uploads.erase u).get? u' = some upload) : u' ≠ u ∧ uploads.get? u' = some upload := by
  obtain ⟨h_old, h_ne⟩ := Table.get?_erase.mp h
  exact ⟨h_ne, h_old⟩

/-- How an upload has ended that was not published. -/
structure Ended (s₁ : AgentState) (got : String → List UInt8) (u : String) (upload : ActiveUpload)
    (s' : AgentState) : Prop where
  placed : Placed s'
  contents : Contents s' (Function.update got u [])
  forgotten : s'.uploads.get? u = none
  removed : s'.disk.names.get? upload.tempPath = none
  frame : ∀ name, name ≠ upload.tempPath → s'.disk.read name = s₁.disk.read name

/-- **Discarding**, after something may have been written. -/
theorem discardUpload_ended {u : String} (h_placed : Placed s) (h_contents : Contents s got)
    (h_u : s.uploads.get? u = some upload) (xs : List UInt8) :
    Ended s got u upload (discardUpload ⟨s.uploads, s.disk.append upload.handle xs⟩ u) := by
  have h_discard : discardUpload ⟨s.uploads, s.disk.append upload.handle xs⟩ u =
      ⟨s.uploads.erase u, (s.disk.append upload.handle xs).unlink upload.tempPath⟩ := by
    rw [discardUpload, h_u]
  have h_sole := h_placed.sole u upload h_u
  rw [h_discard]
  constructor
  case placed =>
    refine h_placed.mono (fun u' up h => ?_) fun u' up h h_before => ?_
    · exact ⟨up, (get?_erase_upload h).2, rfl, rfl, rfl⟩
    · obtain ⟨h_ne, h_old⟩ := get?_erase_upload h
      exact (h_before.append _ xs).unlink (h_placed.temp_ne h_old h_u h_ne)
  case contents =>
    refine ⟨fun u' up h => ?_, fun u' h => ?_⟩
    · obtain ⟨h_ne, h_old⟩ := get?_erase_upload h
      have h_handle : up.handle ≠ upload.handle := fun h_eq =>
        h_ne (h_placed.apart u' u up upload h_old h_u h_eq)
      rw [Function.update_of_ne h_ne]
      show (s.disk.append upload.handle xs).data up.handle = _ ∧ _
      rw [Disk.append_data_of_ne _ _ h_handle]
      exact h_contents.file u' up h_old
    · by_cases h_eq : u' = u
      · rw [h_eq, Function.update_self]
      · rw [Function.update_of_ne h_eq]
        exact h_contents.idle u' ((Table.get?_erase_of_ne _ h_eq).symm.trans h)
  case forgotten => exact Table.get?_erase_self _ _
  case removed => exact Table.get?_erase_self _ _
  case frame =>
    intro name h_ne
    rw [Disk.read_unlink h_ne, h_sole.read_append xs h_ne]

/-- **Writing** a whole chunk. -/
theorem written_placed {u : String} (h_placed : Placed s) (h_contents : Contents s got)
    (h_u : s.uploads.get? u = some upload) (xs : List UInt8) :
    let s' : AgentState := ⟨s.uploads.set u
      { upload with bytesWritten := upload.bytesWritten + xs.length }, s.disk.append upload.handle xs⟩
    Placed s' ∧ Contents s' (Function.update got u (got u ++ xs)) := by
  refine ⟨h_placed.mono (fun u' up h => ?_) fun u' up h h_before => ?_, fun u' up h => ?_,
    fun u' h => ?_⟩
  · obtain ⟨rfl, rfl⟩ | ⟨-, h_old⟩ := Table.get?_set_eq_some h
    · exact ⟨upload, h_u, rfl, rfl, rfl⟩
    · exact ⟨up, h_old, rfl, rfl, rfl⟩
  · exact h_before.append _ xs
  · obtain ⟨rfl, rfl⟩ | ⟨h_ne, h_old⟩ := Table.get?_set_eq_some h
    · obtain ⟨h_file, h_total⟩ := h_contents.file _ upload h_u
      rw [Function.update_self, List.length_append, ← h_total, ← h_file]
      exact ⟨Disk.append_data _ _ _, rfl⟩
    · have h_handle : up.handle ≠ upload.handle := fun h_eq =>
        h_ne (h_placed.apart u' u up upload h_old h_u h_eq)
      rw [Function.update_of_ne h_ne]
      show (s.disk.append upload.handle xs).data up.handle = _ ∧ _
      rw [Disk.append_data_of_ne _ _ h_handle]
      exact h_contents.file u' up h_old
  · have h_ne : u' ≠ u := by
      rintro rfl
      exact absurd ((Table.get?_set_self _ _ _).symm.trans h) (by simp)
    rw [Function.update_of_ne h_ne]
    exact h_contents.idle u' ((Table.get?_set_of_ne _ _ h_ne).symm.trans h)

/-- **Publishing** when the close and the rename succeed. -/
theorem publishUpload_ok (h_placed : Placed s) (h_contents : Contents s got)
    (h_u : s.uploads.get? m.uploadId = some upload) (h_close : o.error .close = none)
    (h_rename : o.error .rename = none)
    (h_temps : ∀ u up, s.uploads.get? u = some up → u ≠ m.uploadId → up.tempPath ≠ upload.path) :
    ∃ s', publishUpload s m o upload = (s', .ok (got m.uploadId).length) ∧ Placed s' ∧
      Contents s' (Function.update got m.uploadId []) ∧
        s'.disk.read upload.path = some (got m.uploadId) := by
  have h_sole := h_placed.sole _ upload h_u
  obtain ⟨h_file, h_total⟩ := h_contents.file _ upload h_u
  have h_own := h_placed.own _ upload h_u
  have h_has : s.disk.names.has upload.tempPath = true := Table.has_iff.mpr ⟨_, h_sole.named⟩
  obtain ⟨disk, h_disk⟩ : ∃ disk, s.disk.rename upload.tempPath upload.path = some disk := by
    rw [Disk.rename, if_pos h_has]
    exact ⟨_, rfl⟩
  obtain ⟨h_names, h_data⟩ := Disk.rename_eq_some h_disk
  refine ⟨⟨s.uploads.erase m.uploadId, disk⟩, ?_, ?_, ⟨fun u up h => ?_, fun u h => ?_⟩, ?_⟩
  · rw [publishUpload, h_close, h_rename]
    dsimp only
    rw [h_disk, h_total]
  · refine h_placed.mono (fun u up h => ?_) fun u up h h_before => ?_
    · exact ⟨up, (get?_erase_upload h).2, rfl, rfl, rfl⟩
    · obtain ⟨h_ne, h_old⟩ := get?_erase_upload h
      exact h_before.rename h_disk (h_placed.temp_ne h_old h_u h_ne) (h_temps u up h_old h_ne)
  · obtain ⟨h_ne, h_old⟩ := get?_erase_upload h
    rw [Function.update_of_ne h_ne, h_data]
    exact h_contents.file u up h_old
  · by_cases h_eq : u = m.uploadId
    · rw [h_eq, Function.update_self]
    · rw [Function.update_of_ne h_eq]
      exact h_contents.idle u ((Table.get?_erase_of_ne _ h_eq).symm.trans h)
  · have h_read : s.disk.read upload.tempPath = some (got m.uploadId) := by rw [h_sole.read, h_file]
    exact (Disk.read_rename h_disk h_read h_own).1

/-! ### A chunk -/

section Chunk

variable {tr : List (Label × Option (Except String ℕ))}

/-- An upload that was in progress, or was opened by the chunk, has ended. -/
theorem Ended.atomic {s' : AgentState} (h_ready : Ready pid s m o s₁ upload)
    (h_own : upload.tempPath ≠ upload.path) (h : Ended s₁ got m.uploadId upload s') (e : String) :
    Atomic pid s m o tr (s', .error e) where
  published _ h_ok := absurd h_ok (by simp)
  answered _ := ⟨e, rfl⟩
  kept _ _ := by
    have h_ne : target s m ≠ upload.tempPath := h_ready.path ▸ h_own.symm
    exact (h.frame _ h_ne).trans (h_ready.frame _ h_ne)
  frame _ _ name h_name := by
    have h_ne : name ≠ upload.tempPath := mt (h_ready.temp name).mpr h_name
    exact (h.frame _ h_ne).trans (h_ready.frame _ h_ne)
  removed _ _ name h_name := (h_ready.temp name).mp h_name ▸ h.removed
  forgotten _ _ := h.forgotten

/-- A chunk without an upload that opens none. -/
theorem atomic_unopened (h_none : s.uploads.get? m.uploadId = none) (h_not : ¬ Opened pid s m o)
    (e : String) : Atomic pid s m o tr (s, .error e) where
  published _ h_ok := absurd h_ok (by simp)
  answered _ := ⟨e, rfl⟩
  kept _ _ := rfl
  frame _ _ _ _ := rfl
  removed _ _ name h_name := by
    obtain ⟨upload, h_upload, -⟩ | ⟨h_opened, -⟩ := h_name
    · exact absurd (h_none.symm.trans h_upload) (by simp)
    · exact absurd h_opened h_not
  forgotten _ _ := h_none

/-- A chunk that is answered with success. -/
theorem atomic_ok {s' : AgentState} {n : ℕ} (h_writes : Writes pid s m o)
    (h_write : o.error .write = none)
    (h_sound : Closes pid s m o → o.error .close = none ∧ o.error .rename = none)
    (h_published : m.final = true →
      s'.disk.read (normalizePath m.path) = some (received tr m.uploadId ++ m.content) ∧
        n = (received tr m.uploadId ++ m.content).length) :
    Atomic pid s m o tr (s', .ok n) where
  published _ h_ok h_final := Except.ok.inj h_ok ▸ h_published h_final
  answered := by
    -- nothing fails
    rintro ⟨op, h_fails⟩
    cases op with
    | «open» =>
      obtain ⟨h_none, -, h_not⟩ := h_fails
      obtain ⟨up, h_up, -⟩ | h_opened := h_writes
      · exact absurd (h_none.symm.trans h_up) (by simp)
      · exact absurd h_opened h_not
    | write => exact absurd h_write h_fails.2
    | close => exact absurd (h_sound h_fails.1).1 h_fails.2
    | rename => exact absurd (h_sound h_fails.1).2 h_fails.2.2
  kept _ h_error := absurd h_error (by simp)
  frame _ h_error := absurd h_error (by simp)
  removed _ h_error := absurd h_error (by simp)
  forgotten _ h_error := absurd h_error (by simp)

/-- The invariant of a run. -/
structure Steady (tr : List (Label × Option (Except String ℕ))) (s : AgentState) : Prop where
  placed : Placed s
  contents : Contents s (received tr)

theorem received_snoc (e : Label × Option (Except String ℕ)) :
    received (tr ++ [e]) = progress (received tr) e := by
  rw [received, List.foldl_append]
  rfl

theorem Ended.steady {s' : AgentState} (h : Ended s₁ (received tr) m.uploadId upload s') (e : String) :
    Steady (tr ++ [(.chunk m o, some (.error e))]) s' := by
  refine ⟨h.placed, ?_⟩
  rw [received_snoc]
  exact h.contents

section Courses

variable (h_open : openUpload pid s m o = (s₁, .ok upload))
include h_open

theorem handleChunk_refused
    (h_checks : ¬ (m.offset = upload.bytesWritten ∧ upload.path = normalizePath m.path)) :
    ∃ e, handleChunk pid s m o = (discardUpload s₁ m.uploadId, .error e) := by
  rw [handleChunk, runUploadChunk, h_open]
  dsimp only
  by_cases h_offset : m.offset = upload.bytesWritten
  · have h_path : upload.path ≠ normalizePath m.path := fun h => h_checks ⟨h_offset, h⟩
    rw [writeUpload, if_neg (not_not.mpr h_offset), if_pos h_path]
    exact ⟨_, rfl⟩
  · rw [writeUpload, if_pos h_offset]
    exact ⟨_, rfl⟩

variable (h_offset : m.offset = upload.bytesWritten) (h_path : upload.path = normalizePath m.path)
include h_offset h_path

theorem handleChunk_unwritten {e : String} (h_write : o.error .write = some e) :
    handleChunk pid s m o = (discardUpload
      ⟨s₁.uploads, s₁.disk.append upload.handle (m.content.take o.written)⟩ m.uploadId, .error e) := by
  rw [handleChunk, runUploadChunk, h_open]
  dsimp only
  rw [writeUpload, if_neg (not_not.mpr h_offset), if_neg (not_not.mpr h_path), h_write]

/-- The uploads and the files after a write that has succeeded. -/
def wrote (s : AgentState) (m : UploadChunkRequest) (o : Outcome) (upload : ActiveUpload) : AgentState :=
  ⟨s.uploads.set m.uploadId { upload with bytesWritten := upload.bytesWritten + m.content.length },
    s.disk.append upload.handle (m.content.take o.written)⟩

theorem handleChunk_appended (h_write : o.error .write = none) (h_final : m.final = false) :
    handleChunk pid s m o =
      (wrote s₁ m o upload, .ok (upload.bytesWritten + m.content.length)) := by
  rw [handleChunk, runUploadChunk, h_open]
  dsimp only
  rw [writeUpload, if_neg (not_not.mpr h_offset), if_neg (not_not.mpr h_path), h_write]
  dsimp only
  rw [h_final, if_neg Bool.false_ne_true]
  rfl

theorem handleChunk_finished (h_write : o.error .write = none) (h_final : m.final = true)
    {s' : AgentState} {n : ℕ}
    (h_publish : publishUpload (wrote s₁ m o upload) m o
      { upload with bytesWritten := upload.bytesWritten + m.content.length } = (s', .ok n)) :
    handleChunk pid s m o = (s', .ok n) := by
  rw [handleChunk, runUploadChunk, h_open]
  dsimp only
  rw [writeUpload, if_neg (not_not.mpr h_offset), if_neg (not_not.mpr h_path), h_write]
  dsimp only
  rw [if_pos h_final]
  rw [wrote] at h_publish
  rw [h_publish]

end Courses

/-- **Step lemma.** One case for each way a chunk can go. -/
theorem handleChunk_step (h : Steady tr s) (h_sound : Sound pid s (.chunk m o)) :
    Steady (tr ++ [(.chunk m o, some (handleChunk pid s m o).2)]) (handleChunk pid s m o).1 ∧
      Atomic pid s m o tr (handleChunk pid s m o) := by
  rcases h_open : openUpload pid s m o with ⟨s₁, e | upload⟩
  · -- there is no upload
    obtain ⟨h_same, h_none, h_not⟩ := openUpload_error h_open
    have h_handle : handleChunk pid s m o = (s, .error e) := by
      rw [handleChunk, runUploadChunk, h_open]
      dsimp only
      rw [h_same, discardUpload, h_none]
    have h_got : Function.update (received tr) m.uploadId [] = received tr := by
      rw [← h.contents.idle _ h_none, Function.update_eq_self]
    rw [h_handle]
    refine ⟨⟨h.placed, ?_⟩, atomic_unopened h_none h_not e⟩
    rw [received_snoc, progress]
    dsimp only
    rw [h_got]
    exact h.contents
  obtain ⟨h_placed, h_contents, h_ready⟩ := openUpload_ok h.placed h.contents h_open
  have h_own := h_placed.own _ upload h_ready.stored
  by_cases h_checks : m.offset = upload.bytesWritten ∧ upload.path = normalizePath m.path
  swap
  · obtain ⟨e, h_handle⟩ := handleChunk_refused h_open h_checks
    have h_ended := discardUpload_ended h_placed h_contents h_ready.stored []
    rw [Disk.append_nil] at h_ended
    rw [h_handle]
    exact ⟨h_ended.steady e, h_ended.atomic h_ready h_own e⟩
  have h_writes : Writes pid s m o := h_ready.checks.mpr h_checks
  obtain ⟨h_offset, h_path⟩ := h_checks
  cases h_write : o.error .write with
  | some e =>
    have h_ended := discardUpload_ended h_placed h_contents h_ready.stored (m.content.take o.written)
    rw [handleChunk_unwritten h_open h_offset h_path h_write]
    exact ⟨h_ended.steady e, h_ended.atomic h_ready h_own e⟩
  | none =>
    have h_whole : m.content.take o.written = m.content :=
      List.take_of_length_le (h_sound.1 h_writes h_write)
    have h_wrote := written_placed h_placed h_contents h_ready.stored m.content
    obtain ⟨h_placed₂, h_contents₂⟩ : Placed (wrote s₁ m o upload) ∧ Contents (wrote s₁ m o upload)
        (Function.update (received tr) m.uploadId (received tr m.uploadId ++ m.content)) := by
      rw [wrote, h_whole]
      exact h_wrote
    cases h_final : m.final with
    | false =>
      have h_open_end : ¬ Closes pid s m o := fun h => absurd (h_final.symm.trans h.2.2) (by simp)
      rw [handleChunk_appended h_open h_offset h_path h_write h_final]
      refine ⟨⟨h_placed₂, ?_⟩, atomic_ok h_writes h_write (fun h => absurd h h_open_end) fun h => ?_⟩
      · rw [received_snoc, progress]
        dsimp only
        rw [h_final, if_neg Bool.false_ne_true]
        exact h_contents₂
      · exact absurd (h_final.symm.trans h) (by simp)
    | true =>
      obtain ⟨h_close, h_rename, h_temps⟩ := h_sound.2 ⟨h_writes, h_write, h_final⟩
      have h_stored : (wrote s₁ m o upload).uploads.get? m.uploadId =
          some { upload with bytesWritten := upload.bytesWritten + m.content.length } :=
        Table.get?_set_self _ _ _
      have h_others : ∀ u up, (wrote s₁ m o upload).uploads.get? u = some up → u ≠ m.uploadId →
          up.tempPath ≠ upload.path := by
        intro u up h_u h_ne
        have h_old : s.uploads.get? u = some up := by
          rw [← h_ready.others u h_ne]
          exact (Table.get?_set_of_ne _ _ h_ne).symm.trans h_u
        rw [h_path]
        exact h_temps u up h_old h_ne
      obtain ⟨s', h_publish, h_placed', h_contents', h_read⟩ :=
        publishUpload_ok h_placed₂ h_contents₂ h_stored h_close h_rename h_others
      rw [handleChunk_finished h_open h_offset h_path h_write h_final h_publish]
      rw [Function.update_self] at h_read
      refine ⟨⟨h_placed', ?_⟩, atomic_ok h_writes h_write (fun _ => ⟨h_close, h_rename⟩) fun _ => ?_⟩
      · rw [received_snoc, progress]
        dsimp only
        rw [if_pos h_final]
        rwa [Function.update_idem] at h_contents'
      · rw [Function.update_self]
        exact ⟨h_path ▸ h_read, rfl⟩

/-- An abort ends its upload. -/
theorem abort_step (h : Steady tr s) (u : String) :
    Steady (tr ++ [(.abort u, none)]) (discardUpload s u) := by
  cases h_u : s.uploads.get? u with
  | none =>
    have h_discard : discardUpload s u = s := by rw [discardUpload, h_u]
    have h_got : Function.update (received tr) u [] = received tr := by
      rw [← h.contents.idle _ h_u, Function.update_eq_self]
    rw [h_discard]
    refine ⟨h.placed, ?_⟩
    rw [received_snoc, progress]
    dsimp only
    rw [h_got]
    exact h.contents
  | some upload =>
    have h_ended := discardUpload_ended h.placed h.contents h_u []
    rw [Disk.append_nil] at h_ended
    refine ⟨h_ended.placed, ?_⟩
    rw [received_snoc]
    exact h_ended.contents

/-- **Run lemma.** -/
theorem steady_of_run {disk : Disk String UInt8} (h : (chunkMachine pid disk).RunWhen (Sound pid) tr s) :
    Steady tr s := by
  refine h.history (P := Steady) ⟨⟨?_, ?_, ?_⟩, ?_, ?_⟩ fun tr s l s' e _ h_steady h_ok hs => ?_
  · exact fun _ _ h_u => absurd h_u (by simp [chunkMachine])
  · exact fun _ _ _ _ h_u => absurd h_u (by simp [chunkMachine])
  · exact fun _ _ h_u => absurd h_u (by simp [chunkMachine])
  · exact fun _ _ h_u => absurd h_u (by simp [chunkMachine])
  · exact fun _ _ => rfl
  cases l with
  | chunk m o =>
    obtain ⟨rfl, rfl⟩ := Prod.mk.inj (Option.some.inj hs)
    exact (handleChunk_step h_steady h_ok).1
  | abort u =>
    obtain ⟨rfl, rfl⟩ := Prod.mk.inj (Option.some.inj hs)
    exact abort_step h_steady u

end Chunk

/-- **Uploads are atomic** in every run whose steps are sound: whatever was received before, a
sound chunk publishes the whole upload, or is appended, or leaves nothing of it. -/
theorem upload_atomic {disk : Disk String UInt8} {tr : List (Label × Option (Except String ℕ))}
    (h : (chunkMachine pid disk).RunWhen (Sound pid) tr s) (h_sound : Sound pid s (.chunk m o)) :
    Atomic pid s m o tr (handleChunk pid s m o) :=
  (handleChunk_step (steady_of_run h) h_sound).2

/-! ### Three chunks -/

def empty : Disk String UInt8 := ⟨.empty, fun _ => [], 0, fun _ _ h => absurd h (by simp)⟩

/-- Everything succeeds, and so many bytes are written. -/
def whole (written : ℕ) : Outcome := ⟨"00c0ffee", fun _ => none, written⟩

def ab : UploadChunkRequest := ⟨"u", "/srv/f", 0, [97, 98], false⟩
def cd : UploadChunkRequest := ⟨"u", "/srv/f", 2, [99, 100], true⟩

/-- A whole file in one chunk. -/
def only : UploadChunkRequest := ⟨"u", "/srv/f", 0, [97, 98], true⟩

theorem sound_whole {written : ℕ} (h : m.content.length ≤ written)
    (h_alone : ∀ u up, s.uploads.get? u = some up → u = m.uploadId) :
    Sound pid s (.chunk m (whole written)) :=
  ⟨fun _ _ => h, fun _ => ⟨rfl, rfl, fun u up h_u h_ne => absurd (h_alone u up h_u) h_ne⟩⟩

theorem upload_atomic_cd :
    Atomic 7 (handleChunk 7 ⟨.empty, empty⟩ ab (whole 2)).1 cd (whole 2)
      [(.chunk ab (whole 2), some (.ok 2))]
      (handleChunk 7 (handleChunk 7 ⟨.empty, empty⟩ ab (whole 2)).1 cd (whole 2)) := by
  have h_first : Sound 7 (chunkMachine 7 empty).init (.chunk ab (whole 2)) :=
    sound_whole (by decide) fun _ _ h => absurd h (by simp [chunkMachine])
  have h_run : (chunkMachine 7 empty).RunWhen (Sound 7) [(.chunk ab (whole 2), some (.ok 2))]
      (handleChunk 7 ⟨.empty, empty⟩ ab (whole 2)).1 :=
    .step .init h_first rfl
  have h_keys : (handleChunk 7 ⟨.empty, empty⟩ ab (whole 2)).1.uploads.keys = ["u"] := by
    decide +kernel
  refine upload_atomic h_run (sound_whole (by decide) fun u up h_u => ?_)
  by_contra h_ne
  have h_none := Table.get?_eq_none_iff.mpr (h_keys ▸ fun h => h_ne (List.mem_singleton.mp h))
  exact absurd (h_none.symm.trans h_u) (by simp)

/-- Everything but the rename succeeds. -/
def noRename : Outcome :=
  { whole 2 with error := fun op => if op = .rename then some "Error: EISDIR" else none }

/-- A short write passes for a whole one, and a file that cannot be renamed leaves its temp
file behind. -/
theorem upload_not_atomic :
    ¬ Atomic 7 ⟨.empty, empty⟩ only (whole 1) [] (handleChunk 7 ⟨.empty, empty⟩ only (whole 1)) ∧
      ¬ Atomic 7 ⟨.empty, empty⟩ only noRename []
        (handleChunk 7 ⟨.empty, empty⟩ only noRename) := by
  refine ⟨fun h => ?_, fun h => ?_⟩
  · have h_file := (h.published 2 (by decide +kernel) rfl).1
    exact absurd h_file (by decide +kernel)
  · have h_temp : TempOf 7 ⟨.empty, empty⟩ only noRename (tempPath 7 only noRename) :=
      .inr ⟨⟨rfl, rfl, rfl, rfl⟩, rfl⟩
    have h_removed := h.removed "Error: EISDIR" (by decide +kernel) _ h_temp
    exact absurd h_removed (by decide +kernel)

end ServerCentral.Agent.Serial
