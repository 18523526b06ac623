import ServerCentral.Agent.UploadSteps

/-!
# What an upload leaves behind

Along every run in which no chunk passes the offset check while an earlier one of its
upload is still being written, and no successful write is short (`WritesApart`), a path
holds the whole content of the upload that was last published to it, or what it held
before; a final chunk is answered with success only after its handler has published;
and a handler that answers with an error never publishes (`uploads_safe`).

The condition is needed: `runUploadChunk` advances the running total only after the
write it awaits, so a duplicate that arrives meanwhile passes the same check and its
bytes are appended a second time (`upload_doubles`).
-/

open Framework

namespace ServerCentral.Agent

variable {plan : String → Upload}

/-! ### Steps -/

/-- The handler `t` takes a step, and the others do not. -/
structure Acts (s s' : UploadState) (t : ℕ) : Prop where
  calls : s.calls ≤ s'.calls
  lt : t < s'.calls
  other : ∀ t', t' ≠ t → s'.tasks.get? t' = s.tasks.get? t'
  ids : ∀ x upload, s.objects.get? x = some upload →
    ∃ upload', s'.objects.get? x = some upload' ∧ upload'.uploadId = upload.uploadId

/-- The handler `t` has no rename behind it. -/
def Unpublished (s : UploadState) (t : ℕ) : Prop :=
  ∀ m x, s.tasks.get? t ≠ some (.publishing m x true)

theorem Unpublished.of_eq {s : UploadState} {t : ℕ} {o : Option UploadTask}
    (h : s.tasks.get? t = o) (h_o : ∀ m x, o ≠ some (.publishing m x true)) : Unpublished s t := by
  intro m x
  rw [h]
  exact h_o m x

/-- A change of one object that keeps its id. -/
theorem ids_modify {objects : Table ℕ ActiveUpload} {x y : ℕ} {f : ActiveUpload → ActiveUpload}
    {upload : ActiveUpload} (h_f : ∀ upload, (f upload).uploadId = upload.uploadId)
    (h : objects.get? y = some upload) :
    ∃ upload', (objects.modify x f).get? y = some upload' ∧
      upload'.uploadId = upload.uploadId := by
  refine ⟨_, by rw [Table.get?_modify, h, Option.map_some], ?_⟩
  split
  · exact h_f upload
  · rfl

/-- What a step of the handler `t` reports. -/
inductive EventShape (s s' : UploadState) (t : ℕ) : UploadEvent → Prop
  | quiet (h : Acts s s' t) (h_renamed : s'.renamed = s.renamed) (h_before : Unpublished s t)
      (h_after : Unpublished s' t) : EventShape s s' t .quiet
  | refuses {m : UploadChunkRequest} {message : String} (h : Acts s s' t)
      (h_renamed : s'.renamed = s.renamed) (h_before : Unpublished s t)
      (h_gone : s'.tasks.get? t = none) : EventShape s s' t (.answered t m (.error message))
  | acknowledges {m : UploadChunkRequest} {n : ℕ} (h : Acts s s' t)
      (h_renamed : s'.renamed = s.renamed) (h_before : Unpublished s t)
      (h_gone : s'.tasks.get? t = none) (h_final : m.final = false) :
      EventShape s s' t (.answered t m (.ok n))
  | finishes {m : UploadChunkRequest} {x : ℕ} (h : Acts s s' t)
      (h_renamed : s'.renamed = s.renamed) (h_task : s.tasks.get? t = some (.publishing m x true))
      (h_gone : s'.tasks.get? t = none) : EventShape s s' t (.answered t m (.ok (s.total x)))
  | publishes {m : UploadChunkRequest} {x : ℕ} {upload : ActiveUpload} (h : Acts s s' t)
      (h_get : s.objects.get? x = some upload)
      (h_renamed : s'.renamed = s.renamed.set upload.path x)
      (h_task : s.tasks.get? t = some (.publishing m x false))
      (h_own : s'.tasks.get? t = some (.publishing m x true)) :
      EventShape s s' t (.published t m)

theorem Moves.acts {s s' : UploadState} {t : ℕ} {new : Option UploadTask} (h : Moves s s' t new)
    (h_t : t < s'.calls) : Acts s s' t :=
  ⟨h.calls, h_t, h.other, fun _ upload h_get => ⟨upload, h.objects ▸ h_get, rfl⟩⟩

theorem Moves.unpublished {s s' : UploadState} {t : ℕ} {new : Option UploadTask}
    (h : Moves s s' t new) (h_new : ∀ m x, new ≠ some (.publishing m x true)) :
    Unpublished s' t := by
  intro m x h_get
  exact h_new m x (h.own.symm.trans h_get)

/-- A suspended handler, or one that has ended. -/
theorem Moves.suspend {s : UploadState} {t : ℕ} (task : UploadTask) {uploads : Table String ℕ}
    {temps : List ℕ} (h : ∀ u x, uploads.get? u = some x → s.uploads.get? u = some x) :
    Moves s ({ s with uploads := uploads, temps := temps }.suspend t task) t (some task) :=
  ⟨rfl, rfl, Nat.le_refl _, Table.get?_set_self _ _ _,
    fun _ h_ne => Table.get?_set_of_ne _ _ h_ne, h⟩

theorem Moves.finish {s : UploadState} {t : ℕ} {temps : List ℕ} :
    Moves s ({ s with temps := temps }.finish t) t none :=
  ⟨rfl, rfl, Nat.le_refl _, Table.get?_erase_self _ _,
    fun _ h_ne => Table.get?_erase_of_ne _ h_ne, fun _ _ h => h⟩

/-- A handler that is about to reply. -/
theorem EventShape.replied {s s' : UploadState} {t : ℕ} {reply : Reply}
    (h : Moves s s' t none) (h_t : t < s'.calls) (h_before : Unpublished s t) :
    EventShape s s' t (UploadState.replied t reply) := by
  cases reply with
  | none => exact .quiet (h.acts h_t) h.renamed h_before (h.unpublished (by simp))
  | some r => exact .refuses (h.acts h_t) h.renamed h_before h.own

/-- `discardUpload` takes the upload out of the map. -/
theorem discardUpload_step {s : UploadState} {t : ℕ} (uploadId : String) (reply : Reply)
    (hi : UploadInv plan s) (h_t : t < s.calls) (h_before : Unpublished s t)
    (h_id : ∀ m x landed, s.tasks.get? t = some (.writing m x landed) → m.uploadId = uploadId) :
    UploadInv plan (s.discardUpload t uploadId reply).1 ∧
      EventShape s (s.discardUpload t uploadId reply).1 t
        (s.discardUpload t uploadId reply).2 := by
  -- an object that `t` writes to is in the map under this id, if at all
  have h_owner : ∀ task x, s.tasks.get? t = some task → task.writesTo x = true →
      ∀ u, s.uploads.get? u = some x → u = uploadId := by
    intro task x h_task h_writes u h_u
    obtain ⟨m, landed, rfl, -⟩ := UploadTask.writesTo_iff.mp h_writes
    obtain ⟨-, upload, h_get, h_upload, -⟩ := hi.task t _ h_task
    obtain ⟨upload', h_get', h_upload', -⟩ := hi.map u x h_u
    obtain rfl := Option.some.inj (h_get.symm.trans h_get')
    exact h_upload'.symm.trans (h_upload.trans (h_id m x landed h_task))
  unfold UploadState.discardUpload
  split
  · next h_none =>
    have h_moves : Moves s (s.finish t) t none := .finish
    refine ⟨hi.moves h_moves h_t (by simp) fun task x h_task h_writes u h_u => ?_,
      .replied h_moves h_t h_before⟩
    obtain rfl := h_owner task x h_task h_writes u h_u
    exact absurd (h_none.symm.trans h_u) (by simp)
  · next x h_x =>
    have h_moves : Moves s ({ s with uploads := s.uploads.erase uploadId }.suspend t
        (.discarding x reply)) t (some (.discarding x reply)) :=
      .suspend _ fun u y h => (Table.get?_erase.mp h).1
    refine ⟨hi.moves h_moves h_t (fun task h_eq => ?_) fun task y h_task h_writes u h_u => ?_,
      .quiet (h_moves.acts h_t) rfl h_before (h_moves.unpublished (by simp))⟩
    · obtain rfl := Option.some.inj h_eq
      exact ⟨fun _ => rfl, trivial⟩
    · obtain ⟨h_old, h_ne⟩ := Table.get?_erase.mp h_u
      exact h_ne (h_owner task y h_task h_writes u h_old)

/-- A chunk that passes the checks starts its write. -/
theorem checked_step {s : UploadState} {t x : ℕ} {m : UploadChunkRequest} {upload : ActiveUpload}
    (hi : UploadInv plan s) (h_t : t < s.calls) (h_new : s.tasks.get? t = none)
    (h_slice : SliceOf plan m) (h_map : s.uploads.get? m.uploadId = some x)
    (h_get : s.objects.get? x = some upload)
    (h_apart : m.offset = upload.bytesWritten → m.content = [] ∨ Unwritten s x) :
    UploadInv plan (s.checked t m x upload).1 ∧
      EventShape s (s.checked t m x upload).1 t (s.checked t m x upload).2 := by
  have h_before : Unpublished s t := .of_eq h_new (by simp)
  have h_fail : ∀ message, UploadInv plan (s.fail t m message).1 ∧
      EventShape s (s.fail t m message).1 t (s.fail t m message).2 := fun message =>
    discardUpload_step _ _ hi h_t h_before fun m' y landed h => absurd (h_new.symm.trans h) (by simp)
  unfold UploadState.checked
  split
  · exact h_fail _
  · next h_offset =>
    split
    · exact h_fail _
    · have h_moves : Moves s (s.suspend t (.writing m x none)) t (some (.writing m x none)) :=
        .suspend _ fun _ _ h => h
      refine ⟨hi.accepts h_moves h_t (fun task y h => ?_) h_slice h_map h_get
        (not_not.mp h_offset) (h_apart (not_not.mp h_offset)),
        .quiet (h_moves.acts h_t) rfl h_before (h_moves.unpublished (by simp))⟩
      exact absurd (h_new.symm.trans h) (by simp)

/-- A message arrives. -/
theorem runUploadChunk_step {s : UploadState} {t : ℕ} {m : UploadChunkRequest}
    (hi : UploadInv plan s) (h_t : t < s.calls) (h_new : s.tasks.get? t = none)
    (h_object : s.objects.get? t = none) (h_slice : SliceOf plan m)
    (h_apart : ∀ p ∈ s.find? m.uploadId, m.offset = p.2.bytesWritten →
      m.content = [] ∨ Unwritten s p.1) :
    UploadInv plan (s.runUploadChunk t m).1 ∧
      EventShape s (s.runUploadChunk t m).1 t (s.runUploadChunk t m).2 := by
  have h_before : Unpublished s t := .of_eq h_new (by simp)
  unfold UploadState.runUploadChunk
  split
  · next x upload h_find =>
    obtain ⟨y, h_map, h_pair⟩ := Option.bind_eq_some_iff.mp h_find
    obtain ⟨up, h_get, h_eq⟩ := Option.map_eq_some_iff.mp h_pair
    obtain ⟨rfl, rfl⟩ := Prod.mk.inj h_eq
    exact checked_step hi h_t h_new h_slice h_map h_get (h_apart _ h_find)
  · split
    · next h_zero =>
      have h_moves : Moves s (s.suspend t (.opening m)) t (some (.opening m)) :=
        .suspend _ fun _ _ h => h
      refine ⟨hi.moves h_moves h_t (fun task h_eq => ?_) fun task x h => ?_,
        .quiet (h_moves.acts h_t) rfl h_before (h_moves.unpublished (by simp))⟩
      · obtain rfl := Option.some.inj h_eq
        exact ⟨fun _ => rfl, h_slice, h_zero, h_object⟩
      · exact absurd (h_new.symm.trans h) (by simp)
    · exact discardUpload_step _ _ hi h_t h_before fun m' y landed h =>
        absurd (h_new.symm.trans h) (by simp)

/-- The temp file is there. -/
theorem opened_step {s : UploadState} {t : ℕ} {m : UploadChunkRequest} (hi : UploadInv plan s)
    (h_task : s.tasks.get? t = some (.opening m)) :
    UploadInv plan (s.opened t m).1 ∧ EventShape s (s.opened t m).1 t (s.opened t m).2 := by
  obtain ⟨h_slice, h_zero, h_none⟩ := hi.task t _ h_task
  have h_opened := hi.opened h_task
  have h_t := hi.born t _ h_task
  have h_eq : s.opened t m = ({ s with
      objects := s.objects.set t ⟨m.uploadId, normalizePath m.path, [], 0⟩
      temps := t :: s.temps
      uploads := s.uploads.set m.uploadId t }.suspend t (.writing m t none), .quiet) := by
    simp only [UploadState.opened, UploadState.checked, h_zero, ne_eq, not_true_eq_false, if_false]
  rw [h_eq]
  constructor
  · have h_own : (s.objects.set t ⟨m.uploadId, normalizePath m.path, [], 0⟩).get? t =
        some ⟨m.uploadId, normalizePath m.path, [], 0⟩ := Table.get?_set_self _ _ _
    refine h_opened.accepts
      ⟨rfl, rfl, Nat.le_refl _, Table.get?_set_self _ _ _, fun t' h_ne => ?_, fun _ _ h => h⟩ h_t
      (fun task y h => ?_) h_slice (Table.get?_set_self _ _ _) h_own h_zero
      (.inr fun t' task h => ?_)
    · exact (Table.get?_set_of_ne _ _ h_ne).trans (Table.get?_erase_of_ne _ h_ne).symm
    · exact absurd h (by simp [UploadState.finish])
    · -- whoever writes to an object knew it before
      obtain ⟨h_before, -⟩ := Table.get?_erase.mp h
      cases h_writes : task.writesTo t with
      | false => rfl
      | true =>
        obtain ⟨m', landed, rfl, -⟩ := UploadTask.writesTo_iff.mp h_writes
        obtain ⟨-, upload, h_get, -⟩ := hi.task t' _ h_before
        exact absurd (h_none.symm.trans h_get) (by simp)
  · refine .quiet ⟨Nat.le_refl _, h_t, fun t' h_ne => Table.get?_set_of_ne _ _ h_ne,
      fun y up h_up => ⟨up, ?_, rfl⟩⟩ rfl (fun m' y => ?_) fun m' y => ?_
    · have h_ne : y ≠ t := by
        rintro rfl
        exact absurd (h_none.symm.trans h_up) (by simp)
      exact (Table.get?_set_of_ne _ _ h_ne).trans h_up
    · rw [h_task]
      simp
    · simp [UploadState.suspend]

/-- A write has succeeded, and all of the slice has landed. -/
theorem written_step {s : UploadState} {t x : ℕ} {m : UploadChunkRequest} (hi : UploadInv plan s)
    (h_task : s.tasks.get? t = some (.writing m x (some m.content.length))) :
    UploadInv plan (s.written t m x).1 ∧ EventShape s (s.written t m x).1 t (s.written t m x).2 := by
  obtain ⟨h_wrote, h_complete⟩ := hi.wrote h_task
  obtain ⟨h_slice, upload, h_get, h_id, -⟩ := hi.task t _ h_task
  have h_t := hi.born t _ h_task
  have h_before : Unpublished s t := .of_eq h_task (by simp)
  have h_ids : ∀ y up, s.objects.get? y = some up → ∃ up', (s.objects.modify x fun upload =>
      { upload with bytesWritten := upload.bytesWritten + m.content.length }).get? y = some up' ∧
        up'.uploadId = up.uploadId := fun y up => ids_modify fun _ => rfl
  unfold UploadState.written
  dsimp only
  split
  · next h_final =>
    have h_done := h_complete h_final
    refine ⟨h_wrote.moves ⟨rfl, rfl, Nat.le_refl _,
      Table.get?_set_self _ _ _, fun t' h_ne => ?_, fun u y h => (Table.get?_erase.mp h).1⟩ h_t
      (fun task h_eq => ?_) (fun task y h => ?_),
      .quiet ⟨Nat.le_refl _, h_t, fun t' h_ne => Table.get?_set_of_ne _ _ h_ne, h_ids⟩ rfl
        h_before fun m' y => ?_⟩
    · exact (Table.get?_set_of_ne _ _ h_ne).trans (Table.get?_erase_of_ne _ h_ne).symm
    · obtain rfl := Option.some.inj h_eq
      obtain ⟨upload', h_get', h_id'⟩ := h_ids x upload h_get
      exact ⟨fun _ => rfl, h_slice, h_final, h_done, upload', h_get', h_id'.trans h_id⟩
    · exact absurd h (by simp [UploadState.finish])
    · simp [UploadState.suspend]
  · next h_final =>
    exact ⟨h_wrote, .acknowledges ⟨Nat.le_refl _, h_t,
      fun t' h_ne => Table.get?_erase_of_ne _ h_ne, h_ids⟩ rfl h_before
      (Table.get?_erase_self _ _) (by simpa using h_final)⟩

/-- A handler goes on after an await. -/
theorem resumed_step {s s' : UploadState} {t : ℕ} {task : UploadTask} {error : Option String}
    {e : UploadEvent} (hi : UploadInv plan s) (h_task : s.tasks.get? t = some task)
    (h_ok : WritesApart plan s (.resume t error))
    (hs : s.resumed t error task = some (s', e)) : UploadInv plan s' ∧ EventShape s s' t e := by
  have h_t := hi.born t task h_task
  have h_inv := hi.task t task h_task
  have h_fail : ∀ (m : UploadChunkRequest) message, Unpublished s t →
      (∀ m' y landed, task = .writing m' y landed → m'.uploadId = m.uploadId) →
      s.fail t m message = (s', e) → UploadInv plan s' ∧ EventShape s s' t e := by
    intro m message h_before h_id h_eq
    have h_step := discardUpload_step m.uploadId (some (m, message)) hi h_t h_before
      fun m' y landed h => h_id m' y landed (Option.some.inj (h_task.symm.trans h))
    have h_pair : s.discardUpload t m.uploadId (some (m, message)) = (s', e) := h_eq
    rwa [h_pair] at h_step
  have h_moves : ∀ (new : UploadTask), (∀ x, task.writesTo x = false) →
      (∀ x, new.writesTo x = false) → TaskInv plan s t new →
      UploadInv plan (s.suspend t new) ∧ Moves s (s.suspend t new) t (some new) := by
    intro new h_old h_new h_new_inv
    have h_move : Moves s (s.suspend t new) t (some new) := .suspend _ fun _ _ h => h
    refine ⟨hi.moves h_move h_t (fun task' h_eq => ?_) fun task' x h h_writes => ?_, h_move⟩
    · obtain rfl := Option.some.inj h_eq
      exact ⟨h_new, h_new_inv⟩
    · obtain rfl := Option.some.inj (h_task.symm.trans h)
      exact absurd h_writes (by rw [h_old x]; simp)
  cases task with
  | opening m =>
    have h_before : Unpublished s t := .of_eq h_task (by simp)
    cases error with
    | some message => exact h_fail m message h_before (by simp) (Option.some.inj hs)
    | none =>
      have h_eq : s.opened t m = (s', e) := Option.some.inj hs
      have h_step := opened_step hi h_task
      rwa [h_eq] at h_step
  | writing m x landed =>
    have h_before : Unpublished s t := .of_eq h_task (by simp)
    cases error with
    | some message =>
      refine h_fail m message h_before (fun m' y landed' h_eq => ?_) (Option.some.inj hs)
      rw [(UploadTask.writing.inj h_eq).1]
    | none =>
      cases landed with
      | none => exact absurd hs (by simp [UploadState.resumed])
      | some n =>
        have h_all : n = m.content.length := by
          simpa only [WritesApart, h_task] using h_ok
        subst h_all
        have h_eq : s.written t m x = (s', e) := Option.some.inj hs
        have h_step := written_step hi h_task
        rwa [h_eq] at h_step
  | closing m x =>
    have h_before : Unpublished s t := .of_eq h_task (by simp)
    cases error with
    | some message => exact h_fail m message h_before (by simp) (Option.some.inj hs)
    | none =>
      obtain ⟨rfl, rfl⟩ := Prod.mk.inj (Option.some.inj hs)
      obtain ⟨h_next, h_move⟩ := h_moves (.publishing m x false) (fun _ => rfl) (fun _ => rfl) h_inv
      exact ⟨h_next, .quiet (h_move.acts h_t) rfl h_before (h_move.unpublished (by simp))⟩
  | publishing m x done =>
    cases error with
    | some message =>
      cases done with
      | true => exact absurd hs (by simp [UploadState.resumed])
      | false =>
        have h_before : Unpublished s t := .of_eq h_task (by simp)
        exact h_fail m message h_before (by simp) (Option.some.inj hs)
    | none =>
      cases done with
      | false => exact absurd hs (by simp [UploadState.resumed])
      | true =>
        obtain ⟨rfl, rfl⟩ := Prod.mk.inj (Option.some.inj hs)
        have h_move : Moves s (s.finish t) t none := .finish
        refine ⟨hi.moves h_move h_t (by simp) fun task' y h h_writes => ?_,
          .finishes (h_move.acts h_t) rfl h_task h_move.own⟩
        obtain rfl := Option.some.inj (h_task.symm.trans h)
        exact absurd h_writes (by simp [UploadTask.writesTo])
  | discarding x reply =>
    have h_before : Unpublished s t := .of_eq h_task (by simp)
    obtain ⟨rfl, rfl⟩ := Prod.mk.inj (Option.some.inj hs)
    obtain ⟨h_next, h_move⟩ := h_moves (.removing x reply) (fun _ => rfl) (fun _ => rfl) trivial
    exact ⟨h_next, .quiet (h_move.acts h_t) rfl h_before (h_move.unpublished (by simp))⟩
  | removing x reply =>
    have h_before : Unpublished s t := .of_eq h_task (by simp)
    obtain ⟨rfl, rfl⟩ := Prod.mk.inj (Option.some.inj hs)
    have h_move : ∀ temps, Moves s ({ s with temps := temps }.finish t) t none := fun _ => .finish
    refine ⟨hi.moves (h_move _) h_t (by simp) fun task' y h h_writes => ?_,
      .replied (h_move _) h_t h_before⟩
    obtain rfl := Option.some.inj (h_task.symm.trans h)
    exact absurd h_writes (by simp [UploadTask.writesTo])

/-- Bytes of a write land. -/
theorem land_step {s s' : UploadState} {t n : ℕ} {e : UploadEvent} (hi : UploadInv plan s)
    (hs : s.land t n = some (s', e)) : UploadInv plan s' ∧ EventShape s s' t e := by
  unfold UploadState.land at hs
  split at hs
  · next m x h_task =>
    split at hs
    · next h_n =>
      obtain ⟨rfl, rfl⟩ := Prod.mk.inj (Option.some.inj hs)
      have h_before : Unpublished s t := .of_eq h_task (by simp)
      refine ⟨hi.lands h_task h_n, .quiet ⟨Nat.le_refl _, hi.born t _ h_task,
        fun t' h_ne => Table.get?_set_of_ne _ _ h_ne, fun y up h_up => ?_⟩ rfl h_before fun m' y => ?_⟩
      · exact ids_modify (fun _ => rfl) h_up
      · simp [UploadState.suspend]
    · exact absurd hs (by simp)
  · exact absurd hs (by simp)

/-- A finished file reaches its target. -/
theorem rename_step {s s' : UploadState} {t : ℕ} {e : UploadEvent} (hi : UploadInv plan s)
    (hs : s.rename t = some (s', e)) : UploadInv plan s' ∧ EventShape s s' t e := by
  unfold UploadState.rename at hs
  split at hs
  · next m x h_task =>
    split at hs
    · obtain ⟨upload, h_get, h_eq⟩ := Option.map_eq_some_iff.mp hs
      obtain ⟨rfl, rfl⟩ := Prod.mk.inj h_eq
      have h_t := hi.born t _ h_task
      have h_inv := hi.task t _ h_task
      -- apart from the target, a frame step
      have h_move : ∀ temps, Moves s ({ s with temps := temps }.suspend t (.publishing m x true)) t
          (some (.publishing m x true)) := fun _ => .suspend _ fun _ _ h => h
      have h_framed := hi.moves (h_move (s.temps.filter (· ≠ x))) h_t (fun task h_eq => by
        obtain rfl := Option.some.inj h_eq
        exact ⟨fun _ => rfl, h_inv⟩) fun task y h h_writes => by
        obtain rfl := Option.some.inj (h_task.symm.trans h)
        exact absurd h_writes (by simp [UploadTask.writesTo])
      refine ⟨⟨h_framed.object, h_framed.born, fun t' task h => ?_, h_framed.map, fun p y h => ?_⟩,
        .publishes ⟨Nat.le_refl _, h_t, fun _ h_ne => Table.get?_set_of_ne _ _ h_ne,
          fun _ up h_up => ⟨up, h_up, rfl⟩⟩ h_get rfl h_task (Table.get?_set_self _ _ _)⟩
      · exact (h_framed.task t' task h).mono (fun y up h_up => ⟨up, h_up, rfl⟩) (fun _ h => h)
          (fun m' h_eq => by
            subst h_eq
            exact (h_framed.task t' _ h).2.2)
          fun y _ => ⟨rfl, fun _ _ h_task' _ => .inr h_task'⟩
      · rcases Table.get?_set_eq_some h with ⟨rfl, rfl⟩ | ⟨-, h_old⟩
        · obtain ⟨-, -, h_complete, -⟩ := h_framed.task t _ (Table.get?_set_self _ _ _)
          exact ⟨h_complete, upload, h_get, rfl⟩
        · exact h_framed.renamed p y h_old
    · exact absurd hs (by simp)
  · exact absurd hs (by simp)

/-- **Step lemma.** The handler that takes the step is a new one or was suspended. -/
theorem UploadInv.step {s s' : UploadState} {l : UploadLabel} {e : UploadEvent}
    (hi : UploadInv plan s) (h_ok : WritesApart plan s l) (hs : s.step plan l = some (s', e)) :
    UploadInv plan s' ∧ ∃ t, (t = s.calls ∨ ∃ task, s.tasks.get? t = some task) ∧
      EventShape s s' t e := by
  -- a handler that starts has a number of its own
  have h_new : s.tasks.get? s.calls = none := by
    rw [Option.eq_none_iff_forall_ne_some]
    exact fun task h => absurd (hi.born _ task h) (Nat.lt_irrefl _)
  have h_object : s.objects.get? s.calls = none := by
    rw [Option.eq_none_iff_forall_ne_some]
    exact fun upload h => absurd (hi.object _ upload h).1 (Nat.lt_irrefl _)
  have h_called : UploadInv plan { s with calls := s.calls + 1 } := by
    have h_move : Moves s { s with calls := s.calls + 1 } s.calls none :=
      ⟨rfl, rfl, Nat.le_succ _, h_new, fun _ _ => rfl, fun _ _ h => h⟩
    exact hi.moves h_move (Nat.lt_succ_self _) (by simp) fun task x h =>
      absurd (h_new.symm.trans h) (by simp)
  have h_shape : ∀ {s' t e}, EventShape { s with calls := s.calls + 1 } s' t e →
      EventShape s s' t e := by
    rintro s' t e h
    have h_acts : Acts { s with calls := s.calls + 1 } s' t → Acts s s' t := fun h =>
      ⟨(Nat.le_succ _).trans h.calls, h.lt, h.other, h.ids⟩
    cases h with
    | quiet h h_renamed h_before h_after => exact .quiet (h_acts h) h_renamed h_before h_after
    | refuses h h_renamed h_before h_gone => exact .refuses (h_acts h) h_renamed h_before h_gone
    | acknowledges h h_renamed h_before h_gone h_final =>
      exact .acknowledges (h_acts h) h_renamed h_before h_gone h_final
    | finishes h h_renamed h_task h_gone => exact .finishes (h_acts h) h_renamed h_task h_gone
    | publishes h h_get h_renamed h_task h_own =>
      exact .publishes (h_acts h) h_get h_renamed h_task h_own
  cases l with
  | deliver uploadId i =>
    obtain ⟨m, h_chunk, h_eq⟩ := Option.map_eq_some_iff.mp hs
    obtain ⟨h_slice, rfl⟩ := SliceOf.of_chunk h_chunk
    have h_step := runUploadChunk_step h_called (Nat.lt_succ_self _) h_new h_object h_slice
      fun p h_p h_offset => (h_ok m h_chunk p h_p h_offset).imp id fun h_apart t task h_get =>
        h_apart task (Table.get?_of_mem_values.mpr ⟨t, h_get⟩)
    rw [h_eq] at h_step
    exact ⟨h_step.1, s.calls, .inl rfl, h_shape h_step.2⟩
  | abort uploadId =>
    have h_step := discardUpload_step uploadId none h_called (Nat.lt_succ_self _)
      (fun m x h => absurd (h_new.symm.trans h) (by simp))
      fun m x landed h => absurd (h_new.symm.trans h) (by simp)
    rw [Option.some.inj hs] at h_step
    exact ⟨h_step.1, s.calls, .inl rfl, h_shape h_step.2⟩
  | land t n =>
    obtain ⟨h_inv, h_event⟩ := land_step hi hs
    refine ⟨h_inv, t, .inr ?_, h_event⟩
    simp only [UploadState.step, UploadState.land] at hs
    split at hs
    · next h_task => exact ⟨_, h_task⟩
    · exact absurd hs (by simp)
  | rename t =>
    obtain ⟨h_inv, h_event⟩ := rename_step hi hs
    refine ⟨h_inv, t, .inr ?_, h_event⟩
    simp only [UploadState.step, UploadState.rename] at hs
    split at hs
    · next h_task => exact ⟨_, h_task⟩
    · exact absurd hs (by simp)
  | resume t error =>
    obtain ⟨task, h_task, h_resumed⟩ := Option.bind_eq_some_iff.mp hs
    obtain ⟨h_inv, h_event⟩ := resumed_step hi h_task h_ok h_resumed
    exact ⟨h_inv, t, .inr ⟨task, h_task⟩, h_event⟩

/-! ### Publications -/

/-- The handler `t` has published the file that its message `m` completes. -/
def Published (tr : List (UploadLabel × UploadEvent)) (t : ℕ) (m : UploadChunkRequest) : Prop :=
  ∃ l, (l, UploadEvent.published t m) ∈ tr

/-- The upload whose file a step publishes to `p`. -/
def publishedTo (p : String) : UploadLabel × UploadEvent → Option String
  | (_, .published _ m) => if normalizePath m.path = p then some m.uploadId else none
  | _ => none

/-- The upload that was last published to `p`. -/
def lastPublished (p : String) (tr : List (UploadLabel × UploadEvent)) : Option String :=
  (tr.filterMap (publishedTo p)).getLast?

theorem published_snoc {tr : List (UploadLabel × UploadEvent)} {l : UploadLabel} {e : UploadEvent}
    {t : ℕ} {m : UploadChunkRequest} :
    Published (tr ++ [(l, e)]) t m ↔ Published tr t m ∨ e = .published t m := by
  constructor
  · rintro ⟨l', h⟩
    rcases List.mem_append.mp h with h | h
    · exact .inl ⟨l', h⟩
    · exact .inr (Prod.mk.inj (List.mem_singleton.mp h)).2.symm
  · rintro (⟨l', h⟩ | rfl)
    · exact ⟨l', List.mem_append_left _ h⟩
    · exact ⟨l, List.mem_append_right _ (List.mem_singleton.mpr rfl)⟩

theorem lastPublished_snoc (p : String) (tr : List (UploadLabel × UploadEvent)) (l : UploadLabel)
    (e : UploadEvent) :
    lastPublished p (tr ++ [(l, e)]) = (publishedTo p (l, e)).or (lastPublished p tr) := by
  unfold lastPublished
  rw [List.filterMap_append]
  cases h : publishedTo p (l, e) with
  | none => simp [h]
  | some u => simp [h]

/-- **The invariant with the history.** -/
structure UploadHistory (plan : String → Upload) (tr : List (UploadLabel × UploadEvent))
    (s : UploadState) : Prop where
  last : ∀ p, (s.renamed.get? p).bind (fun x => (s.objects.get? x).map ActiveUpload.uploadId) =
    lastPublished p tr
  done : ∀ t m x, s.tasks.get? t = some (.publishing m x true) → Published tr t m
  live : ∀ t m, (s.calls ≤ t ∨ ∃ task, s.tasks.get? t = some task) → Unpublished s t →
    ¬ Published tr t m
  refused : ∀ l t m message, (l, UploadEvent.answered t m (.error message)) ∈ tr →
    t < s.calls ∧ s.tasks.get? t = none ∧ ∀ m', ¬ Published tr t m'
  path : ∀ t m, Published tr t m → m.path = (plan m.uploadId).path

/-- A target that is not renamed onto keeps its upload. -/
theorem UploadHistory.last_same {tr : List (UploadLabel × UploadEvent)} {s s' : UploadState}
    {t : ℕ} {l : UploadLabel} {e : UploadEvent} (hh : UploadHistory plan tr s)
    (hi : UploadInv plan s) (h : Acts s s' t) (h_renamed : s'.renamed = s.renamed)
    (h_e : ∀ t' m, e ≠ .published t' m) (p : String) :
    (s'.renamed.get? p).bind (fun x => (s'.objects.get? x).map ActiveUpload.uploadId) =
      lastPublished p (tr ++ [(l, e)]) := by
  have h_none : publishedTo p (l, e) = none := by
    unfold publishedTo
    split
    · next h_eq => exact absurd (Prod.mk.inj h_eq).2 (h_e _ _)
    · rfl
  rw [lastPublished_snoc, h_none, Option.none_or, ← hh.last p, h_renamed]
  cases h_p : s.renamed.get? p with
  | none => rfl
  | some x =>
    obtain ⟨-, upload, h_get, -⟩ := hi.renamed p x h_p
    obtain ⟨upload', h_get', h_id⟩ := h.ids x upload h_get
    rw [Option.bind_some, Option.bind_some, h_get, h_get', Option.map_some, Option.map_some, h_id]

/-- **Step lemma of the history.** -/
theorem UploadHistory.step {tr : List (UploadLabel × UploadEvent)} {s s' : UploadState}
    {l : UploadLabel} {e : UploadEvent} {t : ℕ} (hh : UploadHistory plan tr s)
    (hi : UploadInv plan s) (h_t : t = s.calls ∨ ∃ task, s.tasks.get? t = some task)
    (h : EventShape s s' t e) : UploadHistory plan (tr ++ [(l, e)]) s' := by
  have h_live : s.calls ≤ t ∨ ∃ task, s.tasks.get? t = some task := h_t.imp (·.ge) id
  -- the handler of an earlier refusal is gone, and does not step
  have h_refused : ∀ l' t' m message, (l', UploadEvent.answered t' m (.error message)) ∈ tr →
      t' ≠ t := by
    rintro l' t' m message h_mem rfl
    obtain ⟨h_lt, h_none, -⟩ := hh.refused l' t' m message h_mem
    rcases h_t with h_eq | ⟨task, h_task⟩
    · exact absurd (h_eq ▸ h_lt) (Nat.lt_irrefl _)
    · exact absurd (h_none.symm.trans h_task) (by simp)
  -- what the step says about the other handlers, and about this one
  have h_rest : Acts s s' t → (∀ t' m, e = .published t' m → t' = t) →
      (∀ m x, s'.tasks.get? t = some (.publishing m x true) → e = .published t m) →
      (Unpublished s' t → (∃ task, s'.tasks.get? t = some task) →
        ∀ m, ¬ Published (tr ++ [(l, e)]) t m) →
      (∀ t' m message, e = .answered t' m (.error message) →
        t' = t ∧ s'.tasks.get? t = none ∧ Unpublished s t) →
      (∀ m, e = .published t m → m.path = (plan m.uploadId).path) →
      (∀ p, (s'.renamed.get? p).bind (fun x => (s'.objects.get? x).map ActiveUpload.uploadId) =
        lastPublished p (tr ++ [(l, e)])) → UploadHistory plan (tr ++ [(l, e)]) s' := by
    intro h_acts h_event h_done h_own h_error h_path h_last
    refine ⟨h_last, fun t' m x h_task => ?_, fun t' m h_at h_un => ?_,
      fun l' t' m message h_mem => ?_, fun t' m h_pub => ?_⟩
    · by_cases h_eq : t' = t
      · subst h_eq
        exact (published_snoc).mpr (.inr (h_done m x h_task))
      · exact (published_snoc).mpr (.inl (hh.done t' m x ((h_acts.other t' h_eq).symm.trans h_task)))
    · by_cases h_eq : t' = t
      · subst h_eq
        exact h_own h_un (h_at.resolve_left (Nat.not_le.mpr h_acts.lt)) m
      · rw [published_snoc, not_or]
        refine ⟨hh.live t' m ?_ fun m' x => ?_, fun h_pub => h_eq (h_event t' m h_pub)⟩
        · exact h_at.imp h_acts.calls.trans fun ⟨task, h⟩ =>
            ⟨task, (h_acts.other t' h_eq).symm.trans h⟩
        · exact h_acts.other t' h_eq ▸ h_un m' x
    · rcases List.mem_append.mp h_mem with h_old | h_new
      · have h_ne := h_refused l' t' m message h_old
        obtain ⟨h_lt, h_none, h_un⟩ := hh.refused l' t' m message h_old
        refine ⟨h_lt.trans_le h_acts.calls, (h_acts.other t' h_ne).trans h_none, fun m' => ?_⟩
        rw [published_snoc, not_or]
        exact ⟨h_un m', fun h_pub => h_ne (h_event t' m' h_pub)⟩
      · have h_e := (Prod.mk.inj (List.mem_singleton.mp h_new)).2.symm
        obtain ⟨rfl, h_gone, h_un⟩ := h_error t' m message h_e
        refine ⟨h_acts.lt, h_gone, fun m' => ?_⟩
        rw [published_snoc, not_or, h_e]
        exact ⟨hh.live _ m' h_live h_un, by simp⟩
    · rcases (published_snoc).mp h_pub with h_old | h_e
      · exact hh.path t' m h_old
      · obtain rfl := h_event t' m h_e
        exact h_path m h_e
  cases h with
  | quiet h_acts h_renamed h_before h_after =>
    refine h_rest h_acts (by simp) (fun m x h => absurd h (h_after m x)) (fun _ _ m => ?_) (by simp)
      (by simp) (hh.last_same hi h_acts h_renamed (by simp))
    rw [published_snoc, not_or]
    exact ⟨hh.live t m h_live h_before, by simp⟩
  | refuses h_acts h_renamed h_before h_gone =>
    refine h_rest h_acts (by simp) (by simp [h_gone]) (by simp [h_gone]) (fun t' m message h_eq => ?_)
      (by simp) (hh.last_same hi h_acts h_renamed (by simp))
    obtain ⟨rfl, -⟩ := UploadEvent.answered.inj h_eq
    exact ⟨rfl, h_gone, h_before⟩
  | acknowledges h_acts h_renamed h_before h_gone h_final =>
    exact h_rest h_acts (by simp) (by simp [h_gone]) (by simp [h_gone]) (by simp) (by simp)
      (hh.last_same hi h_acts h_renamed (by simp))
  | finishes h_acts h_renamed h_task h_gone =>
    exact h_rest h_acts (by simp) (by simp [h_gone]) (by simp [h_gone]) (by simp) (by simp)
      (hh.last_same hi h_acts h_renamed (by simp))
  | @publishes m x upload h_acts h_get h_renamed h_task h_own =>
    obtain ⟨h_slice, -, -, up, h_up, h_id⟩ := hi.task t _ h_task
    obtain rfl := Option.some.inj (h_get.symm.trans h_up)
    have h_target : normalizePath m.path = upload.path := by
      rw [(hi.object x upload h_get).2.1, h_id, h_slice.path]
      rfl
    refine h_rest h_acts (fun t' m' h_eq => ?_) (fun m' y h => ?_) (fun h_un => ?_) (by simp)
      (fun m' h_eq => ?_) fun p => ?_
    · exact (UploadEvent.published.inj h_eq).1.symm
    · obtain ⟨rfl, -⟩ := UploadTask.publishing.inj (Option.some.inj (h_own.symm.trans h))
      rfl
    · exact absurd h_own (h_un m x)
    · obtain ⟨-, rfl⟩ := UploadEvent.published.inj h_eq
      exact h_slice.path
    · rw [lastPublished_snoc, h_renamed, Table.get?_set]
      simp only [publishedTo, h_target]
      by_cases h_p : p = upload.path
      · obtain ⟨upload', h_get', h_id'⟩ := h_acts.ids x upload h_get
        rw [if_pos h_p, if_pos h_p.symm, Option.bind_some, h_get', Option.map_some, h_id', h_id]
        rfl
      · rw [if_neg h_p, if_neg (Ne.symm h_p), Option.none_or, ← hh.last p]
        cases h_r : s.renamed.get? p with
        | none => rfl
        | some y =>
          obtain ⟨-, up, h_up, -⟩ := hi.renamed p y h_r
          obtain ⟨up', h_up', h_id'⟩ := h_acts.ids y up h_up
          rw [Option.bind_some, Option.bind_some, h_up, h_up', Option.map_some, Option.map_some,
            h_id']

theorem UploadInv.init (plan : String → Upload) : UploadInv plan (uploadMachine plan).init where
  object _ _ h := absurd h (by simp [uploadMachine])
  born _ _ h := absurd h (by simp [uploadMachine])
  task _ _ h := absurd h (by simp [uploadMachine])
  map _ _ h := absurd h (by simp [uploadMachine])
  renamed _ _ h := absurd h (by simp [uploadMachine])

/-- **Run lemma.** -/
theorem UploadHistory.of_run {tr : List (UploadLabel × UploadEvent)} {s : UploadState}
    (h : (uploadMachine plan).RunWhen (WritesApart plan) tr s) :
    UploadInv plan s ∧ UploadHistory plan tr s := by
  refine h.history (P := fun tr s => UploadInv plan s ∧ UploadHistory plan tr s)
    ⟨.init plan, ?_⟩ fun tr s l s' e _ h_inv h_ok hs => ?_
  · exact ⟨fun _ => rfl, fun _ _ _ h => absurd h (by simp [uploadMachine]),
      fun _ _ _ _ => by simp [Published], fun _ _ _ _ h => absurd h (by simp),
      fun _ _ h => absurd h (by simp [Published])⟩
  · obtain ⟨h_next, t, h_t, h_event⟩ := h_inv.1.step h_ok hs
    exact ⟨h_next, h_inv.2.step h_inv.1 h_t h_event⟩

/-! ### The guarantee -/

/-- What uploads leave behind, `before` being what the disk held at the start. -/
structure UploadsSafe (plan : String → Upload) (before : String → Option (List UInt8))
    (tr : List (UploadLabel × UploadEvent)) (s : UploadState) : Prop where
  /-- A path holds the slices of the upload last published to it, or what it held before. -/
  target : ∀ p, s.read before p =
    match lastPublished p tr with
    | none => before p
    | some u => some (plan u).content
  /-- A final chunk is answered with success after its handler has published. -/
  success : ∀ pre l t m n post, tr = pre ++ (l, .answered t m (.ok n)) :: post → m.final = true →
    Published pre t m ∧ n = (plan m.uploadId).content.length
  /-- A handler that answers with an error never publishes. -/
  failure : ∀ l t m message, (l, UploadEvent.answered t m (.error message)) ∈ tr →
    ∀ m', ¬ Published tr t m'
  /-- An upload that is alone on its target: the target holds its content once a final chunk
  of it is answered with success. -/
  alone : ∀ u, (∀ v, (plan v).target = (plan u).target → v = u) →
    (∃ l t m n, (l, UploadEvent.answered t m (.ok n)) ∈ tr ∧ m.final = true ∧ m.uploadId = u) →
    s.read before (plan u).target = some (plan u).content

/-- A final chunk that is answered with success has been published. -/
theorem success_published {pre post : List (UploadLabel × UploadEvent)} {l : UploadLabel} {t n : ℕ}
    {m : UploadChunkRequest} {s : UploadState}
    (h : (uploadMachine plan).RunWhen (WritesApart plan)
      (pre ++ (l, .answered t m (.ok n)) :: post) s) (h_final : m.final = true) :
    Published pre t m ∧ n = (plan m.uploadId).content.length := by
  obtain ⟨s₁, s₂, h_pre, h_ok, hs, -, -⟩ := h.split_step
  obtain ⟨h_inv, h_history⟩ := UploadHistory.of_run h_pre
  obtain ⟨-, t', -, h_event⟩ := h_inv.step h_ok hs
  cases h_event with
  | acknowledges _ _ _ _ h_not => exact absurd (h_final.symm.trans h_not) (by simp)
  | @finishes _ x _ _ h_task _ =>
    refine ⟨h_history.done _ m x h_task, ?_⟩
    obtain ⟨-, -, ⟨-, upload, h_get, -, h_total⟩, up, h_up, h_id⟩ := h_inv.task _ _ h_task
    obtain rfl := Option.some.inj (h_get.symm.trans h_up)
    simp only [UploadState.total, h_get, Option.elim_some, h_total, h_id]

/-- Something was published where something is last published. -/
theorem lastPublished_of_published {p : String} {tr : List (UploadLabel × UploadEvent)} {t : ℕ}
    {m : UploadChunkRequest} (h : Published tr t m) (h_p : normalizePath m.path = p) :
    ∃ u, lastPublished p tr = some u ∧
      ∃ t' m', Published tr t' m' ∧ normalizePath m'.path = p ∧ m'.uploadId = u := by
  obtain ⟨l, h_mem⟩ := h
  have h_in : m.uploadId ∈ tr.filterMap (publishedTo p) :=
    List.mem_filterMap.mpr ⟨_, h_mem, if_pos h_p⟩
  cases h_last : lastPublished p tr with
  | none =>
    have h_nil : tr.filterMap (publishedTo p) = [] := List.getLast?_eq_none_iff.mp h_last
    exact absurd h_in (by simp [h_nil])
  | some u =>
    refine ⟨u, rfl, ?_⟩
    obtain ⟨⟨l', e⟩, h_e, h_to⟩ := List.mem_filterMap.mp (List.mem_of_getLast? h_last)
    unfold publishedTo at h_to
    split at h_to
    · next _ t' m' h_eq =>
      obtain ⟨rfl, rfl⟩ := Prod.mk.inj h_eq
      split at h_to
      · next h_path => exact ⟨t', m', ⟨l', h_e⟩, h_path, Option.some.inj h_to⟩
      · exact absurd h_to (by simp)
    · exact absurd h_to (by simp)

/-- **Uploads are published whole or not at all**, in every run in which the writes of one
upload do not overlap and are not short. -/
theorem uploads_safe {before : String → Option (List UInt8)}
    {tr : List (UploadLabel × UploadEvent)} {s : UploadState}
    (h : (uploadMachine plan).RunWhen (WritesApart plan) tr s) :
    UploadsSafe plan before tr s := by
  obtain ⟨h_inv, h_history⟩ := UploadHistory.of_run h
  have h_target : ∀ p, s.read before p =
      match lastPublished p tr with
      | none => before p
      | some u => some (plan u).content := by
    intro p
    rw [← h_history.last p]
    unfold UploadState.read
    cases h_p : s.renamed.get? p with
    | none => rfl
    | some x =>
      obtain ⟨⟨-, upload, h_get, h_file, -⟩, -⟩ := h_inv.renamed p x h_p
      simp only [h_get, Option.bind_some, Option.map_some, h_file]
  refine ⟨h_target, ?_, fun l t m message h_mem => (h_history.refused l t m message h_mem).2.2,
    fun u h_alone h_answered => ?_⟩
  · rintro pre l t m n post rfl h_final
    exact success_published h h_final
  · obtain ⟨l, t, m, n, h_mem, h_final, rfl⟩ := h_answered
    obtain ⟨pre, post, rfl⟩ := List.append_of_mem h_mem
    obtain ⟨⟨l', h_pub⟩, -⟩ := success_published h h_final
    have h_published : Published (pre ++ (l, .answered t m (.ok n)) :: post) t m :=
      ⟨l', List.mem_append_left _ h_pub⟩
    have h_path : normalizePath m.path = (plan m.uploadId).target :=
      congrArg normalizePath (h_history.path t m h_published)
    obtain ⟨u, h_last, t', m', h_pub', h_path', rfl⟩ := lastPublished_of_published h_published h_path
    have h_same : m'.uploadId = m.uploadId := by
      refine h_alone _ (Eq.trans ?_ h_path')
      exact (congrArg normalizePath (h_history.path t' m' h_pub')).symm
    rw [h_target, h_last, h_same]

/-! ### Two runs -/

/-- Two slices for one path. -/
def abcd : Upload := ⟨"/srv/../f", [[97, 98], [99, 100]]⟩

/-- The slices one after the other. -/
def inOrder : List UploadLabel :=
  [.deliver "u" 0, .resume 0 none, .land 0 2, .resume 0 none, .deliver "u" 1, .land 1 2,
    .resume 1 none, .resume 1 none, .rename 1, .resume 1 none]

theorem uploads_safe_inOrder : ∃ tr s,
    (uploadMachine fun _ => abcd).exec (uploadMachine fun _ => abcd).init inOrder = some (tr, s) ∧
      s.read (fun _ => none) "/f" = some [97, 98, 99, 100] ∧
      UploadsSafe (fun _ => abcd) (fun _ => none) tr s := by
  obtain ⟨tr, s, h_exec, h_read⟩ :=
    (uploadMachine fun _ => abcd).exec_reads (uploadMachine fun _ => abcd).init inOrder
      (fun s => s.read (fun _ => none) "/f") (some [97, 98, 99, 100]) (by decide +kernel)
  exact ⟨tr, s, h_exec, h_read,
    uploads_safe (Machine.runWhen_of_exec inOrder h_exec (by decide +kernel))⟩

/-- The first slice arrives again while its write is under way. -/
def duplicated : List UploadLabel :=
  [.deliver "u" 0, .resume 0 none, .deliver "u" 0, .land 0 2, .land 1 2, .resume 0 none,
    .deliver "u" 1, .land 2 2, .resume 1 none, .resume 2 none, .resume 2 none, .rename 2,
    .resume 2 none]

/-- Whether a step answers a final chunk with success. -/
def acceptsFinal : UploadLabel × UploadEvent → Bool
  | (_, .answered _ m (.ok _)) => m.final
  | _ => false

/-- The final chunk is answered with success, and the file holds the first slice twice. -/
theorem upload_doubles : ∃ tr s, (uploadMachine fun _ => abcd).Run tr s ∧
    (∃ e ∈ tr, acceptsFinal e = true) ∧
      s.read (fun _ => none) abcd.target = some [97, 98, 97, 98, 99, 100] ∧
        abcd.content = [97, 98, 99, 100] := by
  have h_exec : ((uploadMachine fun _ => abcd).exec (uploadMachine fun _ => abcd).init
      duplicated).map (fun q => (q.1.any acceptsFinal, q.2.read (fun _ => none) abcd.target)) =
        some (true, some [97, 98, 97, 98, 99, 100]) := by decide +kernel
  obtain ⟨⟨tr, s⟩, h_exec, h_eq⟩ := Option.map_eq_some_iff.mp h_exec
  obtain ⟨h_answered, h_read⟩ := Prod.mk.inj h_eq
  exact ⟨tr, s, Machine.run_of_exec duplicated h_exec, List.any_eq_true.mp h_answered, h_read, rfl⟩

end ServerCentral.Agent
