import Mathlib.Data.Nat.Basic
import Mathlib.Order.Basic
import ServerCentral.Agent.Upload

/-!
# The steps of the upload handlers

The invariant `UploadInv` says of the file of every upload in progress that it holds the
content up to the running total, and of a finished one (`Complete`) that it holds all of
it and that nothing is left that could write to it. `UploadState.step_shape` lists what
one step can do; each shape keeps the invariant.

The argument rests on two facts. A chunk passes the offset check only where its slice
belongs, so its bytes extend the file by the right ones; and while its bytes are under
way no other chunk passes the check (`WritesApart`), so they land there.
-/

open Framework

namespace ServerCentral.Agent

variable {plan : String → Upload}

/-! ### Slices -/

/-- The message carries the slice of its upload that belongs at its offset. -/
structure SliceOf (plan : String → Upload) (m : UploadChunkRequest) : Prop where
  path : m.path = (plan m.uploadId).path
  le : m.offset + m.content.length ≤ (plan m.uploadId).content.length
  content : m.content = ((plan m.uploadId).content.drop m.offset).take m.content.length
  final : m.final = true → m.offset + m.content.length = (plan m.uploadId).content.length

/-- The messages of an upload carry its slices. -/
theorem SliceOf.of_chunk {uploadId : String} {i : ℕ} {m : UploadChunkRequest}
    (h : (plan uploadId).chunk uploadId i = some m) : SliceOf plan m ∧ m.uploadId = uploadId := by
  obtain ⟨slice, h_slice, rfl⟩ := Option.map_eq_some_iff.mp h
  obtain ⟨h_lt, rfl⟩ := List.getElem?_eq_some_iff.mp h_slice
  -- the content is what comes before the slice, the slice, and what comes after it
  have h_content : (plan uploadId).content =
      ((plan uploadId).slices.take i).flatten ++ ((plan uploadId).slices[i] ++
        ((plan uploadId).slices.drop (i + 1)).flatten) := by
    rw [← List.flatten_cons, ← List.flatten_append, ← List.drop_eq_getElem_cons h_lt,
      List.take_append_drop]
    rfl
  refine ⟨⟨rfl, ?_, ?_, fun h_final => ?_⟩, rfl⟩
  · show ((plan uploadId).slices.take i).flatten.length + (plan uploadId).slices[i].length ≤
      (plan uploadId).content.length
    rw [h_content, List.length_append, List.length_append]
    omega
  · show _ = ((plan uploadId).content.drop _).take _
    rw [h_content, List.drop_left, List.take_left]
  · have h_last : i + 1 = (plan uploadId).slices.length := of_decide_eq_true h_final
    show _ = (plan uploadId).content.length
    rw [h_content, h_last, List.drop_length, List.flatten_nil, List.append_nil, List.length_append]

/-- Bytes of a slice extend the content that comes before it. -/
theorem SliceOf.extends {m : UploadChunkRequest} (h : SliceOf plan m) {n : ℕ}
    (h_n : n ≤ m.content.length) :
    (plan m.uploadId).content.take m.offset ++ m.content.take n =
      (plan m.uploadId).content.take (m.offset + n) := by
  rw [List.take_add]
  congr 1
  rw [h.content, List.take_take, Nat.min_eq_left h_n]

/-! ### The invariant -/

/-- No handler awaits a write of some bytes to `x`. -/
def Unwritten (s : UploadState) (x : ℕ) : Prop :=
  ∀ t task, s.tasks.get? t = some task → task.writesTo x = false

/-- The file of `x` holds the whole content of its upload, for good. -/
def Complete (plan : String → Upload) (s : UploadState) (x : ℕ) : Prop :=
  Unwritten s x ∧ ∃ upload, s.objects.get? x = some upload ∧
    upload.file = (plan upload.uploadId).content ∧
      upload.bytesWritten = (plan upload.uploadId).content.length

/-- What holds of a suspended handler. -/
def TaskInv (plan : String → Upload) (s : UploadState) (t : ℕ) : UploadTask → Prop
  | .opening m => SliceOf plan m ∧ m.offset = 0 ∧ s.objects.get? t = none
  | .writing m x landed => SliceOf plan m ∧ ∃ upload, s.objects.get? x = some upload ∧
      upload.uploadId = m.uploadId ∧ landed.getD 0 ≤ m.content.length ∧
        if m.content = [] then m.final = true → Complete plan s x
        else m.offset = upload.bytesWritten ∧
          upload.file = (plan m.uploadId).content.take (upload.bytesWritten + landed.getD 0) ∧
          ∀ t' task, s.tasks.get? t' = some task → task.writesTo x = true → t' = t
  | .closing m x => SliceOf plan m ∧ m.final = true ∧ Complete plan s x ∧
      ∃ upload, s.objects.get? x = some upload ∧ upload.uploadId = m.uploadId
  | .publishing m x _ => SliceOf plan m ∧ m.final = true ∧ Complete plan s x ∧
      ∃ upload, s.objects.get? x = some upload ∧ upload.uploadId = m.uploadId
  | _ => True

/-- **The invariant of uploads.** -/
structure UploadInv (plan : String → Upload) (s : UploadState) : Prop where
  object : ∀ x upload, s.objects.get? x = some upload →
    x < s.calls ∧ upload.path = (plan upload.uploadId).target ∧
      upload.bytesWritten ≤ (plan upload.uploadId).content.length
  born : ∀ t task, s.tasks.get? t = some task → t < s.calls
  task : ∀ t task, s.tasks.get? t = some task → TaskInv plan s t task
  map : ∀ u x, s.uploads.get? u = some x → ∃ upload, s.objects.get? x = some upload ∧
    upload.uploadId = u ∧
      (Unwritten s x → upload.file = (plan u).content.take upload.bytesWritten)
  renamed : ∀ p x, s.renamed.get? p = some x → Complete plan s x ∧
    ∃ upload, s.objects.get? x = some upload ∧ upload.path = p

/-- A handler that writes some bytes to an object. -/
theorem UploadTask.writesTo_iff {task : UploadTask} {x : ℕ} :
    task.writesTo x = true ↔ ∃ m landed, task = .writing m x landed ∧ m.content ≠ [] := by
  cases task with
  | writing m y landed =>
    simp only [UploadTask.writesTo, Bool.and_eq_true, decide_eq_true_eq, Bool.not_eq_true',
      List.isEmpty_eq_false_iff]
    constructor
    · rintro ⟨rfl, h⟩
      exact ⟨m, landed, rfl, h⟩
    · rintro ⟨m', landed', h_eq, h⟩
      obtain ⟨rfl, rfl, rfl⟩ := UploadTask.writing.inj h_eq
      exact ⟨rfl, h⟩
  | _ => simp [UploadTask.writesTo]

theorem UploadTask.writesTo_self {m : UploadChunkRequest} {x : ℕ} {landed : Option ℕ} :
    (UploadTask.writing m x landed).writesTo x = true ↔ m.content ≠ [] := by
  simp [UploadTask.writesTo]

theorem UploadTask.writesTo_of_nil {m : UploadChunkRequest} (h : m.content = []) (x y : ℕ)
    (landed : Option ℕ) : (UploadTask.writing m x landed).writesTo y = false := by
  simp [UploadTask.writesTo, h]

theorem UploadTask.eq_of_writesTo {m : UploadChunkRequest} {x y : ℕ} {landed : Option ℕ}
    (h : (UploadTask.writing m x landed).writesTo y = true) : y = x := by
  simp only [UploadTask.writesTo, Bool.and_eq_true, decide_eq_true_eq] at h
  exact h.1.symm

/-- A finished upload has no room for another slice. -/
theorem Complete.no_room {s : UploadState} {x : ℕ} {upload : ActiveUpload}
    {m : UploadChunkRequest} (h : Complete plan s x) (h_get : s.objects.get? x = some upload)
    (h_id : upload.uploadId = m.uploadId) (h_slice : SliceOf plan m)
    (h_offset : m.offset = upload.bytesWritten) : m.content = [] := by
  obtain ⟨-, upload', h_get', -, h_total⟩ := h
  obtain rfl := Option.some.inj (h_get.symm.trans h_get')
  have h_le := h_slice.le
  rw [h_offset, h_total, h_id] at h_le
  exact List.eq_nil_of_length_eq_zero (by omega)

/-- A suspended handler keeps what holds of it, when finished uploads stay finished and the
object it writes to is left alone. -/
theorem TaskInv.mono {s s' : UploadState} {t : ℕ} {task : UploadTask} (h : TaskInv plan s t task)
    (h_objects : ∀ x upload, s.objects.get? x = some upload →
      ∃ upload', s'.objects.get? x = some upload' ∧ upload'.uploadId = upload.uploadId)
    (h_complete : ∀ x, Complete plan s x → Complete plan s' x)
    (h_opening : ∀ m, task = .opening m → s'.objects.get? t = none)
    (h_writer : ∀ x, task.writesTo x = true →
      s'.objects.get? x = s.objects.get? x ∧ ∀ t' task', s'.tasks.get? t' = some task' →
        task'.writesTo x = true → t' = t ∨ s.tasks.get? t' = some task') :
    TaskInv plan s' t task := by
  cases task with
  | opening m => exact ⟨h.1, h.2.1, h_opening m rfl⟩
  | writing m x landed =>
    obtain ⟨h_slice, upload, h_get, h_id, h_le, h_rest⟩ := h
    by_cases h_nil : m.content = []
    · rw [if_pos h_nil] at h_rest
      obtain ⟨upload', h_get', h_id'⟩ := h_objects x upload h_get
      refine ⟨h_slice, upload', h_get', h_id'.trans h_id, h_le, ?_⟩
      rw [if_pos h_nil]
      exact fun h_final => h_complete x (h_rest h_final)
    · rw [if_neg h_nil] at h_rest
      obtain ⟨h_offset, h_file, h_only⟩ := h_rest
      obtain ⟨h_same, h_others⟩ :=
        h_writer x (UploadTask.writesTo_iff.mpr ⟨m, landed, rfl, h_nil⟩)
      refine ⟨h_slice, upload, h_same.trans h_get, h_id, h_le, ?_⟩
      rw [if_neg h_nil]
      refine ⟨h_offset, h_file, fun t' task' h_task' h_writes => ?_⟩
      rcases h_others t' task' h_task' h_writes with h_eq | h_before
      · exact h_eq
      · exact h_only t' task' h_before h_writes
  | closing m x =>
    obtain ⟨h_slice, h_final, h_x, upload, h_get, h_id⟩ := h
    obtain ⟨upload', h_get', h_id'⟩ := h_objects x upload h_get
    exact ⟨h_slice, h_final, h_complete x h_x, upload', h_get', h_id'.trans h_id⟩
  | publishing m x done =>
    obtain ⟨h_slice, h_final, h_x, upload, h_get, h_id⟩ := h
    obtain ⟨upload', h_get', h_id'⟩ := h_objects x upload h_get
    exact ⟨h_slice, h_final, h_complete x h_x, upload', h_get', h_id'.trans h_id⟩
  | discarding x reply => trivial
  | removing x reply => trivial

/-! ### Handlers that go on without touching a file -/

/-- The step of the handler `t` leaves the files as they are; `new` is its next await. -/
structure Moves (s s' : UploadState) (t : ℕ) (new : Option UploadTask) : Prop where
  objects : s'.objects = s.objects
  renamed : s'.renamed = s.renamed
  calls : s.calls ≤ s'.calls
  own : s'.tasks.get? t = new
  other : ∀ t', t' ≠ t → s'.tasks.get? t' = s.tasks.get? t'
  uploads : ∀ u x, s'.uploads.get? u = some x → s.uploads.get? u = some x

/-- A handler that was there before, and is not the one that moves. -/
theorem Moves.cases {s s' : UploadState} {t t' : ℕ} {new : Option UploadTask} {task : UploadTask}
    (h : Moves s s' t new) (h_get : s'.tasks.get? t' = some task) :
    t' = t ∧ new = some task ∨ t' ≠ t ∧ s.tasks.get? t' = some task := by
  by_cases h_t : t' = t
  · subst h_t
    exact .inl ⟨rfl, h.own.symm.trans h_get⟩
  · exact .inr ⟨h_t, (h.other t' h_t).symm.trans h_get⟩

/-- What no handler writes to stays so, when the new await writes nothing. -/
theorem Moves.unwritten {s s' : UploadState} {t x : ℕ} {new : Option UploadTask}
    (h : Moves s s' t new) (h_new : ∀ task, new = some task → task.writesTo x = false)
    (h_x : Unwritten s x) : Unwritten s' x := by
  intro t' task h_get
  rcases h.cases h_get with ⟨-, h_eq⟩ | ⟨-, h_old⟩
  · exact h_new task h_eq
  · exact h_x t' task h_old

theorem Moves.complete {s s' : UploadState} {t x : ℕ} {new : Option UploadTask}
    (h : Moves s s' t new) (h_new : ∀ task, new = some task → task.writesTo x = false)
    (h_x : Complete plan s x) : Complete plan s' x := by
  obtain ⟨h_unwritten, upload, h_get, h_file⟩ := h_x
  exact ⟨h.unwritten h_new h_unwritten, upload, h.objects ▸ h_get, h_file⟩

/-- The other handlers keep what holds of them. -/
theorem Moves.task {s s' : UploadState} {t t' : ℕ} {new : Option UploadTask} {task : UploadTask}
    (h : Moves s s' t new) (h_complete : ∀ x, Complete plan s x → Complete plan s' x)
    (h_writer : ∀ x, task.writesTo x = true → ∀ task', new = some task' →
      task'.writesTo x = true → t = t')
    (h_task : TaskInv plan s t' task) : TaskInv plan s' t' task := by
  refine h_task.mono (fun x upload h_get => ⟨upload, h.objects ▸ h_get, rfl⟩) h_complete
    (fun m h_eq => ?_) fun x h_writes => ⟨by rw [h.objects], fun t₁ task₁ h_get h_writes₁ => ?_⟩
  · subst h_eq
    exact h.objects ▸ h_task.2.2
  · rcases h.cases h_get with ⟨rfl, h_eq⟩ | ⟨-, h_before⟩
    · exact .inl (h_writer x h_writes task₁ h_eq h_writes₁)
    · exact .inr h_before

/-- **Frame lemma.** A handler that goes on without touching a file keeps the invariant. If
it stops writing to an object, the object has to leave the map. -/
theorem UploadInv.moves {s s' : UploadState} {t : ℕ} {new : Option UploadTask}
    (hi : UploadInv plan s) (h : Moves s s' t new) (h_t : t < s'.calls)
    (h_new : ∀ task, new = some task → (∀ x, task.writesTo x = false) ∧ TaskInv plan s t task)
    (h_old : ∀ task x, s.tasks.get? t = some task → task.writesTo x = true →
      ∀ u, s'.uploads.get? u ≠ some x) : UploadInv plan s' where
  object x upload h_get := by
    obtain ⟨h_lt, h_rest⟩ := hi.object x upload (h.objects ▸ h_get)
    exact ⟨h_lt.trans_le h.calls, h_rest⟩
  born t' task h_get := by
    rcases h.cases h_get with ⟨rfl, -⟩ | ⟨-, h_before⟩
    · exact h_t
    · exact (hi.born t' task h_before).trans_le h.calls
  task t' task h_get := by
    have h_complete : ∀ x, Complete plan s x → Complete plan s' x := fun x =>
      h.complete fun task h_eq => (h_new task h_eq).1 x
    have h_writer : ∀ x task', new = some task' → task'.writesTo x = true → t = t' :=
      fun x task' h_eq h_writes => absurd h_writes (by rw [(h_new task' h_eq).1 x]; simp)
    rcases h.cases h_get with ⟨rfl, h_eq⟩ | ⟨-, h_before⟩
    · exact h.task h_complete (fun x _ => h_writer x) (h_new task h_eq).2
    · exact h.task h_complete (fun x _ => h_writer x) (hi.task t' task h_before)
  map u x h_get := by
    obtain ⟨upload, h_object, h_id, h_file⟩ := hi.map u x (h.uploads u x h_get)
    refine ⟨upload, h.objects ▸ h_object, h_id, fun h_unwritten => h_file fun t' task h_t' => ?_⟩
    -- a writer of `x` before the step is the one that moved, and then `x` left the map
    by_cases h_eq : t' = t
    · subst h_eq
      cases h_writes : task.writesTo x with
      | false => rfl
      | true => exact absurd h_get (h_old task x h_t' h_writes u)
    · exact h_unwritten t' task ((h.other t' h_eq).trans h_t')
  renamed p x h_get := by
    obtain ⟨h_complete, h_path⟩ := hi.renamed p x (h.renamed ▸ h_get)
    exact ⟨h.complete (fun task h_eq => (h_new task h_eq).1 x) h_complete, h.objects ▸ h_path⟩

/-! ### Writes -/

/-- The content of the slice at the running total fits in. -/
theorem UploadInv.accepts {s s' : UploadState} {t x : ℕ} {m : UploadChunkRequest}
    {upload : ActiveUpload} (hi : UploadInv plan s) (h : Moves s s' t (some (.writing m x none)))
    (h_t : t < s'.calls) (h_old : ∀ task y, s.tasks.get? t = some task → task.writesTo y = false)
    (h_slice : SliceOf plan m) (h_map : s.uploads.get? m.uploadId = some x)
    (h_get : s.objects.get? x = some upload) (h_offset : m.offset = upload.bytesWritten)
    (h_apart : m.content = [] ∨ Unwritten s x) : UploadInv plan s' := by
  obtain ⟨upload', h_get', h_id, h_file⟩ := hi.map _ x h_map
  obtain rfl := Option.some.inj (h_get.symm.trans h_get')
  by_cases h_nil : m.content = []
  · -- nothing to write: a frame step
    refine hi.moves h h_t (fun task h_eq => ?_) fun task y h_task h_writes => ?_
    · obtain rfl := Option.some.inj h_eq
      refine ⟨(UploadTask.writesTo_of_nil h_nil x · none), h_slice, upload, h_get, h_id, Nat.zero_le _, ?_⟩
      rw [if_pos h_nil]
      intro h_final
      -- a final chunk without bytes: the total is reached, so nothing can be under way
      have h_total : upload.bytesWritten = (plan upload.uploadId).content.length := by
        rw [h_id, ← h_slice.final h_final, h_nil, h_offset, List.length_nil, Nat.add_zero]
      have h_unwritten : Unwritten s x := by
        intro t' task h_task
        cases h_writes : task.writesTo x with
        | false => rfl
        | true =>
          obtain ⟨m', landed, rfl, h_bytes⟩ := (UploadTask.writesTo_iff).mp h_writes
          obtain ⟨h_slice', upload', h_get', h_id', -, h_rest⟩ := hi.task t' _ h_task
          obtain rfl := Option.some.inj (h_get.symm.trans h_get')
          rw [if_neg h_bytes] at h_rest
          have h_le := h_slice'.le
          rw [h_rest.1, h_total, h_id'] at h_le
          exact absurd (List.eq_nil_of_length_eq_zero (by omega)) h_bytes
      refine ⟨h_unwritten, upload, h_get, ?_, h_total⟩
      rw [h_file h_unwritten, h_total, ← h_id, List.take_length]
    · exact absurd h_writes (by rw [h_old task y h_task]; simp)
  · have h_unwritten : Unwritten s x := h_apart.resolve_left h_nil
    have h_writer : ∀ task y, some task = some (UploadTask.writing m x none) →
        task.writesTo y = true → y = x := by
      rintro task y h_eq h_writes
      obtain rfl := Option.some.inj h_eq
      exact UploadTask.eq_of_writesTo h_writes
    have h_complete : ∀ y, Complete plan s y → Complete plan s' y := by
      intro y h_y
      have h_ne : y ≠ x := by
        rintro rfl
        exact h_nil (h_y.no_room h_get h_id h_slice h_offset)
      refine h.complete (fun task h_eq => ?_) h_y
      cases h_writes : task.writesTo y with
      | false => rfl
      | true => exact absurd (h_writer task y h_eq.symm h_writes) h_ne
    refine ⟨fun y up h_up => ?_, fun t' task h_task => ?_, fun t' task h_task => ?_,
      fun u y h_y => ?_, fun p y h_y => ?_⟩
    · obtain ⟨h_lt, h_rest⟩ := hi.object y up (h.objects ▸ h_up)
      exact ⟨h_lt.trans_le h.calls, h_rest⟩
    · rcases h.cases h_task with ⟨rfl, -⟩ | ⟨-, h_before⟩
      · exact h_t
      · exact (hi.born t' task h_before).trans_le h.calls
    · rcases h.cases h_task with ⟨rfl, h_eq⟩ | ⟨h_ne, h_before⟩
      · obtain rfl := Option.some.inj h_eq
        refine ⟨h_slice, upload, h.objects ▸ h_get, h_id, Nat.zero_le _, ?_⟩
        rw [if_neg h_nil]
        refine ⟨h_offset, by rw [h_file h_unwritten]; rfl, fun t₁ task₁ h_task₁ h_writes => ?_⟩
        rcases h.cases h_task₁ with ⟨rfl, -⟩ | ⟨-, h_before⟩
        · rfl
        · exact absurd h_writes (by rw [h_unwritten t₁ task₁ h_before]; simp)
      · refine h.task h_complete (fun y h_y task₁ h_eq h_writes => ?_) (hi.task t' task h_before)
        -- the new writer writes to `x`, which no other handler writes to
        obtain rfl := h_writer task₁ y h_eq.symm h_writes
        exact absurd h_y (by rw [h_unwritten t' task h_before]; simp)
    · obtain ⟨up, h_up, h_up_id, h_up_file⟩ := hi.map u y (h.uploads u y h_y)
      refine ⟨up, h.objects ▸ h_up, h_up_id, fun h_quiet => h_up_file fun t' task h_task => ?_⟩
      by_cases h_eq : t' = t
      · subst h_eq
        exact h_old task y h_task
      · exact h_quiet t' task ((h.other t' h_eq).trans h_task)
    · obtain ⟨h_y', h_path⟩ := hi.renamed p y (h.renamed ▸ h_y)
      exact ⟨h_complete y h_y', h.objects ▸ h_path⟩

/-- A finished upload stays so while its object is left alone and no writer is added. -/
theorem Complete.of_same {s s' : UploadState} {x : ℕ} (h : Complete plan s x)
    (h_object : s'.objects.get? x = s.objects.get? x)
    (h_tasks : ∀ t task, s'.tasks.get? t = some task → task.writesTo x = true →
      ∃ t' task', s.tasks.get? t' = some task' ∧ task'.writesTo x = true) :
    Complete plan s' x := by
  obtain ⟨h_unwritten, upload, h_get, h_file⟩ := h
  refine ⟨fun t task h_task => ?_, upload, h_object.trans h_get, h_file⟩
  cases h_writes : task.writesTo x with
  | false => rfl
  | true =>
    obtain ⟨t', task', h_task', h_writes'⟩ := h_tasks t task h_task h_writes
    exact absurd h_writes' (by rw [h_unwritten t' task' h_task']; simp)

/-- A writer is the only one, and the object is not finished. -/
theorem UploadInv.writer {s : UploadState} {t x : ℕ} {m : UploadChunkRequest}
    {landed : Option ℕ} (hi : UploadInv plan s)
    (h_task : s.tasks.get? t = some (.writing m x landed)) (h_bytes : m.content ≠ []) :
    (∀ t' task, s.tasks.get? t' = some task → task.writesTo x = true → t' = t) ∧
      ∀ y, Complete plan s y → y ≠ x := by
  obtain ⟨-, upload, -, -, -, h_rest⟩ := hi.task t _ h_task
  rw [if_neg h_bytes] at h_rest
  refine ⟨h_rest.2.2, ?_⟩
  rintro y ⟨h_unwritten, -⟩ rfl
  have h_writes : (UploadTask.writing m y landed).writesTo y = true :=
    (UploadTask.writesTo_self).mpr h_bytes
  exact absurd h_writes (by rw [h_unwritten t _ h_task]; simp)

/-- The writer `t` of `x` goes on, and the object `x` changes by `f`. -/
structure Rewrites (s s' : UploadState) (t x : ℕ) (f : ActiveUpload → ActiveUpload)
    (new : Option UploadTask) : Prop where
  objects : s'.objects = s.objects.modify x f
  id : ∀ upload, (f upload).uploadId = upload.uploadId
  path : ∀ upload, (f upload).path = upload.path
  uploads : s'.uploads = s.uploads
  renamed : s'.renamed = s.renamed
  calls : s'.calls = s.calls
  own : s'.tasks.get? t = new
  other : ∀ t', t' ≠ t → s'.tasks.get? t' = s.tasks.get? t'

theorem Rewrites.same {s s' : UploadState} {t x y : ℕ} {f : ActiveUpload → ActiveUpload}
    {new : Option UploadTask} (h : Rewrites s s' t x f new) (h_ne : y ≠ x) :
    s'.objects.get? y = s.objects.get? y := by
  rw [h.objects, Table.get?_modify]
  simp [h_ne]

theorem Rewrites.self {s s' : UploadState} {t x : ℕ} {f : ActiveUpload → ActiveUpload}
    {new : Option UploadTask} {upload : ActiveUpload} (h : Rewrites s s' t x f new)
    (h_get : s.objects.get? x = some upload) : s'.objects.get? x = some (f upload) := by
  rw [h.objects, Table.get?_modify, h_get, Option.map_some, if_pos rfl]

theorem Rewrites.cases {s s' : UploadState} {t t' x : ℕ} {f : ActiveUpload → ActiveUpload}
    {new : Option UploadTask} {task : UploadTask} (h : Rewrites s s' t x f new)
    (h_get : s'.tasks.get? t' = some task) :
    t' = t ∧ new = some task ∨ t' ≠ t ∧ s.tasks.get? t' = some task := by
  by_cases h_t : t' = t
  · subst h_t
    exact .inl ⟨rfl, h.own.symm.trans h_get⟩
  · exact .inr ⟨h_t, (h.other t' h_t).symm.trans h_get⟩

/-- The object of the only writer changes, and nothing else refers to its file. -/
theorem UploadInv.rewrites {s s' : UploadState} {t x : ℕ} {m : UploadChunkRequest}
    {landed : Option ℕ} {f : ActiveUpload → ActiveUpload} {new : Option UploadTask}
    (hi : UploadInv plan s) (h : Rewrites s s' t x f new)
    (h_task : s.tasks.get? t = some (.writing m x landed)) (h_bytes : m.content ≠ [])
    (h_new : ∀ task, new = some task →
      TaskInv plan s' t task ∧ ∀ y, task.writesTo y = true → y = x)
    (h_object : ∀ upload, s.objects.get? x = some upload →
      (f upload).bytesWritten ≤ (plan m.uploadId).content.length ∧
        (Unwritten s' x → (f upload).file =
          (plan m.uploadId).content.take (f upload).bytesWritten)) : UploadInv plan s' := by
  obtain ⟨h_slice, upload, h_get, h_id, -, -⟩ := hi.task t _ h_task
  obtain ⟨h_only, h_unfinished⟩ := hi.writer h_task h_bytes
  have h_complete : ∀ y, Complete plan s y → Complete plan s' y := by
    intro y h_y
    have h_ne := h_unfinished y h_y
    refine h_y.of_same (h.same h_ne) fun t' task h_t' h_writes => ?_
    rcases h.cases h_t' with ⟨-, h_eq⟩ | ⟨-, h_before⟩
    · exact absurd ((h_new task h_eq).2 y h_writes) h_ne
    · exact ⟨t', task, h_before, h_writes⟩
  refine ⟨fun y up h_up => ?_, fun t' task h_t' => ?_, fun t' task h_t' => ?_,
    fun u y h_y => ?_, fun p y h_y => ?_⟩
  · rw [h.calls]
    by_cases h_y : y = x
    · subst h_y
      obtain rfl := Option.some.inj ((h.self h_get).symm.trans h_up)
      obtain ⟨h_lt, h_path, -⟩ := hi.object y upload h_get
      rw [h.id, h.path, h_id]
      exact ⟨h_lt, h_id ▸ h_path, (h_object upload h_get).1⟩
    · exact hi.object y up ((h.same h_y).symm.trans h_up)
  · rw [h.calls]
    rcases h.cases h_t' with ⟨rfl, -⟩ | ⟨-, h_before⟩
    · exact hi.born _ _ h_task
    · exact hi.born t' task h_before
  · rcases h.cases h_t' with ⟨rfl, h_eq⟩ | ⟨h_ne, h_before⟩
    · exact (h_new task h_eq).1
    · refine (hi.task t' task h_before).mono (fun y up h_up => ?_) h_complete
        (fun m' h_eq => ?_) fun y h_writes => ?_
      · by_cases h_y : y = x
        · subst h_y
          exact ⟨f up, h.self h_up, h.id up⟩
        · exact ⟨up, (h.same h_y).trans h_up, rfl⟩
      · subst h_eq
        have h_none : s.objects.get? t' = none := (hi.task t' _ h_before).2.2
        have h_t' : t' ≠ x := by
          rintro rfl
          exact absurd (h_none.symm.trans h_get) (by simp)
        exact (h.same h_t').trans h_none
      · -- the only writer of `x` is `t`
        have h_y : y ≠ x := by
          rintro rfl
          exact h_ne (h_only t' task h_before h_writes)
        refine ⟨h.same h_y, fun t₁ task₁ h_t₁ h_writes₁ => ?_⟩
        rcases h.cases h_t₁ with ⟨-, h_eq⟩ | ⟨-, h_before₁⟩
        · exact absurd ((h_new task₁ h_eq).2 y h_writes₁) h_y
        · exact .inr h_before₁
  · rw [h.uploads] at h_y
    obtain ⟨up, h_up, h_up_id, h_up_file⟩ := hi.map u y h_y
    by_cases h_eq : y = x
    · subst h_eq
      obtain rfl := Option.some.inj (h_up.symm.trans h_get)
      refine ⟨f up, h.self h_up, (h.id up).trans h_up_id, fun h_unwritten => ?_⟩
      rw [← h_up_id, h_id]
      exact (h_object up h_get).2 h_unwritten
    · refine ⟨up, (h.same h_eq).trans h_up, h_up_id, fun h_unwritten =>
        h_up_file fun t' task h_t' => ?_⟩
      by_cases h_t : t' = t
      · subst h_t
        obtain rfl := Option.some.inj (h_t'.symm.trans h_task)
        cases h_writes : (UploadTask.writing m x landed).writesTo y with
        | false => rfl
        | true => exact absurd (UploadTask.eq_of_writesTo h_writes) h_eq
      · exact h_unwritten t' task ((h.other t' h_t).trans h_t')
  · rw [h.renamed] at h_y
    obtain ⟨h_done, up, h_up, h_path⟩ := hi.renamed p y h_y
    exact ⟨h_complete y h_done, up, (h.same (h_unfinished y h_done)).trans h_up, h_path⟩

/-- Bytes that land extend the file by the ones that belong there. -/
theorem UploadInv.lands {s : UploadState} {t x n : ℕ} {m : UploadChunkRequest}
    (hi : UploadInv plan s) (h_task : s.tasks.get? t = some (.writing m x none))
    (h_n : n ≤ m.content.length) :
    UploadInv plan ({ s with
      objects := s.objects.modify x fun upload =>
        { upload with file := upload.file ++ m.content.take n } }.suspend t
          (.writing m x (some n))) := by
  obtain ⟨h_slice, upload, h_get, h_id, -, h_rest⟩ := hi.task t _ h_task
  by_cases h_nil : m.content = []
  · -- nothing lands: a frame step
    have h_moves : Moves s (s.suspend t (.writing m x (some n))) t (some (.writing m x (some n))) :=
      ⟨rfl, rfl, Nat.le_refl _, Table.get?_set_self _ _ _,
        fun t' h_ne => Table.get?_set_of_ne _ _ h_ne, fun _ _ h => h⟩
    rw [Table.modify_eq_self]
    · refine hi.moves h_moves (hi.born t _ h_task) (fun task h_eq => ?_)
        fun task y h_old h_writes => ?_
      · obtain rfl := Option.some.inj h_eq
        refine ⟨(UploadTask.writesTo_of_nil h_nil x · _), h_slice, upload, h_get, h_id, h_n, ?_⟩
        rw [if_pos h_nil] at h_rest ⊢
        exact h_rest
      · obtain rfl := Option.some.inj (h_old.symm.trans h_task)
        exact absurd h_writes (by rw [UploadTask.writesTo_of_nil h_nil]; simp)
    · intro up
      rw [h_nil, List.take_nil, List.append_nil]
  · have h_rewrites : Rewrites s ({ s with
        objects := s.objects.modify x fun upload =>
          { upload with file := upload.file ++ m.content.take n } }.suspend t
            (.writing m x (some n))) t x
        (fun upload => { upload with file := upload.file ++ m.content.take n })
        (some (.writing m x (some n))) :=
      ⟨rfl, fun _ => rfl, fun _ => rfl, rfl, rfl, rfl, Table.get?_set_self _ _ _,
        fun t' h_ne => Table.get?_set_of_ne _ _ h_ne⟩
    obtain ⟨h_only, -⟩ := hi.writer h_task h_nil
    rw [if_neg h_nil] at h_rest
    obtain ⟨h_offset, h_file, -⟩ := h_rest
    refine hi.rewrites h_rewrites h_task h_nil (fun task h_eq => ?_) fun up h_up => ⟨?_, ?_⟩
    · obtain rfl := Option.some.inj h_eq
      refine ⟨⟨h_slice, _, h_rewrites.self h_get, h_id, h_n, ?_⟩,
        fun y => UploadTask.eq_of_writesTo⟩
      rw [if_neg h_nil]
      refine ⟨h_offset, ?_, fun t₁ task₁ h_t₁ h_writes => ?_⟩
      · show upload.file ++ m.content.take n =
          (plan m.uploadId).content.take (upload.bytesWritten + n)
        rw [h_file, ← h_offset]
        exact h_slice.extends h_n
      · rcases h_rewrites.cases h_t₁ with ⟨rfl, -⟩ | ⟨-, h_before⟩
        · rfl
        · exact h_only t₁ task₁ h_before h_writes
    · obtain rfl := Option.some.inj (h_get.symm.trans h_up)
      exact h_id ▸ (hi.object x upload h_get).2.2
    · intro h_unwritten
      have h_writes : (UploadTask.writing m x (some n)).writesTo x = true :=
        (UploadTask.writesTo_self).mpr h_nil
      exact absurd h_writes (by rw [h_unwritten t _ h_rewrites.own]; simp)

/-- The running total after a write, when all of the slice has landed. -/
theorem UploadInv.wrote {s : UploadState} {t x : ℕ} {m : UploadChunkRequest}
    (hi : UploadInv plan s)
    (h_task : s.tasks.get? t = some (.writing m x (some m.content.length))) :
    let s' := { s with
      objects := s.objects.modify x fun upload =>
        { upload with bytesWritten := upload.bytesWritten + m.content.length } }.finish t
    UploadInv plan s' ∧ (m.final = true → Complete plan s' x) := by
  intro s'
  obtain ⟨h_slice, upload, h_get, h_id, -, h_rest⟩ := hi.task t _ h_task
  by_cases h_nil : m.content = []
  · -- the total stays: a frame step
    have h_state : s' = s.finish t := by
      simp only [s', h_nil, List.length_nil, Nat.add_zero]
      rw [Table.modify_eq_self _ _ fun _ => rfl]
    have h_moves : Moves s (s.finish t) t none :=
      ⟨rfl, rfl, Nat.le_refl _, Table.get?_erase_self _ _,
        fun t' h_ne => Table.get?_erase_of_ne _ h_ne, fun _ _ h => h⟩
    rw [h_state]
    rw [if_pos h_nil] at h_rest
    refine ⟨hi.moves h_moves (hi.born t _ h_task) (by simp) fun task y h_old h_writes => ?_,
      fun h_final => h_moves.complete (by simp) (h_rest h_final)⟩
    obtain rfl := Option.some.inj (h_old.symm.trans h_task)
    exact absurd h_writes (by rw [UploadTask.writesTo_of_nil h_nil]; simp)
  · have h_rewrites : Rewrites s s' t x
        (fun upload => { upload with bytesWritten := upload.bytesWritten + m.content.length })
        none :=
      ⟨rfl, fun _ => rfl, fun _ => rfl, rfl, rfl, rfl, Table.get?_erase_self _ _,
        fun t' h_ne => Table.get?_erase_of_ne _ h_ne⟩
    obtain ⟨h_only, -⟩ := hi.writer h_task h_nil
    rw [if_neg h_nil] at h_rest
    obtain ⟨h_offset, h_file, -⟩ := h_rest
    have h_file' : upload.file =
        (plan m.uploadId).content.take (upload.bytesWritten + m.content.length) := h_file
    refine ⟨hi.rewrites h_rewrites h_task h_nil (by simp) fun up h_up => ?_, fun h_final => ?_⟩
    · obtain rfl := Option.some.inj (h_get.symm.trans h_up)
      exact ⟨h_offset ▸ h_slice.le, fun _ => h_file'⟩
    · have h_total : upload.bytesWritten + m.content.length =
          (plan m.uploadId).content.length := h_offset ▸ h_slice.final h_final
      refine ⟨fun t' task h_t' => ?_, _, h_rewrites.self h_get, ?_, h_id ▸ h_total⟩
      · rcases h_rewrites.cases h_t' with ⟨-, h_eq⟩ | ⟨h_ne, h_before⟩
        · exact absurd h_eq (by simp)
        · cases h_writes : task.writesTo x with
          | false => rfl
          | true => exact absurd (h_only t' task h_before h_writes) h_ne
      · show upload.file = (plan upload.uploadId).content
        rw [h_file', h_total, List.take_length, h_id]

/-- A fresh object enters the map. -/
theorem UploadInv.opened {s : UploadState} {t : ℕ} {m : UploadChunkRequest}
    (hi : UploadInv plan s) (h_task : s.tasks.get? t = some (.opening m)) :
    UploadInv plan ({ s with
      objects := s.objects.set t ⟨m.uploadId, normalizePath m.path, [], 0⟩
      temps := t :: s.temps
      uploads := s.uploads.set m.uploadId t }.finish t) := by
  obtain ⟨h_slice, -, h_none⟩ := hi.task t _ h_task
  have h_known : ∀ y upload, s.objects.get? y = some upload → y ≠ t := by
    rintro y upload h_get rfl
    exact absurd (h_none.symm.trans h_get) (by simp)
  generalize h_eq : ({ s with
      objects := s.objects.set t ⟨m.uploadId, normalizePath m.path, [], 0⟩
      temps := t :: s.temps
      uploads := s.uploads.set m.uploadId t }.finish t : UploadState) = s'
  have h_same : ∀ y, y ≠ t → s'.objects.get? y = s.objects.get? y := by
    intro y h_ne
    rw [← h_eq]
    exact Table.get?_set_of_ne _ _ h_ne
  have h_keeps : ∀ y upload, s.objects.get? y = some upload → s'.objects.get? y = some upload :=
    fun y upload h_get => (h_same y (h_known y upload h_get)).trans h_get
  have h_own : s'.objects.get? t = some ⟨m.uploadId, normalizePath m.path, [], 0⟩ := by
    rw [← h_eq]
    exact Table.get?_set_self _ _ _
  have h_tasks : ∀ t' task, s'.tasks.get? t' = some task →
      s.tasks.get? t' = some task ∧ t' ≠ t := by
    intro t' task h_t'
    rw [← h_eq] at h_t'
    exact Table.get?_erase.mp h_t'
  have h_frame : s'.renamed = s.renamed ∧ s'.calls = s.calls := by
    rw [← h_eq]
    exact ⟨rfl, rfl⟩
  have h_complete : ∀ y, Complete plan s y → Complete plan s' y := by
    intro y h_y
    obtain ⟨-, upload, h_get, -⟩ := id h_y
    exact h_y.of_same (h_same y (h_known y upload h_get)) fun t' task h_t' h_writes =>
      ⟨t', task, (h_tasks t' task h_t').1, h_writes⟩
  refine ⟨fun y up h_up => ?_, fun t' task h_t' => ?_, fun t' task h_t' => ?_,
    fun u y h_y => ?_, fun p y h_y => ?_⟩
  · rw [h_frame.2]
    by_cases h_y : y = t
    · subst h_y
      obtain rfl := Option.some.inj (h_own.symm.trans h_up)
      exact ⟨hi.born y _ h_task, congrArg normalizePath h_slice.path, Nat.zero_le _⟩
    · exact hi.object y up ((h_same y h_y).symm.trans h_up)
  · rw [h_frame.2]
    exact hi.born t' task (h_tasks t' task h_t').1
  · obtain ⟨h_before, h_ne⟩ := h_tasks t' task h_t'
    refine (hi.task t' task h_before).mono (fun y up h_up => ⟨up, h_keeps y up h_up, rfl⟩)
      h_complete (fun m' h_m' => ?_) fun y h_writes => ⟨?_, fun t₁ task₁ h_t₁ _ =>
        .inr (h_tasks t₁ task₁ h_t₁).1⟩
    · subst h_m'
      exact (h_same t' h_ne).trans (hi.task t' _ h_before).2.2
    · obtain ⟨m', landed, rfl, -⟩ := (UploadTask.writesTo_iff).mp h_writes
      obtain ⟨-, upload, h_get, -⟩ := hi.task t' _ h_before
      exact h_same y (h_known y upload h_get)
  · have h_set : (s.uploads.set m.uploadId t).get? u = some y := by
      rw [← h_eq] at h_y
      exact h_y
    rcases Table.get?_set_eq_some h_set with ⟨rfl, rfl⟩ | ⟨-, h_old⟩
    · exact ⟨_, h_own, rfl, fun _ => rfl⟩
    · obtain ⟨up, h_up, h_id, h_file⟩ := hi.map u y h_old
      refine ⟨up, h_keeps y up h_up, h_id, fun h_unwritten => h_file fun t' task h_t' => ?_⟩
      by_cases h_ne : t' = t
      · subst h_ne
        obtain rfl := Option.some.inj (h_t'.symm.trans h_task)
        rfl
      · refine h_unwritten t' task ?_
        rw [← h_eq]
        exact Table.get?_erase.mpr ⟨h_t', h_ne⟩
  · rw [h_frame.1] at h_y
    obtain ⟨h_done, up, h_up, h_path⟩ := hi.renamed p y h_y
    exact ⟨h_complete y h_done, up, h_keeps y up h_up, h_path⟩

end ServerCentral.Agent
