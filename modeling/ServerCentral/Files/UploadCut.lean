import ServerCentral.Files.UploadSender

/-!
# A file arrives in one sequence

The requests of the browser are a cut of the file (`uploadLoop_covers`), and the messages of
one request are a cut of its bytes, whatever chunks the body arrives in
(`uploadFile_covers`). A cut of a cut is a cut.

The second part rests on `Sent`: what has been sent and what is pending are together what
has been read, and less than a message is pending when the next chunk is read.
-/

open Framework

namespace ServerCentral.Files

open Agent (UploadChunkRequest)

def UploadRequest.piece (r : UploadRequest) : Piece UInt8 := ⟨r.offset, r.content, r.final⟩

def chunkPiece (m : UploadChunkRequest) : Piece UInt8 := ⟨m.offset, m.content, m.final⟩

/-! ### The requests -/

section Requests

variable {path uploadId : String} {f : List UInt8}

theorem slice_append {A : Type*} (f : List A) {start stop : ℕ} (h : start ≤ stop) :
    slice f start stop ++ f.drop stop = f.drop start := by
  have h_drop : f.drop stop = (f.drop start).drop (stop - start) := by
    rw [List.drop_drop, Nat.add_sub_cancel' h]
  rw [slice, List.drop_take, h_drop, List.take_append_drop]

theorem slice_length_le {A : Type*} (f : List A) (start stop : ℕ) :
    (slice f start stop).length ≤ stop - start := by
  rw [slice, List.length_drop, List.length_take]
  omega

/-- The last request has the rest of the file. -/
theorem requestAt_last {offset : ℕ} (h : f.length ≤ offset + UPLOAD_REQUEST_BYTES) :
    (requestAt path uploadId f offset).piece = ⟨offset, f.drop offset, true⟩ := by
  have h_stop : min (offset + UPLOAD_REQUEST_BYTES) f.length = f.length := Nat.min_eq_right h
  simp only [UploadRequest.piece, requestAt, h_stop, slice, List.take_length, Nat.le_refl,
    decide_true]

/-- Another one has as much as goes into a request. -/
theorem requestAt_more {offset : ℕ} (h : offset + UPLOAD_REQUEST_BYTES < f.length) :
    (requestAt path uploadId f offset).piece =
      ⟨offset, slice f offset (offset + UPLOAD_REQUEST_BYTES), false⟩ := by
  have h_stop : min (offset + UPLOAD_REQUEST_BYTES) f.length = offset + UPLOAD_REQUEST_BYTES :=
    Nat.min_eq_left (Nat.le_of_lt h)
  have h_final : ¬ f.length ≤ offset + UPLOAD_REQUEST_BYTES := Nat.not_le.mpr h
  simp only [UploadRequest.piece, requestAt, h_stop, h_final, decide_false]

theorem requestAt_length (offset : ℕ) :
    (requestAt path uploadId f offset).content.length ≤ UPLOAD_REQUEST_BYTES := by
  have h_slice := slice_length_le f offset (min (offset + UPLOAD_REQUEST_BYTES) f.length)
  show (slice f offset (min (offset + UPLOAD_REQUEST_BYTES) f.length)).length ≤ _
  omega

/-- The requests for one file. -/
structure Requests (path uploadId : String) (requests : List UploadRequest) : Prop where
  size : ∀ r ∈ requests, r.content.length ≤ UPLOAD_REQUEST_BYTES
  upload : ∀ r ∈ requests, r.path = path ∧ r.uploadId = uploadId

/-- **The browser's loop** ends, and cuts the file. -/
theorem uploadLoop_covers (path uploadId : String) {answer : ℕ → Option String} (h_answer : ∀ k, answer k = none) {fuel : ℕ}
    {offset : ℕ} (h_some : 0 < fuel) (h_fuel : f.length ≤ offset + fuel * UPLOAD_REQUEST_BYTES)
    (k : ℕ) :
    ∃ requests, uploadLoop path uploadId f answer fuel k offset = some (requests, none) ∧
      Covers offset (f.drop offset) true (requests.map UploadRequest.piece) ∧
        Requests path uploadId requests := by
  induction fuel generalizing k offset with
  | zero => exact absurd h_some (Nat.lt_irrefl 0)
  | succ fuel ih =>
    rw [uploadLoop, h_answer]
    dsimp only
    by_cases h_last : f.length ≤ offset + UPLOAD_REQUEST_BYTES
    · have h_piece : (requestAt path uploadId f offset).piece = ⟨offset, f.drop offset, true⟩ :=
        requestAt_last h_last
      have h_final : (requestAt path uploadId f offset).final = true := congrArg Piece.final h_piece
      rw [if_pos h_final]
      refine ⟨_, rfl, ?_, List.forall_mem_singleton.mpr (requestAt_length offset),
        List.forall_mem_singleton.mpr ⟨rfl, rfl⟩⟩
      rw [List.map_singleton, h_piece]
      exact .last offset _
    · have h_more : offset + UPLOAD_REQUEST_BYTES < f.length := Nat.not_le.mp h_last
      have h_piece : (requestAt path uploadId f offset).piece =
          ⟨offset, slice f offset (offset + UPLOAD_REQUEST_BYTES), false⟩ := requestAt_more h_more
      have h_final : (requestAt path uploadId f offset).final = false := congrArg Piece.final h_piece
      have h_fuel : f.length ≤ offset + UPLOAD_REQUEST_BYTES + fuel * UPLOAD_REQUEST_BYTES := by
        rw [Nat.succ_mul] at h_fuel
        omega
      have h_some : 0 < fuel := by
        by_contra h_zero
        rw [Nat.eq_zero_of_not_pos h_zero, Nat.zero_mul] at h_fuel
        omega
      obtain ⟨requests, h_loop, h_covers, h_size, h_upload⟩ := ih h_some h_fuel (k + 1)
      have h_length : (slice f offset (offset + UPLOAD_REQUEST_BYTES)).length =
          UPLOAD_REQUEST_BYTES := by
        rw [slice, List.length_drop, List.length_take_of_le (Nat.le_of_lt h_more)]
        exact Nat.add_sub_cancel_left _ _
      rw [if_neg (by rw [h_final]; exact Bool.false_ne_true), h_loop]
      refine ⟨_, rfl, ?_, List.forall_mem_cons.mpr ⟨requestAt_length offset, h_size⟩,
        List.forall_mem_cons.mpr ⟨⟨rfl, rfl⟩, h_upload⟩⟩
      rw [List.map_cons, h_piece, ← slice_append f (Nat.le_add_right offset UPLOAD_REQUEST_BYTES)]
      apply Covers.cons
      rw [h_length]
      exact h_covers

/-- More rounds than are needed change nothing. -/
theorem uploadLoop_mono {answer : ℕ → Option String} {fuel fuel' : ℕ} {k offset : ℕ}
    {result : List UploadRequest × Option String} (h_le : fuel ≤ fuel')
    (h : uploadLoop path uploadId f answer fuel k offset = some result) :
    uploadLoop path uploadId f answer fuel' k offset = some result := by
  induction fuel generalizing fuel' k offset result with
  | zero => exact absurd h (by simp [uploadLoop])
  | succ fuel ih =>
    obtain ⟨fuel', rfl⟩ : ∃ n, fuel' = n + 1 := ⟨fuel' - 1, by omega⟩
    rw [uploadLoop] at h ⊢
    split at h
    · exact h
    split at h
    · next h_final => rwa [if_pos h_final]
    · next h_final =>
      obtain ⟨rest, h_rest, h_result⟩ := Option.map_eq_some_iff.mp h
      rw [if_neg h_final, ih (Nat.le_of_succ_le_succ h_le) h_rest, Option.map_some, h_result]

/-- The requests for a whole file. -/
theorem uploadLoop_file (path uploadId : String) (f : List UInt8) :
    ∃ requests, (∀ fuel, f.length < fuel * UPLOAD_REQUEST_BYTES →
        uploadLoop path uploadId f (fun _ => none) fuel 0 0 = some (requests, none)) ∧
      Covers 0 f true (requests.map UploadRequest.piece) ∧ Requests path uploadId requests := by
  have h_size : 0 < UPLOAD_REQUEST_BYTES := by decide
  have h_enough : f.length ≤ 0 + (f.length / UPLOAD_REQUEST_BYTES + 1) * UPLOAD_REQUEST_BYTES := by
    rw [Nat.zero_add, Nat.succ_mul]
    exact Nat.le_of_lt (Nat.lt_div_mul_add h_size)
  obtain ⟨requests, h_loop, h_covers, h_requests⟩ :=
    uploadLoop_covers path uploadId (fun _ => rfl) (Nat.succ_pos _) h_enough 0
  refine ⟨requests, fun fuel h_fuel => uploadLoop_mono ?_ h_loop, h_covers, h_requests⟩
  exact Nat.div_lt_of_lt_mul (Nat.mul_comm _ _ ▸ h_fuel)

end Requests

/-! ### The messages of a request -/

section Messages

variable {path : String} {session : UploadSession} {reply : ℕ → Except String ℕ} {s : Sending}
  {done : List UInt8}

theorem bufferConcat_flatten {list : List (List UInt8)} {n : ℕ} (h : n = list.flatten.length) :
    bufferConcat list n = list.flatten := by
  rw [bufferConcat, h, List.take_left]

/-- `done` has been sent, and the rest of what was read is pending. -/
structure Sent (path : String) (session : UploadSession) (done : List UInt8) (s : Sending) : Prop where
  covers : Covers session.offset done false (s.sent.map chunkPiece)
  sentHere : s.sentHere = done.length
  pendingBytes : s.pendingBytes = s.pending.flatten.length
  size : ∀ m ∈ s.sent, m.content.length ≤ UPLOAD_CHUNK_BYTES
  upload : ∀ m ∈ s.sent, m.path = path ∧ m.uploadId = session.uploadId

theorem Sent.init (path : String) (session : UploadSession) : Sent path session [] .init where
  covers := .nil _
  sentHere := rfl
  pendingBytes := rfl
  size _ h := absurd h List.not_mem_nil
  upload _ h := absurd h List.not_mem_nil

/-- What is taken off the front, and what stays. -/
theorem Sent.take (h : Sent path session done s) (n : ℕ) :
    (s.take n).1 = s.pending.flatten.take n ∧
      (s.take n).2.pending.flatten = s.pending.flatten.drop n ∧
      (s.take n).2.pendingBytes = (s.pending.flatten.drop n).length ∧
      (s.take n).2.sent = s.sent ∧ (s.take n).2.sentHere = s.sentHere := by
  have h_all : s.all n = s.pending.flatten := by
    rw [Sending.all]
    split
    · next only h_only =>
      split
      · rw [h_only, List.flatten_singleton]
      · exact bufferConcat_flatten h.pendingBytes
    · exact bufferConcat_flatten h.pendingBytes
  rw [Sending.take, h_all]
  refine ⟨rfl, ?_, rfl, rfl, rfl⟩
  split
  · exact List.flatten_singleton
  · next h_empty =>
    have h_nil : s.pending.flatten.drop n = [] := List.length_eq_zero_iff.mp (by omega)
    rw [h_nil, List.flatten_nil]

/-- A chunk that is not final has been sent. -/
theorem Sent.send (h : Sent path session done s) (h_reply : ∀ k, ∃ n, reply k = .ok n)
    (chunk : List UInt8) (h_size : chunk.length ≤ UPLOAD_CHUNK_BYTES) :
    ∃ s', s.send path session reply chunk false = .ok s' ∧ s'.pending = s.pending ∧
      s'.pendingBytes = s.pendingBytes ∧ Sent path session (done ++ chunk) s' := by
  obtain ⟨n, h_n⟩ := h_reply s.sent.length
  rw [Sending.send, h_n]
  refine ⟨_, rfl, rfl, rfl, ?_, ?_, h.pendingBytes, ?_, ?_⟩
  · rw [List.map_append, List.map_singleton]
    have h_covers := h.covers.concat chunk false
    rw [← h.sentHere] at h_covers
    exact h_covers
  · rw [List.length_append, ← h.sentHere]
  · exact List.forall_mem_append.mpr ⟨h.size, List.forall_mem_singleton.mpr h_size⟩
  · exact List.forall_mem_append.mpr ⟨h.upload, List.forall_mem_singleton.mpr ⟨rfl, rfl⟩⟩

/-- What has been sent stays so when something is taken off. -/
theorem Sent.taken (h : Sent path session done s) (n : ℕ) : Sent path session done (s.take n).2 := by
  obtain ⟨-, h_pending, h_bytes, h_sent, h_here⟩ := h.take n
  exact ⟨h_sent ▸ h.covers, h_here.trans h.sentHere, by rw [h_bytes, h_pending], h_sent ▸ h.size,
    h_sent ▸ h.upload⟩

/-- **The inner loop** sends whole chunks until less than one is pending. -/
theorem Sent.drain (h : Sent path session done s) (h_reply : ∀ k, ∃ n, reply k = .ok n) :
    ∃ s' done', s.drain path session reply = .ok s' ∧ Sent path session done' s' ∧
      done' ++ s'.pending.flatten = done ++ s.pending.flatten ∧
        s'.pendingBytes < UPLOAD_CHUNK_BYTES := by
  induction h_bytes : s.pendingBytes using Nat.strongRecOn generalizing s done with
  | ind bytes ih =>
    rw [Sending.drain]
    split
    case isFalse h_few => exact ⟨s, done, rfl, h, rfl, Nat.not_le.mp h_few⟩
    case isTrue h_many =>
      obtain ⟨h_chunk, h_pending, h_rest, -, -⟩ := h.take UPLOAD_CHUNK_BYTES
      have h_size : (s.take UPLOAD_CHUNK_BYTES).1.length ≤ UPLOAD_CHUNK_BYTES := by
        rw [h_chunk]
        exact List.length_take_le _ _
      obtain ⟨s₁, h_send, h_pending₁, h_bytes₁, h_sent⟩ :=
        (h.taken UPLOAD_CHUNK_BYTES).send h_reply _ h_size
      have h_less : s₁.pendingBytes < bytes := by
        rw [h_bytes₁, h_rest, List.length_drop, ← h.pendingBytes, h_bytes]
        have h_positive : 0 < UPLOAD_CHUNK_BYTES := by decide
        omega
      obtain ⟨s', done', h_drain, h_sent', h_all, h_few⟩ := ih _ h_less h_sent rfl
      refine ⟨s', done', ?_, h_sent', ?_, h_few⟩
      · split
        · next e h_error => exact absurd (h_send.symm.trans h_error) (by simp)
        · next s₂ h_ok =>
          obtain rfl := Except.ok.inj (h_send.symm.trans h_ok)
          exact h_drain
      · rw [h_all, h_pending₁, h_pending, h_chunk, List.append_assoc, List.take_append_drop]

/-- **The outer loop.** -/
theorem Sent.pull (h : Sent path session done s) (h_reply : ∀ k, ∃ n, reply k = .ok n)
    (h_less : s.pendingBytes < UPLOAD_CHUNK_BYTES) (content : List (List UInt8)) :
    ∃ s' done', s.pull path session reply content = .ok s' ∧ Sent path session done' s' ∧
      done' ++ s'.pending.flatten = done ++ s.pending.flatten ++ content.flatten ∧
        s'.pendingBytes < UPLOAD_CHUNK_BYTES := by
  induction content generalizing s done with
  | nil => exact ⟨s, done, rfl, h, by simp, h_less⟩
  | cons value rest ih =>
    have h_read : Sent path session done { s with
        pending := s.pending ++ [value], pendingBytes := s.pendingBytes + value.length } :=
      ⟨h.covers, h.sentHere, by simp [h.pendingBytes], h.size, h.upload⟩
    obtain ⟨s₁, done₁, h_drain, h_sent₁, h_all₁, h_few₁⟩ := h_read.drain h_reply
    obtain ⟨s', done', h_pull, h_sent', h_all, h_few⟩ := ih h_sent₁ h_few₁
    refine ⟨s', done', ?_, h_sent', ?_, h_few⟩
    · rw [Sending.pull, h_drain]
      exact h_pull
    · rw [h_all, h_all₁, List.flatten_append, List.flatten_singleton, List.flatten_cons]
      simp only [List.append_assoc]

/-- The messages for the bytes of one request. -/
structure Messages (path : String) (session : UploadSession) (bytes : List UInt8)
    (messages : List UploadChunkRequest) : Prop where
  covers : Covers session.offset bytes session.final (messages.map chunkPiece)
  size : ∀ m ∈ messages, m.content.length ≤ UPLOAD_CHUNK_BYTES
  upload : ∀ m ∈ messages, m.path = path ∧ m.uploadId = session.uploadId

/-- The remainder. -/
theorem Sent.finish (h : Sent path session done s) (h_reply : ∀ k, ∃ n, reply k = .ok n)
    (h_less : s.pendingBytes < UPLOAD_CHUNK_BYTES) :
    ∃ s', s.finish path session reply = .ok s' ∧
      Messages path session (done ++ s.pending.flatten) s'.sent := by
  rw [Sending.finish]
  split
  case isTrue =>
    obtain ⟨h_chunk, -, -, h_same, h_here⟩ := h.take s.pendingBytes
    rw [h.pendingBytes, List.take_length, ← h.pendingBytes] at h_chunk
    obtain ⟨n, h_n⟩ := h_reply (s.take s.pendingBytes).2.sent.length
    rw [Sending.send, h_n, h_same, h_here, h_chunk]
    refine ⟨_, rfl, ?_, ?_, ?_⟩
    · rw [List.map_append, List.map_singleton, h.sentHere]
      exact h.covers.concat _ _
    · refine List.forall_mem_append.mpr ⟨h.size, List.forall_mem_singleton.mpr ?_⟩
      exact h.pendingBytes ▸ Nat.le_of_lt h_less
    · exact List.forall_mem_append.mpr ⟨h.upload, List.forall_mem_singleton.mpr ⟨rfl, rfl⟩⟩
  case isFalse h_none =>
    have h_final : session.final = false := by
      cases h_final : session.final with
      | false => rfl
      | true => exact absurd (.inr h_final) h_none
    have h_empty : s.pending.flatten = [] := by
      rw [← List.length_eq_zero_iff, ← h.pendingBytes]
      omega
    refine ⟨s, rfl, ?_, h.size, h.upload⟩
    rw [h_empty, List.append_nil, h_final]
    exact h.covers

/-- **One request.** Whatever chunks the body arrives in, the messages are a cut of it. -/
theorem uploadFile_covers {host : UploadHost} (h_host : "uploadChunk" ∈ host.capabilities)
    (path : String) (content : List (List UInt8)) (session : UploadSession)
    (h_reply : ∀ k, ∃ n, reply k = .ok n) :
    ∃ (messages : List UploadChunkRequest) (n : ℕ),
      uploadFile host path content none session reply =
        (messages.map .uploadChunkRequest, .ok n) ∧
      Messages path session content.flatten messages := by
  have h_zero : Sending.init.pendingBytes < UPLOAD_CHUNK_BYTES := by decide
  obtain ⟨s, done, h_pull, h_sent, h_all, h_few⟩ :=
    (Sent.init path session).pull h_reply h_zero content
  obtain ⟨s', h_finish, h_messages⟩ := h_sent.finish h_reply h_few
  have h_all : done ++ s.pending.flatten = content.flatten := h_all
  refine ⟨s'.sent, s'.bytesWritten, ?_, h_all ▸ h_messages⟩
  have h_result : (do
      let s ← Sending.init.pull path session reply content
      s.finish path session reply) = Except.ok s' := by
    rw [h_pull]
    exact h_finish
  rw [uploadFile, if_neg (not_not.mpr h_host)]
  dsimp only
  rw [h_result]

end Messages

/-! ### The file -/

/-- The session of a request. -/
def UploadRequest.session (r : UploadRequest) : UploadSession := ⟨r.uploadId, r.offset, r.final⟩

/-- An agent that writes whole files gets one message, or the upload is refused. -/
theorem uploadFile_whole {host : UploadHost} (h_host : "uploadChunk" ∉ host.capabilities)
    (path : String) (content : List (List UInt8)) (session : UploadSession)
    (reply : ℕ → Except String ℕ) :
    (uploadFile host path content none session reply).1 =
      if session.offset = 0 ∧ session.final = true then [.uploadFileRequest path content.flatten]
      else [] := by
  rw [uploadFile, if_pos h_host, uploadWholeFile]
  by_cases h_one : session.offset = 0 ∧ session.final = true
  · have h_total : (content.map List.length).sum = content.flatten.length := List.length_flatten.symm
    rw [if_pos h_one, if_neg (by simp [h_one]), h_total]
    dsimp only
    rw [bufferConcat_flatten rfl]
  · have h_refused : session.offset ≠ 0 ∨ (!session.final) = true := by
      rw [Decidable.not_and_iff_or_not, Bool.not_eq_true] at h_one
      rwa [Bool.not_eq_true']
    rw [if_neg h_one, if_pos h_refused]

/-- All messages for a file. -/
theorem file_messages {host : UploadHost} (h_host : "uploadChunk" ∈ host.capabilities)
    {path uploadId : String} {f : List UInt8} {requests : List UploadRequest}
    (h_covers : Covers 0 f true (requests.map UploadRequest.piece))
    (h_requests : Requests path uploadId requests) (chunks : UploadRequest → List (List UInt8))
    (h_chunks : ∀ r ∈ requests, (chunks r).flatten = r.content)
    {reply : UploadRequest → ℕ → Except String ℕ} (h_reply : ∀ r k, ∃ n, reply r k = .ok n) :
    ∃ messages : List UploadChunkRequest,
      requests.flatMap (fun r =>
        (uploadFile host r.path (chunks r) none r.session (reply r)).1) =
          messages.map .uploadChunkRequest ∧
      Messages path ⟨uploadId, 0, true⟩ f messages := by
  have h_one : ∀ r, ∃ messages : List UploadChunkRequest, r ∈ requests →
      (uploadFile host r.path (chunks r) none r.session (reply r)).1 =
        messages.map .uploadChunkRequest ∧ Messages path r.session r.content messages := by
    intro r
    obtain ⟨messages, n, h_sent, h_messages⟩ :=
      uploadFile_covers h_host r.path (chunks r) r.session (h_reply r)
    refine ⟨messages, fun h_r => ⟨by rw [h_sent], ?_⟩⟩
    rw [h_chunks r h_r, (h_requests.upload r h_r).1] at h_messages
    exact h_messages
  choose g h_g using h_one
  refine ⟨requests.flatMap g, ?_, ?_, ?_, ?_⟩
  · rw [List.map_flatMap]
    exact List.flatMap_congr fun r h_r => (h_g r h_r).1
  · rw [List.map_flatMap]
    exact h_covers.flatMap fun r h_r => (h_g r h_r).2.covers
  · intro m h_m
    obtain ⟨r, h_r, h_m⟩ := List.mem_flatMap.mp h_m
    exact (h_g r h_r).2.size m h_m
  · intro m h_m
    obtain ⟨r, h_r, h_m⟩ := List.mem_flatMap.mp h_m
    have h_upload := (h_g r h_r).2.upload m h_m
    exact ⟨h_upload.1, h_upload.2.trans (h_requests.upload r h_r).2⟩

/-- **An upload is sent as one sequence.** The browser's loop ends, and its requests are a
cut of the file; the messages for a request are a cut of its bytes, or one message if the
agent takes only whole files; and so all messages for a file are a cut of it. -/
theorem upload_sent :
    (∀ (path uploadId : String) (f : List UInt8), ∃ requests,
      (∀ fuel, f.length < fuel * UPLOAD_REQUEST_BYTES →
        uploadLoop path uploadId f (fun _ => none) fuel 0 0 = some (requests, none)) ∧
      Covers 0 f true (requests.map UploadRequest.piece) ∧ Requests path uploadId requests ∧
      ∀ (host : UploadHost) (chunks : UploadRequest → List (List UInt8))
        (reply : UploadRequest → ℕ → Except String ℕ), "uploadChunk" ∈ host.capabilities →
        (∀ r ∈ requests, (chunks r).flatten = r.content) → (∀ r k, ∃ n, reply r k = .ok n) →
        ∃ messages : List UploadChunkRequest,
          requests.flatMap (fun r =>
            (uploadFile host r.path (chunks r) none r.session (reply r)).1) =
              messages.map .uploadChunkRequest ∧
          Messages path ⟨uploadId, 0, true⟩ f messages) ∧
    ∀ (host : UploadHost) (path : String) (content : List (List UInt8)) (session : UploadSession)
      (reply : ℕ → Except String ℕ), (∀ k, ∃ n, reply k = .ok n) →
      if "uploadChunk" ∈ host.capabilities then
        ∃ (messages : List UploadChunkRequest) (n : ℕ),
          uploadFile host path content none session reply =
            (messages.map .uploadChunkRequest, .ok n) ∧
          Messages path session content.flatten messages
      else
        (uploadFile host path content none session reply).1 =
          if session.offset = 0 ∧ session.final = true then [.uploadFileRequest path content.flatten]
          else [] := by
  refine ⟨fun path uploadId f => ?_, fun host path content session reply h_reply => ?_⟩
  · obtain ⟨requests, h_loop, h_covers, h_requests⟩ := uploadLoop_file path uploadId f
    refine ⟨requests, h_loop, h_covers, h_requests, fun host chunks reply h_host h_chunks h_reply => ?_⟩
    exact file_messages h_host h_covers h_requests chunks h_chunks h_reply
  · split
    · next h_host => exact uploadFile_covers h_host path content session h_reply
    · next h_host => exact uploadFile_whole h_host path content session reply

/-- Three bytes in two chunks, in the last request of a file. -/
theorem upload_sent_sample :
    ∃ (messages : List UploadChunkRequest) (n : ℕ),
      uploadFile ⟨"nas", none, ["uploadChunk"]⟩ "/srv/f" [[1, 2], [3]] none ⟨"u", 8, true⟩
        (fun _ => .ok 11) = (messages.map .uploadChunkRequest, .ok n) ∧
      Messages "/srv/f" ⟨"u", 8, true⟩ [1, 2, 3] messages :=
  upload_sent.2 ⟨"nas", none, ["uploadChunk"]⟩ "/srv/f" [[1, 2], [3]] ⟨"u", 8, true⟩
    (fun _ => .ok 11) fun _ => ⟨11, rfl⟩

end ServerCentral.Files
