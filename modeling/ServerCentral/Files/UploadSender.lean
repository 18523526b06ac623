import Mathlib.Algebra.GroupWithZero.Nat
import ServerCentral.Agent.Upload
import ServerCentral.Framework.Pieces

/-!
# Sending an upload

`uploadLoop` is what the browser does for one file: a request for every slice of it, one
after another. `uploadFile` is what the control plane does for one request: it reads the
body as it arrives, in chunks of any sizes, and sends the host messages of bounded size.
The bytes that have been read and not sent are `pending`.

The answers to the browser and to the control plane are given, by the number of the request;
so are the chunks of the body, and the error with which it ends if it does.
-/

open Framework

namespace ServerCentral.Files

open Agent (UploadChunkRequest)

def UPLOAD_REQUEST_BYTES : ℕ := 8 * 1024 * 1024

def UPLOAD_CHUNK_BYTES : ℕ := 4 * 1024 * 1024

/-! ### The browser -/

/-- The data of the operation `upload`. -/
structure UploadRequest where
  path : String
  uploadId : String
  offset : ℕ
  final : Bool
  content : List UInt8
  deriving DecidableEq, Repr

/-- `f.slice(start, end)` -/
def slice {A : Type*} (f : List A) (start stop : ℕ) : List A := (f.take stop).drop start

section Browser

variable (path uploadId : String) (f : List UInt8)

/-- The request at an offset. -/
def requestAt (offset : ℕ) : UploadRequest :=
  let stop := min (offset + UPLOAD_REQUEST_BYTES) f.length
  { path, uploadId, offset, final := decide (f.length ≤ stop), content := slice f offset stop }

/-- The loop for one file, from an offset: the requests it makes, and the error it ends with.
It has no result if it does not end within `fuel` rounds. -/
def uploadLoop (answer : ℕ → Option String) : ℕ → ℕ → ℕ → Option (List UploadRequest × Option String)
  | 0, _, _ => none
  | fuel + 1, k, offset =>
    let request := requestAt path uploadId f offset
    match answer k with
    | some e => some ([request], some e)
    | none =>
      if request.final then some ([request], none)
      else (uploadLoop answer fuel (k + 1) (offset + UPLOAD_REQUEST_BYTES)).map
        fun r => (request :: r.1, r.2)

end Browser

/-! ### The control plane -/

/-- The agent that is uploaded to. -/
structure UploadHost where
  name : String
  agentVersion : Option String
  capabilities : List String
  deriving DecidableEq, Repr

structure UploadSession where
  uploadId : String
  offset : ℕ
  final : Bool
  deriving DecidableEq, Repr

/-- The messages of an upload, with their contents decoded. -/
inductive ControlMessage where
  | uploadChunkRequest (m : UploadChunkRequest)
  | uploadFileRequest (path : String) (content : List UInt8)
  | uploadAbort (uploadId : String)
  deriving DecidableEq, Repr

/-- The local variables of `uploadFile`, and the chunk messages it has sent. -/
structure Sending where
  sentHere : ℕ
  bytesWritten : ℕ
  pending : List (List UInt8)
  pendingBytes : ℕ
  sent : List UploadChunkRequest
  deriving DecidableEq, Repr

/-- An error, with what was done before it. -/
abbrev Stopped := String × Sending

/-- `Buffer.concat(list, totalLength)`: cut off, or filled with zeros. -/
def bufferConcat (list : List (List UInt8)) (totalLength : ℕ) : List UInt8 :=
  (list.flatten ++ List.replicate totalLength 0).take totalLength

/-- What is pending, in one buffer. -/
def Sending.all (s : Sending) (n : ℕ) : List UInt8 :=
  match s.pending with
  | [only] => if only.length = n then only else bufferConcat s.pending s.pendingBytes
  | _ => bufferConcat s.pending s.pendingBytes

/-- Split `n` bytes off the front of what is pending. -/
def Sending.take (s : Sending) (n : ℕ) : List UInt8 × Sending :=
  let tail := (s.all n).drop n
  ((s.all n).take n,
    { s with pending := if tail.length > 0 then [tail] else [], pendingBytes := tail.length })

section Host

variable (path : String) (session : UploadSession) (reply : ℕ → Except String ℕ)

/-- Send a chunk and await the answer. -/
def Sending.send (s : Sending) (chunk : List UInt8) (final : Bool) : Except Stopped Sending :=
  let m : UploadChunkRequest := ⟨session.uploadId, path, session.offset + s.sentHere, chunk, final⟩
  let sent := s.sent ++ [m]
  match reply s.sent.length with
  | .error e => .error (e, { s with sent := sent })
  | .ok n => .ok { s with sent := sent, sentHere := s.sentHere + chunk.length, bytesWritten := n }

theorem Sending.send_eq_ok {s s' : Sending} {chunk : List UInt8} {final : Bool}
    (h : s.send path session reply chunk final = .ok s') :
    s' = { s with
      sent := s.sent ++ [⟨session.uploadId, path, session.offset + s.sentHere, chunk, final⟩]
      sentHere := s.sentHere + chunk.length
      bytesWritten := s'.bytesWritten } := by
  rw [send] at h
  split at h
  · exact absurd h (by simp)
  · rw [← Except.ok.inj h]

theorem bufferConcat_length (list : List (List UInt8)) (n : ℕ) : (bufferConcat list n).length = n := by
  simp [bufferConcat]

theorem Sending.take_pendingBytes (s : Sending) (n : ℕ) :
    (s.take n).2.pendingBytes ≤ s.pendingBytes - n := by
  rw [take, all]
  dsimp only
  split
  · split
    · next h_eq => simp [h_eq]
    · simp [bufferConcat_length]
  · simp [bufferConcat_length]

/-- Send whole chunks as long as there are any. -/
def Sending.drain (s : Sending) : Except Stopped Sending :=
  if _h : UPLOAD_CHUNK_BYTES ≤ s.pendingBytes then
    match _h_send : (s.take UPLOAD_CHUNK_BYTES).2.send path session reply
        (s.take UPLOAD_CHUNK_BYTES).1 false with
    | .error e => .error e
    | .ok s' => s'.drain
  else .ok s
termination_by s.pendingBytes
decreasing_by
  rw [Sending.send_eq_ok path session reply _h_send]
  have h_less := s.take_pendingBytes UPLOAD_CHUNK_BYTES
  have h_size : 0 < UPLOAD_CHUNK_BYTES := by decide
  dsimp only
  omega

/-- Read the body, chunk after chunk. -/
def Sending.pull : List (List UInt8) → Sending → Except Stopped Sending
  | [], s => .ok s
  | value :: rest, s => do
    let s' ← { s with
      pending := s.pending ++ [value], pendingBytes := s.pendingBytes + value.length }.drain
        path session reply
    pull rest s'

/-- The remainder of a request, which is sent even when it is empty if it ends the file. -/
def Sending.finish (s : Sending) : Except Stopped Sending :=
  if s.pendingBytes > 0 ∨ session.final then
    (s.take s.pendingBytes).2.send path session reply (s.take s.pendingBytes).1 session.final
  else .ok s

def Sending.init : Sending := ⟨0, 0, [], 0, []⟩

end Host

/-- An upload to an agent that has no chunks: one message, or none. -/
def uploadWholeFile (host : UploadHost) (path : String) (content : List (List UInt8))
    (failure : Option String) (session : UploadSession) (reply : ℕ → Except String ℕ) :
    List ControlMessage × Except String ℕ :=
  if session.offset ≠ 0 ∨ !session.final then
    ([], .error ("The agent on " ++ host.name ++ " (" ++ host.agentVersion.getD "unknown version" ++
      ") can't accept a file this large — update the agent, then retry"))
  else
    match failure with
    | some e => ([], .error e)
    | none =>
      let total := (content.map List.length).sum
      ([.uploadFileRequest path (bufferConcat content total)], (reply 0).map fun _ => total)

/-- One request: the messages that are sent for it, and its result. -/
def uploadFile (host : UploadHost) (path : String) (content : List (List UInt8))
    (failure : Option String) (session : UploadSession) (reply : ℕ → Except String ℕ) :
    List ControlMessage × Except String ℕ :=
  if "uploadChunk" ∉ host.capabilities then
    uploadWholeFile host path content failure session reply
  else
    let result := do
      let s ← Sending.init.pull path session reply content
      match failure with
      | some e => .error (e, s)
      | none => s.finish path session reply
    match result with
    | .ok s => (s.sent.map .uploadChunkRequest, .ok s.bytesWritten)
    | .error (e, s) =>
      (s.sent.map .uploadChunkRequest ++ [.uploadAbort session.uploadId], .error e)

end ServerCentral.Files
