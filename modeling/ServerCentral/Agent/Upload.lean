import Mathlib.Data.List.Flatten
import ServerCentral.Framework.Machine
import ServerCentral.Framework.Table

/-!
# Chunked uploads on the agent

`runUploadChunk` and `discardUpload`, cut at their awaits, with the map of uploads in
progress and the files they write. The agent starts a handler for every message without
waiting for the one before, so every interleaving of the segments is a run of
`uploadMachine`.

An `ActiveUpload` is an object that the map and suspended handlers refer to; a second
`open` under one upload id replaces the map's reference and leaves the other object to
its handlers. Objects are numbered by the task that opened them. The bytes of a write
reach the file in a step of their own (`land`), which falls anywhere between the call
and its resumption, and so does the effect of a rename (`rename`).

A temp name is drawn at random for each upload: it names the file of one object until
that is renamed or removed (`temps`). The idle timer calls `discardUpload` as an abort
does, and may do so whenever an abort may.
-/

open Framework

namespace ServerCentral.Agent

/-- `path.resolve("/", p)`: the absolute path without empty, `.` and `..` segments. -/
def normalizePath (p : String) : String :=
  let segments := (p.toList.splitOn '/').foldl (fun out segment =>
    if segment = [] ∨ segment = ['.'] then out
    else if segment = ['.', '.'] then out.dropLast
    else out ++ [segment]) []
  if segments = [] then "/" else .ofList (segments.flatMap ('/' :: ·))

/-- The message of one chunk, with its content decoded. -/
structure UploadChunkRequest where
  uploadId : String
  path : String
  offset : ℕ
  content : List UInt8
  final : Bool
  deriving DecidableEq, Repr

structure ActiveUpload where
  /-- The id that its idle timer discards. -/
  uploadId : String
  path : String
  /-- What has landed in the file behind the handle. -/
  file : List UInt8
  bytesWritten : ℕ
  deriving DecidableEq, Repr

/-- What a handler sends once `discardUpload` is done; an abort sends nothing. -/
abbrev Reply := Option (UploadChunkRequest × String)

/-- The await positions of a handler, with the upload object it holds. -/
inductive UploadTask where
  | opening (m : UploadChunkRequest)
  /-- Awaits `handle.write`, of which so many bytes have landed. -/
  | writing (m : UploadChunkRequest) (x : ℕ) (landed : Option ℕ)
  | closing (m : UploadChunkRequest) (x : ℕ)
  /-- Awaits `rename`, which may have taken effect. -/
  | publishing (m : UploadChunkRequest) (x : ℕ) (done : Bool)
  /-- `discardUpload` awaits the close. -/
  | discarding (x : ℕ) (reply : Reply)
  /-- `discardUpload` awaits the removal of the temp file. -/
  | removing (x : ℕ) (reply : Reply)
  deriving DecidableEq, Repr

inductive UploadEvent where
  | quiet
  /-- The finished file of a final chunk has reached its target. -/
  | published (task : ℕ) (m : UploadChunkRequest)
  /-- The handler has answered, with the running total or an error. -/
  | answered (task : ℕ) (m : UploadChunkRequest) (result : Except String ℕ)

/-- The map of uploads in progress, the upload objects, those whose file has its temp
name, the targets that a rename has reached with the object whose file they name since,
the suspended handlers, and the number of handlers so far. -/
structure UploadState where
  uploads : Table String ℕ
  objects : Table ℕ ActiveUpload
  temps : List ℕ
  renamed : Table String ℕ
  tasks : Table ℕ UploadTask
  calls : ℕ

namespace UploadState

/-- The upload in progress under an id. -/
def find? (s : UploadState) (uploadId : String) : Option (ℕ × ActiveUpload) :=
  (s.uploads.get? uploadId).bind fun x => (s.objects.get? x).map fun upload => (x, upload)

/-- The content of a path, `before` being what the disk held at the start. -/
def read (s : UploadState) (before : String → Option (List UInt8)) (path : String) :
    Option (List UInt8) :=
  match s.renamed.get? path with
  | none => before path
  | some x => (s.objects.get? x).map ActiveUpload.file

def suspend (s : UploadState) (task : ℕ) (t : UploadTask) : UploadState :=
  { s with tasks := s.tasks.set task t }

/-- A handler that is done. -/
def finish (s : UploadState) (task : ℕ) : UploadState :=
  { s with tasks := s.tasks.erase task }

def replied (task : ℕ) : Reply → UploadEvent
  | none => .quiet
  | some (m, message) => .answered task m (.error message)

/-- `discardUpload`, up to its first await. -/
def discardUpload (s : UploadState) (task : ℕ) (uploadId : String) (reply : Reply) :
    UploadState × UploadEvent :=
  match s.uploads.get? uploadId with
  | none => (s.finish task, replied task reply)
  | some x =>
    ({ s with uploads := s.uploads.erase uploadId }.suspend task (.discarding x reply), .quiet)

/-- The `catch` of the handler. -/
def fail (s : UploadState) (task : ℕ) (m : UploadChunkRequest) (message : String) :
    UploadState × UploadEvent :=
  s.discardUpload task m.uploadId (some (m, message))

/-- `runUploadChunk` from its checks to the write. -/
def checked (s : UploadState) (task : ℕ) (m : UploadChunkRequest) (x : ℕ)
    (upload : ActiveUpload) : UploadState × UploadEvent :=
  if m.offset ≠ upload.bytesWritten then
    s.fail task m ("Error: Upload " ++ m.uploadId ++ ": expected offset " ++
      toString upload.bytesWritten ++ ", got " ++ toString m.offset)
  else if upload.path ≠ normalizePath m.path then
    s.fail task m ("Error: Upload " ++ m.uploadId ++ ": path changed mid-upload")
  else (s.suspend task (.writing m x none), .quiet)

/-- `runUploadChunk` up to its first await. -/
def runUploadChunk (s : UploadState) (task : ℕ) (m : UploadChunkRequest) :
    UploadState × UploadEvent :=
  match s.find? m.uploadId with
  | some (x, upload) => s.checked task m x upload
  | none =>
    if m.offset = 0 then (s.suspend task (.opening m), .quiet)
    else
      s.fail task m ("Error: Unknown upload " ++ m.uploadId ++ " (offset " ++ toString m.offset ++
        ")")

/-- `runUploadChunk` after the open: a new object, which takes the place of one that
another handler has stored meanwhile. -/
def opened (s : UploadState) (task : ℕ) (m : UploadChunkRequest) : UploadState × UploadEvent :=
  let upload : ActiveUpload := ⟨m.uploadId, normalizePath m.path, [], 0⟩
  { s with
    objects := s.objects.set task upload
    temps := task :: s.temps
    uploads := s.uploads.set m.uploadId task }.checked task m task upload

/-- The running total of an upload. -/
def total (s : UploadState) (x : ℕ) : ℕ :=
  (s.objects.get? x).elim 0 ActiveUpload.bytesWritten

/-- `runUploadChunk` after the write. -/
def written (s : UploadState) (task : ℕ) (m : UploadChunkRequest) (x : ℕ) :
    UploadState × UploadEvent :=
  let s := { s with
    objects := s.objects.modify x fun upload =>
      -- the number of bytes the write reports is not looked at
      { upload with bytesWritten := upload.bytesWritten + m.content.length } }
  if m.final then
    ({ s with uploads := s.uploads.erase m.uploadId }.suspend task (.closing m x), .quiet)
  else (s.finish task, .answered task m (.ok (s.total x)))

/-- A handler after an await, which fails with a message or not. -/
def resumed (s : UploadState) (task : ℕ) (error : Option String) :
    UploadTask → Option (UploadState × UploadEvent)
  | .opening m =>
    match error with
    | some message => some (s.fail task m message)
    | none => some (s.opened task m)
  | .writing m x landed =>
    match error, landed with
    | some message, _ => some (s.fail task m message)
    | none, some _ => some (s.written task m x)
    | none, none => none
  | .closing m x =>
    match error with
    | some message => some (s.fail task m message)
    | none => some (s.suspend task (.publishing m x false), .quiet)
  | .publishing m x done =>
    match error, done with
    | some message, false => some (s.fail task m message)
    | none, true => some (s.finish task, .answered task m (.ok (s.total x)))
    | _, _ => none
  -- `discardUpload` ignores its errors
  | .discarding x reply => some (s.suspend task (.removing x reply), .quiet)
  | .removing x reply =>
    let temps := match error with
      | some _ => s.temps
      | none => s.temps.filter (· ≠ x)
    some ({ s with temps := temps }.finish task, replied task reply)

/-- Bytes of a write reach the file. -/
def land (s : UploadState) (task : ℕ) (n : ℕ) : Option (UploadState × UploadEvent) :=
  match s.tasks.get? task with
  | some (.writing m x none) =>
    if n ≤ m.content.length then
      some ({ s with
        objects := s.objects.modify x fun upload =>
          { upload with file := upload.file ++ m.content.take n } }.suspend task
            (.writing m x (some n)), .quiet)
    else none
  | _ => none

/-- A rename takes effect. -/
def rename (s : UploadState) (task : ℕ) : Option (UploadState × UploadEvent) :=
  match s.tasks.get? task with
  | some (.publishing m x false) =>
    if x ∈ s.temps then
      (s.objects.get? x).map fun upload =>
        ({ s with
          temps := s.temps.filter (· ≠ x)
          renamed := s.renamed.set upload.path x }.suspend task (.publishing m x true),
          .published task m)
    else none
  | _ => none

end UploadState

/-! ### Uploads and their messages -/

/-- What is uploaded under one id: a path and a content, cut into slices. -/
structure Upload where
  path : String
  slices : List (List UInt8)

namespace Upload

def content (u : Upload) : List UInt8 := u.slices.flatten

/-- The path the upload is for. -/
def target (u : Upload) : String := normalizePath u.path

/-- The message of a slice. -/
def chunk (u : Upload) (uploadId : String) (i : ℕ) : Option UploadChunkRequest :=
  u.slices[i]?.map fun slice =>
    ⟨uploadId, u.path, (u.slices.take i).flatten.length, slice, decide (i + 1 = u.slices.length)⟩

end Upload

inductive UploadLabel where
  /-- The message of a slice arrives, for the first time or again. -/
  | deliver (uploadId : String) (i : ℕ)
  /-- An abort arrives, or the idle timer of an upload fires. -/
  | abort (uploadId : String)
  | land (task n : ℕ)
  | rename (task : ℕ)
  | resume (task : ℕ) (error : Option String)
  deriving DecidableEq, Repr

namespace UploadState

variable (plan : String → Upload)

def step (s : UploadState) : UploadLabel → Option (UploadState × UploadEvent)
  | .deliver uploadId i =>
    ((plan uploadId).chunk uploadId i).map fun m =>
      { s with calls := s.calls + 1 }.runUploadChunk s.calls m
  | .abort uploadId => some ({ s with calls := s.calls + 1 }.discardUpload s.calls uploadId none)
  | .land task n => s.land task n
  | .rename task => s.rename task
  | .resume task error => (s.tasks.get? task).bind (s.resumed task error)

end UploadState

/-- **The agent under every interleaving, duplication and loss of messages**, where
`plan` says what is uploaded under an id. -/
def uploadMachine (plan : String → Upload) : Machine UploadState UploadLabel UploadEvent where
  init := ⟨.empty, .empty, [], .empty, .empty, 0⟩
  step s l := s.step plan l

/-! ### The condition -/

/-- Whether a handler awaits a write of some bytes to the object `x`. -/
def UploadTask.writesTo (x : ℕ) : UploadTask → Bool
  | .writing m y _ => decide (y = x) && !m.content.isEmpty
  | _ => false

/-- **The condition of the guarantee.** No chunk passes the offset check while an earlier
one of the same upload is still being written, and no write that succeeds is short. -/
def WritesApart (plan : String → Upload) (s : UploadState) : UploadLabel → Prop
  | .deliver uploadId i =>
    ∀ m ∈ (plan uploadId).chunk uploadId i, ∀ p ∈ s.find? m.uploadId,
      m.offset = p.2.bytesWritten →
        m.content = [] ∨ ∀ t ∈ s.tasks.values, t.writesTo p.1 = false
  | .resume task none =>
    match s.tasks.get? task with
    | some (.writing m _ (some n)) => n = m.content.length
    | _ => True
  | _ => True

instance (plan : String → Upload) (s : UploadState) (l : UploadLabel) :
    Decidable (WritesApart plan s l) := by
  unfold WritesApart
  split
  · infer_instance
  · split <;> infer_instance
  · infer_instance

end ServerCentral.Agent
