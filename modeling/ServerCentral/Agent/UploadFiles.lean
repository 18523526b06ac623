import ServerCentral.Agent.Upload
import ServerCentral.Framework.Disk

/-!
# Uploads and their files, one chunk after another

`runUploadChunk` and `discardUpload` on a disk, when no message arrives while another one is
handled. What `Agent.Upload` cuts at the awaits is one function here, and its temp files have
names.

An `Outcome` is what the operations of one chunk do: which of them fail, how many bytes a
write writes, and the random part of a temp name. The removal of a temp file succeeds.
-/

open Framework

namespace ServerCentral.Agent.Serial

/-- `tempSibling`, with the random digits given. -/
def tempSibling (pid : ℕ) (suffix file : String) : String :=
  file ++ ".sc-tmp-" ++ toString pid ++ "-" ++ suffix

structure ActiveUpload where
  path : String
  tempPath : String
  handle : ℕ
  bytesWritten : ℕ
  deriving DecidableEq, Repr

inductive FileOp where
  | open
  | write
  | close
  | rename
  deriving DecidableEq, Repr

structure Outcome where
  suffix : String
  error : FileOp → Option String
  /-- How many bytes of the chunk reach the file. -/
  written : ℕ

structure AgentState where
  uploads : Table String ActiveUpload
  disk : Disk String UInt8

variable (pid : ℕ) (s : AgentState) (m : UploadChunkRequest) (o : Outcome)

/-- The name a new upload would write to. -/
def tempPath : String := tempSibling pid o.suffix (normalizePath m.path)

/-- The upload of a chunk, which the first one opens. -/
def openUpload : AgentState × Except String ActiveUpload :=
  match s.uploads.get? m.uploadId with
  | some upload => (s, .ok upload)
  | none =>
    if m.offset = 0 then
      match o.error .open with
      | some e => (s, .error e)
      | none =>
        match s.disk.create (tempPath pid m o) with
        | none => (s, .error ("Error: EEXIST: file already exists, open '" ++ tempPath pid m o ++ "'"))
        | some (disk, handle) =>
          let upload := ⟨normalizePath m.path, tempPath pid m o, handle, 0⟩
          (⟨s.uploads.set m.uploadId upload, disk⟩, .ok upload)
    else
      (s, .error ("Error: Unknown upload " ++ m.uploadId ++ " (offset " ++ toString m.offset ++ ")"))

/-- The checks and the write. -/
def writeUpload (upload : ActiveUpload) : AgentState × Except String ActiveUpload :=
  if m.offset ≠ upload.bytesWritten then
    (s, .error ("Error: Upload " ++ m.uploadId ++ ": expected offset " ++
      toString upload.bytesWritten ++ ", got " ++ toString m.offset))
  else if upload.path ≠ normalizePath m.path then
    (s, .error ("Error: Upload " ++ m.uploadId ++ ": path changed mid-upload"))
  else
    let disk := s.disk.append upload.handle (m.content.take o.written)
    match o.error .write with
    | some e => (⟨s.uploads, disk⟩, .error e)
    | none =>
      -- the number of bytes the write reports is not looked at
      let upload := { upload with bytesWritten := upload.bytesWritten + m.content.length }
      (⟨s.uploads.set m.uploadId upload, disk⟩, .ok upload)

/-- The end of a final chunk. -/
def publishUpload (upload : ActiveUpload) : AgentState × Except String ℕ :=
  let uploads := s.uploads.erase m.uploadId
  match o.error .close, o.error .rename with
  | some e, _ => (⟨uploads, s.disk⟩, .error e)
  | none, some e => (⟨uploads, s.disk⟩, .error e)
  | none, none =>
    match s.disk.rename upload.tempPath upload.path with
    | none => (⟨uploads, s.disk⟩, .error ("Error: ENOENT: no such file or directory, rename '" ++
        upload.tempPath ++ "' -> '" ++ upload.path ++ "'"))
    | some disk => (⟨uploads, disk⟩, .ok upload.bytesWritten)

def runUploadChunk : AgentState × Except String ℕ :=
  match openUpload pid s m o with
  | (s, .error e) => (s, .error e)
  | (s, .ok upload) =>
    match writeUpload s m o upload with
    | (s, .error e) => (s, .error e)
    | (s, .ok upload) =>
      if m.final then publishUpload s m o upload else (s, .ok upload.bytesWritten)

/-- End an upload without publishing it. -/
def discardUpload (uploadId : String) : AgentState :=
  match s.uploads.get? uploadId with
  | none => s
  | some upload => ⟨s.uploads.erase uploadId, s.disk.unlink upload.tempPath⟩

/-- The agent on a chunk: any failure ends the upload. -/
def handleChunk : AgentState × Except String ℕ :=
  match runUploadChunk pid s m o with
  | (s, .error e) => (discardUpload s m.uploadId, .error e)
  | (s, .ok n) => (s, .ok n)

inductive Label where
  | chunk (m : UploadChunkRequest) (o : Outcome)
  /-- An abort, or the idle timer of an upload. -/
  | abort (uploadId : String)

/-- The agent, on a disk that may hold anything. A chunk has an answer. -/
def chunkMachine (disk : Disk String UInt8) :
    Machine AgentState Label (Option (Except String ℕ)) where
  init := ⟨.empty, disk⟩
  step s
  | .chunk m o => some ((handleChunk pid s m o).1, some (handleChunk pid s m o).2)
  | .abort uploadId => some (discardUpload s uploadId, none)

/-! ### What a chunk does -/

/-- The path an upload is for. -/
def target : String := (s.uploads.get? m.uploadId).elim (normalizePath m.path) ActiveUpload.path

/-- A new temp file is opened. -/
def Opened : Prop :=
  s.uploads.get? m.uploadId = none ∧ m.offset = 0 ∧ o.error .open = none ∧
    s.disk.names.get? (tempPath pid m o) = none

/-- The write is reached. -/
def Writes : Prop :=
  (∃ upload, s.uploads.get? m.uploadId = some upload ∧ m.offset = upload.bytesWritten ∧
    upload.path = normalizePath m.path) ∨ Opened pid s m o

/-- The close is reached. -/
def Closes : Prop := Writes pid s m o ∧ o.error .write = none ∧ m.final = true

/-- An operation is reached and fails. -/
def Fails : FileOp → Prop
  | .open => s.uploads.get? m.uploadId = none ∧ m.offset = 0 ∧ ¬ Opened pid s m o
  | .write => Writes pid s m o ∧ o.error .write ≠ none
  | .close => Closes pid s m o ∧ o.error .close ≠ none
  | .rename => Closes pid s m o ∧ o.error .close = none ∧ o.error .rename ≠ none

/-- The temp file of the upload of a chunk, in progress or opened by it. -/
def TempOf (name : String) : Prop :=
  (∃ upload, s.uploads.get? m.uploadId = some upload ∧ name = upload.tempPath) ∨
    Opened pid s m o ∧ name = tempPath pid m o

/-- What the chunks of each upload in progress have brought so far. -/
def progress (got : String → List UInt8) (e : Label × Option (Except String ℕ)) :
    String → List UInt8 :=
  match e.1 with
  | .chunk m _ =>
    Function.update got m.uploadId
      (match e.2 with
      | some (.ok _) => if m.final then [] else got m.uploadId ++ m.content
      | _ => [])
  | .abort uploadId => Function.update got uploadId []

def received (tr : List (Label × Option (Except String ℕ))) : String → List UInt8 :=
  tr.foldl progress fun _ => []

/-- **An upload is published whole or not at all.** What a chunk must have done, when the
trace `tr` is behind it. -/
structure Atomic (tr : List (Label × Option (Except String ℕ)))
    (after : AgentState × Except String ℕ) : Prop where
  published : ∀ n, after.2 = .ok n → m.final = true →
    after.1.disk.read (normalizePath m.path) = some (received tr m.uploadId ++ m.content) ∧
      n = (received tr m.uploadId ++ m.content).length
  answered : (∃ op, Fails pid s m o op) → ∃ e, after.2 = .error e
  kept : ∀ e, after.2 = .error e → after.1.disk.read (target s m) = s.disk.read (target s m)
  frame : ∀ e, after.2 = .error e → ∀ name, ¬ TempOf pid s m o name →
    after.1.disk.read name = s.disk.read name
  removed : ∀ e, after.2 = .error e → ∀ name, TempOf pid s m o name →
    after.1.disk.names.get? name = none
  forgotten : ∀ e, after.2 = .error e → after.1.uploads.get? m.uploadId = none

/-- **The condition of the guarantee.** A write that succeeds is not short, a finished file
can be closed and renamed, and its new name is not the temp name of another upload. -/
def Sound : Label → Prop
  | .chunk m o =>
    (Writes pid s m o → o.error .write = none → m.content.length ≤ o.written) ∧
      (Closes pid s m o → o.error .close = none ∧ o.error .rename = none ∧
        ∀ uploadId upload, s.uploads.get? uploadId = some upload → uploadId ≠ m.uploadId →
          upload.tempPath ≠ normalizePath m.path)
  | .abort _ => True

end ServerCentral.Agent.Serial
