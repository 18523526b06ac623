import Mathlib.Data.List.Infix
import Mathlib.Data.Nat.Basic
import ServerCentral.Framework.Machine
import ServerCentral.Framework.Search
import ServerCentral.Framework.Table

/-!
# The streaming multipart reader

`ByteCursor`, `parseRpcMultipart` and the streams it hands out. An operation of the cursor
that needs more of the body stops with what it has to remember (`OpenPhase`, `ParsePhase`,
`PartPhase`) and goes on when the next chunk is there. `parseRpcMultipart` runs alone until
it returns; after that the handler may start, pull and cancel the streams in any order, and
the dispatcher may drain at any time (`multipartMachine`).
-/

open Framework

namespace ServerCentral.Http

abbrev Bytes := List UInt8

/-- `encoder.encode` -/
def utf8 (s : String) : Bytes := s.toByteArray.data.toList

def CRLF : Bytes := [13, 10]

def CRLF_CRLF : Bytes := [13, 10, 13, 10]

def DASH_DASH : Bytes := [45, 45]

def MAX_PREAMBLE_BYTES : Nat := 8 * 1024

def MAX_PART_HEADER_BYTES : Nat := 16 * 1024

def MAX_META_BYTES : Nat := 1024 * 1024

def MULTIPART_META_FIELD : String := "__meta"

/-- What `JSON.parse` and `Number` yield. -/
inductive JsNumber where
  | nan
  | finite (value : Rat)
  | infinite (negative : Bool)
  deriving DecidableEq

inductive Json where
  | null
  | bool (value : Bool)
  | num (value : JsNumber)
  | str (value : String)
  | arr (values : List Json)
  | obj (members : List (String × Json))

/-- What the parser uses of the runtime beyond what is defined here. -/
structure Runtime where
  /-- `TextDecoder.decode` of bytes that are no UTF-8. -/
  decodeLossy : Bytes → String
  /-- `JSON.parse`, which may throw. -/
  parseJson : String → Option Json
  /-- `Number` of what is no number. -/
  toNumber : Json → JsNumber
  /-- `String` of what is no string. -/
  toText : Json → String

/-- `new TextDecoder().decode`, which drops a byte order mark. -/
def Runtime.decode (rt : Runtime) (bytes : Bytes) : String :=
  match String.fromUTF8? ⟨bytes.toArray⟩ with
  | some s => if s.toList.head? = some '\uFEFF' then String.ofList s.toList.tail else s
  | none => rt.decodeLossy bytes

/-! ### Numbers -/

namespace JsNumber

def add : JsNumber → JsNumber → JsNumber
  | .finite a, .finite b => .finite (a + b)
  | .finite _, .infinite n => .infinite n
  | .infinite n, .finite _ => .infinite n
  | .infinite n, .infinite m => if n = m then .infinite n else .nan
  | .nan, _ => .nan
  | _, .nan => .nan

/-- `a > n` -/
def exceeds : JsNumber → Nat → Bool
  | .finite a, n => (n : Rat) < a
  | .infinite negative, _ => !negative
  | .nan, _ => false

/-- `n > a` -/
def exceededBy : JsNumber → Nat → Bool
  | .finite a, n => a < (n : Rat)
  | .infinite negative, _ => negative
  | .nan, _ => false

end JsNumber

/-! ### JSON values -/

namespace Json

/-- `v.name`; `none` is `undefined`. -/
def member (v : Json) (name : String) : Option Json :=
  match v with
  | .obj members => (members.find? fun e => e.1 = name).map Prod.snd
  | _ => none

end Json

namespace Runtime

variable (rt : Runtime)

/-- `Number(v)` -/
def number : Option Json → JsNumber
  | some (.num n) => n
  | some v => rt.toNumber v
  | none => .nan

/-- `Number(v) || 0` -/
def numberOrZero (v : Option Json) : JsNumber :=
  match rt.number v with
  | .nan => .finite 0
  | n => n

/-- `String(v)`, also in a template. -/
def text : Option Json → String
  | some (.str s) => s
  | some v => rt.toText v
  | none => "undefined"

/-- `seen > size` -/
def larger (seen : Nat) (size : Option Json) : Bool := (rt.number size).exceededBy seen

end Runtime

/-- `seen === size` -/
def sameNumber (seen : Nat) : Option Json → Bool
  | some (.num n) => n = .finite seen
  | _ => false

/-! ### The cursor -/

/-- `indexOfSub` -/
def indexOfSub (haystack needle : Bytes) (start : Nat) : Option Nat :=
  findFrom needle haystack start

/-- The buffer, and what its reader has not read: the chunks of the body and how it ends. -/
structure ByteCursor where
  buf : Bytes
  chunks : List Bytes
  /-- The error the body ends with, if it does not just end. -/
  failure : Option String
  ended : Bool
  cancelled : Bool
  deriving DecidableEq, Repr

namespace ByteCursor

/-- One more chunk, or none when the stream is spent. -/
def fill (c : ByteCursor) : Except String (Bool × ByteCursor) :=
  if c.ended then .ok (false, c)
  else if c.cancelled then .ok (false, { c with ended := true })
  else
    match c.chunks with
    | chunk :: chunks => .ok (true, { c with buf := c.buf ++ chunk, chunks })
    | [] =>
      match c.failure with
      | some message => .error message
      | none => .ok (false, { c with ended := true })

def drop (c : ByteCursor) (n : Nat) : ByteCursor := { c with buf := c.buf.drop n }

/-- `reader.cancel` -/
def cancel (c : ByteCursor) : ByteCursor := { c with cancelled := true }

end ByteCursor

/-- How far an operation gets with what is in the buffer: it waits for more, remembering
`P`, or it is done. -/
inductive Progress (P A : Type) where
  | waits (phase : P) (cursor : ByteCursor)
  | done (a : A) (cursor : ByteCursor)
  | fails (message : String) (cursor : ByteCursor)

/-- One round of the loop of `readUntil`. -/
def readUntil (c : ByteCursor) (needle : Bytes) (limit searched : Nat) : Progress Nat Bytes :=
  match indexOfSub c.buf needle searched with
  | some i => .done (c.buf.take i) (c.drop (i + needle.length))
  | none =>
    if c.buf.length > limit then .fails "Malformed multipart body: oversized section" c
    else .waits (c.buf.length + 1 - needle.length) c

/-! ### Headers -/

/-- `\s` -/
def isSpace (c : Char) : Bool :=
  c ∈ ['\t', '\n', '\x0b', '\x0c', '\r', ' ', '\u00a0', '\u1680', '\u2028', '\u2029', '\u202f',
    '\u205f', '\u3000', '\ufeff'] || ('\u2000' ≤ c && c ≤ '\u200a')

/-- What follows `word`, letters compared without their case. -/
def dropWord : List Char → List Char → Option (List Char)
  | [], cs => some cs
  | w :: ws, c :: cs => if c.toLower = w then dropWord ws cs else none
  | _ :: _, [] => none

/-- `"([^"]*)"` -/
def quoted (cs : List Char) : Option (List Char) :=
  match cs with
  | '"' :: cs => if '"' ∈ cs then some (cs.takeWhile (· ≠ '"')) else none
  | _ => none

/-- `([^;\s]+)` -/
def bare (cs : List Char) : Option (List Char) :=
  let word := cs.takeWhile fun c => c ≠ ';' && !isSpace c
  if word = [] then none else some word

/-- `/;\s*<word>=(?:<quoted>|<bare>)/i`, at the first place where it matches. -/
def parameter (word : List Char) (quoted : List Char → Option (List Char)) :
    List Char → Option (List Char)
  | [] => none
  | c :: cs =>
    if c = ';' then
      match (dropWord word (cs.dropWhile isSpace)).bind fun v => quoted v <|> bare v with
      | some v => some v
      | none => parameter word quoted cs
    else parameter word quoted cs

/-- `"([^"]+)"` -/
def quotedSome (cs : List Char) : Option (List Char) := (quoted cs).filter (· ≠ [])

def multipartBoundary (contentType : Option String) : Option String :=
  contentType.bind fun contentType =>
    if (dropWord "multipart/form-data".toList contentType.toList).isSome then
      ((parameter "boundary=".toList quotedSome contentType.toList).map String.ofList).filter
        (· ≠ "")
    else none

/-- `split("\r\n")` -/
def lines : List Char → List (List Char)
  | [] => [[]]
  | '\r' :: '\n' :: cs => [] :: lines cs
  | c :: cs =>
    match lines cs with
    | [] => [[c]]
    | line :: rest => (c :: line) :: rest

/-- `/^content-disposition\s*:/i` -/
def isDisposition (line : List Char) : Bool :=
  match dropWord "content-disposition".toList line with
  | some rest => (rest.dropWhile isSpace).head? = some ':'
  | none => false

def partName (headerBlock : String) : Option String :=
  ((lines headerBlock.toList).find? isDisposition).bind fun line =>
    (parameter "name=".toList quoted line).map String.ofList

/-! ### Parts -/

/-- Where `openPart` waits. -/
inductive OpenPhase where
  | marker
  | header (searched : Nat)
  deriving DecidableEq, Repr

/-- The end of `openPart`. -/
def openHeader (rt : Runtime) (c : ByteCursor) (searched : Nat) :
    Progress OpenPhase (Option String) :=
  match readUntil c CRLF_CRLF MAX_PART_HEADER_BYTES searched with
  | .waits searched c => .waits (.header searched) c
  | .fails message c => .fails message c
  | .done header c =>
    match partName (rt.decode header) with
    | none => .fails "Malformed multipart body: part has no name" c
    | some name => .done (some name) c

/-- The name of the next part, `none` at the end of the body. -/
def openPart (rt : Runtime) (c : ByteCursor) : OpenPhase → Progress OpenPhase (Option String)
  | .marker =>
    if c.buf.length < 2 then .waits .marker c
    else
      let marker := c.buf.take 2
      if marker = DASH_DASH then .done none (c.drop 2)
      else if marker ≠ CRLF then .fails "Malformed multipart body: bad delimiter" (c.drop 2)
      else openHeader rt (c.drop 2) 0
  | .header searched => openHeader rt c searched

/-! ### The meta part -/

/-- A property of the handler's argument. -/
inductive Field where
  | json (value : Json)
  | part (index : Nat) (size : JsNumber) (type : String)

/-- The handler's argument: its own properties, and the prototype that an assignment to
`__proto__` gives it. -/
structure RpcData where
  own : Table String Field
  proto : Option Field

namespace RpcData

/-- `data[key] = field` -/
def assign (data : RpcData) (key : String) (field : Field) : RpcData :=
  if key = "__proto__" ∧ data.own.has key = false then { data with proto := some field }
  else { data with own := data.own.set key field }

/-- `data[key]`, what the prototype hands down left out. -/
def get (data : RpcData) (key : String) : Option Field :=
  match data.own.get? key with
  | some field => some field
  | none => if key = "__proto__" then data.proto else none

end RpcData

/-- `{ ...fields }`, when `fields` is an object. -/
def spread : Json → Option (Table String Field)
  | .obj members => some (members.foldl (fun t e => t.set e.1 (.json e.2)) .empty)
  | .arr values =>
    some (values.zipIdx.foldl (fun t e => t.set (toString e.2) (.json e.1)) .empty)
  | _ => none

/-- The handle of a declared part. -/
def partField (rt : Runtime) (spec : Json) (index : Nat) : Field :=
  .part index (rt.numberOrZero (spec.member "size"))
    (match spec.member "type" with
      | some (.str type) => type
      | _ => "")

/-- `declared.forEach` -/
def assignParts (rt : Runtime) (declared : List Json) (data : RpcData) : RpcData :=
  declared.zipIdx.foldl
    (fun data e => data.assign (rt.text (e.1.member "name")) (partField rt e.1 e.2)) data

def declaredTotal (rt : Runtime) (declared : List Json) : JsNumber :=
  declared.foldl (fun sum d => sum.add (rt.numberOrZero (d.member "size"))) (.finite 0)

/-- What the meta part declares. -/
structure Meta where
  declared : List Json
  data : RpcData

def readMeta (rt : Runtime) (maxBytes : Nat) (raw : Bytes) : Except String Meta :=
  match rt.parseJson (rt.decode raw) with
  | none => .error "Malformed multipart body: meta is not JSON"
  | some value =>
    let declared := match value.member "binary" with
      | some (.arr specs) => specs
      | _ => []
    let fields := match value.member "fields" with
      | none => .obj []
      | some .null => .obj []
      | some fields => fields
    match spread fields with
    | none => .error "Malformed multipart body: meta.fields is not an object"
    | some own =>
      if declared.any fun d => d matches .null then
        .error "null is not an object (evaluating 'd.size')"
      else
        let total := declaredTotal rt declared
        if total.exceeds maxBytes then
          .error ("Upload too large: " ++ rt.toText (.num total) ++ " bytes (max " ++
            toString maxBytes ++ ")")
        else .ok ⟨declared, assignParts rt declared ⟨own, none⟩⟩

/-! ### The request up to its first binary part -/

def dashBoundary (boundary : String) : Bytes := DASH_DASH ++ utf8 boundary

def bodyDelimiter (boundary : String) : Bytes := CRLF ++ dashBoundary boundary

/-- Where `parseRpcMultipart` waits. -/
inductive ParsePhase where
  | preamble (searched : Nat)
  | opening (phase : OpenPhase)
  | metaText (searched : Nat)
  deriving DecidableEq, Repr

section Parse

variable (rt : Runtime) (boundary : String) (maxBytes : Nat)

def parseMeta (c : ByteCursor) (searched : Nat) : Progress ParsePhase Meta :=
  match readUntil c (bodyDelimiter boundary) MAX_META_BYTES searched with
  | .waits searched c => .waits (.metaText searched) c
  | .fails message c => .fails message c
  | .done raw c =>
    match readMeta rt maxBytes raw with
    | .error message => .fails message c
    | .ok info => .done info c

def parseOpening (c : ByteCursor) (phase : OpenPhase) : Progress ParsePhase Meta :=
  match openPart rt c phase with
  | .waits phase c => .waits (.opening phase) c
  | .fails message c => .fails message c
  | .done name c =>
    if name = some MULTIPART_META_FIELD then parseMeta rt boundary maxBytes c 0
    else .fails ("Malformed multipart body: expected \"" ++ MULTIPART_META_FIELD ++
      "\" first, got \"" ++ name.getD "end of body" ++ "\"") c

def parsePhase (c : ByteCursor) : ParsePhase → Progress ParsePhase Meta
  | .preamble searched =>
    match readUntil c (dashBoundary boundary) MAX_PREAMBLE_BYTES searched with
    | .waits searched c => .waits (.preamble searched) c
    | .fails message c => .fails message c
    | .done _ c => parseOpening rt boundary maxBytes c .marker
  | .opening phase => parseOpening rt boundary maxBytes c phase
  | .metaText searched => parseMeta rt boundary maxBytes c searched

/-- `parseRpcMultipart` fills the buffer with the chunks of the body until it is done. -/
def parseChunks : List Bytes → ByteCursor → ParsePhase → Except String (Meta × ByteCursor)
  | chunks, c, phase =>
    match parsePhase rt boundary maxBytes c phase with
    | .done info c => .ok (info, c)
    | .fails message _ => .error message
    | .waits phase c =>
      match chunks with
      | [] => .error (c.failure.getD "Malformed multipart body: truncated")
      | chunk :: chunks => parseChunks chunks { c with buf := c.buf ++ chunk, chunks } phase

end Parse

/-- A request body: its chunks, and the error it ends with. -/
structure RequestBody where
  chunks : List Bytes
  failure : Option String
  deriving DecidableEq, Repr

/-- What the closures of `parseRpcMultipart` hold on to. -/
structure RpcMultipart where
  boundary : String
  declared : List Json
  maxBytes : Nat
  data : RpcData
  cursor : ByteCursor

def parseRpcMultipart (rt : Runtime) (contentType : Option String) (body : Option RequestBody)
    (maxBytes : Nat) : Except String RpcMultipart :=
  match multipartBoundary contentType with
  | none => .error "Malformed multipart body: no boundary"
  | some boundary =>
    match body with
    | none => .error "Malformed multipart body: empty"
    | some body =>
      match parseChunks rt boundary maxBytes body.chunks
        ⟨[], body.chunks, body.failure, false, false⟩ (.preamble 0) with
      | .error message => .error message
      | .ok (info, cursor) => .ok ⟨boundary, info.declared, maxBytes, info.data, cursor⟩

/-! ### The streams of the binary parts -/

/-- Where a suspended generator goes on: at its start, after the last chunk of the part, or
after a chunk that more may follow. -/
inductive Resume where
  | start
  | afterLast
  | afterChunk
  deriving DecidableEq, Repr

/-- What a generator waits for. -/
inductive PartRead where
  | opening (phase : OpenPhase)
  | body
  deriving DecidableEq, Repr

inductive PartPhase where
  | suspended (resume : Resume)
  | reading (read : PartRead)
  | closed
  deriving DecidableEq, Repr

/-- A started stream: its generator, and whether its consumer has cancelled it. -/
structure PartStream where
  phase : PartPhase
  seen : Nat
  cancelled : Bool
  deriving DecidableEq, Repr

/-- What stops a generator. -/
inductive PartResult where
  | waits (read : PartRead) (cursor : ByteCursor)
  | yields (chunk : Bytes) (resume : Resume) (cursor : ByteCursor)
  | returns (cursor : ByteCursor)
  | fails (message : String) (cursor : ByteCursor)

/-- One round of the loop of `chunksUntil`. -/
def chunksUntil (c : ByteCursor) (needle : Bytes) : PartResult :=
  match indexOfSub c.buf needle 0 with
  | some i =>
    if i > 0 then .yields (c.buf.take i) .afterLast (c.drop i)
    else .returns (c.drop needle.length)
  | none =>
    let safe := c.buf.length - (needle.length - 1)
    if safe > 0 then .yields (c.buf.take safe) .afterChunk (c.drop safe) else .waits .body c

/-- `name === spec.name`; the end of the body is `null`. -/
def sameName (name : Option String) (declared : Option Json) : Bool :=
  match name, declared with
  | some name, some (.str declared) => name = declared
  | none, some .null => true
  | _, _ => false

inductive PartEvent where
  | started (index : Nat)
  | refused (index : Nat) (message : String)
  /-- A chunk is enqueued. -/
  | chunk (index : Nat) (data : Bytes)
  /-- A chunk arrives for a stream that has been cancelled. -/
  | dropped (index : Nat) (data : Bytes)
  | ended (index : Nat)
  | errored (index : Nat) (message : String)
  deriving DecidableEq, Repr

structure PartsState where
  cursor : ByteCursor
  atPart : Nat
  seenTotal : Nat
  finished : Bool
  /-- The streams that have been started, which are the indices in `consumed`. -/
  streams : Table Nat PartStream

inductive PartsLabel where
  /-- The handler calls `stream()` of a part. -/
  | start (index : Nat)
  | pull (index : Nat)
  /-- The read a stream waits for resolves. -/
  | read (index : Nat)
  | cancel (index : Nat)
  | drain
  deriving DecidableEq, Repr

section Parts

variable (rt : Runtime) (m : RpcMultipart)

/-- The start of `consumePart`, up to the first stop of its loop. -/
def openBody (spec : Json) (c : ByteCursor) (phase : OpenPhase) : PartResult :=
  match openPart rt c phase with
  | .waits phase c => .waits (.opening phase) c
  | .fails message c => .fails message c
  | .done name c =>
    if sameName name (spec.member "name") then chunksUntil c (bodyDelimiter m.boundary)
    else .fails ("Malformed multipart body: expected part \"" ++ rt.text (spec.member "name") ++
      "\", got \"" ++ name.getD "end of body" ++ "\"") c

/-- `chunks.next()` of a suspended generator. -/
def next (spec : Json) (c : ByteCursor) : Resume → PartResult
  | .start => openBody rt m spec c .marker
  | .afterLast => .returns (c.drop (bodyDelimiter m.boundary).length)
  | .afterChunk => .waits .body c

/-- A generator goes on with a longer buffer. -/
def goOn (spec : Json) (c : ByteCursor) : PartRead → PartResult
  | .opening phase => openBody rt m spec c phase
  | .body => chunksUntil c (bodyDelimiter m.boundary)

/-- The error of a generator when the body ends early. -/
def PartRead.truncated : PartRead → String
  | .opening _ => "Malformed multipart body: truncated"
  | .body => "Malformed multipart body: truncated part"

namespace PartsState

/-- The generator throws. -/
def fail (s : PartsState) (index : Nat) (st : PartStream) (message : String) :
    PartsState × List PartEvent :=
  ({ s with streams := s.streams.set index { st with phase := .closed } },
    if st.cancelled then [] else [.errored index message])

/-- `consumePart` and `pull` take up what stopped the generator. -/
def settle (s : PartsState) (index : Nat) (spec : Json) (st : PartStream) :
    PartResult → PartsState × List PartEvent
  | .waits read cursor =>
    ({ s with cursor, streams := s.streams.set index { st with phase := .reading read } }, [])
  | .fails message cursor => { s with cursor }.fail index st message
  | .yields chunk resume cursor =>
    let st := { st with seen := st.seen + chunk.length }
    let s := { s with cursor, seenTotal := s.seenTotal + chunk.length }
    if rt.larger st.seen (spec.member "size") then
      s.fail index st ("Upload larger than declared: part \"" ++ rt.text (spec.member "name") ++
        "\" exceeds " ++ rt.text (spec.member "size") ++ " bytes")
    else if s.seenTotal > m.maxBytes then
      s.fail index st ("Upload too large: exceeds " ++ toString m.maxBytes ++ " bytes")
    else if st.cancelled then
      ({ s with streams := s.streams.set index { st with phase := .closed } },
        [.dropped index chunk])
    else
      ({ s with streams := s.streams.set index { st with phase := .suspended resume } },
        [.chunk index chunk])
  | .returns cursor =>
    let s := { s with cursor }
    if sameNumber st.seen (spec.member "size") then
      ({ s with
          atPart := index + 1
          finished := s.finished || index + 1 = m.declared.length
          streams := s.streams.set index { st with phase := .closed } },
        if st.cancelled then [] else [.ended index])
    else
      s.fail index st ("Upload truncated: part \"" ++ rt.text (spec.member "name") ++ "\" was " ++
        toString st.seen ++ " bytes, declared " ++ rt.text (spec.member "size"))

/-- `stream()` -/
def start (s : PartsState) (index : Nat) (spec : Json) : PartsState × List PartEvent :=
  let name := rt.text (spec.member "name")
  if s.streams.has index then
    (s, [.refused index ("Binary field \"" ++ name ++ "\" has already been read")])
  else if index ≠ s.atPart then
    (s, [.refused index ("Binary field \"" ++ name ++ "\" must be read in declaration order")])
  else
    ({ s with streams := s.streams.set index ⟨.suspended .start, 0, false⟩ }, [.started index])

/-- A read resolves: with a chunk, the end of the body, or its error. -/
def read (s : PartsState) (index : Nat) (spec : Json) (st : PartStream) (read : PartRead) :
    PartsState × List PartEvent :=
  match s.cursor.fill with
  | .error message => s.fail index st message
  | .ok (true, c) => s.settle rt m index spec st (goOn rt m spec c read)
  | .ok (false, c) => { s with cursor := c }.fail index st read.truncated

/-- `cancel()`: a suspended generator returns at once, a running one when it stops. -/
def cancel (s : PartsState) (index : Nat) (st : PartStream) : PartsState :=
  { s with
    streams := s.streams.set index
      { st with
        cancelled := true
        phase := match st.phase with
          | .suspended _ => .closed
          | phase => phase } }

def drain (s : PartsState) : PartsState :=
  if s.finished then s else { s with cursor := s.cursor.cancel }

def step (s : PartsState) : PartsLabel → Option (PartsState × List PartEvent)
  | .start index => (m.declared[index]?).map fun spec => s.start rt index spec
  | .pull index =>
    -- a stream is pulled while it is readable, once at a time
    (m.declared[index]?).bind fun spec => (s.streams.get? index).bind fun st =>
      match st.phase with
      | .suspended resume => some (s.settle rt m index spec st (next rt m spec s.cursor resume))
      | _ => none
  | .read index =>
    (m.declared[index]?).bind fun spec => (s.streams.get? index).bind fun st =>
      match st.phase with
      | .reading read => some (s.read rt m index spec st read)
      | _ => none
  | .cancel index =>
    (s.streams.get? index).bind fun st =>
      if st.cancelled = true ∨ st.phase = .closed then none else some (s.cancel index st, [])
  | .drain => some (s.drain, [])

end PartsState

/-- **A request in the handler's hands.** -/
def partsMachine : Machine PartsState PartsLabel (List PartEvent) where
  init := ⟨m.cursor, 0, 0, m.declared.length = 0, .empty⟩
  step := fun s l => s.step rt m l

end Parts

end ServerCentral.Http
