import ServerCentral.Http.Wire

/-!
# A body read as a whole

What the reader would find if all of a body were there from the start: `parseWhole` up to
the first binary part, and `readWhole` the parts that are read through after one another.
Neither knows of chunks.

`readUntil` looks at its limit only while it has not found the delimiter in what has arrived
so far, so a section that is longer than its limit is accepted or not as the chunks happen
to be cut. `Fits` is that this cannot happen: when the buffer has grown past the limit, the
delimiter would have been found in it. For bodies all of whose sections fit (`SectionsFit`)
the reader finds what it would find in the whole.
-/

open Framework

namespace ServerCentral.Http

/-- A section that ends is not longer than its limit allows. -/
def Fits (needle : Bytes) (limit : Nat) (bytes : Bytes) : Prop :=
  ∀ out rest, cut needle bytes = some (out, rest) → out.length + needle.length ≤ limit + 1

section Whole

variable (rt : Runtime) (boundary : String) (maxBytes : Nat) (failure : Option String)

/-- The error of an operation that gets no more bytes. -/
def truncated : String := failure.getD "Malformed multipart body: truncated"

def untilWhole (needle : Bytes) (limit : Nat) (bytes : Bytes) : Except String (Bytes × Bytes) :=
  match cut needle bytes with
  | some p => .ok p
  | none =>
    if bytes.length > limit then .error "Malformed multipart body: oversized section"
    else .error (truncated failure)

/-- The name in a header block. -/
def nameWhole (p : Bytes × Bytes) : Except String (Option String × Bytes) :=
  match partName (rt.decode p.1) with
  | none => .error "Malformed multipart body: part has no name"
  | some name => .ok (some name, p.2)

def headerWhole (bytes : Bytes) : Except String (Option String × Bytes) :=
  (untilWhole failure CRLF_CRLF MAX_PART_HEADER_BYTES bytes).bind (nameWhole rt)

/-- The name of a part, `none` at the end of the body. -/
def openWhole (bytes : Bytes) : Except String (Option String × Bytes) :=
  if bytes.length < 2 then .error (truncated failure)
  else if bytes.take 2 = DASH_DASH then .ok (none, bytes.drop 2)
  else if bytes.take 2 ≠ CRLF then .error "Malformed multipart body: bad delimiter"
  else headerWhole rt failure (bytes.drop 2)

/-! ### Up to the first binary part -/

/-- The meta part, read. -/
def infoWhole (p : Bytes × Bytes) : Except String (Meta × Bytes) :=
  match readMeta rt maxBytes p.1 with
  | .error message => .error message
  | .ok info => .ok (info, p.2)

def metaWhole (bytes : Bytes) : Except String (Meta × Bytes) :=
  (untilWhole failure (bodyDelimiter boundary) MAX_META_BYTES bytes).bind (infoWhole rt maxBytes)

/-- What follows the name of the first part. -/
def namedWhole (p : Option String × Bytes) : Except String (Meta × Bytes) :=
  if p.1 = some MULTIPART_META_FIELD then metaWhole rt boundary maxBytes failure p.2
  else .error ("Malformed multipart body: expected \"" ++ MULTIPART_META_FIELD ++
    "\" first, got \"" ++ p.1.getD "end of body" ++ "\"")

/-- What follows the preamble. -/
def openingWhole (p : Bytes × Bytes) : Except String (Meta × Bytes) :=
  (openWhole rt failure p.2).bind (namedWhole rt boundary maxBytes failure)

def parseWhole (bytes : Bytes) : Except String (Meta × Bytes) :=
  (untilWhole failure (dashBoundary boundary) MAX_PREAMBLE_BYTES bytes).bind
    (openingWhole rt boundary maxBytes failure)

/-! ### The parts -/

/-- Why a part is not read through. -/
inductive PartFailure where
  /-- An error, after `body` has been handed out. -/
  | stops (body : Bytes) (message : String)
  /-- More than is declared or allowed. How much is handed out before that is found depends
  on the chunks, and is left open. -/
  | exceeds

/-- More than is declared for a part, or with the `total` before it more than is allowed. -/
def tooMuch (spec : Json) (total : Nat) (body : Bytes) : Bool :=
  body ≠ [] && (rt.larger body.length (spec.member "size") ||
    decide (maxBytes < total + body.length))

def truncatedUpload (spec : Json) (seen : Nat) : String :=
  "Upload truncated: part \"" ++ rt.text (spec.member "name") ++ "\" was " ++ toString seen ++
    " bytes, declared " ++ rt.text (spec.member "size")

/-- What is handed out of a body that its delimiter does not end: all but what may be the
start of the delimiter. -/
def released (bytes : Bytes) : Bytes :=
  bytes.take (bytes.length - ((bodyDelimiter boundary).length - 1))

/-- The end of a body. -/
def closeWhole (spec : Json) (body rest : Bytes) : Except PartFailure (Bytes × Bytes) :=
  if sameNumber body.length (spec.member "size") then .ok (body, rest)
  else .error (.stops body (truncatedUpload rt spec body.length))

/-- A body of which `got` has been handed out: all of it, and what follows it. -/
def bodyWhole (spec : Json) (total : Nat) (got bytes : Bytes) :
    Except PartFailure (Bytes × Bytes) :=
  match cut (bodyDelimiter boundary) bytes with
  | some (out, rest) =>
    if tooMuch rt maxBytes spec total (got ++ out) then .error .exceeds
    else closeWhole rt spec (got ++ out) rest
  | none =>
    if tooMuch rt maxBytes spec total (got ++ released boundary bytes) then .error .exceeds
    else .error (.stops (got ++ released boundary bytes)
      (failure.getD "Malformed multipart body: truncated part"))

/-- A part that has been opened, or not. -/
def openedWhole (spec : Json) (total : Nat) :
    Except String (Option String × Bytes) → Except PartFailure (Bytes × Bytes)
  | .error message => .error (.stops [] message)
  | .ok (name, bytes) =>
    if sameName name (spec.member "name") then
      bodyWhole rt boundary maxBytes failure spec total [] bytes
    else
      .error (.stops [] ("Malformed multipart body: expected part \"" ++
        rt.text (spec.member "name") ++ "\", got \"" ++ name.getD "end of body" ++ "\""))

def partWhole (spec : Json) (total : Nat) (bytes : Bytes) : Except PartFailure (Bytes × Bytes) :=
  openedWhole rt boundary maxBytes failure spec total (openWhole rt failure bytes)

/-- The bodies of the parts that are read through, and what stops the reading before the last
part. -/
structure Reading where
  bodies : List Bytes
  stop : Option PartFailure

def Reading.after (r : Reading) (bodies : List Bytes) : Reading := ⟨bodies ++ r.bodies, r.stop⟩

def readWhole : List Json → Nat → Bytes → Reading
  | [], _, _ => ⟨[], none⟩
  | spec :: specs, total, bytes =>
    match partWhole rt boundary maxBytes failure spec total bytes with
    | .error f => ⟨[], some f⟩
    | .ok (body, rest) => (readWhole specs (total + body.length) rest).after [body]

/-! ### Sections within their limits -/

/-- The header block of a part. -/
def HeaderFits (bytes : Bytes) : Prop :=
  bytes.take 2 = CRLF → Fits CRLF_CRLF MAX_PART_HEADER_BYTES (bytes.drop 2)

/-- The header blocks of the parts that are opened. -/
def PartsFit : List Json → Nat → Bytes → Prop
  | [], _, _ => True
  | spec :: specs, total, bytes =>
    HeaderFits bytes ∧ ∀ body rest,
      partWhole rt boundary maxBytes failure spec total bytes = .ok (body, rest) →
        PartsFit specs (total + body.length) rest

def MetaFits (bytes : Bytes) : Prop :=
  Fits (bodyDelimiter boundary) MAX_META_BYTES bytes

/-- The preamble, the header block of the first part and the meta part. -/
structure PreambleFits (bytes : Bytes) : Prop where
  preamble : Fits (dashBoundary boundary) MAX_PREAMBLE_BYTES bytes
  header : ∀ out rest,
    untilWhole failure (dashBoundary boundary) MAX_PREAMBLE_BYTES bytes = .ok (out, rest) →
      HeaderFits rest
  metaPart : ∀ out rest t,
    untilWhole failure (dashBoundary boundary) MAX_PREAMBLE_BYTES bytes = .ok (out, rest) →
      openWhole rt failure rest = .ok (some MULTIPART_META_FIELD, t) → MetaFits boundary t

variable {rt boundary failure} in
theorem PreambleFits.congr {bytes bytes' : Bytes} (h : PreambleFits rt boundary failure bytes)
    (h_fits : Fits (dashBoundary boundary) MAX_PREAMBLE_BYTES bytes')
    (h_same : untilWhole failure (dashBoundary boundary) MAX_PREAMBLE_BYTES bytes' =
      untilWhole failure (dashBoundary boundary) MAX_PREAMBLE_BYTES bytes) :
    PreambleFits rt boundary failure bytes' where
  preamble := h_fits
  header out rest h_read := h.header out rest (h_same ▸ h_read)
  metaPart out rest t h_read := h.metaPart out rest t (h_same ▸ h_read)

/-- The sections of a body that are read. -/
structure SectionsFit (bytes : Bytes) : Prop extends PreambleFits rt boundary failure bytes where
  parts : ∀ info t, parseWhole rt boundary maxBytes failure bytes = .ok (info, t) →
    PartsFit rt boundary maxBytes failure info.declared 0 t

end Whole

/-! ### Forecasts -/

/-- What a reader that waits in a phase finds in the end, when so much remains: for cursors
that are `ready` in that phase and for what remains of sections that fit. -/
structure Forecast (P A : Type) where
  find : P → Bytes → Except String (A × Bytes)
  ready : P → ByteCursor → Prop
  fits : P → Bytes → Prop

/-- A run of the reader up to its next stop keeps to what it is to find; without more chunks
that is that the body is truncated. -/
def Forecast.Keeps {P A : Type} (F : Forecast P A) (failure : Option String)
    (found : Except String (A × Bytes)) (c : ByteCursor) : Progress P A → Prop
  | .done a c' => SameSource c c' ∧ found = .ok (a, c'.remaining)
  | .waits phase c' => SameSource c c' ∧ F.ready phase c' ∧ F.fits phase c'.remaining ∧
      F.find phase c'.remaining = found ∧ (c.chunks = [] → found = .error (truncated failure))
  | .fails message _ => found = .error message

/-- A reader that goes on with another. -/
def Progress.andThen {P A P' B : Type} (wrap : P → P') (k : A → ByteCursor → Progress P' B) :
    Progress P A → Progress P' B
  | .waits phase c => .waits (wrap phase) c
  | .fails message c => .fails message c
  | .done a c => k a c

namespace Forecast.Keeps

variable {P A P' B : Type} {F : Forecast P A} {failure : Option String}
  {found : Except String (A × Bytes)} {c c' : ByteCursor} {result : Progress P A}

/-- A reader that has first taken bytes from the buffer. -/
theorem of_source (h : F.Keeps failure found c' result) (h_source : SameSource c c') :
    F.Keeps failure found c result := by
  cases result with
  | done a c'' =>
    obtain ⟨h_source', h_done⟩ := h
    exact ⟨h_source.trans h_source', h_done⟩
  | waits phase c'' =>
    obtain ⟨h_source', h_ready, h_fits, h_find, h_last⟩ := h
    refine ⟨h_source.trans h_source', h_ready, h_fits, h_find, fun h_chunks => ?_⟩
    exact h_last (h_source.chunks.trans h_chunks)
  | fails message c'' => exact h

/-- **Two readers after one another**: the second finds `next` of what the first has found. -/
theorem andThen (h : F.Keeps failure found c result) (G : Forecast P' B) (wrap : P → P')
    (k : A → ByteCursor → Progress P' B) (next : A × Bytes → Except String (B × Bytes))
    (h_wait : ∀ phase c', F.ready phase c' → F.fits phase c'.remaining →
      F.find phase c'.remaining = found → G.ready (wrap phase) c' ∧
        G.fits (wrap phase) c'.remaining ∧ G.find (wrap phase) c'.remaining = found.bind next)
    (h_done : ∀ a c', found = .ok (a, c'.remaining) →
      G.Keeps failure (next (a, c'.remaining)) c' (k a c')) :
    G.Keeps failure (found.bind next) c (result.andThen wrap k) := by
  cases result with
  | done a c' =>
    obtain ⟨h_source, h_found⟩ := h
    have h_next := (h_done a c' h_found).of_source h_source
    rw [h_found]
    exact h_next
  | waits phase c' =>
    obtain ⟨h_source, h_ready, h_fits, h_find, h_last⟩ := h
    obtain ⟨h_ready', h_fits', h_find'⟩ := h_wait phase c' h_ready h_fits h_find
    refine ⟨h_source, h_ready', h_fits', h_find', fun h_chunks => ?_⟩
    rw [h_last h_chunks]
    rfl
  | fails message c' =>
    have h_found : found = .error message := h
    rw [h_found]
    rfl

end Forecast.Keeps

section Readers

variable {rt : Runtime} {boundary : String} {maxBytes : Nat} {failure : Option String}
  {c : ByteCursor}

/-- More arrives for a reader that is ready for it. -/
theorem remaining_fill {chunk : Bytes} {chunks : List Bytes} (h : c.chunks = chunk :: chunks) :
    ({ c with buf := c.buf ++ chunk, chunks } : ByteCursor).remaining = c.remaining := by
  simp [ByteCursor.remaining, h]

def untilForecast (failure : Option String) (needle : Bytes) (limit : Nat) : Forecast Nat Bytes where
  find _ := untilWhole failure needle limit
  ready n c := Searched needle c.buf n
  fits _ := Fits needle limit

/-- **A round of `readUntil`.** -/
theorem readUntil_keeps (failure : Option String) {needle : Bytes} {limit n : Nat}
    (h_needle : needle ≠ []) (h_searched : Searched needle c.buf n)
    (h_fits : Fits needle limit c.remaining) :
    (untilForecast failure needle limit).Keeps failure (untilWhole failure needle limit c.remaining)
      c (readUntil c needle limit n) := by
  cases h_read : readUntil c needle limit n with
  | done out c' =>
    obtain ⟨h_source, h_cut⟩ := readUntil_done h_needle h_searched h_read
    refine ⟨h_source, ?_⟩
    rw [untilWhole, h_cut]
  | waits n' c' =>
    obtain ⟨rfl, h_searched'⟩ := readUntil_waits h_needle h_searched h_read
    refine ⟨.rfl, h_searched', h_fits, rfl, fun h_last => ?_⟩
    rw [readUntil, indexOfSub_eq h_needle h_searched] at h_read
    split at h_read
    · cases h_read
    next h_none =>
      split at h_read
      · cases h_read
      next h_short =>
        have h_remaining : c'.remaining = c'.buf := by simp [ByteCursor.remaining, h_last]
        rw [untilWhole, h_remaining, cut_buf_none h_none, if_neg h_short]
  | fails message c' =>
    rw [readUntil, indexOfSub_eq h_needle h_searched] at h_read
    split at h_read
    · cases h_read
    next h_none =>
      split at h_read
      · next h_long =>
        obtain ⟨rfl, rfl⟩ := Progress.fails.inj h_read
        have h_length : c.remaining.length > limit := by
          rw [ByteCursor.remaining, List.length_append]
          omega
        -- the delimiter would have been found
        have h_cut : cut needle c.remaining = none := by
          by_contra h_some
          obtain ⟨⟨out, rest⟩, h_some⟩ := Option.ne_none_iff_exists'.mp h_some
          have h_le := h_fits out rest h_some
          obtain ⟨h_eq, -⟩ := (cut_eq_some_iff h_needle).mp h_some
          have h_occurs : OccursAt needle c.remaining out.length :=
            occursAt_iff.mpr ⟨rest, by rw [h_eq, List.drop_left]⟩
          have h_buf : OccursAt needle c.buf out.length := h_occurs.of_append (by omega)
          exact (cut_eq_none_iff h_needle).mp (cut_buf_none h_none) _ h_buf
        show untilWhole failure needle limit c.remaining = _
        rw [untilWhole, h_cut, if_pos h_length]
      · cases h_read

/-! ### Opening a part -/

def openForecast (rt : Runtime) (failure : Option String) : Forecast OpenPhase (Option String) where
  find
  | .marker => openWhole rt failure
  | .header _ => headerWhole rt failure
  ready phase c :=
    match phase with
    | .marker => True
    | .header n => Searched CRLF_CRLF c.buf n
  fits
  | .marker => HeaderFits
  | .header _ => Fits CRLF_CRLF MAX_PART_HEADER_BYTES

theorem openHeader_keeps {n : Nat} (h_searched : Searched CRLF_CRLF c.buf n)
    (h_fits : Fits CRLF_CRLF MAX_PART_HEADER_BYTES c.remaining) :
    (openForecast rt failure).Keeps failure (headerWhole rt failure c.remaining) c
      (openHeader rt c n) := by
  have h_read := readUntil_keeps failure CRLF_CRLF_ne_nil h_searched h_fits
  have h_header := h_read.andThen (openForecast rt failure) .header
    (fun header c => match partName (rt.decode header) with
      | none => .fails "Malformed multipart body: part has no name" c
      | some name => .done (some name) c) (nameWhole rt)
    (fun n' c' h_ready h_fits' h_find => ⟨h_ready, h_fits', h_find ▸ rfl⟩)
    fun header c' _ => ?_
  · rw [openHeader, headerWhole]
    revert h_header
    cases readUntil c CRLF_CRLF MAX_PART_HEADER_BYTES n <;> exact id
  · rw [nameWhole]
    dsimp only
    cases partName (rt.decode header) with
    | none => rfl
    | some name => exact ⟨.rfl, rfl⟩

/-- **A run of `openPart`.** -/
theorem openPart_keeps {phase : OpenPhase} (h_ready : (openForecast rt failure).ready phase c)
    (h_fits : (openForecast rt failure).fits phase c.remaining) :
    (openForecast rt failure).Keeps failure ((openForecast rt failure).find phase c.remaining) c
      (openPart rt c phase) := by
  cases phase with
  | header n => exact openHeader_keeps h_ready h_fits
  | marker =>
    show (openForecast rt failure).Keeps failure (openWhole rt failure c.remaining) c _
    simp only [openPart]
    split
    · next h_short =>
      refine ⟨.rfl, trivial, h_fits, rfl, fun h_last => ?_⟩
      have h_remaining : c.remaining = c.buf := by simp [ByteCursor.remaining, h_last]
      rw [openWhole, h_remaining, if_pos h_short]
    next h_long =>
    have h_take : c.remaining.take 2 = c.buf.take 2 :=
      List.take_append_of_le_length (Nat.not_lt.mp h_long)
    have h_drop : (c.drop 2).remaining = c.remaining.drop 2 :=
      ByteCursor.remaining_drop (Nat.not_lt.mp h_long)
    have h_enough : ¬ c.remaining.length < 2 := by
      rw [ByteCursor.remaining, List.length_append]
      omega
    split
    · next h_end =>
      refine ⟨c.drop_source 2, ?_⟩
      rw [openWhole, if_neg h_enough, h_take, if_pos h_end, h_drop]
    next h_no_end =>
    split
    · next h_bad =>
      show openWhole rt failure c.remaining = _
      rw [openWhole, if_neg h_enough, h_take, if_neg h_no_end, if_pos h_bad]
    next h_crlf =>
    have h_open : openWhole rt failure c.remaining =
        headerWhole rt failure (c.drop 2).remaining := by
      rw [openWhole, if_neg h_enough, h_take, if_neg h_no_end, if_neg h_crlf, h_drop]
    have h_rest : Fits CRLF_CRLF MAX_PART_HEADER_BYTES (c.drop 2).remaining :=
      h_drop ▸ h_fits (h_take.trans (not_not.mp h_crlf))
    rw [h_open]
    exact (openHeader_keeps (Searched.zero CRLF_CRLF (c.drop 2).buf) h_rest).of_source
      (c.drop_source 2)

/-! ### Up to the first binary part -/

def parseForecast (rt : Runtime) (boundary : String) (maxBytes : Nat) (failure : Option String) :
    Forecast ParsePhase Meta where
  find phase bytes :=
    match phase with
    | .preamble _ => parseWhole rt boundary maxBytes failure bytes
    | .opening phase =>
      ((openForecast rt failure).find phase bytes).bind (namedWhole rt boundary maxBytes failure)
    | .metaText _ => metaWhole rt boundary maxBytes failure bytes
  ready phase c :=
    match phase with
    | .preamble n => Searched (dashBoundary boundary) c.buf n
    | .opening phase => (openForecast rt failure).ready phase c
    | .metaText n => Searched (bodyDelimiter boundary) c.buf n
  fits phase bytes :=
    match phase with
    | .preamble _ => PreambleFits rt boundary failure bytes
    | .opening phase => (openForecast rt failure).fits phase bytes ∧ ∀ t,
        (openForecast rt failure).find phase bytes = .ok (some MULTIPART_META_FIELD, t) →
          MetaFits boundary t
    | .metaText _ => MetaFits boundary bytes

theorem parseMeta_keeps {n : Nat} (h_searched : Searched (bodyDelimiter boundary) c.buf n)
    (h_fits : MetaFits boundary c.remaining) :
    (parseForecast rt boundary maxBytes failure).Keeps failure
      (metaWhole rt boundary maxBytes failure c.remaining) c (parseMeta rt boundary maxBytes c n) := by
  have h_read := readUntil_keeps failure (bodyDelimiter_ne_nil boundary) h_searched h_fits
  have h_meta := h_read.andThen (parseForecast rt boundary maxBytes failure) .metaText
    (fun raw c => match readMeta rt maxBytes raw with
      | .error message => .fails message c
      | .ok info => .done info c) (infoWhole rt maxBytes)
    (fun n' c' h_ready h_fits' h_find => ⟨h_ready, h_fits', h_find ▸ rfl⟩)
    fun raw c' _ => ?_
  · rw [parseMeta, metaWhole]
    revert h_meta
    cases readUntil c (bodyDelimiter boundary) MAX_META_BYTES n <;> exact id
  · rw [infoWhole]
    dsimp only
    cases readMeta rt maxBytes raw with
    | error message => rfl
    | ok info => exact ⟨.rfl, rfl⟩

theorem parseOpening_keeps {phase : OpenPhase} (h_ready : (openForecast rt failure).ready phase c)
    (h_fits : (parseForecast rt boundary maxBytes failure).fits (.opening phase) c.remaining) :
    (parseForecast rt boundary maxBytes failure).Keeps failure
      (((openForecast rt failure).find phase c.remaining).bind
        (namedWhole rt boundary maxBytes failure)) c (parseOpening rt boundary maxBytes c phase) := by
  obtain ⟨h_header, h_meta⟩ := h_fits
  have h_open := openPart_keeps h_ready h_header
  have h_opening := h_open.andThen (parseForecast rt boundary maxBytes failure) .opening
    (fun name c => if name = some MULTIPART_META_FIELD then parseMeta rt boundary maxBytes c 0
      else .fails ("Malformed multipart body: expected \"" ++ MULTIPART_META_FIELD ++
        "\" first, got \"" ++ name.getD "end of body" ++ "\"") c)
    (namedWhole rt boundary maxBytes failure)
    (fun phase' c' h_ready' h_fits' h_find => ⟨h_ready', ⟨h_fits', h_find ▸ h_meta⟩, h_find ▸ rfl⟩)
    fun name c' h_found => ?_
  · rw [parseOpening]
    revert h_opening
    cases openPart rt c phase <;> exact id
  · rw [namedWhole]
    split
    · next h_name =>
      have h_fits' : MetaFits boundary c'.remaining := h_meta _ (h_name ▸ h_found)
      exact parseMeta_keeps (Searched.zero _ _) h_fits'
    · rfl

/-- **A run of `parseRpcMultipart`** up to its next stop. -/
theorem parsePhase_keeps {phase : ParsePhase}
    (h_ready : (parseForecast rt boundary maxBytes failure).ready phase c)
    (h_fits : (parseForecast rt boundary maxBytes failure).fits phase c.remaining) :
    (parseForecast rt boundary maxBytes failure).Keeps failure
      ((parseForecast rt boundary maxBytes failure).find phase c.remaining) c
      (parsePhase rt boundary maxBytes c phase) := by
  cases phase with
  | opening phase => exact parseOpening_keeps h_ready h_fits
  | metaText n => exact parseMeta_keeps h_ready h_fits
  | preamble n =>
    have h_read := readUntil_keeps failure (dashBoundary_ne_nil boundary) h_ready h_fits.preamble
    have h_preamble := h_read.andThen (parseForecast rt boundary maxBytes failure) .preamble
      (fun _ c => parseOpening rt boundary maxBytes c .marker)
      (openingWhole rt boundary maxBytes failure)
      (fun n' c' h_ready' h_fits' h_find =>
        ⟨h_ready', h_fits.congr h_fits' h_find, h_find ▸ rfl⟩)
      fun before c' h_found => ?_
    · rw [parsePhase]
      revert h_preamble
      cases readUntil c (dashBoundary boundary) MAX_PREAMBLE_BYTES n <;> exact id
    · have h_header : HeaderFits c'.remaining := h_fits.header before _ h_found
      exact parseOpening_keeps trivial ⟨h_header, fun t => h_fits.metaPart before _ t h_found⟩

/-- A cursor that may get more, and ends with `failure`. -/
structure Live (failure : Option String) (c : ByteCursor) : Prop where
  failure : c.failure = failure
  ended : c.ended = false
  cancelled : c.cancelled = false

theorem Live.of_source {c' : ByteCursor} (h : Live failure c) (h_source : SameSource c c') :
    Live failure c' :=
  ⟨h_source.failure.trans h.failure, h_source.ended.trans h.ended,
    h_source.cancelled.trans h.cancelled⟩

theorem ready_fill {phase : ParsePhase} {chunk : Bytes} {chunks : List Bytes}
    (h : (parseForecast rt boundary maxBytes failure).ready phase c) :
    (parseForecast rt boundary maxBytes failure).ready phase
      { c with buf := c.buf ++ chunk, chunks } := by
  cases phase with
  | preamble n => exact Searched.append h chunk
  | metaText n => exact Searched.append h chunk
  | opening phase =>
    cases phase with
    | marker => trivial
    | header n => exact Searched.append h chunk

/-- **However a body is cut**, the parser finds what it would find in the whole. -/
theorem parseChunks_keeps {chunks : List Bytes} {phase : ParsePhase}
    (h_ready : (parseForecast rt boundary maxBytes failure).ready phase c)
    (h_fits : (parseForecast rt boundary maxBytes failure).fits phase c.remaining)
    (h_chunks : c.chunks = chunks) (h_live : Live failure c) :
    match parseChunks rt boundary maxBytes chunks c phase with
    | .error message =>
      (parseForecast rt boundary maxBytes failure).find phase c.remaining = .error message
    | .ok (info, c') => Live failure c' ∧
      (parseForecast rt boundary maxBytes failure).find phase c.remaining =
        .ok (info, c'.remaining) := by
  induction chunks generalizing c phase with
  | nil =>
    have h_phase := parsePhase_keeps h_ready h_fits
    unfold parseChunks
    cases h_result : parsePhase rt boundary maxBytes c phase with
    | fails message c' =>
      rw [h_result] at h_phase
      exact h_phase
    | done info c' =>
      obtain ⟨h_source, h_find⟩ := h_result ▸ h_phase
      exact ⟨h_live.of_source h_source, h_find⟩
    | waits phase' c' =>
      obtain ⟨h_source, -, -, -, h_last⟩ := h_result ▸ h_phase
      have h_error := h_last h_chunks
      have h_same : c'.failure = failure := (h_live.of_source h_source).failure
      show (parseForecast rt boundary maxBytes failure).find phase c.remaining =
        .error (c'.failure.getD "Malformed multipart body: truncated")
      rw [h_error, h_same, truncated]
  | cons chunk chunks ih =>
    have h_phase := parsePhase_keeps h_ready h_fits
    unfold parseChunks
    cases h_result : parsePhase rt boundary maxBytes c phase with
    | fails message c' =>
      rw [h_result] at h_phase
      exact h_phase
    | done info c' =>
      obtain ⟨h_source, h_find⟩ := h_result ▸ h_phase
      exact ⟨h_live.of_source h_source, h_find⟩
    | waits phase' c' =>
      obtain ⟨h_source, h_ready', h_fits', h_find, -⟩ := h_result ▸ h_phase
      have h_more := remaining_fill (h_source.chunks.trans h_chunks)
      have h_live' := h_live.of_source h_source
      have h_rest := ih (c := { c' with buf := c'.buf ++ chunk, chunks }) (ready_fill h_ready')
        (h_more.symm ▸ h_fits') rfl ⟨h_live'.failure, h_live'.ended, h_live'.cancelled⟩
      rw [h_more, h_find] at h_rest
      exact h_rest

end Readers

end ServerCentral.Http
