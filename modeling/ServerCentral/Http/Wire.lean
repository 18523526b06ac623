import ServerCentral.Http.Multipart

/-!
# The parts of a body

What a request body is, read as a whole: a part begins right after a delimiter, with CRLF
and its header block, and its body reaches up to the next delimiter (`wirePart`). The
operations of the cursor, which see the body a chunk at a time, are shown to read exactly
that: each is given where on the wire it stands, and says where it leaves off.
-/

open Framework

namespace ServerCentral.Http

/-- A part: its header block, its body, and what follows the delimiter that closes it, if
there is one. -/
structure WirePart where
  header : Bytes
  body : Bytes
  rest : Option Bytes
  deriving DecidableEq, Repr

/-- The part that begins at `t`. -/
def readWirePart (boundary : String) (t : Bytes) : Option WirePart :=
  if t.take 2 = CRLF then
    (cut CRLF_CRLF (t.drop 2)).map fun p =>
      match cut (bodyDelimiter boundary) p.2 with
      | some (body, rest) => ⟨p.1, body, some rest⟩
      | none => ⟨p.1, p.2, none⟩
  else none

/-- The `k`-th part of a body, the meta part being the first. -/
def wirePart (boundary : String) (bytes : Bytes) : Nat → Option WirePart
  | 0 => (cut (dashBoundary boundary) bytes).bind fun p => readWirePart boundary p.2
  | k + 1 => ((wirePart boundary bytes k).bind WirePart.rest).bind (readWirePart boundary)

/-- What follows the delimiter after the `k`-th part. -/
def wireTail (boundary : String) (bytes : Bytes) (k : Nat) : Option Bytes :=
  (wirePart boundary bytes k).bind WirePart.rest

theorem wirePart_succ {boundary : String} {bytes t : Bytes} {k : Nat}
    (h : wireTail boundary bytes k = some t) :
    wirePart boundary bytes (k + 1) = readWirePart boundary t := by
  rw [wirePart, ← wireTail, h, Option.bind_some]

theorem CRLF_CRLF_ne_nil : CRLF_CRLF ≠ [] := List.cons_ne_nil _ _

theorem dashBoundary_ne_nil (boundary : String) : dashBoundary boundary ≠ [] :=
  List.cons_ne_nil _ _

theorem bodyDelimiter_ne_nil (boundary : String) : bodyDelimiter boundary ≠ [] :=
  List.cons_ne_nil _ _

/-! ### The cursor -/

/-- What the reader of a cursor has not handed out. -/
def ByteCursor.remaining (c : ByteCursor) : Bytes := c.buf ++ c.chunks.flatten

/-- Nothing was read from the stream. -/
structure SameSource (c c' : ByteCursor) : Prop where
  chunks : c'.chunks = c.chunks
  failure : c'.failure = c.failure
  ended : c'.ended = c.ended
  cancelled : c'.cancelled = c.cancelled

theorem SameSource.rfl {c : ByteCursor} : SameSource c c := ⟨.refl _, .refl _, .refl _, .refl _⟩

theorem SameSource.trans {c c' c'' : ByteCursor} (h : SameSource c c') (h' : SameSource c' c'') :
    SameSource c c'' :=
  ⟨h'.chunks.trans h.chunks, h'.failure.trans h.failure, h'.ended.trans h.ended,
    h'.cancelled.trans h.cancelled⟩

namespace ByteCursor

theorem drop_source (c : ByteCursor) (n : Nat) : SameSource c (c.drop n) :=
  ⟨.refl _, .refl _, .refl _, .refl _⟩

/-- Dropping bytes of the buffer drops them from what remains. -/
theorem remaining_drop {c : ByteCursor} {n : Nat} (h : n ≤ c.buf.length) :
    (c.drop n).remaining = c.remaining.drop n := by
  rw [remaining, remaining, List.drop_append_of_le_length h]
  rfl

/-- A chunk moves into the buffer. -/
theorem fill_true {c c' : ByteCursor} (h : c.fill = .ok (true, c')) :
    ∃ chunk, c'.buf = c.buf ++ chunk ∧ c.chunks = chunk :: c'.chunks ∧
      c'.remaining = c.remaining := by
  unfold fill at h
  split at h
  · cases h
  split at h
  · cases h
  split at h
  · next chunk chunks h_chunks =>
    obtain ⟨-, rfl⟩ := Prod.mk.inj (Except.ok.inj h)
    exact ⟨chunk, rfl, h_chunks, by simp [remaining, h_chunks]⟩
  · split at h <;> cases h

/-- The stream is spent. -/
theorem fill_false {c c' : ByteCursor} (h : c.fill = .ok (false, c')) :
    c'.buf = c.buf ∧ c'.chunks = c.chunks := by
  unfold fill at h
  split at h
  · obtain ⟨-, rfl⟩ := Prod.mk.inj (Except.ok.inj h)
    exact ⟨rfl, rfl⟩
  split at h
  · obtain ⟨-, rfl⟩ := Prod.mk.inj (Except.ok.inj h)
    exact ⟨rfl, rfl⟩
  split at h
  · cases h
  · split at h
    · cases h
    · obtain ⟨-, rfl⟩ := Prod.mk.inj (Except.ok.inj h)
      exact ⟨rfl, rfl⟩

end ByteCursor

/-! ### Searching for a needle -/

/-- Whatever arrives, `needle` stands nowhere in the first `n` positions. -/
def Searched (needle buf : Bytes) (n : Nat) : Prop :=
  ∀ more, ∀ j < n, ¬OccursAt needle (buf ++ more) j

theorem Searched.zero (needle buf : Bytes) : Searched needle buf 0 := fun _ _ h =>
  absurd h (Nat.not_lt_zero _)

theorem Searched.append {needle buf : Bytes} {n : Nat} (h : Searched needle buf n)
    (chunk : Bytes) : Searched needle (buf ++ chunk) n := fun more j h_j => by
  rw [List.append_assoc]
  exact h (chunk ++ more) j h_j

/-- A buffer without the needle has been searched up to where it may begin. -/
theorem Searched.of_cut {needle buf : Bytes} (h_needle : needle ≠ []) (h : cut needle buf = none) :
    Searched needle buf (buf.length + 1 - needle.length) := fun more j h_j h_occurs => by
  have h_pos := List.length_pos_of_ne_nil h_needle
  exact (cut_eq_none_iff h_needle).mp h j (h_occurs.of_append (by omega))

/-- What a search from `n` on finds. -/
theorem indexOfSub_eq {needle buf : Bytes} {n : Nat} (h_needle : needle ≠ [])
    (h : Searched needle buf n) : indexOfSub buf needle n = findFrom needle buf 0 :=
  findFrom_skip h_needle fun j h_j => by
    have h_not := h [] j h_j
    rwa [List.append_nil] at h_not

section Find

variable {needle : Bytes} {c : ByteCursor} (h_needle : needle ≠ [])
include h_needle

/-- A needle in the buffer cuts what remains. -/
theorem cut_remaining {i : Nat} (h : findFrom needle c.buf 0 = some i) :
    cut needle c.remaining = some (c.buf.take i, (c.drop (i + needle.length)).remaining) ∧
      i + needle.length ≤ c.buf.length ∧
      (c.drop i).remaining = needle ++ (c.drop (i + needle.length)).remaining := by
  have h_cut : cut needle c.buf = some (c.buf.take i, c.buf.drop (i + needle.length)) := by
    rw [cut, h, Option.map_some]
  obtain ⟨-, h_occurs, h_le, -⟩ := findFrom_eq_some h
  refine ⟨?_, h_le, ?_⟩
  · rw [ByteCursor.remaining_drop h_le, ByteCursor.remaining, cut_append h_needle h_cut,
      List.drop_append_of_le_length h_le]
  · obtain ⟨rest, h_rest⟩ := occursAt_iff.mp h_occurs
    have h_drop : c.buf.drop (i + needle.length) = rest := by
      rw [← List.drop_drop, h_rest, List.drop_left]
    show c.buf.drop i ++ _ = needle ++ (c.buf.drop (i + needle.length) ++ _)
    rw [h_rest, h_drop, List.append_assoc]
    rfl

omit h_needle in
theorem cut_buf_none (h : findFrom needle c.buf 0 = none) : cut needle c.buf = none := by
  rw [cut, h, Option.map_none]

/-- **`readUntil`** reads up to the first needle on the wire. -/
theorem readUntil_done {limit n : Nat} {out : Bytes} {c' : ByteCursor}
    (h_searched : Searched needle c.buf n) (h : readUntil c needle limit n = .done out c') :
    SameSource c c' ∧ cut needle c.remaining = some (out, c'.remaining) := by
  unfold readUntil at h
  rw [indexOfSub_eq h_needle h_searched] at h
  split at h
  · next i h_find =>
    cases h
    exact ⟨c.drop_source _, (cut_remaining h_needle h_find).1⟩
  · split at h <;> cases h

theorem readUntil_waits {limit n n' : Nat} {c' : ByteCursor}
    (h_searched : Searched needle c.buf n) (h : readUntil c needle limit n = .waits n' c') :
    c' = c ∧ Searched needle c.buf n' := by
  unfold readUntil at h
  rw [indexOfSub_eq h_needle h_searched] at h
  split at h
  · cases h
  · next h_none =>
    split at h
    · cases h
    · cases h
      exact ⟨rfl, .of_cut h_needle (cut_buf_none h_none)⟩

omit h_needle in
theorem readUntil_fails {limit n : Nat} {message : String} {c' : ByteCursor}
    (h : readUntil c needle limit n = .fails message c') : c' = c := by
  unfold readUntil at h
  split at h
  · cases h
  · split at h <;> cases h
    rfl

end Find

/-! ### Opening a part -/

/-- `openPart` is reading the part that begins at `t`. -/
def OpenAt (t : Bytes) (c : ByteCursor) : OpenPhase → Prop
  | .marker => c.remaining = t
  | .header n => t.take 2 = CRLF ∧ t.drop 2 = c.remaining ∧ Searched CRLF_CRLF c.buf n

/-- The part that begins at `t` has this name, and its body begins at `body`. -/
structure OpensTo (rt : Runtime) (t : Bytes) (name : String) (body : Bytes) : Prop where
  marker : t.take 2 = CRLF
  header : ∃ header, cut CRLF_CRLF (t.drop 2) = some (header, body) ∧
    partName (rt.decode header) = some name

section Open

variable {t : Bytes} {c c' : ByteCursor} {phase : OpenPhase}

/-- More arrives. -/
theorem OpenAt.fill (h : OpenAt t c phase) (h_fill : c.fill = .ok (true, c')) :
    OpenAt t c' phase := by
  obtain ⟨chunk, h_buf, -, h_remaining⟩ := ByteCursor.fill_true h_fill
  cases phase with
  | marker => exact h_remaining.trans h
  | header n =>
    obtain ⟨h_marker, h_rest, h_searched⟩ := h
    exact ⟨h_marker, h_rest.trans h_remaining.symm, h_buf ▸ h_searched.append chunk⟩

/-- Where a run of `openPart` leaves off. -/
def OpenResult (rt : Runtime) (t : Bytes) (c : ByteCursor) :
    Progress OpenPhase (Option String) → Prop
  | .waits phase c' => SameSource c c' ∧ OpenAt t c' phase
  | .done (some name) c' => SameSource c c' ∧ OpensTo rt t name c'.remaining
  | .done none c' => SameSource c c' ∧ t.take 2 = DASH_DASH ∧ 2 ≤ c.buf.length
  | .fails _ c' => SameSource c c'

theorem openHeader_spec (rt : Runtime) {n : Nat} (h_marker : t.take 2 = CRLF) (h_rest : t.drop 2 = c.remaining)
    (h_searched : Searched CRLF_CRLF c.buf n) : OpenResult rt t c (openHeader rt c n) := by
  unfold openHeader
  split
  · next n' c' h_read =>
    obtain ⟨rfl, h_searched'⟩ := readUntil_waits CRLF_CRLF_ne_nil h_searched h_read
    exact ⟨.rfl, h_marker, h_rest, h_searched'⟩
  · next message c' h_read =>
    obtain rfl := readUntil_fails h_read
    exact SameSource.rfl
  · next header c' h_read =>
    obtain ⟨h_source, h_cut⟩ := readUntil_done CRLF_CRLF_ne_nil h_searched h_read
    split
    · exact h_source
    · next name h_name =>
      exact ⟨h_source, h_marker, header, h_rest ▸ h_cut, h_name⟩

/-- **`openPart`** reads the marker and the header block of the part. -/
theorem openPart_spec (rt : Runtime) (h : OpenAt t c phase) : OpenResult rt t c (openPart rt c phase) := by
  cases phase with
  | header n =>
    obtain ⟨h_marker, h_rest, h_searched⟩ := h
    exact openHeader_spec rt h_marker h_rest h_searched
  | marker =>
    simp only [openPart]
    split
    · exact ⟨.rfl, h⟩
    · next h_len =>
      have h_take : t.take 2 = c.buf.take 2 := by
        rw [← (show c.remaining = t from h), ByteCursor.remaining,
          List.take_append_of_le_length (by omega)]
      have h_drop : t.drop 2 = (c.drop 2).remaining := by
        rw [ByteCursor.remaining_drop (by omega), show c.remaining = t from h]
      split
      · next h_end => exact ⟨c.drop_source 2, h_take.trans h_end, by omega⟩
      · split
        · exact c.drop_source 2
        · next h_crlf =>
          have h_header := openHeader_spec rt (h_take.trans (not_not.mp h_crlf)) h_drop
            (Searched.zero CRLF_CRLF _)
          -- the two bytes of the marker come from the buffer
          revert h_header
          generalize openHeader rt (c.drop 2) 0 = result
          intro h_header
          cases result with
          | waits phase c' => exact ⟨(c.drop_source 2).trans h_header.1, h_header.2⟩
          | fails message c' => exact (c.drop_source 2).trans h_header
          | done name c' =>
            cases name with
            | none => exact ⟨(c.drop_source 2).trans h_header.1, h_header.2.1, by omega⟩
            | some name => exact ⟨(c.drop_source 2).trans h_header.1, h_header.2⟩

end Open

/-- The part that begins at `t`, read as a whole. -/
theorem OpensTo.wirePart {rt : Runtime} {name : String} {t after : Bytes} (boundary : String)
    (h : OpensTo rt t name after) : ∃ header, partName (rt.decode header) = some name ∧
      readWirePart boundary t = some (match cut (bodyDelimiter boundary) after with
        | some (body, rest) => ⟨header, body, some rest⟩
        | none => ⟨header, after, none⟩) := by
  obtain ⟨header, h_cut, h_name⟩ := h.header
  refine ⟨header, h_name, ?_⟩
  rw [readWirePart, if_pos h.marker, h_cut, Option.map_some]

/-! ### The request up to its first binary part -/

section Parse

variable {rt : Runtime} {boundary : String} (maxBytes : Nat) {bytes : Bytes} {c c' : ByteCursor}

/-- Where `parseRpcMultipart` stands. -/
def ParseAt (rt : Runtime) (boundary : String) (bytes : Bytes) (c : ByteCursor) :
    ParsePhase → Prop
  | .preamble n => c.remaining = bytes ∧ Searched (dashBoundary boundary) c.buf n
  | .opening phase => ∃ before t, cut (dashBoundary boundary) bytes = some (before, t) ∧
      OpenAt t c phase
  | .metaText n => ∃ before t, cut (dashBoundary boundary) bytes = some (before, t) ∧
      OpensTo rt t MULTIPART_META_FIELD c.remaining ∧ Searched (bodyDelimiter boundary) c.buf n

/-- Where a run of the parser leaves off: done, it stands after the meta part. -/
def ParseResult (rt : Runtime) (boundary : String) (bytes : Bytes) (c : ByteCursor) :
    Progress ParsePhase Meta → Prop
  | .waits phase c' => SameSource c c' ∧ ParseAt rt boundary bytes c' phase
  | .done _ c' => SameSource c c' ∧ wireTail boundary bytes 0 = some c'.remaining
  | .fails _ _ => True

theorem ParseAt.fill {phase : ParsePhase} {chunk : Bytes} {chunks : List Bytes}
    (h : ParseAt rt boundary bytes c phase) (h_chunks : c.chunks = chunk :: chunks) :
    ParseAt rt boundary bytes { c with buf := c.buf ++ chunk, chunks } phase := by
  have h_remaining : ({ c with buf := c.buf ++ chunk, chunks } : ByteCursor).remaining =
      c.remaining := by
    simp [ByteCursor.remaining, h_chunks]
  cases phase with
  | preamble n => exact ⟨h_remaining.trans h.1, h.2.append chunk⟩
  | opening phase =>
    obtain ⟨before, t, h_cut, h_open⟩ := h
    refine ⟨before, t, h_cut, ?_⟩
    cases phase with
    | marker => exact h_remaining.trans h_open
    | header n => exact ⟨h_open.1, h_open.2.1.trans h_remaining.symm, h_open.2.2.append chunk⟩
  | metaText n =>
    obtain ⟨before, t, h_cut, h_opens, h_searched⟩ := h
    exact ⟨before, t, h_cut, h_remaining ▸ h_opens, h_searched.append chunk⟩

theorem parseMeta_spec {n : Nat} (h : ParseAt rt boundary bytes c (.metaText n)) :
    ParseResult rt boundary bytes c (parseMeta rt boundary maxBytes c n) := by
  obtain ⟨before, t, h_cut, h_opens, h_searched⟩ := h
  unfold parseMeta
  split
  · next n' c' h_read =>
    obtain ⟨rfl, h_searched'⟩ := readUntil_waits (bodyDelimiter_ne_nil boundary) h_searched h_read
    exact ⟨.rfl, before, t, h_cut, h_opens, h_searched'⟩
  · trivial
  · next raw c' h_read =>
    obtain ⟨h_source, h_body⟩ := readUntil_done (bodyDelimiter_ne_nil boundary) h_searched h_read
    split
    · trivial
    · refine ⟨h_source, ?_⟩
      obtain ⟨header, -, h_part⟩ := h_opens.wirePart boundary
      rw [wireTail, wirePart, h_cut, Option.bind_some, h_part, h_body, Option.bind_some]

theorem parseOpening_spec {phase : OpenPhase} (h : ParseAt rt boundary bytes c (.opening phase)) :
    ParseResult rt boundary bytes c (parseOpening rt boundary maxBytes c phase) := by
  obtain ⟨before, t, h_cut, h_open⟩ := h
  have h_result := openPart_spec rt h_open
  unfold parseOpening
  revert h_result
  generalize openPart rt c phase = result
  intro h_result
  cases result with
  | waits phase c' => exact ⟨h_result.1, before, t, h_cut, h_result.2⟩
  | fails message c' => trivial
  | done name c' =>
    dsimp only
    split
    · next h_name =>
      subst h_name
      obtain ⟨h_source, h_opens⟩ := h_result
      have h_meta := parseMeta_spec maxBytes
        (show ParseAt rt boundary bytes c' (.metaText 0) from
          ⟨before, t, h_cut, h_opens, Searched.zero _ _⟩)
      revert h_meta
      generalize parseMeta rt boundary maxBytes c' 0 = result
      intro h_meta
      cases result with
      | waits phase c'' => exact ⟨h_source.trans h_meta.1, h_meta.2⟩
      | fails message c'' => trivial
      | done info c'' => exact ⟨h_source.trans h_meta.1, h_meta.2⟩
    · trivial

theorem parsePhase_spec {phase : ParsePhase} (h : ParseAt rt boundary bytes c phase) :
    ParseResult rt boundary bytes c (parsePhase rt boundary maxBytes c phase) := by
  cases phase with
  | opening phase => exact parseOpening_spec maxBytes h
  | metaText n => exact parseMeta_spec maxBytes h
  | preamble n =>
    simp only [parsePhase]
    split
    · next n' c' h_read =>
      obtain ⟨rfl, h_searched'⟩ := readUntil_waits (dashBoundary_ne_nil boundary) h.2 h_read
      exact ⟨.rfl, h.1, h_searched'⟩
    · trivial
    · next before c' h_read =>
      obtain ⟨h_source, h_cut⟩ := readUntil_done (dashBoundary_ne_nil boundary) h.2 h_read
      rw [h.1] at h_cut
      have h_opening := parseOpening_spec maxBytes
        (show ParseAt rt boundary bytes c' (.opening .marker) from
          ⟨before, c'.remaining, h_cut, rfl⟩)
      revert h_opening
      generalize parseOpening rt boundary maxBytes c' .marker = result
      intro h_opening
      cases result with
      | waits phase c'' => exact ⟨h_source.trans h_opening.1, h_opening.2⟩
      | fails message c'' => trivial
      | done info c'' => exact ⟨h_source.trans h_opening.1, h_opening.2⟩

/-- However the body is cut into chunks, the parser leaves off after the meta part. -/
theorem parseChunks_spec {chunks : List Bytes} {phase : ParsePhase} {info : Meta}
    (h : ParseAt rt boundary bytes c phase) (h_chunks : c.chunks = chunks)
    (h_parse : parseChunks rt boundary maxBytes chunks c phase = .ok (info, c')) :
    wireTail boundary bytes 0 = some c'.remaining := by
  induction chunks generalizing c phase with
  | nil =>
    have h_result := parsePhase_spec maxBytes h
    unfold parseChunks at h_parse
    split at h_parse
    · next h_phase =>
      obtain ⟨rfl, rfl⟩ := Prod.mk.inj (Except.ok.inj h_parse)
      rw [h_phase] at h_result
      exact h_result.2
    · cases h_parse
    · cases h_parse
  | cons chunk chunks ih =>
    have h_result := parsePhase_spec maxBytes h
    unfold parseChunks at h_parse
    split at h_parse
    · next h_phase =>
      obtain ⟨rfl, rfl⟩ := Prod.mk.inj (Except.ok.inj h_parse)
      rw [h_phase] at h_result
      exact h_result.2
    · cases h_parse
    · next phase' c'' h_phase =>
      rw [h_phase] at h_result
      exact ih (h_result.2.fill (h_result.1.chunks.trans h_chunks)) rfl h_parse

/-- A parsed request stands after its meta part. -/
theorem parseRpcMultipart_spec {contentType : Option String} {body : RequestBody}
    {m : RpcMultipart}
    (h : parseRpcMultipart rt contentType (some body) maxBytes = .ok m) :
    wireTail m.boundary body.chunks.flatten 0 = some m.cursor.remaining ∧
      m.maxBytes = maxBytes := by
  unfold parseRpcMultipart at h
  split at h
  · cases h
  · next boundary _ =>
    dsimp only at h
    split at h
    · cases h
    · next info cursor h_parse =>
      obtain rfl := Except.ok.inj h
      have h_start : ParseAt rt boundary body.chunks.flatten
          ⟨[], body.chunks, body.failure, false, false⟩ (.preamble 0) :=
        ⟨rfl, Searched.zero _ _⟩
      exact ⟨parseChunks_spec maxBytes h_start rfl h_parse, rfl⟩

end Parse

end ServerCentral.Http
