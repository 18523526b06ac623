import ServerCentral.Http.InOrder

/-!
# Independence of the chunks

Two ways of cutting the same body into chunks: `parseRpcMultipart` accepts both or rejects both
with the same error, and reads the same fields; and every part that is read in order ends the
same way, with the same bytes (`chunking_independent`).

That is so for bodies whose sections fit their limits, since a longer one is rejected or not
as it happens to arrive; and for a part with more than is declared or allowed it is only the
failure that does not depend on the chunks, and not what has been handed out by then
(`chunks_seen`).
-/

open Framework

namespace ServerCentral.Http

/-! ### A reading in order comes to an end -/

def Progress.cursor {P A : Type} : Progress P A → ByteCursor
  | .waits _ c => c
  | .done _ c => c
  | .fails _ c => c

def PartResult.cursor : PartResult → ByteCursor
  | .waits _ c => c
  | .yields _ _ c => c
  | .returns c => c
  | .fails _ c => c

/-- How far a part still is from its end. -/
def PartPhase.rank : PartPhase → Nat
  | .suspended _ => 2
  | .reading _ => 1
  | .closed => 0

def ByteCursor.size (c : ByteCursor) : Nat := 2 * c.chunks.length + 2 * c.remaining.length

/-- What is left to do for a handler that reads the parts in order. -/
def PartsState.left (m : RpcMultipart) (s : PartsState) : Nat :=
  4 * (m.declared.length - s.atPart) + s.cursor.size +
    match s.streams.get? s.atPart with
    | none => 3
    | some st => st.phase.rank

/-- The buffer gets no longer, and no chunk is read. -/
structure Shrinks (c c' : ByteCursor) : Prop where
  buf : c'.buf.length ≤ c.buf.length
  chunks : c'.chunks = c.chunks

theorem Shrinks.rfl {c : ByteCursor} : Shrinks c c := ⟨Nat.le_refl _, .refl _⟩

theorem Shrinks.trans {c c' c'' : ByteCursor} (h : Shrinks c c') (h' : Shrinks c' c'') :
    Shrinks c c'' :=
  ⟨h'.buf.trans h.buf, h'.chunks.trans h.chunks⟩

theorem ByteCursor.drop_shrinks (c : ByteCursor) (n : Nat) : Shrinks c (c.drop n) := by
  refine ⟨?_, .refl _⟩
  show (c.buf.drop n).length ≤ c.buf.length
  rw [List.length_drop]
  omega

theorem Shrinks.size {c c' : ByteCursor} (h : Shrinks c c') : c'.size + 2 * c.buf.length =
    c.size + 2 * c'.buf.length := by
  simp only [ByteCursor.size, ByteCursor.remaining, h.chunks, List.length_append]
  omega

section Shrink

variable (rt : Runtime) (m : RpcMultipart) (c : ByteCursor)

theorem readUntil_shrinks (needle : Bytes) (limit n : Nat) :
    Shrinks c (readUntil c needle limit n).cursor := by
  unfold readUntil
  split
  · exact c.drop_shrinks _
  · split <;> exact .rfl

theorem openHeader_shrinks (n : Nat) : Shrinks c (openHeader rt c n).cursor := by
  have h_read := readUntil_shrinks c CRLF_CRLF MAX_PART_HEADER_BYTES n
  unfold openHeader
  revert h_read
  cases readUntil c CRLF_CRLF MAX_PART_HEADER_BYTES n with
  | done header c' =>
    intro h_read
    dsimp only
    split <;> exact h_read
  | waits n' c' => exact id
  | fails message c' => exact id

theorem openPart_shrinks (phase : OpenPhase) : Shrinks c (openPart rt c phase).cursor := by
  cases phase with
  | header n => exact openHeader_shrinks rt c n
  | marker =>
    simp only [openPart]
    split
    · exact .rfl
    · split
      · exact c.drop_shrinks 2
      · split
        · exact c.drop_shrinks 2
        · exact (c.drop_shrinks 2).trans (openHeader_shrinks rt _ 0)

/-- Where a generator stops, the buffer is shorter by what it hands out. -/
def PartShrinks (c : ByteCursor) (result : PartResult) : Prop :=
  Shrinks c result.cursor ∧ ∀ chunk resume c', result = .yields chunk resume c' →
    c'.buf.length < c.buf.length

theorem chunksUntil_shrinks (needle : Bytes) : PartShrinks c (chunksUntil c needle) := by
  unfold chunksUntil
  split
  · next i h_find =>
    obtain ⟨-, -, h_le, -⟩ := findFrom_eq_some h_find
    split
    · next h_pos =>
      refine ⟨c.drop_shrinks i, fun chunk resume c' h_eq => ?_⟩
      obtain ⟨-, -, rfl⟩ := PartResult.yields.inj h_eq
      show (c.buf.drop i).length < c.buf.length
      rw [List.length_drop]
      omega
    · exact ⟨c.drop_shrinks _, fun _ _ _ h_eq => by cases h_eq⟩
  · dsimp only
    split
    · next h_pos =>
      refine ⟨c.drop_shrinks _, fun chunk resume c' h_eq => ?_⟩
      obtain ⟨-, -, rfl⟩ := PartResult.yields.inj h_eq
      show (c.buf.drop _).length < c.buf.length
      rw [List.length_drop]
      omega
    · exact ⟨.rfl, fun _ _ _ h_eq => by cases h_eq⟩

theorem openBody_shrinks (spec : Json) (phase : OpenPhase) :
    PartShrinks c (openBody rt m spec c phase) := by
  have h_open := openPart_shrinks rt c phase
  unfold openBody
  revert h_open
  cases openPart rt c phase with
  | waits phase' c' => exact fun h_open => ⟨h_open, fun _ _ _ h_eq => by cases h_eq⟩
  | fails message c' => exact fun h_open => ⟨h_open, fun _ _ _ h_eq => by cases h_eq⟩
  | done name c' =>
    intro h_open
    dsimp only
    split
    · obtain ⟨h_body, h_yields⟩ := chunksUntil_shrinks c' (bodyDelimiter m.boundary)
      exact ⟨h_open.trans h_body, fun chunk resume c'' h_eq =>
        Nat.lt_of_lt_of_le (h_yields chunk resume c'' h_eq) h_open.buf⟩
    · exact ⟨h_open, fun _ _ _ h_eq => by cases h_eq⟩

theorem next_shrinks (spec : Json) (resume : Resume) : PartShrinks c (next rt m spec c resume) := by
  cases resume with
  | start => exact openBody_shrinks rt m c spec .marker
  | afterLast => exact ⟨c.drop_shrinks _, fun _ _ _ h_eq => by cases h_eq⟩
  | afterChunk => exact ⟨.rfl, fun _ _ _ h_eq => by cases h_eq⟩

theorem goOn_shrinks (spec : Json) (read : PartRead) : PartShrinks c (goOn rt m spec c read) := by
  cases read with
  | opening phase => exact openBody_shrinks rt m c spec phase
  | body => exact chunksUntil_shrinks c _

end Shrink

section Left

variable {rt : Runtime} {m : RpcMultipart} {failure : Option String} {bytes : Bytes}
  {tr : PartsTrace} {s : PartsState}

/-- What `settle` makes of the state: it stays in the part, suspended only after a chunk, or
goes on to the next one. -/
theorem settle_cases (spec : Json) (st : PartStream) (result : PartResult) :
    (∃ n st', (s.settle rt m s.atPart spec st result).1 =
        { s with
          cursor := result.cursor
          seenTotal := n
          streams := s.streams.set s.atPart st' } ∧
      (st'.phase.rank ≤ 1 ∨
        st'.phase.rank = 2 ∧ ∃ chunk resume c', result = .yields chunk resume c')) ∨
    ∃ finished st', (s.settle rt m s.atPart spec st result).1 =
      { s with
        cursor := result.cursor
        atPart := s.atPart + 1
        finished
        streams := s.streams.set s.atPart st' } := by
  cases result with
  | waits read c => exact .inl ⟨_, _, rfl, .inl (Nat.le_refl 1)⟩
  | fails message c => exact .inl ⟨_, _, rfl, .inl (Nat.zero_le 1)⟩
  | yields chunk resume c =>
    simp only [PartsState.settle]
    split
    · exact .inl ⟨_, _, rfl, .inl (Nat.zero_le 1)⟩
    split
    · exact .inl ⟨_, _, rfl, .inl (Nat.zero_le 1)⟩
    split
    · exact .inl ⟨_, _, rfl, .inl (Nat.zero_le 1)⟩
    · exact .inl ⟨_, _, rfl, .inr ⟨rfl, chunk, resume, c, rfl⟩⟩
  | returns c =>
    simp only [PartsState.settle]
    split
    · exact .inr ⟨_, _, rfl⟩
    · exact .inl ⟨_, _, rfl, .inl (Nat.zero_le 1)⟩

/-- **What stopped the generator** leaves less to do. -/
theorem settle_left (rt : Runtime) (spec : Json) (st : PartStream) {c : ByteCursor} {result : PartResult}
    (h_lt : s.atPart < m.declared.length) (h_later : s.streams.get? (s.atPart + 1) = none)
    (h_shrinks : PartShrinks c result) :
    (s.settle rt m s.atPart spec st result).1.left m <
      4 * (m.declared.length - s.atPart) + c.size + 2 := by
  obtain ⟨h_cursor, h_yields⟩ := h_shrinks
  have h_size := h_cursor.size
  have h_buf := h_cursor.buf
  obtain ⟨n, st', h_eq, h_rank⟩ | ⟨finished, st', h_eq⟩ := settle_cases spec st result
  · rw [h_eq]
    simp only [PartsState.left, Table.get?_set_self]
    obtain h_rank | ⟨h_rank, chunk, resume, c', h_result⟩ := h_rank
    · omega
    · have h_shorter := h_yields chunk resume c' h_result
      rw [h_result] at h_size ⊢
      simp only [PartResult.cursor] at h_size ⊢
      omega
  · rw [h_eq]
    simp only [PartsState.left, Table.get?_set_of_ne _ _ (Nat.succ_ne_self s.atPart), h_later]
    omega

/-- So does a read, whatever it resolves with. -/
theorem read_left {spec : Json} {st : PartStream} {read : PartRead}
    (h_lt : s.atPart < m.declared.length) (h_later : s.streams.get? (s.atPart + 1) = none) :
    (s.read rt m s.atPart spec st read).1.left m <
      4 * (m.declared.length - s.atPart) + s.cursor.size + 1 := by
  unfold PartsState.read
  cases h_fill : s.cursor.fill with
  | error message =>
    simp only [PartsState.fail, PartsState.left, Table.get?_set_self, PartPhase.rank]
    omega
  | ok p =>
    obtain ⟨more, c⟩ := p
    cases more with
    | false =>
      obtain ⟨h_buf, h_chunks⟩ := ByteCursor.fill_false h_fill
      have h_size : c.size = s.cursor.size := by
        simp only [ByteCursor.size, ByteCursor.remaining, h_buf, h_chunks]
      simp only [PartsState.fail, PartsState.left, Table.get?_set_self, PartPhase.rank]
      omega
    | true =>
      obtain ⟨chunk, -, h_chunks, h_remaining⟩ := ByteCursor.fill_true h_fill
      have h_size : c.size + 2 = s.cursor.size := by
        simp only [ByteCursor.size, h_chunks, h_remaining, List.length_cons]
        omega
      have h_settled := settle_left rt spec st h_lt h_later
        (goOn_shrinks rt m c spec read)
      dsimp only
      omega

/-- A step in order can be taken, and leaves less to do. -/
theorem InOrderAt.advances (h : InOrderAt rt m failure bytes tr s) {l : PartsLabel}
    (h_next : s.inOrder m = some l) :
    ∃ s' events, s.step rt m l = some (s', events) ∧ s'.left m < s.left m := by
  cases h with
  | between h =>
    rw [PartsState.inOrder, h.stream] at h_next
    dsimp only at h_next
    split at h_next
    · next h_lt =>
      obtain rfl := Option.some.inj h_next
      refine ⟨_, _, step_start (List.getElem?_eq_getElem h_lt) h.stream, ?_⟩
      simp only [PartsState.left, Table.get?_set_self, h.stream]
      exact Nat.add_lt_add_left (Nat.lt_succ_self 2) _
    · cases h_next
  | stopped h =>
    obtain ⟨st, h_get, h_closed⟩ := h.stream
    rw [PartsState.inOrder, h_get] at h_next
    dsimp only at h_next
    rw [h_closed] at h_next
    cases h_next
  | @inside spec total got st h =>
    obtain ⟨h_lt, -⟩ := List.getElem?_eq_some_iff.mp h.declared
    have h_later := h.later (s.atPart + 1) (Nat.lt_succ_self _)
    have h_left : s.left m =
        4 * (m.declared.length - s.atPart) + s.cursor.size + st.phase.rank := by
      rw [PartsState.left, h.stream]
    rw [PartsState.inOrder, h.stream] at h_next
    cases h_phase : st.phase with
    | closed => exact absurd h_phase h.active
    | suspended resume =>
      simp only [h_phase] at h_next
      obtain rfl := Option.some.inj h_next
      refine ⟨_, _, step_pull h.declared h.stream h_phase, ?_⟩
      rw [h_left, h_phase]
      exact settle_left rt spec st h_lt h_later (next_shrinks rt m s.cursor spec resume)
    | reading read =>
      simp only [h_phase] at h_next
      obtain rfl := Option.some.inj h_next
      refine ⟨_, _, step_read h.declared h.stream h_phase, ?_⟩
      rw [h_left, h_phase]
      exact read_left h_lt h_later

/-- **A reading in order comes to an end.** -/
theorem exists_readInOrder (h_live : Live failure m.cursor)
    (h_fits : PartsFit rt m.boundary m.maxBytes failure m.declared 0 m.cursor.remaining) :
    ∃ tr s, ReadInOrder rt m tr s := by
  have h_extends : ∀ n tr s, s.left m ≤ n →
      (partsMachine rt m).RunWhen (fun s l => s.inOrder m = some l) tr s →
        ∃ tr' s', ReadInOrder rt m tr' s' := by
    intro n
    induction n with
    | zero =>
      intro tr s h_left h_run
      cases h_next : s.inOrder m with
      | none => exact ⟨tr, s, h_run, h_next⟩
      | some l =>
        obtain ⟨s', events, -, h_less⟩ :=
          (InOrderAt.of_run h_live rfl h_fits h_run).advances h_next
        omega
    | succ n ih =>
      intro tr s h_left h_run
      cases h_next : s.inOrder m with
      | none => exact ⟨tr, s, h_run, h_next⟩
      | some l =>
        obtain ⟨s', events, hs, h_less⟩ :=
          (InOrderAt.of_run h_live rfl h_fits h_run).advances h_next
        exact ih _ s' (by omega) (h_run.step h_next hs)
  exact h_extends _ [] _ (Nat.le_refl _) .init

end Left

/-! ### What a reading in order shows -/

/-- The parts `0` to `n - 1` were read through, as `readFrom` has it, and the next one failed as
it is to fail. -/
structure ShowsWhole (rt : Runtime) (m : RpcMultipart) (whole : Reading) (tr : PartsTrace)
    (n : Nat) : Prop where
  bodies : whole.bodies = bodiesOf n tr
  ended : ∀ k, .ended k ∈ partEvents tr ↔ k < n
  fresh : ∀ k, n < k → delivered k tr = []
  stop : match whole.stop with
    | none => delivered n tr = [] ∧ ∀ k message, .errored k message ∉ partEvents tr
    | some f => ∃ spec message, m.declared[n]? = some spec ∧
        f.Shows rt m spec (delivered n tr) message ∧
        ∀ k text, .errored k text ∈ partEvents tr ↔ k = n ∧ text = message

theorem ReadInOrder.shows {rt : Runtime} {m : RpcMultipart} {failure : Option String}
    {tr : PartsTrace} {s : PartsState} (h : ReadInOrder rt m tr s)
    (h_live : Live failure m.cursor)
    (h_fits : PartsFit rt m.boundary m.maxBytes failure m.declared 0 m.cursor.remaining) :
    ShowsWhole rt m (readFrom rt m failure 0 0 m.cursor.remaining) tr s.atPart := by
  have h_complete := h.complete
  cases InOrderAt.of_run h_live rfl h_fits h.run with
  | between h_at =>
    rw [PartsState.inOrder, h_at.stream] at h_complete
    dsimp only at h_complete
    split at h_complete
    · cases h_complete
    next h_end =>
    have h_drop : m.declared.drop s.atPart = [] := List.drop_eq_nil_of_le (Nat.not_lt.mp h_end)
    have h_whole : readFrom rt m failure 0 0 m.cursor.remaining = ⟨bodiesOf s.atPart tr, none⟩ := by
      rw [h_at.whole, readFrom, h_drop]
      simp [readWhole, Reading.after]
    rw [h_whole]
    exact ⟨rfl, h_at.ended, h_at.fresh, h_at.here, h_at.silent⟩
  | stopped h_at =>
    obtain ⟨spec, f, message, h_spec, h_shows, h_whole, h_errors⟩ := h_at.failed
    rw [h_whole]
    exact ⟨rfl, h_at.ended, h_at.fresh, spec, message, h_spec, h_shows, h_errors⟩
  | inside h_at =>
    rw [PartsState.inOrder, h_at.stream] at h_complete
    dsimp only at h_complete
    split at h_complete
    · cases h_complete
    · cases h_complete
    · next h_closed => exact absurd h_closed h_at.active

/-! ### Two ways of cutting a body -/

/-- The part fails since it has more than is declared, or more than is allowed. -/
def ExceedsLimit (rt : Runtime) (m : RpcMultipart) (tr : PartsTrace) (k : Nat) : Prop :=
  ∃ spec message, m.declared[k]? = some spec ∧ .errored k message ∈ partEvents tr ∧
    (message = largerThanDeclared rt spec ∨ message = tooLarge m.maxBytes)

/-- The part ends the same way: with the same bytes, unless it has too many. -/
structure SamePart (rt : Runtime) (m m' : RpcMultipart) (tr tr' : PartsTrace) (k : Nat) :
    Prop where
  ended : .ended k ∈ partEvents tr ↔ .ended k ∈ partEvents tr'
  shown : (ExceedsLimit rt m tr k ∧ ExceedsLimit rt m' tr' k) ∨
    (delivered k tr = delivered k tr' ∧
      ∀ message, .errored k message ∈ partEvents tr ↔ .errored k message ∈ partEvents tr')

/-- The same error, or the same fields and, read in order, the same parts. -/
def SameOutcome (rt : Runtime) : Except String RpcMultipart → Except String RpcMultipart → Prop
  | .error e, .error e' => e = e'
  | .ok m, .ok m' => m.data = m'.data ∧ (∃ tr s, ReadInOrder rt m tr s) ∧
      (∃ tr s, ReadInOrder rt m' tr s) ∧
      ∀ tr s tr' s', ReadInOrder rt m tr s → ReadInOrder rt m' tr' s' →
        ∀ k, SamePart rt m m' tr tr' k
  | _, _ => False

/-- The sections of a request fit their limits. -/
def RequestFits (rt : Runtime) (contentType : Option String) (maxBytes : Nat)
    (failure : Option String) (bytes : Bytes) : Prop :=
  ∀ boundary, multipartBoundary contentType = some boundary →
    SectionsFit rt boundary maxBytes failure bytes

section Two

variable {rt : Runtime}

theorem ShowsWhole.same {m m' : RpcMultipart} {whole : Reading} {tr tr' : PartsTrace} {n n' : Nat}
    (h : ShowsWhole rt m whole tr n) (h' : ShowsWhole rt m' whole tr' n')
    (h_declared : m.declared = m'.declared) (k : Nat) :
    SamePart rt m m' tr tr' k := by
  have h_bodies : bodiesOf n tr = bodiesOf n' tr' := h.bodies.symm.trans h'.bodies
  obtain rfl : n = n' := by
    have h_length := congrArg List.length h_bodies
    rwa [bodiesOf, bodiesOf, List.length_map, List.length_map, List.length_range,
      List.length_range] at h_length
  refine ⟨(h.ended k).trans (h'.ended k).symm, ?_⟩
  have h_before : k < n → delivered k tr = delivered k tr' := fun h_k =>
    List.map_inj_left.mp h_bodies k (List.mem_range.mpr h_k)
  have h_after : n < k → delivered k tr = delivered k tr' := fun h_k =>
    (h.fresh k h_k).trans (h'.fresh k h_k).symm
  have h_stop := h.stop
  have h_stop' := h'.stop
  cases h_whole : whole.stop with
  | none =>
    rw [h_whole] at h_stop h_stop'
    obtain ⟨h_here, h_silent⟩ := h_stop
    obtain ⟨h_here', h_silent'⟩ := h_stop'
    refine .inr ⟨?_, fun message => iff_of_false (h_silent k message) (h_silent' k message)⟩
    obtain h_k | rfl | h_k := Nat.lt_trichotomy k n
    · exact h_before h_k
    · exact h_here.trans h_here'.symm
    · exact h_after h_k
  | some f =>
    rw [h_whole] at h_stop h_stop'
    obtain ⟨spec, message, h_spec, h_shows, h_errors⟩ := h_stop
    obtain ⟨spec', message', h_spec', h_shows', h_errors'⟩ := h_stop'
    rw [h_declared, h_spec'] at h_spec
    obtain rfl := Option.some.inj h_spec
    by_cases h_k : k = n
    · subst h_k
      cases f with
      | stops body text =>
        obtain ⟨h_body, rfl⟩ := h_shows
        obtain ⟨h_body', rfl⟩ := h_shows'
        exact .inr ⟨h_body.symm.trans h_body', fun message =>
          (h_errors k message).trans (h_errors' k message).symm⟩
      | exceeds =>
        left
        constructor
        · exact ⟨spec', message, h_declared ▸ h_spec', (h_errors k message).mpr ⟨rfl, rfl⟩, h_shows⟩
        · exact ⟨spec', message', h_spec', (h_errors' k message').mpr ⟨rfl, rfl⟩, h_shows'⟩
    · right
      constructor
      · obtain h_lt | h_gt := Nat.lt_or_gt_of_ne h_k
        · exact h_before h_lt
        · exact h_after h_gt
      · intro text
        exact iff_of_false (fun h_mem => h_k ((h_errors k text).mp h_mem).1)
          fun h_mem => h_k ((h_errors' k text).mp h_mem).1

/-- What `parseRpcMultipart` makes of a body that it accepts. -/
structure Parsed (m : RpcMultipart) (boundary : String) (maxBytes : Nat) (failure : Option String)
    (info : Meta) (rest : Bytes) : Prop where
  boundary : m.boundary = boundary
  declared : m.declared = info.declared
  maxBytes : m.maxBytes = maxBytes
  data : m.data = info.data
  live : Live failure m.cursor
  rest : m.cursor.remaining = rest

/-- **`parseRpcMultipart`** finds what it would find in the whole. -/
theorem parseRpcMultipart_whole {contentType : Option String} {maxBytes : Nat}
    (body : RequestBody) {boundary : String} (h_boundary : multipartBoundary contentType = some boundary)
    (h_fits : SectionsFit rt boundary maxBytes body.failure body.chunks.flatten) :
    match parseRpcMultipart rt contentType (some body) maxBytes with
    | .error message =>
      parseWhole rt boundary maxBytes body.failure body.chunks.flatten = .error message
    | .ok m => ∃ info rest,
      parseWhole rt boundary maxBytes body.failure body.chunks.flatten = .ok (info, rest) ∧
        Parsed m boundary maxBytes body.failure info rest := by
  have h_ready : (parseForecast rt boundary maxBytes body.failure).ready (.preamble 0)
      ⟨[], body.chunks, body.failure, false, false⟩ := Searched.zero _ _
  have h_keeps := parseChunks_keeps h_ready h_fits.toPreambleFits rfl ⟨rfl, rfl, rfl⟩
  unfold parseRpcMultipart
  rw [h_boundary]
  dsimp only
  cases h_parse : parseChunks rt boundary maxBytes body.chunks
      ⟨[], body.chunks, body.failure, false, false⟩ (.preamble 0) with
  | error message =>
    rw [h_parse] at h_keeps
    exact h_keeps
  | ok p =>
    obtain ⟨info, c⟩ := p
    rw [h_parse] at h_keeps
    obtain ⟨h_live, h_find⟩ := h_keeps
    exact ⟨info, c.remaining, h_find, rfl, rfl, rfl, rfl, h_live, rfl⟩

/-- **Main result.** The outcome does not depend on how the body is cut. -/
theorem chunking_independent {contentType : Option String} {maxBytes : Nat}
    (body body' : RequestBody) (h_bytes : body.chunks.flatten = body'.chunks.flatten)
    (h_end : body.failure = body'.failure)
    (h_fits : RequestFits rt contentType maxBytes body.failure body.chunks.flatten) :
    SameOutcome rt (parseRpcMultipart rt contentType (some body) maxBytes)
      (parseRpcMultipart rt contentType (some body') maxBytes) := by
  cases h_boundary : multipartBoundary contentType with
  | none =>
    unfold parseRpcMultipart
    rw [h_boundary]
    rfl
  | some boundary =>
    have h_sections := h_fits boundary h_boundary
    have h_first := parseRpcMultipart_whole body h_boundary h_sections
    have h_second := parseRpcMultipart_whole body' h_boundary (h_bytes ▸ h_end ▸ h_sections)
    rw [← h_bytes, ← h_end] at h_second
    cases h_parse : parseRpcMultipart rt contentType (some body) maxBytes with
    | error message =>
      rw [h_parse] at h_first
      cases h_parse' : parseRpcMultipart rt contentType (some body') maxBytes with
      | error message' =>
        rw [h_parse'] at h_second
        exact Except.error.inj (h_first.symm.trans h_second)
      | ok m' =>
        rw [h_parse'] at h_second
        obtain ⟨info, rest, h_whole, -⟩ := h_second
        rw [h_first] at h_whole
        cases h_whole
    | ok m =>
      rw [h_parse] at h_first
      obtain ⟨info, rest, h_whole, h_m⟩ := h_first
      cases h_parse' : parseRpcMultipart rt contentType (some body') maxBytes with
      | error message' =>
        rw [h_parse'] at h_second
        rw [h_second] at h_whole
        cases h_whole
      | ok m' =>
        rw [h_parse'] at h_second
        obtain ⟨info', rest', h_whole', h_m'⟩ := h_second
        rw [h_whole] at h_whole'
        obtain ⟨rfl, rfl⟩ := Prod.mk.inj (Except.ok.inj h_whole')
        have h_parts := h_sections.parts info rest h_whole
        have h_fits_m : PartsFit rt m.boundary m.maxBytes body.failure m.declared 0
            m.cursor.remaining := by
          rw [h_m.boundary, h_m.maxBytes, h_m.declared, h_m.rest]
          exact h_parts
        have h_fits_m' : PartsFit rt m'.boundary m'.maxBytes body.failure m'.declared 0
            m'.cursor.remaining := by
          rw [h_m'.boundary, h_m'.maxBytes, h_m'.declared, h_m'.rest]
          exact h_parts
        have h_same : readFrom rt m body.failure 0 0 m.cursor.remaining =
            readFrom rt m' body.failure 0 0 m'.cursor.remaining := by
          rw [readFrom, readFrom, h_m.boundary, h_m.maxBytes, h_m.declared, h_m.rest,
            h_m'.boundary, h_m'.maxBytes, h_m'.declared, h_m'.rest]
        refine ⟨h_m.data.trans h_m'.data.symm, exists_readInOrder h_m.live h_fits_m,
          exists_readInOrder h_m'.live h_fits_m', fun tr s tr' s' h h' k => ?_⟩
        have h_shows := h.shows h_m.live h_fits_m
        have h_shows' := h'.shows h_m'.live h_fits_m'
        rw [← h_same] at h_shows'
        exact h_shows.same h_shows' (h_m.declared.trans h_m'.declared.symm) k

end Two

/-! ### Short bodies -/

section Short

variable {rt : Runtime} {boundary : String} {maxBytes : Nat} {failure : Option String}
  {bytes : Bytes}

theorem Fits.of_length {needle : Bytes} {limit : Nat} (h_needle : needle ≠ [])
    (h : bytes.length ≤ limit + 1) : Fits needle limit bytes := by
  intro out rest h_cut
  obtain ⟨h_eq, -⟩ := (cut_eq_some_iff h_needle).mp h_cut
  rw [h_eq, List.length_append, List.length_append] at h
  omega

theorem untilWhole_length {needle out rest : Bytes} {limit : Nat} (h_needle : needle ≠ [])
    (h : untilWhole failure needle limit bytes = .ok (out, rest)) :
    rest.length ≤ bytes.length := by
  unfold untilWhole at h
  split at h
  · next p h_cut =>
    obtain rfl := Except.ok.inj h
    obtain ⟨h_eq, -⟩ := (cut_eq_some_iff h_needle).mp h_cut
    rw [h_eq, List.length_append, List.length_append]
    omega
  · split at h <;> cases h

theorem bind_eq_ok {A B : Type} {x : Except String A} {f : A → Except String B} {b : B}
    (h : x.bind f = .ok b) : ∃ a, x = .ok a ∧ f a = .ok b := by
  cases x with
  | error message => cases h
  | ok a => exact ⟨a, rfl, h⟩

theorem openWhole_length {name : Option String} {rest : Bytes}
    (h : openWhole rt failure bytes = .ok (name, rest)) : rest.length ≤ bytes.length := by
  have h_drop : (bytes.drop 2).length ≤ bytes.length := by
    rw [List.length_drop]
    omega
  unfold openWhole at h
  split at h
  · cases h
  split at h
  · obtain ⟨-, rfl⟩ := Prod.mk.inj (Except.ok.inj h)
    exact h_drop
  split at h
  · cases h
  obtain ⟨⟨header, t⟩, h_header, h_name⟩ := bind_eq_ok h
  have h_t := untilWhole_length CRLF_CRLF_ne_nil h_header
  unfold nameWhole at h_name
  split at h_name
  · cases h_name
  · obtain ⟨-, rfl⟩ := Prod.mk.inj (Except.ok.inj h_name)
    exact h_t.trans h_drop

theorem partWhole_length {spec : Json} {total : Nat} {body rest : Bytes}
    (h : partWhole rt boundary maxBytes failure spec total bytes = .ok (body, rest)) :
    rest.length ≤ bytes.length := by
  unfold partWhole openedWhole at h
  split at h
  · cases h
  next name t h_open =>
  split at h
  · unfold bodyWhole closeWhole at h
    split at h
    · next out rest' h_cut =>
      split at h
      · cases h
      split at h
      · obtain ⟨-, rfl⟩ := Prod.mk.inj (Except.ok.inj h)
        have h_t := openWhole_length h_open
        obtain ⟨h_eq, -⟩ := (cut_eq_some_iff (bodyDelimiter_ne_nil boundary)).mp h_cut
        rw [h_eq, List.length_append, List.length_append] at h_t
        omega
      · cases h
    · split at h <;> cases h
  · cases h

theorem HeaderFits.of_length (h : bytes.length ≤ MAX_PREAMBLE_BYTES) : HeaderFits bytes := by
  intro _
  apply Fits.of_length CRLF_CRLF_ne_nil
  rw [List.length_drop]
  simp only [MAX_PREAMBLE_BYTES, MAX_PART_HEADER_BYTES] at h ⊢
  omega

theorem MetaFits.of_length (h : bytes.length ≤ MAX_PREAMBLE_BYTES) : MetaFits boundary bytes := by
  apply Fits.of_length (bodyDelimiter_ne_nil boundary)
  simp only [MAX_PREAMBLE_BYTES, MAX_META_BYTES] at h ⊢
  omega

theorem PartsFit.of_length {specs : List Json} {total : Nat}
    (h : bytes.length ≤ MAX_PREAMBLE_BYTES) :
    PartsFit rt boundary maxBytes failure specs total bytes := by
  induction specs generalizing total bytes with
  | nil => trivial
  | cons spec specs ih =>
    exact ⟨.of_length h, fun body rest h_part => ih ((partWhole_length h_part).trans h)⟩

/-- **A short body fits**: none of its sections can be too long. -/
theorem SectionsFit.of_length (h : bytes.length ≤ MAX_PREAMBLE_BYTES) :
    SectionsFit rt boundary maxBytes failure bytes where
  preamble := Fits.of_length (dashBoundary_ne_nil boundary) (Nat.le_succ_of_le h)
  header out rest h_until :=
    .of_length ((untilWhole_length (dashBoundary_ne_nil boundary) h_until).trans h)
  metaPart out rest t h_until h_open := by
    have h_rest := untilWhole_length (dashBoundary_ne_nil boundary) h_until
    exact .of_length (((openWhole_length h_open).trans h_rest).trans h)
  parts info t h_parse := by
    obtain ⟨⟨out, rest⟩, h_until, h_opening⟩ := bind_eq_ok h_parse
    obtain ⟨⟨name, t'⟩, h_open, h_named⟩ := bind_eq_ok h_opening
    have h_rest := untilWhole_length (dashBoundary_ne_nil boundary) h_until
    have h_t' := openWhole_length h_open
    unfold namedWhole at h_named
    split at h_named
    · obtain ⟨⟨raw, t''⟩, h_raw, h_info⟩ := bind_eq_ok h_named
      have h_t'' := untilWhole_length (bodyDelimiter_ne_nil boundary) h_raw
      unfold infoWhole at h_info
      split at h_info
      · cases h_info
      · obtain ⟨-, rfl⟩ := Prod.mk.inj (Except.ok.inj h_info)
        exact .of_length (((h_t''.trans h_t').trans h_rest).trans h)
    · cases h_named

end Short

/-- The bytes of `namedBody`, in one chunk. -/
def namedBodyWhole : RequestBody := ⟨[namedBody.chunks.flatten], none⟩

theorem chunking_independent_named :
    SameOutcome sampleRuntime
      (parseRpcMultipart sampleRuntime (some sampleType) (some namedBody) 100)
      (parseRpcMultipart sampleRuntime (some sampleType) (some namedBodyWhole) 100) := by
  have h_length : namedBody.chunks.flatten.length ≤ MAX_PREAMBLE_BYTES := by decide +kernel
  have h_bytes : namedBody.chunks.flatten = namedBodyWhole.chunks.flatten := by
    simp only [namedBodyWhole, List.flatten_cons, List.flatten_nil, List.append_nil]
  have h_fits : RequestFits sampleRuntime (some sampleType) 100 namedBody.failure
      namedBody.chunks.flatten := by
    intro boundary _
    exact SectionsFit.of_length h_length
  have h_failure : namedBody.failure = namedBodyWhole.failure := by rfl
  have h_same := @chunking_independent sampleRuntime (some sampleType) 100 namedBody namedBodyWhole
    h_bytes h_failure h_fits
  exact h_same

/-! ### Where the chunks are seen -/

/-- The part `f` has more than its 5 bytes. -/
def excessText : Bytes :=
  utf8 (samplePart "\"__meta\"" ++ sampleText "\"f\"" ++ "\r\n" ++ samplePart "\"f\"" ++ "hello hell")

def excessRest : Bytes := utf8 "o hello\r\n--BxB--"

/-- What a list of labels makes of a body: what part 0 has handed out, and whether each step was
the next one in order and no further one follows. -/
def readSample (chunks : List Bytes) (labels : List PartsLabel) : Option (Bytes × Bool × Bool) :=
  (parseRpcMultipart sampleRuntime (some sampleType) (some ⟨chunks, none⟩) 100).toOption.bind
    fun m => ((partsMachine sampleRuntime m).exec (partsMachine sampleRuntime m).init labels).map
      fun q => (delivered 0 q.1, (partsMachine sampleRuntime m).checks
        (fun s l => s.inOrder m = some l) (partsMachine sampleRuntime m).init labels,
        decide (q.2.inOrder m = none))

theorem readSample_reads {chunks : List Bytes} {labels : List PartsLabel} {got : Bytes}
    (h : readSample chunks labels = some (got, true, true)) : ∃ m tr s,
      parseRpcMultipart sampleRuntime (some sampleType) (some ⟨chunks, none⟩) 100 = .ok m ∧
      ReadInOrder sampleRuntime m tr s ∧ delivered 0 tr = got := by
  obtain ⟨m, h_m, h_exec⟩ := Option.bind_eq_some_iff.mp h
  obtain ⟨⟨tr, s⟩, h_exec, h_read⟩ := Option.map_eq_some_iff.mp h_exec
  obtain ⟨h_got, h_read⟩ := Prod.mk.inj h_read
  obtain ⟨h_ok, h_none⟩ := Prod.mk.inj h_read
  exact ⟨m, tr, s, toOption_eq_some h_m,
    ⟨Machine.runWhen_of_exec labels h_exec h_ok, of_decide_eq_true h_none⟩, h_got⟩

/-- What follows the first delimiter of `namedBody`. -/
theorem namedBody_opens : ∃ t, (parseOpening sampleRuntime "BxB" 100 ⟨t, [], none, false, false⟩
    .marker matches .done _ _) = true :=
  ⟨namedBody.chunks.flatten.drop 5, by decide +kernel⟩

/-- The parser waits for its first chunk. -/
theorem parseChunks_first (chunk : Bytes) (chunks : List Bytes) :
    parseChunks sampleRuntime "BxB" 100 (chunk :: chunks)
      ⟨[], chunk :: chunks, none, false, false⟩ (.preamble 0) =
    parseChunks sampleRuntime "BxB" 100 chunks ⟨chunk, chunks, none, false, false⟩
      (.preamble 0) := by
  have h_wait : parsePhase sampleRuntime "BxB" 100 ⟨[], chunk :: chunks, none, false, false⟩
      (.preamble 0) = .waits (.preamble 0) ⟨[], chunk :: chunks, none, false, false⟩ := by
    rfl
  rw [parseChunks, h_wait]
  rfl

theorem sample_boundary : multipartBoundary (some sampleType) = some "BxB" := by decide

/-- In one chunk with what follows it, a preamble is skipped, whatever its length is. -/
theorem preamble_whole {preamble t : Bytes} (h_clean : 45 ∉ preamble) (h : (parseOpening sampleRuntime "BxB" 100
    ⟨t, [], none, false, false⟩ .marker matches .done _ _) = true) :
    ∃ m, parseRpcMultipart sampleRuntime (some sampleType)
      (some ⟨[preamble ++ (dashBoundary "BxB" ++ t)], none⟩) 100 = .ok m := by
  have h_find : indexOfSub (preamble ++ (dashBoundary "BxB" ++ t)) (dashBoundary "BxB") 0 =
      some preamble.length := findFrom_of_notMem h_clean t
  have h_read : readUntil ⟨preamble ++ (dashBoundary "BxB" ++ t), [], none, false, false⟩
      (dashBoundary "BxB") MAX_PREAMBLE_BYTES 0 =
        .done preamble ⟨t, [], none, false, false⟩ := by
    rw [readUntil, h_find]
    simp only [ByteCursor.drop, List.take_left, ← List.drop_drop, List.drop_left]
  cases h_opening : parseOpening sampleRuntime "BxB" 100 ⟨t, [], none, false, false⟩ .marker with
  | waits phase c => simp [h_opening] at h
  | fails message c => simp [h_opening] at h
  | done info c =>
    have h_phase : parsePhase sampleRuntime "BxB" 100
        ⟨preamble ++ (dashBoundary "BxB" ++ t), [], none, false, false⟩ (.preamble 0) =
          .done info c := by
      rw [parsePhase, h_read]
      exact h_opening
    have h_chunks : parseChunks sampleRuntime "BxB" 100
        [preamble ++ (dashBoundary "BxB" ++ t)]
        ⟨[], [preamble ++ (dashBoundary "BxB" ++ t)], none, false, false⟩ (.preamble 0) =
          .ok (info, c) := by
      rw [parseChunks_first, parseChunks, h_phase]
    refine ⟨⟨"BxB", info.declared, 100, info.data, c⟩, ?_⟩
    rw [parseRpcMultipart, sample_boundary]
    dsimp only
    rw [h_chunks]

/-- Alone in the first chunk, it is longer than its limit. -/
theorem preamble_cut {preamble : Bytes} (h_clean : 45 ∉ preamble)
    (h_long : preamble.length > MAX_PREAMBLE_BYTES) (t : Bytes) :
    parseRpcMultipart sampleRuntime (some sampleType) (some ⟨[preamble, t], none⟩) 100 =
      .error "Malformed multipart body: oversized section" := by
  have h_find : indexOfSub preamble (dashBoundary "BxB") 0 = none := by
    refine (findFrom_eq_none (dashBoundary_ne_nil "BxB")).mpr fun j _ h_occurs => ?_
    exact h_clean (List.mem_of_getElem? h_occurs.head)
  have h_phase : parsePhase sampleRuntime "BxB" 100 ⟨preamble, [t], none, false, false⟩
      (.preamble 0) = .fails "Malformed multipart body: oversized section"
        ⟨preamble, [t], none, false, false⟩ := by
    rw [parsePhase, readUntil, h_find]
    dsimp only
    rw [if_pos h_long]
  rw [parseRpcMultipart, sample_boundary]
  dsimp only
  rw [parseChunks_first, parseChunks, h_phase]

/-- **The chunks are seen** where a preamble is longer than its limit, which is found out or not,
and where a part has more than is declared for it, of which less or more is handed out. -/
theorem chunks_seen :
    (∃ body body' : RequestBody, body.chunks.flatten = body'.chunks.flatten ∧
      body.failure = body'.failure ∧
      (∃ m, parseRpcMultipart sampleRuntime (some sampleType) (some body) 100 = .ok m) ∧
      parseRpcMultipart sampleRuntime (some sampleType) (some body') 100 =
        .error "Malformed multipart body: oversized section") ∧
    ∃ (body body' : RequestBody) (m m' : RpcMultipart) (tr tr' : PartsTrace) (s s' : PartsState),
      body.chunks.flatten = body'.chunks.flatten ∧ body.failure = body'.failure ∧
      parseRpcMultipart sampleRuntime (some sampleType) (some body) 100 = .ok m ∧
      parseRpcMultipart sampleRuntime (some sampleType) (some body') 100 = .ok m' ∧
      ReadInOrder sampleRuntime m tr s ∧ ReadInOrder sampleRuntime m' tr' s' ∧
      delivered 0 tr = utf8 "hell" ∧ delivered 0 tr' = [] := by
  constructor
  · obtain ⟨t, h_opening⟩ := namedBody_opens
    obtain ⟨preamble, h_clean, h_long⟩ : ∃ preamble : Bytes, 45 ∉ preamble ∧
        preamble.length > MAX_PREAMBLE_BYTES := by
      refine ⟨List.replicate (MAX_PREAMBLE_BYTES + 1) 0, fun h_mem => ?_, ?_⟩
      · cases List.eq_of_mem_replicate h_mem
      · rw [List.length_replicate]
        exact Nat.lt_succ_self _
    refine ⟨⟨[preamble ++ (dashBoundary "BxB" ++ t)], none⟩,
      ⟨[preamble, dashBoundary "BxB" ++ t], none⟩, ?_, Eq.refl none,
      preamble_whole h_clean h_opening, preamble_cut h_clean h_long _⟩
    simp only [List.flatten_cons, List.flatten_nil, List.append_nil]
  · obtain ⟨m, tr, s, h_parse, h_read, h_got⟩ := readSample_reads
      (show readSample [excessText, excessRest] [.start 0, .pull 0, .pull 0, .read 0] =
        some (utf8 "hell", true, true) by decide +kernel)
    obtain ⟨m', tr', s', h_parse', h_read', h_got'⟩ := readSample_reads
      (show readSample [excessText ++ excessRest] [.start 0, .pull 0] = some ([], true, true)
        by decide +kernel)
    refine ⟨⟨[excessText, excessRest], none⟩, ⟨[excessText ++ excessRest], none⟩, m, m', tr, tr',
      s, s', ?_, Eq.refl none, h_parse, h_parse', h_read, h_read', h_got, h_got'⟩
    simp only [List.flatten_cons, List.flatten_nil, List.append_nil]

end ServerCentral.Http
