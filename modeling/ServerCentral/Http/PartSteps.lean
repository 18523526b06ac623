import ServerCentral.Http.Wire

/-!
# The generator of a part

Where `consumePart` stands on the wire while it is suspended or waits for more (`PartAt`), and
that every run of it up to its next stop keeps to it (`PartStop`): what it has handed out,
followed by what its delimiter cuts off from the rest, is the body of its part.
-/

open Framework

namespace ServerCentral.Http

/-- The declared name of a part. -/
def Declared (spec : Json) (name : String) : Prop := spec.member "name" = some (.str name)

/-- The body of the part that begins at `t` begins at `after`, and the part has its declared
name. -/
def BodyAt (rt : Runtime) (spec : Json) (t after : Bytes) : Prop :=
  ∃ name, Declared spec name ∧ OpensTo rt t name after

/-- `got` has been handed out of a body that goes on with what remains. -/
def Within (rt : Runtime) (boundary : String) (spec : Json) (t got : Bytes) (c : ByteCursor) :
    Prop :=
  ∃ after, BodyAt rt spec t after ∧ after = got ++ c.remaining ∧
    cut (bodyDelimiter boundary) after =
      (cut (bodyDelimiter boundary) c.remaining).map fun p => (got ++ p.1, p.2)

/-- `consumePart` of the part declared as `spec`, which begins at `t`, has handed out `got`. -/
def PartAt (rt : Runtime) (boundary : String) (spec : Json) (t got : Bytes) (c : ByteCursor) :
    PartPhase → Prop
  | .suspended .start => got = [] ∧ c.remaining = t
  | .reading (.opening phase) => got = [] ∧ OpenAt t c phase
  | .suspended .afterLast => ∃ after rest, BodyAt rt spec t after ∧
      cut (bodyDelimiter boundary) after = some (got, rest) ∧
      c.remaining = bodyDelimiter boundary ++ rest ∧
      (bodyDelimiter boundary).length ≤ c.buf.length
  | .suspended .afterChunk => Within rt boundary spec t got c
  | .reading .body => Within rt boundary spec t got c
  | .closed => True

/-- The body of the part that begins at `t` is `body`, and `c` stands after its delimiter. -/
def Complete (rt : Runtime) (boundary : String) (spec : Json) (t body : Bytes) (c : ByteCursor) :
    Prop :=
  ∃ after, BodyAt rt spec t after ∧
    cut (bodyDelimiter boundary) after = some (body, c.remaining)

/-- Where a generator stops. -/
def PartStop (rt : Runtime) (boundary : String) (spec : Json) (t got : Bytes) (c : ByteCursor) :
    PartResult → Prop
  | .waits read c' => SameSource c c' ∧ PartAt rt boundary spec t got c' (.reading read)
  | .yields chunk resume c' => SameSource c c' ∧ chunk ≠ [] ∧
      PartAt rt boundary spec t (got ++ chunk) c' (.suspended resume)
  | .returns c' => SameSource c c' ∧ Complete rt boundary spec t got c'
  | .fails _ c' => SameSource c c'

/-- A part read as a whole. -/
structure NamedPart (rt : Runtime) (spec : Json) (p : WirePart) : Prop where
  name : ∃ name, Declared spec name ∧ partName (rt.decode p.header) = some name

section Part

variable {rt : Runtime} {boundary : String} {spec : Json} {t got : Bytes} {c c' : ByteCursor}

theorem BodyAt.wirePart {after : Bytes} (boundary : String) (h : BodyAt rt spec t after) :
    ∃ p, readWirePart boundary t = some p ∧ NamedPart rt spec p ∧
      (match cut (bodyDelimiter boundary) after with
        | some (body, rest) => p.body = body ∧ p.rest = some rest
        | none => p.body = after ∧ p.rest = none) := by
  obtain ⟨name, h_declared, h_opens⟩ := h
  obtain ⟨header, h_name, h_part⟩ := h_opens.wirePart boundary
  cases h_cut : cut (bodyDelimiter boundary) after with
  | none =>
    rw [h_cut] at h_part
    exact ⟨_, h_part, ⟨name, h_declared, h_name⟩, rfl, rfl⟩
  | some q =>
    rw [h_cut] at h_part
    exact ⟨_, h_part, ⟨name, h_declared, h_name⟩, rfl, rfl⟩

/-- A part that has been read up to its delimiter. -/
theorem Complete.wirePart (h : Complete rt boundary spec t got c) :
    ∃ p, readWirePart boundary t = some p ∧ NamedPart rt spec p ∧ p.body = got ∧
      p.rest = some c.remaining := by
  obtain ⟨after, h_body, h_cut⟩ := h
  obtain ⟨p, h_part, h_named, h_ends⟩ := h_body.wirePart boundary
  rw [h_cut] at h_ends
  exact ⟨p, h_part, h_named, h_ends⟩

/-- What has been handed out is a prefix of the body of the part. -/
theorem PartAt.prefix {phase : PartPhase} (h : PartAt rt boundary spec t got c phase)
    (h_phase : phase = .suspended .afterLast ∨ phase = .suspended .afterChunk) :
    ∃ p, readWirePart boundary t = some p ∧ NamedPart rt spec p ∧ got <+: p.body := by
  obtain rfl | rfl := h_phase
  · obtain ⟨after, rest, h_body, h_cut, -, -⟩ := h
    obtain ⟨p, h_part, h_named, h_ends⟩ := h_body.wirePart boundary
    rw [h_cut] at h_ends
    exact ⟨p, h_part, h_named, h_ends.1 ▸ List.prefix_rfl⟩
  · obtain ⟨after, h_body, h_after, h_cut⟩ := h
    obtain ⟨p, h_part, h_named, h_ends⟩ := h_body.wirePart boundary
    refine ⟨p, h_part, h_named, ?_⟩
    cases h_rest : cut (bodyDelimiter boundary) c.remaining with
    | none =>
      rw [h_cut, h_rest, Option.map_none] at h_ends
      rw [h_ends.1, h_after]
      exact List.prefix_append _ _
    | some q =>
      rw [h_cut, h_rest, Option.map_some] at h_ends
      rw [h_ends.1]
      exact List.prefix_append _ _

/-- Where a part stands does not depend on how the stream will end. -/
theorem PartAt.congr {phase : PartPhase} (h : PartAt rt boundary spec t got c phase)
    (h_buf : c'.buf = c.buf) (h_chunks : c'.chunks = c.chunks) :
    PartAt rt boundary spec t got c' phase := by
  have h_remaining : c'.remaining = c.remaining := by
    rw [ByteCursor.remaining, ByteCursor.remaining, h_buf, h_chunks]
  cases phase with
  | closed => trivial
  | suspended resume =>
    cases resume with
    | start => exact ⟨h.1, h_remaining.trans h.2⟩
    | afterLast =>
      obtain ⟨after, rest, h_body, h_cut, h_rest, h_len⟩ := h
      exact ⟨after, rest, h_body, h_cut, h_remaining.trans h_rest, h_buf ▸ h_len⟩
    | afterChunk =>
      obtain ⟨after, h_body, h_after, h_cut⟩ := h
      rw [← h_remaining] at h_after h_cut
      exact ⟨after, h_body, h_after, h_cut⟩
  | reading read =>
    cases read with
    | opening phase =>
      refine ⟨h.1, ?_⟩
      cases phase with
      | marker => exact h_remaining.trans h.2
      | header n =>
        obtain ⟨h_marker, h_rest, h_searched⟩ := h.2
        exact ⟨h_marker, h_rest.trans h_remaining.symm, h_buf ▸ h_searched⟩
    | body =>
      obtain ⟨after, h_body, h_after, h_cut⟩ := h
      rw [← h_remaining] at h_after h_cut
      exact ⟨after, h_body, h_after, h_cut⟩

/-- More arrives. -/
theorem PartAt.fill {read : PartRead} (h : PartAt rt boundary spec t got c (.reading read))
    (h_fill : c.fill = .ok (true, c')) : PartAt rt boundary spec t got c' (.reading read) := by
  obtain ⟨chunk, h_buf, h_chunks, h_remaining⟩ := ByteCursor.fill_true h_fill
  cases read with
  | opening phase => exact ⟨h.1, h.2.fill h_fill⟩
  | body =>
    obtain ⟨after, h_body, h_after, h_cut⟩ := h
    rw [← h_remaining] at h_after h_cut
    exact ⟨after, h_body, h_after, h_cut⟩

/-- **`chunksUntil`** hands out the body up to its delimiter: all of the buffer but what may
be the start of the delimiter. -/
theorem chunksUntil_spec (h : Within rt boundary spec t got c) :
    PartStop rt boundary spec t got c (chunksUntil c (bodyDelimiter boundary)) := by
  have h_needle := bodyDelimiter_ne_nil boundary
  obtain ⟨after, h_body, h_after, h_cut⟩ := h
  unfold chunksUntil
  rw [show indexOfSub c.buf (bodyDelimiter boundary) 0 =
    findFrom (bodyDelimiter boundary) c.buf 0 from rfl]
  split
  · next i h_find =>
    obtain ⟨h_some, h_le, h_rest⟩ := cut_remaining h_needle h_find
    rw [h_some, Option.map_some] at h_cut
    split
    · next h_pos =>
      refine ⟨c.drop_source i, ?_, after, _, h_body, h_cut, h_rest, ?_⟩
      · exact List.ne_nil_of_length_pos (by rw [List.length_take]; omega)
      · show _ ≤ (c.buf.drop i).length
        rw [List.length_drop]
        omega
    · next h_zero =>
      obtain rfl : i = 0 := by omega
      rw [List.take_zero, List.append_nil, Nat.zero_add] at h_cut
      exact ⟨c.drop_source _, after, h_body, h_cut⟩
  · next h_find =>
    have h_none := cut_buf_none h_find
    have h_held := cut_of_held h_needle h_none c.chunks.flatten
    dsimp only
    generalize h_safe : c.buf.length - ((bodyDelimiter boundary).length - 1) = safe at h_held ⊢
    split
    · next h_pos =>
      have h_le : safe ≤ c.buf.length := by omega
      refine ⟨c.drop_source safe, ?_, after, h_body, ?_, ?_⟩
      · exact List.ne_nil_of_length_pos (by rw [List.length_take]; omega)
      · rw [h_after, ByteCursor.remaining_drop h_le, List.append_assoc, ByteCursor.remaining,
          ← List.take_append_of_le_length h_le, List.take_append_drop]
      · rw [h_cut, ByteCursor.remaining, h_held, Option.map_map]
        simp only [Function.comp_def, List.append_assoc]
        rfl
    · exact ⟨.rfl, after, h_body, h_after, h_cut⟩

/-- The part is opened under its declared name. -/
theorem openBody_spec {m : RpcMultipart} {phase : OpenPhase} (h : OpenAt t c phase)
    (h_null : t.take 2 = DASH_DASH → 2 ≤ c.buf.length → spec.member "name" ≠ some .null) :
    PartStop rt m.boundary spec t [] c (openBody rt m spec c phase) := by
  have h_open := openPart_spec rt h
  unfold openBody
  revert h_open
  generalize openPart rt c phase = result
  intro h_open
  cases result with
  | waits phase c' => exact ⟨h_open.1, rfl, h_open.2⟩
  | fails message c' => exact h_open
  | done name c' =>
    cases name with
    | none =>
      have h_other : sameName none (spec.member "name") = false := by
        unfold sameName
        split
        · next h_some _ => cases h_some
        · next h_name => exact absurd h_name (h_null h_open.2.1 h_open.2.2)
        · rfl
      dsimp only
      rw [h_other]
      exact h_open.1
    | some name =>
      obtain ⟨h_source, h_opens⟩ := h_open
      dsimp only
      split
      · next h_same =>
        have h_declared : Declared spec name := by
          unfold sameName at h_same
          split at h_same
          · next name' declared h_some h_spec =>
            obtain rfl := Option.some.inj h_some
            rw [Declared, h_spec, of_decide_eq_true h_same]
          · next h_some _ => cases h_some
          · cases h_same
        have h_within : Within rt m.boundary spec t [] c' := by
          refine ⟨c'.remaining, ⟨name, h_declared, h_opens⟩, rfl, ?_⟩
          simp
        have h_stop := chunksUntil_spec h_within
        revert h_stop
        generalize chunksUntil c' (bodyDelimiter m.boundary) = result
        intro h_stop
        cases result with
        | waits read c'' => exact ⟨h_source.trans h_stop.1, h_stop.2⟩
        | yields chunk resume c'' => exact ⟨h_source.trans h_stop.1, h_stop.2⟩
        | returns c'' => exact ⟨h_source.trans h_stop.1, h_stop.2⟩
        | fails message c'' => exact h_source.trans h_stop
      · exact h_source

/-- **`chunks.next()`** of a suspended generator. -/
theorem next_spec {m : RpcMultipart} {resume : Resume}
    (h : PartAt rt m.boundary spec t got c (.suspended resume))
    (h_null : resume = .start → c.buf.take 2 = DASH_DASH → spec.member "name" ≠ some .null) :
    PartStop rt m.boundary spec t got c (next rt m spec c resume) := by
  cases resume with
  | start =>
    obtain ⟨rfl, h_remaining⟩ := h
    refine openBody_spec h_remaining fun h_end h_len => h_null rfl ?_
    rw [← h_remaining, ByteCursor.remaining, List.take_append_of_le_length h_len] at h_end
    exact h_end
  | afterLast =>
    obtain ⟨after, rest, h_body, h_cut, h_rest, h_len⟩ := h
    refine ⟨c.drop_source _, after, h_body, ?_⟩
    rw [h_cut, ByteCursor.remaining_drop h_len, h_rest, List.drop_left]
  | afterChunk => exact ⟨.rfl, h⟩

/-- A generator that goes on with a longer buffer. -/
theorem goOn_spec {m : RpcMultipart} {read : PartRead}
    (h : PartAt rt m.boundary spec t got c (.reading read))
    (h_null : read = .opening .marker → c.buf.take 2 = DASH_DASH →
      spec.member "name" ≠ some .null) :
    PartStop rt m.boundary spec t got c (goOn rt m spec c read) := by
  cases read with
  | body => exact chunksUntil_spec h
  | opening phase =>
    obtain ⟨rfl, h_open⟩ := h
    refine openBody_spec h_open fun h_end h_len => ?_
    cases phase with
    | marker =>
      rw [← (show c.remaining = t from h_open), ByteCursor.remaining,
        List.take_append_of_le_length h_len] at h_end
      exact h_null rfl h_end
    | header n =>
      -- the marker has been read, and was none of the end
      rw [h_open.1] at h_end
      cases h_end

end Part

end ServerCentral.Http
