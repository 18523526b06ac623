import ServerCentral.Http.PartSafety
import ServerCentral.Http.Whole

/-!
# The parts, read in order

A handler that reads the parts one after another, each to its end, takes the one step that is
open to it in every state (`PartsState.inOrder`). What a part will come to is known from its
phase and from what remains (`phaseWhole`), whatever the chunks are: every stop of a generator
keeps to it (`PartKeeps`), and so a complete reading hands out what `readWhole` finds.

A part that has more than is declared or allowed fails at the chunk with which it is too much,
so that how much of it has been handed out by then is left open.
-/

open Framework

namespace ServerCentral.Http

def largerThanDeclared (rt : Runtime) (spec : Json) : String :=
  "Upload larger than declared: part \"" ++ rt.text (spec.member "name") ++ "\" exceeds " ++
    rt.text (spec.member "size") ++ " bytes"

def tooLarge (maxBytes : Nat) : String :=
  "Upload too large: exceeds " ++ toString maxBytes ++ " bytes"

/-- The next step of a handler that reads the parts in order. -/
def PartsState.inOrder (m : RpcMultipart) (s : PartsState) : Option PartsLabel :=
  match s.streams.get? s.atPart with
  | none => if s.atPart < m.declared.length then some (.start s.atPart) else none
  | some st =>
    match st.phase with
    | .suspended _ => some (.pull s.atPart)
    | .reading _ => some (.read s.atPart)
    | .closed => none

section Parts

variable (rt : Runtime) (m : RpcMultipart) (failure : Option String)

/-- The parts have been read in order, as far as they can be read. -/
structure ReadInOrder (tr : PartsTrace) (s : PartsState) : Prop where
  run : (partsMachine rt m).RunWhen (fun s l => s.inOrder m = some l) tr s
  complete : s.inOrder m = none

/-- What a part comes to, of which `got` has been handed out, when so much remains. -/
def phaseWhole (spec : Json) (total : Nat) (got : Bytes) (phase : PartPhase) (bytes : Bytes) :
    Except PartFailure (Bytes × Bytes) :=
  match phase with
  | .suspended .start => partWhole rt m.boundary m.maxBytes failure spec total bytes
  | .suspended .afterLast => closeWhole rt spec got (bytes.drop (bodyDelimiter m.boundary).length)
  | .suspended .afterChunk => bodyWhole rt m.boundary m.maxBytes failure spec total got bytes
  | .reading (.opening phase) => openedWhole rt m.boundary m.maxBytes failure spec total
      ((openForecast rt failure).find phase bytes)
  | .reading .body => bodyWhole rt m.boundary m.maxBytes failure spec total got bytes
  | .closed => .error .exceeds

/-- The cursor of a generator that has handed out `got`. -/
def PartReady (got : Bytes) (c : ByteCursor) : PartPhase → Prop
  | .suspended .start => got = [] ∧ HeaderFits c.remaining
  | .suspended .afterLast => (bodyDelimiter m.boundary).length ≤ c.buf.length
  | .suspended .afterChunk => c.buf.length < (bodyDelimiter m.boundary).length
  | .reading (.opening phase) => got = [] ∧ (openForecast rt failure).ready phase c ∧
      (openForecast rt failure).fits phase c.remaining
  | .reading .body => True
  | .closed => True

/-- Where a generator stops that is to come to `found`. -/
def PartKeeps (spec : Json) (total : Nat) (got : Bytes)
    (found : Except PartFailure (Bytes × Bytes)) (c : ByteCursor) : PartResult → Prop
  | .waits read c' => SameSource c c' ∧ PartReady rt m failure got c' (.reading read) ∧
      phaseWhole rt m failure spec total got (.reading read) c'.remaining = found ∧
      (c.chunks = [] → found = .error (.stops got (failure.getD read.truncated)))
  | .yields chunk resume c' => SameSource c c' ∧ chunk ≠ [] ∧
      if tooMuch rt m.maxBytes spec total (got ++ chunk) then found = .error .exceeds
      else PartReady rt m failure (got ++ chunk) c' (.suspended resume) ∧
        phaseWhole rt m failure spec total (got ++ chunk) (.suspended resume) c'.remaining = found
  | .returns c' => SameSource c c' ∧ found = closeWhole rt spec got c'.remaining
  | .fails message _ => found = .error (.stops got message)

end Parts

section Body

variable {rt : Runtime} {maxBytes : Nat} {spec : Json} {total : Nat}

theorem tooMuch_nil : tooMuch rt maxBytes spec total [] = false := rfl

/-- What is too much stays so. -/
theorem tooMuch_append {body : Bytes} (h : tooMuch rt maxBytes spec total body = true)
    (more : Bytes) : tooMuch rt maxBytes spec total (body ++ more) = true := by
  simp only [tooMuch, Bool.and_eq_true, Bool.or_eq_true, decide_eq_true_eq] at h ⊢
  obtain ⟨h_ne, h_over⟩ := h
  have h_length : body.length ≤ (body ++ more).length := by
    rw [List.length_append]
    omega
  refine ⟨fun h_nil => h_ne (List.append_eq_nil_iff.mp h_nil).1, ?_⟩
  obtain h_larger | h_max := h_over
  · left
    revert h_larger
    rw [Runtime.larger, Runtime.larger]
    cases rt.number (spec.member "size") with
    | nan => exact id
    | infinite negative => exact id
    | finite a =>
      intro h_larger
      have h_lt : a < ((body.length : Nat) : Rat) := of_decide_eq_true h_larger
      have h_le : ((body.length : Nat) : Rat) ≤ ((body ++ more).length : Nat) :=
        Rat.natCast_le_natCast.mpr h_length
      refine decide_eq_true ?_
      by_contra h_ge
      exact Rat.not_lt.mpr (Rat.le_trans h_le (Rat.not_lt.mp h_ge)) h_lt
  · right
    omega

variable {boundary : String} {failure : Option String} {got bytes : Bytes} {c : ByteCursor}

theorem bodyWhole_tooMuch (h : tooMuch rt maxBytes spec total got = true) :
    bodyWhole rt boundary maxBytes failure spec total got bytes = .error .exceeds := by
  rw [bodyWhole]
  split
  · next out rest _ => rw [if_pos (tooMuch_append h out)]
  · rw [if_pos (tooMuch_append h _)]

theorem released_take {n : Nat} (h : n ≤ bytes.length - ((bodyDelimiter boundary).length - 1)) :
    released boundary bytes = bytes.take n ++ released boundary (bytes.drop n) := by
  rw [released, released, List.length_drop, ← List.take_add]
  congr 1
  omega

/-- What is held back is enough to find the delimiter. -/
theorem bodyWhole_held (h_none : cut (bodyDelimiter boundary) c.buf = none) {safe : Nat}
    (h_safe : c.buf.length - ((bodyDelimiter boundary).length - 1) = safe) :
    bodyWhole rt boundary maxBytes failure spec total got c.remaining =
      bodyWhole rt boundary maxBytes failure spec total (got ++ c.buf.take safe)
        (c.drop safe).remaining := by
  have h_le : safe ≤ c.buf.length := by omega
  have h_held := cut_of_held (bodyDelimiter_ne_nil boundary) h_none c.chunks.flatten
  rw [h_safe] at h_held
  have h_cut : cut (bodyDelimiter boundary) c.remaining =
      (cut (bodyDelimiter boundary) (c.drop safe).remaining).map
        fun p => (c.buf.take safe ++ p.1, p.2) := h_held
  rw [bodyWhole, bodyWhole, h_cut]
  cases cut (bodyDelimiter boundary) (c.drop safe).remaining with
  | some p => simp only [Option.map_some, List.append_assoc]
  | none =>
    have h_released : released boundary c.remaining =
        c.buf.take safe ++ released boundary (c.drop safe).remaining := by
      rw [released_take (n := safe), ByteCursor.remaining_drop h_le, ByteCursor.remaining,
        List.take_append_of_le_length h_le]
      rw [ByteCursor.remaining, List.length_append]
      omega
    simp only [Option.map_none, h_released, List.append_assoc]

/-- A body that ends with the stream, within the length of its delimiter. -/
theorem bodyWhole_short (h_short : bytes.length < (bodyDelimiter boundary).length)
    (h_got : tooMuch rt maxBytes spec total got = false) :
    bodyWhole rt boundary maxBytes failure spec total got bytes =
      .error (.stops got (failure.getD "Malformed multipart body: truncated part")) := by
  have h_needle := bodyDelimiter_ne_nil boundary
  have h_none : cut (bodyDelimiter boundary) bytes = none := by
    refine (cut_eq_none_iff h_needle).mpr fun j h_occurs => ?_
    have h_le := h_occurs.le h_needle
    omega
  have h_released : released boundary bytes = [] := by
    rw [released, show bytes.length - ((bodyDelimiter boundary).length - 1) = 0 by omega]
    rfl
  rw [bodyWhole, h_none]
  simp [h_released, h_got]

end Body

section Keeps

variable {rt : Runtime} {m : RpcMultipart} {failure : Option String} {spec : Json} {total : Nat}
  {got : Bytes} {found : Except PartFailure (Bytes × Bytes)} {c c' : ByteCursor}
  {result : PartResult}

theorem PartKeeps.of_source (h : PartKeeps rt m failure spec total got found c' result)
    (h_source : SameSource c c') : PartKeeps rt m failure spec total got found c result := by
  cases result with
  | waits read c'' =>
    obtain ⟨h_source', h_ready, h_find, h_last⟩ := h
    refine ⟨h_source.trans h_source', h_ready, h_find, fun h_chunks => ?_⟩
    exact h_last (h_source.chunks.trans h_chunks)
  | yields chunk resume c'' => exact ⟨h_source.trans h.1, h.2⟩
  | returns c'' => exact ⟨h_source.trans h.1, h.2⟩
  | fails message c'' => exact h

/-- **`chunksUntil`** -/
theorem chunksUntil_keeps (h_got : tooMuch rt m.maxBytes spec total got = false) :
    PartKeeps rt m failure spec total got
      (bodyWhole rt m.boundary m.maxBytes failure spec total got c.remaining) c
      (chunksUntil c (bodyDelimiter m.boundary)) := by
  have h_needle := bodyDelimiter_ne_nil m.boundary
  have h_pos := List.length_pos_of_ne_nil h_needle
  unfold chunksUntil
  rw [show indexOfSub c.buf (bodyDelimiter m.boundary) 0 =
    findFrom (bodyDelimiter m.boundary) c.buf 0 from rfl]
  split
  · next i h_find =>
    obtain ⟨h_cut, h_le, h_rest⟩ := cut_remaining h_needle h_find
    have h_body : bodyWhole rt m.boundary m.maxBytes failure spec total got c.remaining =
        if tooMuch rt m.maxBytes spec total (got ++ c.buf.take i) then .error .exceeds
        else closeWhole rt spec (got ++ c.buf.take i)
          (c.drop (i + (bodyDelimiter m.boundary).length)).remaining := by
      rw [bodyWhole, h_cut]
    split
    · next h_i =>
      refine ⟨c.drop_source i, ?_, ?_⟩
      · exact List.ne_nil_of_length_pos (by rw [List.length_take]; omega)
      rw [h_body]
      split
      · rfl
      · refine ⟨?_, ?_⟩
        · show _ ≤ (c.buf.drop i).length
          rw [List.length_drop]
          omega
        · rw [phaseWhole, h_rest, List.drop_left]
    · next h_i =>
      obtain rfl : i = 0 := by omega
      refine ⟨c.drop_source _, ?_⟩
      rw [h_body, List.take_zero, List.append_nil, h_got, Nat.zero_add]
      rfl
  · next h_find =>
    have h_none := cut_buf_none h_find
    dsimp only
    generalize h_safe : c.buf.length - ((bodyDelimiter m.boundary).length - 1) = safe
    split
    · next h_some =>
      refine ⟨c.drop_source safe, ?_, ?_⟩
      · exact List.ne_nil_of_length_pos (by rw [List.length_take]; omega)
      rw [bodyWhole_held h_none h_safe]
      split
      · next h_over => exact bodyWhole_tooMuch h_over
      · refine ⟨?_, rfl⟩
        show (c.buf.drop safe).length < _
        rw [List.length_drop]
        omega
    · refine ⟨.rfl, trivial, rfl, fun h_last => ?_⟩
      have h_remaining : c.remaining = c.buf := by simp [ByteCursor.remaining, h_last]
      rw [h_remaining]
      exact bodyWhole_short (by omega) h_got

/-- The part is opened under its declared name, or not. -/
theorem openBody_keeps {phase : OpenPhase} (h_ready : (openForecast rt failure).ready phase c)
    (h_fits : (openForecast rt failure).fits phase c.remaining) :
    PartKeeps rt m failure spec total []
      (openedWhole rt m.boundary m.maxBytes failure spec total
        ((openForecast rt failure).find phase c.remaining)) c (openBody rt m spec c phase) := by
  have h_open := openPart_keeps h_ready h_fits
  unfold openBody
  cases h_result : openPart rt c phase with
  | waits phase' c' =>
    obtain ⟨h_source, h_ready', h_fits', h_find, h_last⟩ := h_result ▸ h_open
    refine ⟨h_source, ⟨rfl, h_ready', h_fits'⟩, ?_, fun h_chunks => ?_⟩
    · rw [phaseWhole, h_find]
    · rw [h_last h_chunks]
      rfl
  | fails message c' =>
    rw [h_result] at h_open
    have h_error : (openForecast rt failure).find phase c.remaining = .error message := h_open
    rw [h_error]
    rfl
  | done name c' =>
    obtain ⟨h_source, h_name⟩ := h_result ▸ h_open
    rw [h_name, openedWhole]
    dsimp only
    split
    · exact (chunksUntil_keeps tooMuch_nil).of_source h_source
    · rfl

/-- **`chunks.next()`** of a suspended generator. -/
theorem next_keeps {resume : Resume} (h_got : tooMuch rt m.maxBytes spec total got = false)
    (h_ready : PartReady rt m failure got c (.suspended resume)) :
    PartKeeps rt m failure spec total got
      (phaseWhole rt m failure spec total got (.suspended resume) c.remaining) c
      (next rt m spec c resume) := by
  cases resume with
  | start =>
    obtain ⟨rfl, h_fits⟩ := h_ready
    have h_marker : (openForecast rt failure).ready .marker c := trivial
    exact openBody_keeps h_marker h_fits
  | afterLast =>
    refine ⟨c.drop_source _, ?_⟩
    rw [ByteCursor.remaining_drop h_ready]
    rfl
  | afterChunk =>
    refine ⟨.rfl, trivial, rfl, fun h_last => ?_⟩
    have h_remaining : c.remaining = c.buf := by simp [ByteCursor.remaining, h_last]
    rw [h_remaining]
    exact bodyWhole_short h_ready h_got

/-- A generator that goes on with a longer buffer. -/
theorem goOn_keeps {read : PartRead} (h_got : tooMuch rt m.maxBytes spec total got = false)
    (h_ready : PartReady rt m failure got c (.reading read)) :
    PartKeeps rt m failure spec total got
      (phaseWhole rt m failure spec total got (.reading read) c.remaining) c
      (goOn rt m spec c read) := by
  cases read with
  | body => exact chunksUntil_keeps h_got
  | opening phase =>
    obtain ⟨rfl, h_ready', h_fits⟩ := h_ready
    exact openBody_keeps h_ready' h_fits

theorem PartReady.fill {read : PartRead} (h : PartReady rt m failure got c (.reading read))
    (h_fill : c.fill = .ok (true, c')) : PartReady rt m failure got c' (.reading read) := by
  obtain ⟨chunk, h_buf, -, h_remaining⟩ := ByteCursor.fill_true h_fill
  cases read with
  | body => trivial
  | opening phase =>
    obtain ⟨h_got, h_ready, h_fits⟩ := h
    refine ⟨h_got, ?_, h_remaining.symm ▸ h_fits⟩
    cases phase with
    | marker => trivial
    | header n =>
      show Searched CRLF_CRLF c'.buf n
      rw [h_buf]
      exact Searched.append h_ready chunk

end Keeps

/-! ### Where the reading stands -/

/-- What the parts before the `n`-th have handed out. -/
def bodiesOf (n : Nat) (tr : PartsTrace) : List Bytes := (List.range n).map fun k => delivered k tr

/-- How an error shows the handler why a part is not read through. -/
def PartFailure.Shows (rt : Runtime) (m : RpcMultipart) (spec : Json) (got : Bytes)
    (message : String) : PartFailure → Prop
  | .stops body text => body = got ∧ text = message
  | .exceeds => message = largerThanDeclared rt spec ∨ message = tooLarge m.maxBytes

/-- The parts before the current one have been read through, and none after it was begun. -/
structure PartsBefore (tr : PartsTrace) (s : PartsState) : Prop where
  later : ∀ k, s.atPart < k → s.streams.get? k = none
  ended : ∀ k, .ended k ∈ partEvents tr ↔ k < s.atPart
  fresh : ∀ k, s.atPart < k → delivered k tr = []

section At

variable (rt : Runtime) (m : RpcMultipart) (failure : Option String) (bytes : Bytes)
  (tr : PartsTrace) (s : PartsState)

/-- The reading of the declared parts as a whole, from the `n`-th on. -/
def readFrom (n total : Nat) (bytes : Bytes) : Reading :=
  readWhole rt m.boundary m.maxBytes failure (m.declared.drop n) total bytes

/-- The reading goes on after a part that came to `found`. -/
def carryOn (n total : Nat) : Except PartFailure (Bytes × Bytes) → Reading
  | .error f => ⟨[], some f⟩
  | .ok (body, rest) => (readFrom rt m failure n (total + body.length) rest).after [body]

/-- No part is being read. -/
structure BetweenParts : Prop extends PartsBefore tr s where
  live : Live failure s.cursor
  stream : s.streams.get? s.atPart = none
  here : delivered s.atPart tr = []
  silent : ∀ k message, .errored k message ∉ partEvents tr
  fits : PartsFit rt m.boundary m.maxBytes failure (m.declared.drop s.atPart) s.seenTotal
    s.cursor.remaining
  whole : readFrom rt m failure 0 0 bytes =
    (readFrom rt m failure s.atPart s.seenTotal s.cursor.remaining).after (bodiesOf s.atPart tr)

/-- The current part is declared as `spec` and is to come to `found`; its stream `st` has
handed out `got`, and the parts before it `total` bytes. -/
structure Underway (spec : Json) (total : Nat) (got : Bytes) (st : PartStream)
    (found : Except PartFailure (Bytes × Bytes)) : Prop extends PartsBefore tr s where
  declared : m.declared[s.atPart]? = some spec
  stream : s.streams.get? s.atPart = some st
  going : st.cancelled = false
  here : delivered s.atPart tr = got
  seen : st.seen = got.length
  sum : s.seenTotal = total + got.length
  within : tooMuch rt m.maxBytes spec total got = false
  silent : ∀ k message, .errored k message ∉ partEvents tr
  fits : ∀ body rest, found = .ok (body, rest) →
    PartsFit rt m.boundary m.maxBytes failure (m.declared.drop (s.atPart + 1))
      (total + body.length) rest
  whole : readFrom rt m failure 0 0 bytes =
    (carryOn rt m failure (s.atPart + 1) total found).after (bodiesOf s.atPart tr)

/-- The current part is being read. -/
structure InsidePart (spec : Json) (total : Nat) (got : Bytes) (st : PartStream) : Prop
    extends Underway rt m failure bytes tr s spec total got st
      (phaseWhole rt m failure spec total got st.phase s.cursor.remaining) where
  live : Live failure s.cursor
  active : st.phase ≠ .closed
  ready : PartReady rt m failure got s.cursor st.phase
  spent : ∀ read, st.phase = .reading read → s.cursor.chunks = [] →
    phaseWhole rt m failure spec total got st.phase s.cursor.remaining =
      .error (.stops got (failure.getD read.truncated))

/-- The current part has failed. -/
structure StoppedAt : Prop extends PartsBefore tr s where
  stream : ∃ st, s.streams.get? s.atPart = some st ∧ st.phase = .closed
  failed : ∃ spec f message, m.declared[s.atPart]? = some spec ∧
    f.Shows rt m spec (delivered s.atPart tr) message ∧
    readFrom rt m failure 0 0 bytes = ⟨bodiesOf s.atPart tr, some f⟩ ∧
    ∀ k text, .errored k text ∈ partEvents tr ↔ k = s.atPart ∧ text = message

/-- Where a handler stands that reads the parts in order. -/
inductive InOrderAt : Prop
  | between (h : BetweenParts rt m failure bytes tr s)
  | inside {spec : Json} {total : Nat} {got : Bytes} {st : PartStream}
      (h : InsidePart rt m failure bytes tr s spec total got st)
  | stopped (h : StoppedAt rt m failure bytes tr s)

end At

section Moves

variable {rt : Runtime} {m : RpcMultipart} {failure : Option String} {bytes : Bytes}
  {tr : PartsTrace} {s : PartsState}

theorem readFrom_eq {n : Nat} {spec : Json} (h : m.declared[n]? = some spec) (total : Nat)
    (bytes : Bytes) : readFrom rt m failure n total bytes =
      carryOn rt m failure (n + 1) total
        (partWhole rt m.boundary m.maxBytes failure spec total bytes) := by
  obtain ⟨h_lt, rfl⟩ := List.getElem?_eq_some_iff.mp h
  rw [readFrom, List.drop_eq_getElem_cons h_lt, readWhole]
  cases partWhole rt m.boundary m.maxBytes failure m.declared[n] total bytes <;> rfl

theorem bodiesOf_succ (n : Nat) (tr : PartsTrace) :
    bodiesOf (n + 1) tr = bodiesOf n tr ++ [delivered n tr] := by
  rw [bodiesOf, List.range_succ, List.map_append]
  rfl

/-- What the current part hands out changes nothing for the parts before it. -/
theorem bodiesOf_snoc {l : PartsLabel} {events : List PartEvent} {n : Nat}
    (h : ∀ k, k ≠ n → events.flatMap (PartEvent.dataOf k) = []) :
    bodiesOf n (tr ++ [(l, events)]) = bodiesOf n tr := by
  refine List.map_congr_left fun k h_k => ?_
  rw [delivered_snoc, h k (Nat.ne_of_lt (List.mem_range.mp h_k)), List.append_nil]

/-- The current part moves on. -/
theorem PartsBefore.move (h : PartsBefore tr s) (l : PartsLabel) {events : List PartEvent} (c : ByteCursor)
    (n : Nat) (st : PartStream)
    (h_data : ∀ k, k ≠ s.atPart → events.flatMap (PartEvent.dataOf k) = [])
    (h_ended : ∀ k, .ended k ∉ events) :
    PartsBefore (tr ++ [(l, events)])
      { s with cursor := c, seenTotal := n, streams := s.streams.set s.atPart st } where
  later k h_k := by
    rw [Table.get?_set_of_ne _ _ (Nat.ne_of_gt h_k)]
    exact h.later k h_k
  ended k := by
    rw [partEvents_snoc, List.mem_append, or_iff_left (h_ended k)]
    exact h.ended k
  fresh k h_k := by
    rw [delivered_snoc, h_data k (Nat.ne_of_gt h_k), List.append_nil]
    exact h.fresh k h_k

namespace Underway

variable {spec : Json} {total : Nat} {got : Bytes} {st : PartStream}
  {found : Except PartFailure (Bytes × Bytes)}

/-- The current part moves on and hands out `chunk`, or nothing. -/
theorem move (h : Underway rt m failure bytes tr s spec total got st found) (l : PartsLabel)
    (events : List PartEvent) (c : ByteCursor) (chunk : Bytes) (phase : PartPhase)
    (h_data : ∀ k, events.flatMap (PartEvent.dataOf k) = if s.atPart = k then chunk else [])
    (h_ended : ∀ k, .ended k ∉ events) (h_silent : ∀ k message, .errored k message ∉ events)
    (h_within : tooMuch rt m.maxBytes spec total (got ++ chunk) = false) :
    Underway rt m failure bytes (tr ++ [(l, events)])
      { s with
        cursor := c
        seenTotal := s.seenTotal + chunk.length
        streams := s.streams.set s.atPart { st with phase, seen := st.seen + chunk.length } }
      spec total (got ++ chunk) { st with phase, seen := st.seen + chunk.length } found := by
  have h_others : ∀ k, k ≠ s.atPart → events.flatMap (PartEvent.dataOf k) = [] := fun k h_k => by
    rw [h_data, if_neg (Ne.symm h_k)]
  refine ⟨h.toPartsBefore.move l c _ _ h_others h_ended, h.declared, ?_, h.going, ?_, ?_, ?_, h_within,
    fun k message => ?_, h.fits, ?_⟩
  · rw [Table.get?_set_self]
  · rw [delivered_snoc, h.here, h_data, if_pos rfl]
  · rw [List.length_append, ← h.seen]
  · rw [List.length_append, ← Nat.add_assoc, ← h.sum]
  · rw [partEvents_snoc, List.mem_append, not_or]
    exact ⟨h.silent k message, h_silent k message⟩
  · rw [bodiesOf_snoc h_others]
    exact h.whole

/-- The generator throws. -/
theorem stop {f : PartFailure}
    (h : Underway rt m failure bytes tr s spec total got st (.error f)) (l : PartsLabel)
    (c : ByteCursor) (n : Nat) {st' : PartStream} (h_phase : st'.phase = .closed)
    {message : String} (h_shows : f.Shows rt m spec got message) :
    StoppedAt rt m failure bytes (tr ++ [(l, [.errored s.atPart message])])
      { s with cursor := c, seenTotal := n, streams := s.streams.set s.atPart st' } := by
  have h_data : ∀ k, [PartEvent.errored s.atPart message].flatMap (PartEvent.dataOf k) = [] :=
    fun k => rfl
  refine ⟨h.toPartsBefore.move l c n st' (fun k _ => h_data k) (by simp), ⟨st', ?_, h_phase⟩, spec, f,
    message, h.declared, ?_, ?_, fun k text => ?_⟩
  · rw [Table.get?_set_self]
  · rw [delivered_snoc, h_data, List.append_nil, h.here]
    exact h_shows
  · rw [bodiesOf_snoc fun k _ => h_data k, h.whole]
    simp [carryOn, Reading.after]
  · rw [partEvents_snoc, List.mem_append, or_iff_right (h.silent k text), List.mem_singleton]
    exact ⟨fun h_eq => PartEvent.errored.inj h_eq, fun ⟨h_k, h_text⟩ => by rw [h_k, h_text]⟩

/-- The part has been read through. -/
theorem finish {rest : Bytes}
    (h : Underway rt m failure bytes tr s spec total got st (.ok (got, rest))) (l : PartsLabel)
    {c : ByteCursor} (h_live : Live failure c) (h_rest : c.remaining = rest) (finished : Bool)
    (st' : PartStream) :
    BetweenParts rt m failure bytes (tr ++ [(l, [.ended s.atPart])])
      { s with
        cursor := c
        atPart := s.atPart + 1
        finished
        streams := s.streams.set s.atPart st' } := by
  have h_data : ∀ k, [PartEvent.ended s.atPart].flatMap (PartEvent.dataOf k) = [] := fun k => rfl
  have h_delivered : ∀ k, delivered k (tr ++ [(l, [.ended s.atPart])]) = delivered k tr :=
    fun k => by rw [delivered_snoc, h_data, List.append_nil]
  refine ⟨⟨fun k h_k => ?_, fun k => ?_, fun k h_k => ?_⟩, h_live, ?_, ?_, fun k message => ?_, ?_,
    ?_⟩
  · have h_gt : s.atPart < k := Nat.lt_of_succ_lt h_k
    rw [Table.get?_set_of_ne _ _ (Nat.ne_of_gt h_gt)]
    exact h.later k h_gt
  · rw [partEvents_snoc, List.mem_append, h.ended k, List.mem_singleton]
    constructor
    · rintro (h_lt | h_eq)
      · exact Nat.lt_succ_of_lt h_lt
      · rw [PartEvent.ended.inj h_eq]
        exact Nat.lt_succ_self _
    · intro h_lt
      obtain h_lt | h_eq := Nat.lt_succ_iff_lt_or_eq.mp h_lt
      · exact .inl h_lt
      · exact .inr (by rw [h_eq])
  · rw [h_delivered]
    exact h.fresh k (Nat.lt_of_succ_lt h_k)
  · rw [Table.get?_set_of_ne _ _ (Nat.succ_ne_self _)]
    exact h.later _ (Nat.lt_succ_self _)
  · rw [h_delivered]
    exact h.fresh _ (Nat.lt_succ_self _)
  · rw [partEvents_snoc, List.mem_append, not_or]
    exact ⟨h.silent k message, by simp⟩
  · show PartsFit rt m.boundary m.maxBytes failure (m.declared.drop (s.atPart + 1)) s.seenTotal
      c.remaining
    rw [h.sum, h_rest]
    exact h.fits got rest rfl
  · show readFrom rt m failure 0 0 bytes = (readFrom rt m failure (s.atPart + 1) s.seenTotal
      c.remaining).after (bodiesOf (s.atPart + 1) _)
    have h_before : bodiesOf (s.atPart + 1) (tr ++ [(l, [.ended s.atPart])]) =
        bodiesOf s.atPart tr ++ [got] := by
      rw [bodiesOf_succ, h_delivered, h.here, bodiesOf_snoc fun k _ => h_data k]
    rw [h_before, h.whole, h.sum, h_rest]
    simp [carryOn, Reading.after]

/-- **What stopped the generator**, taken up. -/
theorem settle (h : Underway rt m failure bytes tr s spec total got st found) (l : PartsLabel)
    {c : ByteCursor} (h_live : Live failure c) {result : PartResult}
    (h_keeps : PartKeeps rt m failure spec total got found c result) :
    let out := s.settle rt m s.atPart spec st result
    InOrderAt rt m failure bytes (tr ++ [(l, out.2)]) out.1 := by
  have h_going := h.going
  cases result with
  | waits read c' =>
    obtain ⟨h_source, h_ready, h_find, h_last⟩ := h_keeps
    have h_moved := h.move l [] c' [] (.reading read) (fun k => by simp) (by simp) (by simp)
      ((List.append_nil got).symm ▸ h.within)
    rw [List.append_nil, ← h_find] at h_moved
    have h_spent : ∀ read', PartPhase.reading read = .reading read' → c'.chunks = [] →
        phaseWhole rt m failure spec total got (.reading read) c'.remaining =
          .error (.stops got (failure.getD read'.truncated)) := by
      intro read' h_read h_chunks
      obtain rfl := PartPhase.reading.inj h_read
      rw [h_find]
      exact h_last (h_source.chunks.symm.trans h_chunks)
    exact .inside ⟨h_moved, h_live.of_source h_source, by simp, h_ready, h_spent⟩
  | fails message c' =>
    have h_found : found = .error (.stops got message) := h_keeps
    subst h_found
    simp only [PartsState.settle, PartsState.fail, h_going]
    exact .stopped (h.stop l c' s.seenTotal rfl ⟨rfl, rfl⟩)
  | yields chunk resume c' =>
    obtain ⟨h_source, h_ne, h_next⟩ := h_keeps
    have h_much : tooMuch rt m.maxBytes spec total (got ++ chunk) =
        (rt.larger (st.seen + chunk.length) (spec.member "size") ||
          decide (m.maxBytes < s.seenTotal + chunk.length)) := by
      have h_ne' : got ++ chunk ≠ [] := fun h_nil => h_ne (List.append_eq_nil_iff.mp h_nil).2
      rw [tooMuch, decide_eq_true h_ne', Bool.true_and, List.length_append, ← h.seen,
        ← Nat.add_assoc, h.seen, ← h.sum]
    have h_open : ¬st.cancelled = true := by
      rw [h_going]
      exact Bool.false_ne_true
    simp only [PartsState.settle]
    split
    · next h_larger =>
      rw [h_much, h_larger, Bool.true_or, if_pos rfl] at h_next
      subst h_next
      rw [PartsState.fail, if_neg h_open]
      exact .stopped (h.stop l c' _ rfl (.inl rfl))
    next h_larger =>
    split
    · next h_max =>
      rw [h_much, decide_eq_true h_max, Bool.or_true, if_pos rfl] at h_next
      subst h_next
      rw [PartsState.fail, if_neg h_open]
      exact .stopped (h.stop l c' _ rfl (.inr rfl))
    next h_max =>
    have h_within : tooMuch rt m.maxBytes spec total (got ++ chunk) = false := by
      rw [h_much, Bool.eq_false_iff.mpr h_larger, decide_eq_false h_max]
      rfl
    rw [h_within, if_neg Bool.false_ne_true] at h_next
    obtain ⟨h_ready, h_find⟩ := h_next
    have h_moved := h.move l [.chunk s.atPart chunk] c' chunk (.suspended resume)
      (fun k => by simp [PartEvent.dataOf]) (by simp) (by simp) h_within
    rw [← h_find] at h_moved
    refine .inside ⟨h_moved, h_live.of_source h_source, by simp, h_ready, fun read h_read => ?_⟩
    cases h_read
  | returns c' =>
    obtain ⟨h_source, h_close⟩ := h_keeps
    simp only [PartsState.settle, h_going]
    rw [closeWhole, ← h.seen] at h_close
    split
    · next h_size =>
      rw [if_pos h_size] at h_close
      subst h_close
      exact .between (h.finish l (h_live.of_source h_source) rfl _ _)
    · next h_size =>
      rw [if_neg h_size] at h_close
      subst h_close
      simp only [PartsState.fail, h_going]
      exact .stopped (h.stop l c' _ rfl ⟨rfl, rfl⟩)

end Underway

/-! ### Steps -/

/-- How a live cursor gets on. -/
theorem Live.fill {c : ByteCursor} (h : Live failure c) :
    match c.fill with
    | .error message => c.chunks = [] ∧ failure = some message
    | .ok (true, c') => Live failure c'
    | .ok (false, _) => c.chunks = [] ∧ failure = none := by
  have h_failure := h.failure
  unfold ByteCursor.fill
  rw [h.ended, h.cancelled, if_neg Bool.false_ne_true, if_neg Bool.false_ne_true]
  cases h_chunks : c.chunks with
  | cons chunk chunks => exact ⟨h_failure, rfl, rfl⟩
  | nil =>
    cases h_end : c.failure with
    | none => exact ⟨rfl, h_failure.symm.trans h_end⟩
    | some message => exact ⟨rfl, h_failure.symm.trans h_end⟩

section Labels

variable {index : Nat} {spec : Json} {st : PartStream}

theorem step_start (h_spec : m.declared[s.atPart]? = some spec)
    (h_get : s.streams.get? s.atPart = none) : s.step rt m (.start s.atPart) =
      some ({ s with streams := s.streams.set s.atPart ⟨.suspended .start, 0, false⟩ },
        [.started s.atPart]) := by
  have h_has : s.streams.has s.atPart = false := by
    rw [Table.has, h_get]
    rfl
  rw [PartsState.step, h_spec, Option.map_some, PartsState.start, h_has,
    if_neg Bool.false_ne_true, if_neg (not_not.mpr rfl)]

theorem step_pull (h_spec : m.declared[index]? = some spec)
    (h_get : s.streams.get? index = some st) {resume : Resume}
    (h_phase : st.phase = .suspended resume) : s.step rt m (.pull index) =
      some (s.settle rt m index spec st (next rt m spec s.cursor resume)) := by
  rw [PartsState.step, h_spec, h_get]
  simp only [Option.bind_some, h_phase]

theorem step_read (h_spec : m.declared[index]? = some spec)
    (h_get : s.streams.get? index = some st) {read : PartRead}
    (h_phase : st.phase = .reading read) :
    s.step rt m (.read index) = some (s.read rt m index spec st read) := by
  rw [PartsState.step, h_spec, h_get]
  simp only [Option.bind_some, h_phase]

end Labels

/-- The handler starts the next part. -/
theorem BetweenParts.start (h : BetweenParts rt m failure bytes tr s) (l : PartsLabel)
    {spec : Json} (h_spec : m.declared[s.atPart]? = some spec) :
    InsidePart rt m failure bytes (tr ++ [(l, [.started s.atPart])])
      { s with streams := s.streams.set s.atPart ⟨.suspended .start, 0, false⟩ }
      spec s.seenTotal [] ⟨.suspended .start, 0, false⟩ := by
  have h_data : ∀ k, [PartEvent.started s.atPart].flatMap (PartEvent.dataOf k) = [] := fun k => rfl
  obtain ⟨h_lt, h_eq⟩ := List.getElem?_eq_some_iff.mp h_spec
  have h_fits := h.fits
  rw [List.drop_eq_getElem_cons h_lt, h_eq] at h_fits
  obtain ⟨h_header, h_rest⟩ := h_fits
  have h_moved := h.toPartsBefore.move l s.cursor s.seenTotal ⟨.suspended .start, 0, false⟩
    (fun k _ => h_data k) (by simp)
  refine ⟨⟨h_moved, h_spec, ?_, rfl, ?_, rfl, rfl, tooMuch_nil, fun k message => ?_, h_rest, ?_⟩,
    h.live, by simp, ⟨rfl, h_header⟩, fun read h_read => ?_⟩
  · rw [Table.get?_set_self]
  · rw [delivered_snoc, h_data, List.append_nil, h.here]
  · rw [partEvents_snoc, List.mem_append, not_or]
    exact ⟨h.silent k message, by simp⟩
  · rw [bodiesOf_snoc fun k _ => h_data k, h.whole, readFrom_eq h_spec]
    rfl
  · cases h_read

section Inside

variable {spec : Json} {total : Nat} {got : Bytes} {st : PartStream}

theorem InsidePart.pull (h : InsidePart rt m failure bytes tr s spec total got st) (l : PartsLabel)
    {resume : Resume} (h_phase : st.phase = .suspended resume) :
    let out := s.settle rt m s.atPart spec st (next rt m spec s.cursor resume)
    InOrderAt rt m failure bytes (tr ++ [(l, out.2)]) out.1 := by
  have h_ready := h.ready
  rw [h_phase] at h_ready
  have h_under := h.toUnderway
  rw [h_phase] at h_under
  exact h_under.settle l h.live (next_keeps h.within h_ready)

theorem InsidePart.read (h : InsidePart rt m failure bytes tr s spec total got st) (l : PartsLabel)
    {read : PartRead} (h_phase : st.phase = .reading read) :
    let out := s.read rt m s.atPart spec st read
    InOrderAt rt m failure bytes (tr ++ [(l, out.2)]) out.1 := by
  have h_ready := h.ready
  rw [h_phase] at h_ready
  have h_under := h.toUnderway
  rw [h_phase] at h_under
  have h_spent := h.spent read h_phase
  rw [h_phase] at h_spent
  have h_open : ¬st.cancelled = true := by
    rw [h.going]
    exact Bool.false_ne_true
  have h_fill := h.live.fill
  unfold PartsState.read
  cases h_result : s.cursor.fill with
  | error message =>
    rw [h_result] at h_fill
    obtain ⟨h_chunks, rfl⟩ := h_fill
    rw [h_spent h_chunks] at h_under
    dsimp only
    rw [PartsState.fail, if_neg h_open]
    exact .stopped (h_under.stop l s.cursor s.seenTotal rfl ⟨rfl, rfl⟩)
  | ok p =>
    obtain ⟨more, c⟩ := p
    rw [h_result] at h_fill
    cases more with
    | true =>
      obtain ⟨-, -, -, h_remaining⟩ := ByteCursor.fill_true h_result
      have h_keeps := goOn_keeps h.within (h_ready.fill h_result)
      rw [h_remaining] at h_keeps
      exact h_under.settle l h_fill h_keeps
    | false =>
      obtain ⟨h_chunks, rfl⟩ := h_fill
      rw [h_spent h_chunks] at h_under
      dsimp only
      rw [PartsState.fail, if_neg h_open]
      exact .stopped (h_under.stop l c s.seenTotal rfl ⟨rfl, rfl⟩)

end Inside

/-- **Step lemma.** -/
theorem InOrderAt.step (h : InOrderAt rt m failure bytes tr s) {l : PartsLabel} {s' : PartsState}
    {events : List PartEvent} (h_next : s.inOrder m = some l)
    (hs : s.step rt m l = some (s', events)) :
    InOrderAt rt m failure bytes (tr ++ [(l, events)]) s' := by
  cases h with
  | between h =>
    rw [PartsState.inOrder, h.stream] at h_next
    dsimp only at h_next
    split at h_next
    · next h_lt =>
      obtain rfl := Option.some.inj h_next
      have h_spec := List.getElem?_eq_getElem h_lt
      rw [step_start h_spec h.stream] at hs
      obtain ⟨rfl, rfl⟩ := Prod.mk.inj (Option.some.inj hs)
      exact .inside (h.start _ h_spec)
    · cases h_next
  | stopped h =>
    obtain ⟨st, h_get, h_closed⟩ := h.stream
    rw [PartsState.inOrder, h_get] at h_next
    dsimp only at h_next
    rw [h_closed] at h_next
    cases h_next
  | @inside spec total got st h =>
    rw [PartsState.inOrder, h.stream] at h_next
    cases h_phase : st.phase with
    | closed => exact absurd h_phase h.active
    | suspended resume =>
      simp only [h_phase] at h_next
      obtain rfl := Option.some.inj h_next
      have h_out := h.pull (.pull s.atPart) h_phase
      rw [step_pull h.declared h.stream h_phase] at hs
      rwa [Option.some.inj hs] at h_out
    | reading read =>
      simp only [h_phase] at h_next
      obtain rfl := Option.some.inj h_next
      have h_out := h.read (.read s.atPart) h_phase
      rw [step_read h.declared h.stream h_phase] at hs
      rwa [Option.some.inj hs] at h_out

/-- **Run lemma.** -/
theorem InOrderAt.of_run (h_live : Live failure m.cursor) (h_bytes : m.cursor.remaining = bytes)
    (h_fits : PartsFit rt m.boundary m.maxBytes failure m.declared 0 bytes)
    (h : (partsMachine rt m).RunWhen (fun s l => s.inOrder m = some l) tr s) :
    InOrderAt rt m failure bytes tr s := by
  refine h.history (.between ?_) fun tr s l s' events _ h_at h_next hs => h_at.step h_next hs
  have h_before : PartsBefore [] (partsMachine rt m).init :=
    ⟨fun k _ => rfl, fun k => by simp [partEvents, partsMachine], fun k _ => rfl⟩
  subst h_bytes
  exact ⟨h_before, h_live, rfl, rfl, fun k message => List.not_mem_nil, h_fits, rfl⟩

end Moves

end ServerCentral.Http
