import ServerCentral.Http.PartSteps

/-!
# What the streams of a request hand out

For every body and every schedule of the handler (`parts_safe`): the limits hold, a stream
ends only after its declared size, what a stream hands out is a prefix of the body of its
part on the wire, and a part is started once and only after the parts before it have been
read through.

`openPart` reports the end of the body as `null`, and `consumePart` compares that with the
declared name: where the meta part declares the name `null`, the bytes after the end of the
body are handed out as a part (`epilogue_delivered`).
-/

open Framework

namespace ServerCentral.Http

abbrev PartsTrace := List (PartsLabel × List PartEvent)

def partEvents (tr : PartsTrace) : List PartEvent := tr.flatMap Prod.snd

/-- The bytes an event hands out. -/
def PartEvent.data : PartEvent → Bytes
  | .chunk _ data => data
  | _ => []

/-- The bytes an event hands out for a part. -/
def PartEvent.dataOf (k : Nat) : PartEvent → Bytes
  | .chunk index data => if index = k then data else []
  | _ => []

/-- What the stream of a part has handed out. -/
def delivered (k : Nat) (tr : PartsTrace) : Bytes := (partEvents tr).flatMap (PartEvent.dataOf k)

def deliveredTotal (tr : PartsTrace) : Nat := ((partEvents tr).flatMap PartEvent.data).length

/-- How often a part has been started. -/
def startedCount (k : Nat) (tr : PartsTrace) : Nat := (partEvents tr).count (.started k)

/-- Events that hand out nothing and start or end no part. -/
def PartEvent.quiet : PartEvent → Bool
  | .refused _ _ => true
  | .dropped _ _ => true
  | .errored _ _ => true
  | _ => false

/-! ### What a step adds -/

section Snoc

variable (tr : PartsTrace) (l : PartsLabel) (events : List PartEvent) (k : Nat)

@[simp] theorem partEvents_snoc : partEvents (tr ++ [(l, events)]) = partEvents tr ++ events := by
  simp [partEvents]

@[simp] theorem delivered_snoc :
    delivered k (tr ++ [(l, events)]) = delivered k tr ++ events.flatMap (PartEvent.dataOf k) := by
  simp [delivered]

@[simp] theorem deliveredTotal_snoc : deliveredTotal (tr ++ [(l, events)]) =
    deliveredTotal tr + (events.flatMap PartEvent.data).length := by
  simp [deliveredTotal]

@[simp] theorem startedCount_snoc : startedCount k (tr ++ [(l, events)]) =
    startedCount k tr + events.count (.started k) := by
  simp [startedCount]

end Snoc

section Quiet

variable {events : List PartEvent} (h : ∀ e ∈ events, e.quiet = true)
include h

theorem quiet_dataOf (k : Nat) : events.flatMap (PartEvent.dataOf k) = [] := by
  refine List.flatMap_eq_nil_iff.mpr fun e h_e => ?_
  cases e with
  | chunk index data => cases h _ h_e
  | _ => rfl

theorem quiet_data : events.flatMap PartEvent.data = [] := by
  refine List.flatMap_eq_nil_iff.mpr fun e h_e => ?_
  cases e with
  | chunk index data => cases h _ h_e
  | _ => rfl

theorem quiet_started (k : Nat) : events.count (.started k) = 0 :=
  List.count_eq_zero.mpr fun h_e => by cases h _ h_e

theorem quiet_ended (k : Nat) : .ended k ∉ events := fun h_e => by cases h _ h_e

end Quiet

/-! ### The invariant -/

/-- Part `k` has been read through: its body on the wire, of its declared size, is what has
been handed out, and its delimiter followed. -/
structure Consumed (rt : Runtime) (m : RpcMultipart) (bytes : Bytes) (tr : PartsTrace) (k : Nat)
    (spec : Json) (p : WirePart) : Prop where
  declared : m.declared[k]? = some spec
  wire : wirePart m.boundary bytes (k + 1) = some p
  named : NamedPart rt spec p
  body : p.body = delivered k tr
  closed : p.rest ≠ none
  size : sameNumber p.body.length (spec.member "size") = true

/-- What part `k` hands out is a prefix of its body on the wire. -/
structure FromWire (rt : Runtime) (m : RpcMultipart) (bytes : Bytes) (tr : PartsTrace) (k : Nat)
    (spec : Json) (p : WirePart) : Prop where
  declared : m.declared[k]? = some spec
  wire : wirePart m.boundary bytes (k + 1) = some p
  named : NamedPart rt spec p
  body : delivered k tr <+: p.body

/-- The streams, the cursor and what has been handed out. -/
structure PartsInv (rt : Runtime) (m : RpcMultipart) (bytes : Bytes) (tr : PartsTrace)
    (s : PartsState) : Prop where
  /-- The cursor stands where the next part to be started begins, -/
  here : s.streams.get? s.atPart = none →
    wireTail m.boundary bytes s.atPart = some s.cursor.remaining
  /-- or within the part that is being read. -/
  active : ∀ st, s.streams.get? s.atPart = some st → st.phase ≠ .closed →
    ∃ spec t, m.declared[s.atPart]? = some spec ∧ wireTail m.boundary bytes s.atPart = some t ∧
      PartAt rt m.boundary spec t (delivered s.atPart tr) s.cursor st.phase ∧
      st.seen = (delivered s.atPart tr).length
  later : ∀ k, s.atPart < k → s.streams.get? k = none
  earlier : ∀ k < s.atPart, ∃ st, s.streams.get? k = some st ∧ st.phase = .closed
  consumed : ∀ k < s.atPart, ∃ spec p, Consumed rt m bytes tr k spec p
  fresh : ∀ k, s.streams.get? k = none → delivered k tr = [] ∧ startedCount k tr = 0
  once : ∀ k, startedCount k tr ≤ 1
  wire : ∀ k, delivered k tr ≠ [] → ∃ spec p, FromWire rt m bytes tr k spec p
  size : ∀ k spec, m.declared[k]? = some spec → delivered k tr = [] ∨
    rt.larger (delivered k tr).length (spec.member "size") = false
  total : deliveredTotal tr ≤ s.seenTotal ∧ deliveredTotal tr ≤ m.maxBytes
  ended : ∀ k, .ended k ∈ partEvents tr → k < s.atPart

namespace PartsInv

variable {rt : Runtime} {m : RpcMultipart} {bytes : Bytes} {tr : PartsTrace} {s : PartsState}

theorem init (h : wireTail m.boundary bytes 0 = some m.cursor.remaining) :
    PartsInv rt m bytes [] (partsMachine rt m).init where
  here _ := h
  active _ h_get := by cases h_get
  later _ _ := rfl
  earlier _ h_k := absurd h_k (Nat.not_lt_zero _)
  consumed _ h_k := absurd h_k (Nat.not_lt_zero _)
  fresh _ _ := ⟨rfl, rfl⟩
  once _ := Nat.zero_le 1
  wire _ h_data := absurd rfl h_data
  size _ _ _ := .inl rfl
  total := ⟨Nat.zero_le _, Nat.zero_le _⟩
  ended _ h_event := by cases h_event

/-- Only the part that is being read has a stream that is not closed. -/
theorem index_eq (h : PartsInv rt m bytes tr s) {k : Nat} {st : PartStream}
    (h_get : s.streams.get? k = some st) (h_open : st.phase ≠ .closed) : k = s.atPart := by
  by_cases h_lt : k < s.atPart
  · obtain ⟨st', h_get', h_closed⟩ := h.earlier k h_lt
    rw [h_get] at h_get'
    exact absurd (Option.some.inj h_get' ▸ h_closed) h_open
  · by_cases h_gt : s.atPart < k
    · rw [h.later k h_gt] at h_get
      cases h_get
    · omega

/-- Events that hand out nothing and start no part. -/
theorem of_trace {tr' : PartsTrace} (h : PartsInv rt m bytes tr s)
    (h_data : ∀ k, delivered k tr' = delivered k tr)
    (h_total : deliveredTotal tr' = deliveredTotal tr)
    (h_started : ∀ k, startedCount k tr' = startedCount k tr)
    (h_ended : ∀ k, .ended k ∈ partEvents tr' → k < s.atPart) : PartsInv rt m bytes tr' s where
  here := h.here
  active := by simpa only [h_data] using h.active
  later := h.later
  earlier := h.earlier
  consumed k h_k := by
    obtain ⟨spec, p, h_cons⟩ := h.consumed k h_k
    exact ⟨spec, p, h_cons.declared, h_cons.wire, h_cons.named, (h_data k).symm ▸ h_cons.body,
      h_cons.closed, h_cons.size⟩
  fresh := by simpa only [h_data, h_started] using h.fresh
  once := by simpa only [h_started] using h.once
  wire k h_k := by
    rw [h_data] at h_k
    obtain ⟨spec, p, h_wire⟩ := h.wire k h_k
    exact ⟨spec, p, h_wire.declared, h_wire.wire, h_wire.named, (h_data k).symm ▸ h_wire.body⟩
  size := by simpa only [h_data] using h.size
  total := by simpa only [h_total] using h.total
  ended := h_ended

/-- Quiet events. -/
theorem append_quiet (h : PartsInv rt m bytes tr s) (l : PartsLabel) {events : List PartEvent}
    (h_quiet : ∀ e ∈ events, e.quiet = true) : PartsInv rt m bytes (tr ++ [(l, events)]) s := by
  refine h.of_trace (fun k => ?_) ?_ (fun k => ?_) fun k h_ended => ?_
  · rw [delivered_snoc, quiet_dataOf h_quiet, List.append_nil]
  · rw [deliveredTotal_snoc, quiet_data h_quiet]
    rfl
  · rw [startedCount_snoc, quiet_started h_quiet]
    rfl
  · rw [partEvents_snoc] at h_ended
    exact h.ended k ((List.mem_append.mp h_ended).resolve_right (quiet_ended h_quiet k))

/-- A part that has been read through ends. -/
theorem append_ended (h : PartsInv rt m bytes tr s) (l : PartsLabel) {k : Nat}
    (h_k : k < s.atPart) : PartsInv rt m bytes (tr ++ [(l, [.ended k])]) s := by
  refine h.of_trace (fun k' => ?_) ?_ (fun k' => ?_) fun k' h_ended => ?_
  · simp [PartEvent.dataOf]
  · simp [PartEvent.data]
  · simp
  · rw [partEvents_snoc] at h_ended
    obtain h_old | h_new := List.mem_append.mp h_ended
    · exact h.ended k' h_old
    · obtain rfl : k' = k := PartEvent.ended.inj (List.mem_singleton.mp h_new)
      exact h_k

/-- The part that is being read moves on, or is closed for good. -/
theorem update (h : PartsInv rt m bytes tr s) (c : ByteCursor) {n : Nat} (st : PartStream)
    (h_n : s.seenTotal ≤ n)
    (h_at : st.phase ≠ .closed → ∃ spec t, m.declared[s.atPart]? = some spec ∧
      wireTail m.boundary bytes s.atPart = some t ∧
      PartAt rt m.boundary spec t (delivered s.atPart tr) c st.phase ∧
      st.seen = (delivered s.atPart tr).length) :
    PartsInv rt m bytes tr
      { s with cursor := c, seenTotal := n, streams := s.streams.set s.atPart st } where
  here h_get := by
    rw [Table.get?_set_self] at h_get
    cases h_get
  active st' h_get h_open := by
    rw [Table.get?_set_self] at h_get
    obtain rfl := Option.some.inj h_get
    exact h_at h_open
  later k h_k := by
    rw [Table.get?_set_of_ne _ _ (Nat.ne_of_gt h_k)]
    exact h.later k h_k
  earlier k h_k := by
    rw [Table.get?_set_of_ne _ _ (Nat.ne_of_lt h_k)]
    exact h.earlier k h_k
  consumed := h.consumed
  fresh k h_get := by
    obtain rfl | h_ne := eq_or_ne k s.atPart
    · rw [Table.get?_set_self] at h_get
      cases h_get
    · rw [Table.get?_set_of_ne _ _ h_ne] at h_get
      exact h.fresh k h_get
  once := h.once
  wire := h.wire
  size := h.size
  total := ⟨h.total.1.trans h_n, h.total.2⟩
  ended := h.ended

/-- The handler starts the next part. -/
theorem started (h : PartsInv rt m bytes tr s) (l : PartsLabel) {spec : Json}
    (h_spec : m.declared[s.atPart]? = some spec) (h_get : s.streams.get? s.atPart = none) :
    PartsInv rt m bytes (tr ++ [(l, [.started s.atPart])])
      { s with streams := s.streams.set s.atPart ⟨.suspended .start, 0, false⟩ } := by
  obtain ⟨h_none, h_zero⟩ := h.fresh s.atPart h_get
  have h_moved := h.update s.cursor ⟨.suspended .start, 0, false⟩ (Nat.le_refl _)
    fun _ => ⟨spec, s.cursor.remaining, h_spec, h.here h_get, ⟨h_none, rfl⟩, by rw [h_none]; rfl⟩
  have h_data : ∀ k, delivered k (tr ++ [(l, [.started s.atPart])]) = delivered k tr := fun k => by
    simp [PartEvent.dataOf]
  have h_total : deliveredTotal (tr ++ [(l, [.started s.atPart])]) = deliveredTotal tr := by
    simp [PartEvent.data]
  refine ⟨h_moved.here, ?_, h_moved.later, h_moved.earlier, fun k h_k => ?_, fun k h_k => ?_,
    fun k => ?_, fun k h_k => ?_, ?_, ?_, fun k h_ended => ?_⟩
  · simpa only [h_data] using h_moved.active
  · obtain ⟨spec, p, h_cons⟩ := h.consumed k h_k
    exact ⟨spec, p, h_cons.declared, h_cons.wire, h_cons.named, (h_data k).symm ▸ h_cons.body,
      h_cons.closed, h_cons.size⟩
  · rw [h_data, startedCount_snoc]
    have h_ne : k ≠ s.atPart := by
      rintro rfl
      rw [Table.get?_set_self] at h_k
      cases h_k
    obtain ⟨h_empty, h_count⟩ := h_moved.fresh k h_k
    refine ⟨h_empty, ?_⟩
    rw [h_count, Nat.zero_add, List.count_singleton]
    simp [h_ne.symm]
  · rw [startedCount_snoc, List.count_singleton]
    by_cases h_eq : k = s.atPart
    · subst h_eq
      simp [h_zero]
    · have h_ne : (PartEvent.started s.atPart == PartEvent.started k) = false := by
        simp [Ne.symm h_eq]
      rw [h_ne]
      exact h.once k
  · rw [h_data] at h_k
    obtain ⟨spec, p, h_wire⟩ := h.wire k h_k
    exact ⟨spec, p, h_wire.declared, h_wire.wire, h_wire.named, (h_data k).symm ▸ h_wire.body⟩
  · simpa only [h_data] using h.size
  · simpa only [h_total] using h.total
  · rw [partEvents_snoc] at h_ended
    obtain h_old | h_new := List.mem_append.mp h_ended
    · exact h.ended k h_old
    · simp at h_new

/-- A chunk is enqueued. -/
theorem chunk (h : PartsInv rt m bytes tr s) (l : PartsLabel) {spec : Json} {t chunk : Bytes}
    {c : ByteCursor} {resume : Resume} {st : PartStream}
    (h_spec : m.declared[s.atPart]? = some spec)
    (h_tail : wireTail m.boundary bytes s.atPart = some t) (h_chunk : chunk ≠ [])
    (h_at : PartAt rt m.boundary spec t (delivered s.atPart tr ++ chunk) c (.suspended resume))
    (h_seen : st.seen = (delivered s.atPart tr).length + chunk.length)
    (h_size : rt.larger st.seen (spec.member "size") = false)
    (h_total : s.seenTotal + chunk.length ≤ m.maxBytes) (h_phase : st.phase = .suspended resume) :
    PartsInv rt m bytes (tr ++ [(l, [.chunk s.atPart chunk])])
      { s with
        cursor := c
        seenTotal := s.seenTotal + chunk.length
        streams := s.streams.set s.atPart st } := by
  have h_here : delivered s.atPart (tr ++ [(l, [.chunk s.atPart chunk])]) =
      delivered s.atPart tr ++ chunk := by
    simp [PartEvent.dataOf]
  have h_other : ∀ k, k ≠ s.atPart →
      delivered k (tr ++ [(l, [.chunk s.atPart chunk])]) = delivered k tr := fun k h_ne => by
    simp [PartEvent.dataOf, h_ne.symm]
  have h_started : ∀ k, startedCount k (tr ++ [(l, [.chunk s.atPart chunk])]) =
      startedCount k tr := fun k => by simp
  -- the generator stands after a chunk, so the part has been opened
  have h_wire : ∃ p, FromWire rt m bytes (tr ++ [(l, [.chunk s.atPart chunk])]) s.atPart spec p := by
    have h_resume : resume = .afterLast ∨ resume = .afterChunk := by
      cases resume with
      | start => exact absurd (List.append_eq_nil_iff.mp h_at.1).2 h_chunk
      | afterLast => exact .inl rfl
      | afterChunk => exact .inr rfl
    obtain ⟨p, h_part, h_named, h_prefix⟩ := h_at.prefix (by simpa using h_resume)
    exact ⟨p, h_spec, (wirePart_succ h_tail).trans h_part, h_named, h_here.symm ▸ h_prefix⟩
  refine ⟨fun h_get => ?_, fun st' h_get _ => ?_, fun k h_k => ?_, fun k h_k => ?_, fun k h_k => ?_,
    fun k h_get => ?_, fun k => ?_, fun k h_k => ?_, fun k spec' h_spec' => ?_, ?_,
    fun k h_ended => ?_⟩
  · rw [Table.get?_set_self] at h_get
    cases h_get
  · rw [Table.get?_set_self] at h_get
    obtain rfl := Option.some.inj h_get
    refine ⟨spec, t, h_spec, h_tail, ?_, ?_⟩
    · rw [h_here, h_phase]
      exact h_at
    · rw [h_here, h_seen, List.length_append]
  · rw [Table.get?_set_of_ne _ _ (Nat.ne_of_gt h_k)]
    exact h.later k h_k
  · rw [Table.get?_set_of_ne _ _ (Nat.ne_of_lt h_k)]
    exact h.earlier k h_k
  · obtain ⟨spec', p, h_cons⟩ := h.consumed k h_k
    exact ⟨spec', p, h_cons.declared, h_cons.wire, h_cons.named,
      (h_other k (Nat.ne_of_lt h_k)).symm ▸ h_cons.body, h_cons.closed, h_cons.size⟩
  · obtain rfl | h_ne := eq_or_ne k s.atPart
    · rw [Table.get?_set_self] at h_get
      cases h_get
    · rw [Table.get?_set_of_ne _ _ h_ne] at h_get
      rw [h_other k h_ne, h_started]
      exact h.fresh k h_get
  · rw [h_started]
    exact h.once k
  · obtain rfl | h_ne := eq_or_ne k s.atPart
    · exact ⟨spec, h_wire⟩
    · rw [h_other k h_ne] at h_k
      obtain ⟨spec', p, h_from⟩ := h.wire k h_k
      exact ⟨spec', p, h_from.declared, h_from.wire, h_from.named,
        (h_other k h_ne).symm ▸ h_from.body⟩
  · obtain rfl | h_ne := eq_or_ne k s.atPart
    · rw [h_spec] at h_spec'
      obtain rfl := Option.some.inj h_spec'
      rw [h_here, List.length_append, ← h_seen]
      exact .inr h_size
    · rw [h_other k h_ne]
      exact h.size k spec' h_spec'
  · have h_sum : deliveredTotal (tr ++ [(l, [.chunk s.atPart chunk])]) =
        deliveredTotal tr + chunk.length := by
      simp [PartEvent.data]
    rw [h_sum]
    have h_le := h.total.1
    exact ⟨Nat.add_le_add_right h_le _, (Nat.add_le_add_right h_le _).trans h_total⟩
  · rw [partEvents_snoc] at h_ended
    obtain h_old | h_new := List.mem_append.mp h_ended
    · exact h.ended k h_old
    · simp at h_new

/-- The part has been read through. -/
theorem advance (h : PartsInv rt m bytes tr s) {spec : Json} {t : Bytes} {c : ByteCursor}
    (st : PartStream) (finished : Bool) (h_spec : m.declared[s.atPart]? = some spec)
    (h_tail : wireTail m.boundary bytes s.atPart = some t)
    (h_complete : Complete rt m.boundary spec t (delivered s.atPart tr) c)
    (h_size : sameNumber (delivered s.atPart tr).length (spec.member "size") = true)
    (h_phase : st.phase = .closed) :
    PartsInv rt m bytes tr
      { s with
        cursor := c
        atPart := s.atPart + 1
        finished
        streams := s.streams.set s.atPart st } := by
  obtain ⟨p, h_part, h_named, h_body, h_rest⟩ := h_complete.wirePart
  have h_wire := (wirePart_succ h_tail).trans h_part
  have h_later : (s.streams.set s.atPart st).get? (s.atPart + 1) = none := by
    rw [Table.get?_set_of_ne _ _ (Nat.succ_ne_self _)]
    exact h.later _ (Nat.lt_succ_self _)
  refine ⟨fun _ => ?_, fun st' h_get => ?_, fun k h_k => ?_, fun k h_k => ?_, fun k h_k => ?_,
    fun k h_get => ?_, h.once, h.wire, h.size, h.total, fun k h_ended => ?_⟩
  · show wireTail m.boundary bytes (s.atPart + 1) = _
    rw [wireTail, h_wire, Option.bind_some, h_rest]
  · rw [h_later] at h_get
    cases h_get
  · have h_k' : s.atPart + 1 < k := h_k
    rw [Table.get?_set_of_ne _ _ (by omega)]
    exact h.later k (by omega)
  · obtain rfl | h_ne := eq_or_ne k s.atPart
    · exact ⟨st, Table.get?_set_self _ _ _, h_phase⟩
    · rw [Table.get?_set_of_ne _ _ h_ne]
      exact h.earlier k (lt_of_le_of_ne (Nat.lt_succ_iff.mp h_k) h_ne)
  · obtain rfl | h_ne := eq_or_ne k s.atPart
    · exact ⟨spec, p, h_spec, h_wire, h_named, h_body, by rw [h_rest]; simp, h_body.symm ▸ h_size⟩
    · exact h.consumed k (lt_of_le_of_ne (Nat.lt_succ_iff.mp h_k) h_ne)
  · obtain rfl | h_ne := eq_or_ne k s.atPart
    · rw [Table.get?_set_self] at h_get
      cases h_get
    · rw [Table.get?_set_of_ne _ _ h_ne] at h_get
      exact h.fresh k h_get
  · exact (h.ended k h_ended).trans (Nat.lt_succ_self _)

/-- The generator throws. -/
theorem fail (h : PartsInv rt m bytes tr s) (l : PartsLabel) (c : ByteCursor) {n : Nat}
    (st : PartStream) (message : String) (h_n : s.seenTotal ≤ n) :
    let out := { s with cursor := c, seenTotal := n }.fail s.atPart st message
    PartsInv rt m bytes (tr ++ [(l, out.2)]) out.1 := by
  have h_closed := h.update c { st with phase := .closed } h_n fun h_open => absurd rfl h_open
  refine h_closed.append_quiet l fun e h_e => ?_
  simp only [PartsState.fail] at h_e
  split at h_e
  · cases h_e
  · obtain rfl := List.mem_singleton.mp h_e
    rfl

/-- **What stops a generator is taken up.** -/
theorem settle (h : PartsInv rt m bytes tr s) (l : PartsLabel) {spec : Json} {t : Bytes}
    {c : ByteCursor} {st : PartStream} {result : PartResult}
    (h_spec : m.declared[s.atPart]? = some spec)
    (h_tail : wireTail m.boundary bytes s.atPart = some t)
    (h_seen : st.seen = (delivered s.atPart tr).length)
    (h_stop : PartStop rt m.boundary spec t (delivered s.atPart tr) c result) :
    let out := s.settle rt m s.atPart spec st result
    PartsInv rt m bytes (tr ++ [(l, out.2)]) out.1 := by
  cases result with
  | waits read c' =>
    have h_moved := h.update c' { st with phase := .reading read } (Nat.le_refl _)
      fun _ => ⟨spec, t, h_spec, h_tail, h_stop.2, h_seen⟩
    show PartsInv rt m bytes (tr ++ [(l, [])]) _
    exact h_moved.append_quiet l (by simp)
  | fails message c' => exact h.fail l c' st message (Nat.le_refl _)
  | yields chunk resume c' =>
    simp only [PartsState.settle]
    split
    · exact h.fail l c' _ _ (Nat.le_add_right _ _)
    · next h_size =>
      split
      · exact h.fail l c' _ _ (Nat.le_add_right _ _)
      · next h_total =>
        split
        · have h_closed := h.update c'
            { st with phase := .closed, seen := st.seen + chunk.length }
            (Nat.le_add_right s.seenTotal chunk.length) fun h_open => absurd rfl h_open
          refine h_closed.append_quiet l fun e h_e => ?_
          obtain rfl := List.mem_singleton.mp h_e
          rfl
        · exact h.chunk l h_spec h_tail h_stop.2.1 h_stop.2.2 (by rw [← h_seen])
            (Bool.eq_false_iff.mpr h_size) (Nat.le_of_not_lt h_total) rfl
  | returns c' =>
    simp only [PartsState.settle]
    split
    · next h_size =>
      have h_advanced := h.advance { st with phase := .closed }
        (s.finished || s.atPart + 1 = m.declared.length) h_spec h_tail h_stop.2
        (h_seen ▸ h_size) rfl
      split
      · exact h_advanced.append_quiet l (by simp)
      · exact h_advanced.append_ended l (Nat.lt_succ_self _)
    · exact h.fail l c' _ _ (Nat.le_refl _)

end PartsInv

/-! ### The condition -/

/-- A step that opens a part whose declared name is `null` where the body ends. -/
def opensNullAtEnd (m : RpcMultipart) (s : PartsState) : PartsLabel → Bool
  | .pull index =>
    match m.declared[index]?, s.streams.get? index with
    | some spec, some st => st.phase = .suspended .start && (spec.member "name" matches some .null)
        && s.cursor.buf.take 2 = DASH_DASH
    | _, _ => false
  | .read index =>
    match m.declared[index]?, s.streams.get? index, s.cursor.fill with
    | some spec, some st, .ok (true, c) => st.phase = .reading (.opening .marker) &&
        (spec.member "name" matches some .null) && c.buf.take 2 = DASH_DASH
    | _, _, _ => false
  | _ => false

section Steps

variable {rt : Runtime} {m : RpcMultipart} {bytes : Bytes} {tr : PartsTrace} {s s' : PartsState}
  {events : List PartEvent}

theorem PartsInv.pull (h : PartsInv rt m bytes tr s) {index : Nat}
    (h_ok : opensNullAtEnd m s (.pull index) = false)
    (hs : s.step rt m (.pull index) = some (s', events)) :
    PartsInv rt m bytes (tr ++ [(.pull index, events)]) s' := by
  obtain ⟨spec, h_spec, hs⟩ := Option.bind_eq_some_iff.mp hs
  obtain ⟨st, h_get, hs⟩ := Option.bind_eq_some_iff.mp hs
  split at hs
  · next resume h_phase =>
    have h_open : st.phase ≠ .closed := by simp [h_phase]
    obtain rfl := h.index_eq h_get h_open
    obtain ⟨spec', t, h_spec', h_tail, h_at, h_seen⟩ := h.active st h_get h_open
    rw [h_spec] at h_spec'
    obtain rfl := Option.some.inj h_spec'
    rw [h_phase] at h_at
    have h_stop := next_spec h_at fun h_start h_end h_null => by
      simp [opensNullAtEnd, h_spec, h_get, h_phase, h_start, h_end, h_null] at h_ok
    have h_settled := h.settle (.pull s.atPart) h_spec h_tail h_seen h_stop
    rwa [Option.some.inj hs] at h_settled
  · cases hs

theorem PartsInv.read (h : PartsInv rt m bytes tr s) {index : Nat}
    (h_ok : opensNullAtEnd m s (.read index) = false)
    (hs : s.step rt m (.read index) = some (s', events)) :
    PartsInv rt m bytes (tr ++ [(.read index, events)]) s' := by
  obtain ⟨spec, h_spec, hs⟩ := Option.bind_eq_some_iff.mp hs
  obtain ⟨st, h_get, hs⟩ := Option.bind_eq_some_iff.mp hs
  split at hs
  · next read h_phase =>
    have h_open : st.phase ≠ .closed := by simp [h_phase]
    obtain rfl := h.index_eq h_get h_open
    obtain ⟨spec', t, h_spec', h_tail, h_at, h_seen⟩ := h.active st h_get h_open
    rw [h_spec] at h_spec'
    obtain rfl := Option.some.inj h_spec'
    rw [h_phase] at h_at
    have h_read := Option.some.inj hs
    unfold PartsState.read at h_read
    split at h_read
    · have h_failed := h.fail (.read s.atPart) s.cursor st ‹String› (Nat.le_refl s.seenTotal)
      rwa [h_read] at h_failed
    · next c h_fill =>
      have h_stop := goOn_spec (h_at.fill h_fill) fun h_marker h_end h_null => by
        simp [opensNullAtEnd, h_spec, h_get, h_fill, h_phase, h_marker, h_end, h_null] at h_ok
      have h_settled := h.settle (.read s.atPart) h_spec h_tail h_seen h_stop
      rwa [h_read] at h_settled
    · next c h_fill =>
      have h_failed := h.fail (.read s.atPart) c st read.truncated (Nat.le_refl s.seenTotal)
      rwa [h_read] at h_failed
  · cases hs

theorem PartsInv.start (h : PartsInv rt m bytes tr s) {index : Nat}
    (hs : s.step rt m (.start index) = some (s', events)) :
    PartsInv rt m bytes (tr ++ [(.start index, events)]) s' := by
  obtain ⟨spec, h_spec, hs⟩ := Option.map_eq_some_iff.mp hs
  simp only [PartsState.start] at hs
  split at hs
  · obtain ⟨rfl, rfl⟩ := Prod.mk.inj hs
    exact h.append_quiet _ (by simp [PartEvent.quiet])
  · next h_has =>
    split at hs
    · obtain ⟨rfl, rfl⟩ := Prod.mk.inj hs
      exact h.append_quiet _ (by simp [PartEvent.quiet])
    · next h_index =>
      obtain rfl := not_not.mp h_index
      obtain ⟨rfl, rfl⟩ := Prod.mk.inj hs
      have h_get : s.streams.get? s.atPart = none := by
        simpa [Table.has] using h_has
      exact h.started _ h_spec h_get

theorem PartsInv.cancel (h : PartsInv rt m bytes tr s) {index : Nat}
    (hs : s.step rt m (.cancel index) = some (s', events)) :
    PartsInv rt m bytes (tr ++ [(.cancel index, events)]) s' := by
  obtain ⟨st, h_get, hs⟩ := Option.bind_eq_some_iff.mp hs
  split at hs
  · cases hs
  · next h_open =>
    rw [not_or] at h_open
    obtain rfl := h.index_eq h_get h_open.2
    obtain ⟨rfl, rfl⟩ := Prod.mk.inj (Option.some.inj hs)
    obtain ⟨spec, t, h_spec, h_tail, h_at, h_seen⟩ := h.active st h_get h_open.2
    refine (h.update s.cursor _ (Nat.le_refl _) fun h_phase => ?_).append_quiet _ (by simp)
    refine ⟨spec, t, h_spec, h_tail, ?_, h_seen⟩
    dsimp only at h_phase ⊢
    split at h_phase
    · exact absurd rfl h_phase
    · exact h_at

theorem PartsInv.drain (h : PartsInv rt m bytes tr s)
    (hs : s.step rt m .drain = some (s', events)) :
    PartsInv rt m bytes (tr ++ [(.drain, events)]) s' := by
  obtain ⟨rfl, rfl⟩ := Prod.mk.inj (Option.some.inj hs)
  refine PartsInv.append_quiet ?_ _ (by simp)
  unfold PartsState.drain
  split
  · exact h
  · refine { h with active := fun st h_get h_open => ?_ }
    obtain ⟨spec, t, h_spec, h_tail, h_at, h_seen⟩ := h.active st h_get h_open
    exact ⟨spec, t, h_spec, h_tail, h_at.congr rfl rfl, h_seen⟩

end Steps

/-! ### Runs -/

section Runs

variable {rt : Runtime} {m : RpcMultipart} {bytes : Bytes} {tr : PartsTrace} {s : PartsState}

/-- **Run lemma.** -/
theorem PartsInv.of_run (h_start : wireTail m.boundary bytes 0 = some m.cursor.remaining)
    (h : (partsMachine rt m).RunWhen (fun s l => opensNullAtEnd m s l = false) tr s) :
    PartsInv rt m bytes tr s := by
  refine h.history (PartsInv.init h_start) fun tr s l s' events _ h_inv h_ok hs => ?_
  cases l with
  | start index => exact h_inv.start hs
  | pull index => exact h_inv.pull h_ok hs
  | read index => exact h_inv.read h_ok hs
  | cancel index => exact h_inv.cancel hs
  | drain => exact h_inv.drain hs

/-- **What holds of a request**, whatever its body and whatever the handler does. -/
structure PartsSafe (rt : Runtime) (m : RpcMultipart) (bytes : Bytes) (tr : PartsTrace)
    (s : PartsState) : Prop where
  total : deliveredTotal tr ≤ m.maxBytes
  /-- A part whose declared size is a number hands out no more than that, -/
  size : ∀ k spec n, m.declared[k]? = some spec → spec.member "size" = some (.num n) →
    delivered k tr = [] ∨ n.exceededBy (delivered k tr).length = false
  /-- and its stream ends only after exactly that much. -/
  ended : ∀ k, .ended k ∈ partEvents tr → ∃ spec, m.declared[k]? = some spec ∧
    spec.member "size" = some (.num (.finite (delivered k tr).length))
  /-- What a part hands out is a prefix of the body of its part on the wire, under its name. -/
  wire : ∀ k, delivered k tr ≠ [] → ∃ spec p, FromWire rt m bytes tr k spec p
  once : ∀ k, startedCount k tr ≤ 1
  /-- A part is started when each part before it has been read through, and not again. -/
  order : ∀ k s' events, s.step rt m (.start k) = some (s', events) → .started k ∈ events →
    startedCount k tr = 0 ∧ ∀ j < k, ∃ spec p, Consumed rt m bytes tr j spec p

theorem sameNumber_iff {n : Nat} {v : Option Json} :
    sameNumber n v = true ↔ v = some (.num (.finite n)) := by
  unfold sameNumber
  split
  · next a =>
    rw [decide_eq_true_eq]
    exact ⟨fun h => by rw [h], fun h => by simpa using h⟩
  · next h_other =>
    constructor
    · intro h
      cases h
    · intro h
      exact absurd h (h_other _)

theorem PartsInv.safe (h : PartsInv rt m bytes tr s) : PartsSafe rt m bytes tr s where
  total := h.total.2
  size k spec n h_spec h_size := by
    have h_larger := h.size k spec h_spec
    rw [Runtime.larger, h_size] at h_larger
    exact h_larger
  ended k h_ended := by
    obtain ⟨spec, p, h_cons⟩ := h.consumed k (h.ended k h_ended)
    have h_size := (sameNumber_iff).mp h_cons.size
    rw [h_cons.body] at h_size
    exact ⟨spec, h_cons.declared, h_size⟩
  wire := h.wire
  once := h.once
  order k s' events hs h_event := by
    obtain ⟨spec, -, hs⟩ := Option.map_eq_some_iff.mp hs
    simp only [PartsState.start] at hs
    split at hs
    · obtain ⟨-, rfl⟩ := Prod.mk.inj hs
      simp at h_event
    · next h_has =>
      split at hs
      · obtain ⟨-, rfl⟩ := Prod.mk.inj hs
        simp at h_event
      · next h_index =>
        obtain rfl := not_not.mp h_index
        have h_get : s.streams.get? s.atPart = none := by
          simpa [Table.has] using h_has
        exact ⟨(h.fresh _ h_get).2, h.consumed⟩

end Runs

/-- **Main result.** Unless a part whose declared name is `null` is opened where the body ends,
every request that `parseRpcMultipart` accepts is safe under every schedule. -/
theorem parts_safe {rt : Runtime} {contentType : Option String} {body : RequestBody}
    {maxBytes : Nat} {m : RpcMultipart} {tr : PartsTrace} {s : PartsState}
    (h_parse : parseRpcMultipart rt contentType (some body) maxBytes = .ok m)
    (h : (partsMachine rt m).RunWhen (fun s l => opensNullAtEnd m s l = false) tr s) :
    m.maxBytes = maxBytes ∧ PartsSafe rt m body.chunks.flatten tr s := by
  obtain ⟨h_start, h_max⟩ := parseRpcMultipart_spec maxBytes h_parse
  exact ⟨h_max, (PartsInv.of_run h_start h).safe⟩

/-! ### Two requests -/

/-- The meta part of a request with one binary part of 5 bytes. -/
def sampleText (name : String) : String :=
  "\x7b\"fields\":\x7b\x7d,\"binary\":[\x7b\"name\":" ++ name ++ ",\"size\":5\x7d]\x7d"

def sampleMeta (name : Json) : Json :=
  .obj [("fields", .obj []),
    ("binary", .arr [.obj [("name", name), ("size", .num (.finite 5))]])]

/-- A runtime that knows the JSON texts of the two requests. -/
def sampleRuntime : Runtime where
  decodeLossy _ := ""
  parseJson text :=
    if text = sampleText "\"f\"" then some (sampleMeta (.str "f"))
    else if text = sampleText "null" then some (sampleMeta .null)
    else none
  toNumber _ := .nan
  toText _ := "null"

def sampleType : String := "multipart/form-data; boundary=BxB"

def samplePart (name : String) : String :=
  "--BxB\r\nContent-Disposition: form-data; name=" ++ name ++ "\r\n\r\n"

/-- The part `f` follows, cut within its delimiter. -/
def namedBody : RequestBody :=
  ⟨[utf8 (samplePart "\"__meta\"" ++ sampleText "\"f\"" ++ "\r\n"),
    utf8 (samplePart "\"f\"" ++ "hello\r\n--B"), utf8 "xB--\r\n"], none⟩

/-- The body ends after its meta part, and an epilogue follows. -/
def epilogueBody : RequestBody :=
  ⟨[utf8 (samplePart "\"__meta\"" ++ sampleText "null" ++ "\r\n--BxB--hello\r\n--BxB")], none⟩

theorem toOption_eq_some {α : Type} {e : Except String α} {a : α} (h : e.toOption = some a) :
    e = .ok a := by
  cases e with
  | error message => cases h
  | ok b => rw [Option.some.inj (show some b = some a from h)]

theorem parts_safe_named : ∃ m tr s,
    parseRpcMultipart sampleRuntime (some sampleType) (some namedBody) 100 = .ok m ∧
    (partsMachine sampleRuntime m).Run tr s ∧ delivered 0 tr = utf8 "hello" ∧
    PartsSafe sampleRuntime m namedBody.chunks.flatten tr s := by
  obtain ⟨m, h_m, h_exec⟩ := Option.bind_eq_some_iff.mp
    (show ((parseRpcMultipart sampleRuntime (some sampleType) (some namedBody) 100).toOption.bind
      fun m => ((partsMachine sampleRuntime m).exec (partsMachine sampleRuntime m).init
        [.start 0, .pull 0, .pull 0, .read 0, .pull 0]).map fun q =>
          (delivered 0 q.1, (partsMachine sampleRuntime m).checks
            (fun s l => opensNullAtEnd m s l = false) (partsMachine sampleRuntime m).init
            [.start 0, .pull 0, .pull 0, .read 0, .pull 0])) =
      some (utf8 "hello", true) by decide +kernel)
  obtain ⟨⟨tr, s⟩, h_exec, h_read⟩ := Option.map_eq_some_iff.mp h_exec
  obtain ⟨h_delivered, h_ok⟩ := Prod.mk.inj h_read
  have h_parse := toOption_eq_some h_m
  have h_run := Machine.runWhen_of_exec _ h_exec h_ok
  exact ⟨m, tr, s, h_parse, h_run.run, h_delivered, (parts_safe h_parse h_run).2⟩

/-- **An epilogue is delivered**: the request declares a part with the name `null`, no part
follows the meta part, and the stream hands out what stands after the end of the body. -/
theorem epilogue_delivered : ∃ m tr s,
    parseRpcMultipart sampleRuntime (some sampleType) (some epilogueBody) 100 = .ok m ∧
    (partsMachine sampleRuntime m).Run tr s ∧ delivered 0 tr = utf8 "hello" ∧
    .ended 0 ∈ partEvents tr ∧ wirePart m.boundary epilogueBody.chunks.flatten 1 = none ∧
    ¬PartsSafe sampleRuntime m epilogueBody.chunks.flatten tr s := by
  obtain ⟨m, h_m, h_exec⟩ := Option.bind_eq_some_iff.mp
    (show ((parseRpcMultipart sampleRuntime (some sampleType) (some epilogueBody)
      100).toOption.bind fun m => ((partsMachine sampleRuntime m).exec
        (partsMachine sampleRuntime m).init [.start 0, .pull 0, .pull 0]).map fun q =>
          (delivered 0 q.1, decide (PartEvent.ended 0 ∈ partEvents q.1),
            wirePart m.boundary epilogueBody.chunks.flatten 1)) =
      some (utf8 "hello", true, none) by decide +kernel)
  obtain ⟨⟨tr, s⟩, h_exec, h_read⟩ := Option.map_eq_some_iff.mp h_exec
  obtain ⟨h_delivered, h_read⟩ := Prod.mk.inj h_read
  obtain ⟨h_ended, h_none⟩ := Prod.mk.inj h_read
  refine ⟨m, tr, s, toOption_eq_some h_m, Machine.run_of_exec _ h_exec, h_delivered,
    of_decide_eq_true h_ended, h_none, fun h_safe => ?_⟩
  obtain ⟨spec, p, h_wire⟩ := h_safe.wire 0 (by rw [h_delivered]; decide)
  rw [h_wire.wire] at h_none
  cases h_none

end ServerCentral.Http
