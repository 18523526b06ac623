import ServerCentral.Agent.ExecStreams

/-!
# Requests settle once, with their own reply, and streams arrive in order

A connection can drop with chunks still under way, and a settled request has no sink, so a
callback sees the chunks sent for its request only up to some point of the wire
(`chunk_lost`). When the stream returns, that point is the reply (`ReturnedExact`), and when
nobody else sends under the request's id, no chunk was sent after it.
-/

open Framework

namespace ServerCentral.Agent

/-- Nothing of a request changes. -/
structure Untouched (s s' : ProtocolState) (o : ProtocolOut) (id : String) : Prop where
  pending : s'.pending.get? id = s.pending.get? id
  timers : s'.timers.get? id = s.timers.get? id
  execStreams : s'.execStreams.get? id = s.execStreams.get? id
  outputs : s'.outputs.get? id = s.outputs.get? id
  events : ∀ e ∈ o.events, e.requestId ≠ some id

/-- Every pending request is rejected, and none is left. -/
structure Disconnected (s s' : ProtocolState) (o : ProtocolOut) : Prop where
  rejected : ∀ id kind, s.pending.get? id = some kind →
    .rejected id "Node disconnected" ∈ o.events
  pending : ∀ id, s'.pending.get? id = none
  timers : ∀ id, s'.timers.get? id = none
  execStreams : ∀ id, s'.execStreams.get? id = none

/-- **What holds after every run** of a connection. -/
structure ProtocolSafe (tr : ProtocolTrace) (s : ProtocolState) : Prop where
  /-- A promise settles at most once. -/
  once : ∀ id, settled id tr ≤ 1
  /-- An issued request is pending or has settled. -/
  accounted : ∀ id, Issued id tr → settled id tr + s.open? id = 1
  /-- It resolves with a reply that carries its id, -/
  own : ∀ id msg, .resolved id msg ∈ eventsOf tr → Replies id msg ∧ msg ∈ deliveredMsgs tr
  /-- and is rejected by an error that carries its id, its timer or the disconnect. -/
  refused : ∀ id message, .rejected id message ∈ eventsOf tr → Refusal tr id message
  disconnects : ∀ s' o, s.step .disconnect = some (s', o) → Disconnected s s' o
  /-- A message changes nothing of a request that has another id or is not pending. -/
  foreign : ∀ s' o msg, s.step .deliver = some (s', o) → o.delivered = [msg] →
    ∀ id, msg.requestId ≠ some id ∨ s.pending.get? id = none → Untouched s s' o id
  /-- The wire delivers in order, -/
  wire : deliveredMsgs tr <+: sentMsgs tr
  /-- a callback is called with delivered chunks of its request, in order, -/
  seen : ∀ id, received id tr <+: chunksOf id (deliveredMsgs tr)
  /-- with all of them while the request is pending, -/
  live : ∀ id, s.pending.get? id = some .streamExec →
    received id tr = chunksOf id (deliveredMsgs tr)
  /-- with all that were sent before the reply once `streamExec` has returned, -/
  returned : ∀ id stdout stderr code, .returned id stdout stderr code ∈ eventsOf tr →
    ∃ before msg after, ReturnedExact tr id stdout stderr code before msg after
  /-- and then with all that were ever sent when only `runExecStream` sends under the id. -/
  complete : ∀ id stdout stderr code, .returned id stdout stderr code ∈ eventsOf tr →
    Uninjected id tr → received id tr = chunksOf id (sentMsgs tr) ∧
      stdout = "".intercalate (texts .stdout (chunksOf id (sentMsgs tr))) ∧
      stderr = "".intercalate (texts .stderr (chunksOf id (sentMsgs tr)))

/-! ### Steps -/

section Steps

variable {s s' : ProtocolState} {o : ProtocolOut}

theorem disconnected_step (h_inv : RequestsInv s) (hs : s.step .disconnect = some (s', o)) :
    Disconnected s s' o := by
  have h_step : ProtocolShape s s' o ∧ s' = s.disconnect.1 ∧ o.events = s.disconnect.2 := by
    refine ⟨ProtocolState.step_shape h_inv.timers hs, ?_⟩
    simp only [ProtocolState.step] at hs
    split at hs
    · obtain ⟨rfl, rfl⟩ := Prod.mk.inj (Option.some.inj hs)
      exact ⟨rfl, rfl⟩
    · exact absurd hs (by simp)
  obtain ⟨h_shape, h_state, h_events⟩ := h_step
  have h_inv' := h_inv.of_shape h_shape
  have h_pending : ∀ id, s'.pending.get? id = none := fun id => by
    rw [h_state]
    rfl
  refine ⟨fun id kind h_id => ?_, h_pending, fun id => ?_, fun id => ?_⟩
  · have h_loop := (ProtocolState.foldl_reject s.pending.entries
      ({ s with connected := false, up := [] }, [])).1
    rw [h_events]
    refine List.mem_append_left _ ?_
    rw [h_loop]
    exact List.mem_map.mpr ⟨(id, kind), Table.get?_eq_some_iff.mp h_id, rfl⟩
  · rw [h_inv'.timers, h_pending]
  · rw [h_state]
    rfl

/-- **A message leaves alone what is not its own.** -/
theorem untouched_step (h_inv : RequestsInv s) (h : ProtocolShape s s' o) {msg : NodeMessage}
    (h_delivered : o.delivered = [msg]) {id : String}
    (h_id : msg.requestId ≠ some id ∨ s.pending.get? id = none) : Untouched s s' o id := by
  have h_quiet : ∀ {id' : String} {kind : RequestKind} {msg' : NodeMessage},
      s.pending.get? id' = some kind → o.delivered = [msg'] → msg'.requestId = some id' →
      id ≠ id' := by
    rintro id' kind msg' h_pending h_msg h_own rfl
    obtain rfl : msg' = msg := by simpa [h_msg] using h_delivered
    obtain h_foreign | h_none := h_id
    · exact h_foreign h_own
    · rw [h_none] at h_pending
      cases h_pending
  have h_settles : ∀ {id' : String} {kind : RequestKind}, Settles s s' id' kind → id ≠ id' →
      (∀ e ∈ o.events, e.requestId = some id') → Untouched s s' o id := by
    intro id' kind h_settles h_ne h_events
    refine ⟨h_settles.pending_other h_ne, h_settles.timers_other h_ne,
      h_settles.streams_other h_ne, by rw [h_settles.outputs], fun e h_e h_own => h_ne ?_⟩
    exact Option.some.inj (h_own.symm.trans (h_events e h_e))
  cases h with
  | sends _ h_wire _ => simp [h_wire.delivered] at h_delivered
  | passes _ h_same _ _ h_events =>
    refine ⟨by rw [h_same.pending], by rw [h_same.timers], by rw [h_same.execStreams],
      by rw [h_same.outputs], fun e h_e => by simp [h_events e h_e]⟩
  | opens _ _ _ _ _ _ _ _ h_wire _ _ _ => simp [h_wire.delivered] at h_delivered
  | streams id' stream data h_sink h_took h_pending h_timers h_streams h_outputs h_events =>
    have h_ne := h_quiet ((h_inv.streams id').mp h_sink) h_took.delivered rfl
    refine ⟨by rw [h_pending], ?_, by rw [h_streams], ?_, fun e h_e h_own => h_ne ?_⟩
    · rw [h_timers, Table.get?_set_of_ne _ _ h_ne]
    · rw [h_outputs, Table.get?_modify]
      cases s.outputs.get? id <;> simp [h_ne]
    · obtain rfl := List.mem_singleton.mp (h_events ▸ h_e)
      exact (Option.some.inj h_own).symm
  | expires _ _ _ h_wire _ _ => simp [h_wire.delivered] at h_delivered
  | refuses id' kind message h h_took h_events =>
    refine h_settles h (h_quiet h.was h_took.delivered rfl) fun e h_e => ?_
    obtain rfl := List.mem_singleton.mp (h_events ▸ h_e)
    rfl
  | replies id' kind reply h h_took h_own h_events =>
    refine h_settles h (h_quiet h.was h_took.delivered h_own.own) fun e h_e => ?_
    cases kind with
    | request =>
      obtain rfl := List.mem_singleton.mp (h_events ▸ h_e)
      rfl
    | streamExec =>
      obtain rfl | rfl : e = .resolved id' reply ∨ e = s.result id' reply := by
        simpa [h_events] using h_e
      · rfl
      · rfl
  | drops _ _ _ _ _ _ _ _ h_none _ => simp [h_none] at h_delivered

end Steps

/-- The reply of a stream nobody else sends for is its exit code, the last message under its
id that brings anything. -/
theorem ReturnedExact.complete {tr : ProtocolTrace} {s : ProtocolState} {id stdout stderr : String}
    {code : Option Int} {before after : List NodeMessage} {msg : NodeMessage}
    (h : ReturnedExact tr id stdout stderr code before msg after) (h_hist : ProtocolHistory tr s)
    (h_agent : AgentHistory tr s) (h_un : Uninjected id tr) :
    chunksOf id (sentMsgs tr) = chunksOf id before := by
  obtain ⟨h_replies, h_delivered⟩ := h_hist.own id msg h.resolved
  have h_kind := h_agent.kinds id h_un msg (h_hist.delivered_sent h_delivered) h_replies.own
  obtain ⟨c, rfl⟩ : ∃ c, msg = .execStreamEnd id c := by
    cases msg with
    | execStreamEnd requestId c =>
      obtain rfl : requestId = id := Option.some.inj h_replies.own
      exact ⟨c, rfl⟩
    | execChunk requestId stream data => exact absurd rfl (h_replies.chunk requestId stream data)
    | response requestId type body => exact absurd rfl (h_kind.kind requestId type body)
    | error requestId message =>
      obtain rfl : requestId = some id := h_replies.own
      exact absurd rfl (h_replies.error message)
    | _ => cases h_replies.own
  have h_after := h_agent.tidy id h_un before c after h.sent
  rw [h.sent, chunksOf_append, ← List.singleton_append, chunksOf_append, h_after]
  simp [chunksOf, NodeMessage.chunkFor]

/-- **Main result.** The guarantees hold of every run. -/
theorem requests_safe {tr : ProtocolTrace} {s : ProtocolState} (h : protocolMachine.Run tr s) :
    ProtocolSafe tr s := by
  have h_inv := RequestsInv.of_run h
  have h_hist := ProtocolHistory.of_run h
  have h_agent := AgentHistory.of_run h
  obtain ⟨lost, h_fifo, -⟩ := h_hist.fifo
  exact {
    once := fun id => Nat.le_trans (Nat.le_add_right _ _) (h_hist.once id)
    accounted := fun id h_issued => (h_hist.issued id h_issued).2
    own := h_hist.own
    refused := h_hist.refused
    disconnects := fun s' o hs => disconnected_step h_inv hs
    foreign := fun s' o msg hs h_delivered id h_id =>
      untouched_step h_inv (ProtocolState.step_shape h_inv.timers hs) h_delivered h_id
    wire := ⟨lost, h_fifo.symm⟩
    seen := h_hist.prefixes
    live := fun id h_live => (h_hist.live id h_live).1
    returned := fun id stdout stderr code h_event =>
      (h_hist.returned id stdout stderr code h_event).2
    complete := fun id stdout stderr code h_event h_un => by
      obtain ⟨-, before, msg, after, h_exact⟩ := h_hist.returned id stdout stderr code h_event
      rw [h_exact.complete h_hist h_agent h_un]
      exact ⟨h_exact.received, h_exact.stdout, h_exact.stderr⟩ }

/-- A command prints on both streams and exits. -/
def execRun : List ProtocolLabel :=
  [.streamExec "r" "make", .accept false, .pump "r" .stdout "a", .pump "r" .stderr "b",
    .drained "r" .stdout "c", .drained "r" .stderr "", .exited "r" 0,
    .deliver, .deliver, .deliver, .deliver]

/-- The callback of this run has seen everything. -/
theorem requests_safe_exec : ∃ tr s, protocolMachine.Run tr s ∧
    received "r" tr = [(.stdout, "a"), (.stderr, "b"), (.stdout, "c")] ∧ ProtocolSafe tr s := by
  obtain ⟨⟨tr, s⟩, h_exec, h_received⟩ := Option.map_eq_some_iff.mp
    (show (protocolMachine.exec protocolMachine.init execRun).map (fun q => received "r" q.1) =
      some [(.stdout, "a"), (.stderr, "b"), (.stdout, "c")] by decide +kernel)
  have h_run := Machine.run_of_exec execRun h_exec
  exact ⟨tr, s, h_run, h_received, requests_safe h_run⟩

/-- **A chunk is lost**: the connection drops while it is under way. -/
theorem chunk_lost : ∃ tr s, protocolMachine.Run tr s ∧ settled "r" tr = 1 ∧
    "".intercalate (texts .stdout (received "r" tr)) ≠
      "".intercalate (texts .stdout (chunksOf "r" (sentMsgs tr))) := by
  obtain ⟨⟨tr, s⟩, h_exec, h_read⟩ := Option.map_eq_some_iff.mp
    (show (protocolMachine.exec protocolMachine.init
      [.streamExec "r" "make", .accept false, .pump "r" .stdout "x", .disconnect]).map
        (fun q => (settled "r" q.1, received "r" q.1, chunksOf "r" (sentMsgs q.1))) =
      some (1, [], [(.stdout, "x")]) by decide +kernel)
  obtain ⟨h_settled, h_read⟩ := Prod.mk.inj h_read
  obtain ⟨h_received, h_sent⟩ := Prod.mk.inj h_read
  refine ⟨tr, s, Machine.run_of_exec _ h_exec, h_settled, ?_⟩
  rw [h_received, h_sent]
  decide

end ServerCentral.Agent
