import Mathlib.Data.Nat.Basic
import Mathlib.Order.Basic
import ServerCentral.Agent.Requests

/-!
# The steps of a connection

What one step does to the maps of `HostAgent` and to the wire from the agent, as one
inversion lemma (`ProtocolState.step_shape`), and the invariant of the maps: a timer is
armed for exactly the pending requests, and a sink is registered for exactly the pending
streams.
-/

open Framework

namespace ServerCentral.Agent

/-! ### Shapes -/

/-- The maps of requests are left alone. -/
structure SameRequests (s s' : ProtocolState) : Prop where
  pending : s'.pending = s.pending
  timers : s'.timers = s.timers
  execStreams : s'.execStreams = s.execStreams
  outputs : s'.outputs = s.outputs

/-- Nothing arrives, and what is sent goes on the wire while it is up. -/
structure Wired (s s' : ProtocolState) (o : ProtocolOut) : Prop where
  delivered : o.delivered = []
  connected : s'.connected = s.connected
  up : s'.up = if s.connected then s.up ++ o.sent else s.up
  used : s.used ⊆ s'.used
  sent : ∀ msg ∈ o.sent, ∀ id, msg.requestId = some id → id ∈ s'.used

/-- The next message arrives. -/
structure Took (s s' : ProtocolState) (msg : NodeMessage) (o : ProtocolOut) : Prop where
  sent : o.sent = []
  delivered : o.delivered = [msg]
  connected : s'.connected = s.connected
  up : s.up = msg :: s'.up
  used : s'.used = s.used

/-- The pending request `id` leaves the maps. -/
structure Settles (s s' : ProtocolState) (id : String) (kind : RequestKind) : Prop where
  was : s.pending.get? id = some kind
  pending : s'.pending = s.pending.erase id
  timers : s'.timers = s.timers.erase id
  execStreams : s'.execStreams =
    match kind with
    | .request => s.execStreams
    | .streamExec => s.execStreams.erase id
  outputs : s'.outputs = s.outputs

/-- A reply to the request `id`. -/
structure Replies (id : String) (msg : NodeMessage) : Prop where
  own : msg.requestId = some id
  chunk : ∀ id' stream data, msg ≠ .execChunk id' stream data
  error : ∀ message, msg ≠ .error (some id) message

/-- What a step does to requests, wire and promises. -/
inductive ProtocolShape (s s' : ProtocolState) : ProtocolOut → Prop
  /-- Something is sent, or nothing of interest happens. -/
  | sends {o : ProtocolOut} (h : SameRequests s s') (h_wire : Wired s s' o)
      (h_events : o.events = []) : ProtocolShape s s' o
  /-- A message arrives that belongs to no pending request. -/
  | passes {o : ProtocolOut} (msg : NodeMessage) (h : SameRequests s s') (h_took : Took s s' msg o)
      (h_chunk : ∀ id stream data, msg = .execChunk id stream data → s.execStreams.get? id = none)
      (h_events : ∀ e ∈ o.events, e.requestId = none) : ProtocolShape s s' o
  /-- A request is issued under a fresh id. -/
  | opens {o : ProtocolOut} (id : String) (kind : RequestKind) (h_fresh : id ∉ s.used)
      (h_id : id ≠ "") (h_pending : s'.pending = s.pending.set id kind)
      (h_timers : s'.timers = s.timers.set id kind)
      (h_streams : s'.execStreams =
        match kind with
        | .request => s.execStreams
        | .streamExec => s.execStreams.set id ())
      (h_outputs : s'.outputs =
        match kind with
        | .request => s.outputs
        | .streamExec => s.outputs.set id ⟨[], []⟩)
      (h_wire : Wired s s' o) (h_used : id ∈ s'.used) (h_sent : o.sent = [])
      (h_events : o.events = []) : ProtocolShape s s' o
  /-- Output of a pending stream arrives. -/
  | streams {o : ProtocolOut} (id : String) (stream : OutputStream) (data : String)
      (h_sink : s.execStreams.get? id = some ())
      (h_took : Took s s' (.execChunk id stream data) o) (h_pending : s'.pending = s.pending)
      (h_timers : s'.timers = s.timers.set id .streamExec)
      (h_streams : s'.execStreams = s.execStreams)
      (h_outputs : s'.outputs = s.outputs.modify id fun out => out.push stream data)
      (h_events : o.events = [.chunk id stream data]) : ProtocolShape s s' o
  /-- A timer fires. -/
  | expires {o : ProtocolOut} (id : String) (kind : RequestKind) (h : Settles s s' id kind)
      (h_wire : Wired s s' o) (h_sent : o.sent = [])
      (h_events : o.events = [.rejected id (kind.timeoutMessage id)]) : ProtocolShape s s' o
  /-- An error arrives for a pending request. -/
  | refuses {o : ProtocolOut} (id : String) (kind : RequestKind) (message : String)
      (h : Settles s s' id kind) (h_took : Took s s' (.error (some id) message) o)
      (h_events : o.events = [.rejected id message]) : ProtocolShape s s' o
  /-- The reply of a pending request arrives. -/
  | replies {o : ProtocolOut} (id : String) (kind : RequestKind) (msg : NodeMessage)
      (h : Settles s s' id kind) (h_took : Took s s' msg o) (h_own : Replies id msg)
      (h_events : o.events =
        match kind with
        | .request => [.resolved id msg]
        | .streamExec => [.resolved id msg, s.result id msg]) : ProtocolShape s s' o
  /-- The connection drops. -/
  | drops {o : ProtocolOut} (h_connected : s'.connected = false) (h_up : s'.up = [])
      (h_used : s'.used = s.used) (h_pending : s'.pending = .empty)
      (h_timers : ∀ id, s'.timers.get? id =
        if (s.pending.get? id).isSome then none else s.timers.get? id)
      (h_streams : s'.execStreams = .empty) (h_outputs : s'.outputs = s.outputs)
      (h_sent : o.sent = []) (h_delivered : o.delivered = [])
      (h_events : ∃ exits : List HostEvent, (∀ e ∈ exits, e.requestId = none) ∧ o.events =
        (s.pending.entries.map fun e => .rejected e.1 "Node disconnected") ++ exits) :
      ProtocolShape s s' o

namespace ProtocolState

theorem sendControl_same (s : ProtocolState) (msg : ControlMessage) :
    (s.sendControl msg).pending = s.pending ∧ (s.sendControl msg).timers = s.timers ∧
      (s.sendControl msg).execStreams = s.execStreams ∧ (s.sendControl msg).outputs = s.outputs ∧
      (s.sendControl msg).connected = s.connected ∧ (s.sendControl msg).up = s.up ∧
      (s.sendControl msg).used = s.used := by
  unfold sendControl
  split <;> exact ⟨rfl, rfl, rfl, rfl, rfl, rfl, rfl⟩

/-- A step of the agent. -/
theorem sends_shape {s s₁ : ProtocolState} (msgs : List NodeMessage) (h : SameRequests s s₁)
    (h_wire : s₁.connected = s.connected ∧ s₁.up = s.up ∧ s₁.used = s.used) :
    ProtocolShape s (sends (s₁, msgs)).1 (sends (s₁, msgs)).2 := by
  obtain ⟨h_connected, h_up, h_used⟩ := h_wire
  refine .sends ⟨h.pending, h.timers, h.execStreams, h.outputs⟩
    ⟨rfl, h_connected, ?_, fun id h_id => ?_, fun msg h_msg id h_id => ?_⟩ rfl
  · simp only [ProtocolState.sends, send, h_connected, h_up]
  · exact List.mem_append_right _ (h_used ▸ h_id)
  · exact List.mem_append_left _ (List.mem_filterMap.mpr ⟨msg, h_msg, h_id⟩)

/-- The loop of `disconnect` over the pending entries. -/
theorem foldl_reject (es : List (String × RequestKind)) (acc : ProtocolState × List HostEvent) :
    let r := es.foldl (fun acc e =>
      let (s, events) := acc.1.reject e.1 e.2 "Node disconnected"
      (s, acc.2 ++ events)) acc
    r.2 = acc.2 ++ es.map (fun e => .rejected e.1 "Node disconnected") ∧
      r.1.outputs = acc.1.outputs ∧ r.1.connected = acc.1.connected ∧ r.1.up = acc.1.up ∧
      r.1.used = acc.1.used ∧ ∀ id, r.1.timers.get? id =
        if id ∈ es.map Prod.fst then none else acc.1.timers.get? id := by
  induction es generalizing acc with
  | nil => simp
  | cons e es ih =>
    obtain ⟨h_events, h_outputs, h_connected, h_up, h_used, h_timers⟩ :=
      ih ((acc.1.reject e.1 e.2 "Node disconnected").1,
        acc.2 ++ (acc.1.reject e.1 e.2 "Node disconnected").2)
    have h_cleanup : (acc.1.cleanup e.1 e.2).outputs = acc.1.outputs ∧
        (acc.1.cleanup e.1 e.2).connected = acc.1.connected ∧
        (acc.1.cleanup e.1 e.2).up = acc.1.up ∧ (acc.1.cleanup e.1 e.2).used = acc.1.used ∧
        (acc.1.cleanup e.1 e.2).timers = acc.1.timers.erase e.1 := by
      cases e.2 <;> exact ⟨rfl, rfl, rfl, rfl, rfl⟩
    obtain ⟨h_o, h_c, h_u, h_us, h_t⟩ := h_cleanup
    refine ⟨?_, h_outputs.trans h_o, h_connected.trans h_c, h_up.trans h_u, h_used.trans h_us,
      fun id => ?_⟩
    · rw [List.foldl_cons, h_events, List.map_cons, List.append_assoc]
      rfl
    · rw [List.foldl_cons, h_timers id]
      show (if id ∈ es.map Prod.fst then none else (acc.1.cleanup e.1 e.2).timers.get? id) = _
      rw [h_t, List.map_cons]
      by_cases h_tail : id ∈ es.map Prod.fst
      · rw [if_pos h_tail, if_pos (List.mem_cons_of_mem _ h_tail)]
      · rw [if_neg h_tail]
        by_cases h_head : id = e.1
        · subst h_head
          rw [Table.get?_erase_self, if_pos List.mem_cons_self]
        · rw [Table.get?_erase_of_ne _ h_head, if_neg]
          simpa [h_head] using h_tail

/-- The end of the connection. -/
theorem disconnect_shape (s : ProtocolState) :
    ProtocolShape s (acts s.disconnect).1 (acts s.disconnect).2 := by
  obtain ⟨h_events, h_outputs, h_connected, h_up, h_used, h_timers⟩ :=
    foldl_reject s.pending.entries ({ s with connected := false, up := [] }, [])
  refine .drops h_connected h_up h_used rfl (fun id => ?_) rfl h_outputs rfl rfl ?_
  · refine (h_timers id).trans ?_
    by_cases h : id ∈ s.pending.keys
    · have h_some : (s.pending.get? id).isSome = true := by
        cases h_get : s.pending.get? id with
        | none => exact absurd h (Table.get?_eq_none_iff.mp h_get)
        | some kind => rfl
      exact (if_pos h).trans (if_pos h_some).symm
    · have h_none : s.pending.get? id = none := Table.get?_eq_none_iff.mpr h
      rw [h_none]
      exact if_neg h
  · refine ⟨s.shells.keys.map fun sessionId => .shellExit sessionId none, fun e h_e => ?_, ?_⟩
    · obtain ⟨sessionId, -, rfl⟩ := List.mem_map.mp h_e
      rfl
    · show _ ++ _ = _
      rw [h_events]
      rfl

/-- A request leaves the maps. -/
theorem cleanup_settles {s : ProtocolState} {id : String} {kind : RequestKind}
    (h : s.pending.get? id = some kind) :
    Settles s ({ s with pending := s.pending.erase id }.cleanup id kind) id kind := by
  cases kind <;> exact ⟨h, rfl, rfl, rfl, rfl⟩

theorem cleanup_wire (s : ProtocolState) (id : String) (kind : RequestKind) :
    (s.cleanup id kind).connected = s.connected ∧ (s.cleanup id kind).up = s.up ∧
      (s.cleanup id kind).used = s.used := by
  cases kind <;> exact ⟨rfl, rfl, rfl⟩

/-- The end of `receive`. -/
theorem receiveReply_shape {s : ProtocolState} {msg : NodeMessage} {rest : List NodeMessage}
    (h_up : s.up = msg :: rest) (h_chunk : ∀ id stream data, msg ≠ .execChunk id stream data) :
    ProtocolShape s ({ s with up := rest }.receiveReply msg).1
      ⟨[], [msg], ({ s with up := rest }.receiveReply msg).2⟩ := by
  have h_passes : ProtocolShape s { s with up := rest } ⟨[], [msg], []⟩ :=
    .passes msg ⟨rfl, rfl, rfl, rfl⟩ ⟨rfl, rfl, rfl, h_up, rfl⟩
      (fun id stream data h => absurd h (h_chunk id stream data)) (by simp)
  unfold receiveReply
  split
  · exact h_passes
  · next id h_id =>
    have h_own : msg.requestId = some id := (Option.filter_eq_some_iff.mp h_id).1
    split
    · exact h_passes
    · next kind h_kind =>
      have h_kind' : s.pending.get? id = some kind := h_kind
      have h_settles : Settles s ({ s with up := rest, pending := s.pending.erase id }.cleanup id
          kind) id kind := by
        cases kind <;> exact ⟨h_kind', rfl, rfl, rfl, rfl⟩
      have h_took : ∀ events, Took s ({ s with up := rest, pending := s.pending.erase id }.cleanup id
          kind) msg ⟨[], [msg], events⟩ := by
        intro events
        cases kind <;> exact ⟨rfl, rfl, rfl, h_up, rfl⟩
      dsimp only
      split
      · next message =>
        obtain rfl : _ = some id := h_own
        exact .refuses id kind message h_settles (h_took _) rfl
      · next h_error =>
        refine .replies id kind msg h_settles (h_took _)
          ⟨h_own, h_chunk, fun message h => h_error _ _ h⟩ ?_
        cases kind <;> rfl

/-- A message arrives. -/
theorem receive_shape {s : ProtocolState} {msg : NodeMessage} {rest : List NodeMessage}
    (h_up : s.up = msg :: rest) :
    ProtocolShape s ({ s with up := rest }.receive msg).1
      ⟨[], [msg], ({ s with up := rest }.receive msg).2⟩ := by
  have h_took : ∀ events, Took s { s with up := rest } msg ⟨[], [msg], events⟩ := fun _ =>
    ⟨rfl, rfl, rfl, h_up, rfl⟩
  cases msg with
  | metrics => exact .passes _ ⟨rfl, rfl, rfl, rfl⟩ (h_took _) (by simp) (by simp [receive])
  | execChunk id stream data =>
    simp only [receive]
    split
    · next h_none =>
      refine .passes _ ⟨rfl, rfl, rfl, rfl⟩ (h_took _) (fun id' stream' data' h_eq => ?_) (by simp)
      obtain ⟨rfl, -, -⟩ := NodeMessage.execChunk.inj h_eq
      exact h_none
    · next h_some =>
      exact .streams id stream data h_some ⟨rfl, rfl, rfl, h_up, rfl⟩ rfl rfl rfl rfl rfl
  | shellData sessionId data =>
    refine .passes _ ⟨rfl, rfl, rfl, rfl⟩ (h_took _) (by simp) ?_
    simp only [receive]
    split <;> simp [HostEvent.requestId]
  | shellExit sessionId code =>
    simp only [receive]
    split
    · exact .passes _ ⟨rfl, rfl, rfl, rfl⟩ ⟨rfl, rfl, rfl, h_up, rfl⟩ (by simp)
        (by simp [HostEvent.requestId])
    · exact .passes _ ⟨rfl, rfl, rfl, rfl⟩ (h_took _) (by simp) (by simp)
  | pong => exact receiveReply_shape h_up (by simp)
  | execStreamEnd id code => exact receiveReply_shape h_up (by simp)
  | response id type body => exact receiveReply_shape h_up (by simp)
  | error id message => exact receiveReply_shape h_up (by simp)

/-- A pump goes on. -/
theorem pumped_shape {s s' : ProtocolState} {id : String} {stream : OutputStream}
    {next : ExecTask → ExecTask × List NodeMessage} {o : ProtocolOut}
    (h : s.pumped id stream next = some (s', o)) : ProtocolShape s s' o := by
  obtain ⟨task, -, h_task⟩ := Option.bind_eq_some_iff.mp h
  split at h_task
  · obtain h_eq := Option.some.inj h_task
    have h_shape : ProtocolShape s (sends ({ s with execs := s.execs.set id (next task).1 },
        (next task).2)).1 _ := sends_shape (next task).2 ⟨rfl, rfl, rfl, rfl⟩ ⟨rfl, rfl, rfl⟩
    rw [h_eq] at h_shape
    exact h_shape
  · exact absurd h_task (by simp)

/-- **Step inversion.** -/
theorem step_shape {s s' : ProtocolState} {l : ProtocolLabel} {o : ProtocolOut}
    (h_timers : ∀ id, s.timers.get? id = s.pending.get? id) (hs : s.step l = some (s', o)) :
    ProtocolShape s s' o := by
  have h_agent : ∀ {s₁ : ProtocolState} {msgs : List NodeMessage},
      some (sends (s₁, msgs)) = some (s', o) → SameRequests s s₁ →
      s₁.connected = s.connected ∧ s₁.up = s.up ∧ s₁.used = s.used → ProtocolShape s s' o := by
    intro s₁ msgs h_eq h h_wire
    have h_shape := sends_shape msgs h h_wire
    rwa [Option.some.inj h_eq] at h_shape
  cases l with
  | request id =>
    simp only [step] at hs
    split at hs
    · exact absurd hs (by simp)
    · next h_fresh =>
      rw [not_or] at h_fresh
      obtain ⟨rfl, rfl⟩ := Prod.mk.inj (Option.some.inj hs)
      obtain ⟨h_pending, h_timers', h_streams, h_outputs, h_connected, h_up, h_used⟩ :=
        sendControl_same { s with
          used := id :: s.used
          pending := s.pending.set id .request
          timers := s.timers.set id .request } (.request id)
      refine .opens id .request h_fresh.1 h_fresh.2 h_pending h_timers' h_streams h_outputs
        ⟨rfl, h_connected, ?_, fun x h_x => ?_, by simp⟩ ?_ rfl rfl
      · refine h_up.trans ?_
        simp
      · exact h_used.symm ▸ List.mem_cons_of_mem _ h_x
      · exact h_used.symm ▸ List.mem_cons_self
  | streamExec id command =>
    simp only [step] at hs
    split at hs
    · exact absurd hs (by simp)
    · next h_fresh =>
      rw [not_or] at h_fresh
      obtain ⟨rfl, rfl⟩ := Prod.mk.inj (Option.some.inj hs)
      obtain ⟨h_pending, h_timers', h_streams, h_outputs, h_connected, h_up, h_used⟩ :=
        sendControl_same { s with
          used := id :: s.used
          outputs := s.outputs.set id ⟨[], []⟩
          execStreams := s.execStreams.set id ()
          pending := s.pending.set id .streamExec
          timers := s.timers.set id .streamExec } (.execStreamRequest id command)
      refine .opens id .streamExec h_fresh.1 h_fresh.2 h_pending h_timers' h_streams h_outputs
        ⟨rfl, h_connected, ?_, fun x h_x => ?_, by simp⟩ ?_ rfl rfl
      · refine h_up.trans ?_
        simp
      · exact h_used.symm ▸ List.mem_cons_of_mem _ h_x
      · exact h_used.symm ▸ List.mem_cons_self
  | openShell sessionId =>
    simp only [step] at hs
    split at hs
    · exact absurd hs (by simp)
    · obtain ⟨rfl, rfl⟩ := Prod.mk.inj (Option.some.inj hs)
      obtain ⟨h_pending, h_timers', h_streams, h_outputs, h_connected, h_up, h_used⟩ :=
        sendControl_same { s with shells := s.shells.set sessionId () } (.openShell sessionId)
      refine .sends ⟨h_pending, h_timers', h_streams, h_outputs⟩
        ⟨rfl, h_connected, ?_, fun x h_x => ?_, by simp⟩ rfl
      · refine h_up.trans ?_
        simp
      · exact h_used.symm ▸ h_x
  | closeShell sessionId =>
    obtain ⟨rfl, rfl⟩ := Prod.mk.inj (Option.some.inj hs)
    obtain ⟨h_pending, h_timers', h_streams, h_outputs, h_connected, h_up, h_used⟩ :=
      sendControl_same { s with shells := s.shells.erase sessionId } (.closeShell sessionId)
    refine .sends ⟨h_pending, h_timers', h_streams, h_outputs⟩
      ⟨rfl, h_connected, ?_, fun x h_x => ?_, by simp⟩ rfl
    · refine h_up.trans ?_
      simp
    · exact h_used.symm ▸ h_x
  | timeout id =>
    obtain ⟨kind, h_kind, h_eq⟩ := Option.map_eq_some_iff.mp hs
    obtain ⟨rfl, rfl⟩ := Prod.mk.inj h_eq
    have h_pending : s.pending.get? id = some kind := (h_timers id).symm.trans h_kind
    obtain ⟨h_connected, h_up, h_used⟩ :=
      cleanup_wire { s with pending := s.pending.erase id } id kind
    refine .expires id kind (cleanup_settles h_pending)
      ⟨rfl, h_connected, ?_, fun x h_x => ?_, by simp⟩ rfl rfl
    · refine h_up.trans ?_
      simp
    · exact h_used.symm ▸ h_x
  | deliver =>
    simp only [step] at hs
    split at hs
    · exact absurd hs (by simp)
    · next msg rest h_up =>
      obtain ⟨rfl, rfl⟩ := Prod.mk.inj (Option.some.inj hs)
      exact receive_shape h_up
  | disconnect =>
    simp only [step] at hs
    split at hs
    · have h_shape := disconnect_shape s
      rwa [Option.some.inj hs] at h_shape
    · exact absurd hs (by simp)
  | accept fails =>
    simp only [step] at hs
    split at hs
    · exact absurd hs (by simp)
    · next id command rest _ =>
      cases fails with
      | true => exact h_agent hs ⟨rfl, rfl, rfl, rfl⟩ ⟨rfl, rfl, rfl⟩
      | false => exact h_agent hs ⟨rfl, rfl, rfl, rfl⟩ ⟨rfl, rfl, rfl⟩
    · exact h_agent hs ⟨rfl, rfl, rfl, rfl⟩ ⟨rfl, rfl, rfl⟩
  | spawnFailure id text =>
    simp only [step] at hs
    split at hs
    · exact h_agent hs ⟨rfl, rfl, rfl, rfl⟩ ⟨rfl, rfl, rfl⟩
    · exact absurd hs (by simp)
  | pump id stream data =>
    simp only [step] at hs
    exact pumped_shape hs
  | drained id stream tail =>
    simp only [step] at hs
    exact pumped_shape hs
  | broke id stream message =>
    simp only [step] at hs
    exact pumped_shape hs
  | exited id code =>
    simp only [step] at hs
    obtain ⟨task, -, h_task⟩ := Option.bind_eq_some_iff.mp hs
    split at h_task
    · exact h_agent h_task ⟨rfl, rfl, rfl, rfl⟩ ⟨rfl, rfl, rfl⟩
    · exact absurd h_task (by simp)
  | inject msg =>
    simp only [step] at hs
    exact h_agent hs ⟨rfl, rfl, rfl, rfl⟩ ⟨rfl, rfl, rfl⟩

end ProtocolState

/-! ### The invariant of the maps -/

/-- A timer for each pending request and a sink for each pending stream, no others. -/
structure RequestsInv (s : ProtocolState) : Prop where
  timers : ∀ id, s.timers.get? id = s.pending.get? id
  streams : ∀ id, s.execStreams.get? id = some () ↔ s.pending.get? id = some .streamExec
  used : ∀ id kind, s.pending.get? id = some kind → id ∈ s.used
  closed : s.connected = false → s.up = []

namespace Settles

variable {s s' : ProtocolState} {id : String} {kind : RequestKind}

/-- The settled request is pending no more. -/
theorem gone (h : Settles s s' id kind) : s'.pending.get? id = none := by
  rw [h.pending, Table.get?_erase_self]

/-- Another request stays as it is. -/
theorem pending_other (h : Settles s s' id kind) {other : String} (h_ne : other ≠ id) :
    s'.pending.get? other = s.pending.get? other := by
  rw [h.pending, Table.get?_erase_of_ne _ h_ne]

theorem streams_other (h : Settles s s' id kind) {other : String} (h_ne : other ≠ id) :
    s'.execStreams.get? other = s.execStreams.get? other := by
  rw [h.execStreams]
  cases kind with
  | request => rfl
  | streamExec => exact Table.get?_erase_of_ne _ h_ne

theorem timers_other (h : Settles s s' id kind) {other : String} (h_ne : other ≠ id) :
    s'.timers.get? other = s.timers.get? other := by
  rw [h.timers, Table.get?_erase_of_ne _ h_ne]

/-- A request is pending after another one settled only if it was before. -/
theorem was_pending (h : Settles s s' id kind) {other : String} {kind' : RequestKind}
    (h_pending : s'.pending.get? other = some kind') :
    other ≠ id ∧ s.pending.get? other = some kind' := by
  rw [h.pending, Table.get?_erase] at h_pending
  exact h_pending.symm

end Settles

namespace RequestsInv

variable {s s' : ProtocolState}

/-- What each step keeps of the maps, when it leaves them alone. -/
theorem of_same (h : RequestsInv s) (h_pending : s'.pending = s.pending)
    (h_timers : ∀ id, s'.timers.get? id = s.timers.get? id)
    (h_streams : s'.execStreams = s.execStreams) (h_used : s.used ⊆ s'.used)
    (h_closed : s'.connected = false → s'.up = []) : RequestsInv s' where
  timers id := by rw [h_timers, h.timers, h_pending]
  streams id := by rw [h_streams, h_pending, h.streams]
  used id kind h_id := h_used (h.used id kind (h_pending ▸ h_id))
  closed := h_closed

/-- What it keeps when a request settles. -/
theorem of_settles (h : RequestsInv s) {id : String} {kind : RequestKind}
    (h_settles : Settles s s' id kind) (h_used : s.used ⊆ s'.used)
    (h_closed : s'.connected = false → s'.up = []) : RequestsInv s' where
  timers other := by
    by_cases h_ne : other = id
    · rw [h_ne, h_settles.timers, Table.get?_erase_self, h_settles.gone]
    · rw [h_settles.timers_other h_ne, h.timers, h_settles.pending_other h_ne]
  streams other := by
    by_cases h_ne : other = id
    · subst h_ne
      have h_gone : s'.execStreams.get? other = none := by
        rw [h_settles.execStreams]
        cases kind with
        | streamExec => exact Table.get?_erase_self _ _
        | request =>
          -- a request has no sink
          cases h_sink : s.execStreams.get? other with
          | none => rfl
          | some u => exact absurd ((h.streams other).mp h_sink) (by simp [h_settles.was])
      simp [h_gone, h_settles.gone]
    · rw [h_settles.streams_other h_ne, h_settles.pending_other h_ne]
      exact h.streams other
  used other kind' h_other := h_used (h.used other kind' (h_settles.was_pending h_other).2)
  closed := h_closed

/-- Nothing is on a wire that is down. -/
theorem closed_of_wired (h : RequestsInv s) {o : ProtocolOut} (h_wire : Wired s s' o)
    (h_down : s'.connected = false) : s'.up = [] := by
  rw [h_wire.connected] at h_down
  rw [h_wire.up, h.closed h_down, h_down]
  rfl

/-- A message that arrives came from a wire that is up. -/
theorem closed_of_took (h : RequestsInv s) {o : ProtocolOut} {msg : NodeMessage}
    (h_took : Took s s' msg o) (h_down : s'.connected = false) : s'.up = [] := by
  rw [h_took.connected] at h_down
  have h_empty := h.closed h_down
  rw [h_took.up] at h_empty
  exact absurd h_empty (List.cons_ne_nil _ _)

/-- **Step lemma.** -/
theorem of_shape (h : RequestsInv s) {o : ProtocolOut} (h_shape : ProtocolShape s s' o) :
    RequestsInv s' := by
  cases h_shape with
  | sends h_same h_wire _ =>
    exact h.of_same h_same.pending (fun id => by rw [h_same.timers]) h_same.execStreams
      h_wire.used (h.closed_of_wired h_wire)
  | passes msg h_same h_took _ _ =>
    exact h.of_same h_same.pending (fun id => by rw [h_same.timers]) h_same.execStreams
      (h_took.used ▸ List.Subset.refl _) (h.closed_of_took h_took)
  | opens id kind h_fresh h_id h_pending h_timers h_streams h_outputs h_wire h_used _ _ =>
    have h_none : s.pending.get? id = none := by
      cases h_get : s.pending.get? id with
      | none => rfl
      | some kind' => exact absurd (h.used id kind' h_get) h_fresh
    refine ⟨fun other => ?_, fun other => ?_, fun other kind' h_other => ?_,
      h.closed_of_wired h_wire⟩
    · rw [h_timers, h_pending, Table.get?_set, Table.get?_set, h.timers]
    · rw [h_pending, h_streams, Table.get?_set]
      by_cases h_ne : other = id
      · subst h_ne
        rw [if_pos rfl]
        cases kind with
        | request => simp [h.streams, h_none]
        | streamExec => simp
      · rw [if_neg h_ne, ← h.streams]
        cases kind with
        | request => rfl
        | streamExec => rw [Table.get?_set_of_ne _ _ h_ne]
    · rw [h_pending] at h_other
      obtain ⟨rfl, -⟩ | ⟨-, h_other⟩ := Table.get?_set_eq_some h_other
      · exact h_used
      · exact h_wire.used (h.used other kind' h_other)
  | streams id stream data h_sink h_took h_pending h_timers h_streams h_outputs _ =>
    have h_kind := (h.streams id).mp h_sink
    refine h.of_same h_pending (fun other => ?_) h_streams (h_took.used ▸ List.Subset.refl _)
      (h.closed_of_took h_took)
    rw [h_timers, Table.get?_set]
    split
    · next h_eq => rw [h_eq, h.timers, h_kind]
    · rfl
  | expires id kind h_settles h_wire _ _ =>
    exact h.of_settles h_settles h_wire.used (h.closed_of_wired h_wire)
  | refuses id kind message h_settles h_took _ =>
    exact h.of_settles h_settles (h_took.used ▸ List.Subset.refl _) (h.closed_of_took h_took)
  | replies id kind msg h_settles h_took _ _ =>
    exact h.of_settles h_settles (h_took.used ▸ List.Subset.refl _) (h.closed_of_took h_took)
  | drops h_connected h_up h_used h_pending h_timers h_streams h_outputs _ _ _ =>
    refine ⟨fun id => ?_, fun id => ?_, fun id kind h_id => ?_, fun _ => h_up⟩
    · rw [h_timers, h_pending, h.timers, Table.get?_empty]
      cases s.pending.get? id <;> rfl
    · simp [h_streams, h_pending]
    · simp [h_pending] at h_id

theorem init : RequestsInv protocolMachine.init where
  timers _ := rfl
  streams _ := by constructor <;> intro h_some <;> cases h_some
  used _ _ h_id := by cases h_id
  closed _ := rfl

/-- **Run lemma.** -/
theorem of_run {ok : ProtocolState → ProtocolLabel → Prop}
    {tr : List (ProtocolLabel × ProtocolOut)} {s : ProtocolState}
    (h : protocolMachine.RunWhen ok tr s) : RequestsInv s :=
  h.invariant init fun _ _ _ _ h_inv _ hs =>
    h_inv.of_shape (ProtocolState.step_shape h_inv.timers hs)

end RequestsInv

end ServerCentral.Agent
