import ServerCentral.Agent.RequestSteps

/-!
# The history of a connection

`ProtocolHistory` relates the trace of a connection to its maps: the wire delivers what was
sent in order, a request that left the pending map was settled at that moment and only then,
and the sink of a live stream has seen exactly the chunks delivered under its id.
-/

open Framework

namespace ServerCentral.Agent

abbrev ProtocolTrace := List (ProtocolLabel × ProtocolOut)

/-- What the agent has sent. -/
def sentMsgs (tr : ProtocolTrace) : List NodeMessage := tr.flatMap fun e => e.2.sent

/-- What has arrived at the control plane. -/
def deliveredMsgs (tr : ProtocolTrace) : List NodeMessage := tr.flatMap fun e => e.2.delivered

def eventsOf (tr : ProtocolTrace) : List HostEvent := tr.flatMap fun e => e.2.events

def NodeMessage.chunkFor (id : String) : NodeMessage → Option (OutputStream × String)
  | .execChunk requestId stream data => if requestId = id then some (stream, data) else none
  | _ => none

def HostEvent.chunkFor (id : String) : HostEvent → Option (OutputStream × String)
  | .chunk requestId stream data => if requestId = id then some (stream, data) else none
  | _ => none

/-- The chunks carried under a request id. -/
def chunksOf (id : String) (msgs : List NodeMessage) : List (OutputStream × String) :=
  msgs.filterMap (NodeMessage.chunkFor id)

/-- The calls of a stream's callback. -/
def received (id : String) (tr : ProtocolTrace) : List (OutputStream × String) :=
  (eventsOf tr).filterMap (HostEvent.chunkFor id)

/-- The chunks of one of the two streams. -/
def texts (stream : OutputStream) (chunks : List (OutputStream × String)) : List String :=
  (chunks.filter fun c => c.1 = stream).map Prod.snd

/-- Whether an event settles a request. -/
def HostEvent.settles (id : String) : HostEvent → Bool
  | .resolved requestId _ => requestId = id
  | .rejected requestId _ => requestId = id
  | _ => false

/-- How often a request has been settled. -/
def settled (id : String) (tr : ProtocolTrace) : Nat := (eventsOf tr).countP (HostEvent.settles id)

/-- 1 while a request is pending. -/
def ProtocolState.open? (s : ProtocolState) (id : String) : Nat :=
  if (s.pending.get? id).isSome then 1 else 0

/-- Whether a label issues a request. -/
def ProtocolLabel.issues (id : String) : ProtocolLabel → Bool
  | .request requestId => requestId = id
  | .streamExec requestId _ => requestId = id
  | _ => false

def Issued (id : String) (tr : ProtocolTrace) : Prop := ∃ e ∈ tr, e.1.issues id = true

/-! ### What a step adds -/

section Snoc

variable (tr : ProtocolTrace) (l : ProtocolLabel) (o : ProtocolOut) (id : String)

@[simp] theorem sentMsgs_snoc : sentMsgs (tr ++ [(l, o)]) = sentMsgs tr ++ o.sent := by
  simp [sentMsgs]

@[simp] theorem deliveredMsgs_snoc :
    deliveredMsgs (tr ++ [(l, o)]) = deliveredMsgs tr ++ o.delivered := by
  simp [deliveredMsgs]

@[simp] theorem eventsOf_snoc : eventsOf (tr ++ [(l, o)]) = eventsOf tr ++ o.events := by
  simp [eventsOf]

@[simp] theorem received_snoc :
    received id (tr ++ [(l, o)]) = received id tr ++ o.events.filterMap (HostEvent.chunkFor id) := by
  simp [received]

@[simp] theorem settled_snoc :
    settled id (tr ++ [(l, o)]) = settled id tr + o.events.countP (HostEvent.settles id) := by
  simp [settled]

end Snoc

@[simp] theorem chunksOf_nil (id : String) : chunksOf id [] = [] := rfl

@[simp] theorem chunksOf_append (id : String) (msgs msgs' : List NodeMessage) :
    chunksOf id (msgs ++ msgs') = chunksOf id msgs ++ chunksOf id msgs' :=
  List.filterMap_append

theorem texts_append (stream : OutputStream) (cs cs' : List (OutputStream × String)) :
    texts stream (cs ++ cs') = texts stream cs ++ texts stream cs' := by
  simp [texts]

/-- The arrays of a stream collect the chunks of its callback. -/
theorem push_texts (cs : List (OutputStream × String)) (stream : OutputStream) (data : String) :
    (⟨texts .stdout cs, texts .stderr cs⟩ : ExecOutput).push stream data =
      ⟨texts .stdout (cs ++ [(stream, data)]), texts .stderr (cs ++ [(stream, data)])⟩ := by
  cases stream <;> simp [ExecOutput.push, texts]

/-- A message under no or another id carries no chunk of the request. -/
theorem chunkFor_foreign {msg : NodeMessage} {id : String} (h : msg.requestId ≠ some id) :
    msg.chunkFor id = none := by
  cases msg with
  | execChunk requestId stream data =>
    have h_ne : requestId ≠ id := fun h_eq => h (congrArg some h_eq)
    exact if_neg h_ne
  | _ => rfl

theorem eventChunkFor_foreign {e : HostEvent} {id : String} (h : e.requestId ≠ some id) :
    e.chunkFor id = none := by
  cases e with
  | chunk requestId stream data =>
    have h_ne : requestId ≠ id := fun h_eq => h (congrArg some h_eq)
    exact if_neg h_ne
  | _ => rfl

theorem settles_foreign {e : HostEvent} {id : String} (h : e.requestId ≠ some id) :
    e.settles id = false := by
  cases e with
  | resolved requestId msg => exact decide_eq_false fun h_eq => h (congrArg some h_eq)
  | rejected requestId message => exact decide_eq_false fun h_eq => h (congrArg some h_eq)
  | _ => rfl

/-- Events of other requests call no callback of this one. -/
theorem filterMap_foreign {events : List HostEvent} {id : String}
    (h : ∀ e ∈ events, e.requestId ≠ some id) :
    events.filterMap (HostEvent.chunkFor id) = [] :=
  List.filterMap_eq_nil_iff.mpr fun e h_e => eventChunkFor_foreign (h e h_e)

theorem countP_foreign {events : List HostEvent} {id : String}
    (h : ∀ e ∈ events, e.requestId ≠ some id) : events.countP (HostEvent.settles id) = 0 :=
  List.countP_eq_zero.mpr fun e h_e => by simp [settles_foreign (h e h_e)]

section Steps

variable {s s' : ProtocolState} {o : ProtocolOut}

/-- How often the loop of `disconnect` rejects a request. -/
theorem countP_rejected (t : Table String RequestKind) (id : String) :
    (t.entries.map fun e => HostEvent.rejected e.1 "Node disconnected").countP
      (HostEvent.settles id) = if (t.get? id).isSome then 1 else 0 := by
  have h_count : (t.entries.map fun e => HostEvent.rejected e.1 "Node disconnected").countP
      (HostEvent.settles id) = t.keys.count id := by
    rw [List.countP_map, List.count, Table.keys, List.countP_map]
    rfl
  rw [h_count]
  cases h_get : t.get? id with
  | none => exact List.count_eq_zero.mpr (Table.get?_eq_none_iff.mp h_get)
  | some kind =>
    refine List.count_eq_one_of_mem t.nodup (List.mem_map.mpr ⟨(id, kind), ?_, rfl⟩)
    exact Table.get?_eq_some_iff.mp h_get

/-- **A request is settled exactly when it leaves the pending map.** -/
theorem settle_step (h : ProtocolShape s s' o) (id : String) :
    o.events.countP (HostEvent.settles id) + s'.open? id = s.open? id ∨
      id ∉ s.used ∧ s'.open? id = 1 ∧ o.events = [] := by
  have h_settles : ∀ {id' : String} {kind : RequestKind} {e : HostEvent} {rest : List HostEvent},
      Settles s s' id' kind → o.events = e :: rest → e.settles id' = true →
      e.requestId = some id' → (∀ e' ∈ rest, e'.settles id = false) →
      o.events.countP (HostEvent.settles id) + s'.open? id = s.open? id := by
    intro id' kind e rest h_settles h_events h_e h_own h_rest
    have h_zero : rest.countP (HostEvent.settles id) = 0 :=
      List.countP_eq_zero.mpr fun e' h_e' => by simp [h_rest e' h_e']
    rw [h_events, List.countP_cons, h_zero]
    by_cases h_eq : id = id'
    · subst h_eq
      simp [ProtocolState.open?, h_e, h_settles.was, h_settles.gone]
    · have h_foreign : e.settles id = false :=
        settles_foreign (by rw [h_own]; exact fun h' => h_eq (Option.some.inj h').symm)
      simp [ProtocolState.open?, h_foreign, h_settles.pending_other h_eq]
  cases h with
  | sends h_same _ h_events => simp [h_events, ProtocolState.open?, h_same.pending]
  | passes msg h_same _ _ h_events =>
    refine .inl ?_
    rw [countP_foreign fun e h_e => by simp [h_events e h_e]]
    simp [ProtocolState.open?, h_same.pending]
  | opens id' kind h_fresh _ h_pending _ _ _ _ _ _ h_events =>
    by_cases h_eq : id = id'
    · subst h_eq
      exact .inr ⟨h_fresh, by simp [ProtocolState.open?, h_pending], h_events⟩
    · refine .inl ?_
      simp [h_events, ProtocolState.open?, h_pending, Table.get?_set_of_ne _ _ h_eq]
  | streams id' stream data _ _ h_pending _ _ _ h_events =>
    simp [h_events, ProtocolState.open?, h_pending, HostEvent.settles]
  | expires id' kind h_settled _ _ h_events =>
    exact .inl (h_settles h_settled h_events (by simp [HostEvent.settles]) rfl (by simp))
  | refuses id' kind message h_settled _ h_events =>
    exact .inl (h_settles h_settled h_events (by simp [HostEvent.settles]) rfl (by simp))
  | replies id' kind msg h_settled _ _ h_events =>
    cases kind with
    | request =>
      exact .inl (h_settles h_settled h_events (by simp [HostEvent.settles]) rfl (by simp))
    | streamExec =>
      refine .inl (h_settles h_settled h_events (by simp [HostEvent.settles]) rfl ?_)
      simp [ProtocolState.result, HostEvent.settles]
  | drops _ _ _ h_pending _ _ _ _ _ h_events =>
    obtain ⟨exits, h_exits, h_events⟩ := h_events
    have h_zero : exits.countP (HostEvent.settles id) = 0 :=
      countP_foreign fun e h_e => by simp [h_exits e h_e]
    refine .inl ?_
    rw [h_events, List.countP_append, h_zero, countP_rejected]
    simp [ProtocolState.open?, h_pending]

/-- An issued request is pending. -/
theorem issue_step {l : ProtocolLabel} {id : String} (hs : s.step l = some (s', o))
    (h_issues : l.issues id = true) :
    id ∉ s.used ∧ s'.open? id = 1 ∧ o.events = [] ∧ id ∈ s'.used := by
  cases l with
  | request requestId =>
    obtain rfl : requestId = id := by simpa [ProtocolLabel.issues] using h_issues
    simp only [ProtocolState.step] at hs
    split at hs
    · exact absurd hs (by simp)
    · next h_fresh =>
      rw [not_or] at h_fresh
      obtain ⟨rfl, rfl⟩ := Prod.mk.inj (Option.some.inj hs)
      obtain ⟨h_pending, -, -, -, -, -, h_used⟩ :=
        ProtocolState.sendControl_same { s with
          used := requestId :: s.used
          pending := s.pending.set requestId .request
          timers := s.timers.set requestId .request } (.request requestId)
      refine ⟨h_fresh.1, ?_, rfl, h_used.symm ▸ List.mem_cons_self⟩
      simp [ProtocolState.open?, ProtocolState.request, h_pending]
  | streamExec requestId command =>
    obtain rfl : requestId = id := by simpa [ProtocolLabel.issues] using h_issues
    simp only [ProtocolState.step] at hs
    split at hs
    · exact absurd hs (by simp)
    · next h_fresh =>
      rw [not_or] at h_fresh
      obtain ⟨rfl, rfl⟩ := Prod.mk.inj (Option.some.inj hs)
      obtain ⟨h_pending, -, -, -, -, -, h_used⟩ :=
        ProtocolState.sendControl_same { s with
          used := requestId :: s.used
          outputs := s.outputs.set requestId ⟨[], []⟩
          execStreams := s.execStreams.set requestId ()
          pending := s.pending.set requestId .streamExec
          timers := s.timers.set requestId .streamExec } (.execStreamRequest requestId command)
      refine ⟨h_fresh.1, ?_, rfl, h_used.symm ▸ List.mem_cons_self⟩
      simp [ProtocolState.open?, ProtocolState.streamExec, h_pending]
  | _ => cases h_issues

/-- The wire delivers in order. -/
theorem fifo_step {sent delivered lost : List NodeMessage} (h_inv : RequestsInv s)
    (h : ProtocolShape s s' o) (h_fifo : sent = delivered ++ lost)
    (h_lost : s.connected = true → lost = s.up) :
    ∃ lost', sent ++ o.sent = delivered ++ o.delivered ++ lost' ∧
      (s'.connected = true → lost' = s'.up) := by
  have h_wired : Wired s s' o → ∃ lost', sent ++ o.sent = delivered ++ o.delivered ++ lost' ∧
      (s'.connected = true → lost' = s'.up) := by
    intro h_wire
    refine ⟨lost ++ o.sent, by rw [h_fifo, h_wire.delivered]; simp, fun h_up => ?_⟩
    rw [h_wire.connected] at h_up
    rw [h_wire.up, h_lost h_up, h_up]
    rfl
  have h_takes : ∀ {msg : NodeMessage}, Took s s' msg o →
      ∃ lost', sent ++ o.sent = delivered ++ o.delivered ++ lost' ∧
        (s'.connected = true → lost' = s'.up) := by
    intro msg h_took
    -- nothing arrives over a closed connection
    have h_open : s.connected = true := by
      cases h_connected : s.connected with
      | true => rfl
      | false =>
        have h_empty := h_inv.closed h_connected
        rw [h_took.up] at h_empty
        exact absurd h_empty (List.cons_ne_nil _ _)
    refine ⟨s'.up, ?_, fun _ => rfl⟩
    rw [h_fifo, h_lost h_open, h_took.up, h_took.sent, h_took.delivered]
    simp
  cases h with
  | sends _ h_wire _ => exact h_wired h_wire
  | passes _ _ h_took _ _ => exact h_takes h_took
  | opens _ _ _ _ _ _ _ _ h_wire _ _ _ => exact h_wired h_wire
  | streams _ _ _ _ h_took _ _ _ _ _ => exact h_takes h_took
  | expires _ _ _ h_wire _ _ => exact h_wired h_wire
  | refuses _ _ _ _ h_took _ => exact h_takes h_took
  | replies _ _ _ _ h_took _ _ => exact h_takes h_took
  | drops h_connected _ _ _ _ _ _ h_sent h_delivered _ =>
    refine ⟨lost, by rw [h_fifo, h_sent, h_delivered]; simp, fun h_up => ?_⟩
    rw [h_connected] at h_up
    cases h_up

/-- Ids are never given up. -/
theorem used_step (h : ProtocolShape s s' o) : s.used ⊆ s'.used := by
  cases h with
  | sends _ h_wire _ => exact h_wire.used
  | passes _ _ h_took _ _ => exact h_took.used ▸ List.Subset.refl _
  | opens _ _ _ _ _ _ _ _ h_wire _ _ _ => exact h_wire.used
  | streams _ _ _ _ h_took _ _ _ _ _ => exact h_took.used ▸ List.Subset.refl _
  | expires _ _ _ h_wire _ _ => exact h_wire.used
  | refuses _ _ _ _ h_took _ => exact h_took.used ▸ List.Subset.refl _
  | replies _ _ _ _ h_took _ _ => exact h_took.used ▸ List.Subset.refl _
  | drops _ _ h_used _ _ _ _ _ _ _ => exact h_used ▸ List.Subset.refl _

/-- What is sent carries used ids. -/
theorem sent_step (h : ProtocolShape s s' o) :
    ∀ msg ∈ o.sent, ∀ id, msg.requestId = some id → id ∈ s'.used := by
  have h_nothing : o.sent = [] → ∀ msg ∈ o.sent, ∀ id, msg.requestId = some id → id ∈ s'.used := by
    intro h_sent msg h_msg
    rw [h_sent] at h_msg
    cases h_msg
  cases h with
  | sends _ h_wire _ => exact h_wire.sent
  | passes _ _ h_took _ _ => exact h_nothing h_took.sent
  | opens _ _ _ _ _ _ _ _ h_wire _ _ _ => exact h_wire.sent
  | streams _ _ _ _ h_took _ _ _ _ _ => exact h_nothing h_took.sent
  | expires _ _ _ h_wire _ _ => exact h_wire.sent
  | refuses _ _ _ _ h_took _ => exact h_nothing h_took.sent
  | replies _ _ _ _ h_took _ _ => exact h_nothing h_took.sent
  | drops _ _ _ _ _ _ _ h_sent _ _ => exact h_nothing h_sent

/-- Why a promise or a callback is called. -/
inductive EventCause (s s' : ProtocolState) (o : ProtocolOut) : HostEvent → Prop
  | chunk (id : String) (stream : OutputStream) (data : String)
      (h_live : s.pending.get? id = some .streamExec) : EventCause s s' o (.chunk id stream data)
  | expired (id : String) (kind : RequestKind) (h : Settles s s' id kind) :
      EventCause s s' o (.rejected id (kind.timeoutMessage id))
  | refused (id : String) (kind : RequestKind) (message : String) (h : Settles s s' id kind)
      (h_delivered : o.delivered = [.error (some id) message]) :
      EventCause s s' o (.rejected id message)
  | dropped (id : String) (kind : RequestKind) (h : s.pending.get? id = some kind) :
      EventCause s s' o (.rejected id "Node disconnected")
  | resolved (id : String) (kind : RequestKind) (msg : NodeMessage) (h : Settles s s' id kind)
      (h_delivered : o.delivered = [msg]) (h_own : Replies id msg) :
      EventCause s s' o (.resolved id msg)
  | returned (id : String) (msg : NodeMessage) (h : Settles s s' id .streamExec)
      (h_delivered : o.delivered = [msg])
      (h_events : o.events = [.resolved id msg, s.result id msg]) :
      EventCause s s' o (s.result id msg)
  | shell (e : HostEvent) (h : e.requestId = none) : EventCause s s' o e

theorem event_cause (h_inv : RequestsInv s) (h : ProtocolShape s s' o) {e : HostEvent}
    (h_e : e ∈ o.events) : EventCause s s' o e := by
  cases h with
  | sends _ _ h_events => simp [h_events] at h_e
  | passes _ _ _ _ h_events => exact .shell e (h_events e h_e)
  | opens _ _ _ _ _ _ _ _ _ _ _ h_events => simp [h_events] at h_e
  | streams id stream data h_sink _ _ _ _ _ h_events =>
    obtain rfl := List.mem_singleton.mp (h_events ▸ h_e)
    exact .chunk id stream data ((h_inv.streams id).mp h_sink)
  | expires id kind h_settles _ _ h_events =>
    obtain rfl := List.mem_singleton.mp (h_events ▸ h_e)
    exact .expired id kind h_settles
  | refuses id kind message h_settles h_took h_events =>
    obtain rfl := List.mem_singleton.mp (h_events ▸ h_e)
    exact .refused id kind message h_settles h_took.delivered
  | replies id kind msg h_settles h_took h_own h_events =>
    cases kind with
    | request =>
      obtain rfl := List.mem_singleton.mp (h_events ▸ h_e)
      exact .resolved id .request msg h_settles h_took.delivered h_own
    | streamExec =>
      obtain rfl | rfl : e = .resolved id msg ∨ e = s.result id msg := by
        simpa [h_events] using h_e
      · exact .resolved id .streamExec msg h_settles h_took.delivered h_own
      · exact .returned id msg h_settles h_took.delivered h_events
  | drops _ _ _ _ _ _ _ _ _ h_events =>
    obtain ⟨exits, h_exits, h_events⟩ := h_events
    obtain h_e | h_e := List.mem_append.mp (h_events ▸ h_e)
    · obtain ⟨entry, h_entry, rfl⟩ := List.mem_map.mp h_e
      exact .dropped entry.1 entry.2 (Table.get?_eq_some_iff.mpr h_entry)
    · exact .shell e (h_exits e h_e)

/-- Only a pending request has events. -/
theorem event_pending (h_inv : RequestsInv s) (h : ProtocolShape s s' o) {e : HostEvent}
    {id : String} (h_e : e ∈ o.events) (h_id : e.requestId = some id) :
    ∃ kind, s.pending.get? id = some kind := by
  have h_cause := event_cause h_inv h h_e
  cases h_cause with
  | chunk id' stream data h_live => exact ⟨_, Option.some.inj h_id ▸ h_live⟩
  | expired id' kind h_settles => exact ⟨_, Option.some.inj h_id ▸ h_settles.was⟩
  | refused id' kind message h_settles _ => exact ⟨_, Option.some.inj h_id ▸ h_settles.was⟩
  | dropped id' kind h_was => exact ⟨_, Option.some.inj h_id ▸ h_was⟩
  | resolved id' kind msg h_settles _ _ => exact ⟨_, Option.some.inj h_id ▸ h_settles.was⟩
  | returned id' msg h_settles _ _ => exact ⟨_, Option.some.inj h_id ▸ h_settles.was⟩
  | shell e h_none =>
    rw [h_none] at h_id
    cases h_id

/-- A request that is pending was so before, or it is issued now. -/
theorem pending_step (h : ProtocolShape s s' o) {id : String} {kind : RequestKind}
    (h_pending : s'.pending.get? id = some kind) :
    s.pending.get? id = some kind ∨ id ∉ s.used ∧ o.events = [] ∧ o.delivered = [] ∧
      (kind = .streamExec → s'.outputs.get? id = some ⟨[], []⟩) := by
  cases h with
  | sends h_same _ _ => exact .inl (h_same.pending ▸ h_pending)
  | passes _ h_same _ _ _ => exact .inl (h_same.pending ▸ h_pending)
  | opens id' kind' h_fresh _ h_set _ _ h_outputs h_wire _ _ h_events =>
    rw [h_set] at h_pending
    obtain ⟨rfl, rfl⟩ | ⟨-, h_was⟩ := Table.get?_set_eq_some h_pending
    · refine .inr ⟨h_fresh, h_events, h_wire.delivered, fun h_kind => ?_⟩
      subst h_kind
      rw [h_outputs, Table.get?_set_self]
    · exact .inl h_was
  | streams _ _ _ _ _ h_same _ _ _ _ => exact .inl (h_same ▸ h_pending)
  | expires _ _ h_settles _ _ _ => exact .inl (h_settles.was_pending h_pending).2
  | refuses _ _ _ h_settles _ _ => exact .inl (h_settles.was_pending h_pending).2
  | replies _ _ _ h_settles _ _ _ => exact .inl (h_settles.was_pending h_pending).2
  | drops _ _ _ h_empty _ _ _ _ _ _ => simp [h_empty] at h_pending

/-- The callback of a live stream sees the chunks delivered under its id. -/
theorem received_step (h_inv : RequestsInv s) (h : ProtocolShape s s' o) {id : String}
    (h_live : s.pending.get? id = some .streamExec) :
    o.events.filterMap (HostEvent.chunkFor id) = chunksOf id o.delivered := by
  have h_sink := (h_inv.streams id).mpr h_live
  cases h with
  | sends _ h_wire h_events => rw [h_events, h_wire.delivered]; rfl
  | passes msg _ h_took h_chunk h_events =>
    have h_none : msg.chunkFor id = none := by
      cases msg with
      | execChunk id' stream data =>
        refine if_neg fun h_eq => ?_
        rw [← h_eq, h_chunk id' stream data rfl] at h_sink
        cases h_sink
      | _ => rfl
    rw [h_took.delivered, filterMap_foreign fun e h_e => by simp [h_events e h_e]]
    simp [chunksOf, h_none]
  | opens _ _ _ _ _ _ _ _ h_wire _ _ h_events => rw [h_events, h_wire.delivered]; rfl
  | streams id' stream data _ h_took _ _ _ _ h_events =>
    rw [h_events, h_took.delivered]
    rfl
  | expires _ _ _ h_wire _ h_events => rw [h_events, h_wire.delivered]; rfl
  | refuses _ _ _ _ h_took h_events => rw [h_events, h_took.delivered]; rfl
  | replies id' kind msg _ h_took h_own h_events =>
    have h_none : msg.chunkFor id = none := by
      cases msg with
      | execChunk id'' stream data => exact absurd rfl (h_own.chunk id'' stream data)
      | _ => rfl
    rw [h_events, h_took.delivered]
    cases kind <;> simp [chunksOf, h_none, HostEvent.chunkFor, ProtocolState.result]
  | drops _ _ _ _ _ _ _ _ h_delivered h_events =>
    obtain ⟨exits, h_exits, h_events⟩ := h_events
    have h_none : exits.filterMap (HostEvent.chunkFor id) = [] :=
      filterMap_foreign fun e h_e => by simp [h_exits e h_e]
    rw [h_events, h_delivered, List.filterMap_append, h_none, List.append_nil]
    refine List.filterMap_eq_nil_iff.mpr fun e h_e => ?_
    obtain ⟨entry, -, rfl⟩ := List.mem_map.mp h_e
    rfl

/-- The arrays of a live stream collect what its callback sees. -/
theorem outputs_step (h_inv : RequestsInv s) (h : ProtocolShape s s' o) {id : String}
    {cs : List (OutputStream × String)} (h_live : s.pending.get? id = some .streamExec)
    (h_live' : s'.pending.get? id = some .streamExec)
    (h_outputs : s.outputs.get? id = some ⟨texts .stdout cs, texts .stderr cs⟩) :
    s'.outputs.get? id =
      some ⟨texts .stdout (cs ++ o.events.filterMap (HostEvent.chunkFor id)),
        texts .stderr (cs ++ o.events.filterMap (HostEvent.chunkFor id))⟩ := by
  have h_kept : s'.outputs.get? id = s.outputs.get? id → (∀ e ∈ o.events, e.chunkFor id = none) →
      s'.outputs.get? id =
        some ⟨texts .stdout (cs ++ o.events.filterMap (HostEvent.chunkFor id)),
          texts .stderr (cs ++ o.events.filterMap (HostEvent.chunkFor id))⟩ := by
    intro h_same h_none
    rw [h_same, h_outputs, List.filterMap_eq_nil_iff.mpr h_none, List.append_nil]
  cases h with
  | sends h_same _ h_events => exact h_kept (by rw [h_same.outputs]) (by simp [h_events])
  | passes _ h_same _ _ h_events =>
    exact h_kept (by rw [h_same.outputs]) fun e h_e =>
      eventChunkFor_foreign (by simp [h_events e h_e])
  | opens id' kind h_fresh _ _ _ _ h_set _ _ _ h_events =>
    have h_ne : id ≠ id' := fun h_eq => h_fresh (h_eq ▸ h_inv.used id _ h_live)
    refine h_kept ?_ (by simp [h_events])
    rw [h_set]
    cases kind with
    | request => rfl
    | streamExec => exact Table.get?_set_of_ne _ _ h_ne
  | streams id' stream data _ _ _ _ _ h_set h_events =>
    rw [h_set, Table.get?_modify, h_outputs, h_events]
    by_cases h_eq : id = id'
    · subst h_eq
      simp [push_texts, HostEvent.chunkFor]
    · have h_none : (HostEvent.chunk id' stream data).chunkFor id = none :=
        if_neg fun h' => h_eq h'.symm
      simp [h_none, h_eq]
  | expires _ _ h_settles _ _ h_events =>
    exact h_kept (by rw [h_settles.outputs]) (by simp [h_events, HostEvent.chunkFor])
  | refuses _ _ _ h_settles _ h_events =>
    exact h_kept (by rw [h_settles.outputs]) (by simp [h_events, HostEvent.chunkFor])
  | replies _ kind _ h_settles _ _ h_events =>
    refine h_kept (by rw [h_settles.outputs]) ?_
    cases kind <;> simp [h_events, HostEvent.chunkFor, ProtocolState.result]
  | drops _ _ _ h_empty _ _ _ _ _ _ => simp [h_empty] at h_live'

end Steps

/-! ### The history -/

/-- Why a request may be rejected. -/
inductive Refusal (tr : ProtocolTrace) (id : String) : String → Prop
  | error {message : String} (h : .error (some id) message ∈ deliveredMsgs tr) :
      Refusal tr id message
  | timeout (kind : RequestKind) : Refusal tr id (kind.timeoutMessage id)
  | disconnected : Refusal tr id "Node disconnected"

/-- What `streamExec` returns: the chunks sent before the reply that resolved it. -/
structure ReturnedExact (tr : ProtocolTrace) (id stdout stderr : String) (code : Option Int)
    (before : List NodeMessage) (msg : NodeMessage) (after : List NodeMessage) : Prop where
  resolved : .resolved id msg ∈ eventsOf tr
  sent : sentMsgs tr = before ++ msg :: after
  received : received id tr = chunksOf id before
  stdout : stdout = "".intercalate (texts .stdout (chunksOf id before))
  stderr : stderr = "".intercalate (texts .stderr (chunksOf id before))
  code : ∀ c, msg = .execStreamEnd id c → code = some c

/-- The trace and the maps. -/
structure ProtocolHistory (tr : ProtocolTrace) (s : ProtocolState) : Prop where
  fifo : ∃ lost, sentMsgs tr = deliveredMsgs tr ++ lost ∧ (s.connected = true → lost = s.up)
  sent : ∀ msg ∈ sentMsgs tr, ∀ id, msg.requestId = some id → id ∈ s.used
  seen : ∀ e ∈ eventsOf tr, ∀ id, e.requestId = some id → id ∈ s.used
  once : ∀ id, settled id tr + s.open? id ≤ 1
  issued : ∀ id, Issued id tr → id ∈ s.used ∧ settled id tr + s.open? id = 1
  own : ∀ id msg, .resolved id msg ∈ eventsOf tr →
    Replies id msg ∧ msg ∈ deliveredMsgs tr
  refused : ∀ id message, .rejected id message ∈ eventsOf tr → Refusal tr id message
  live : ∀ id, s.pending.get? id = some .streamExec →
    received id tr = chunksOf id (deliveredMsgs tr) ∧
      s.outputs.get? id = some ⟨texts .stdout (received id tr), texts .stderr (received id tr)⟩
  prefixes : ∀ id, received id tr <+: chunksOf id (deliveredMsgs tr)
  returned : ∀ id stdout stderr code, .returned id stdout stderr code ∈ eventsOf tr →
    s.pending.get? id = none ∧
      ∃ before msg after, ReturnedExact tr id stdout stderr code before msg after

namespace ProtocolHistory

variable {tr : ProtocolTrace} {s s' : ProtocolState} {l : ProtocolLabel} {o : ProtocolOut}

theorem init : ProtocolHistory [] protocolMachine.init where
  fifo := ⟨[], rfl, fun _ => rfl⟩
  sent _ h := by cases h
  seen _ h := by cases h
  once _ := Nat.zero_le 1
  issued _ h := by
    obtain ⟨e, h_e, -⟩ := h
    cases h_e
  own _ _ h := by cases h
  refused _ _ h := by cases h
  live _ h := by cases h
  prefixes _ := List.prefix_rfl
  returned _ _ _ _ h := by cases h

/-- What arrived was sent. -/
theorem delivered_sent (h : ProtocolHistory tr s) {msg : NodeMessage}
    (h_msg : msg ∈ deliveredMsgs tr) : msg ∈ sentMsgs tr := by
  obtain ⟨lost, h_fifo, -⟩ := h.fifo
  rw [h_fifo]
  exact List.mem_append_left _ h_msg

/-- Nothing has happened under an unused id. -/
theorem fresh (h : ProtocolHistory tr s) {id : String} (h_fresh : id ∉ s.used) :
    settled id tr = 0 ∧ received id tr = [] ∧ chunksOf id (deliveredMsgs tr) = [] := by
  have h_events : ∀ e ∈ eventsOf tr, e.requestId ≠ some id := fun e h_e h_id =>
    h_fresh (h.seen e h_e id h_id)
  refine ⟨countP_foreign h_events, filterMap_foreign h_events,
    List.filterMap_eq_nil_iff.mpr fun msg h_msg => chunkFor_foreign fun h_id => ?_⟩
  exact h_fresh (h.sent msg (h.delivered_sent h_msg) id h_id)

section Step

variable (h_inv : RequestsInv s) (h : ProtocolHistory tr s) (h_shape : ProtocolShape s s' o)
include h_inv h h_shape

omit h_inv in
theorem step_once (id : String) : settled id (tr ++ [(l, o)]) + s'.open? id ≤ 1 := by
  rw [settled_snoc]
  obtain h_settle | ⟨h_fresh, h_open, h_events⟩ := settle_step h_shape id
  · rw [Nat.add_assoc, h_settle]
    exact h.once id
  · rw [(h.fresh h_fresh).1, h_open, h_events]
    exact Nat.le_refl 1

omit h_inv in
theorem step_issued (hs : s.step l = some (s', o)) (id : String)
    (h_issued : Issued id (tr ++ [(l, o)])) :
    id ∈ s'.used ∧ settled id (tr ++ [(l, o)]) + s'.open? id = 1 := by
  rw [settled_snoc]
  obtain ⟨e, h_e, h_issues⟩ := h_issued
  obtain h_old | h_new := List.mem_append.mp h_e
  · obtain ⟨h_used, h_one⟩ := h.issued id ⟨e, h_old, h_issues⟩
    obtain h_settle | ⟨h_fresh, -⟩ := settle_step h_shape id
    · rw [Nat.add_assoc, h_settle]
      exact ⟨used_step h_shape h_used, h_one⟩
    · exact absurd h_used h_fresh
  · obtain rfl := List.mem_singleton.mp h_new
    obtain ⟨h_fresh, h_open, h_events, h_used⟩ := issue_step hs h_issues
    rw [(h.fresh h_fresh).1, h_open, h_events]
    exact ⟨h_used, rfl⟩

theorem step_live (id : String) (h_live : s'.pending.get? id = some .streamExec) :
    received id (tr ++ [(l, o)]) = chunksOf id (deliveredMsgs (tr ++ [(l, o)])) ∧
      s'.outputs.get? id = some ⟨texts .stdout (received id (tr ++ [(l, o)])),
        texts .stderr (received id (tr ++ [(l, o)]))⟩ := by
  rw [received_snoc, deliveredMsgs_snoc, chunksOf_append]
  obtain h_was | ⟨h_fresh, h_events, h_delivered, h_outputs⟩ := pending_step h_shape h_live
  · obtain ⟨h_received, h_collected⟩ := h.live id h_was
    refine ⟨?_, outputs_step h_inv h_shape h_was h_live h_collected⟩
    rw [h_received, received_step h_inv h_shape h_was]
  · obtain ⟨-, h_received, h_chunks⟩ := h.fresh h_fresh
    rw [h_received, h_chunks, h_events, h_delivered]
    exact ⟨rfl, h_outputs rfl⟩

theorem step_prefixes (id : String) :
    received id (tr ++ [(l, o)]) <+: chunksOf id (deliveredMsgs (tr ++ [(l, o)])) := by
  rw [received_snoc, deliveredMsgs_snoc, chunksOf_append]
  by_cases h_live : s.pending.get? id = some .streamExec
  · have h_eq := (h.live id h_live).1
    have h_new := received_step h_inv h_shape h_live
    exact ⟨[], by rw [h_eq, h_new, List.append_nil]⟩
  · -- only the sink of a live stream calls the callback
    have h_none : o.events.filterMap (HostEvent.chunkFor id) = [] := by
      refine List.filterMap_eq_nil_iff.mpr fun e h_e => ?_
      have h_cause := event_cause h_inv h_shape h_e
      cases h_cause with
      | chunk id' stream data h_live' =>
        exact if_neg fun (h_eq : id' = id) => h_live (h_eq ▸ h_live')
      | shell e h_none => exact eventChunkFor_foreign (by simp [h_none])
      | _ => rfl
    rw [h_none, List.append_nil]
    exact (h.prefixes id).trans (List.prefix_append _ _)

theorem step_own (id : String) (msg : NodeMessage)
    (h_resolved : .resolved id msg ∈ eventsOf (tr ++ [(l, o)])) :
    Replies id msg ∧ msg ∈ deliveredMsgs (tr ++ [(l, o)]) := by
  rw [eventsOf_snoc] at h_resolved
  rw [deliveredMsgs_snoc]
  obtain h_old | h_new := List.mem_append.mp h_resolved
  · exact ⟨(h.own id msg h_old).1, List.mem_append_left _ (h.own id msg h_old).2⟩
  · have h_cause := event_cause h_inv h_shape h_new
    cases h_cause with
    | resolved _ kind _ _ h_delivered h_own => exact ⟨h_own, by simp [h_delivered]⟩
    | shell _ h_none => cases h_none

theorem step_refused (id message : String)
    (h_rejected : .rejected id message ∈ eventsOf (tr ++ [(l, o)])) :
    Refusal (tr ++ [(l, o)]) id message := by
  rw [eventsOf_snoc] at h_rejected
  obtain h_old | h_new := List.mem_append.mp h_rejected
  · have h_refusal := h.refused id message h_old
    cases h_refusal with
    | error h_error =>
      exact .error (by rw [deliveredMsgs_snoc]; exact List.mem_append_left _ h_error)
    | timeout kind => exact .timeout kind
    | disconnected => exact .disconnected
  · have h_cause := event_cause h_inv h_shape h_new
    cases h_cause with
    | expired _ kind _ => exact .timeout kind
    | refused _ kind _ _ h_delivered => exact .error (by simp [h_delivered])
    | dropped _ kind _ => exact .disconnected
    | shell _ h_none => cases h_none

theorem step_returned (id stdout stderr : String) (code : Option Int)
    (h_returned : .returned id stdout stderr code ∈ eventsOf (tr ++ [(l, o)])) :
    s'.pending.get? id = none ∧
      ∃ before msg after, ReturnedExact (tr ++ [(l, o)]) id stdout stderr code before msg after := by
  rw [eventsOf_snoc] at h_returned
  obtain h_old | h_new := List.mem_append.mp h_returned
  · obtain ⟨h_none, before, msg, after, h_exact⟩ := h.returned id stdout stderr code h_old
    have h_used : id ∈ s.used := h.seen _ h_old id rfl
    -- the request is gone for good, and so is its sink
    have h_gone : s'.pending.get? id = none := by
      cases h_get : s'.pending.get? id with
      | none => rfl
      | some kind =>
        obtain h_was | ⟨h_fresh, -⟩ := pending_step h_shape h_get
        · rw [h_none] at h_was
          cases h_was
        · exact absurd h_used h_fresh
    have h_quiet : o.events.filterMap (HostEvent.chunkFor id) = [] := by
      refine filterMap_foreign fun e h_e h_id => ?_
      obtain ⟨kind, h_was⟩ := event_pending h_inv h_shape h_e h_id
      rw [h_none] at h_was
      cases h_was
    refine ⟨h_gone, before, msg, after ++ o.sent, ?_, ?_, ?_, h_exact.stdout, h_exact.stderr,
      h_exact.code⟩
    · rw [eventsOf_snoc]
      exact List.mem_append_left _ h_exact.resolved
    · rw [sentMsgs_snoc, h_exact.sent, List.append_assoc, List.cons_append]
    · rw [received_snoc, h_quiet, List.append_nil, h_exact.received]
  · have h_cause := event_cause h_inv h_shape h_new
    generalize h_e : HostEvent.returned id stdout stderr code = e at h_cause
    cases h_cause with
    | returned id' msg h_settles h_delivered h_events =>
      obtain ⟨rfl, h_stdout, h_stderr, h_code⟩ := HostEvent.returned.inj h_e
      obtain ⟨lost, h_fifo, h_lost⟩ := h.fifo
      obtain ⟨lost', h_fifo', -⟩ := fifo_step h_inv h_shape h_fifo h_lost
      obtain ⟨h_received, h_outputs⟩ := h.live id h_settles.was
      rw [h_outputs, Option.getD_some, h_received] at h_stdout h_stderr
      refine ⟨h_settles.gone, deliveredMsgs tr, msg, lost', ?_, ?_, ?_, h_stdout, h_stderr,
        fun c h_msg => ?_⟩
      · simp [h_events]
      · rw [sentMsgs_snoc, h_fifo', h_delivered]
        simp
      · rw [received_snoc, h_events, h_received]
        simp [HostEvent.chunkFor, ProtocolState.result]
      · rw [h_code, h_msg]
    | shell _ h_none =>
      subst h_e
      cases h_none
    | _ => cases h_e

/-- **Step lemma.** -/
theorem step (hs : s.step l = some (s', o)) : ProtocolHistory (tr ++ [(l, o)]) s' where
  fifo := by
    obtain ⟨lost, h_fifo, h_lost⟩ := h.fifo
    rw [sentMsgs_snoc, deliveredMsgs_snoc]
    exact fifo_step h_inv h_shape h_fifo h_lost
  sent msg h_msg id h_id := by
    obtain h_old | h_new := List.mem_append.mp (sentMsgs_snoc tr l o ▸ h_msg)
    · exact used_step h_shape (h.sent msg h_old id h_id)
    · exact sent_step h_shape msg h_new id h_id
  seen e h_e id h_id := by
    obtain h_old | h_new := List.mem_append.mp (eventsOf_snoc tr l o ▸ h_e)
    · exact used_step h_shape (h.seen e h_old id h_id)
    · obtain ⟨kind, h_pending⟩ := event_pending h_inv h_shape h_new h_id
      exact used_step h_shape (h_inv.used id kind h_pending)
  once := h.step_once h_shape
  issued := h.step_issued h_shape hs
  own := h.step_own h_inv h_shape
  refused := h.step_refused h_inv h_shape
  live := h.step_live h_inv h_shape
  prefixes := h.step_prefixes h_inv h_shape
  returned := h.step_returned h_inv h_shape

end Step

/-- **Run lemma.** -/
theorem of_run {ok : ProtocolState → ProtocolLabel → Prop}
    (h : protocolMachine.RunWhen ok tr s) : ProtocolHistory tr s :=
  h.history init fun _ _ _ _ _ h_run h_hist _ hs =>
    have h_inv := RequestsInv.of_run h_run
    h_hist.step h_inv (ProtocolState.step_shape h_inv.timers hs) hs

end ProtocolHistory

end ServerCentral.Agent
