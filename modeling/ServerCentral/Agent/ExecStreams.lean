import ServerCentral.Agent.RequestHistory

/-!
# Streamed commands on the agent

A streamed command is on its way to the agent, being started or running under an id of its
own (`ProtocolState.active`). It ends with its exit code, and nothing is sent for it after
that: unless somebody else sends under its id, no chunk follows the `execStreamEnd`.
-/

open Framework
open scoped List

namespace ServerCentral.Agent

def ControlMessage.execId : ControlMessage → Option String
  | .execStreamRequest requestId _ => some requestId
  | _ => none

/-- The ids of the streamed commands under way on the agent's side. -/
def ProtocolState.active (s : ProtocolState) : List String :=
  s.down.filterMap ControlMessage.execId ++ (s.spawnFailures ++ s.execs.keys)

/-- No chunk follows the exit code. -/
def Tidy (id : String) (msgs : List NodeMessage) : Prop :=
  ∀ before code after, msgs = before ++ .execStreamEnd id code :: after → chunksOf id after = []

/-- What `runExecStream` sends. -/
structure FromExec (id : String) (msg : NodeMessage) : Prop where
  own : msg.requestId = some id
  kind : ∀ requestId type body, msg ≠ .response requestId type body

/-- Nobody else sends under the id. -/
def Uninjected (id : String) (tr : ProtocolTrace) : Prop :=
  ∀ msg o, (.inject msg, o) ∈ tr → msg.requestId ≠ some id

/-! ### Messages after the exit code -/

section Tidy

variable {id : String} {msgs msgs' : List NodeMessage}

theorem chunksOf_foreign (h : ∀ msg ∈ msgs, msg.requestId ≠ some id) : chunksOf id msgs = [] :=
  List.filterMap_eq_nil_iff.mpr fun msg h_msg => chunkFor_foreign (h msg h_msg)

theorem Tidy.of_foreign (h : ∀ msg ∈ msgs, msg.requestId ≠ some id) : Tidy id msgs := by
  rintro before code after rfl
  exact absurd rfl (h (.execStreamEnd id code) (by simp))

/-- Messages that bring no end, or no chunk, of a request that has not ended, or has. -/
theorem Tidy.append (h : Tidy id msgs) (h' : Tidy id msgs')
    (h_ended : ∀ code, .execStreamEnd id code ∈ msgs → chunksOf id msgs' = []) :
    Tidy id (msgs ++ msgs') := by
  intro before code after h_eq
  obtain ⟨rest, rfl, h_rest⟩ | ⟨rest, rfl, h_rest⟩ := List.append_eq_append_iff.mp h_eq
  · exact h' rest code after h_rest
  · cases rest with
    | nil => exact h' [] code after h_rest.symm
    | cons msg rest =>
      obtain ⟨rfl, rfl⟩ := List.cons.inj h_rest
      show chunksOf id (rest ++ msgs') = []
      rw [chunksOf_append, h before code rest rfl, h_ended code (by simp)]
      rfl

/-- A text of a pump. -/
theorem fromExec_chunkOf (id : String) (stream : OutputStream) (data : String) :
    ∀ msg ∈ ProtocolState.chunkOf id stream data, FromExec id msg ∧ ∀ id code,
      msg ≠ .execStreamEnd id code := by
  intro msg h_msg
  unfold ProtocolState.chunkOf at h_msg
  split at h_msg
  · cases h_msg
  · obtain rfl := List.mem_singleton.mp h_msg
    exact ⟨⟨rfl, by simp⟩, by simp⟩

/-- Messages without an exit code. -/
theorem Tidy.of_open (h : ∀ msg ∈ msgs, ∀ code, msg ≠ .execStreamEnd id code) : Tidy id msgs := by
  rintro before code after rfl
  exact absurd rfl (h (.execStreamEnd id code) (by simp) code)

end Tidy

/-! ### Steps -/

/-- What a step does to the commands under way. -/
structure ActiveStep (s s' : ProtocolState) (msgs : List NodeMessage) : Prop where
  nodup : s'.active.Nodup
  old : ∀ id ∈ s'.active, id ∈ s.active ∨ id ∉ s.used ∧ id ∈ s'.used
  sent : ∀ msg ∈ msgs, ∃ id ∈ s.active, FromExec id msg
  tidy : ∀ id, Tidy id msgs
  ended : ∀ id code, .execStreamEnd id code ∈ msgs → id ∉ s'.active

namespace ActiveStep

variable {s s' : ProtocolState}

/-- Nothing is sent, and commands may go. -/
theorem of_sublist (h_nodup : s.active.Nodup) (h : s'.active.Sublist s.active) :
    ActiveStep s s' [] where
  nodup := h.nodup h_nodup
  old id h_id := .inl (h.subset h_id)
  sent _ h_msg := by cases h_msg
  tidy _ := .of_foreign (by simp)
  ended _ _ h_msg := by cases h_msg

/-- Nothing is sent, and commands move on. -/
theorem of_perm (h_nodup : s.active.Nodup) (h : s'.active.Perm s.active) : ActiveStep s s' [] where
  nodup := h.nodup_iff.mpr h_nodup
  old id h_id := .inl (h.mem_iff.mp h_id)
  sent _ h_msg := by cases h_msg
  tidy _ := .of_foreign (by simp)
  ended _ _ h_msg := by cases h_msg

/-- A running command sends something. -/
theorem of_running (h_nodup : s.active.Nodup) (h_active : s'.active = s.active) (id : String)
    (h_id : id ∈ s.active) {msgs : List NodeMessage} (h_msgs : ∀ msg ∈ msgs, FromExec id msg)
    (h_open : ∀ msg ∈ msgs, ∀ id code, msg ≠ .execStreamEnd id code) : ActiveStep s s' msgs where
  nodup := h_active ▸ h_nodup
  old _ h := .inl (h_active ▸ h)
  sent msg h_msg := ⟨id, h_id, h_msgs msg h_msg⟩
  tidy other := .of_open fun msg h_msg => h_open msg h_msg other
  ended other code h_msg := absurd rfl (h_open _ h_msg other code)

/-- A command ends. -/
theorem of_end (h_nodup : s.active.Nodup) {id : String}
    (h_active : s.active.Perm (id :: s'.active)) {chunks : List NodeMessage} {code : Int}
    (h_chunks : ∀ msg ∈ chunks, FromExec id msg ∧ ∀ id code, msg ≠ .execStreamEnd id code) :
    ActiveStep s s' (chunks ++ [.execStreamEnd id code]) := by
  obtain ⟨h_gone, h_nodup'⟩ := List.nodup_cons.mp (h_active.nodup_iff.mp h_nodup)
  have h_only : ∀ other code', .execStreamEnd other code' ∈ chunks ++ [.execStreamEnd id code] →
      other = id := by
    intro other code' h_msg
    obtain h_msg | h_msg := List.mem_append.mp h_msg
    · exact absurd rfl ((h_chunks _ h_msg).2 other code')
    · exact (NodeMessage.execStreamEnd.inj (List.mem_singleton.mp h_msg)).1
  refine ⟨h_nodup', fun other h_other => ?_, fun msg h_msg => ?_, fun other => ?_,
    fun other code' h_msg => ?_⟩
  · exact .inl (h_active.mem_iff.mpr (List.mem_cons_of_mem _ h_other))
  · refine ⟨id, h_active.mem_iff.mpr List.mem_cons_self, ?_⟩
    obtain h_msg | h_msg := List.mem_append.mp h_msg
    · exact (h_chunks msg h_msg).1
    · obtain rfl := List.mem_singleton.mp h_msg
      exact ⟨rfl, by simp⟩
  · -- the exit code is the last message
    refine Tidy.append (.of_open fun msg h_msg => (h_chunks msg h_msg).2 other) ?_ fun code' h_msg =>
      absurd rfl ((h_chunks _ h_msg).2 other code')
    intro before code' after h_eq
    obtain ⟨rfl, h_tail⟩ | ⟨rest, -, h_tail⟩ := List.cons_eq_append_iff.mp h_eq
    · obtain ⟨-, rfl⟩ := List.cons.inj h_tail
      rfl
    · simp at h_tail
  · exact h_only other code' h_msg ▸ h_gone

end ActiveStep

/-- The agent's side is left alone. -/
structure SameAgent (s s' : ProtocolState) : Prop where
  down : s'.down = s.down
  spawnFailures : s'.spawnFailures = s.spawnFailures
  execs : s'.execs = s.execs

theorem SameAgent.active {s s' : ProtocolState} (h : SameAgent s s') : s'.active = s.active := by
  rw [ProtocolState.active, h.down, h.spawnFailures, h.execs, ProtocolState.active]

namespace ProtocolState

theorem cleanup_agent (s : ProtocolState) (id : String) (kind : RequestKind) :
    SameAgent s (s.cleanup id kind) := by
  cases kind <;> exact ⟨rfl, rfl, rfl⟩

theorem receive_agent (s : ProtocolState) (msg : NodeMessage) : SameAgent s (s.receive msg).1 := by
  have h_reply : ∀ msg, SameAgent s (s.receiveReply msg).1 := by
    intro msg
    unfold receiveReply
    split
    · exact ⟨rfl, rfl, rfl⟩
    · next id _ =>
      split
      · exact ⟨rfl, rfl, rfl⟩
      · next kind _ =>
        have h_cleanup := cleanup_agent { s with pending := s.pending.erase id } id kind
        dsimp only
        split <;> exact ⟨h_cleanup.down, h_cleanup.spawnFailures, h_cleanup.execs⟩
  cases msg with
  | metrics => exact ⟨rfl, rfl, rfl⟩
  | execChunk id stream data =>
    simp only [receive]
    split <;> exact ⟨rfl, rfl, rfl⟩
  | shellData sessionId data => exact ⟨rfl, rfl, rfl⟩
  | shellExit sessionId code =>
    simp only [receive]
    split <;> exact ⟨rfl, rfl, rfl⟩
  | pong => exact h_reply _
  | execStreamEnd id code => exact h_reply _
  | response id type body => exact h_reply _
  | error id message => exact h_reply _

theorem foldl_reject_agent (es : List (String × RequestKind))
    (acc : ProtocolState × List HostEvent) :
    SameAgent acc.1 (es.foldl (fun acc e =>
      let (s, events) := acc.1.reject e.1 e.2 "Node disconnected"
      (s, acc.2 ++ events)) acc).1 := by
  induction es generalizing acc with
  | nil => exact ⟨rfl, rfl, rfl⟩
  | cons e es ih =>
    have h_head := cleanup_agent acc.1 e.1 e.2
    have h_tail := ih ((acc.1.reject e.1 e.2 "Node disconnected").1,
      acc.2 ++ (acc.1.reject e.1 e.2 "Node disconnected").2)
    exact ⟨h_tail.down.trans h_head.down, h_tail.spawnFailures.trans h_head.spawnFailures,
      h_tail.execs.trans h_head.execs⟩

/-- A control message that starts no command. -/
theorem sendControl_active (s : ProtocolState) {msg : ControlMessage} (h : msg.execId = none) :
    (s.sendControl msg).active = s.active := by
  unfold sendControl
  split
  · simp [active, h]
  · rfl

/-- A pump goes on. -/
theorem pumped_active {s s' : ProtocolState} {o : ProtocolOut} {id : String}
    {stream : OutputStream} {next : ExecTask → ExecTask × List NodeMessage}
    (h_nodup : s.active.Nodup)
    (h_msgs : ∀ task, ∀ msg ∈ (next task).2, FromExec id msg ∧ ∀ id code,
      msg ≠ .execStreamEnd id code)
    (hs : s.pumped id stream next = some (s', o)) : ActiveStep s s' o.sent := by
  obtain ⟨task, h_task, hs⟩ := Option.bind_eq_some_iff.mp hs
  split at hs
  · obtain ⟨rfl, rfl⟩ := Prod.mk.inj (Option.some.inj hs)
    have h_key : id ∈ s.execs.keys := by
      by_contra h_none
      rw [Table.get?_eq_none_iff.mpr h_none] at h_task
      cases h_task
    refine .of_running h_nodup ?_ id ?_ (fun msg h_msg => (h_msgs task msg h_msg).1)
      fun msg h_msg => (h_msgs task msg h_msg).2
    · show _ ++ (_ ++ (s.execs.set id _).keys) = _
      rw [Table.keys_set_of_mem _ h_key]
      rfl
    · exact List.mem_append_right _ (List.mem_append_right _ h_key)
  · exact absurd hs (by simp)

/-- **What a step does to the commands under way.** -/
theorem step_active {s s' : ProtocolState} {l : ProtocolLabel} {o : ProtocolOut}
    (h_nodup : s.active.Nodup) (h_used : ∀ id ∈ s.active, id ∈ s.used)
    (h_label : ∀ msg, l ≠ .inject msg) (hs : s.step l = some (s', o)) :
    ActiveStep s s' o.sent := by
  have h_same : ∀ {s₁ : ProtocolState}, s₁.active = s.active → ActiveStep s s₁ [] := fun h =>
    .of_sublist h_nodup (h ▸ List.Sublist.refl _)
  cases l with
  | request id =>
    simp only [step] at hs
    split at hs
    · exact absurd hs (by simp)
    · obtain ⟨rfl, rfl⟩ := Prod.mk.inj (Option.some.inj hs)
      exact h_same (sendControl_active { s with
        used := id :: s.used
        pending := s.pending.set id .request
        timers := s.timers.set id .request } rfl)
  | streamExec id command =>
    simp only [step] at hs
    split at hs
    · exact absurd hs (by simp)
    · next h_fresh =>
      rw [not_or] at h_fresh
      obtain ⟨rfl, rfl⟩ := Prod.mk.inj (Option.some.inj hs)
      simp only [streamExec, sendControl]
      split
      · -- the request goes on the wire
        have h_new : id ∉ s.active := fun h => h_fresh.1 (h_used id h)
        have h_perm : (s.down ++ [ControlMessage.execStreamRequest id command]).filterMap
            ControlMessage.execId ++ (s.spawnFailures ++ s.execs.keys) ~ id :: s.active := by
          rw [List.filterMap_append, List.append_assoc]
          exact List.perm_middle
        refine ⟨h_perm.nodup_iff.mpr (List.nodup_cons.mpr ⟨h_new, h_nodup⟩), fun other h_other => ?_,
          by simp, fun _ => .of_foreign (by simp), by simp⟩
        obtain rfl | h_old := List.mem_cons.mp (h_perm.mem_iff.mp h_other)
        · exact .inr ⟨h_fresh.1, List.mem_cons_self⟩
        · exact .inl h_old
      · exact h_same rfl
  | openShell id =>
    simp only [step] at hs
    split at hs
    · exact absurd hs (by simp)
    · obtain ⟨rfl, rfl⟩ := Prod.mk.inj (Option.some.inj hs)
      exact h_same (sendControl_active { s with shells := s.shells.set id () } rfl)
  | closeShell id =>
    obtain ⟨rfl, rfl⟩ := Prod.mk.inj (Option.some.inj hs)
    exact h_same (sendControl_active { s with shells := s.shells.erase id } rfl)
  | timeout id =>
    obtain ⟨kind, -, h_eq⟩ := Option.map_eq_some_iff.mp hs
    obtain ⟨rfl, rfl⟩ := Prod.mk.inj h_eq
    have h_agent := cleanup_agent { s with pending := s.pending.erase id } id kind
    exact h_same h_agent.active
  | deliver =>
    simp only [step] at hs
    split at hs
    · exact absurd hs (by simp)
    · next msg rest _ =>
      obtain ⟨rfl, rfl⟩ := Prod.mk.inj (Option.some.inj hs)
      exact h_same (receive_agent { s with up := rest } msg).active
  | disconnect =>
    simp only [step] at hs
    split at hs
    · obtain ⟨rfl, rfl⟩ := Prod.mk.inj (Option.some.inj hs)
      exact h_same (foldl_reject_agent s.pending.entries
        ({ s with connected := false, up := [] }, [])).active
    · exact absurd hs (by simp)
  | accept fails =>
    simp only [step] at hs
    split at hs
    · exact absurd hs (by simp)
    · next id command rest h_down =>
      obtain ⟨rfl, rfl⟩ := Prod.mk.inj (Option.some.inj hs)
      have h_active : s.active =
          id :: (rest.filterMap ControlMessage.execId ++ (s.spawnFailures ++ s.execs.keys)) := by
        rw [active, h_down]
        rfl
      refine .of_perm h_nodup ?_
      rw [h_active] at h_nodup ⊢
      cases fails with
      | true => exact List.perm_middle
      | false =>
        have h_key : id ∉ s.execs.keys := fun h => (List.nodup_cons.mp h_nodup).1
          (List.mem_append_right _ (List.mem_append_right _ h))
        show _ ++ (_ ++ (s.execs.set id _).keys) ~ _
        rw [Table.keys_set_of_fresh _ h_key, ← List.append_assoc, ← List.append_assoc,
          List.append_assoc (List.filterMap _ _)]
        exact List.perm_append_singleton _ _
    · next msg rest _ h_down =>
      obtain ⟨rfl, rfl⟩ := Prod.mk.inj (Option.some.inj hs)
      refine .of_sublist h_nodup ?_
      rw [active, active, h_down]
      exact ((List.sublist_cons_self msg rest).filterMap _).append (List.Sublist.refl _)
  | spawnFailure id text =>
    simp only [step] at hs
    split at hs
    · next h_id =>
      obtain ⟨rfl, rfl⟩ := Prod.mk.inj (Option.some.inj hs)
      show ActiveStep s _ ([.execChunk id .stderr text] ++ [.execStreamEnd id 127])
      refine .of_end h_nodup ?_ ?_
      · have h_perm : s.spawnFailures ++ s.execs.keys ~
            id :: (s.spawnFailures.erase id ++ s.execs.keys) :=
          (List.perm_cons_erase h_id).append_right _
        exact (h_perm.append_left _).trans List.perm_middle
      · intro msg h_msg
        obtain rfl := List.mem_singleton.mp h_msg
        exact ⟨⟨rfl, by simp⟩, by simp⟩
    · exact absurd hs (by simp)
  | pump id stream data =>
    simp only [step] at hs
    exact pumped_active h_nodup (fun task => fromExec_chunkOf id stream data) hs
  | drained id stream tail =>
    simp only [step] at hs
    exact pumped_active h_nodup (fun task => fromExec_chunkOf id stream tail) hs
  | broke id stream message =>
    simp only [step] at hs
    refine pumped_active h_nodup (fun task msg h_msg => ?_) hs
    dsimp only at h_msg
    split at h_msg
    · cases h_msg
    · obtain rfl := List.mem_singleton.mp h_msg
      exact ⟨⟨rfl, by simp⟩, by simp⟩
  | exited id code =>
    simp only [step] at hs
    obtain ⟨task, h_task, hs⟩ := Option.bind_eq_some_iff.mp hs
    split at hs
    · obtain ⟨rfl, rfl⟩ := Prod.mk.inj (Option.some.inj hs)
      show ActiveStep s _ ([] ++ [.execStreamEnd id code])
      refine .of_end h_nodup ?_ (by simp)
      have h_key : id ∈ s.execs.keys := by
        by_contra h_none
        rw [Table.get?_eq_none_iff.mpr h_none] at h_task
        cases h_task
      have h_perm : s.active ~ id :: (s.down.filterMap ControlMessage.execId ++
          (s.spawnFailures ++ s.execs.keys.erase id)) := by
        refine List.Perm.trans ?_ List.perm_middle
        refine List.Perm.append_left _ ?_
        refine List.Perm.trans ?_ List.perm_middle
        exact (List.perm_cons_erase h_key).append_left _
      rw [← Table.keys_erase] at h_perm
      exact h_perm
    · exact absurd hs (by simp)
  | inject msg => exact absurd rfl (h_label msg)

end ProtocolState

/-! ### Runs -/

/-- The commands under way and what has been sent for each of them. -/
structure AgentHistory (tr : ProtocolTrace) (s : ProtocolState) : Prop where
  nodup : s.active.Nodup
  used : ∀ id ∈ s.active, id ∈ s.used
  tidy : ∀ id, Uninjected id tr → Tidy id (sentMsgs tr)
  ended : ∀ id code, Uninjected id tr → .execStreamEnd id code ∈ sentMsgs tr →
    id ∉ s.active ∧ id ∈ s.used
  kinds : ∀ id, Uninjected id tr → ∀ msg ∈ sentMsgs tr, msg.requestId = some id → FromExec id msg

namespace AgentHistory

variable {tr : ProtocolTrace} {s s' : ProtocolState} {l : ProtocolLabel} {o : ProtocolOut}

theorem init : AgentHistory [] protocolMachine.init where
  nodup := List.nodup_nil
  used _ h := by cases h
  tidy _ _ := .of_foreign (by simp [sentMsgs])
  ended _ _ _ h := by cases h
  kinds _ _ _ h := by cases h

/-- Who sends nothing under an id in a run does not in its first part. -/
theorem uninjected_init {id : String} (h : Uninjected id (tr ++ [(l, o)])) : Uninjected id tr :=
  fun msg o' h_mem => h msg o' (List.mem_append_left _ h_mem)

/-- Somebody else sends a message. -/
theorem step_inject (h : AgentHistory tr s) (msg : NodeMessage) :
    AgentHistory (tr ++ [(.inject msg, ⟨[msg], [], []⟩)]) (s.send [msg]) := by
  have h_foreign : ∀ id, Uninjected id (tr ++ [(.inject msg, ⟨[msg], [], []⟩)]) →
      ∀ msg' ∈ [msg], msg'.requestId ≠ some id := by
    intro id h_un msg' h_msg
    obtain rfl := List.mem_singleton.mp h_msg
    exact h_un msg' _ (List.mem_append_right _ List.mem_cons_self)
  refine ⟨h.nodup, fun id h_id => List.mem_append_right _ (h.used id h_id), fun id h_un => ?_,
    fun id code h_un h_msg => ?_, fun id h_un msg' h_msg h_own => ?_⟩
  · rw [sentMsgs_snoc]
    exact (h.tidy id (uninjected_init h_un)).append (.of_foreign (h_foreign id h_un))
      fun _ _ => chunksOf_foreign (h_foreign id h_un)
  · obtain h_old | h_new := List.mem_append.mp (sentMsgs_snoc tr _ _ ▸ h_msg)
    · obtain ⟨h_gone, h_used⟩ := h.ended id code (uninjected_init h_un) h_old
      exact ⟨h_gone, List.mem_append_right _ h_used⟩
    · exact absurd rfl (h_foreign id h_un _ h_new)
  · obtain h_old | h_new := List.mem_append.mp (sentMsgs_snoc tr _ _ ▸ h_msg)
    · exact h.kinds id (uninjected_init h_un) msg' h_old h_own
    · exact absurd h_own (h_foreign id h_un msg' h_new)

/-- Any other step. -/
theorem step_active (h : AgentHistory tr s) (h_active : ActiveStep s s' o.sent)
    (h_used : s.used ⊆ s'.used) : AgentHistory (tr ++ [(l, o)]) s' := by
  refine ⟨h_active.nodup, fun id h_id => ?_, fun id h_un => ?_, fun id code h_un h_msg => ?_,
    fun id h_un msg h_msg h_own => ?_⟩
  · obtain h_old | ⟨-, h_new⟩ := h_active.old id h_id
    · exact h_used (h.used id h_old)
    · exact h_new
  · rw [sentMsgs_snoc]
    refine (h.tidy id (uninjected_init h_un)).append (h_active.tidy id) fun code h_end => ?_
    -- a command that has ended sends nothing
    refine chunksOf_foreign fun msg h_msg h_own => ?_
    obtain ⟨id', h_id', h_from⟩ := h_active.sent msg h_msg
    obtain rfl : id' = id := Option.some.inj (h_from.own.symm.trans h_own)
    exact (h.ended id' code (uninjected_init h_un) h_end).1 h_id'
  · obtain h_old | h_new := List.mem_append.mp (sentMsgs_snoc tr l o ▸ h_msg)
    · obtain ⟨h_gone, h_was⟩ := h.ended id code (uninjected_init h_un) h_old
      refine ⟨fun h_id => ?_, h_used h_was⟩
      obtain h_old | ⟨h_fresh, -⟩ := h_active.old id h_id
      · exact h_gone h_old
      · exact h_fresh h_was
    · obtain ⟨id', h_id', h_from⟩ := h_active.sent _ h_new
      obtain rfl : id = id' := Option.some.inj h_from.own
      exact ⟨h_active.ended id code h_new, h_used (h.used id h_id')⟩
  · obtain h_old | h_new := List.mem_append.mp (sentMsgs_snoc tr l o ▸ h_msg)
    · exact h.kinds id (uninjected_init h_un) msg h_old h_own
    · obtain ⟨id', h_id', h_from⟩ := h_active.sent msg h_new
      obtain rfl : id' = id := Option.some.inj (h_from.own.symm.trans h_own)
      exact h_from

/-- **Run lemma.** -/
theorem of_run {ok : ProtocolState → ProtocolLabel → Prop}
    (h : protocolMachine.RunWhen ok tr s) : AgentHistory tr s := by
  refine h.history init fun tr s l s' o h_run h_hist _ hs => ?_
  have h_used := used_step (ProtocolState.step_shape (RequestsInv.of_run h_run).timers hs)
  by_cases h_inject : ∃ msg, l = .inject msg
  · obtain ⟨msg, rfl⟩ := h_inject
    obtain ⟨rfl, rfl⟩ := Prod.mk.inj (Option.some.inj hs)
    exact h_hist.step_inject msg
  · rw [not_exists] at h_inject
    exact h_hist.step_active (ProtocolState.step_active h_hist.nodup h_hist.used h_inject hs) h_used

end AgentHistory

end ServerCentral.Agent
