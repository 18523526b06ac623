import ServerCentral.Terminal.Sessions

/-!
# Sessions are backed and end once

`MapsInv` ties the two maps and the wires together: the agent has an entry exactly for the
PTYs that are running, an open session of the control plane is behind an `openShell` on its
way down, a PTY, or a `shellExit` on its way up. `SessionHistory` adds what the callbacks
have seen: as long as a session is registered, what it has not been shown is on the wire.

Two things break this. An agent that cannot open a shell reports an error that carries no
session id, and the session stays open with nothing behind it; and an agent whose connection
drops keeps its PTYs running (`session_left_open`).
-/

open Framework ServerCentral.Agent

namespace ServerCentral.Terminal

namespace ShellState

/-! ### Sending -/

variable (s : ShellState) (msg : ShellMessage)

@[simp] theorem sendControl_connected : (s.sendControl msg).connected = s.connected := by
  rw [sendControl]
  split <;> rfl

@[simp] theorem sendControl_sessions : (s.sendControl msg).sessions = s.sessions := by
  rw [sendControl]
  split <;> rfl

@[simp] theorem sendControl_up : (s.sendControl msg).up = s.up := by
  rw [sendControl]
  split <;> rfl

@[simp] theorem sendControl_shells : (s.sendControl msg).shells = s.shells := by
  rw [sendControl]
  split <;> rfl

@[simp] theorem sendControl_ptys : (s.sendControl msg).ptys = s.ptys := by
  rw [sendControl]
  split <;> rfl

@[simp] theorem sendControl_opened : (s.sendControl msg).opened = s.opened := by
  rw [sendControl]
  split <;> rfl

theorem sendControl_down :
    (s.sendControl msg).down = s.down ++ if s.connected then [msg] else [] := by
  rw [sendControl]
  split
  · rfl
  · exact (List.append_nil _).symm

variable (m : NodeMessage)

@[simp] theorem send_connected : (s.send m).connected = s.connected := rfl
@[simp] theorem send_sessions : (s.send m).sessions = s.sessions := rfl
@[simp] theorem send_down : (s.send m).down = s.down := rfl
@[simp] theorem send_shells : (s.send m).shells = s.shells := rfl
@[simp] theorem send_ptys : (s.send m).ptys = s.ptys := rfl
@[simp] theorem send_opened : (s.send m).opened = s.opened := rfl

end ShellState

/-! ### The maps -/

/-- The sessions whose `openShell` is on its way down. -/
def opening (down : List ShellMessage) : List String :=
  down.filterMap fun
    | .openShell msg => some msg.sessionId
    | _ => none

theorem mem_opening {down : List ShellMessage} {id : String} :
    id ∈ opening down ↔ ∃ msg, .openShell msg ∈ down ∧ msg.sessionId = id := by
  rw [opening, List.mem_filterMap]
  constructor
  · rintro ⟨m, h_mem, h_m⟩
    cases m with
    | openShell msg => exact ⟨msg, h_mem, Option.some.inj h_m⟩
    | _ => cases h_m
  · rintro ⟨msg, h_mem, rfl⟩
    exact ⟨_, h_mem, rfl⟩

theorem opening_append (down down' : List ShellMessage) :
    opening (down ++ down') = opening down ++ opening down' := List.filterMap_append

/-- A step without messages from the agent or calls of a callback. -/
def silent : ProtocolOut := ⟨[], [], []⟩

/-- What one step can do. -/
inductive StepShape (host : AgentHost) (s : ShellState) :
    ShellLabel → ShellState → ProtocolOut → Prop
  | refused {id cols rows asUser command} :
      StepShape host s (.openShell id cols rows asUser command) s silent
  | opened {id cols rows asUser command} {msg : OpenShell} (h_connected : s.connected = true)
      (h_new : msg.sessionId ∉ s.opened) :
      StepShape host s (.openShell id cols rows asUser command) (s.openSession msg) silent
  | wrote {id data} : StepShape host s (.write id data) (s.sendControl (.shellInput id data)) silent
  | resized {id cols rows} :
      StepShape host s (.resize id cols rows) (s.sendControl (.shellResize id cols rows)) silent
  | closed {id} (h_opened : id ∈ s.opened) : StepShape host s (.close id) (s.close id) silent
  | delivered {msg rest} (h_up : s.up = msg :: rest) :
      StepShape host s .deliver ({ s with up := rest }.receive msg).1
        ⟨[], [msg], ({ s with up := rest }.receive msg).2⟩
  | disconnected (h_connected : s.connected = true) :
      StepShape host s .disconnect s.disconnect.1 ⟨[], [], s.disconnect.2⟩
  | accepted {spawnError msg rest} (h_down : s.down = msg :: rest) :
      StepShape host s (.accept spawnError) ({ s with down := rest }.onMessage host spawnError msg).1
        ⟨({ s with down := rest }.onMessage host spawnError msg).2, [], []⟩
  | printed {id data} (h_pty : s.ptys.has id = true) :
      StepShape host s (.output id data) (s.send (.shellData id data)) ⟨[.shellData id data], [], []⟩
  | ended {id code} (h_pty : s.ptys.has id = true) :
      StepShape host s (.exit id code)
        ({ s with
          shells := s.shells.erase id
          ptys := s.ptys.set id .exited }.send (.shellExit id (some code)))
        ⟨[.shellExit id (some code)], [], []⟩

theorem step_shape {agent : HostAgent} {host : AgentHost} {s s' : ShellState} {l : ShellLabel}
    {o : ProtocolOut} (hs : s.step agent host l = some (s', o)) : StepShape host s l s' o := by
  cases l with
  | openShell sessionId cols rows asUser command =>
    obtain ⟨h_new, hs⟩ := Option.ite_none_right_eq_some.mp hs
    split at hs
    next =>
      obtain ⟨rfl, rfl⟩ := Prod.mk.inj (Option.some.inj hs)
      exact .refused
    next msg h_open =>
      have h_id : msg.sessionId = sessionId := by
        rw [openShell] at h_open
        split at h_open
        · cases h_open
        · rw [← Except.ok.inj h_open]
      obtain ⟨rfl, rfl⟩ := Prod.mk.inj (Option.some.inj hs)
      exact .opened h_new.1 (h_id ▸ h_new.2)
  | write sessionId data =>
    obtain ⟨-, hs⟩ := Option.ite_none_right_eq_some.mp hs
    obtain ⟨rfl, rfl⟩ := Prod.mk.inj (Option.some.inj hs)
    exact .wrote
  | resize sessionId cols rows =>
    obtain ⟨-, hs⟩ := Option.ite_none_right_eq_some.mp hs
    obtain ⟨rfl, rfl⟩ := Prod.mk.inj (Option.some.inj hs)
    exact .resized
  | close sessionId =>
    obtain ⟨h_opened, hs⟩ := Option.ite_none_right_eq_some.mp hs
    obtain ⟨rfl, rfl⟩ := Prod.mk.inj (Option.some.inj hs)
    exact .closed h_opened
  | deliver =>
    rw [ShellState.step] at hs
    split at hs
    · cases hs
    next msg rest h_up =>
      obtain ⟨rfl, rfl⟩ := Prod.mk.inj (Option.some.inj hs)
      exact .delivered h_up
  | disconnect =>
    obtain ⟨h_connected, hs⟩ := Option.ite_none_right_eq_some.mp hs
    obtain ⟨rfl, rfl⟩ := Prod.mk.inj (Option.some.inj hs)
    exact .disconnected h_connected
  | accept spawnError =>
    rw [ShellState.step] at hs
    split at hs
    · cases hs
    next msg rest h_down =>
      obtain ⟨rfl, rfl⟩ := Prod.mk.inj (Option.some.inj hs)
      exact .accepted h_down
  | output sessionId data =>
    obtain ⟨h_pty, hs⟩ := Option.ite_none_right_eq_some.mp hs
    obtain ⟨rfl, rfl⟩ := Prod.mk.inj (Option.some.inj hs)
    exact .printed h_pty
  | exit sessionId code =>
    have h_ends : ∀ {st}, s.ptys.get? sessionId = some st → s.ptys.has sessionId = true :=
      fun h_get => Table.has_iff.mpr ⟨_, h_get⟩
    rw [ShellState.step] at hs
    split at hs
    next h_get =>
      obtain ⟨rfl, rfl⟩ := Prod.mk.inj (Option.some.inj hs)
      exact .ended (h_ends h_get)
    next h_get =>
      obtain ⟨rfl, rfl⟩ := Prod.mk.inj (Option.some.inj hs)
      exact .ended (h_ends h_get)
    next => cases hs

structure MapsInv (s : ShellState) : Prop where
  /-- An `openShell` on its way down is one of a session of its own, not yet started. -/
  opening : (opening s.down).Nodup
  unstarted : ∀ id ∈ Terminal.opening s.down, id ∈ s.opened ∧ s.ptys.get? id = none
  started : ∀ id st, s.ptys.get? id = some st → id ∈ s.opened
  sessions : ∀ id, s.sessions.has id = true → id ∈ s.opened ∧ s.connected = true
  registered : ∀ id, s.shells.has id = true ↔ s.ptys.get? id = some .running
  handled : ∀ id ∈ s.opened, id ∈ Terminal.opening s.down ∨ (s.ptys.get? id).isSome = true
  stays : s.connected = false → ∀ id, s.ptys.get? id ≠ some .running
  /-- The exit of a session that is registered is on its way up. -/
  exiting : ∀ id, s.ptys.get? id = some .exited → s.sessions.has id = true →
    ∃ code, .shellExit id code ∈ s.up
  up : ∀ msg ∈ s.up, ∀ id, sessionOf msg = some id → id ∈ s.opened

namespace MapsInv

variable {s : ShellState}

/-- Another message on its way down. -/
theorem sendControl (hi : MapsInv s) {msg : ShellMessage} (h : Terminal.opening [msg] = []) :
    MapsInv (s.sendControl msg) := by
  have h_down : Terminal.opening (s.sendControl msg).down = Terminal.opening s.down := by
    rw [ShellState.sendControl_down, opening_append]
    split
    · rw [h, List.append_nil]
    · exact List.append_nil _
  constructor
  case opening => exact h_down ▸ hi.opening
  case unstarted => simpa [h_down] using hi.unstarted
  case started => simpa using hi.started
  case sessions => simpa using hi.sessions
  case registered => simpa using hi.registered
  case handled => simpa [h_down] using hi.handled
  case stays => simpa using hi.stays
  case exiting => simpa using hi.exiting
  case up => simpa using hi.up

/-- A session less on the control plane. -/
theorem eraseSession (hi : MapsInv s) (id : String) :
    MapsInv { s with sessions := s.sessions.erase id } := by
  have h_old : ∀ id', (s.sessions.erase id).has id' = true → s.sessions.has id' = true := by
    intro id' h
    rw [Table.has_erase, Bool.and_eq_true] at h
    exact h.2
  exact { hi with
    sessions := fun id' h => hi.sessions id' (h_old id' h)
    exiting := fun id' h_pty h => hi.exiting id' h_pty (h_old id' h) }

/-- A new session, with its message on the way. -/
theorem openSession (hi : MapsInv s) {msg : OpenShell} (h_connected : s.connected = true)
    (h_new : msg.sessionId ∉ s.opened) : MapsInv (s.openSession msg) := by
  have h_none : s.ptys.get? msg.sessionId = none := by
    cases h_get : s.ptys.get? msg.sessionId with
    | none => rfl
    | some st => exact absurd (hi.started _ st h_get) h_new
  have h_down : Terminal.opening (s.openSession msg).down =
      Terminal.opening s.down ++ [msg.sessionId] := by
    rw [ShellState.openSession, ShellState.sendControl_down, opening_append]
    dsimp only
    rw [h_connected]
    rfl
  have h_opened : (s.openSession msg).opened = msg.sessionId :: s.opened := by
    simp [ShellState.openSession]
  have h_ptys : (s.openSession msg).ptys = s.ptys := by simp [ShellState.openSession]
  constructor
  case opening =>
    rw [h_down]
    refine List.nodup_append'.mpr ⟨hi.opening, List.nodup_singleton _, ?_⟩
    intro id h_mem h_eq
    obtain rfl := List.mem_singleton.mp h_eq
    exact h_new (hi.unstarted _ h_mem).1
  case unstarted =>
    intro id h_mem
    rw [h_down] at h_mem
    rw [h_opened, h_ptys]
    rcases List.mem_append.mp h_mem with h_old | h_eq
    · exact ⟨List.mem_cons_of_mem _ (hi.unstarted id h_old).1, (hi.unstarted id h_old).2⟩
    · obtain rfl := List.mem_singleton.mp h_eq
      exact ⟨List.mem_cons_self, h_none⟩
  case started =>
    intro id st h_get
    rw [h_opened]
    rw [h_ptys] at h_get
    exact List.mem_cons_of_mem _ (hi.started id st h_get)
  case sessions =>
    intro id h_has
    have h_has : (s.sessions.set msg.sessionId ()).has id = true := by
      simpa [ShellState.openSession] using h_has
    rw [Table.has_set, Bool.or_eq_true, decide_eq_true_eq] at h_has
    rw [h_opened]
    refine ⟨?_, by simpa [ShellState.openSession] using h_connected⟩
    obtain rfl | h_old := h_has
    · exact List.mem_cons_self
    · exact List.mem_cons_of_mem _ (hi.sessions id h_old).1
  case registered => simpa [ShellState.openSession] using hi.registered
  case handled =>
    intro id h_mem
    rw [h_opened] at h_mem
    rw [h_down, h_ptys]
    rcases List.mem_cons.mp h_mem with rfl | h_old
    · exact .inl (List.mem_append_right _ (List.mem_singleton_self _))
    · exact (hi.handled id h_old).imp_left (List.mem_append_left _)
  case stays =>
    intro h
    exact absurd (h_connected.symm.trans (by simpa [ShellState.openSession] using h)) (by simp)
  case exiting =>
    intro id h_exited h_has
    rw [h_ptys] at h_exited
    have h_has : (s.sessions.set msg.sessionId ()).has id = true := by
      simpa [ShellState.openSession] using h_has
    rw [Table.has_set, Bool.or_eq_true, decide_eq_true_eq] at h_has
    have h_up : (s.openSession msg).up = s.up := by simp [ShellState.openSession]
    rw [h_up]
    obtain rfl | h_old := h_has
    · exact absurd (h_none.symm.trans h_exited) (by simp)
    · exact hi.exiting id h_exited h_old
  case up =>
    intro m h_mem id h_id
    rw [h_opened]
    have h_up : (s.openSession msg).up = s.up := by simp [ShellState.openSession]
    rw [h_up] at h_mem
    exact List.mem_cons_of_mem _ (hi.up m h_mem id h_id)

/-- A message from the agent arrives. -/
theorem deliver (hi : MapsInv s) {msg : NodeMessage} {rest : List NodeMessage}
    (h_up : s.up = msg :: rest) : MapsInv ({ s with up := rest }.receive msg).1 := by
  have h_rest : ∀ m ∈ rest, m ∈ s.up := fun m h_mem => h_up ▸ List.mem_cons_of_mem _ h_mem
  -- the exits on their way are still there, except for one that is the message
  have h_exit : ∀ {s' : ShellState}, s'.ptys = s.ptys → s'.up = rest →
      (∀ id, s'.sessions.has id = true → s.sessions.has id = true ∧
        ∀ code, msg ≠ .shellExit id code) →
      ∀ id, s'.ptys.get? id = some .exited → s'.sessions.has id = true →
        ∃ code, .shellExit id code ∈ s'.up := by
    intro s' h_ptys h_up' h_sessions id h_exited h_has
    obtain ⟨h_old, h_ne⟩ := h_sessions id h_has
    obtain ⟨code, h_mem⟩ := hi.exiting id (h_ptys ▸ h_exited) h_old
    rw [h_up] at h_mem
    rcases List.mem_cons.mp h_mem with h_eq | h_mem
    · exact absurd h_eq.symm (h_ne code)
    · exact ⟨code, h_up' ▸ h_mem⟩
  have h_keep : (∀ id code, s.sessions.has id = true → msg ≠ .shellExit id code) →
      MapsInv { s with up := rest } := fun h_ne =>
    { hi with
      exiting := h_exit rfl rfl fun id h => ⟨h, fun code => h_ne id code h⟩
      up := fun m h_mem => hi.up m (h_rest m h_mem) }
  cases msg with
  | shellExit sessionId code =>
    rw [ShellState.receive]
    split
    case isTrue h_has =>
      have h_old : ∀ id, (s.sessions.erase sessionId).has id = true →
          id ≠ sessionId ∧ s.sessions.has id = true := by
        intro id h
        rw [Table.has_erase, Bool.and_eq_true] at h
        exact ⟨by simpa using h.1, h.2⟩
      exact { hi with
        sessions := fun id h => hi.sessions id (h_old id h).2
        exiting := h_exit rfl rfl fun id h => ⟨(h_old id h).2, fun code' h_eq =>
          (h_old id h).1 (NodeMessage.shellExit.inj h_eq).1.symm⟩
        up := fun m h_mem => hi.up m (h_rest m h_mem) }
    case isFalse h_has =>
      refine h_keep fun id code' h h_eq => h_has ?_
      obtain ⟨rfl, -⟩ := NodeMessage.shellExit.inj h_eq
      exact h
  | _ => exact h_keep (by rintro id code h ⟨⟩)

theorem disconnect (hi : MapsInv s) (h : ∀ id, s.ptys.get? id ≠ some .running) :
    MapsInv s.disconnect.1 :=
  { hi with
    sessions := fun id h_has => absurd h_has (by simp [ShellState.disconnect, Table.has])
    stays := fun _ => h
    exiting := fun id _ h_has => absurd h_has (by simp [ShellState.disconnect, Table.has])
    up := fun m h_mem => absurd h_mem (by simp [ShellState.disconnect]) }

/-- A message that opens nothing leaves the wire. -/
theorem popDown (hi : MapsInv s) {msg : ShellMessage} {rest : List ShellMessage}
    (h_down : s.down = msg :: rest) (h : Terminal.opening [msg] = []) :
    MapsInv { s with down := rest } := by
  have h_opening : Terminal.opening s.down = Terminal.opening rest := by
    rw [h_down, ← List.singleton_append, opening_append, h, List.nil_append]
  exact { hi with
    opening := h_opening ▸ hi.opening
    unstarted := h_opening ▸ hi.unstarted
    handled := h_opening ▸ hi.handled }

/-- The agent opens a shell. -/
theorem started_pty (hi : MapsInv s) {msg : OpenShell} {rest : List ShellMessage}
    (h_down : s.down = .openShell msg :: rest) (h_connected : s.connected = true) :
    MapsInv { s with
      down := rest
      shells := s.shells.set msg.sessionId ()
      ptys := s.ptys.set msg.sessionId .running } := by
  have h_opening : Terminal.opening s.down = msg.sessionId :: Terminal.opening rest := by
    rw [h_down]
    rfl
  have h_nodup := hi.opening
  rw [h_opening] at h_nodup
  obtain ⟨h_new, h_nodup⟩ := List.nodup_cons.mp h_nodup
  have h_unstarted := hi.unstarted msg.sessionId (h_opening ▸ List.mem_cons_self)
  constructor
  case opening => exact h_nodup
  case unstarted =>
    intro id h_mem
    have h_ne : id ≠ msg.sessionId := fun h => h_new (h ▸ h_mem)
    have h_old := hi.unstarted id (h_opening ▸ List.mem_cons_of_mem _ h_mem)
    exact ⟨h_old.1, (Table.get?_set_of_ne _ _ h_ne).trans h_old.2⟩
  case started =>
    intro id st h_get
    obtain ⟨rfl, -⟩ | ⟨-, h_old⟩ := Table.get?_set_eq_some h_get
    · exact h_unstarted.1
    · exact hi.started id st h_old
  case sessions => exact hi.sessions
  case registered =>
    intro id
    show (s.shells.set _ _).has id = true ↔ (s.ptys.set _ _).get? id = _
    rw [Table.has_set, Bool.or_eq_true, decide_eq_true_eq, hi.registered, Table.get?_set]
    by_cases h_eq : id = msg.sessionId
    · simp [h_eq]
    · simp [h_eq]
  case handled =>
    intro id h_mem
    by_cases h_eq : id = msg.sessionId
    · exact .inr (by rw [h_eq, Table.get?_set_self]; rfl)
    · refine (hi.handled id h_mem).imp (fun h => ?_) fun h => ?_
      · rw [h_opening] at h
        exact (List.mem_cons.mp h).resolve_left h_eq
      · rwa [Table.get?_set_of_ne _ _ h_eq]
  case stays => exact fun h => absurd (h_connected.symm.trans h) (by simp)
  case exiting =>
    intro id h_exited h_has
    obtain ⟨-, h_eq⟩ | ⟨-, h_old⟩ := Table.get?_set_eq_some h_exited
    · cases h_eq
    · exact hi.exiting id h_old h_has
  case up => exact hi.up

/-- A PTY that is running stops, and its entry goes. -/
theorem stopped_pty (hi : MapsInv s) {id : String} {st : PtyState} (h_pty : s.ptys.has id = true)
    (h_st : st ≠ .running) (h_exit : st = .exited → s.sessions.has id = true →
      ∃ code, .shellExit id code ∈ s.up) :
    MapsInv { s with shells := s.shells.erase id, ptys := s.ptys.set id st } := by
  obtain ⟨st₀, h_old⟩ := Table.has_iff.mp h_pty
  constructor
  case opening => exact hi.opening
  case unstarted =>
    intro id' h_mem
    obtain ⟨h_opened, h_none⟩ := hi.unstarted id' h_mem
    refine ⟨h_opened, (Table.get?_set_of_ne _ _ ?_).trans h_none⟩
    rintro rfl
    exact absurd (h_none.symm.trans h_old) (by simp)
  case started =>
    intro id' st' h_get
    obtain ⟨rfl, -⟩ | ⟨-, h_get⟩ := Table.get?_set_eq_some h_get
    · exact hi.started _ st₀ h_old
    · exact hi.started id' st' h_get
  case sessions => exact hi.sessions
  case registered =>
    intro id'
    show (s.shells.erase _).has id' = true ↔ (s.ptys.set _ _).get? id' = _
    rw [Table.has_erase, Bool.and_eq_true, hi.registered, Table.get?_set]
    by_cases h_eq : id' = id
    · simp [h_eq, h_st]
    · simp [h_eq]
  case handled =>
    intro id' h_mem
    refine (hi.handled id' h_mem).imp_right fun h => ?_
    rw [Table.get?_set]
    split
    · rfl
    · exact h
  case stays =>
    intro h_off id' h_run
    obtain ⟨-, h_eq⟩ | ⟨-, h_get⟩ := Table.get?_set_eq_some h_run
    · exact h_st h_eq.symm
    · exact hi.stays h_off id' h_get
  case exiting =>
    intro id' h_exited h_has
    obtain ⟨rfl, h_eq⟩ | ⟨-, h_get⟩ := Table.get?_set_eq_some h_exited
    · exact h_exit h_eq.symm h_has
    · exact hi.exiting id' h_get h_has
  case up => exact hi.up

/-- The agent sends a message of a session. -/
theorem send (hi : MapsInv s) {msg : NodeMessage}
    (h : ∀ id, sessionOf msg = some id → id ∈ s.opened) : MapsInv (s.send msg) := by
  have h_sub : ∀ m ∈ s.up, m ∈ (s.send msg).up := by
    intro m h_mem
    rw [ShellState.send]
    dsimp only
    split
    · exact List.mem_append_left _ h_mem
    · exact h_mem
  refine { hi with exiting := fun id h_exited h_has => ?_, up := fun m h_mem id h_id => ?_ }
  · obtain ⟨code, h_mem⟩ := hi.exiting id h_exited h_has
    exact ⟨code, h_sub _ h_mem⟩
  · rw [ShellState.send] at h_mem
    dsimp only at h_mem
    split at h_mem
    · rcases List.mem_append.mp h_mem with h_old | h_new
      · exact hi.up m h_old id h_id
      · obtain rfl := List.mem_singleton.mp h_new
        exact h id h_id
    · exact hi.up m h_mem id h_id

variable {host : AgentHost}

/-- The next message is handled by the agent. -/
theorem accept (hi : MapsInv s) {spawnError : Option String} {msg : ShellMessage}
    {rest : List ShellMessage} (h_down : s.down = msg :: rest)
    (h_ok : OpensAndStays host s (.accept spawnError)) :
    MapsInv ({ s with down := rest }.onMessage host spawnError msg).1 := by
  cases msg with
  | openShell msg =>
    obtain ⟨h_connected, h_opens⟩ := h_ok msg rest h_down
    rw [ShellState.onMessage, h_opens]
    exact hi.started_pty h_down h_connected
  | closeShell sessionId =>
    have hi' := hi.popDown h_down rfl
    rw [ShellState.onMessage]
    split
    case isTrue h_has =>
      refine hi'.stopped_pty ?_ (by simp) (by simp)
      exact Table.has_iff.mpr ⟨_, (hi.registered sessionId).mp h_has⟩
    case isFalse => exact hi'
  | _ => exact hi.popDown h_down rfl

/-- The process of a PTY ends. -/
theorem exit (hi : MapsInv s) {id : String} {code : Int} (h_pty : s.ptys.has id = true) :
    MapsInv ({ s with
      shells := s.shells.erase id
      ptys := s.ptys.set id .exited }.send (.shellExit id (some code))) := by
  have h_opened : id ∈ s.opened := by
    obtain ⟨st, h_get⟩ := Table.has_iff.mp h_pty
    exact hi.started id st h_get
  have h_sent : MapsInv (s.send (.shellExit id (some code))) := by
    refine hi.send fun id' h_id => ?_
    obtain rfl := Option.some.inj h_id
    exact h_opened
  refine h_sent.stopped_pty h_pty (by simp) fun _ h_has => ⟨some code, ?_⟩
  -- a registered session is one of a connection that is up
  have h_up : (s.send (.shellExit id (some code))).up = s.up ++ [.shellExit id (some code)] :=
    if_pos (hi.sessions id h_has).2
  rw [h_up]
  exact List.mem_append_right _ (List.mem_singleton_self _)

/-- Every step that keeps away from the gaps keeps the maps together. -/
theorem step (hi : MapsInv s) {l : ShellLabel} {s' : ShellState} {o : ProtocolOut}
    (h_ok : OpensAndStays host s l) (h : StepShape host s l s' o) : MapsInv s' := by
  cases h with
  | refused => exact hi
  | opened h_connected h_new => exact hi.openSession h_connected h_new
  | wrote => exact hi.sendControl rfl
  | resized => exact hi.sendControl rfl
  | closed => exact (hi.eraseSession _).sendControl rfl
  | delivered h_up => exact hi.deliver h_up
  | disconnected => exact hi.disconnect h_ok
  | accepted h_down => exact hi.accept h_down h_ok
  | @printed id data h_pty =>
    obtain ⟨st, h_get⟩ := Table.has_iff.mp h_pty
    refine hi.send fun id' h_id => ?_
    obtain rfl := Option.some.inj h_id
    exact hi.started _ st h_get
  | ended h_pty => exact hi.exit h_pty

end MapsInv

variable {agent : HostAgent} {host : AgentHost}

theorem mapsInv_init : MapsInv (shellMachine agent host).init where
  opening := List.nodup_nil
  unstarted := fun id h => absurd h (by simp [shellMachine, opening])
  started := (by rintro id st ⟨⟩)
  sessions := (by rintro id ⟨⟩)
  registered := fun id => by simp [shellMachine, Table.has]
  handled := fun id h => absurd h (by simp [shellMachine])
  stays := (by rintro ⟨⟩)
  exiting := (by rintro id ⟨⟩)
  up := fun m h => absurd h (by simp [shellMachine])

theorem mapsInv_run {tr : List (ShellLabel × ProtocolOut)} {s : ShellState}
    (h : (shellMachine agent host).RunWhen (OpensAndStays host) tr s) : MapsInv s :=
  h.invariant mapsInv_init fun _ _ _ _ hi h_ok hs => hi.step h_ok (step_shape hs)

/-! ### Output -/

theorem produced_append (tr tr' : List (ShellLabel × ProtocolOut)) (id : String) :
    produced (tr ++ tr') id = produced tr id ++ produced tr' id := List.filterMap_append

theorem shown_append (tr tr' : List (ShellLabel × ProtocolOut)) (id : String) :
    shown (tr ++ tr') id = shown tr id ++ shown tr' id := List.flatMap_append

theorem exits_append (tr tr' : List (ShellLabel × ProtocolOut)) (id : String) :
    exits (tr ++ tr') id = exits tr id + exits tr' id := by
  rw [exits, List.flatMap_append, List.countP_append]
  rfl

/-- The output of a session on its way up. -/
def onWire (up : List NodeMessage) (id : String) : List String :=
  up.filterMap fun
    | .shellData id' data => if id' = id then some data else none
    | _ => none

theorem onWire_append (up up' : List NodeMessage) (id : String) :
    onWire (up ++ up') id = onWire up id ++ onWire up' id := List.filterMap_append

theorem onWire_eq_nil {up : List NodeMessage} {id : String}
    (h : ∀ msg ∈ up, sessionOf msg ≠ some id) : onWire up id = [] := by
  refine List.filterMap_eq_nil_iff.mpr fun msg h_mem => ?_
  have h_ne := h msg h_mem
  cases msg with
  | shellData id' data => exact if_neg fun h_eq => h_ne (congrArg some h_eq)
  | _ => rfl

theorem onWire_of_ne {sessionId data id : String} (h : sessionId ≠ id) :
    onWire [.shellData sessionId data] id = [] := by
  refine onWire_eq_nil fun msg h_mem h_msg => ?_
  obtain rfl := List.mem_singleton.mp h_mem
  exact h (Option.some.inj h_msg)

/-- What the agent handles does not touch the control plane, and carries no output. -/
theorem onMessage_frame (host : AgentHost) (s : ShellState) (spawnError : Option String)
    (msg : ShellMessage) :
    (s.onMessage host spawnError msg).1.sessions = s.sessions ∧
      (s.onMessage host spawnError msg).1.opened = s.opened ∧
      ∀ id, onWire (s.onMessage host spawnError msg).1.up id = onWire s.up id := by
  cases msg with
  | openShell msg =>
    rw [ShellState.onMessage]
    split
    · refine ⟨rfl, rfl, fun id => ?_⟩
      rw [ShellState.send]
      dsimp only
      split
      · rw [onWire_append]
        exact List.append_nil _
      · rfl
    · exact ⟨rfl, rfl, fun _ => rfl⟩
  | closeShell sessionId =>
    rw [ShellState.onMessage]
    split
    · exact ⟨rfl, rfl, fun _ => rfl⟩
    · exact ⟨rfl, rfl, fun _ => rfl⟩
  | _ => exact ⟨rfl, rfl, fun _ => rfl⟩

/-- A registered session has been shown what its PTY has printed, but for what is on the wire. -/
structure OutputInv (tr : List (ShellLabel × ProtocolOut)) (s : ShellState) : Prop where
  quiet : ∀ id, id ∉ s.opened → produced tr id = []
  live : ∀ id, s.sessions.has id = true → produced tr id = shown tr id ++ onWire s.up id
  pre : ∀ id, shown tr id <+: produced tr id

namespace OutputInv

variable {tr : List (ShellLabel × ProtocolOut)} {s s' : ShellState} {l : ShellLabel}
  {o : ProtocolOut}

/-- A step that neither prints nor shows anything. -/
theorem frame (hi : OutputInv tr s) (h_produced : ∀ id, produced [(l, o)] id = [])
    (h_shown : ∀ id, shown [(l, o)] id = []) (h_opened : ∀ id ∈ s.opened, id ∈ s'.opened)
    (h_live : ∀ id, s'.sessions.has id = true →
      s.sessions.has id = true ∧ onWire s'.up id = onWire s.up id ∨
        id ∉ s.opened ∧ onWire s'.up id = []) :
    OutputInv (tr ++ [(l, o)]) s' := by
  have h_tr : ∀ id, produced (tr ++ [(l, o)]) id = produced tr id ∧
      shown (tr ++ [(l, o)]) id = shown tr id := by
    intro id
    rw [produced_append, shown_append, h_produced, h_shown, List.append_nil, List.append_nil]
    exact ⟨rfl, rfl⟩
  constructor
  case quiet =>
    intro id h_new
    rw [(h_tr id).1]
    exact hi.quiet id fun h => h_new (h_opened id h)
  case live =>
    intro id h_has
    rw [(h_tr id).1, (h_tr id).2]
    obtain ⟨h_old, h_wire⟩ | ⟨h_new, h_wire⟩ := h_live id h_has
    · rw [h_wire]
      exact hi.live id h_old
    · -- a session that is new has shown nothing
      have h_none := hi.quiet id h_new
      have h_nothing : shown tr id = [] := List.prefix_nil.mp (h_none ▸ hi.pre id)
      rw [h_none, h_nothing, h_wire]
      rfl
  case pre =>
    intro id
    rw [(h_tr id).1, (h_tr id).2]
    exact hi.pre id

/-- A message arrives. -/
theorem deliver (hi : OutputInv tr s) {msg : NodeMessage} {rest : List NodeMessage}
    (h_up : s.up = msg :: rest) :
    OutputInv (tr ++ [(.deliver, ⟨[], [msg], ({ s with up := rest }.receive msg).2⟩)])
      ({ s with up := rest }.receive msg).1 := by
  have h_wire : ∀ id, onWire s.up id = onWire [msg] id ++ onWire rest id := by
    intro id
    rw [h_up, ← List.singleton_append, onWire_append]
  cases msg with
  | shellData sessionId data =>
    show OutputInv (tr ++ [(.deliver, ⟨[], [.shellData sessionId data],
      if s.sessions.has sessionId then [.shellData sessionId data] else []⟩)])
        { s with up := rest }
    by_cases h_has : s.sessions.has sessionId = true
    case neg =>
      rw [if_neg h_has]
      refine hi.frame (fun _ => rfl) (fun _ => rfl) (fun _ h => h) fun id h_id => .inl ⟨h_id, ?_⟩
      have h_ne : sessionId ≠ id := fun h => h_has (h ▸ h_id)
      rw [h_wire, onWire_of_ne h_ne]
      rfl
    rw [if_pos h_has]
    have h_produced : ∀ id, produced (tr ++ [(.deliver, ⟨[], [.shellData sessionId data],
        [.shellData sessionId data]⟩)]) id = produced tr id := by
      intro id
      rw [produced_append]
      exact List.append_nil _
    have h_shown : ∀ id, shown (tr ++ [(.deliver, ⟨[], [.shellData sessionId data],
        [.shellData sessionId data]⟩)]) id =
          shown tr id ++ onWire [.shellData sessionId data] id := by
      intro id
      rw [shown_append]
      show shown tr id ++ (List.filterMap (chunkOf id) [.shellData sessionId data] ++ []) = _
      rw [List.append_nil]
      rfl
    have h_live : ∀ id, s.sessions.has id = true →
        produced tr id = shown tr id ++ onWire [.shellData sessionId data] id ++
          onWire rest id := by
      intro id h_id
      rw [hi.live id h_id, h_wire, List.append_assoc]
    constructor
    case quiet =>
      intro id h_new
      rw [h_produced]
      exact hi.quiet id h_new
    case live =>
      intro id h_id
      rw [h_produced, h_shown]
      exact h_live id h_id
    case pre =>
      intro id
      rw [h_produced, h_shown]
      by_cases h_eq : sessionId = id
      · rw [h_live id (h_eq ▸ h_has)]
        exact List.prefix_append _ _
      · rw [onWire_of_ne h_eq, List.append_nil]
        exact hi.pre id
  | shellExit sessionId code =>
    rw [ShellState.receive]
    split
    · refine hi.frame (fun _ => rfl) (fun _ => rfl) (fun _ h => h) fun id h_id => .inl ⟨?_, ?_⟩
      · rw [Table.has_erase, Bool.and_eq_true] at h_id
        exact h_id.2
      · exact (h_wire id).symm
    · exact hi.frame (fun _ => rfl) (fun _ => rfl) (fun _ h => h)
        fun id h_id => .inl ⟨h_id, (h_wire id).symm⟩
  | _ =>
    exact hi.frame (fun _ => rfl) (fun _ => rfl) (fun _ h => h)
      fun id h_id => .inl ⟨h_id, (h_wire id).symm⟩

/-- A PTY prints. -/
theorem print (hi : OutputInv tr s) (hm : MapsInv s) {sessionId data : String}
    (h_pty : s.ptys.has sessionId = true) :
    OutputInv (tr ++ [(.output sessionId data, ⟨[.shellData sessionId data], [], []⟩)])
      (s.send (.shellData sessionId data)) := by
  have h_produced : ∀ id, produced (tr ++ [(.output sessionId data,
      ⟨[.shellData sessionId data], [], []⟩)]) id =
        produced tr id ++ onWire [.shellData sessionId data] id := by
    intro id
    rw [produced_append]
    rfl
  have h_shown : ∀ id, shown (tr ++ [(.output sessionId data,
      ⟨[.shellData sessionId data], [], []⟩)]) id = shown tr id := by
    intro id
    rw [shown_append]
    exact List.append_nil _
  constructor
  case quiet =>
    intro id h_new
    obtain ⟨st, h_get⟩ := Table.has_iff.mp h_pty
    have h_ne : sessionId ≠ id := fun h => h_new (h ▸ hm.started _ st h_get)
    rw [h_produced, hi.quiet id h_new, onWire_of_ne h_ne]
    rfl
  case live =>
    intro id h_id
    have h_up : (s.send (.shellData sessionId data)).up = s.up ++ [.shellData sessionId data] :=
      if_pos (hm.sessions id h_id).2
    rw [h_produced, h_shown, h_up, onWire_append, hi.live id h_id, List.append_assoc]
  case pre =>
    intro id
    rw [h_produced, h_shown]
    exact (hi.pre id).trans (List.prefix_append _ _)

variable {host : AgentHost}

theorem step (hi : OutputInv tr s) (hm : MapsInv s) (h : StepShape host s l s' o) :
    OutputInv (tr ++ [(l, o)]) s' := by
  cases h with
  | refused =>
    exact hi.frame (fun _ => rfl) (fun _ => rfl) (fun _ h => h) fun id h_id => .inl ⟨h_id, rfl⟩
  | @opened _ _ _ _ _ msg h_connected h_new =>
    refine hi.frame (fun _ => rfl) (fun _ => rfl) (fun id h => ?_) fun id h_id => ?_
    · simpa [ShellState.openSession] using .inr h
    · have h_id : (s.sessions.set msg.sessionId ()).has id = true := by
        simpa [ShellState.openSession] using h_id
      have h_up : (s.openSession msg).up = s.up := by simp [ShellState.openSession]
      rw [Table.has_set, Bool.or_eq_true, decide_eq_true_eq] at h_id
      rw [h_up]
      obtain rfl | h_old := h_id
      · exact .inr ⟨h_new, onWire_eq_nil fun m h_mem h_m => h_new (hm.up m h_mem _ h_m)⟩
      · exact .inl ⟨h_old, rfl⟩
  | wrote =>
    exact hi.frame (fun _ => rfl) (fun _ => rfl) (fun _ h => by simpa using h)
      fun id h_id => .inl ⟨by simpa using h_id, by simp⟩
  | resized =>
    exact hi.frame (fun _ => rfl) (fun _ => rfl) (fun _ h => by simpa using h)
      fun id h_id => .inl ⟨by simpa using h_id, by simp⟩
  | @closed sessionId =>
    refine hi.frame (fun _ => rfl) (fun _ => rfl) (fun _ h => by simpa [ShellState.close] using h)
      fun id h_id => .inl ⟨?_, by simp [ShellState.close]⟩
    have h_id : (s.sessions.erase sessionId).has id = true := by
      simpa [ShellState.close] using h_id
    rw [Table.has_erase, Bool.and_eq_true] at h_id
    exact h_id.2
  | delivered h_up => exact hi.deliver h_up
  | disconnected =>
    refine hi.frame (fun _ => rfl) (fun id => ?_) (fun _ h => h) fun id h_id => ?_
    · show List.filterMap (chunkOf id) (s.sessions.keys.map _) ++ [] = []
      rw [List.append_nil]
      refine List.filterMap_eq_nil_iff.mpr fun event h_mem => ?_
      obtain ⟨sessionId, -, rfl⟩ := List.mem_map.mp h_mem
      rfl
    · exact absurd h_id (by simp [ShellState.disconnect, Table.has])
  | @accepted spawnError msg rest h_down =>
    obtain ⟨h_sessions, h_opened, h_wire⟩ :=
      onMessage_frame host { s with down := rest } spawnError msg
    exact hi.frame (fun _ => rfl) (fun _ => rfl) (fun _ h => h_opened.symm ▸ h)
      fun id h_id => .inl ⟨(congrArg (Table.has · id) h_sessions).symm.trans h_id, h_wire id⟩
  | printed h_pty => exact hi.print hm h_pty
  | ended =>
    refine hi.frame (fun _ => rfl) (fun _ => rfl) (fun _ h => h) fun id h_id => .inl ⟨h_id, ?_⟩
    rw [ShellState.send]
    dsimp only
    split
    · rw [onWire_append]
      exact List.append_nil _
    · rfl

end OutputInv

/-! ### Exits -/

/-- `onExit` has been called at most once, and not for a session that is registered. -/
structure ExitInv (tr : List (ShellLabel × ProtocolOut)) (s : ShellState) : Prop where
  quiet : ∀ id, id ∉ s.opened → exits tr id = 0
  live : ∀ id, s.sessions.has id = true → exits tr id = 0
  once : ∀ id, exits tr id ≤ 1

namespace ExitInv

variable {tr : List (ShellLabel × ProtocolOut)} {s s' : ShellState} {l : ShellLabel}
  {o : ProtocolOut}

/-- A step that ends the sessions it calls `onExit` for, each once. -/
theorem frame (hi : ExitInv tr s) (hm : MapsInv s)
    (h_opened : ∀ id ∈ s.opened, id ∈ s'.opened)
    (h_live : ∀ id, s'.sessions.has id = true → s.sessions.has id = true ∨ id ∉ s.opened)
    (h_exits : ∀ id, exits [(l, o)] id = 0 ∨
      exits [(l, o)] id = 1 ∧ s.sessions.has id = true ∧ s'.sessions.has id = false) :
    ExitInv (tr ++ [(l, o)]) s' := by
  constructor
  case quiet =>
    intro id h_new
    have h_old : id ∉ s.opened := fun h => h_new (h_opened id h)
    rw [exits_append, hi.quiet id h_old]
    obtain h_zero | ⟨-, h_has, -⟩ := h_exits id
    · omega
    · exact absurd (hm.sessions id h_has).1 h_old
  case live =>
    intro id h_has
    have h_old : exits tr id = 0 := (h_live id h_has).elim (hi.live id) (hi.quiet id)
    rw [exits_append, h_old]
    obtain h_zero | ⟨-, -, h_gone⟩ := h_exits id
    · omega
    · exact absurd (h_has.symm.trans h_gone) (by simp)
  case once =>
    intro id
    have h_old := hi.once id
    rw [exits_append]
    obtain h_zero | ⟨h_one, h_has, -⟩ := h_exits id
    · omega
    · rw [hi.live id h_has]
      omega

variable {host : AgentHost}

theorem step (hi : ExitInv tr s) (hm : MapsInv s) (h : StepShape host s l s' o) :
    ExitInv (tr ++ [(l, o)]) s' := by
  cases h with
  | refused => exact hi.frame hm (fun _ h => h) (fun _ h => .inl h) fun _ => .inl rfl
  | @opened _ _ _ _ _ msg h_connected h_new =>
    refine hi.frame hm (fun id h => ?_) (fun id h_id => ?_) fun _ => .inl rfl
    · simpa [ShellState.openSession] using .inr h
    · have h_id : (s.sessions.set msg.sessionId ()).has id = true := by
        simpa [ShellState.openSession] using h_id
      rw [Table.has_set, Bool.or_eq_true, decide_eq_true_eq] at h_id
      obtain rfl | h_old := h_id
      · exact .inr h_new
      · exact .inl h_old
  | wrote =>
    exact hi.frame hm (fun _ h => by simpa using h) (fun _ h => .inl (by simpa using h))
      fun _ => .inl rfl
  | resized =>
    exact hi.frame hm (fun _ h => by simpa using h) (fun _ h => .inl (by simpa using h))
      fun _ => .inl rfl
  | @closed sessionId =>
    refine hi.frame hm (fun _ h => by simpa [ShellState.close] using h) (fun id h_id => .inl ?_)
      fun _ => .inl rfl
    have h_id : (s.sessions.erase sessionId).has id = true := by
      simpa [ShellState.close] using h_id
    rw [Table.has_erase, Bool.and_eq_true] at h_id
    exact h_id.2
  | @delivered msg rest h_up =>
    cases msg with
    | shellExit sessionId code =>
      rw [ShellState.receive]
      split
      case isTrue h_has =>
        refine hi.frame hm (fun _ h => h) (fun id h_id => .inl ?_) fun id => ?_
        · rw [Table.has_erase, Bool.and_eq_true] at h_id
          exact h_id.2
        · by_cases h_eq : sessionId = id
          · refine .inr ⟨?_, h_eq ▸ h_has, ?_⟩
            · simp [exits, isExitOf, h_eq]
            · rw [Table.has_erase, h_eq]
              simp
          · exact .inl (by simp [exits, isExitOf, h_eq])
      case isFalse =>
        exact hi.frame hm (fun _ h => h) (fun _ h => .inl h) fun _ => .inl rfl
    | shellData sessionId data =>
      rw [ShellState.receive]
      refine hi.frame hm (fun _ h => h) (fun _ h => .inl h) fun id => .inl ?_
      dsimp only
      split
      · rfl
      · rfl
    | _ => exact hi.frame hm (fun _ h => h) (fun _ h => .inl h) fun _ => .inl rfl
  | disconnected =>
    refine hi.frame hm (fun _ h => h) (fun id h_id => ?_) fun id => ?_
    · exact absurd h_id (by simp [ShellState.disconnect, Table.has])
    -- every registered session is told once
    have h_count : exits [(.disconnect, ⟨[], [], s.disconnect.2⟩)] id = s.sessions.keys.count id := by
      simp only [exits, ShellState.disconnect, List.flatMap_cons, List.flatMap_nil,
        List.append_nil, List.countP_map]
      rfl
    rw [h_count]
    by_cases h_mem : id ∈ s.sessions.keys
    · refine .inr ⟨List.count_eq_one_of_mem s.sessions.nodup h_mem, ?_, rfl⟩
      rw [Table.has, ← Option.ne_none_iff_isSome]
      exact fun h_none => Table.get?_eq_none_iff.mp h_none h_mem
    · exact .inl (List.count_eq_zero.mpr h_mem)
  | @accepted spawnError msg rest h_down =>
    obtain ⟨h_sessions, h_opened, -⟩ :=
      onMessage_frame host { s with down := rest } spawnError msg
    exact hi.frame hm (fun _ h => h_opened.symm ▸ h)
      (fun id h_id => .inl ((congrArg (Table.has · id) h_sessions).symm.trans h_id))
      fun _ => .inl rfl
  | printed => exact hi.frame hm (fun _ h => h) (fun _ h => .inl h) fun _ => .inl rfl
  | ended => exact hi.frame hm (fun _ h => h) (fun _ h => .inl h) fun _ => .inl rfl

end ExitInv

/-! ### Closing -/

/-- A `closeShell` is on its way down, with no `openShell` of the session behind it. -/
def Closing (down : List ShellMessage) (id : String) : Prop :=
  ∃ before after, down = before ++ .closeShell id :: after ∧ id ∉ opening after

theorem Closing.append {down : List ShellMessage} {id : String} (h : Closing down id)
    {msgs : List ShellMessage} (h_msgs : id ∉ opening msgs) : Closing (down ++ msgs) id := by
  obtain ⟨before, after, rfl, h_after⟩ := h
  refine ⟨before, after ++ msgs, by simp, ?_⟩
  rw [opening_append, List.mem_append]
  exact not_or.mpr ⟨h_after, h_msgs⟩

/-- The head of the wire is the message, or it stays behind. -/
theorem Closing.pop {msg : ShellMessage} {rest : List ShellMessage} {id : String}
    (h : Closing (msg :: rest) id) :
    msg = .closeShell id ∧ id ∉ opening rest ∨ Closing rest id := by
  obtain ⟨before, after, h_eq, h_after⟩ := h
  cases before with
  | nil =>
    obtain ⟨rfl, rfl⟩ := List.cons.inj h_eq
    exact .inl ⟨rfl, h_after⟩
  | cons m before => exact .inr ⟨before, after, (List.cons.inj h_eq).2, h_after⟩

theorem Closing.mem {down : List ShellMessage} {id : String} (h : Closing down id) :
    .closeShell id ∈ down := by
  obtain ⟨before, after, rfl, -⟩ := h
  exact List.mem_append_right _ List.mem_cons_self

/-- A closed session is gone on the control plane, and on the agent or about to be. -/
structure ClosedInv (s : ShellState) (id : String) : Prop where
  opened : id ∈ s.opened
  gone : s.sessions.has id = false
  agent : Closing s.down id ∨
    s.ptys.get? id ≠ some .running ∧ (s.connected = false ∨ id ∉ opening s.down)

namespace ClosedInv

variable {s s' : ShellState} {id : String} {host : AgentHost}

/-- Another message on its way down. -/
theorem sendControl (hc : ClosedInv s id) {msg : ShellMessage} (h : id ∉ Terminal.opening [msg]) :
    ClosedInv (s.sendControl msg) id := by
  refine ⟨by simpa using hc.opened, by simpa using hc.gone, ?_⟩
  rw [ShellState.sendControl_down, ShellState.sendControl_ptys, ShellState.sendControl_connected]
  have h_none : id ∉ Terminal.opening (if s.connected then [msg] else []) := by
    split
    · exact h
    · simp [Terminal.opening]
  refine hc.agent.imp (fun h_closing => h_closing.append h_none) ?_
  rintro ⟨h_run, h_off | h_old⟩
  · exact ⟨h_run, .inl h_off⟩
  · refine ⟨h_run, .inr ?_⟩
    rw [opening_append, List.mem_append]
    exact not_or.mpr ⟨h_old, h_none⟩

/-- The agent handles a message. -/
theorem accept (hc : ClosedInv s id) (hm : MapsInv s) {spawnError : Option String}
    {msg : ShellMessage} {rest : List ShellMessage} (h_down : s.down = msg :: rest)
    (h_ok : OpensAndStays host s (.accept spawnError)) :
    ClosedInv ({ s with down := rest }.onMessage host spawnError msg).1 id := by
  obtain ⟨h_sessions, h_opened, -⟩ := onMessage_frame host { s with down := rest } spawnError msg
  refine ⟨h_opened.symm ▸ hc.opened, (congrArg (Table.has · id) h_sessions).trans hc.gone, ?_⟩
  have h_opening : Terminal.opening s.down = Terminal.opening [msg] ++ Terminal.opening rest := by
    rw [h_down, ← List.singleton_append, opening_append]
  have h_closing := hc.agent
  rw [h_down] at h_closing
  cases msg with
  | openShell msg =>
    obtain ⟨h_connected, h_opens⟩ := h_ok msg rest h_down
    rw [ShellState.onMessage, h_opens]
    obtain h_closing | ⟨h_run, h_off | h_old⟩ := h_closing
    · obtain ⟨h_eq, -⟩ | h_rest := h_closing.pop
      · cases h_eq
      · exact .inl h_rest
    · exact absurd (h_connected.symm.trans h_off) (by simp)
    · rw [← h_down, h_opening, List.mem_append, not_or] at h_old
      have h_ne : id ≠ msg.sessionId := fun h => h_old.1 (h ▸ List.mem_singleton_self _)
      exact .inr ⟨fun h => h_run ((Table.get?_set_of_ne _ _ h_ne).symm.trans h), .inr h_old.2⟩
  | closeShell sessionId =>
    -- what is not running is not started
    have h_stays : s.ptys.get? id ≠ some .running → ∀ {t : ShellState},
        t = ({ s with down := rest }.onMessage host spawnError (.closeShell sessionId)).1 →
        t.ptys.get? id ≠ some .running := by
      rintro h_run t rfl
      rw [ShellState.onMessage]
      split
      · intro h
        obtain ⟨-, h_eq⟩ | ⟨-, h_old⟩ := Table.get?_set_eq_some h
        · cases h_eq
        · exact h_run h_old
      · exact h_run
    have h_same : ({ s with down := rest }.onMessage host spawnError
        (.closeShell sessionId)).1.down = rest ∧
        ({ s with down := rest }.onMessage host spawnError
          (.closeShell sessionId)).1.connected = s.connected := by
      rw [ShellState.onMessage]
      split
      · exact ⟨rfl, rfl⟩
      · exact ⟨rfl, rfl⟩
    rw [h_same.1, h_same.2]
    obtain h_closing | ⟨h_run, h_off⟩ := h_closing
    · obtain ⟨h_eq, h_rest⟩ | h_rest := h_closing.pop
      · obtain rfl := ShellMessage.closeShell.inj h_eq
        refine .inr ⟨?_, .inr h_rest⟩
        rw [ShellState.onMessage]
        split
        case isTrue => simp
        case isFalse h_has => exact fun h => h_has ((hm.registered sessionId).mpr h)
      · exact .inl h_rest
    · refine .inr ⟨h_stays h_run rfl, h_off.imp_right fun h => ?_⟩
      rw [← h_down, h_opening] at h
      exact h
  | _ =>
    refine h_closing.imp (fun h => ?_) fun h => ?_
    · obtain ⟨h_eq, -⟩ | h_rest := h.pop
      · cases h_eq
      · exact h_rest
    · rw [← h_down, h_opening] at h
      exact h

theorem step (hc : ClosedInv s id) (hm : MapsInv s) {l : ShellLabel} {o : ProtocolOut}
    (h_ok : OpensAndStays host s l) (h : StepShape host s l s' o) : ClosedInv s' id := by
  cases h with
  | refused => exact hc
  | @opened _ _ _ _ _ msg h_connected h_new =>
    have h_ne : id ≠ msg.sessionId := fun h => h_new (h ▸ hc.opened)
    refine ClosedInv.sendControl (s := { s with
      sessions := s.sessions.set msg.sessionId (), opened := msg.sessionId :: s.opened })
      ⟨List.mem_cons_of_mem _ hc.opened, ?_, hc.agent⟩ fun h_mem => h_ne (List.mem_singleton.mp h_mem)
    rw [Table.has_set, hc.gone]
    simpa using h_ne
  | wrote => exact hc.sendControl (by simp [Terminal.opening])
  | resized => exact hc.sendControl (by simp [Terminal.opening])
  | @closed sessionId =>
    refine ClosedInv.sendControl (s := { s with sessions := s.sessions.erase sessionId })
      ⟨hc.opened, ?_, hc.agent⟩ (by simp [Terminal.opening])
    rw [Table.has_erase, hc.gone, Bool.and_false]
  | @delivered msg rest h_up =>
    have h_old : ClosedInv { s with up := rest } id := ⟨hc.opened, hc.gone, hc.agent⟩
    cases msg with
    | shellExit sessionId code =>
      rw [ShellState.receive]
      split
      · refine ⟨hc.opened, ?_, hc.agent⟩
        rw [Table.has_erase, hc.gone, Bool.and_false]
      · exact h_old
    | _ => exact h_old
  | disconnected =>
    exact ⟨hc.opened, rfl, .inr ⟨h_ok id, .inl rfl⟩⟩
  | accepted h_down => exact hc.accept hm h_down h_ok
  | printed => exact ⟨hc.opened, hc.gone, hc.agent⟩
  | ended =>
    refine ⟨hc.opened, hc.gone, hc.agent.imp_right fun h => ⟨fun h_run => ?_, h.2⟩⟩
    obtain ⟨-, h_eq⟩ | ⟨-, h_old⟩ := Table.get?_set_eq_some h_run
    · cases h_eq
    · exact h.1 h_old

/-- Closing a session. -/
theorem of_close (hm : MapsInv s) (h_opened : id ∈ s.opened) : ClosedInv (s.close id) id := by
  have h_down : (s.close id).down = s.down ++ if s.connected then [.closeShell id] else [] :=
    ShellState.sendControl_down _ _
  have h_ptys : (s.close id).ptys = s.ptys := by simp [ShellState.close]
  have h_connected : (s.close id).connected = s.connected := by simp [ShellState.close]
  refine ⟨by simpa [ShellState.close] using h_opened, ?_, ?_⟩
  · simp [ShellState.close, Table.has]
  rw [h_down, h_ptys, h_connected]
  by_cases h_up : s.connected = true
  · rw [if_pos h_up]
    exact .inl ⟨s.down, [], rfl, by simp [Terminal.opening]⟩
  · rw [Bool.not_eq_true] at h_up
    exact .inr ⟨hm.stays h_up id, .inl h_up⟩

end ClosedInv

/-! ### Runs -/

/-- What is known of a run: the maps, the callbacks and the sessions that were closed. -/
structure SessionHistory (tr : List (ShellLabel × ProtocolOut)) (s : ShellState) : Prop where
  maps : MapsInv s
  output : OutputInv tr s
  exits : ExitInv tr s
  closed : ∀ id, Closed tr id → ClosedInv s id

variable {tr : List (ShellLabel × ProtocolOut)} {s : ShellState}

theorem sessionHistory_run (h : (shellMachine agent host).RunWhen (OpensAndStays host) tr s) :
    SessionHistory tr s := by
  refine h.history ?_ fun tr s l s' o _ hh h_ok hs => ?_
  · exact ⟨mapsInv_init, ⟨fun _ _ => rfl, fun _ _ => rfl, fun _ => List.nil_prefix⟩,
      ⟨fun _ _ => rfl, fun _ _ => rfl, fun _ => Nat.zero_le _⟩,
      fun id ⟨o, h_mem⟩ => absurd h_mem List.not_mem_nil⟩
  have h_shape := step_shape hs
  refine ⟨hh.maps.step h_ok h_shape, hh.output.step hh.maps h_shape,
    hh.exits.step hh.maps h_shape, ?_⟩
  rintro id ⟨o', h_mem⟩
  rcases List.mem_append.mp h_mem with h_old | h_new
  · exact (hh.closed id ⟨o', h_old⟩).step hh.maps h_ok h_shape
  · obtain ⟨rfl, rfl⟩ := Prod.mk.inj (List.mem_singleton.mp h_new)
    cases h_shape with
    | closed h_opened => exact .of_close hh.maps h_opened

/-- **Shell sessions**, along every run in which the agent opens the shells it is asked for and
no connection drops under a running PTY. -/
theorem sessions_kept (agent : HostAgent) (host : AgentHost)
    {tr : List (ShellLabel × ProtocolOut)} {s : ShellState}
    (h : (shellMachine agent host).RunWhen (OpensAndStays host) tr s) : SessionsKept tr s := by
  have hh := sessionHistory_run h
  have h_gone : ∀ id, s.ptys.get? id ≠ some .running → GoneOnAgent s id := by
    intro id h_run
    refine ⟨Bool.eq_false_iff.mpr fun h_has => ?_, h_run⟩
    exact h_run ((hh.maps.registered id).mp h_has)
  constructor
  case backed =>
    rintro - id ⟨h_opened, h_down⟩
    have h_opening : id ∉ opening s.down := by
      intro h_mem
      obtain ⟨msg, h_msg, h_id⟩ := mem_opening.mp h_mem
      exact h_down msg h_msg h_id
    have h_some := (hh.maps.handled id h_opened).resolve_left h_opening
    obtain ⟨st, h_get⟩ := Option.isSome_iff_exists.mp h_some
    cases st with
    | running => exact .inl ⟨(hh.maps.registered id).mpr h_get, h_get⟩
    | killed => exact .inr (.inl (.inr h_get))
    | exited => exact .inr (.inl (.inl h_get))
  case output => exact hh.output.pre
  case once => exact hh.exits.once
  case exit =>
    intro id h_exited
    refine ⟨h_gone id (by simp [h_exited]), fun h_up => ?_⟩
    refine Bool.eq_false_iff.mpr fun h_has => ?_
    obtain ⟨code, h_mem⟩ := hh.maps.exiting id h_exited h_has
    exact h_up _ h_mem rfl
  case close =>
    intro id h_closed
    have hc := hh.closed id h_closed
    refine ⟨hc.gone, fun h_down _ => ?_⟩
    obtain h_closing | ⟨h_run, -⟩ := hc.agent
    · exact absurd h_closing.mem h_down
    · exact h_gone id h_run
  case disconnect =>
    intro h_off id
    refine ⟨Bool.eq_false_iff.mpr fun h_has => ?_, h_gone id (hh.maps.stays h_off id)⟩
    exact absurd ((hh.maps.sessions id h_has).2.symm.trans h_off) (by simp)

/-- An agent that runs as an account of its own. -/
def serviceHost (username : String) : AgentHost where
  capabilities := ["shellAsUser"]
  username := username
  shell := none
  runuser := none
  honoursAsUser := true
  advertised := fun _ => rfl

def sampleHost : HostAgent := ⟨0, "m1", "host", none, "installed", none⟩

/-- A shell that prints a prompt and exits. -/
def sampleShell : List ShellLabel :=
  [.openShell "s1" 80 24 (some "bob") none, .accept none, .output "s1" "$ ", .deliver,
    .exit "s1" 0, .deliver]

theorem sessions_kept_sample : ∃ tr s,
    (shellMachine sampleHost (serviceHost "root")).RunWhen
      (OpensAndStays (serviceHost "root")) tr s ∧
    tr.map Prod.fst = sampleShell ∧ shown tr "s1" = ["$ "] ∧ exits tr "s1" = 1 ∧
    SessionsKept tr s := by
  have h_run : ∃ tr s, (shellMachine sampleHost (serviceHost "root")).RunWhen
      (OpensAndStays (serviceHost "root")) tr s ∧ tr.map Prod.fst = sampleShell ∧
      shown tr "s1" = ["$ "] ∧ exits tr "s1" = 1 := by
    refine ⟨_, _, .step (.step (.step (.step (.step (.step
      (l := .openShell "s1" 80 24 (some "bob") none) .init (by trivial) rfl)
      (l := .accept none) ?_ rfl) (l := .output "s1" "$ ") (by trivial) rfl)
      (l := .deliver) (by trivial) rfl) (l := .exit "s1" 0) (by trivial) rfl)
      (l := .deliver) (by trivial) rfl, rfl, rfl, rfl⟩
    intro msg rest h_down
    obtain rfl := ShellMessage.openShell.inj (List.cons.inj h_down).1
    exact ⟨rfl, by decide⟩
  obtain ⟨tr, s, h, h_labels, h_shown, h_exits⟩ := h_run
  exact ⟨tr, s, h, h_labels, h_shown, h_exits, sessions_kept _ _ h⟩

/-- **A session left open, and a PTY left running**: an agent that does not run as root cannot
open a shell as `bob`, and its error reaches nobody; and a connection drops under a shell. -/
theorem session_left_open :
    (∃ tr s, (shellMachine sampleHost (serviceHost "svc")).Run tr s ∧ s.up = [] ∧
      Handled s "s1" ∧ s.sessions.has "s1" = true ∧ s.ptys.get? "s1" = none ∧
      ¬SessionsKept tr s) ∧
    ∃ tr s, (shellMachine sampleHost (serviceHost "root")).Run tr s ∧ s.connected = false ∧
      s.shells.has "s1" = true ∧ s.ptys.get? "s1" = some .running ∧ ¬SessionsKept tr s := by
  constructor
  · have h_run : ∃ tr s, (shellMachine sampleHost (serviceHost "svc")).Run tr s ∧ s.up = [] ∧
        s.opened = ["s1"] ∧ s.down = [] ∧ s.sessions.has "s1" = true ∧
        s.ptys.get? "s1" = none ∧
        (tr.flatMap fun x => x.2.delivered).filterMap sessionOf = [] := by
      exact ⟨_, _, .step (.step (.step (l := .openShell "s1" 80 24 (some "bob") none) .init
        trivial rfl) (l := .accept none) trivial rfl) (l := .deliver) trivial rfl,
        rfl, rfl, rfl, rfl, rfl, rfl⟩
    obtain ⟨tr, s, h, h_up, h_opened, h_down, h_session, h_pty, h_delivered⟩ := h_run
    have h_handled : Handled s "s1" :=
      ⟨by simp [h_opened], fun msg h_mem => absurd h_mem (by simp [h_down])⟩
    refine ⟨tr, s, h, h_up, h_handled, h_session, h_pty, fun h_kept => ?_⟩
    obtain ⟨-, h_run⟩ | h_ended | ⟨x, h_mem, msg, h_msg, h_id⟩ := h_kept.backed h_up _ h_handled
    · exact absurd (h_pty.symm.trans h_run) (by simp)
    · rw [Ended, h_pty] at h_ended
      exact absurd h_ended (by simp)
    · have h_all := List.filterMap_eq_nil_iff.mp h_delivered msg
        (List.mem_flatMap.mpr ⟨x, h_mem, h_msg⟩)
      exact absurd (h_id.symm.trans h_all) (by simp)
  · have h_run : ∃ tr s, (shellMachine sampleHost (serviceHost "root")).Run tr s ∧
        s.connected = false ∧ s.shells.has "s1" = true ∧ s.ptys.get? "s1" = some .running :=
      ⟨_, _, .step (.step (.step (l := .openShell "s1" 80 24 (some "bob") none) .init
        trivial rfl) (l := .accept none) trivial rfl) (l := .disconnect) trivial rfl,
        rfl, rfl, rfl⟩
    obtain ⟨tr, s, h, h_off, h_shell, h_pty⟩ := h_run
    exact ⟨tr, s, h, h_off, h_shell, h_pty, fun h_kept =>
      (h_kept.disconnect h_off "s1").2.2 h_pty⟩

end ServerCentral.Terminal
