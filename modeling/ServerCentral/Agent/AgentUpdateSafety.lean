import ServerCentral.Agent.AgentUpdate

/-!
# What a poll may conclude

The connections of a machine stand in the order in which they came (`ConnectionsInv`), and
the ones behind the mark of a waiting task are those registered since the acknowledgement
(`UpdateInv`). So an installed connection that came later is never hidden by the old one,
and what a poll concludes of a later installed connection is true.
-/

open Framework

namespace ServerCentral.Agent

/-! ### The connections -/

/-- An installed connection that answers for its machine is not older than another one. -/
theorem activeOf_installed {l₁ l₂ : List HostAgent} {a b : HostAgent}
    (h_a : a.mode = "installed") (h_b : b.mode = "installed")
    (h : Fleet.activeOf (l₁ ++ a :: l₂) = some b) : b = a ∨ b ∈ l₂ := by
  induction l₂ using List.reverseRecOn with
  | nil =>
    rw [Fleet.activeOf_concat] at h
    split at h
    · exact .inl (Option.some.inj h).symm
    next best _ =>
    split at h
    · exact .inl (Option.some.inj h).symm
    · next h_not =>
      obtain rfl := Option.some.inj h
      rw [h_a, h_b] at h_not
      exact absurd (by decide) h_not
  | append_singleton l₂ x ih =>
    rw [← List.cons_append, ← List.append_assoc, Fleet.activeOf_concat] at h
    split at h
    · obtain rfl := Option.some.inj h
      exact .inr (List.mem_append_right _ List.mem_cons_self)
    next best h_best =>
    split at h
    · obtain rfl := Option.some.inj h
      exact .inr (List.mem_append_right _ List.mem_cons_self)
    · exact (ih (h_best.trans h)).imp_right (List.mem_append_left _)

/-- The connections of every machine, against the list of all connections. -/
structure ConnectionsInv (s : UpdateState) : Prop where
  nodup : s.registered.Nodup
  order : ∀ id, (s.fleet.listOf id).Sublist s.registered
  owner : ∀ id, ∀ a ∈ s.fleet.listOf id, a.id = id
  online : ∀ id, ∀ a ∈ s.fleet.listOf id, s.fleet.connected a = true
  fresh : ∀ a, a ∉ s.registered → s.fleet.connected a = true

namespace ConnectionsInv

variable {s s' : UpdateState}

theorem congr (hi : ConnectionsInv s) (h_list : ∀ id, s'.fleet.listOf id = s.fleet.listOf id)
    (h_connected : s'.fleet.connected = s.fleet.connected)
    (h_registered : s'.registered = s.registered) : ConnectionsInv s' where
  nodup := by
    rw [h_registered]
    exact hi.nodup
  order id := by
    rw [h_list, h_registered]
    exact hi.order id
  owner id a h := hi.owner id a (h_list id ▸ h)
  online id a h := by
    rw [h_connected]
    exact hi.online id a (h_list id ▸ h)
  fresh a h := by
    rw [h_connected]
    exact hi.fresh a (h_registered ▸ h)

theorem init (start : FleetStart) (expected target : String) :
    ConnectionsInv (updateMachine start expected target).init := by
  have h_list : ∀ id, start.fleet.listOf id = start.embedded.toList ∧
      (∀ a ∈ start.embedded, a.id = id) ∨ start.fleet.listOf id = [] := by
    intro id
    cases start with
    | constructed => exact .inr rfl
    | initialised stored conn machineId hostname info now =>
      have h_get : (FleetStart.initialised stored conn machineId hostname info now).fleet.listOf id =
          ((Table.empty.set machineId [Fleet.createEmbeddedAgent conn machineId hostname
            info]).get? id).getD [] := rfl
      rw [h_get, Table.get?_set]
      split
      · next h_id =>
        refine .inl ⟨rfl, fun a h => ?_⟩
        obtain rfl := Option.some.inj h
        exact h_id.symm
      · exact .inr rfl
  have h_online : ∀ a, start.fleet.connected a = true := by
    intro a
    cases start <;> rfl
  constructor
  case nodup =>
    show start.embedded.toList.Nodup
    cases start.embedded with
    | none => exact List.nodup_nil
    | some a => exact List.nodup_singleton a
  case order =>
    intro id
    show (start.fleet.listOf id).Sublist start.embedded.toList
    obtain ⟨h, -⟩ | h := h_list id
    · rw [h]
    · rw [h]
      exact List.nil_sublist _
  case owner =>
    intro id a h
    have h : a ∈ start.fleet.listOf id := h
    obtain ⟨h_eq, h_id⟩ | h_eq := h_list id
    · rw [h_eq] at h
      exact h_id a (Option.mem_toList.mp h)
    · rw [h_eq] at h
      exact absurd h List.not_mem_nil
  case online => exact fun id a _ => h_online a
  case fresh => exact fun a _ => h_online a

theorem register (hi : ConnectionsInv s) {agent : HostAgent} (now : ℕ)
    (h_new : agent ∉ s.registered) :
    ConnectionsInv { s with
      fleet := (s.fleet.register agent now).1
      registered := s.registered ++ [agent] } := by
  have h_absent : ∀ id, agent ∉ s.fleet.listOf id := fun id h => h_new ((hi.order id).subset h)
  have h_list : ∀ id, (s.fleet.register agent now).1.listOf id =
      if id = agent.id then s.fleet.listOf id ++ [agent] else s.fleet.listOf id := by
    intro id
    rw [Fleet.listOf_register, if_neg (h_absent id)]
  have h_mem : ∀ {id a}, a ∈ (s.fleet.register agent now).1.listOf id →
      a ∈ s.fleet.listOf id ∨ a = agent ∧ id = agent.id := by
    intro id a h
    rw [h_list] at h
    split at h
    · next h_id =>
      exact (List.mem_append.mp h).imp_right fun h => ⟨List.mem_singleton.mp h, h_id⟩
    · exact .inl h
  constructor
  case nodup =>
    refine List.nodup_append'.mpr ⟨hi.nodup, List.nodup_singleton agent, ?_⟩
    intro a h_a h_eq
    exact h_new (List.mem_singleton.mp h_eq ▸ h_a)
  case order =>
    intro id
    show ((s.fleet.register agent now).1.listOf id).Sublist _
    rw [h_list]
    split
    · exact (hi.order id).append (List.Sublist.refl [agent])
    · exact (hi.order id).trans (List.sublist_append_left _ _)
  case owner =>
    intro id a h
    obtain h | ⟨rfl, rfl⟩ := h_mem h
    · exact hi.owner id a h
    · rfl
  case online =>
    intro id a h
    show (s.fleet.register agent now).1.connected a = true
    rw [Fleet.connected_register]
    obtain h | ⟨rfl, -⟩ := h_mem h
    · exact hi.online id a h
    · exact hi.fresh a h_new
  case fresh =>
    intro a h
    show (s.fleet.register agent now).1.connected a = true
    rw [Fleet.connected_register]
    exact hi.fresh a fun h_a => h (List.mem_append_left _ h_a)

theorem close (hi : ConnectionsInv s) {agent : HostAgent} (now : ℕ)
    (h_live : agent ∈ s.fleet.listOf agent.id) :
    ConnectionsInv { s with fleet := (s.fleet.disconnect agent).deregister agent now } := by
  have h_list : ∀ id, ((s.fleet.disconnect agent).deregister agent now).listOf id =
      if id = agent.id then (s.fleet.listOf id).erase agent else s.fleet.listOf id := by
    intro id
    rw [Fleet.listOf_deregister]
    rfl
  have h_connected : ∀ a, a ≠ agent →
      ((s.fleet.disconnect agent).deregister agent now).connected a = s.fleet.connected a := by
    intro a h_ne
    rw [Fleet.connected_deregister]
    exact Function.update_of_ne h_ne _ _
  have h_mem : ∀ {id a}, a ∈ ((s.fleet.disconnect agent).deregister agent now).listOf id →
      a ∈ s.fleet.listOf id ∧ a ≠ agent := by
    intro id a h
    rw [h_list] at h
    split at h
    · have h_nodup := hi.nodup.sublist (hi.order id)
      exact (h_nodup.mem_erase_iff.mp h).symm
    · next h_ne =>
      refine ⟨h, ?_⟩
      rintro rfl
      exact h_ne (hi.owner id a h).symm
  constructor
  case nodup => exact hi.nodup
  case order =>
    intro id
    show (((s.fleet.disconnect agent).deregister agent now).listOf id).Sublist _
    rw [h_list]
    split
    · exact List.erase_sublist.trans (hi.order id)
    · exact hi.order id
  case owner => exact fun id a h => hi.owner id a (h_mem h).1
  case online =>
    intro id a h
    obtain ⟨h_a, h_ne⟩ := h_mem h
    exact (h_connected a h_ne).trans (hi.online id a h_a)
  case fresh =>
    intro a h
    have h_ne : a ≠ agent := by
      rintro rfl
      exact h ((hi.order _).subset h_live)
    exact (h_connected a h_ne).trans (hi.fresh a h)

end ConnectionsInv

/-! ### What a poll finds -/

/-- A connection that came after the first `mark` does not stand before one of those. -/
theorem order_of_mark {l registered : List HostAgent} {mark : ℕ} (h_nodup : registered.Nodup)
    (h_sub : l.Sublist registered) {l₁ l₂ : List HostAgent} {a b : HostAgent}
    (h_split : l = l₁ ++ a :: l₂) (h_a : a ∈ registered.drop mark) (h_b : b ∈ l₂) :
    b ∉ registered.take mark := by
  rw [← List.take_append_drop mark registered] at h_nodup
  have h_apart := (List.nodup_append'.mp h_nodup).2.2
  -- nothing of the first part stands behind anything of the rest
  have h_pair : registered.Pairwise fun x y => x ∈ registered.drop mark →
      y ∉ registered.take mark := by
    have h_take : (registered.take mark ++ registered.drop mark).Pairwise fun x y =>
        x ∈ registered.drop mark → y ∉ registered.take mark := by
      refine List.pairwise_append.mpr ⟨?_, ?_, ?_⟩
      · exact List.pairwise_of_forall_mem_list fun x h_x y _ h => absurd h (h_apart h_x)
      · exact List.pairwise_of_forall_mem_list fun x _ y h_y _ h => h_apart h h_y
      · exact fun x h_x y _ h => absurd h (h_apart h_x)
    rwa [List.take_append_drop] at h_take
  have h_list := h_pair.sublist h_sub
  rw [h_split] at h_list
  exact (List.pairwise_cons.mp (List.pairwise_append.mp h_list).2.1).1 b h_b h_a

theorem mem_listOf_of_get {s : Fleet} {id : String} {a : HostAgent} (h : s.get id = .ok a) :
    a ∈ s.listOf id ∧ Fleet.activeOf (s.listOf id) = some a := by
  unfold Fleet.get at h
  split at h
  · next active h_active =>
    obtain rfl := Except.ok.inj h
    obtain ⟨list, h_list, h_active⟩ := Option.bind_eq_some_iff.mp h_active
    rw [Fleet.listOf, h_list]
    exact ⟨Fleet.mem_of_activeOf h_active, h_active⟩
  · cases h

theorem get_of_mem {s : Fleet} {id : String} {a : HostAgent} (h : a ∈ s.listOf id) :
    ∃ b, s.get id = .ok b := by
  cases h_list : s.connections.get? id with
  | none =>
    rw [Fleet.listOf, h_list] at h
    exact absurd h List.not_mem_nil
  | some list =>
    rw [Fleet.listOf, h_list] at h
    cases h_active : Fleet.activeOf list with
    | none => exact absurd (Fleet.activeOf_eq_none.mp h_active) (List.ne_nil_of_mem h)
    | some b =>
      refine ⟨b, ?_⟩
      rw [Fleet.get, h_list, Option.bind_some, h_active]

/-- **A poll does not miss the reconnect**: while an installed connection is there that came
after the first `mark`, the poll finds some connection that is not the old one. -/
theorem reconnected_ne_none {s : UpdateState} (hi : ConnectionsInv s) {target : String}
    {before a : HostAgent} {mark : ℕ} (h_before : before ∈ s.registered.take mark)
    (h_old : before.mode = "installed") (h_a : a ∈ s.fleet.listOf target)
    (h_mode : a.mode = "installed") (h_new : a ∈ s.registered.drop mark) :
    s.reconnected target before ≠ none := by
  obtain ⟨b, h_get⟩ := get_of_mem h_a
  obtain ⟨h_mem, h_active⟩ := mem_listOf_of_get h_get
  have h_online : (s.fleet.status b).state = .online := by
    rw [Fleet.status, hi.online target b h_mem]
    rfl
  have h_ne : b ≠ before := by
    rintro rfl
    obtain ⟨l₁, l₂, h_split⟩ := List.append_of_mem h_a
    rw [h_split] at h_active
    obtain rfl | h_later := activeOf_installed h_mode h_old h_active
    · have h_nodup := hi.nodup
      rw [← List.take_append_drop mark s.registered] at h_nodup
      exact (List.nodup_append'.mp h_nodup).2.2 h_before h_new
    · exact order_of_mark hi.nodup (hi.order target) h_split h_new h_later h_before
  unfold UpdateState.reconnected
  rw [h_get]
  simp [h_ne, h_online]

/-! ### What the task concludes from a poll -/

namespace UpdateState

variable {expected target : String} {s : UpdateState} {before : HostAgent} {force : Bool}
  {deadline mark now : ℕ}

theorem wake_succeeded
    (h : (s.wake expected target before force deadline mark now).2 = .succeeded) :
    ∃ a, s.reconnected target before = some a ∧
      (force = true ∨ a.info.bind SystemInfo.agentVersion = some expected) := by
  unfold wake at h
  split at h
  · unfold again at h
    split at h
    · split at h <;> cases h
    · cases h
  next a h_a =>
  dsimp only at h
  split at h
  · cases h
  · next h_not =>
    refine ⟨a, h_a, ?_⟩
    cases force with
    | true => exact .inl rfl
    | false => exact .inr (not_not.mp fun h_ne => h_not ⟨rfl, h_ne⟩)

theorem wake_mismatch {version : Option String}
    (h : (s.wake expected target before force deadline mark now).2 =
      .failed (.reconnectedOn version)) :
    ∃ a, s.reconnected target before = some a ∧ a.info.bind SystemInfo.agentVersion = version ∧
      version ≠ some expected := by
  unfold wake at h
  split at h
  · unfold again at h
    split at h
    · split at h <;> cases h
    · cases h
  next a h_a =>
  dsimp only at h
  split at h
  · next h_other =>
    obtain rfl := UpdateError.reconnectedOn.inj (UpdateOut.failed.inj h)
    exact ⟨a, h_a, rfl, h_other.2⟩
  · cases h

theorem wake_timedOut
    (h : (s.wake expected target before force deadline mark now).2 = .failed .timedOut) :
    s.reconnected target before = none := by
  unfold wake at h
  split at h
  · next h_none => exact h_none
  · dsimp only at h
    split at h <;> cases h

/-- A poll ends the task or sleeps again. -/
theorem wake_task (s : UpdateState) (expected target : String) (before : HostAgent) (force : Bool)
    (deadline mark now : ℕ) :
    ((s.wake expected target before force deadline mark now).1.task = .ended ∨
      (s.wake expected target before force deadline mark now).1.task =
        .waiting before force deadline mark) ∧
    (s.wake expected target before force deadline mark now).1.fleet = s.fleet ∧
    (s.wake expected target before force deadline mark now).1.registered = s.registered ∧
    (s.wake expected target before force deadline mark now).2 ≠ .acknowledged := by
  unfold wake
  split
  · unfold again
    split
    · split
      · exact ⟨.inl rfl, rfl, rfl, (by rintro ⟨⟩)⟩
      · exact ⟨.inr rfl, rfl, rfl, (by rintro ⟨⟩)⟩
    · exact ⟨.inl rfl, rfl, rfl, (by rintro ⟨⟩)⟩
  · dsimp only
    split
    · exact ⟨.inl rfl, rfl, rfl, (by rintro ⟨⟩)⟩
    · exact ⟨.inl rfl, rfl, rfl, (by rintro ⟨⟩)⟩

end UpdateState

/-! ### The task -/

variable {start : FleetStart} {expected target : String}
  {tr : List (UpdateLabel × UpdateOut)} {s s' : UpdateState} {l : UpdateLabel} {o : UpdateOut}

theorem returns_snoc {a : HostAgent} : Returns (tr ++ [(l, o)]) a ↔ Returns tr a ∨
    (∃ ack, (ack, UpdateOut.acknowledged) ∈ tr) ∧
      ∃ now active, l = .register a now ∧ o = .registered active := by
  constructor
  · rintro ⟨pre, post, ack, h_tr, now, active, h_mem⟩
    obtain ⟨-, -, rfl⟩ | ⟨post', rfl, rfl⟩ := Machine.snoc_split h_tr
    · exact absurd h_mem List.not_mem_nil
    · obtain h_mem | h_mem := List.mem_append.mp h_mem
      · exact .inl ⟨pre, post', ack, rfl, now, active, h_mem⟩
      · obtain ⟨rfl, rfl⟩ := Prod.mk.inj (List.mem_singleton.mp h_mem)
        exact .inr ⟨⟨ack, List.mem_append_right _ List.mem_cons_self⟩, now, active, rfl, rfl⟩
  · rintro (⟨pre, post, ack, rfl, now, active, h_mem⟩ | ⟨⟨ack, h_ack⟩, now, active, rfl, rfl⟩)
    · exact ⟨pre, post ++ [(l, o)], ack, by simp, now, active, List.mem_append_left _ h_mem⟩
    · obtain ⟨pre, post, rfl⟩ := List.append_of_mem h_ack
      exact ⟨pre, post ++ [_], ack, by simp, now, active,
        List.mem_append_right _ List.mem_cons_self⟩

/-- What the task remembers: the connection it started with is an installed one that came
before the acknowledgement, and the connections that came after it are those behind the
mark. -/
structure UpdateInv (tr : List (UpdateLabel × UpdateOut)) (s : UpdateState) : Prop where
  connections : ConnectionsInv s
  early : s.task = .idle ∨ (∃ agent force, s.task = .updating agent force) →
    ∀ ack, (ack, UpdateOut.acknowledged) ∉ tr
  updating : ∀ agent force, s.task = .updating agent force →
    agent ∈ s.registered ∧ agent.mode = "installed" ∧
      (force = true → (UpdateLabel.run true, UpdateOut.pushed true) ∈ tr)
  waiting : ∀ before force deadline mark, s.task = .waiting before force deadline mark →
    before ∈ s.registered.take mark ∧ before.mode = "installed" ∧
      (force = true → (UpdateLabel.run true, UpdateOut.pushed true) ∈ tr) ∧
      mark ≤ s.registered.length ∧ (∃ ack, (ack, UpdateOut.acknowledged) ∈ tr) ∧
      ∀ a, Returns tr a ↔ a ∈ s.registered.drop mark

namespace UpdateInv

/-- **A step that registers nothing** and is not the acknowledgement: the task goes on as it
is, or ends. -/
theorem quiet (hi : UpdateInv tr s) (h_conn : ConnectionsInv s')
    (h_registered : s'.registered = s.registered) (h_task : s'.task = s.task ∨ s'.task = .ended)
    (h_label : ∀ agent now, l ≠ .register agent now) (h_out : o ≠ .acknowledged) :
    UpdateInv (tr ++ [(l, o)]) s' where
  connections := h_conn
  early h ack h_mem := by
    obtain h_mem | h_mem := List.mem_append.mp h_mem
    · obtain h_eq | h_eq := h_task
      · exact hi.early (h_eq ▸ h) ack h_mem
      · rw [h_eq] at h
        obtain h | ⟨_, _, h⟩ := h <;> cases h
    · exact h_out (Prod.mk.inj (List.mem_singleton.mp h_mem)).2.symm
  updating agent force h := by
    obtain h_eq | h_eq := h_task
    · obtain ⟨h_mem, h_mode, h_force⟩ := hi.updating agent force (h_eq ▸ h)
      rw [h_registered]
      exact ⟨h_mem, h_mode, fun h_f => List.mem_append_left _ (h_force h_f)⟩
    · exact nomatch h_eq.symm.trans h
  waiting before force deadline mark h := by
    obtain h_eq | h_eq := h_task
    · obtain ⟨h_mem, h_mode, h_force, h_le, ⟨ack, h_ack⟩, h_returns⟩ :=
        hi.waiting before force deadline mark (h_eq ▸ h)
      rw [h_registered]
      refine ⟨h_mem, h_mode, fun h_f => List.mem_append_left _ (h_force h_f), h_le,
        ⟨ack, List.mem_append_left _ h_ack⟩, fun a => ?_⟩
      rw [returns_snoc, ← h_returns]
      exact or_iff_left fun ⟨_, now, _, h_l, _⟩ => h_label a now h_l
    · exact nomatch h_eq.symm.trans h

/-- A connection comes. -/
theorem register (hi : UpdateInv tr s) {agent : HostAgent} {now : ℕ} {active : Bool}
    (h_new : agent ∉ s.registered) :
    UpdateInv (tr ++ [(.register agent now, .registered active)]) { s with
      fleet := (s.fleet.register agent now).1
      registered := s.registered ++ [agent] } where
  connections := hi.connections.register now h_new
  early h ack h_mem := by
    obtain h_mem | h_mem := List.mem_append.mp h_mem
    · exact hi.early h ack h_mem
    · exact nomatch (Prod.mk.inj (List.mem_singleton.mp h_mem)).2
  updating a force h := by
    obtain ⟨h_mem, h_mode, h_force⟩ := hi.updating a force h
    exact ⟨List.mem_append_left _ h_mem, h_mode, fun h_f => List.mem_append_left _ (h_force h_f)⟩
  waiting before force deadline mark h := by
    obtain ⟨h_mem, h_mode, h_force, h_le, ⟨ack, h_ack⟩, h_returns⟩ :=
      hi.waiting before force deadline mark h
    refine ⟨?_, h_mode, fun h_f => List.mem_append_left _ (h_force h_f), ?_,
      ⟨ack, List.mem_append_left _ h_ack⟩, fun a => ?_⟩
    · rwa [List.take_append_of_le_length h_le]
    · rw [List.length_append]
      exact Nat.le_add_right_of_le h_le
    · rw [returns_snoc, List.drop_append_of_le_length h_le, List.mem_append, h_returns]
      refine or_congr_right ⟨?_, fun h_a => ?_⟩
      · rintro ⟨-, _, _, h_l, -⟩
        obtain ⟨rfl, -⟩ := UpdateLabel.register.inj h_l
        exact List.mem_cons_self
      · obtain rfl := List.mem_singleton.mp h_a
        exact ⟨⟨ack, h_ack⟩, now, active, rfl, rfl⟩

/-- The task starts. -/
theorem run (hi : UpdateInv tr s) {force : Bool} (h_idle : s.task = .idle) :
    UpdateInv (tr ++ [(.run force, (s.start expected target force).2)])
      (s.start expected target force).1 := by
  have h_fail : ∀ error, UpdateInv (tr ++ [(.run force, (s.fail error).2)]) (s.fail error).1 :=
    fun error => hi.quiet (hi.connections.congr (fun _ => rfl) rfl rfl) rfl (.inr rfl)
      (by rintro _ _ ⟨⟩) (by rintro ⟨⟩)
  unfold UpdateState.start
  split
  · exact h_fail _
  next agent h_get =>
  dsimp only
  split
  · exact h_fail _
  split
  · exact h_fail _
  next h_mode =>
  split
  · exact h_fail _
  exact {
    connections := hi.connections.congr (fun _ => rfl) rfl rfl
    early := by
      intro _ ack h_mem
      obtain h_mem | h_mem := List.mem_append.mp h_mem
      · exact hi.early (.inl h_idle) ack h_mem
      · exact nomatch (Prod.mk.inj (List.mem_singleton.mp h_mem)).2
    updating := by
      intro a f h
      obtain ⟨rfl, rfl⟩ := UpdateTask.updating.inj h
      refine ⟨(hi.connections.order target).subset (mem_listOf_of_get h_get).1,
        not_not.mp h_mode, ?_⟩
      rintro rfl
      exact List.mem_append_right _ List.mem_cons_self
    waiting := (by rintro before f deadline mark ⟨⟩) }

/-- The agent acknowledges: every connection so far is an old one. -/
theorem acknowledged (hi : UpdateInv tr s) {agent : HostAgent} {force : Bool} {now deadline : ℕ}
    (h_task : s.task = .updating agent force) :
    UpdateInv (tr ++ [(.answered true now, .acknowledged)])
      { s with task := .waiting agent force deadline s.registered.length } where
  connections := hi.connections.congr (fun _ => rfl) rfl rfl
  early h := by obtain h | ⟨_, _, h⟩ := h <;> cases h
  updating a f h := nomatch h
  waiting before f d mark h := by
    obtain ⟨rfl, rfl, rfl, rfl⟩ := UpdateTask.waiting.inj h
    obtain ⟨h_mem, h_mode, h_force⟩ := hi.updating _ _ h_task
    refine ⟨?_, h_mode, fun h_f => List.mem_append_left _ (h_force h_f), Nat.le_refl _,
      ⟨.answered true now, List.mem_append_right _ List.mem_cons_self⟩, fun a => ?_⟩
    · rwa [List.take_length]
    · rw [returns_snoc, List.drop_length]
      refine iff_of_false ?_ List.not_mem_nil
      rintro (⟨pre, post, ack, rfl, -⟩ | ⟨-, _, _, h_l, -⟩)
      · refine hi.early (.inr ⟨_, _, h_task⟩) ack ?_
        exact List.mem_append_right _ List.mem_cons_self
      · cases h_l

/-- **Every step** keeps the invariant. -/
theorem step (hi : UpdateInv tr s) (hs : s.step expected target l = some (s', o)) :
    UpdateInv (tr ++ [(l, o)]) s' := by
  have h_same : ∀ s₁ : UpdateState, s₁.fleet = s.fleet → s₁.registered = s.registered →
      ConnectionsInv s₁ := fun s₁ h_fleet h_registered =>
    hi.connections.congr (fun id => by rw [h_fleet]) (by rw [h_fleet]) h_registered
  cases l with
  | register agent now =>
    rw [UpdateState.step] at hs
    split at hs
    case isTrue => cases hs
    case isFalse h_new =>
      obtain ⟨rfl, rfl⟩ := Prod.mk.inj (Option.some.inj hs)
      exact hi.register h_new
  | close agent now =>
    rw [UpdateState.step] at hs
    split at hs
    case isFalse => cases hs
    case isTrue h_live =>
      obtain ⟨rfl, rfl⟩ := Prod.mk.inj (Option.some.inj hs)
      exact hi.quiet (hi.connections.close now h_live) rfl (.inl rfl) (by rintro _ _ ⟨⟩)
        (by rintro ⟨⟩)
  | remove serverId =>
    rw [UpdateState.step] at hs
    split at hs
    · obtain ⟨rfl, rfl⟩ := Prod.mk.inj (Option.some.inj hs)
      exact hi.quiet hi.connections rfl (.inl rfl) (by rintro _ _ ⟨⟩) (by rintro ⟨⟩)
    · next fleet h_remove =>
      obtain ⟨rfl, rfl⟩ := Prod.mk.inj (Option.some.inj hs)
      unfold Fleet.remove at h_remove
      split at h_remove
      · cases h_remove
      split at h_remove
      · cases h_remove
      obtain rfl := Except.ok.inj h_remove
      exact hi.quiet (hi.connections.congr (fun _ => rfl) rfl rfl) rfl (.inl rfl)
        (by rintro _ _ ⟨⟩) (by rintro ⟨⟩)
  | run force =>
    rw [UpdateState.step] at hs
    split at hs
    case h_2 => cases hs
    next h_idle =>
    have h_out : (s.start expected target force).2 = o := congrArg Prod.snd (Option.some.inj hs)
    have h_state : (s.start expected target force).1 = s' := congrArg Prod.fst (Option.some.inj hs)
    rw [← h_out, ← h_state]
    exact hi.run h_idle
  | answered ok now =>
    rw [UpdateState.step] at hs
    split at hs
    case h_2 => cases hs
    next agent force h_task =>
    split at hs
    · dsimp only [UpdateState.again] at hs
      split at hs
      · split at hs
        · obtain ⟨rfl, rfl⟩ := Prod.mk.inj (Option.some.inj hs)
          exact hi.quiet (h_same _ rfl rfl) rfl (.inr rfl) (by rintro _ _ ⟨⟩)
            (by rintro ⟨⟩)
        · next h_ok _ _ =>
          obtain ⟨rfl, rfl⟩ := Prod.mk.inj (Option.some.inj hs)
          rw [h_ok]
          exact hi.acknowledged h_task
      · obtain ⟨rfl, rfl⟩ := Prod.mk.inj (Option.some.inj hs)
        exact hi.quiet (h_same _ rfl rfl) rfl (.inr rfl) (by rintro _ _ ⟨⟩)
          (by rintro ⟨⟩)
    · obtain ⟨rfl, rfl⟩ := Prod.mk.inj (Option.some.inj hs)
      exact hi.quiet (h_same _ rfl rfl) rfl (.inr rfl) (by rintro _ _ ⟨⟩)
        (by rintro ⟨⟩)
  | abort =>
    obtain ⟨rfl, rfl⟩ := Prod.mk.inj (Option.some.inj hs)
    exact hi.quiet (h_same _ rfl rfl) rfl (.inl rfl) (by rintro _ _ ⟨⟩) (by rintro ⟨⟩)
  | poll now =>
    rw [UpdateState.step] at hs
    split at hs
    case h_2 => cases hs
    next before force deadline mark h_task =>
    obtain ⟨h_next, h_fleet, h_registered, h_out⟩ :=
      s.wake_task expected target before force deadline mark now
    rw [Option.some.inj hs] at h_next h_fleet h_registered h_out
    refine hi.quiet (h_same _ h_fleet h_registered) h_registered ?_ (by rintro _ _ ⟨⟩) h_out
    exact h_next.symm.imp_left fun h => h.trans h_task.symm

end UpdateInv

theorem updateInv_run {ok : UpdateState → UpdateLabel → Prop}
    (h : (updateMachine start expected target).RunWhen ok tr s) : UpdateInv tr s := by
  refine h.history (P := UpdateInv) ?_ fun _ _ _ _ _ _ hi _ hs => hi.step hs
  exact {
    connections := .init start expected target
    early := (by rintro _ _ ⟨⟩)
    updating := (by rintro _ _ ⟨⟩)
    waiting := (by rintro _ _ _ _ ⟨⟩) }

/-- What one poll concludes. -/
theorem poll_honest (hi : UpdateInv tr s) (h_run : (updateMachine start expected target).Run tr s)
    {now : ℕ} (h_ok : PollsReconnect target s (.poll now))
    (hs : s.step expected target (.poll now) = some (s', o)) :
    (o = .succeeded → ∃ a, Reconnects target tr a ∧
      (a.info.bind SystemInfo.agentVersion = some expected ∨
        (UpdateLabel.run true, UpdateOut.pushed true) ∈ tr)) ∧
    (∀ version, o = .failed (.reconnectedOn version) → ∃ a, Reconnects target tr a ∧
      a.info.bind SystemInfo.agentVersion = version ∧ version ≠ some expected) ∧
    (o = .failed .timedOut → ∃ m, (updateMachine start expected target).Run tr m ∧
      ∀ a ∈ m.fleet.listOf target, ¬Reconnects target tr a) := by
  rw [UpdateState.step] at hs
  split at hs
  case h_2 => cases hs
  next before force deadline mark h_task =>
  obtain ⟨h_before, h_old, h_force, -, -, h_returns⟩ := hi.waiting _ _ _ _ h_task
  have h_found : ∀ a ∈ s.reconnected target before,
      InstalledAgent target a ∧ a ∈ s.registered.drop mark := by
    simpa only [PollsReconnect, h_task] using h_ok
  have h_back : ∀ a, s.reconnected target before = some a → Reconnects target tr a :=
    fun a h => ⟨(h_found a h).1, (h_returns a).mpr (h_found a h).2⟩
  have h_out : (s.wake expected target before force deadline mark now).2 = o :=
    congrArg Prod.snd (Option.some.inj hs)
  refine ⟨?_, ?_, ?_⟩
  · intro h
    obtain ⟨a, h_a, h_version⟩ := UpdateState.wake_succeeded (h_out.trans h)
    refine ⟨a, h_back a h_a, ?_⟩
    obtain h_f | h_v := h_version
    · exact .inr (h_force h_f)
    · exact .inl h_v
  · intro version h
    obtain ⟨a, h_a, h_version⟩ := UpdateState.wake_mismatch (h_out.trans h)
    exact ⟨a, h_back a h_a, h_version⟩
  · intro h
    have h_none := UpdateState.wake_timedOut (h_out.trans h)
    refine ⟨s, h_run, ?_⟩
    rintro a h_a ⟨h_installed, h_ret⟩
    exact reconnected_ne_none hi.connections h_before h_old h_a h_installed.2
      ((h_returns a).mp h_ret) h_none

/-- **The task is honest** in every run in which each connection that a poll takes to be the
reconnect is one of the installed agent that came after the acknowledgement. -/
theorem update_honest (start : FleetStart) (expected target : String)
    (tr : List (UpdateLabel × UpdateOut)) (s : UpdateState)
    (h : (updateMachine start expected target).RunWhen (PollsReconnect target) tr s) :
    UpdateHonest start expected target tr := by
  refine h.history (P := fun tr _ => UpdateHonest start expected target tr) ?_ ?_
  · exact {
      succeeded := fun _ _ _ h => absurd h (by simp)
      mismatch := fun _ _ _ _ h => absurd h (by simp)
      timedOut := fun _ _ _ h => absurd h (by simp) }
  intro tr s l s' o h_run ih h_ok hs
  have hi := updateInv_run h_run
  constructor
  case succeeded =>
    intro pre post now h
    obtain ⟨rfl, h_eq, -⟩ | ⟨post', h_tr, -⟩ := Machine.snoc_split h
    · obtain ⟨rfl, rfl⟩ := Prod.mk.inj h_eq
      exact (poll_honest hi h_run.run h_ok hs).1 rfl
    · exact ih.succeeded pre post' now h_tr
  case mismatch =>
    intro pre post now version h
    obtain ⟨rfl, h_eq, -⟩ | ⟨post', h_tr, -⟩ := Machine.snoc_split h
    · obtain ⟨rfl, rfl⟩ := Prod.mk.inj h_eq
      exact (poll_honest hi h_run.run h_ok hs).2.1 version rfl
    · exact ih.mismatch pre post' now version h_tr
  case timedOut =>
    intro pre post now h
    obtain ⟨rfl, h_eq, -⟩ | ⟨post', h_tr, -⟩ := Machine.snoc_split h
    · obtain ⟨rfl, rfl⟩ := Prod.mk.inj h_eq
      exact (poll_honest hi h_run.run h_ok hs).2.2 rfl
    · exact ih.timedOut pre post' now h_tr

/-! ### A promoted standby -/

def agentOf (conn : ℕ) (mode version : String) : HostAgent :=
  ⟨conn, "m", "host", some ⟨some version, none⟩, mode, none⟩

/-- **A standby is taken for the updated agent**: an older live connection of the expected
version is promoted when the installed agent goes away, and the task succeeds. -/
theorem promoted_standby : ¬∀ (start : FleetStart) (expected target : String)
    (tr : List (UpdateLabel × UpdateOut)) (s : UpdateState),
      (updateMachine start expected target).Run tr s → UpdateHonest start expected target tr := by
  intro h_all
  obtain ⟨tr, s, h_exec, h_read⟩ := (updateMachine .constructed "2" "m").exec_reads
    (updateMachine .constructed "2" "m").init
    [.register (agentOf 0 "live" "2") 0, .register (agentOf 1 "installed" "1") 1, .run false,
      .answered true 2, .close (agentOf 1 "installed" "1") 3]
    (fun s => (s.task, s.registered.drop 2, (s.step "2" "m" (.poll 4)).map Prod.snd))
    (.waiting (agentOf 1 "installed" "1") false 300002 2, [], some .succeeded) (by decide)
  obtain ⟨h_task, h_read⟩ := Prod.mk.inj h_read
  obtain ⟨h_drop, h_poll⟩ := Prod.mk.inj h_read
  obtain ⟨⟨s', o⟩, hs, h_out⟩ := Option.map_eq_some_iff.mp h_poll
  obtain rfl : o = .succeeded := h_out
  have h_run := Machine.run_of_exec _ h_exec
  have h_step : (updateMachine .constructed "2" "m").step s (.poll 4) = some (s', .succeeded) := hs
  have h_honest := h_all _ _ _ _ s' (h_run.step trivial h_step)
  obtain ⟨a, ⟨-, h_ret⟩, -⟩ := h_honest.succeeded tr [] 4 rfl
  -- nothing was registered after the acknowledgement
  obtain ⟨-, -, -, -, -, h_returns⟩ := (updateInv_run h_run).waiting _ _ _ _ h_task
  have h_mem := (h_returns a).mp h_ret
  rw [h_drop] at h_mem
  exact absurd h_mem List.not_mem_nil

theorem update_honest_sample : ∃ tr s,
    (updateMachine .constructed "2" "m").RunWhen (PollsReconnect "m") tr s ∧
      UpdateHonest .constructed "2" "m" tr ∧ tr.getLast? = some (.poll 2005, .succeeded) := by
  obtain ⟨tr, s, h_exec, -⟩ := (updateMachine .constructed "2" "m").exec_reads
    (updateMachine .constructed "2" "m").init
    [.register (agentOf 0 "installed" "1") 0, .run false, .answered true 2,
      .close (agentOf 0 "installed" "1") 3, .poll 2003, .register (agentOf 1 "installed" "2") 2004,
      .poll 2005]
    (fun s => s.task) .ended (by decide)
  have h_run : (updateMachine .constructed "2" "m").RunWhen (PollsReconnect "m") tr s :=
    Machine.runWhen_of_exec _ h_exec (by decide)
  obtain ⟨h_trace, -⟩ := Prod.mk.inj (Option.some.inj h_exec)
  refine ⟨tr, s, h_run, update_honest _ _ _ tr s h_run, ?_⟩
  rw [← h_trace]
  decide

end ServerCentral.Agent
