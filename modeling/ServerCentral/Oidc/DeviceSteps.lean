import ServerCentral.Oidc.Device

/-!
# The steps of the device-code store

What one call can do to the records, as one inversion lemma (`DeviceState.step_shape`): a
call only drops records, opens a fresh one, answers a pending one, notes the time
of a poll, or collects an approved record. Both the typo guarantee and the
protocol guarantees are derived from the shapes.
-/

open Framework

namespace ServerCentral.Oidc

namespace DeviceCodeStore

theorem get?_prune {s : DeviceCodeStore} {now : ℕ} {k : String} {r : DeviceRequestRecord} :
    (s.prune now).requests.get? k = some r ↔ s.requests.get? k = some r ∧ now ≤ r.expiresAt := by
  simp [prune, Table.get?_filter]

theorem mem_pending {s : DeviceCodeStore} {r : DeviceRequestRecord} :
    r ∈ s.pending ↔ (∃ k, s.requests.get? k = some r) ∧ r.status = .pending := by
  simp [pending, Table.get?_of_mem_values]

/-- **The answers of `request`.** It fails and only prunes, or it stores one new
pending record below both caps, with a code far enough from the pending ones. -/
theorem request_cases (s : DeviceCodeStore) (params : DeviceParams) (deviceCode : String)
    (draws : ℕ → Fin userCodeLength → Fin 20) (prunedAt now : ℕ) :
    (∃ message, s.request params deviceCode draws prunedAt now =
        (s.prune prunedAt, .error message)) ∨
      ∃ rec, s.request params deviceCode draws prunedAt now =
          (⟨(s.prune prunedAt).requests.set deviceCode rec⟩, .ok rec) ∧
        rec.deviceCode = deviceCode ∧ rec.clientId = params.clientId ∧ rec.ip = params.ip ∧
        rec.createdAt = now ∧ rec.expiresAt = now + deviceTtlMs ∧ rec.lastPolledAt = now ∧
        rec.status = .pending ∧
        generateUserCode (s.prune prunedAt).pending draws = some rec.userCode ∧
        (s.prune prunedAt).pending.length < maxPending ∧
        (params.ip ≠ none → ((s.prune prunedAt).pending.filter fun r =>
          decide (r.ip = params.ip)).length < maxPendingPerIp) := by
  by_cases h_cap : (s.prune prunedAt).pending.length ≥ maxPending
  · exact .inl ⟨_, by simp only [request]; rw [if_pos h_cap]⟩
  · by_cases h_ip : params.ip ≠ none ∧ ((s.prune prunedAt).pending.filter fun r =>
        decide (r.ip = params.ip)).length ≥ maxPendingPerIp
    · exact .inl ⟨_, by simp only [request]; rw [if_neg h_cap, if_pos h_ip]⟩
    · cases h_code : generateUserCode (s.prune prunedAt).pending draws with
      | none =>
        exact .inl ⟨_, by simp only [request]; rw [if_neg h_cap, if_neg h_ip, h_code]⟩
      | some userCode =>
        refine .inr ⟨_, by simp only [request]; rw [if_neg h_cap, if_neg h_ip, h_code], rfl, rfl,
          rfl, rfl, rfl, rfl, rfl, rfl, Nat.not_le.mp h_cap, fun h_some => ?_⟩
        exact Nat.not_le.mp fun h_full => h_ip ⟨h_some, h_full⟩

/-- What a typed code resolves to is stored, pending, and has that code. -/
theorem pendingEntry_eq_some {s : DeviceCodeStore} {input : List Char} {k : String}
    {r : DeviceRequestRecord} (h : s.pendingEntry input = some (k, r)) :
    s.requests.get? k = some r ∧ r.userCode = normalizeUserCode input ∧ r.status = .pending ∧
      (normalizeUserCode input).length = userCodeLength := by
  simp only [pendingEntry] at h
  split at h
  · exact absurd h (by simp)
  · next h_len =>
    have h_mem := List.mem_of_find?_eq_some h
    have h_sat := List.find?_some h
    simp only [Bool.and_eq_true, decide_eq_true_eq] at h_sat
    exact ⟨Table.get?_eq_some_iff.mpr h_mem, h_sat.1, h_sat.2, not_not.mp h_len⟩

/-- **The answers of `poll`.** The call is not the opener's and changes nothing, it
drops its record and fails, it fails and notes the time, or it collects. -/
theorem poll_cases (s : DeviceCodeStore) (d c : String) (t₁ t₂ t₃ : ℕ) :
    (s.poll d c t₁ t₂ t₃ = (s, .error .invalidGrant) ∧
        ∀ rec, s.requests.get? d = some rec → rec.clientId ≠ c) ∨
      (∃ error, s.poll d c t₁ t₂ t₃ = (⟨s.requests.erase d⟩, .error error)) ∨
      (∃ rec error, s.requests.get? d = some rec ∧ s.poll d c t₁ t₂ t₃ =
        (⟨s.requests.modify d fun rec => { rec with lastPolledAt := t₂ }⟩, .error error)) ∨
      ∃ rec userId approvedAt, s.requests.get? d = some rec ∧ rec.clientId = c ∧
        t₁ ≤ rec.expiresAt ∧ rec.status = .approved ∧ rec.userId = some userId ∧
        rec.approvedAt = some approvedAt ∧
        pollIntervalS * 1000 - pollGraceMs ≤ t₃ - rec.lastPolledAt ∧
        s.poll d c t₁ t₂ t₃ = (⟨s.requests.erase d⟩,
          .ok ⟨{ rec with lastPolledAt := t₂ }, userId, approvedAt⟩) := by
  cases h_get : s.requests.get? d with
  | none => exact .inl ⟨by simp only [poll, h_get], by simp⟩
  | some rec =>
    by_cases h_client : rec.clientId ≠ c
    · refine .inl ⟨by simp only [poll, h_get, if_pos h_client], ?_⟩
      rintro _ ⟨⟩
      exact h_client
    by_cases h_exp : rec.expiresAt < t₁
    · exact .inr (.inl ⟨_, by simp only [poll, h_get]; rw [if_neg h_client, if_pos h_exp]⟩)
    cases h_status : rec.status with
    | denied =>
      exact .inr (.inl ⟨.accessDenied, by simp [poll, h_get, h_client, h_exp, h_status]⟩)
    | pending =>
      refine .inr (.inr (.inl ⟨rec, ?_⟩))
      by_cases h_slow : t₃ - rec.lastPolledAt < pollIntervalS * 1000 - pollGraceMs
      · exact ⟨.slowDown, rfl, by simp [poll, h_get, h_client, h_exp, h_status, h_slow]⟩
      · exact ⟨.authorizationPending, rfl,
          by simp [poll, h_get, h_client, h_exp, h_status, h_slow]⟩
    | approved =>
      by_cases h_slow : t₃ - rec.lastPolledAt < pollIntervalS * 1000 - pollGraceMs
      · exact .inr (.inr (.inl ⟨rec, .slowDown, rfl,
          by simp [poll, h_get, h_client, h_exp, h_status, h_slow]⟩))
      cases h_user : rec.userId with
      | none =>
        exact .inr (.inr (.inl ⟨rec, .invalidGrant, rfl,
          by simp [poll, h_get, h_client, h_exp, h_status, h_slow, h_user]⟩))
      | some userId =>
        cases h_at : rec.approvedAt with
        | none =>
          exact .inr (.inr (.inl ⟨rec, .invalidGrant, rfl,
            by simp [poll, h_get, h_client, h_exp, h_status, h_slow, h_user, h_at]⟩))
        | some approvedAt =>
          exact .inr (.inr (.inr ⟨rec, userId, approvedAt, rfl, not_not.mp h_client,
            Nat.not_lt.mp h_exp, h_status, h_user, h_at, Nat.not_lt.mp h_slow,
            by simp [poll, h_get, h_client, h_exp, h_status, h_slow, h_user, h_at]⟩))

end DeviceCodeStore

/-- What one call does to the records of the store. -/
inductive DeviceShape (s s' : DeviceState) : DeviceOp × DeviceEvent → Prop
  /-- Records only get dropped, and the call neither opened, answered nor collected
  one. A poll that leaves its record untouched was not the opener's. -/
  | drops {op : DeviceOp} {e : DeviceEvent}
      (h_rows : ∀ k r, s'.store.requests.get? k = some r → s.store.requests.get? k = some r)
      (h_open : ∀ rec, e ≠ .requested (.ok rec)) (h_answer : ∀ rec, e ≠ .resolved (some rec))
      (h_collect : ∀ r, e ≠ .polled (.ok r))
      (h_poll : ∀ d c t₁ t₂ t₃ r, op = .poll d c t₁ t₂ t₃ →
        s'.store.requests.get? d = some r → r.clientId ≠ c)
      (h_count : ∀ q : DeviceRequestRecord → Bool,
        s'.store.requests.values.countP q ≤ s.store.requests.values.countP q) :
      DeviceShape s s' (op, e)
  /-- A fresh pending record. -/
  | opens (params : DeviceParams) (draws : ℕ → Fin userCodeLength → Fin 20)
      (prunedAt : ℕ) (rec : DeviceRequestRecord)
      (h_fresh : rec.deviceCode ∉ s.minted) (h_mint : rec.deviceCode ∈ s'.minted)
      (h_clock : s.clock ≤ rec.createdAt ∧ rec.createdAt = s'.clock)
      (h_client : rec.clientId = params.clientId) (h_ip : rec.ip = params.ip)
      (h_exp : rec.expiresAt = rec.createdAt + deviceTtlMs)
      (h_polled : rec.lastPolledAt = rec.createdAt) (h_status : rec.status = .pending)
      (h_code : generateUserCode (s.store.prune prunedAt).pending draws = some rec.userCode)
      (h_cap : (s.store.prune prunedAt).pending.length < maxPending)
      (h_cap_ip : params.ip ≠ none → ((s.store.prune prunedAt).pending.filter fun r =>
        decide (r.ip = params.ip)).length < maxPendingPerIp)
      (h_store : s'.store = ⟨(s.store.prune prunedAt).requests.set rec.deviceCode rec⟩) :
      DeviceShape s s' (.request params rec.deviceCode draws prunedAt rec.createdAt,
        .requested (.ok rec))
  /-- A pending, unexpired record gets its answer. -/
  | answers (input : List Char) (outcome : DeviceOutcome) (userId : String)
      (prunedAt approvedAt : ℕ) (d : String) (rec : DeviceRequestRecord)
      (h_get : s.store.requests.get? d = some rec) (h_live : prunedAt ≤ rec.expiresAt)
      (h_status : rec.status = .pending) (h_code : rec.userCode = normalizeUserCode input)
      (h_store : s'.store = ⟨(s.store.prune prunedAt).requests.modify d
        (DeviceCodeStore.answer outcome userId approvedAt)⟩) :
      DeviceShape s s' (.resolve input outcome userId prunedAt approvedAt,
        .resolved (some (DeviceCodeStore.answer outcome userId approvedAt rec)))
  /-- The opener polled; the record keeps everything but the time of the poll. -/
  | touches (d c : String) (t₁ t₂ t₃ : ℕ) (rec : DeviceRequestRecord) (error : DevicePollError)
      (h_get : s.store.requests.get? d = some rec) (h_clock : s.clock ≤ t₂ ∧ t₂ ≤ s'.clock)
      (h_store : s'.store = ⟨s.store.requests.modify d fun rec =>
        { rec with lastPolledAt := t₂ }⟩) :
      DeviceShape s s' (.poll d c t₁ t₂ t₃, .polled (.error error))
  /-- The opener collects an approved, unexpired record. -/
  | collects (d c : String) (t₁ t₂ t₃ : ℕ) (rec : DeviceRequestRecord)
      (userId : String) (approvedAt : ℕ)
      (h_get : s.store.requests.get? d = some rec) (h_client : rec.clientId = c)
      (h_live : t₁ ≤ rec.expiresAt) (h_status : rec.status = .approved)
      (h_user : rec.userId = some userId) (h_at : rec.approvedAt = some approvedAt)
      (h_slow : pollIntervalS * 1000 - pollGraceMs ≤ t₃ - rec.lastPolledAt)
      (h_gone : s'.store.requests.get? d = none)
      (h_rows : ∀ k r, s'.store.requests.get? k = some r → s.store.requests.get? k = some r)
      (h_count : ∀ q : DeviceRequestRecord → Bool,
        s'.store.requests.values.countP q ≤ s.store.requests.values.countP q) :
      DeviceShape s s' (.poll d c t₁ t₂ t₃,
        .polled (.ok ⟨{ rec with lastPolledAt := t₂ }, userId, approvedAt⟩))

/-- **Step inversion.** The clock and the minted codes only grow, and the records
change in one of the five shapes. -/
theorem DeviceState.step_shape {s s' : DeviceState} {op : DeviceOp} {e : DeviceEvent}
    (h : deviceMachine.step s op = some (s', e)) :
    s.clock ≤ s'.clock ∧ s.minted ⊆ s'.minted ∧ (∀ t ∈ op.readings, t ≤ s'.clock) ∧
      DeviceShape s s' (op, e) := by
  simp only [deviceMachine, DeviceState.step] at h
  split at h
  case isFalse => exact absurd h (by simp)
  case isTrue h_fresh =>
  obtain ⟨rfl, rfl⟩ := Prod.mk.inj (Option.some.inj h)
  obtain ⟨h_clock, h_fresh⟩ := h_fresh
  cases op with
  | request params deviceCode draws prunedAt now =>
    simp only [DeviceOp.readings, List.pairwise_cons, List.mem_cons, forall_eq_or_imp,
      List.not_mem_nil, false_imp_iff, implies_true, and_true] at h_clock
    refine ⟨by simp [DeviceOp.readings]; omega, List.subset_cons_self _ _,
      by simp [DeviceOp.readings]; omega, ?_⟩
    rcases s.store.request_cases params deviceCode draws prunedAt now with
      ⟨message, h_eq⟩ | ⟨rec, h_eq, rfl, h_client, h_ip, rfl, h_exp, h_polled, h_status, h_code,
        h_cap, h_cap_ip⟩
    · refine .drops (fun k r h => ?_) ?_ ?_ ?_ ?_ fun q => ?_
      · simp only [DeviceState.call, h_eq] at h
        exact (DeviceCodeStore.get?_prune.mp h).1
      · simp [DeviceState.call, h_eq]
      · simp [DeviceState.call]
      · simp [DeviceState.call]
      · exact fun _ _ _ _ _ _ h_op => absurd h_op (by simp)
      · simp only [DeviceState.call, h_eq]
        exact Table.countP_filter_le _ _ q
    · simp only [DeviceState.call, h_eq]
      exact .opens params draws prunedAt rec h_fresh List.mem_cons_self
        ⟨by omega, by simp [DeviceOp.readings]⟩ h_client h_ip h_exp h_polled h_status h_code h_cap
        h_cap_ip rfl
  | findPending input now =>
    refine ⟨by simpa [DeviceOp.readings] using h_clock, List.Subset.refl _,
      by simp [DeviceOp.readings], .drops (fun k r h => (DeviceCodeStore.get?_prune.mp h).1) ?_ ?_ ?_
        ?_ fun q => Table.countP_filter_le _ _ q⟩
    · simp [DeviceState.call]
    · simp [DeviceState.call]
    · simp [DeviceState.call]
    · exact fun _ _ _ _ _ _ h_op => absurd h_op (by simp)
  | resolve input outcome userId prunedAt approvedAt =>
    simp only [DeviceOp.readings, List.pairwise_cons, List.mem_cons, forall_eq_or_imp,
      List.not_mem_nil, false_imp_iff, implies_true, and_true] at h_clock
    refine ⟨by simp [DeviceOp.readings]; omega, List.Subset.refl _,
      by simp [DeviceOp.readings]; omega, ?_⟩
    cases h_entry : (s.store.prune prunedAt).pendingEntry input with
    | none =>
      have h_eq : s.store.resolve input outcome userId prunedAt approvedAt =
          (s.store.prune prunedAt, none) := by simp [DeviceCodeStore.resolve, h_entry]
      simp only [DeviceState.call, h_eq]
      refine .drops (fun k r h => (DeviceCodeStore.get?_prune.mp h).1) ?_ ?_ ?_ ?_
        fun q => Table.countP_filter_le _ _ q
      · simp
      · simp
      · simp
      · exact fun _ _ _ _ _ _ h_op => absurd h_op (by simp)
    | some entry =>
      obtain ⟨k, rec⟩ := entry
      have h_eq : s.store.resolve input outcome userId prunedAt approvedAt =
          (⟨(s.store.prune prunedAt).requests.modify k
              (DeviceCodeStore.answer outcome userId approvedAt)⟩,
            some (DeviceCodeStore.answer outcome userId approvedAt rec)) := by
        simp [DeviceCodeStore.resolve, h_entry]
      obtain ⟨h_get, h_code, h_status, -⟩ := DeviceCodeStore.pendingEntry_eq_some h_entry
      obtain ⟨h_get, h_live⟩ := DeviceCodeStore.get?_prune.mp h_get
      simp only [DeviceState.call, h_eq]
      exact .answers input outcome userId prunedAt approvedAt k rec h_get h_live h_status h_code rfl
  | poll d c t₁ t₂ t₃ =>
    simp only [DeviceOp.readings, List.pairwise_cons, List.mem_cons, forall_eq_or_imp,
      List.not_mem_nil, false_imp_iff, implies_true, and_true] at h_clock
    refine ⟨by simp [DeviceOp.readings]; omega, List.Subset.refl _,
      by simp [DeviceOp.readings]; omega, ?_⟩
    rcases s.store.poll_cases d c t₁ t₂ t₃ with ⟨h_eq, h_other⟩ | ⟨error, h_eq⟩ |
      ⟨rec, error, h_get, h_eq⟩ | ⟨rec, userId, approvedAt, h_get, h_client, h_live, h_status,
        h_user, h_at, h_slow, h_eq⟩
    · refine .drops (fun k r h => ?_) ?_ ?_ ?_ ?_ fun q => ?_
      · simpa [DeviceState.call, h_eq] using h
      · simp [DeviceState.call]
      · simp [DeviceState.call]
      · simp [DeviceState.call, h_eq]
      · rintro _ _ _ _ _ r ⟨⟩ h_row
        exact h_other r (by simpa [DeviceState.call, h_eq] using h_row)
      · simp [DeviceState.call, h_eq]
    · refine .drops (fun k r h => ?_) ?_ ?_ ?_ ?_ fun q => ?_
      · simp only [DeviceState.call, h_eq] at h
        exact (Table.get?_erase.mp h).1
      · simp [DeviceState.call]
      · simp [DeviceState.call]
      · simp [DeviceState.call, h_eq]
      · rintro _ _ _ _ _ r ⟨⟩ h_row
        simp [DeviceState.call, h_eq] at h_row
      · simp only [DeviceState.call, h_eq]
        exact Table.countP_erase_le _ _ q
    · simp only [DeviceState.call, h_eq]
      exact .touches d c t₁ t₂ t₃ rec error h_get
        ⟨by omega, by simp [DeviceOp.readings]; omega⟩ rfl
    · simp only [DeviceState.call, h_eq]
      refine .collects d c t₁ t₂ t₃ rec userId approvedAt h_get h_client h_live h_status h_user
        h_at h_slow (by simp) (fun k r h => (Table.get?_erase.mp h).1) fun q => ?_
      exact Table.countP_erase_le _ _ q

end ServerCentral.Oidc
