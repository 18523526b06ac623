import Mathlib.Data.Nat.Basic
import Mathlib.Order.Basic
import ServerCentral.Oidc.DeviceSteps

/-!
# The device grant protocol

The whole-run guarantees of `DeviceCodeStore`, assembled in `device_grant_safe`: what
a successful poll may rely on, that a request is answered once, and the two caps on
the pending set.

The store keeps no history, so the guarantees are read off a history invariant
(`DeviceHistory`): every stored record agrees with the part of the trace that is
about its device code (`RecordHistory`). A record that is gone never comes back,
because a device code is drawn once (`DeviceHistory.seen`).
-/

open Framework

namespace ServerCentral.Oidc

/-! ### What a trace entry says about a device code -/

/-- The device code a call answered, and how. -/
def answeredBy : DeviceOp × DeviceEvent → Option (String × DeviceOutcome)
  | (.resolve _ outcome _ _ _, .resolved (some rec)) => some (rec.deviceCode, outcome)
  | _ => none

/-- The device code whose grant a call collected. -/
def collectedBy : DeviceOp × DeviceEvent → Option String
  | (.poll d _ _ _ _, .polled (.ok _)) => some d
  | _ => none

/-- `d` was opened for the client `c` at the time `createdAt`. -/
def OpenedBy (tr : List (DeviceOp × DeviceEvent)) (d c : String) (createdAt : ℕ) : Prop :=
  ∃ params draws prunedAt rec, params.clientId = c ∧
    (.request params d draws prunedAt createdAt, .requested (.ok rec)) ∈ tr

/-- `d` was approved by `userId` at `approvedAt`: a `resolve` with the outcome
`approved` whose input reads as `d`'s own user code, at a moment when `d` was pending
and not expired. -/
def ApprovedBy (tr : List (DeviceOp × DeviceEvent)) (d userId : String) (approvedAt : ℕ) : Prop :=
  ∃ pre post input prunedAt answered m rec,
    tr = pre ++ (.resolve input .approved userId prunedAt approvedAt,
      .resolved (some answered)) :: post ∧ answered.deviceCode = d ∧
    deviceMachine.Run pre m ∧ m.store.requests.get? d = some rec ∧ rec.status = .pending ∧
    prunedAt ≤ rec.expiresAt ∧ normalizeUserCode input = rec.userCode

theorem OpenedBy.append {tr : List (DeviceOp × DeviceEvent)} {d c : String} {createdAt : ℕ}
    (h : OpenedBy tr d c createdAt) (x : DeviceOp × DeviceEvent) :
    OpenedBy (tr ++ [x]) d c createdAt := by
  obtain ⟨params, draws, prunedAt, rec, h_client, h_mem⟩ := h
  exact ⟨params, draws, prunedAt, rec, h_client, List.mem_append_left _ h_mem⟩

theorem ApprovedBy.append {tr : List (DeviceOp × DeviceEvent)} {d userId : String}
    {approvedAt : ℕ} (h : ApprovedBy tr d userId approvedAt) (x : DeviceOp × DeviceEvent) :
    ApprovedBy (tr ++ [x]) d userId approvedAt := by
  obtain ⟨pre, post, input, prunedAt, answered, m, rec, rfl, h⟩ := h
  exact ⟨pre, post ++ [x], input, prunedAt, answered, m, rec, by simp, h⟩

/-! ### The history of a stored record -/

/-- What the trace says about the device code `k` while `r` is stored under it. -/
structure RecordHistory (tr : List (DeviceOp × DeviceEvent)) (k : String)
    (r : DeviceRequestRecord) : Prop where
  key : r.deviceCode = k
  opened : OpenedBy tr k r.clientId r.createdAt
  expires : r.expiresAt = r.createdAt + deviceTtlMs
  uncollected : ∀ y ∈ tr, collectedBy y ≠ some k
  answered : ∀ y ∈ tr, ∀ outcome, answeredBy y = some (k, outcome) → r.status = outcome.status
  approved : r.status = .approved → ∀ userId approvedAt, r.userId = some userId →
    r.approvedAt = some approvedAt → ApprovedBy tr k userId approvedAt
  created : r.createdAt ≤ r.lastPolledAt
  polled : ∀ t₁ t₂ t₃ e, (.poll k r.clientId t₁ t₂ t₃, e) ∈ tr → t₂ ≤ r.lastPolledAt

/-- A call that is not about `k` leaves the history of its record as it is. -/
theorem RecordHistory.append {tr : List (DeviceOp × DeviceEvent)} {k : String}
    {r : DeviceRequestRecord} (h : RecordHistory tr k r) {x : DeviceOp × DeviceEvent}
    (h_answer : ∀ outcome, answeredBy x ≠ some (k, outcome)) (h_collect : collectedBy x ≠ some k)
    (h_poll : ∀ t₁ t₂ t₃, x.1 ≠ .poll k r.clientId t₁ t₂ t₃) :
    RecordHistory (tr ++ [x]) k r where
  key := h.key
  opened := h.opened.append x
  expires := h.expires
  uncollected y hy := by
    rcases List.mem_append.mp hy with hy | hy
    · exact h.uncollected y hy
    · exact List.mem_singleton.mp hy ▸ h_collect
  answered y hy outcome h_eq := by
    rcases List.mem_append.mp hy with hy | hy
    · exact h.answered y hy outcome h_eq
    · obtain rfl := List.mem_singleton.mp hy
      exact absurd h_eq (h_answer outcome)
  approved h_status userId approvedAt h_user h_at :=
    (h.approved h_status userId approvedAt h_user h_at).append x
  created := h.created
  polled t₁ t₂ t₃ e hy := by
    rcases List.mem_append.mp hy with hy | hy
    · exact h.polled t₁ t₂ t₃ e hy
    · exact absurd (congrArg Prod.fst (List.mem_singleton.mp hy)).symm (h_poll t₁ t₂ t₃)

/-- **The history invariant.** -/
structure DeviceHistory (tr : List (DeviceOp × DeviceEvent)) (s : DeviceState) : Prop where
  rows : ∀ k r, s.store.requests.get? k = some r →
    RecordHistory tr k r ∧ k ∈ s.minted ∧ r.lastPolledAt ≤ s.clock
  seen : ∀ y ∈ tr, ∀ d, collectedBy y = some d ∨ (∃ outcome, answeredBy y = some (d, outcome)) →
    d ∈ s.minted
  polls : ∀ d c t₁ t₂ t₃ e, (.poll d c t₁ t₂ t₃, e) ∈ tr → t₂ ≤ s.clock

theorem DeviceHistory.init : DeviceHistory [] deviceMachine.init where
  rows := by simp [deviceMachine, DeviceState.initial]
  seen := by simp
  polls := by simp

/-- The device code an entry answers or collects is one of a stored record. -/
theorem DeviceShape.seen {tr : List (DeviceOp × DeviceEvent)} {s s' : DeviceState}
    {x : DeviceOp × DeviceEvent} (h : DeviceShape s s' x) (hi : DeviceHistory tr s) {d : String}
    (h_about : collectedBy x = some d ∨ ∃ outcome, answeredBy x = some (d, outcome)) :
    ∃ rec, s.store.requests.get? d = some rec := by
  cases h with
  | @drops op e _ _ h_answer h_collect =>
    rcases h_about with h_about | ⟨outcome, h_about⟩
    · unfold collectedBy at h_about
      split at h_about
      · next h_eq => exact absurd (congrArg Prod.snd h_eq) (h_collect _)
      · exact absurd h_about (by simp)
    · unfold answeredBy at h_about
      split at h_about
      · next h_eq => exact absurd (congrArg Prod.snd h_eq) (h_answer _)
      · exact absurd h_about (by simp)
  | opens => simp [collectedBy, answeredBy] at h_about
  | answers input outcome userId prunedAt approvedAt d' rec h_get =>
    have h_key := (hi.rows d' rec h_get).1.key
    obtain rfl : d' = d := by
      simpa [collectedBy, answeredBy, DeviceCodeStore.answer, h_key] using h_about
    exact ⟨rec, h_get⟩
  | touches => simp [collectedBy, answeredBy] at h_about
  | collects d' c t₁ t₂ t₃ rec userId approvedAt h_get =>
    obtain rfl : d' = d := by simpa [collectedBy, answeredBy] using h_about
    exact ⟨rec, h_get⟩

/-- The record a `request` opens has a history: its device code is new. -/
theorem RecordHistory.opens {tr : List (DeviceOp × DeviceEvent)} {s : DeviceState}
    (hi : DeviceHistory tr s) {params : DeviceParams} {draws : ℕ → Fin userCodeLength → Fin 20}
    {prunedAt : ℕ} {rec : DeviceRequestRecord} (h_fresh : rec.deviceCode ∉ s.minted)
    (h_clock : s.clock ≤ rec.createdAt) (h_client : rec.clientId = params.clientId)
    (h_exp : rec.expiresAt = rec.createdAt + deviceTtlMs)
    (h_polled : rec.lastPolledAt = rec.createdAt) (h_status : rec.status = .pending) :
    RecordHistory (tr ++ [(.request params rec.deviceCode draws prunedAt rec.createdAt,
      .requested (.ok rec))]) rec.deviceCode rec where
  key := rfl
  opened := ⟨params, draws, prunedAt, rec, h_client.symm, by simp⟩
  expires := h_exp
  uncollected y hy h_eq := by
    rcases List.mem_append.mp hy with hy | hy
    · exact h_fresh (hi.seen y hy _ (.inl h_eq))
    · obtain rfl := List.mem_singleton.mp hy
      simp [collectedBy] at h_eq
  answered y hy outcome h_eq := by
    rcases List.mem_append.mp hy with hy | hy
    · exact absurd (hi.seen y hy _ (.inr ⟨outcome, h_eq⟩)) h_fresh
    · obtain rfl := List.mem_singleton.mp hy
      simp [answeredBy] at h_eq
  approved h := by simp [h_status] at h
  created := h_polled.ge
  polled t₁ t₂ t₃ e hy := by
    rcases List.mem_append.mp hy with hy | hy
    · have := hi.polls _ _ _ _ _ _ hy
      omega
    · simp at hy

/-- The record a `resolve` answers: it was not answered before, and an approval is on
record. -/
theorem RecordHistory.answers {tr : List (DeviceOp × DeviceEvent)} {s : DeviceState} {d : String}
    {rec : DeviceRequestRecord} (h_run : deviceMachine.Run tr s) (h : RecordHistory tr d rec)
    (h_get : s.store.requests.get? d = some rec) {input : List Char} {outcome : DeviceOutcome}
    {userId : String} {prunedAt approvedAt : ℕ} (h_live : prunedAt ≤ rec.expiresAt)
    (h_status : rec.status = .pending) (h_code : rec.userCode = normalizeUserCode input) :
    RecordHistory (tr ++ [(.resolve input outcome userId prunedAt approvedAt,
      .resolved (some (DeviceCodeStore.answer outcome userId approvedAt rec)))]) d
      (DeviceCodeStore.answer outcome userId approvedAt rec) where
  key := h.key
  opened := h.opened.append _
  expires := h.expires
  uncollected y hy := by
    rcases List.mem_append.mp hy with hy | hy
    · exact h.uncollected y hy
    · obtain rfl := List.mem_singleton.mp hy
      simp [collectedBy]
  answered y hy o h_eq := by
    rcases List.mem_append.mp hy with hy | hy
    · have h_before := h.answered y hy o h_eq
      rw [h_status] at h_before
      cases o <;> exact absurd h_before (by decide)
    · obtain rfl := List.mem_singleton.mp hy
      simp only [answeredBy, Option.some.injEq, Prod.mk.injEq] at h_eq
      rw [← h_eq.2]
      rfl
  approved h_yes u t h_user h_at := by
    obtain rfl : outcome = .approved := by
      cases outcome with
      | approved => rfl
      | denied => exact absurd h_yes (by simp [DeviceCodeStore.answer, DeviceOutcome.status])
    obtain rfl : userId = u := Option.some.inj h_user
    obtain rfl : approvedAt = t := Option.some.inj h_at
    exact ⟨tr, [], input, prunedAt, _, s, rec, rfl, h.key, h_run, h_get, h_status, h_live,
      h_code.symm⟩
  created := h.created
  polled t₁ t₂ t₃ e hy := by
    rcases List.mem_append.mp hy with hy | hy
    · exact h.polled t₁ t₂ t₃ e hy
    · simp at hy

/-- The record its opener polled without collecting it. -/
theorem RecordHistory.touches {tr : List (DeviceOp × DeviceEvent)} {s : DeviceState}
    (hi : DeviceHistory tr s) {d : String} {rec : DeviceRequestRecord}
    (h : RecordHistory tr d rec) (h_last : rec.lastPolledAt ≤ s.clock) {c : String}
    {t₁ t₂ t₃ : ℕ} {error : DevicePollError} (h_clock : s.clock ≤ t₂) :
    RecordHistory (tr ++ [(.poll d c t₁ t₂ t₃, .polled (.error error))]) d
      { rec with lastPolledAt := t₂ } where
  key := h.key
  opened := h.opened.append _
  expires := h.expires
  uncollected y hy := by
    rcases List.mem_append.mp hy with hy | hy
    · exact h.uncollected y hy
    · obtain rfl := List.mem_singleton.mp hy
      simp [collectedBy]
  answered y hy outcome h_eq := by
    rcases List.mem_append.mp hy with hy | hy
    · exact h.answered y hy outcome h_eq
    · obtain rfl := List.mem_singleton.mp hy
      simp [answeredBy] at h_eq
  approved h_status u t h_user h_at := (h.approved h_status u t h_user h_at).append _
  created := (h.created.trans h_last).trans h_clock
  polled u₁ u₂ u₃ e hy := by
    rcases List.mem_append.mp hy with hy | hy
    · exact (hi.polls _ _ _ _ _ _ hy).trans h_clock
    · obtain ⟨⟨-, -, -, rfl, -⟩, -⟩ : (d = d ∧ rec.clientId = c ∧ u₁ = t₁ ∧ u₂ = t₂ ∧ u₃ = t₃) ∧ _ := by
        simpa using hy
      exact le_refl u₂

/-- Every record stored after a call has its history. -/
theorem DeviceHistory.rows_step {tr : List (DeviceOp × DeviceEvent)} {s s' : DeviceState}
    {x : DeviceOp × DeviceEvent} (hi : DeviceHistory tr s) (h_run : deviceMachine.Run tr s)
    (h_le : s.clock ≤ s'.clock) (h_minted : s.minted ⊆ s'.minted) (h : DeviceShape s s' x)
    (k : String) (r : DeviceRequestRecord) (h_get : s'.store.requests.get? k = some r) :
    RecordHistory (tr ++ [x]) k r ∧ k ∈ s'.minted ∧ r.lastPolledAt ≤ s'.clock := by
  -- a record the call is not about keeps its history
  have h_keep : s.store.requests.get? k = some r →
      (∀ outcome, answeredBy x ≠ some (k, outcome)) → collectedBy x ≠ some k →
      (∀ t₁ t₂ t₃, x.1 ≠ .poll k r.clientId t₁ t₂ t₃) →
      RecordHistory (tr ++ [x]) k r ∧ k ∈ s'.minted ∧ r.lastPolledAt ≤ s'.clock := by
    intro h_old h_answer h_collect h_poll
    obtain ⟨h_row, h_mint, h_last⟩ := hi.rows k r h_old
    exact ⟨h_row.append h_answer h_collect h_poll, h_minted h_mint, h_last.trans h_le⟩
  cases h with
  | @drops op e h_rows h_open h_answer h_collect h_poll h_count =>
    refine h_keep (h_rows k r h_get) (fun outcome h_eq => ?_) (fun h_eq => ?_) ?_
    · unfold answeredBy at h_eq
      split at h_eq
      · next h_e => exact h_answer _ (congrArg Prod.snd h_e)
      · exact absurd h_eq (by simp)
    · unfold collectedBy at h_eq
      split at h_eq
      · next h_e => exact h_collect _ (congrArg Prod.snd h_e)
      · exact absurd h_eq (by simp)
    · exact fun t₁ t₂ t₃ h_op => h_poll k _ t₁ t₂ t₃ r h_op h_get rfl
  | opens params draws prunedAt rec h_fresh h_mint h_clock h_client h_ip h_exp h_polled h_status
      h_code h_cap h_cap_ip h_store =>
    rw [h_store] at h_get
    rcases Table.get?_set_eq_some h_get with ⟨rfl, rfl⟩ | ⟨h_ne, h_old⟩
    · refine ⟨.opens hi h_fresh h_clock.1 h_client h_exp h_polled h_status, h_mint, ?_⟩
      rw [h_polled, h_clock.2]
    · exact h_keep (DeviceCodeStore.get?_prune.mp h_old).1 (by simp [answeredBy])
        (by simp [collectedBy]) (by simp)
  | answers input outcome userId prunedAt approvedAt d rec h_rec h_live h_status h_code h_store =>
    rw [h_store, Table.get?_modify] at h_get
    obtain ⟨r₀, h_old, h_eq⟩ := Option.map_eq_some_iff.mp h_get
    have h_old := (DeviceCodeStore.get?_prune.mp h_old).1
    obtain ⟨h_row, h_mint, h_last⟩ := hi.rows d rec h_rec
    split at h_eq
    · next h_key =>
      subst h_key h_eq
      obtain rfl : r₀ = rec := Option.some.inj (h_old.symm.trans h_rec)
      exact ⟨h_row.answers h_run h_rec h_live h_status h_code, h_minted h_mint, h_last.trans h_le⟩
    · next h_ne =>
      subst h_eq
      refine h_keep h_old (fun o h_eq => h_ne ?_) (by simp [collectedBy]) (by simp)
      simp only [answeredBy, DeviceCodeStore.answer, Option.some.injEq, Prod.mk.injEq] at h_eq
      exact h_eq.1.symm.trans h_row.key
  | touches d c t₁ t₂ t₃ rec error h_rec h_clock h_store =>
    rw [h_store, Table.get?_modify] at h_get
    obtain ⟨r₀, h_old, h_eq⟩ := Option.map_eq_some_iff.mp h_get
    obtain ⟨h_row, h_mint, h_last⟩ := hi.rows k r₀ h_old
    split at h_eq
    · next h_key =>
      subst h_key h_eq
      exact ⟨h_row.touches hi h_last h_clock.1, h_minted h_mint, h_clock.2⟩
    · next h_ne =>
      subst h_eq
      refine h_keep h_old (by simp [answeredBy]) (by simp [collectedBy]) ?_
      rintro _ _ _ ⟨⟩
      exact h_ne rfl
  | collects d c t₁ t₂ t₃ rec userId approvedAt h_rec h_client h_live h_status h_user h_at h_slow
      h_gone h_rows h_count =>
    have h_ne : d ≠ k := by
      rintro rfl
      rw [h_gone] at h_get
      exact absurd h_get (by simp)
    refine h_keep (h_rows k r h_get) (by simp [answeredBy]) (by simpa [collectedBy] using h_ne) ?_
    rintro _ _ _ ⟨⟩
    exact h_ne rfl

theorem DeviceHistory.step {tr : List (DeviceOp × DeviceEvent)} {s s' : DeviceState}
    {op : DeviceOp} {e : DeviceEvent} (h_run : deviceMachine.Run tr s)
    (hi : DeviceHistory tr s) (hs : deviceMachine.step s op = some (s', e)) :
    DeviceHistory (tr ++ [(op, e)]) s' := by
  obtain ⟨h_le, h_minted, h_readings, h_shape⟩ := DeviceState.step_shape hs
  refine ⟨fun k r h_get => ?_, fun y hy d h_about => ?_, fun d c t₁ t₂ t₃ e' hy => ?_⟩
  · exact hi.rows_step h_run h_le h_minted h_shape k r h_get
  · rcases List.mem_append.mp hy with hy | hy
    · exact h_minted (hi.seen y hy d h_about)
    · obtain rfl := List.mem_singleton.mp hy
      obtain ⟨rec, h_get⟩ := h_shape.seen hi h_about
      exact h_minted (hi.rows d rec h_get).2.1
  · rcases List.mem_append.mp hy with hy | hy
    · exact (hi.polls d c t₁ t₂ t₃ e' hy).trans h_le
    · obtain ⟨rfl, rfl⟩ := Prod.mk.inj (List.mem_singleton.mp hy)
      exact h_readings t₂ (by simp [DeviceOp.readings])

theorem DeviceHistory.of_run {tr : List (DeviceOp × DeviceEvent)} {s : DeviceState}
    (h : deviceMachine.Run tr s) : DeviceHistory tr s :=
  h.history .init fun _ _ _ _ _ h_run hi _ hs => hi.step h_run hs

/-! ### The caps on the pending set -/

namespace DeviceCodeStore

/-- How many pending records have an address that satisfies `p`. -/
def pendingFrom (s : DeviceCodeStore) (p : Option String → Bool) : ℕ :=
  s.requests.values.countP fun r => decide (r.status = .pending) && p r.ip

theorem pendingFrom_true (s : DeviceCodeStore) :
    s.pendingFrom (fun _ => true) = s.pending.length := by
  simp [pendingFrom, pending, List.countP_eq_length_filter]

theorem pendingFrom_ip (s : DeviceCodeStore) (ip : Option String) :
    s.pendingFrom (fun a => decide (a = ip)) =
      (s.pending.filter fun r => decide (r.ip = ip)).length := by
  simp [pendingFrom, pending, List.countP_eq_length_filter, List.filter_filter, Bool.and_comm]

end DeviceCodeStore

/-- At most 64 requests are pending, and at most 8 of them from one known address. -/
structure PendingCaps (s : DeviceState) : Prop where
  total : s.store.pending.length ≤ maxPending
  perIp : ∀ ip, ip ≠ none →
    (s.store.pending.filter fun r => decide (r.ip = ip)).length ≤ maxPendingPerIp

/-- Only opening a request raises a count, by one, and it opens below the cap. -/
theorem DeviceShape.pendingFrom_le {tr : List (DeviceOp × DeviceEvent)} {s s' : DeviceState}
    {x : DeviceOp × DeviceEvent} (h : DeviceShape s s' x) (hi : DeviceHistory tr s)
    (p : Option String → Bool) :
    s'.store.pendingFrom p ≤ s.store.pendingFrom p ∨
      ∃ now ip, p ip = true ∧
        s'.store.pendingFrom p = (s.store.prune now).pendingFrom p + 1 ∧
        (s.store.prune now).pending.length < maxPending ∧
        (ip ≠ none → ((s.store.prune now).pending.filter fun r =>
          decide (r.ip = ip)).length < maxPendingPerIp) := by
  have h_prune : ∀ now, (s.store.prune now).pendingFrom p ≤ s.store.pendingFrom p :=
    fun now => Table.countP_filter_le _ _ _
  cases h with
  | drops _ _ _ _ _ h_count => exact .inl (h_count _)
  | collects _ _ _ _ _ _ _ _ _ _ _ _ _ _ _ _ _ h_count => exact .inl (h_count _)
  | opens params draws prunedAt rec h_fresh h_mint h_clock h_client h_ip h_exp h_polled h_status
      h_code h_cap h_cap_ip h_store =>
    have h_new : (s.store.prune prunedAt).requests.get? rec.deviceCode = none := by
      rw [Option.eq_none_iff_forall_ne_some]
      intro r h_get
      exact h_fresh (hi.rows _ r (DeviceCodeStore.get?_prune.mp h_get).1).2.1
    have h_count : s'.store.pendingFrom p =
        (s.store.prune prunedAt).pendingFrom p + if p rec.ip then 1 else 0 := by
      rw [h_store, DeviceCodeStore.pendingFrom, Table.countP_set_of_fresh _ _ _ _ h_new]
      simp [DeviceCodeStore.pendingFrom, h_status]
    cases hp : p rec.ip with
    | false =>
      rw [hp] at h_count
      exact .inl (h_count.trans_le (h_prune prunedAt))
    | true =>
      rw [hp] at h_count
      exact .inr ⟨prunedAt, rec.ip, hp, h_count, h_cap, fun h_some => by
        rw [h_ip] at h_some ⊢
        exact h_cap_ip h_some⟩
  | answers input outcome userId prunedAt approvedAt d rec h_get h_live h_status h_code h_store =>
    rw [h_store]
    refine .inl (le_trans (Table.countP_modify_le _ _ _ _ fun r _ h_q => ?_) (h_prune prunedAt))
    cases outcome <;> simp [DeviceCodeStore.answer, DeviceOutcome.status] at h_q
  | touches d c t₁ t₂ t₃ rec error h_get h_clock h_store =>
    rw [h_store]
    exact .inl (Table.countP_modify_le _ _ _ _ fun r _ h_q => h_q)

theorem PendingCaps.step {tr : List (DeviceOp × DeviceEvent)} {s s' : DeviceState}
    {x : DeviceOp × DeviceEvent} (hc : PendingCaps s) (hi : DeviceHistory tr s)
    (h : DeviceShape s s' x) : PendingCaps s' := by
  constructor
  · rw [← DeviceCodeStore.pendingFrom_true]
    rcases h.pendingFrom_le hi fun _ => true with h_le | ⟨now, ip, -, h_eq, h_cap, -⟩
    · rw [DeviceCodeStore.pendingFrom_true s.store] at h_le
      exact h_le.trans hc.total
    · rw [DeviceCodeStore.pendingFrom_true (s.store.prune now)] at h_eq
      omega
  · intro ip h_some
    rw [← DeviceCodeStore.pendingFrom_ip]
    rcases h.pendingFrom_le hi fun a => decide (a = ip) with h_le | ⟨now, a, h_a, h_eq, -, h_cap⟩
    · rw [DeviceCodeStore.pendingFrom_ip s.store] at h_le
      exact h_le.trans (hc.perIp ip h_some)
    · obtain rfl : a = ip := by simpa using h_a
      rw [DeviceCodeStore.pendingFrom_ip (s.store.prune now)] at h_eq
      have := h_cap h_some
      omega

theorem PendingCaps.of_run {tr : List (DeviceOp × DeviceEvent)} {s : DeviceState}
    (h : deviceMachine.Run tr s) : PendingCaps s := by
  refine h.history (P := fun _ s => PendingCaps s) ?_ fun _ _ _ _ _ h_run hc _ hs =>
    hc.step (.of_run h_run) (DeviceState.step_shape hs).2.2.2
  exact ⟨Nat.zero_le _, fun _ _ => Nat.zero_le _⟩

/-! ### The protocol -/

/-- What holds of the past `pre` when a poll of `d` by `c` with the clock readings `t₁`
and `t₃` collects the grant `r`. -/
structure GrantJustified (pre : List (DeviceOp × DeviceEvent)) (d c : String) (t₁ t₃ : ℕ)
    (r : ApprovedDeviceRequest) : Prop where
  /-- It was not collected before. -/
  once : ∀ y ∈ pre, collectedBy y ≠ some d
  /-- `c` opened it, at least 4.5 seconds ago, and it has not expired. -/
  opened : ∃ createdAt, OpenedBy pre d c createdAt ∧ createdAt + 4500 ≤ t₃ ∧
    t₁ ≤ createdAt + deviceTtlMs
  /-- It was approved, with the user and the time the grant carries. -/
  approved : ApprovedBy pre d r.userId r.approvedAt
  /-- It was not denied. -/
  notDenied : ∀ y ∈ pre, answeredBy y ≠ some (d, .denied)
  /-- Every earlier poll of `d` by `c` is at least 4.5 seconds ago. -/
  paced : ∀ u₁ u₂ u₃ e, (.poll d c u₁ u₂ u₃, e) ∈ pre → u₂ + 4500 ≤ t₃

/-- A collected grant is justified by the run before the poll. -/
theorem grant_justified {pre : List (DeviceOp × DeviceEvent)} {s s' : DeviceState}
    (h_run : deviceMachine.Run pre s) {d c : String} {t₁ t₂ t₃ : ℕ} {r : ApprovedDeviceRequest}
    (hs : deviceMachine.step s (.poll d c t₁ t₂ t₃) = some (s', .polled (.ok r))) :
    GrantJustified pre d c t₁ t₃ r := by
  obtain ⟨-, -, -, h_shape⟩ := DeviceState.step_shape hs
  cases h_shape with
  | drops _ _ _ h_collect => exact absurd rfl (h_collect r)
  | collects _ _ _ _ _ rec userId approvedAt h_get h_client h_live h_status h_user h_at h_slow =>
    have h := ((DeviceHistory.of_run h_run).rows d rec h_get).1
    subst h_client
    have h_pace : ∀ u, u ≤ rec.lastPolledAt → u + 4500 ≤ t₃ := by
      simp only [pollIntervalS, pollGraceMs] at h_slow
      omega
    refine ⟨h.uncollected, ⟨rec.createdAt, h.opened, h_pace _ h.created, h.expires ▸ h_live⟩,
      h.approved h_status _ _ h_user h_at, fun y hy h_denied => ?_,
      fun u₁ u₂ u₃ e hy => h_pace u₂ (h.polled u₁ u₂ u₃ e hy)⟩
    have h_status' := h.answered y hy .denied h_denied
    rw [h_status] at h_status'
    exact absurd h_status' (by decide)

/-- A request is answered once. -/
theorem answered_once {pre : List (DeviceOp × DeviceEvent)} {s s' : DeviceState}
    (h_run : deviceMachine.Run pre s) {op : DeviceOp} {e : DeviceEvent}
    (hs : deviceMachine.step s op = some (s', e)) {d : String} {outcome : DeviceOutcome}
    (h_answer : answeredBy (op, e) = some (d, outcome)) :
    ∀ y ∈ pre, ∀ o, answeredBy y ≠ some (d, o) := by
  intro y hy o h_before
  obtain ⟨-, -, -, h_shape⟩ := DeviceState.step_shape hs
  cases h_shape with
  | drops _ _ h_none =>
    unfold answeredBy at h_answer
    split at h_answer
    · next h_e => exact h_none _ (congrArg Prod.snd h_e)
    · exact absurd h_answer (by simp)
  | opens => simp [answeredBy] at h_answer
  | touches => simp [answeredBy] at h_answer
  | collects => simp [answeredBy] at h_answer
  | answers input _ userId prunedAt approvedAt d' rec h_get h_live h_status =>
    have h := ((DeviceHistory.of_run h_run).rows d' rec h_get).1
    obtain rfl : d' = d := by
      simp only [answeredBy, DeviceCodeStore.answer, Option.some.injEq, Prod.mk.injEq] at h_answer
      exact h.key.symm.trans h_answer.1
    have h_status' := h.answered y hy o h_before
    rw [h_status] at h_status'
    cases o <;> exact absurd h_status' (by decide)

/-- **The guarantees of the device grant.** -/
structure DeviceGrantSafe (tr : List (DeviceOp × DeviceEvent)) (s : DeviceState) : Prop where
  /-- Every collected grant is justified. -/
  grant : ∀ pre post d c t₁ t₂ t₃ r,
    tr = pre ++ (.poll d c t₁ t₂ t₃, .polled (.ok r)) :: post → GrantJustified pre d c t₁ t₃ r
  /-- An answered request is not answered again. -/
  answer : ∀ pre post x d outcome, tr = pre ++ x :: post → answeredBy x = some (d, outcome) →
    ∀ y ∈ pre, ∀ o, answeredBy y ≠ some (d, o)
  /-- The pending set stays below the caps. -/
  caps : PendingCaps s

/-- **The device grant protocol is safe** along every run of the store. -/
theorem device_grant_safe {tr : List (DeviceOp × DeviceEvent)} {s : DeviceState}
    (h : deviceMachine.Run tr s) : DeviceGrantSafe tr s where
  grant pre post d c t₁ t₂ t₃ r h_tr := by
    obtain ⟨m, m', h_pre, -, hs, -, -⟩ := (h_tr ▸ h).split_step
    exact grant_justified h_pre hs
  answer pre post x d outcome h_tr h_answer := by
    obtain ⟨m, m', h_pre, -, hs, -, -⟩ := (h_tr ▸ h).split_step
    exact answered_once h_pre hs h_answer
  caps := .of_run h

/-- A pairing: opened, approved, and collected after the interval. -/
def pairingOps : List DeviceOp :=
  [.request ⟨"tv", "openid", none, none⟩ "d" (fun _ _ => firstPlace) 0 0,
    .resolve "bbbb-bbbb".toList .approved "u" 1000 1000, .poll "d" "tv" 5000 5000 5000]

theorem device_grant_safe_pairing : ∃ tr s, deviceMachine.exec .initial pairingOps = some (tr, s) ∧
    (∃ y ∈ tr, collectedBy y = some "d") ∧ DeviceGrantSafe tr s :=
  ⟨_, _, rfl, ⟨_, List.mem_cons_of_mem _ (List.mem_cons_of_mem _ List.mem_cons_self), rfl⟩,
    device_grant_safe (Machine.run_of_exec pairingOps rfl)⟩

end ServerCentral.Oidc
