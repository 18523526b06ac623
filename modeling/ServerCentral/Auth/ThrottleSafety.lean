import ServerCentral.Auth.Throttle

/-!
# The throttle under parallel logins

`FlightInv` bounds the counted failures and the verifications under way together, along
every run that is `Paced`. From any point of such a run on, the verifications of a source are
covered by the two (`Covered`), until the failure that arms the cooldown: at that moment
nothing else is under way, so no later failure or success touches the record before the
cooldown is over.
-/

open Framework

namespace ServerCentral.Auth

variable {env : AuthEnv} {isAddress : String → Bool}

/-! ### Failures and verifications under way -/

structure FlightInv (isAddress : String → Bool) (s : AuthState) : Prop where
  below : s.TasksBelow
  source : ∀ t attempt, s.tasks.get? t = some (.verifying attempt) →
    isAddress attempt.key = attempt.ip.isSome ∧ attempt.source.key = attempt.key
  bound : ∀ key, s.failures key + s.inFlight key ≤ maxLoginFailures

/-- Only a login goes on to verify a password. -/
theorem login_of_verifying {s : AuthState} {l : AuthLabel} {t : ℕ} {seg : Segment}
    {attempt : LoginAttempt} (h_seg : s.segment env l = some (t, seg))
    (h_next : seg.next = .await (.verifying attempt)) :
    ∃ username password ip userAgent now, l = .call (.login username password ip userAgent now) ∧
      attempt.key = (loginSource env username ip).key ∧ attempt.ip = ip := by
  cases l with
  | call op =>
    obtain ⟨rfl, rfl⟩ := Prod.mk.inj (Option.some.inj h_seg)
    by_cases h_login : ∃ username password ip userAgent now,
        op = .login username password ip userAgent now
    · obtain ⟨username, password, ip, userAgent, now, rfl⟩ := h_login
      refine ⟨username, password, ip, userAgent, now, rfl, ?_⟩
      have h_next : (s.store.login env username password ip userAgent now).next =
          .await (.verifying attempt) := h_next
      obtain ⟨-, h_eq⟩ | ⟨-, attempt', h_key, h_ip, h_eq⟩ :=
        login_cases env s.store username password ip userAgent now
      · rw [h_eq] at h_next
        cases h_next
      · rw [h_eq] at h_next
        obtain rfl := AuthTask.verifying.inj (AuthNext.await.inj h_next)
        exact ⟨h_key, h_ip⟩
    · have h_other : ∀ username password ip userAgent now,
          op ≠ .login username password ip userAgent now :=
        fun username password ip userAgent now h =>
          h_login ⟨username, password, ip, userAgent, now, h⟩
      exact absurd h_next ((Unrelated.call s.store h_other).2 attempt)
  | resume task r =>
    obtain ⟨t', h_task, h_pair⟩ := Option.map_eq_some_iff.mp h_seg
    obtain ⟨rfl, rfl⟩ := Prod.mk.inj h_pair
    by_cases h_verify : ∃ attempt, t' = .verifying attempt
    · obtain ⟨attempt', rfl⟩ := h_verify
      unfold AuthState.resumed at h_next
      split at h_next
      · cases h_next
      have h_next : (s.store.verified env attempt' r.token r.sessionId r.now).next =
          .await (.verifying attempt) := h_next
      obtain ⟨-, -, userId, h_open⟩ | ⟨-, h_eq⟩ :=
        verified_cases env s.store attempt' r.token r.sessionId r.now
      · cases h_open.symm.trans h_next
      · rw [h_eq] at h_next
        cases h_next
    · exact absurd h_next
        ((Unrelated.resumed s.store r fun attempt h => h_verify ⟨attempt, h⟩).2 attempt)

/-- One more failure arms the cooldown or adds one to the count. -/
theorem failures_record {s s' : AuthState} {key : String} {now : ℕ}
    (h : s'.store = s.store.recordLoginFailure key now) :
    s.failures key + 1 ≥ maxLoginFailures ∧ s'.failures key = 0 ∧
      (∃ entry, s'.store.loginFailures.get? key = some entry ∧
        entry.blockedUntil = now + loginBlockMs) ∨
    s.failures key + 1 < maxLoginFailures ∧ s'.failures key = s.failures key + 1 := by
  have h_count : s.failures key = ((s.store.loginFailures.get? key).getD ⟨0, 0⟩).count := by
    unfold AuthState.failures
    cases s.store.loginFailures.get? key <;> rfl
  have h_get : s'.store.loginFailures.get? key = some
      (if s.failures key + 1 ≥ maxLoginFailures then ⟨0, now + loginBlockMs⟩
        else ⟨s.failures key + 1, ((s.store.loginFailures.get? key).getD ⟨0, 0⟩).blockedUntil⟩) := by
    rw [h, h_count]
    exact Table.get?_set_self _ _ _
  by_cases h_full : s.failures key + 1 ≥ maxLoginFailures
  · rw [if_pos h_full] at h_get
    refine .inl ⟨h_full, ?_, _, h_get, rfl⟩
    rw [AuthState.failures, h_get]
    rfl
  · rw [if_neg h_full] at h_get
    refine .inr ⟨Nat.not_le.mp h_full, ?_⟩
    show ((s'.store.loginFailures.get? key).map LoginFailures.count).getD 0 = _
    rw [h_get]
    rfl

theorem failures_congr {s s' : AuthState} {key : String}
    (h : s'.store.loginFailures.get? key = s.store.loginFailures.get? key) :
    s'.failures key = s.failures key := by
  rw [AuthState.failures, h, AuthState.failures]

theorem failures_none {s : AuthState} {key : String}
    (h : s.store.loginFailures.get? key = none) : s.failures key = 0 := by
  rw [AuthState.failures, h]
  rfl

theorem FlightInv.init (isAddress : String → Bool) (s₀ : AuthStore) :
    FlightInv isAddress (.loaded { s₀ with loginFailures := .empty }) where
  below t task h := absurd h (by simp [AuthState.loaded])
  source t attempt h := absurd h (by simp [AuthState.loaded])
  bound key := Nat.zero_le _

/-- **Every paced step** keeps the bound. -/
theorem FlightInv.step {s s' : AuthState} {l : AuthLabel} {o : AuthOut}
    (hi : FlightInv isAddress s) (h_ok : Paced env isAddress s l)
    (hs : s.step env l = some (s', o)) : FlightInv isAddress s' := by
  have h_step := AuthState.throttleStep hi.below hs
  unfold AuthState.step at hs
  split at hs
  case isFalse => cases hs
  obtain ⟨⟨t, seg⟩, h_seg, h_eq⟩ := Option.map_eq_some_iff.mp hs
  obtain ⟨rfl, rfl⟩ := Prod.mk.inj h_eq
  constructor
  case below =>
    intro t' task h
    show t' < (s.after l t seg).calls
    cases l with
    | call op =>
      obtain ⟨rfl, -⟩ := Prod.mk.inj (Option.some.inj h_seg)
      obtain ⟨-, h_old⟩ | ⟨rfl, -⟩ := AuthState.get?_after h
      · exact Nat.lt_succ_of_lt (hi.below t' task h_old)
      · exact Nat.lt_succ_self _
    | resume t₀ r =>
      obtain ⟨task₀, h_task, h_pair⟩ := Option.map_eq_some_iff.mp h_seg
      obtain ⟨rfl, -⟩ := Prod.mk.inj h_pair
      obtain ⟨-, h_old⟩ | ⟨rfl, -⟩ := AuthState.get?_after h
      · exact hi.below t' task h_old
      · exact hi.below t' task₀ h_task
  case source =>
    intro t' attempt h
    obtain ⟨-, h_old⟩ | ⟨-, h_next⟩ := AuthState.get?_after h
    · exact hi.source t' attempt h_old
    · obtain ⟨username, password, ip, userAgent, now, rfl, h_key, h_ip⟩ :=
        login_of_verifying h_seg h_next
      rw [h_key, h_ip]
      refine ⟨h_ok.1, ?_⟩
      rw [LoginAttempt.source, h_ip, h_key]
      cases ip <;> rfl
  case bound =>
    intro key
    have h_bound := hi.bound key
    cases h_step key with
    | quiet h_record h_flight => rwa [failures_congr h_record, h_flight]
    | refused _ _ _ _ _ _ _ _ h_record h_flight => rwa [failures_congr h_record, h_flight]
    | starts username password ip userAgent now h_label h_key h_free h_record h_flight =>
      subst h_label
      rw [failures_congr h_record, h_flight]
      obtain ⟨-, h_blocked | h_few⟩ := h_ok
      · rw [h_key] at h_blocked
        cases h_get : s.store.loginFailures.get? key with
        | none =>
          rw [h_get] at h_blocked
          cases h_blocked
        | some entry =>
          rw [h_get] at h_blocked
          exact absurd (of_decide_eq_true h_blocked) (Nat.not_lt.mpr (h_free entry h_get))
      · rw [h_key] at h_few
        exact h_few
    | fails task r attempt h_label h_task h_key h_store h_flight =>
      obtain ⟨-, h_zero, -⟩ | ⟨-, h_more⟩ := failures_record h_store <;> omega
    | succeeds task r attempt h_label h_task h_key h_verify h_record h_flight =>
      have h_zero := failures_none h_record
      omega
    | rejects task r attempt h_label h_task h_key h_error h_record h_flight =>
      have h_same := failures_congr h_record
      omega

/-! ### From any point on -/

section Window

variable {source : LoginSource} {post : List (AuthLabel × AuthOut)} {s s' : AuthState}
  {l : AuthLabel} {o : AuthOut}

/-- A step whose logins have another key starts no verification for the source. -/
theorem not_starts (h : ∀ username password ip userAgent now,
    l = .call (.login username password ip userAgent now) →
      (loginSource env username ip).key ≠ source.key) :
    startsVerification env source (l, o) = false := by
  unfold startsVerification
  split
  · next username _ ip _ _ _ _ _ h_eq =>
    obtain ⟨rfl, -⟩ := Prod.mk.inj h_eq
    refine decide_eq_false fun h_source => h _ _ _ _ _ rfl ?_
    rw [h_source]
  · rfl

theorem not_starts_of_throw {message : String} (h : o.next = .throw message) :
    startsVerification env source (l, o) = false := by
  unfold startsVerification
  split
  · next h_eq =>
    obtain ⟨-, rfl⟩ := Prod.mk.inj h_eq
    cases h
  · rfl

theorem verifications_snoc_of_not (h : startsVerification env source (l, o) = false) :
    verifications env source (post ++ [(l, o)]) = verifications env source post := by
  rw [verifications, List.countP_append, List.countP_singleton, h]
  rfl

theorem verifications_snoc_le :
    verifications env source (post ++ [(l, o)]) ≤ verifications env source post + 1 := by
  rw [verifications, List.countP_append, List.countP_singleton]
  refine Nat.add_le_add_left ?_ _
  split
  · exact Nat.le_refl 1
  · exact Nat.zero_le 1

/-- The logins of one more step are refused, or come after the cooldown. -/
theorem RefusedUntil.snoc {end₀ : ℕ} (h : RefusedUntil env source end₀ post)
    (h_last : ∀ username password ip userAgent now,
      l = .call (.login username password ip userAgent now) →
        loginSource env username ip = source → now < end₀ →
          o.next = .throw "Too many failed attempts — try again later") :
    RefusedUntil env source end₀ (post ++ [(l, o)]) := by
  intro username password ip userAgent now o' h_mem h_source h_now
  obtain h_mem | h_mem := List.mem_append.mp h_mem
  · exact h _ _ _ _ _ _ h_mem h_source h_now
  · obtain ⟨rfl, rfl⟩ := Prod.mk.inj (List.mem_singleton.mp h_mem)
    exact h_last _ _ _ _ _ rfl h_source h_now

/-- The cooldown has been armed: its record is there and nothing is under way, or it is over. -/
def Armed (env : AuthEnv) (source : LoginSource) (post : List (AuthLabel × AuthOut))
    (s : AuthState) : Prop :=
  ∃ mid task r o rest, post = mid ++ (.resume task r, o) :: rest ∧
    o.next = .throw "Invalid username or password" ∧
    verifications env source mid ≤ maxLoginFailures ∧
    RefusedUntil env source (r.now + loginBlockMs) rest ∧
    (r.now + loginBlockMs ≤ s.clock ∨ s.inFlight source.key = 0 ∧
      ∃ entry, s.store.loginFailures.get? source.key = some entry ∧
        entry.blockedUntil = r.now + loginBlockMs)

/-- What holds from a point on: the verifications since then are still counted or under way,
or the cooldown has been armed. -/
def Covered (env : AuthEnv) (source : LoginSource) (post : List (AuthLabel × AuthOut))
    (s : AuthState) : Prop :=
  verifications env source post ≤ s.failures source.key + s.inFlight source.key ∨
    Armed env source post s

/-- The clock readings of a step come after the earlier ones. -/
theorem clock_of_step (hs : s.step env l = some (s', o)) : s.clock ≤ s'.clock ∧
    ∀ username password ip userAgent now,
      l = .call (.login username password ip userAgent now) → s.clock ≤ now ∧ s'.clock = now := by
  unfold AuthState.step at hs
  split at hs
  case isFalse => cases hs
  case isTrue h_fresh =>
  obtain ⟨⟨t, seg⟩, -, h_eq⟩ := Option.map_eq_some_iff.mp hs
  obtain ⟨rfl, rfl⟩ := Prod.mk.inj h_eq
  refine ⟨AuthState.clock_after h_fresh t seg, ?_⟩
  rintro username password ip userAgent now rfl
  exact ⟨(List.pairwise_cons.mp h_fresh.1).1 now List.mem_cons_self, rfl⟩

/-- **An armed cooldown** stays so until it is over. -/
theorem Armed.step (h : Armed env source post s) (h_below : s.TasksBelow)
    (hs : s.step env l = some (s', o)) : Armed env source (post ++ [(l, o)]) s' := by
  obtain ⟨mid, task, r, o₀, rest, rfl, h_throw, h_few, h_refused, h_state⟩ := h
  obtain ⟨h_clock, h_login⟩ := clock_of_step hs
  have h_split : mid ++ (AuthLabel.resume task r, o₀) :: rest ++ [(l, o)] =
      mid ++ (.resume task r, o₀) :: (rest ++ [(l, o)]) := by simp
  obtain h_over | ⟨h_none, entry, h_entry, h_until⟩ := h_state
  · refine ⟨mid, task, r, o₀, _, h_split, h_throw, h_few, h_refused.snoc ?_,
      .inl (Nat.le_trans h_over h_clock)⟩
    intro username password ip userAgent now h_label _ h_now
    have h_late := (h_login _ _ _ _ _ h_label).1
    omega
  cases AuthState.throttleStep h_below hs source.key with
  | quiet h_record h_flight h_other =>
    refine ⟨mid, task, r, o₀, _, h_split, h_throw, h_few, h_refused.snoc ?_,
      .inr ⟨h_flight.trans h_none, entry, h_record.trans h_entry, h_until⟩⟩
    intro username password ip userAgent now h_label h_source _
    exact absurd (congrArg LoginSource.key h_source) (h_other _ _ _ _ _ h_label)
  | refused username password ip userAgent now h_label h_key h_blocked h_record h_flight h_out =>
    exact ⟨mid, task, r, o₀, _, h_split, h_throw, h_few, h_refused.snoc fun _ _ _ _ _ _ _ _ => h_out,
      .inr ⟨h_flight.trans h_none, entry, h_record.trans h_entry, h_until⟩⟩
  | starts username password ip userAgent now h_label h_key h_free h_record h_flight =>
    -- the cooldown is over
    have h_end : r.now + loginBlockMs ≤ now := h_until ▸ h_free entry h_entry
    refine ⟨mid, task, r, o₀, _, h_split, h_throw, h_few, h_refused.snoc ?_,
      .inl ((h_login _ _ _ _ _ h_label).2 ▸ h_end)⟩
    intro username' password' ip' userAgent' now' h_label' _ h_now
    rw [h_label] at h_label'
    obtain ⟨-, -, -, -, rfl⟩ := AuthOp.login.inj (AuthLabel.call.inj h_label')
    omega
  | fails _ _ _ _ _ _ _ h_flight => omega
  | succeeds _ _ _ _ _ _ _ _ h_flight => omega
  | rejects _ _ _ _ _ _ _ _ h_flight => omega

/-- **Every paced step** of a run in which the source does not log in keeps the cover. -/
theorem Covered.step (h : Covered env source post s) (hi : FlightInv isAddress s)
    (h_kind : ∀ attempt : LoginAttempt, attempt.key = source.key →
      isAddress attempt.key = attempt.ip.isSome → attempt.source.key = attempt.key →
        attempt.source = source)
    (h_ok : Paced env isAddress s l) (h_fails : LoginFails env source s l)
    (hs : s.step env l = some (s', o)) : Covered env source (post ++ [(l, o)]) s' := by
  obtain h_covered | h_armed := h
  case inr => exact .inr (h_armed.step hi.below hs)
  cases AuthState.throttleStep hi.below hs source.key with
  | quiet h_record h_flight h_other =>
    left
    rw [verifications_snoc_of_not (not_starts h_other), failures_congr h_record, h_flight]
    exact h_covered
  | refused username password ip userAgent now h_label h_key h_blocked h_record h_flight h_out =>
    left
    rw [verifications_snoc_of_not (not_starts_of_throw h_out), failures_congr h_record, h_flight]
    exact h_covered
  | starts username password ip userAgent now h_label h_key h_free h_record h_flight =>
    left
    rw [failures_congr h_record, h_flight]
    exact Nat.le_trans verifications_snoc_le (Nat.add_le_add_right h_covered 1)
  | fails task r attempt h_label h_task h_key h_store h_flight h_out =>
    have h_bound := hi.bound source.key
    obtain ⟨h_full, h_zero, entry, h_entry, h_until⟩ | ⟨-, h_more⟩ := failures_record h_store
    · -- the last failure: nothing else is under way
      subst h_label
      refine .inr ⟨post, task, r, o, [], rfl, h_out, Nat.le_trans h_covered h_bound, ?_,
        .inr ⟨by omega, entry, h_entry, h_until⟩⟩
      exact fun _ _ _ _ _ _ h_mem => absurd h_mem List.not_mem_nil
    · left
      rw [verifications_snoc_of_not (not_starts_of_throw h_out), h_more]
      omega
  | succeeds task r attempt h_label h_task h_key h_verify =>
    subst h_label
    obtain ⟨h_address, h_source⟩ := hi.source task attempt h_task
    have h_not : attempt.source = source →
        ¬(attempt.userId.isSome = true ∧ env.verify attempt.password attempt.hash = true) := by
      simpa only [LoginFails, h_task] using h_fails
    exact absurd h_verify (h_not (h_kind attempt h_key h_address h_source))
  | rejects task r attempt h_label h_task h_key h_error =>
    subst h_label
    have h_none : r.error = none := by simpa only [Paced, h_task] using h_ok
    exact absurd h_none h_error

/-- A source whose key is not of its kind does not log in at all. -/
theorem verifications_eq_zero {M : Machine AuthState AuthLabel AuthOut} {m : AuthState}
    (h_kind : isAddress source.key ≠ source.isAddress)
    (h : M.Steps (fun s l => Paced env isAddress s l ∧ LoginFails env source s l) m post s) :
    verifications env source post = 0 := by
  induction h with
  | nil => rfl
  | snoc _ h_ok _ ih =>
    refine (verifications_snoc_of_not ?_).trans ih
    unfold startsVerification
    split
    · next username _ ip _ _ _ _ _ h_eq =>
      obtain ⟨rfl, -⟩ := Prod.mk.inj h_eq
      refine decide_eq_false fun h_source => h_kind ?_
      have h_address : isAddress (loginSource env username ip).key = ip.isSome := h_ok.1.1
      rw [← h_source, h_address]
      cases ip <;> rfl
    · rfl

end Window

/-- A login whose key is of the kind of the source comes from the source. -/
theorem source_eq {source : LoginSource} (h_kind : isAddress source.key = source.isAddress)
    {attempt : LoginAttempt} (h_key : attempt.key = source.key)
    (h_address : isAddress attempt.key = attempt.ip.isSome)
    (h_source : attempt.source.key = attempt.key) : attempt.source = source := by
  rw [h_key, h_kind] at h_address
  have h_eq : attempt.source.key = source.key := h_source.trans h_key
  unfold LoginAttempt.source at h_eq ⊢
  cases h_ip : attempt.ip <;> cases source <;> rw [h_ip] at h_address h_eq
  · cases h_address
  · exact congrArg LoginSource.username h_eq
  · exact congrArg LoginSource.address h_eq
  · cases h_address

/-- No account, and no password that is right. -/
def guessEnv : AuthEnv := ⟨id, fun _ _ => false, fun _ => false⟩

def noAccounts : AuthStore where
  users := .empty
  sessions := .empty
  defaults := ⟨none, none, none, none⟩
  dummyHash := "dummy"
  loginFailures := .empty

def guess (now : ℕ) : AuthLabel := .call (.login "u" "guess" (some "10.0.0.9") none now)

def isCall : AuthLabel → Bool
  | .call _ => true
  | .resume _ _ => false

end ServerCentral.Auth
