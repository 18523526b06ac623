import ServerCentral.Auth.Machine

/-!
# The login throttle

A login checks the failure record of its source before it awaits the password
verification, and the failure is counted after it. The record of a source is the one of
its key, its address or else the normalized user name.

`ThrottleStep` is what one step does to the record of a key and to the number of
verifications under way for it. While failures and verifications together stay below the
limit, which is `Paced`, they bound the verifications since any earlier point, and when the
cooldown is armed nothing is under way any more.
-/

open Framework

namespace ServerCentral.Auth

/-- Where a login comes from. -/
inductive LoginSource where
  | address (ip : String)
  | username (name : String)
  deriving DecidableEq, Repr

/-- The key of the failure record. -/
def LoginSource.key : LoginSource → String
  | .address ip => ip
  | .username name => name

def LoginSource.isAddress : LoginSource → Bool
  | .address _ => true
  | .username _ => false

variable (env : AuthEnv)

def loginSource (username : String) (ip : Option String) : LoginSource :=
  match ip with
  | some ip => .address ip
  | none => .username (AuthStore.normalizeUsername env username)

/-- The source of a login that awaits its verification. -/
def LoginAttempt.source (attempt : LoginAttempt) : LoginSource :=
  match attempt.ip with
  | some ip => .address ip
  | none => .username attempt.key

def AuthTask.verifies (key : String) : AuthTask → Bool
  | .verifying attempt => attempt.key = key
  | _ => false

namespace AuthState

variable (s : AuthState)

/-- The verifications under way for a key. -/
def inFlight (key : String) : ℕ := s.tasks.values.countP (AuthTask.verifies key)

/-- The failures counted for a key. -/
def failures (key : String) : ℕ := ((s.store.loginFailures.get? key).map LoginFailures.count).getD 0

/-- The failure record is empty, or its cooldown is over. -/
def Unblocked (key : String) : Prop :=
  ∀ entry ∈ s.store.loginFailures.get? key, entry.blockedUntil ≤ s.clock

end AuthState

/-! ### What the throttle promises -/

/-- A step that starts a verification for the source. -/
def startsVerification (source : LoginSource) : AuthLabel × AuthOut → Bool
  | (.call (.login username _ ip _ _), ⟨_, _, .await (.verifying _)⟩) =>
    loginSource env username ip = source
  | _ => false

/-- The verifications performed for the source along a trace. -/
def verifications (source : LoginSource) (tr : List (AuthLabel × AuthOut)) : ℕ :=
  tr.countP (startsVerification env source)

/-- A login of the source within the cooldown is refused. -/
def RefusedUntil (source : LoginSource) (end₀ : ℕ) (tr : List (AuthLabel × AuthOut)) : Prop :=
  ∀ username password ip userAgent now o,
    (AuthLabel.call (.login username password ip userAgent now), o) ∈ tr →
      loginSource env username ip = source → now < end₀ →
        o.next = .throw "Too many failed attempts — try again later"

/-- **The throttle**: there are at most `maxLoginFailures` verifications, or at most so many
up to a failure after which every login is refused for the whole cooldown. -/
def Throttled (source : LoginSource) (tr : List (AuthLabel × AuthOut)) : Prop :=
  verifications env source tr ≤ maxLoginFailures ∨
  ∃ mid task r o rest, tr = mid ++ (.resume task r, o) :: rest ∧
    o.next = .throw "Invalid username or password" ∧
    verifications env source mid ≤ maxLoginFailures ∧
    RefusedUntil env source (r.now + loginBlockMs) rest

/-- The source does not log in successfully with this step. -/
def LoginFails (source : LoginSource) (s : AuthState) : AuthLabel → Prop
  | .resume task _ =>
    match s.tasks.get? task with
    | some (.verifying attempt) => attempt.source = source →
      ¬(attempt.userId.isSome = true ∧ env.verify attempt.password attempt.hash = true)
    | _ => True
  | _ => True

instance (source : LoginSource) (s : AuthState) (l : AuthLabel) :
    Decidable (LoginFails env source s l) := by
  induction l using AuthLabel.casesOn with
  | resume task r =>
    delta LoginFails
    dsimp only
    generalize s.tasks.get? task = found
    induction found using Option.casesOn with
    | none => exact instDecidableTrue
    | some task =>
      induction task using AuthTask.casesOn with
      | verifying attempt => exact inferInstanceAs (Decidable (_ → ¬(_ ∧ _)))
      | _ => exact instDecidableTrue
  | call op => exact instDecidableTrue

/-- A login that is not refused starts while its failures and the verifications under way
are fewer than the limit, no verification rejects, and no user name without an address is
spelled like an address. -/
def Paced (isAddress : String → Bool) (s : AuthState) : AuthLabel → Prop
  | .call (.login username _ ip _ now) =>
    let key := (loginSource env username ip).key
    isAddress key = ip.isSome ∧
      ((s.store.loginFailures.get? key).any (fun blocked => blocked.blockedUntil > now) = true ∨
        s.failures key + s.inFlight key < maxLoginFailures)
  | .resume task r =>
    match s.tasks.get? task with
    | some (.verifying _) => r.error = none
    | _ => True
  | _ => True

instance (isAddress : String → Bool) (s : AuthState) (l : AuthLabel) :
    Decidable (Paced env isAddress s l) := by
  induction l using AuthLabel.casesOn with
  | call op =>
    induction op using AuthOp.casesOn with
    | login username password ip userAgent now => exact inferInstanceAs (Decidable (_ ∧ (_ ∨ _)))
    | _ => exact instDecidableTrue
  | resume task r =>
    delta Paced
    dsimp only
    generalize s.tasks.get? task = found
    induction found using Option.casesOn with
    | none => exact instDecidableTrue
    | some task =>
      induction task using AuthTask.casesOn with
      | verifying attempt => exact inferInstanceAs (Decidable (r.error = none))
      | _ => exact instDecidableTrue

/-! ### One step -/

variable {env}

/-- What a step does to the record of a key and to its verifications. -/
inductive ThrottleStep (env : AuthEnv) (key : String) (s s' : AuthState) (l : AuthLabel)
    (o : AuthOut) : Prop
  /-- Another step. -/
  | quiet (h_record : s'.store.loginFailures.get? key = s.store.loginFailures.get? key)
      (h_flight : s'.inFlight key = s.inFlight key)
      (h_login : ∀ username password ip userAgent now,
        l = .call (.login username password ip userAgent now) →
          (loginSource env username ip).key ≠ key)
  /-- A login is refused. -/
  | refused (username password : String) (ip userAgent : Option String) (now : ℕ)
      (h_label : l = .call (.login username password ip userAgent now))
      (h_key : (loginSource env username ip).key = key)
      (h_blocked : ∃ entry ∈ s.store.loginFailures.get? key, now < entry.blockedUntil)
      (h_record : s'.store.loginFailures.get? key = s.store.loginFailures.get? key)
      (h_flight : s'.inFlight key = s.inFlight key)
      (h_out : o.next = .throw "Too many failed attempts — try again later")
  /-- A verification starts. -/
  | starts (username password : String) (ip userAgent : Option String) (now : ℕ)
      (h_label : l = .call (.login username password ip userAgent now))
      (h_key : (loginSource env username ip).key = key)
      (h_free : ∀ entry ∈ s.store.loginFailures.get? key, entry.blockedUntil ≤ now)
      (h_record : s'.store.loginFailures.get? key = s.store.loginFailures.get? key)
      (h_flight : s'.inFlight key = s.inFlight key + 1)
  /-- A verification fails. -/
  | fails (task : ℕ) (r : Resumption) (attempt : LoginAttempt) (h_label : l = .resume task r)
      (h_task : s.tasks.get? task = some (.verifying attempt)) (h_key : attempt.key = key)
      (h_store : s'.store = s.store.recordLoginFailure key r.now)
      (h_flight : s'.inFlight key + 1 = s.inFlight key)
      (h_out : o.next = .throw "Invalid username or password")
  /-- A verification succeeds. -/
  | succeeds (task : ℕ) (r : Resumption) (attempt : LoginAttempt) (h_label : l = .resume task r)
      (h_task : s.tasks.get? task = some (.verifying attempt)) (h_key : attempt.key = key)
      (h_verify : attempt.userId.isSome = true ∧ env.verify attempt.password attempt.hash = true)
      (h_record : s'.store.loginFailures.get? key = none)
      (h_flight : s'.inFlight key + 1 = s.inFlight key)
  /-- A verification rejects. -/
  | rejects (task : ℕ) (r : Resumption) (attempt : LoginAttempt) (h_label : l = .resume task r)
      (h_task : s.tasks.get? task = some (.verifying attempt)) (h_key : attempt.key = key)
      (h_error : r.error ≠ none)
      (h_record : s'.store.loginFailures.get? key = s.store.loginFailures.get? key)
      (h_flight : s'.inFlight key + 1 = s.inFlight key)

/-- A segment that has nothing to do with logins. -/
def Unrelated (s : AuthStore) (seg : Segment) : Prop :=
  seg.store.loginFailures = s.loginFailures ∧ ∀ attempt, seg.next ≠ .await (.verifying attempt)

theorem Unrelated.setFields (s : AuthStore) (userId : String) (change : UserRecord → UserRecord)
    (changeDefaults : UserDefaults → UserDefaults) :
    Unrelated s (s.setFields userId change changeDefaults) := by
  unfold AuthStore.setFields
  split
  · exact ⟨rfl, (by rintro _ ⟨⟩)⟩
  · exact ⟨rfl, (by rintro _ ⟨⟩)⟩
  · refine ⟨?_, (by rintro _ ⟨⟩)⟩
    dsimp only
    split <;> rfl

/-- Every method but `login`. -/
theorem Unrelated.call (s : AuthStore) {op : AuthOp}
    (h_login : ∀ username password ip userAgent now,
      op ≠ .login username password ip userAgent now) :
    Unrelated s (AuthState.call env s op) := by
  have h_leaf : ∀ {store : AuthStore} {writes : List AuthFile} {next : AuthNext},
      store.loginFailures = s.loginFailures → (∀ attempt, next ≠ .await (.verifying attempt)) →
      Unrelated s ⟨store, writes, next⟩ := fun h h' => ⟨h, h'⟩
  have h_fail : ∀ message, Unrelated s (s.fail message) :=
    fun message => h_leaf rfl (by rintro _ ⟨⟩)
  cases op with
  | setupOwner =>
    unfold AuthState.call AuthStore.setupOwner
    dsimp only
    split
    · exact h_fail _
    · split
      · exact h_fail _
      · exact h_leaf rfl (by rintro _ ⟨⟩)
  | addUser =>
    unfold AuthState.call AuthStore.addUser
    dsimp only
    split
    · exact h_fail _
    · split
      · exact h_fail _
      · exact h_leaf rfl (by rintro _ ⟨⟩)
  | deleteUser =>
    unfold AuthState.call AuthStore.deleteUser
    dsimp only
    split
    · exact h_leaf rfl (by rintro _ ⟨⟩)
    · split
      · exact h_fail _
      · split
        · exact h_fail _
        · exact h_leaf rfl (by rintro _ ⟨⟩)
  | setUserRoles =>
    unfold AuthState.call AuthStore.setUserRoles
    dsimp only
    split
    · exact h_fail _
    · split
      · exact h_fail _
      · split
        · exact h_fail _
        · exact .setFields s _ _ _
  | setPermissions =>
    unfold AuthState.call AuthStore.setPermissions
    dsimp only
    split
    · exact h_fail _
    · split
      · exact h_fail _
      · exact .setFields s _ _ _
  | setSystemUser =>
    unfold AuthState.call AuthStore.setSystemUser
    dsimp only
    split
    · exact h_fail _
    · split
      · exact h_fail _
      · exact .setFields s _ _ _
  | setEmail =>
    unfold AuthState.call AuthStore.setEmail
    dsimp only
    split
    · exact h_fail _
    · split
      · exact h_fail _
      · exact .setFields s _ _ _
  | adminSetPassword =>
    unfold AuthState.call AuthStore.adminSetPassword
    dsimp only
    split
    · exact h_fail _
    · split
      · exact h_fail _
      · exact h_leaf rfl (by rintro _ ⟨⟩)
  | login => exact absurd rfl (h_login _ _ _ _ _)
  | logout =>
    unfold AuthState.call AuthStore.logout
    dsimp only
    split
    · exact h_leaf rfl (by rintro _ ⟨⟩)
    · split <;> exact h_leaf rfl (by rintro _ ⟨⟩)
  | revokeSession =>
    unfold AuthState.call AuthStore.revokeSession
    dsimp only
    split
    · exact h_fail _
    · split
      · exact h_fail _
      · exact h_leaf rfl (by rintro _ ⟨⟩)
  | authenticate =>
    unfold AuthState.call AuthStore.authenticate
    dsimp only
    split
    · exact h_leaf rfl (by rintro _ ⟨⟩)
    · split
      · exact h_leaf rfl (by rintro _ ⟨⟩)
      · split <;> exact h_leaf rfl (by rintro _ ⟨⟩)

/-- Every later segment but the one after a verification. -/
theorem Unrelated.resumed (s : AuthStore) (r : Resumption) {task : AuthTask}
    (h_task : ∀ attempt, task ≠ .verifying attempt) :
    Unrelated s (AuthState.resumed env s r task) := by
  have h_leaf : ∀ {store : AuthStore} {writes : List AuthFile} {next : AuthNext},
      store.loginFailures = s.loginFailures → (∀ attempt, next ≠ .await (.verifying attempt)) →
      Unrelated s ⟨store, writes, next⟩ := fun h h' => ⟨h, h'⟩
  unfold AuthState.resumed
  split
  · exact h_leaf rfl (by rintro _ ⟨⟩)
  cases task with
  | verifying attempt => exact absurd rfl (h_task attempt)
  | savingAccount kind userId => cases kind <;> exact h_leaf rfl (by rintro _ ⟨⟩)
  | savingReset userId =>
    unfold AuthState.continuation AuthStore.deleteSessionsForUser
    dsimp only
    split <;> exact h_leaf rfl (by rintro _ ⟨⟩)
  | hashingAccount | openingSession | hashingPassword | sweepingSessions | notifying | saving =>
    exact h_leaf rfl (by rintro _ ⟨⟩)

/-- What a login does: it is refused, or awaits its verification. -/
theorem login_cases (env : AuthEnv) (s : AuthStore) (username password : String)
    (ip userAgent : Option String) (now : ℕ) :
    (∃ entry ∈ s.loginFailures.get? (loginSource env username ip).key, now < entry.blockedUntil) ∧
      s.login env username password ip userAgent now =
        s.fail "Too many failed attempts — try again later" ∨
    (∀ entry ∈ s.loginFailures.get? (loginSource env username ip).key, entry.blockedUntil ≤ now) ∧
      ∃ attempt : LoginAttempt, attempt.key = (loginSource env username ip).key ∧ attempt.ip = ip ∧
        s.login env username password ip userAgent now = ⟨s, [], .await (.verifying attempt)⟩ := by
  have h_key : ip.getD (AuthStore.normalizeUsername env username) =
      (loginSource env username ip).key := by cases ip <;> rfl
  unfold AuthStore.login
  rw [← h_key]
  dsimp only
  cases h_get : s.loginFailures.get? (ip.getD (AuthStore.normalizeUsername env username)) with
  | none =>
    refine .inr ⟨(by rintro _ ⟨⟩), _, ?_, ?_, if_neg (by simp)⟩
    · rfl
    · rfl
  | some entry =>
    rw [Option.any_some]
    by_cases h_blocked : entry.blockedUntil > now
    · exact .inl ⟨⟨entry, rfl, h_blocked⟩, if_pos (decide_eq_true h_blocked)⟩
    · refine .inr ⟨fun e h_e => ?_, _, ?_, ?_, if_neg (by simpa using h_blocked)⟩
      · obtain rfl := Option.some.inj h_e
        exact Nat.not_lt.mp h_blocked
      · rfl
      · rfl

/-- What a login does after its verification. -/
theorem verified_cases (env : AuthEnv) (s : AuthStore) (attempt : LoginAttempt)
    (token id : String) (now : ℕ) :
    (attempt.userId.isSome = true ∧ env.verify attempt.password attempt.hash = true) ∧
      (s.verified env attempt token id now).store.loginFailures =
        s.loginFailures.erase attempt.key ∧
      (∃ userId, (s.verified env attempt token id now).next =
        .await (.openingSession token userId)) ∨
    ¬(attempt.userId.isSome = true ∧ env.verify attempt.password attempt.hash = true) ∧
      s.verified env attempt token id now =
        ⟨s.recordLoginFailure attempt.key now, [], .throw "Invalid username or password"⟩ := by
  unfold AuthStore.verified
  split
  · next userId h_user =>
    split
    · next h_ok => exact .inl ⟨⟨by simp [h_user], h_ok⟩, rfl, userId, rfl⟩
    · next h_not => exact .inr ⟨fun h => h_not h.2, rfl⟩
  · next h_none => exact .inr ⟨fun h => absurd h.1 (by simp [h_none]), rfl⟩

/-! ### Verifications under way -/

/-- Whether a method goes on to verify a password for a key. -/
def AuthNext.verifies (key : String) : AuthNext → Bool
  | .await task => task.verifies key
  | _ => false

theorem Unrelated.verifies {s : AuthStore} {seg : Segment} (h : Unrelated s seg) (key : String) :
    seg.next.verifies key = false := by
  cases h_next : seg.next with
  | await task =>
    cases task with
    | verifying attempt => exact absurd h_next (h.2 attempt)
    | _ => rfl
  | _ => rfl

namespace AuthState

variable {s : AuthState}

theorem inFlight_after (l : AuthLabel) (t : ℕ) (seg : Segment) (key : String) :
    (s.after l t seg).inFlight key = (s.tasks.erase t).values.countP (AuthTask.verifies key) +
      if seg.next.verifies key then 1 else 0 := by
  unfold inFlight after
  dsimp only
  cases seg.next with
  | await task => exact s.tasks.countP_set t task _
  | _ => rfl

theorem inFlight_of_task {t : ℕ} {task : AuthTask} (h : s.tasks.get? t = some task) (key : String) :
    s.inFlight key = (s.tasks.erase t).values.countP (AuthTask.verifies key) +
      if task.verifies key then 1 else 0 :=
  Table.countP_eq_erase _ h

/-- The clock does not run backwards. -/
theorem clock_after {l : AuthLabel} (h : s.Fresh l) (t : ℕ) (seg : Segment) :
    s.clock ≤ (s.after l t seg).clock := by
  have h_le := (List.pairwise_cons.mp h.1).1
  show s.clock ≤ l.readings.getLastD s.clock
  cases h_last : l.readings.getLast? with
  | none =>
    rw [List.getLastD_eq_getLast?, h_last]
    exact Nat.le_refl _
  | some now =>
    rw [List.getLastD_eq_getLast?, h_last]
    exact h_le now (List.mem_of_getLast? h_last)

/-- The numbers of the suspended calls are below the number of calls. -/
def TasksBelow (s : AuthState) : Prop := ∀ t task, s.tasks.get? t = some task → t < s.calls

/-- A segment that has nothing to do with logins, with the calls of other methods and the
tasks that verify nothing. -/
theorem throttleStep_unrelated {l : AuthLabel} {t : ℕ} {seg : Segment} {writes : List AuthFile}
    (h_un : Unrelated s.store seg) (key : String)
    (h_rest : (s.tasks.erase t).values.countP (AuthTask.verifies key) = s.inFlight key)
    (h_login : ∀ username password ip userAgent now,
      l ≠ .call (.login username password ip userAgent now)) :
    ThrottleStep env key s (s.after l t seg) l ⟨t, writes, seg.next⟩ := by
  refine .quiet ?_ ?_ fun username password ip userAgent now h =>
    absurd h (h_login username password ip userAgent now)
  · show seg.store.loginFailures.get? key = _
    rw [h_un.1]
  · rw [inFlight_after, h_un.verifies key, h_rest]
    rfl

theorem throttleStep_login {username password : String} {ip userAgent : Option String} {now t : ℕ}
    {writes : List AuthFile} (key : String)
    (h_rest : (s.tasks.erase t).values.countP (AuthTask.verifies key) = s.inFlight key) :
    ThrottleStep env key s (s.after (.call (.login username password ip userAgent now)) t
      (s.store.login env username password ip userAgent now))
      (.call (.login username password ip userAgent now))
      ⟨t, writes, (s.store.login env username password ip userAgent now).next⟩ := by
  have h_flight := s.inFlight_after (.call (.login username password ip userAgent now)) t
    (s.store.login env username password ip userAgent now) key
  rw [h_rest] at h_flight
  have h_record : (s.after (.call (.login username password ip userAgent now)) t
      (s.store.login env username password ip userAgent now)).store.loginFailures.get? key =
      s.store.loginFailures.get? key := by
    show (s.store.login env username password ip userAgent now).store.loginFailures.get? key = _
    obtain ⟨-, h_eq⟩ | ⟨-, attempt, -, -, h_eq⟩ :=
      login_cases env s.store username password ip userAgent now <;> rw [h_eq]
    rfl
  obtain ⟨h_blocked, h_eq⟩ | ⟨h_free, attempt, h_attempt, -, h_eq⟩ :=
    login_cases env s.store username password ip userAgent now
  · rw [h_eq] at h_record h_flight ⊢
    by_cases h_own : (loginSource env username ip).key = key
    · subst h_own
      exact .refused username password ip userAgent now rfl rfl h_blocked h_record h_flight rfl
    · refine .quiet h_record h_flight ?_
      intro username' password' ip' userAgent' now' h
      obtain ⟨rfl, -, rfl, -, -⟩ := AuthOp.login.inj (AuthLabel.call.inj h)
      exact h_own
  · have h_next : AuthNext.verifies key (.await (.verifying attempt)) =
        decide ((loginSource env username ip).key = key) := by rw [← h_attempt]; rfl
    rw [h_eq, h_next] at h_flight
    rw [h_eq] at h_record ⊢
    by_cases h_own : (loginSource env username ip).key = key
    · rw [decide_eq_true h_own, if_pos rfl] at h_flight
      subst h_own
      exact .starts username password ip userAgent now rfl rfl h_free h_record h_flight
    · rw [decide_eq_false h_own, if_neg (by simp)] at h_flight
      refine .quiet h_record h_flight ?_
      · intro username' password' ip' userAgent' now' h
        obtain ⟨rfl, -, rfl, -, -⟩ := AuthOp.login.inj (AuthLabel.call.inj h)
        exact h_own

theorem throttleStep_verified {t : ℕ} {r : Resumption} {attempt : LoginAttempt}
    {writes : List AuthFile} (h_task : s.tasks.get? t = some (.verifying attempt)) (key : String) :
    ThrottleStep env key s
      (s.after (.resume t r) t (resumed env s.store r (.verifying attempt))) (.resume t r)
      ⟨t, writes, (resumed env s.store r (.verifying attempt)).next⟩ := by
  have h_flight := s.inFlight_after (.resume t r) t (resumed env s.store r (.verifying attempt)) key
  have h_before := inFlight_of_task h_task key
  have h_login : ∀ username password ip userAgent now,
      AuthLabel.resume t r = .call (.login username password ip userAgent now) →
        (loginSource env username ip).key ≠ key := (by rintro _ _ _ _ _ ⟨⟩)
  -- what the segment does to the record, and that it verifies nothing further
  have h_seg : (resumed env s.store r (.verifying attempt)).next.verifies key = false ∧
      (attempt.key ≠ key → (resumed env s.store r (.verifying attempt)).store.loginFailures.get?
        key = s.store.loginFailures.get? key) := by
    unfold resumed
    split
    · exact ⟨rfl, fun _ => rfl⟩
    obtain ⟨-, h_erased, userId, h_next⟩ | ⟨-, h_eq⟩ :=
      verified_cases env s.store attempt r.token r.sessionId r.now
    · show (s.store.verified env attempt r.token r.sessionId r.now).next.verifies key = false ∧ _
      rw [h_next]
      refine ⟨rfl, fun h_ne => ?_⟩
      show (s.store.verified env attempt r.token r.sessionId r.now).store.loginFailures.get? key = _
      rw [h_erased, Table.get?_erase_of_ne _ (Ne.symm h_ne)]
    · show (s.store.verified env attempt r.token r.sessionId r.now).next.verifies key = false ∧ _
      rw [h_eq]
      refine ⟨rfl, fun h_ne => ?_⟩
      show (s.store.verified env attempt r.token r.sessionId r.now).store.loginFailures.get? key = _
      rw [h_eq]
      exact Table.get?_set_of_ne _ _ (Ne.symm h_ne)
  rw [h_seg.1, if_neg (by simp), Nat.add_zero] at h_flight
  by_cases h_own : attempt.key = key
  case neg =>
    refine .quiet (h_seg.2 h_own) ?_ h_login
    rw [h_flight, h_before, if_neg (by simpa [AuthTask.verifies] using h_own), Nat.add_zero]
  have h_self : AuthTask.verifies key (.verifying attempt) = true := decide_eq_true h_own
  rw [h_self, if_pos rfl, ← h_flight] at h_before
  cases h_error : r.error with
  | some message =>
    refine .rejects t r attempt rfl h_task h_own (by simp [h_error]) ?_ h_before.symm
    show (resumed env s.store r (.verifying attempt)).store.loginFailures.get? key = _
    rw [resumed, h_error]
    rfl
  | none =>
    have h_verified : resumed env s.store r (.verifying attempt) =
        s.store.verified env attempt r.token r.sessionId r.now := by
      rw [resumed, h_error]
      rfl
    rw [h_verified] at h_before ⊢
    obtain ⟨h_ok, h_erased, -⟩ | ⟨-, h_eq⟩ :=
      verified_cases env s.store attempt r.token r.sessionId r.now
    · refine .succeeds t r attempt rfl h_task h_own h_ok ?_ h_before.symm
      show (s.store.verified env attempt r.token r.sessionId r.now).store.loginFailures.get? key = _
      rw [h_erased, h_own, Table.get?_erase_self]
    · rw [h_eq] at h_before ⊢
      exact .fails t r attempt rfl h_task h_own (by rw [← h_own]; rfl) h_before.symm rfl

/-- **One step**, seen from one key. -/
theorem throttleStep {s' : AuthState} {l : AuthLabel} {o : AuthOut} (h_below : s.TasksBelow)
    (hs : s.step env l = some (s', o)) (key : String) : ThrottleStep env key s s' l o := by
  unfold AuthState.step at hs
  split at hs
  case isFalse => cases hs
  obtain ⟨⟨t, seg⟩, h_seg, h_eq⟩ := Option.map_eq_some_iff.mp hs
  obtain ⟨rfl, rfl⟩ := Prod.mk.inj h_eq
  cases l with
  | call op =>
    obtain ⟨rfl, rfl⟩ := Prod.mk.inj (Option.some.inj h_seg)
    have h_none : s.tasks.get? s.calls = none := by
      rw [Option.eq_none_iff_forall_ne_some]
      exact fun task h => Nat.lt_irrefl _ (h_below _ task h)
    have h_rest : (s.tasks.erase s.calls).values.countP (AuthTask.verifies key) = s.inFlight key := by
      rw [Table.erase_of_fresh h_none]
      rfl
    by_cases h_login : ∃ username password ip userAgent now,
        op = .login username password ip userAgent now
    · obtain ⟨username, password, ip, userAgent, now, rfl⟩ := h_login
      exact throttleStep_login key h_rest
    · have h_other : ∀ username password ip userAgent now,
          op ≠ .login username password ip userAgent now :=
        fun username password ip userAgent now h =>
          h_login ⟨username, password, ip, userAgent, now, h⟩
      exact throttleStep_unrelated (.call s.store h_other) key h_rest
        fun username password ip userAgent now h => h_other _ _ _ _ _ (AuthLabel.call.inj h)
  | resume task r =>
    obtain ⟨t', h_task, h_pair⟩ := Option.map_eq_some_iff.mp h_seg
    obtain ⟨rfl, rfl⟩ := Prod.mk.inj h_pair
    by_cases h_verify : ∃ attempt, t' = .verifying attempt
    · obtain ⟨attempt, rfl⟩ := h_verify
      exact throttleStep_verified h_task key
    · have h_other : ∀ attempt, t' ≠ .verifying attempt := fun attempt h => h_verify ⟨attempt, h⟩
      have h_rest : (s.tasks.erase task).values.countP (AuthTask.verifies key) = s.inFlight key := by
        rw [inFlight_of_task h_task key]
        cases t' with
        | verifying attempt => exact absurd rfl (h_other attempt)
        | _ => rfl
      exact throttleStep_unrelated (.resumed s.store r h_other) key h_rest
        (by rintro _ _ _ _ _ ⟨⟩)

end AuthState

end ServerCentral.Auth
