import ServerCentral.Auth.Steps

/-!
# Account uniqueness

At most one account is the owner, and no two accounts share a username or an address
(`accounts_safe`), along every run in which a `createUser` that resumes from its password
hash still passes the checks it made before, and in which `setEmail` is not called for
the key `__proto__`.

`createUser` makes its checks before it awaits the hash and inserts after it without
looking again, so the condition is needed: two `setupOwner` calls that overlap create
two owners (`setup_twice`).
-/

open Framework

namespace ServerCentral.Auth

variable {env : AuthEnv} {s₀ : AuthStore}

/-- **Uniqueness of accounts.** -/
structure AccountsUnique (s : AuthStore) : Prop where
  owner : ∀ k k' rec rec', s.users.get? k = some rec → s.users.get? k' = some rec' →
    rec.isOwner = true → rec'.isOwner = true → k = k'
  username : ∀ k k' rec rec', s.users.get? k = some rec → s.users.get? k' = some rec' →
    rec.username = rec'.username → k = k'
  email : ∀ k k' rec rec' e, s.users.get? k = some rec → s.users.get? k' = some rec' →
    s.emailOf rec = some e → s.emailOf rec' = some e → k = k'

/-- What the files must hold when they are read: unique accounts, each under its own id,
and nothing written to `Object.prototype`. -/
structure AccountsInv (s : AuthStore) : Prop where
  unique : AccountsUnique s
  key : ∀ k rec, s.users.get? k = some rec → rec.id = k
  email : s.defaults.email = none

/-- The checks of `createUser` on a store, with `needsSetup` for the owner. -/
structure AccountDraft.Allowed (draft : AccountDraft) (s : AuthStore) : Prop where
  owner : draft.isOwner = true → s.needsSetup = true
  username : ∀ u ∈ s.users.values, u.username ≠ draft.username
  email : ∀ e, draft.email = some e → ∀ u ∈ s.users.values, s.emailOf u ≠ some e

instance (draft : AccountDraft) (s : AuthStore) : Decidable (draft.Allowed s) :=
  decidable_of_iff
    ((draft.isOwner = true → s.needsSetup = true) ∧
      (∀ u ∈ s.users.values, u.username ≠ draft.username) ∧
      (draft.email ≠ none → ∀ u ∈ s.users.values, s.emailOf u ≠ draft.email)) <| by
    constructor
    · rintro ⟨h_owner, h_name, h_email⟩
      exact ⟨h_owner, h_name, fun e h_e u hu => h_e ▸ h_email (by simp [h_e]) u hu⟩
    · rintro ⟨h_owner, h_name, h_email⟩
      refine ⟨h_owner, h_name, fun h_some u hu => ?_⟩
      obtain ⟨e, h_e⟩ := Option.ne_none_iff_exists'.mp h_some
      exact h_e ▸ h_email e h_e u hu

/-- **The condition of the guarantee**: a `createUser` that resumes from its hash would
still pass its checks, and no `setEmail` is for the key `__proto__`. -/
def ChecksHold (s : AuthState) : AuthLabel → Prop
  | .call (.setEmail userId _) => userId ≠ "__proto__"
  | .resume t _ =>
    match s.tasks.get? t with
    | some (.hashingAccount _ draft) => draft.Allowed s.store
    | _ => True
  | _ => True

instance (s : AuthState) (l : AuthLabel) : Decidable (ChecksHold s l) := by
  induction l using AuthLabel.casesOn with
  | call op =>
    induction op using AuthOp.casesOn with
    | setEmail userId email => exact inferInstanceAs (Decidable (userId ≠ "__proto__"))
    | _ => exact instDecidableTrue
  | resume t r =>
    delta ChecksHold
    dsimp only
    generalize s.tasks.get? t = found
    induction found using Option.casesOn with
    | none => exact instDecidableTrue
    | some task =>
      induction task using AuthTask.casesOn with
      | hashingAccount kind draft => exact inferInstanceAs (Decidable (draft.Allowed s.store))
      | _ => exact instDecidableTrue

/-! ### The accounts of a run -/

theorem AccountsInv.emailOf {s : AuthStore} (hi : AccountsInv s) (rec : UserRecord) :
    s.emailOf rec = rec.email := by
  simp [AuthStore.emailOf, hi.email]

/-- The accounts stay unique when every account of the new table stands for an old one
under the same key, with the same name and no more rights or addresses. -/
theorem AccountsInv.of_le {s s' : AuthStore} (hi : AccountsInv s) (h_email : s'.defaults.email = none)
    (h : ∀ k rec', s'.users.get? k = some rec' → ∃ rec, s.users.get? k = some rec ∧
      rec'.id = rec.id ∧ rec'.username = rec.username ∧ rec'.isOwner = rec.isOwner ∧
      rec'.email = rec.email) : AccountsInv s' := by
  have h_of : ∀ rec, s'.emailOf rec = rec.email := by simp [AuthStore.emailOf, h_email]
  refine ⟨⟨?_, ?_, ?_⟩, ?_, h_email⟩
  · intro k k' rec rec' h_get h_get' h_owner h_owner'
    obtain ⟨o, h_old, -, -, h_eq, -⟩ := h k rec h_get
    obtain ⟨o', h_old', -, -, h_eq', -⟩ := h k' rec' h_get'
    exact hi.unique.owner k k' o o' h_old h_old' (h_eq ▸ h_owner) (h_eq' ▸ h_owner')
  · intro k k' rec rec' h_get h_get' h_name
    obtain ⟨o, h_old, -, h_eq, -⟩ := h k rec h_get
    obtain ⟨o', h_old', -, h_eq', -⟩ := h k' rec' h_get'
    exact hi.unique.username k k' o o' h_old h_old' (h_eq ▸ h_eq' ▸ h_name)
  · intro k k' rec rec' e h_get h_get' h_e h_e'
    obtain ⟨o, h_old, -, -, -, h_eq⟩ := h k rec h_get
    obtain ⟨o', h_old', -, -, -, h_eq'⟩ := h k' rec' h_get'
    rw [h_of] at h_e h_e'
    refine hi.unique.email k k' o o' e h_old h_old' ?_ ?_
    · rw [hi.emailOf, ← h_eq, h_e]
    · rw [hi.emailOf, ← h_eq', h_e']
  · intro k rec h_get
    obtain ⟨o, h_old, h_id, -⟩ := h k rec h_get
    rw [h_id, hi.key k o h_old]

/-- A new account that passes the checks keeps the accounts unique. -/
theorem AccountsInv.insertUser {s : AuthStore} (hi : AccountsInv s) {draft : AccountDraft}
    (h_ok : draft.Allowed s) (passwordHash : String) (createdAt : ℕ) :
    AccountsInv (s.insertUser draft passwordHash createdAt) := by
  have h_of : ∀ rec, (s.insertUser draft passwordHash createdAt).emailOf rec = rec.email :=
    fun rec => hi.emailOf rec
  -- another account is an old one, whose values the checks compared
  have h_get : ∀ {k rec}, (s.insertUser draft passwordHash createdAt).users.get? k = some rec →
      (k = draft.id ∧ rec.id = draft.id ∧ rec.username = draft.username ∧
        rec.isOwner = draft.isOwner ∧ rec.email = draft.email) ∨
      (s.users.get? k = some rec ∧ rec ∈ s.users.values) := by
    intro k rec h
    rcases Table.get?_set_eq_some h with ⟨h_key, rfl⟩ | ⟨-, h_old⟩
    · exact .inl ⟨h_key, rfl, rfl, rfl, rfl⟩
    · exact .inr ⟨h_old, Table.get?_of_mem_values.mpr ⟨k, h_old⟩⟩
  refine ⟨⟨?_, ?_, ?_⟩, ?_, hi.email⟩
  · intro k k' rec rec' h h' h_owner h_owner'
    have h_none : draft.isOwner = true → ∀ rec, rec ∉ s.users.values := by
      intro h_draft rec h_mem
      obtain ⟨_, h_entry⟩ := Table.mem_values.mp h_mem
      have h_empty : s.users.entries = [] := by simpa [AuthStore.needsSetup] using h_ok.owner h_draft
      simp [h_empty] at h_entry
    rcases h_get h with ⟨h_key, -, -, h_flag, -⟩ | ⟨h_old, h_mem⟩ <;>
      rcases h_get h' with ⟨h_key', -, -, h_flag', -⟩ | ⟨h_old', h_mem'⟩
    · rw [h_key, h_key']
    · exact absurd h_mem' (h_none (h_flag ▸ h_owner) rec')
    · exact absurd h_mem (h_none (h_flag' ▸ h_owner') rec)
    · exact hi.unique.owner k k' rec rec' h_old h_old' h_owner h_owner'
  · intro k k' rec rec' h h' h_name
    rcases h_get h with ⟨h_key, -, h_eq, -, -⟩ | ⟨h_old, h_mem⟩ <;>
      rcases h_get h' with ⟨h_key', -, h_eq', -, -⟩ | ⟨h_old', h_mem'⟩
    · rw [h_key, h_key']
    · exact absurd (h_eq ▸ h_name.symm) (h_ok.username rec' h_mem')
    · exact absurd (h_eq' ▸ h_name) (h_ok.username rec h_mem)
    · exact hi.unique.username k k' rec rec' h_old h_old' h_name
  · intro k k' rec rec' e h h' h_e h_e'
    rw [h_of] at h_e h_e'
    rcases h_get h with ⟨h_key, -, -, -, h_eq⟩ | ⟨h_old, h_mem⟩ <;>
      rcases h_get h' with ⟨h_key', -, -, -, h_eq'⟩ | ⟨h_old', h_mem'⟩
    · rw [h_key, h_key']
    · exact absurd ((hi.emailOf rec').trans h_e') (h_ok.email e (h_eq ▸ h_e) rec' h_mem')
    · exact absurd ((hi.emailOf rec).trans h_e) (h_ok.email e (h_eq' ▸ h_e') rec h_mem)
    · exact hi.unique.email k k' rec rec' e h_old h_old' ((hi.emailOf rec).trans h_e)
        ((hi.emailOf rec').trans h_e')
  · intro k rec h
    rcases h_get h with ⟨h_key, h_id, -⟩ | ⟨h_old, -⟩
    · rw [h_id, h_key]
    · exact hi.key k rec h_old

/-- `setEmail` gives an account an address that no other account has. -/
theorem AccountsInv.setEmail {s : AuthStore} (hi : AccountsInv s) (userId : String)
    (email : Option String) (h_free : ∀ e, email = some e → s.assertEmailAvailable e (some userId) = none) :
    AccountsInv { s with users := s.users.modify userId fun rec => { rec with email := email } } := by
  have h_get : ∀ {k rec}, (s.users.modify userId fun rec => { rec with email := email }).get? k = some rec →
      ∃ o, s.users.get? k = some o ∧ rec.id = o.id ∧ rec.username = o.username ∧
        rec.isOwner = o.isOwner ∧ (k = userId ∧ rec.email = email ∨ k ≠ userId ∧ rec.email = o.email) := by
    intro k rec h
    rw [Table.get?_modify] at h
    obtain ⟨o, h_old, rfl⟩ := Option.map_eq_some_iff.mp h
    refine ⟨o, h_old, ?_⟩
    by_cases h_key : k = userId
    · simp [h_key]
    · simp [h_key]
  have h_other : ∀ e, email = some e → ∀ k o, s.users.get? k = some o → k ≠ userId →
      o.email ≠ some e := by
    intro e h_e k o h_old h_ne h_same
    have h_none := h_free e h_e
    unfold AuthStore.assertEmailAvailable at h_none
    split at h_none
    · exact absurd h_none (by simp)
    · split at h_none
      · exact absurd h_none (by simp)
      · next h_any =>
        refine h_any (List.any_eq_true.mpr ⟨o, Table.get?_of_mem_values.mpr ⟨k, h_old⟩, ?_⟩)
        simp [hi.emailOf, h_same, hi.key k o h_old, h_ne.symm]
  refine ⟨⟨?_, ?_, ?_⟩, ?_, hi.email⟩
  · intro k k' rec rec' h h' h_owner h_owner'
    obtain ⟨o, h_old, -, -, h_eq, -⟩ := h_get h
    obtain ⟨o', h_old', -, -, h_eq', -⟩ := h_get h'
    exact hi.unique.owner k k' o o' h_old h_old' (h_eq ▸ h_owner) (h_eq' ▸ h_owner')
  · intro k k' rec rec' h h' h_name
    obtain ⟨o, h_old, -, h_eq, -⟩ := h_get h
    obtain ⟨o', h_old', -, h_eq', -⟩ := h_get h'
    exact hi.unique.username k k' o o' h_old h_old' (h_eq ▸ h_eq' ▸ h_name)
  · intro k k' rec rec' e h h' h_e h_e'
    obtain ⟨o, h_old, -, -, -, h_email⟩ := h_get h
    obtain ⟨o', h_old', -, -, -, h_email'⟩ := h_get h'
    have h_e : rec.email = some e := (hi.emailOf rec).symm.trans h_e
    have h_e' : rec'.email = some e := (hi.emailOf rec').symm.trans h_e'
    rcases h_email with ⟨h_key, h_new⟩ | ⟨h_key, h_same⟩ <;>
      rcases h_email' with ⟨h_key', h_new'⟩ | ⟨h_key', h_same'⟩
    · rw [h_key, h_key']
    · exact absurd (h_same' ▸ h_e') (h_other e (h_new ▸ h_e) k' o' h_old' h_key')
    · exact absurd (h_same ▸ h_e) (h_other e (h_new' ▸ h_e') k o h_old h_key)
    · exact hi.unique.email k k' o o' e h_old h_old' ((hi.emailOf o).trans (h_same ▸ h_e))
        ((hi.emailOf o').trans (h_same' ▸ h_e'))
  · intro k rec h
    obtain ⟨o, h_old, h_id, -⟩ := h_get h
    rw [h_id, hi.key k o h_old]

/-- One segment keeps the accounts unique. -/
theorem AccountsInv.step {s : AuthState} {l : AuthLabel} {t : ℕ} {seg : Segment}
    (hi : AccountsInv s.store) (h_ok : ChecksHold s l) (h : AuthShape env s l t seg) :
    AccountsInv seg.store := by
  cases h with
  | keeps h_users h_sessions h_defaults =>
    exact hi.of_le (h_defaults ▸ hi.email) fun k rec h => ⟨rec, h_users ▸ h, rfl, rfl, rfl, rfl⟩
  | defaults d h_email =>
    refine hi.of_le ?_ fun k rec h => ⟨rec, h, rfl, rfl, rfl, rfl⟩
    rw [h_email fun email h_eq => ?_, hi.email]
    subst h_eq
    exact absurd rfl h_ok
  | edits userId change next h_change =>
    refine hi.of_le hi.email fun k rec h => ?_
    rw [Table.get?_modify] at h
    obtain ⟨o, h_old, rfl⟩ := Option.map_eq_some_iff.mp h
    refine ⟨o, h_old, ?_⟩
    split
    · exact h_change o
    · exact ⟨rfl, rfl, rfl, rfl⟩
  | emails userId email h_free => exact hi.setEmail userId _ h_free
  | deletes userId callerId h_owner =>
    exact hi.of_le hi.email fun k rec h => ⟨rec, (Table.get?_erase.mp h).1, rfl, rfl, rfl, rfl⟩
  | inserts r kind draft h_task h_none =>
    simp only [ChecksHold, h_task] at h_ok
    exact hi.insertUser h_ok r.passwordHash r.now
  | drops sessions next h_rows =>
    exact hi.of_le hi.email fun k rec h => ⟨rec, h, rfl, rfl, rfl, rfl⟩
  | opens r task userId seg h_task h_none h_from h_users h_defaults h_sessions h_writes h_next =>
    exact hi.of_le (h_defaults ▸ hi.email) fun k rec h => ⟨rec, h_users ▸ h, rfl, rfl, rfl, rfl⟩
  | touches token session rec checkedAt seenAt h_session h_user =>
    exact hi.of_le hi.email fun k rec h => ⟨rec, h, rfl, rfl, rfl, rfl⟩

theorem AccountsInv.of_run (h₀ : AccountsInv s₀) {tr : List (AuthLabel × AuthOut)} {s : AuthState}
    (h : (authMachine env s₀).RunWhen ChecksHold tr s) : AccountsInv s.store := by
  refine h.invariant (P := fun s => AccountsInv s.store) h₀ fun s l s' o hi h_ok hs => ?_
  obtain ⟨seg, -, -, rfl, -, -, h_shape⟩ := AuthState.segment_shape hs
  exact hi.step h_ok h_shape

/-! ### First-run setup -/

/-- The step at which the call of task `t` met `p`, when no account existed. -/
def OnEmpty (env : AuthEnv) (s₀ : AuthStore) (tr : List (AuthLabel × AuthOut)) (t : ℕ)
    (p : AuthLabel × AuthOut → Prop) : Prop :=
  ∃ pre post x m, tr = pre ++ x :: post ∧ (authMachine env s₀).Run pre m ∧
    m.store.needsSetup = true ∧ x.2.task = t ∧ p x

/-- A call of `setupOwner`. -/
def CallsSetup (x : AuthLabel × AuthOut) : Prop :=
  ∃ id username password ip userAgent, x.1 = .call (.setupOwner id username password ip userAgent)

/-- The insertion of the account of `createUser`. -/
def Inserts (x : AuthLabel × AuthOut) : Prop :=
  ∃ kind userId, x.2.next = .await (.savingAccount kind userId)

theorem OnEmpty.append {tr : List (AuthLabel × AuthOut)} {t : ℕ} {p : AuthLabel × AuthOut → Prop}
    (h : OnEmpty env s₀ tr t p) (x : AuthLabel × AuthOut) : OnEmpty env s₀ (tr ++ [x]) t p := by
  obtain ⟨pre, post, y, m, rfl, h⟩ := h
  exact ⟨pre, post ++ [x], y, m, by simp, h⟩

/-- The history of the calls of `setupOwner`: one that is suspended was called when no
account existed, and it awaits its hash or has inserted its account when none existed. -/
structure SetupHistory (env : AuthEnv) (s₀ : AuthStore) (tr : List (AuthLabel × AuthOut))
    (s : AuthState) : Prop where
  calls : ∀ x ∈ tr, x.2.task < s.calls
  called : ∀ x ∈ tr, CallsSetup x → ∀ task, s.tasks.get? x.2.task = some task →
    OnEmpty env s₀ tr x.2.task CallsSetup
  inserted : ∀ x ∈ tr, CallsSetup x → ∀ task, s.tasks.get? x.2.task = some task →
    (∃ kind draft, task = .hashingAccount kind draft ∧ draft.isOwner = true) ∨
      OnEmpty env s₀ tr x.2.task Inserts
  tasks : ∀ t task, s.tasks.get? t = some task → t < s.calls

theorem SetupHistory.init : SetupHistory env s₀ [] (AuthState.loaded s₀) where
  calls := by simp
  called := by simp
  inserted := by simp
  tasks := by simp [AuthState.loaded]

/-- A `setupOwner` that goes on after its checks saw no account. -/
theorem setupOwner_await {s : AuthStore} {id username password : String}
    {ip userAgent : Option String} {task : AuthTask}
    (h : (s.setupOwner env id username password ip userAgent).next = .await task) :
    s.needsSetup = true ∧ ∃ kind draft, task = .hashingAccount kind draft ∧ draft.isOwner = true := by
  unfold AuthStore.setupOwner at h
  split at h
  · simp [AuthStore.fail] at h
  · next h_setup =>
    split at h
    · simp [AuthStore.fail] at h
    · next draft h_draft =>
      refine ⟨by simpa using h_setup, _, draft, (AuthNext.await.inj h).symm, ?_⟩
      unfold AuthStore.createUser at h_draft
      grind

theorem SetupHistory.step {tr : List (AuthLabel × AuthOut)} {s s' : AuthState} {l : AuthLabel}
    {o : AuthOut} (h_run : (authMachine env s₀).Run tr s) (hi : SetupHistory env s₀ tr s)
    (h_ok : ChecksHold s l) (hs : (authMachine env s₀).step s l = some (s', o)) :
    SetupHistory env s₀ (tr ++ [(l, o)]) s' := by
  obtain ⟨seg, -, h_seg, rfl, h_writes, h_next, h_shape⟩ := AuthState.segment_shape hs
  have h_here : ∀ p : AuthLabel × AuthOut → Prop, s.store.needsSetup = true → p (l, o) →
      OnEmpty env s₀ (tr ++ [(l, o)]) o.task p :=
    fun p h_empty h_p => ⟨tr, [], (l, o), s, rfl, h_run, h_empty, rfl, h_p⟩
  cases l with
  | call op =>
    obtain ⟨h_task, rfl⟩ : s.calls = o.task ∧ AuthState.call env s.store op = seg := by
      simpa [AuthState.segment] using h_seg
    -- the new task is not one of an earlier call
    have h_old : ∀ x ∈ tr, ∀ task, (s.after (.call op) o.task (AuthState.call env s.store op)).tasks.get?
        x.2.task = some task → s.tasks.get? x.2.task = some task := by
      intro x hx task h_get
      have h_lt := hi.calls x hx
      rcases AuthState.get?_after h_get with ⟨-, h_get⟩ | ⟨h_eq, -⟩
      · exact h_get
      · omega
    have h_new : CallsSetup (.call op, o) → ∀ task,
        (s.after (.call op) o.task (AuthState.call env s.store op)).tasks.get? o.task = some task →
        s.store.needsSetup = true ∧
          ∃ kind draft, task = .hashingAccount kind draft ∧ draft.isOwner = true := by
      rintro ⟨id, username, password, ip, userAgent, h_op⟩ task h_get
      obtain rfl := AuthLabel.call.inj h_op
      rcases AuthState.get?_after h_get with ⟨h_ne, -⟩ | ⟨-, h_await⟩
      · exact absurd rfl h_ne
      · exact setupOwner_await h_await
    refine ⟨?_, ?_, ?_, ?_⟩
    · intro x hx
      rcases List.mem_append.mp hx with hx | hx
      · exact Nat.lt_succ_of_lt (hi.calls x hx)
      · obtain rfl := List.mem_singleton.mp hx
        exact Nat.lt_succ_of_le (Nat.le_of_eq h_task.symm)
    · intro x hx h_setup task h_get
      rcases List.mem_append.mp hx with hx | hx
      · exact (hi.called x hx h_setup task (h_old x hx task h_get)).append _
      · obtain rfl := List.mem_singleton.mp hx
        exact h_here _ (h_new h_setup task h_get).1 h_setup
    · intro x hx h_setup task h_get
      rcases List.mem_append.mp hx with hx | hx
      · exact (hi.inserted x hx h_setup task (h_old x hx task h_get)).imp_right (·.append _)
      · obtain rfl := List.mem_singleton.mp hx
        exact .inl (h_new h_setup task h_get).2
    · intro t task h_get
      rcases AuthState.get?_after h_get with ⟨-, h_get⟩ | ⟨h_eq, -⟩
      · exact Nat.lt_succ_of_lt (hi.tasks t task h_get)
      · exact Nat.lt_succ_of_le (Nat.le_of_eq (h_eq.trans h_task.symm))
  | resume t r =>
    obtain ⟨t₀, h_get₀, h_pair⟩ := Option.map_eq_some_iff.mp h_seg
    obtain ⟨rfl, rfl⟩ := Prod.mk.inj h_pair
    have h_setup_tr : ∀ x ∈ tr ++ [(AuthLabel.resume o.task r, o)], CallsSetup x → x ∈ tr := by
      intro x hx h_setup
      rcases List.mem_append.mp hx with hx | hx
      · exact hx
      · obtain rfl := List.mem_singleton.mp hx
        obtain ⟨_, _, _, _, _, h_op⟩ := h_setup
        exact absurd h_op (by simp)
    refine ⟨?_, ?_, ?_, ?_⟩
    · intro x hx
      rcases List.mem_append.mp hx with hx | hx
      · exact hi.calls x hx
      · obtain rfl := List.mem_singleton.mp hx
        exact hi.tasks _ _ h_get₀
    · intro x hx h_setup task h_get
      have hx := h_setup_tr x hx h_setup
      rcases AuthState.get?_after h_get with ⟨-, h_get⟩ | ⟨h_eq, -⟩
      · exact (hi.called x hx h_setup task h_get).append _
      · exact (hi.called x hx h_setup t₀ (h_eq ▸ h_get₀)).append _
    · intro x hx h_setup task h_get
      have hx := h_setup_tr x hx h_setup
      rcases AuthState.get?_after h_get with ⟨-, h_get⟩ | ⟨h_eq, h_await⟩
      · exact (hi.inserted x hx h_setup task h_get).imp_right (·.append _)
      · rcases hi.inserted x hx h_setup t₀ (h_eq ▸ h_get₀) with ⟨kind, draft, rfl, h_owner⟩ | h_done
        · right
          simp only [ChecksHold, h_get₀] at h_ok
          rw [h_eq]
          refine h_here _ (h_ok.owner h_owner) ⟨kind, draft.id, ?_⟩
          unfold AuthState.resumed at h_await h_next
          split at h_await
          · simp [AuthStore.fail] at h_await
          · next h_none =>
            rw [h_none] at h_next
            exact h_next
        · exact .inr (h_done.append _)
    · intro t' task h_get
      rcases AuthState.get?_after h_get with ⟨-, h_get⟩ | ⟨h_eq, -⟩
      · exact hi.tasks t' task h_get
      · rw [h_eq]
        exact hi.tasks _ _ h_get₀

theorem SetupHistory.of_run {tr : List (AuthLabel × AuthOut)} {s : AuthState}
    (h : (authMachine env s₀).RunWhen ChecksHold tr s) : SetupHistory env s₀ tr s :=
  h.history .init fun _ _ _ _ _ h_run hi h_ok hs => hi.step h_run.run h_ok hs

/-! ### The guarantee -/

/-- The step at which the call of task `t` returns a session. -/
def ReturnsSession (t : ℕ) (x : AuthLabel × AuthOut) : Prop :=
  x.2.task = t ∧ ∃ token userId, x.2.next = .return (.session token userId)

/-- **The guarantees about accounts.** -/
structure AccountsSafe (env : AuthEnv) (s₀ : AuthStore) (tr : List (AuthLabel × AuthOut))
    (s : AuthState) : Prop where
  unique : AccountsUnique s.store
  /-- A `setupOwner` that succeeds was called when no account existed, and created its
  account when none existed. -/
  setup : ∀ pre post x y, tr = pre ++ y :: post → x ∈ pre → CallsSetup x →
    ReturnsSession x.2.task y →
    OnEmpty env s₀ pre x.2.task CallsSetup ∧ OnEmpty env s₀ pre x.2.task Inserts

/-- A step that returns a session to an earlier call resumes a task that awaits no hash. -/
theorem returnsSession_task {s s' : AuthState} {l : AuthLabel} {o : AuthOut} {t : ℕ}
    (h_lt : t < s.calls) (hs : (authMachine env s₀).step s l = some (s', o))
    (h : ReturnsSession t (l, o)) :
    ∃ task, s.tasks.get? t = some task ∧ ∀ kind draft, task ≠ .hashingAccount kind draft := by
  obtain ⟨rfl, token, userId, h_return⟩ := h
  obtain ⟨seg, -, h_seg, -, -, h_next, -⟩ := AuthState.segment_shape hs
  cases l with
  | call op =>
    obtain ⟨h_eq, -⟩ := Prod.mk.inj (Option.some.inj h_seg)
    exact absurd h_eq (Nat.ne_of_gt h_lt)
  | resume t r =>
    obtain ⟨task, h_get, h_pair⟩ := Option.map_eq_some_iff.mp h_seg
    obtain ⟨rfl, rfl⟩ := Prod.mk.inj h_pair
    refine ⟨task, h_get, ?_⟩
    rintro kind draft rfl
    rw [h_return] at h_next
    unfold AuthState.resumed at h_next
    split at h_next
    · simp [AuthStore.fail] at h_next
    · simp [AuthState.continuation] at h_next

/-- **Accounts are unique** along every run whose insertions still pass their checks. -/
theorem accounts_safe (h₀ : AccountsInv s₀) {tr : List (AuthLabel × AuthOut)} {s : AuthState}
    (h : (authMachine env s₀).RunWhen ChecksHold tr s) : AccountsSafe env s₀ tr s where
  unique := (AccountsInv.of_run h₀ h).unique
  setup pre post x y h_tr hx h_setup h_return := by
    obtain ⟨m, m', h_pre, -, hs, -, -⟩ := (h_tr ▸ h).split_step
    have hi := SetupHistory.of_run h_pre
    obtain ⟨task, h_get, h_not⟩ := returnsSession_task (hi.calls x hx) hs h_return
    refine ⟨hi.called x hx h_setup task h_get, ?_⟩
    rcases hi.inserted x hx h_setup task h_get with ⟨kind, draft, h_eq, -⟩ | h_done
    · exact absurd h_eq (h_not kind draft)
    · exact h_done

/-! ### First-run setup, once and twice -/

/-- No accounts, no sessions. -/
def emptyStore : AuthStore := ⟨.empty, .empty, ⟨none, none, none, none⟩, "dummy", .empty⟩

theorem emptyStore_inv : AccountsInv emptyStore := by
  refine ⟨⟨?_, ?_, ?_⟩, ?_, rfl⟩ <;> simp [emptyStore]

/-- An environment for lower-case input, in which a password is its own hash. -/
def plainEnv : AuthEnv := ⟨id, fun password hash => password == hash, fun _ => false⟩

/-- A `setupOwner` for the user `ann`, whose account gets the id `id`. -/
def setupAnn (id : String) : AuthLabel := .call (.setupOwner id "ann" "password" none none)

/-- The segment after an await that yields `hash`, a fresh token or nothing. -/
def resumeWith (task : ℕ) (token : String) : AuthLabel :=
  .resume task ⟨none, "password", token, "session-" ++ token, 0⟩

/-- One `setupOwner` from its call to its result. -/
def setupOnce : List AuthLabel :=
  [setupAnn "a", resumeWith 0 "t", resumeWith 0 "u", resumeWith 0 "v"]

theorem accounts_safe_setup : ∃ tr s,
    (authMachine plainEnv emptyStore).exec (.loaded emptyStore) setupOnce = some (tr, s) ∧
      AccountsSafe plainEnv emptyStore tr s :=
  ⟨_, _, rfl, accounts_safe emptyStore_inv
    (Machine.runWhen_of_exec setupOnce rfl (by decide))⟩

/-- Two `setupOwner` calls that overlap at the hash both create an owner, with the same
name. -/
theorem setup_twice : ∃ tr s, (authMachine plainEnv emptyStore).Run tr s ∧
    ∃ rec rec', s.store.users.get? "a" = some rec ∧ s.store.users.get? "b" = some rec' ∧
      rec.isOwner = true ∧ rec'.isOwner = true ∧ rec.username = rec'.username :=
  ⟨_, _, Machine.run_of_exec
    [setupAnn "a", setupAnn "b", resumeWith 0 "t", resumeWith 1 "u"] rfl,
    _, _, rfl, rfl, rfl, rfl, rfl⟩

end ServerCentral.Auth
